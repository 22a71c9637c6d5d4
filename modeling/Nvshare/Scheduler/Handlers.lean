import Nvshare.Scheduler.State

/-!
# The scheduler's handlers

`try_schedule`, `register_client`, `bcast_status`, `process_msg`, the main loop's handling of one
ready event and one wake-up of `timer_thr_fn`, each as a function of the state.

## Send failures

`send_message` either writes a frame in full or returns `-1`, and every caller then evicts that
peer, so within one critical section no client is written to after a failed write. One function
`ok : Nat → Bool` from record addresses to outcomes therefore describes every pattern of failures
in a critical section; the step relation quantifies over it. A successful write appends to the
log `sent`; a failed one changes nothing but what the caller does next.

A failed write is one that `send_message` returns from: a partial write, or `write` failing with
`EAGAIN`, `EWOULDBLOCK` or `ECONNRESET`. A write to a peer that has closed its end fails with
`EPIPE` only after raising `SIGPIPE`, which the daemon neither blocks nor ignores, so it ends the
process instead, as `log_fatal` does after any other `errno`. The model has no move for that end:
a run of the daemon that ends so is a prefix of a run of the model, and every property of the
reachable states holds along it.

`pthread_cond_broadcast (&timer_cv)` has no effect on the state: a waiting timer may return `0`
at any time anyway, so the broadcast only makes one of its existing moves more likely.
-/

namespace Nvshare

/-- `out_msg` as `try_schedule` and `bcast_status` send it: `main` set its id to `7331`, and
`register_client` zeroes its data after each use. -/
def outMsg (t : MessageType) : Message := ⟨t, 7331, []⟩

/-- The timer's `t_msg`. -/
def dropLockMsg : Message := ⟨.dropLock, 1337, []⟩

/-- `send_message` when the frame goes out whole: it joins the log. -/
def sendMessage (c : Client) (m : Message) (s : Sched) : Sched :=
  { s with sent := s.sent ++ [(c.handle, m)] }

/-- The success branch of `try_schedule`: LOCK_OK went out to `c`, a new round starts and the
timer is told to reset. -/
def grant (c : Client) (s : Sched) : Sched :=
  let s' := sendMessage c (outMsg .lockOk) s
  { s' with
    schedulingRound := (s.schedulingRound + 1) % 2 ^ 32
    lockHeld := true
    mustResetTimer := true
    ghost := { s.ghost with
      grants := s.ghost.grants + 1
      tenureStart := s.now
      tqSet := false
      grantedWhileHeld := s.ghost.grantedWhileHeld || s.lockHeld } }

section Handlers

variable (ok : Nat → Bool)

/-- The `try_again` loop of `try_schedule`, for at most `fuel` rounds: send LOCK_OK to the head,
and on a failed write (one `send_message` returns `-1` from, not an `EPIPE` that ends the daemon
by `SIGPIPE`) evict it and go again. -/
def tryScheduleLoop : Nat → Sched → Sched
  | 0, s => s
  | fuel + 1, s =>
    match s.requests with
    | [] => s
    | r :: _ =>
      if ok r.client.handle then grant r.client s
      else tryScheduleLoop fuel (deleteClient r.client s)

/-- `try_schedule` writes at most one frame, a LOCK_OK. -/
theorem tryScheduleLoop_sent (n : Nat) (s : Sched) :
    (tryScheduleLoop ok n s).sent = s.sent ∨
      ∃ c : Client, (tryScheduleLoop ok n s).sent = s.sent ++ [(c.handle, outMsg .lockOk)] := by
  induction n generalizing s with
  | zero => exact .inl rfl
  | succ n ih =>
    simp only [tryScheduleLoop]
    split
    · exact .inl rfl
    · split
      · exact .inr ⟨_, rfl⟩
      · exact ih _

/-- `try_schedule`. Each failed round deletes the head request, so `requests.length + 1` rounds
are as many as the loop can take. -/
def trySchedule (s : Sched) : Sched := tryScheduleLoop ok (s.requests.length + 1) s

theorem trySchedule_sent (s : Sched) :
    (trySchedule ok s).sent = s.sent ∨
      ∃ c : Client, (trySchedule ok s).sent = s.sent ++ [(c.handle, outMsg .lockOk)] :=
  tryScheduleLoop_sent ok _ s

/-- `client->id = nvshare_client_id`: the record at `c`'s address gets the new id. -/
def setClientId (newId : UInt64) (c : Client) (s : Sched) : Sched :=
  { s with clients := s.clients.map fun d ↦ if d.handle = c.handle then { c with id := newId } else d }

section SetClientId

variable (newId : UInt64) (c : Client) (s : Sched)

@[simp] theorem setClientId_sent : (setClientId newId c s).sent = s.sent := rfl
@[simp] theorem setClientId_requests : (setClientId newId c s).requests = s.requests := rfl
@[simp] theorem setClientId_lockHeld : (setClientId newId c s).lockHeld = s.lockHeld := rfl
@[simp] theorem setClientId_schedulerOn : (setClientId newId c s).schedulerOn = s.schedulerOn := rfl
@[simp] theorem setClientId_nextHandle : (setClientId newId c s).nextHandle = s.nextHandle := rfl

end SetClientId

/-- `register_client`, with the id its regeneration loop settles on: `false` when `c` is
already registered or the reply could not be written. -/
def registerClient (newId : UInt64) (c : Client) (s : Sched) : Bool × Sched :=
  if c.hasRegistered then (false, s)
  else
    let s := setClientId newId c s
    if ok c.handle then
      (true, sendMessage { c with id := newId } ⟨statusType s.schedulerOn, 7331, hex16 newId⟩ s)
    else (false, s)

/-- The three outcomes of `register_client`. -/
theorem registerClient_cases (newId : UInt64) (c : Client) (s : Sched) :
    (c.hasRegistered = true ∧ registerClient ok newId c s = (false, s)) ∨
    (c.hasRegistered = false ∧ ok c.handle = true ∧ registerClient ok newId c s =
      (true, sendMessage { c with id := newId } ⟨statusType s.schedulerOn, 7331, hex16 newId⟩
        (setClientId newId c s))) ∨
    (c.hasRegistered = false ∧ ok c.handle = false ∧
      registerClient ok newId c s = (false, setClientId newId c s)) := by
  unfold registerClient
  cases c.hasRegistered <;> cases ok c.handle <;> simp [setClientId]

/-- One iteration of `bcast_status`'s loop: tell `c` the current status if it has registered,
and evict it if that write fails and `send_message` returns `-1` (an `EPIPE` ends the daemon by
`SIGPIPE` instead, which the model leaves out). -/
def bcastOne (s : Sched) (c : Client) : Sched :=
  if !c.hasRegistered then s
  else if ok c.handle then sendMessage c (outMsg (statusType s.schedulerOn)) s
  else deleteClient c s

/-- The three outcomes of one iteration of `bcast_status`'s loop. -/
theorem bcastOne_cases (s : Sched) (c : Client) :
    (c.hasRegistered = false ∧ bcastOne ok s c = s) ∨
    (c.hasRegistered = true ∧ ok c.handle = true ∧
      bcastOne ok s c = sendMessage c (outMsg (statusType s.schedulerOn)) s) ∨
    (c.hasRegistered = true ∧ ok c.handle = false ∧ bcastOne ok s c = deleteClient c s) := by
  unfold bcastOne
  cases c.hasRegistered <;> cases ok c.handle <;> simp

/-- `bcast_status`: walk the table as it was when the walk began (`LL_FOREACH_SAFE`). -/
def bcastStatus (s : Sched) : Sched := s.clients.foldl (bcastOne ok) s

/-- `process_msg`'s `REGISTER` case: `if (register_client (client, in_msg) < 0)
delete_client (client)`. -/
def registerOrDelete (newId : UInt64) (c : Client) (s : Sched) : Sched :=
  let reg := registerClient ok newId c s
  if reg.1 then reg.2 else deleteClient c reg.2

/-- A `REGISTER` from an unregistered record registers it and answers it with the status and its
id, or evicts it; from a registered one it evicts it. -/
theorem registerOrDelete_cases (newId : UInt64) (c : Client) (s : Sched) :
    (c.hasRegistered = true ∧ registerOrDelete ok newId c s = deleteClient c s) ∨
    (c.hasRegistered = false ∧ ok c.handle = true ∧ registerOrDelete ok newId c s =
      sendMessage { c with id := newId } ⟨statusType s.schedulerOn, 7331, hex16 newId⟩
        (setClientId newId c s)) ∨
    (c.hasRegistered = false ∧ ok c.handle = false ∧
      registerOrDelete ok newId c s = deleteClient c (setClientId newId c s)) := by
  unfold registerOrDelete
  rcases registerClient_cases ok newId c s with ⟨h1, h2⟩ | ⟨h1, h2, h3⟩ | ⟨h1, h2, h3⟩ <;>
    simp [*]

/-- `process_msg`: the reaction to one whole frame `m` read from `c`. `newId` is only used by
`REGISTER`. -/
def processMsg (newId : UInt64) (c : Client) (m : Message) (s : Sched) : Sched :=
  match m.type with
  | .register => registerOrDelete ok newId c s
  | .schedOn => if s.schedulerOn then s else bcastStatus ok { s with schedulerOn := true }
  | .schedOff =>
    if s.schedulerOn then
      let s := bcastStatus ok { s with schedulerOn := false }
      { s with
        requests := llDeleteIf (fun _ ↦ true) s.requests s.requests
        lockHeld := false
        ghost := { s.ghost with removed := s.ghost.removed ++ s.requests } }
    else s
  | .setTq =>
    match parseTq m.data with
    | some v => { s with tq := v, mustResetTimer := true, ghost := { s.ghost with tqSet := true } }
    | none => s
  | .reqLock =>
    if c.hasRegistered then
      if s.schedulerOn then
        let s := insertReq c s
        if s.lockHeld then s else trySchedule ok s
      else s
    else deleteClient c s
  | .lockReleased =>
    if c.hasRegistered then
      if s.schedulerOn then
        let s := removeReq c s
        if s.lockHeld then s else trySchedule ok s
      else s
    else deleteClient c s
  | _ => s

/-- What `process_msg` can do, as the facts a property of the state needs: the property holds
after `process_msg` when it holds before, after a registration, after either broadcast, after a
new quantum, after `insert_req` on REQ_LOCK and `remove_req` on LOCK_RELEASED (each with
`try_schedule` when the lock is free) from a registered sender, and after `delete_client` of an
unregistered one. -/
theorem processMsg_of {P : Sched → Prop} {newId : UInt64} {c : Client} {m : Message}
    {s : Sched} (hs : P s) (hreg : P (registerOrDelete ok newId c s))
    (hon : m.type = .schedOn → s.schedulerOn = false →
      P (bcastStatus ok { s with schedulerOn := true }))
    (hoff : m.type = .schedOff → s.schedulerOn = true →
      P (let s := bcastStatus ok { s with schedulerOn := false }
        { s with
          requests := llDeleteIf (fun _ ↦ true) s.requests s.requests
          lockHeld := false
          ghost := { s.ghost with removed := s.ghost.removed ++ s.requests } }))
    (htq : ∀ v, P { s with tq := v, mustResetTimer := true, ghost := { s.ghost with tqSet := true } })
    (hins : m.type = .reqLock → c.hasRegistered = true → s.schedulerOn = true →
      P (insertReq c s))
    (hinsT : m.type = .reqLock → c.hasRegistered = true → s.schedulerOn = true →
      (insertReq c s).lockHeld = false → P (trySchedule ok (insertReq c s)))
    (hrem : m.type = .lockReleased → c.hasRegistered = true → s.schedulerOn = true →
      P (removeReq c s))
    (hremT : m.type = .lockReleased → c.hasRegistered = true → s.schedulerOn = true →
      (removeReq c s).lockHeld = false → P (trySchedule ok (removeReq c s)))
    (hdel : c.hasRegistered = false → P (deleteClient c s)) :
    P (processMsg ok newId c m s) := by
  unfold processMsg
  cases ht : m.type
  case register => exact hreg
  case schedOn => cases hon' : s.schedulerOn; exacts [hon ht hon', hs]
  case schedOff => cases hon' : s.schedulerOn; exacts [hs, hoff ht hon']
  case setTq => cases parseTq m.data; exacts [hs, htq _]
  case reqLock =>
    dsimp only
    cases hr : c.hasRegistered; · exact hdel hr
    cases hon' : s.schedulerOn; · exact hs
    cases hl : (insertReq c s).lockHeld; exacts [hinsT ht hr hon' hl, hins ht hr hon']
  case lockReleased =>
    dsimp only
    cases hr : c.hasRegistered; · exact hdel hr
    cases hon' : s.schedulerOn; · exact hs
    cases hl : (removeReq c s).lockHeld; exacts [hremT ht hr hon' hl, hrem ht hr hon']
  all_goals exact hs

/-- A field that neither a successful write nor `delete_client` changes is not changed by a
broadcast either. -/
theorem bcastStatus_frame {α : Type} (π : Sched → α)
    (hsend : ∀ c m s, π (sendMessage c m s) = π s) (hdel : ∀ c s, π (deleteClient c s) = π s)
    (s : Sched) : π (bcastStatus ok s) = π s := by
  unfold bcastStatus
  generalize s.clients = l
  induction l generalizing s with
  | nil => rfl
  | cons c l ih =>
    rw [List.foldl_cons, ih]
    unfold bcastOne
    split
    · rfl
    · split
      · exact hsend _ _ _
      · exact hdel _ _

/-! A broadcast changes no ghost field but the removal log. -/

@[simp] theorem bcastStatus_appended (s : Sched) :
    (bcastStatus ok s).ghost.appended = s.ghost.appended :=
  bcastStatus_frame ok (·.ghost.appended) (fun _ _ _ ↦ rfl) (fun _ _ ↦ rfl) s

@[simp] theorem bcastStatus_grants (s : Sched) : (bcastStatus ok s).ghost.grants = s.ghost.grants :=
  bcastStatus_frame ok (·.ghost.grants) (fun _ _ _ ↦ rfl) (fun _ _ ↦ rfl) s

@[simp] theorem bcastStatus_tenureStart (s : Sched) :
    (bcastStatus ok s).ghost.tenureStart = s.ghost.tenureStart :=
  bcastStatus_frame ok (·.ghost.tenureStart) (fun _ _ _ ↦ rfl) (fun _ _ ↦ rfl) s

@[simp] theorem bcastStatus_tqSet (s : Sched) : (bcastStatus ok s).ghost.tqSet = s.ghost.tqSet :=
  bcastStatus_frame ok (·.ghost.tqSet) (fun _ _ _ ↦ rfl) (fun _ _ ↦ rfl) s

@[simp] theorem bcastStatus_grantedWhileHeld (s : Sched) :
    (bcastStatus ok s).ghost.grantedWhileHeld = s.ghost.grantedWhileHeld :=
  bcastStatus_frame ok (·.ghost.grantedWhileHeld) (fun _ _ _ ↦ rfl) (fun _ _ ↦ rfl) s

@[simp] theorem bcastStatus_schedulerOn (s : Sched) :
    (bcastStatus ok s).schedulerOn = s.schedulerOn :=
  bcastStatus_frame ok Sched.schedulerOn (fun _ _ _ ↦ rfl) (fun _ _ ↦ rfl) s

@[simp] theorem tryScheduleLoop_schedulerOn :
    ∀ (n : Nat) (s : Sched), (tryScheduleLoop ok n s).schedulerOn = s.schedulerOn
  | 0, _ => rfl
  | n + 1, s => by
    unfold tryScheduleLoop
    split
    · rfl
    · split
      · rfl
      · exact tryScheduleLoop_schedulerOn n _

@[simp] theorem trySchedule_schedulerOn (s : Sched) :
    (trySchedule ok s).schedulerOn = s.schedulerOn :=
  tryScheduleLoop_schedulerOn ok _ s

@[simp] theorem registerOrDelete_schedulerOn (newId : UInt64) (c : Client) (s : Sched) :
    (registerOrDelete ok newId c s).schedulerOn = s.schedulerOn := by
  rcases registerOrDelete_cases ok newId c s with ⟨-, he⟩ | ⟨-, -, he⟩ | ⟨-, -, he⟩ <;> rw [he] <;>
    rfl

/-- Only SCHED_ON and SCHED_OFF change `scheduler_on`. -/
theorem processMsg_schedulerOn (newId : UInt64) (c : Client) {m : Message} (s : Sched)
    (hon : m.type ≠ .schedOn) (hoff : m.type ≠ .schedOff) :
    (processMsg ok newId c m s).schedulerOn = s.schedulerOn := by
  have hins : (insertReq c s).schedulerOn = s.schedulerOn := by unfold insertReq; split <;> rfl
  exact processMsg_of ok (P := fun s' ↦ s'.schedulerOn = s.schedulerOn) rfl
    (registerOrDelete_schedulerOn ok newId c s) (fun h ↦ absurd h hon) (fun h ↦ absurd h hoff)
    (fun _ ↦ rfl) (fun _ _ _ ↦ hins) (fun _ _ _ _ ↦ (trySchedule_schedulerOn ok _).trans hins)
    (fun _ _ _ ↦ rfl) (fun _ _ _ _ ↦ trySchedule_schedulerOn ok _) (fun _ ↦ rfl)

theorem processMsg_setTq (newId : UInt64) (c : Client) {m : Message} (s : Sched)
    (ht : m.type = .setTq) : (processMsg ok newId c m s).tq = (parseTq m.data).getD s.tq := by
  simp only [processMsg, ht]
  cases parseTq m.data <;> rfl

/-- The main loop's reaction to a peer it gives up on: `delete_client`, then `try_schedule` if
the lock is free and scheduling is on. -/
def evict (c : Client) (s : Sched) : Sched :=
  let s := deleteClient c s
  if !s.lockHeld && s.schedulerOn then trySchedule ok s else s

@[simp] theorem evict_schedulerOn (c : Client) (s : Sched) :
    (evict ok c s).schedulerOn = s.schedulerOn := by
  unfold evict; dsimp only; split
  · rw [trySchedule_schedulerOn]; rfl
  · rfl

end Handlers

/-- What the environment decides while the main loop handles one event. -/
structure Choice where
  /-- `receive_message`: a whole frame, or a failure (end of file, a partial frame, an error). -/
  recv : Option Message
  /-- `nvshare_accept`: the new fd and whether `epoll_ctl` took it, or a transient failure. -/
  accept : Option (Nat × Bool)
  /-- The id the regeneration loop of `register_client` settles on. -/
  newId : UInt64
  /-- Which writes succeed. -/
  ok : Nat → Bool

/-- The listener branch of the main loop: a record for the accepted fd, kept if `epoll_ctl` took
it. The address is used up either way. -/
def acceptClient (fd : Nat) (added : Bool) (s : Sched) : Sched :=
  let c : Client := ⟨s.nextHandle, fd, unregisteredId⟩
  let s := { s with nextHandle := s.nextHandle + 1 }
  if added then { s with clients := s.clients ++ [c], epoll := s.epoll ++ [(fd, c.handle)] } else s

/-- The body of the main loop's `for` for one event, with `global_mutex` held. An event for a
record that is no longer in the table has a dangling pointer in it; the code would pass it to
`receive_message` or `delete_client`, and the model stops there (`none`). -/
def handleEvent (ch : Choice) (e : Event) (s : Sched) : Option Sched :=
  match e with
  | .listener =>
    match ch.accept with
    | none => some s
    | some (fd, added) => some (acceptClient fd added s)
  | .client h epollin errHup =>
    match s.clients.find? (·.handle == h) with
    | none => none
    | some c =>
      if epollin then
        match ch.recv with
        | some m => some (processMsg ch.ok ch.newId c m s)
        | none => some (evict ch.ok c s)
      else if errHup then some (evict ch.ok c s)
      else some s

/-- What handling one event can do: nothing, accept a connection, evict a record of the table, or
process a frame read from one. -/
theorem handleEvent_cases {ch : Choice} {e : Event} {s s' : Sched}
    (h : handleEvent ch e s = some s') :
    s' = s ∨
    (∃ fd added, e = .listener ∧ ch.accept = some (fd, added) ∧ s' = acceptClient fd added s) ∨
    ∃ c ∈ s.clients, s' = evict ch.ok c s ∨
      ∃ eh m, e = .client c.handle true eh ∧ ch.recv = some m ∧
        s' = processMsg ch.ok ch.newId c m s := by
  unfold handleEvent at h
  split at h
  · split at h <;> cases h
    · exact .inl rfl
    · exact .inr (.inl ⟨_, _, rfl, ‹_›, rfl⟩)
  · rename_i hd epollin errHup
    split at h
    · cases h
    · rename_i c hc
      have hmem := List.mem_of_find?_eq_some hc
      have hh : c.handle = hd := by simpa using List.find?_some hc
      subst hh
      split at h
      · split at h <;> cases h
        · exact .inr (.inr ⟨c, hmem, .inr ⟨errHup, _, by simp [*], ‹_›, rfl⟩⟩)
        · exact .inr (.inr ⟨c, hmem, .inl rfl⟩)
      · split at h <;> cases h
        · exact .inr (.inr ⟨c, hmem, .inl rfl⟩)
        · exact .inl rfl

/-! ## The timer thread -/

/-- The top of `timer_thr_fn`'s loop: clear `must_reset_timer`, capture the round and arm the
deadline `tq` seconds from now. -/
def timerRestart (s : Sched) : Sched :=
  { s with
    mustResetTimer := false
    timer := { s.timer with
      pc := .waiting
      roundAtStart := s.schedulingRound
      deadline := s.now + s.tq * 1000000000
      grantsAtStart := s.ghost.grants } }

/-- Set the timer's `drop_lock_sent`. -/
def setDropLockSent (b : Bool) (s : Sched) : Sched :=
  { s with timer := { s.timer with dropLockSent := b } }

@[simp] theorem timerRestart_sent (s : Sched) : (timerRestart s).sent = s.sent := rfl

@[simp] theorem setDropLockSent_sent (b : Bool) (s : Sched) :
    (setDropLockSent b s).sent = s.sent := rfl

/-- One return of `pthread_cond_timedwait` in `timer_thr_fn` and what the thread does until it
waits again. `timedOut` is `ret == ETIMEDOUT`; otherwise `ret == 0`, a broadcast or a spurious
wake-up, and without `must_reset_timer` the thread waits for the rest of the same deadline. A
timeout with `lock_held` and an empty queue would dereference `NULL` (`none`). A DROP_LOCK write
that fails is one `send_message` returns `-1` from; an `EPIPE` ends the daemon by `SIGPIPE`. -/
def timerWake (ok : Nat → Bool) (timedOut : Bool) (s : Sched) : Option Sched :=
  if timedOut then
    if !s.lockHeld then some (timerRestart s)
    else if s.timer.dropLockSent then some (timerRestart s)
    else if s.timer.roundAtStart ≠ s.schedulingRound then
      some (timerRestart (setDropLockSent false s))
    else
      match s.requests with
      | [] => none
      | r :: _ =>
        if ok r.client.handle then
          some (timerRestart (setDropLockSent true (sendMessage r.client dropLockMsg s)))
        else some (timerRestart (setDropLockSent false (trySchedule ok (deleteClient r.client s))))
  else if s.mustResetTimer then some (timerRestart (setDropLockSent false s))
  else some s

/-- What a wake-up of the timer does: wait again for the same deadline, restart it (clearing
`drop_lock_sent` or not), or, on a timeout in the current round with the lock held and no
DROP_LOCK sent yet, write DROP_LOCK to the head of the queue or evict it. -/
theorem timerWake_cases {ok : Nat → Bool} {timedOut : Bool} {s s' : Sched}
    (hw : timerWake ok timedOut s = some s') :
    s' = s ∨ s' = timerRestart s ∨ s' = timerRestart (setDropLockSent false s) ∨
    ∃ r rest, timedOut = true ∧ s.lockHeld = true ∧ s.timer.dropLockSent = false ∧
      s.timer.roundAtStart = s.schedulingRound ∧ s.requests = r :: rest ∧
      (s' = timerRestart (setDropLockSent true (sendMessage r.client dropLockMsg s)) ∨
       s' = timerRestart (setDropLockSent false (trySchedule ok (deleteClient r.client s)))) := by
  unfold timerWake at hw
  split at hw
  · next hto =>
    split at hw
    · cases hw; exact .inr (.inl rfl)
    · next hl =>
      split at hw
      · cases hw; exact .inr (.inl rfl)
      · next hd =>
        split at hw
        · cases hw; exact .inr (.inr (.inl rfl))
        · next hround =>
          split at hw
          · cases hw
          · rename_i r rest hrs
            refine .inr (.inr (.inr ⟨r, rest, hto, by simpa using hl, by simpa using hd,
              by simpa using hround, hrs, ?_⟩))
            split at hw <;> cases hw
            exacts [.inl rfl, .inr rfl]
  · split at hw <;> cases hw
    exacts [.inr (.inr (.inl rfl)), .inl rfl]

theorem timerWake_schedulerOn {ok : Nat → Bool} {timedOut : Bool} {s s' : Sched}
    (hw : timerWake ok timedOut s = some s') : s'.schedulerOn = s.schedulerOn := by
  rcases timerWake_cases hw with rfl | rfl | rfl | ⟨r, rest, -, -, -, -, -, rfl | rfl⟩
  all_goals first | rfl | exact trySchedule_schedulerOn ok _

end Nvshare
