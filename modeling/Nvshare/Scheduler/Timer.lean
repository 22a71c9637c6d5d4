import Nvshare.Scheduler.Queue

/-!
# The time quantum

`timer_thr_fn` arms a deadline `tq` seconds ahead and remembers `scheduling_round`; when the wait
times out it sends DROP_LOCK to the head of the queue if the lock is held, it has not sent one
already, and the round has not moved. The round comparison is what ties a deadline to a tenure.

## Deadlines belong to tenures

`TimerInv` relates the timer's locals to the ghost history: `scheduling_round` is the number of
grants modulo `2 ^ 32`, `round_at_start` is that number as it was when the deadline was armed,
and a deadline armed after the current tenure began, with no `SET_TQ` since, lies at least one
quantum after the tenure's LOCK_OK. Whatever the round, a DROP_LOCK goes to the head of the
queue, which holds the lock and received the most recent LOCK_OK (`drop_lock_recipient`), since
the timer checks `lock_held` and `QueueInv` ties it to the head. When the round comparison passes
and fewer than `2 ^ 32` grants happened during the wait, the number of grants has not moved, so
the deadline was armed in the current tenure and the DROP_LOCK is not early
(`drop_lock_not_early`). The comparison is on a 32-bit counter, and `2 ^ 32` grants while the
timer waits for the mutex make it pass for a deadline armed long before
(`drop_lock_early_after_wrap`).

## The flag that outlives its tenure

`drop_lock_sent` is tested before the round: a flag set in one tenure survives into the next
whenever the wake-up that follows the new LOCK_OK is a timeout (`stale_drop_lock_sent`).
-/

namespace Nvshare

/-- The fields of the state that the timer's invariant reads. -/
def Sched.clock (s : Sched) : Nat × Nat × Int × Bool × Int × Timer × Int :=
  (s.schedulingRound, s.ghost.grants, s.ghost.tenureStart, s.ghost.tqSet, s.tq, s.timer, s.now)

section Clock

variable (ok : Nat → Bool) (c : Client) (s : Sched)

@[simp] theorem clock_sendMessage (m : Message) : (sendMessage c m s).clock = s.clock := rfl

@[simp] theorem clock_removeReq : (removeReq c s).clock = s.clock := rfl

@[simp] theorem clock_deleteClient : (deleteClient c s).clock = s.clock := rfl

@[simp] theorem clock_insertReq : (insertReq c s).clock = s.clock := by
  unfold insertReq; split <;> rfl

@[simp] theorem clock_bcastStatus : (bcastStatus ok s).clock = s.clock :=
  bcastStatus_frame ok Sched.clock (fun _ _ _ ↦ rfl) (fun _ _ ↦ rfl) s

@[simp] theorem clock_acceptClient (fd : Nat) (added : Bool) :
    (acceptClient fd added s).clock = s.clock := by
  unfold acceptClient; split <;> rfl

@[simp] theorem clock_registerOrDelete (newId : UInt64) :
    (registerOrDelete ok newId c s).clock = s.clock := by
  rcases registerOrDelete_cases ok newId c s with ⟨-, he⟩ | ⟨-, -, he⟩ | ⟨-, -, he⟩ <;>
    rw [he] <;> rfl

end Clock

/-- The timer's invariant. -/
structure TimerInv (s : Sched) : Prop where
  round_eq : s.schedulingRound = s.ghost.grants % 2 ^ 32
  round_start : s.timer.pc = .waiting → s.timer.roundAtStart = s.timer.grantsAtStart % 2 ^ 32
  grants_le : s.timer.grantsAtStart ≤ s.ghost.grants
  tenure_le : s.ghost.tenureStart ≤ s.now
  armed : s.timer.pc = .waiting → s.timer.grantsAtStart = s.ghost.grants →
    s.ghost.tqSet = false → s.ghost.tenureStart + s.tq * 1000000000 ≤ s.timer.deadline

namespace TimerInv

variable {s : Sched}

theorem init : TimerInv Sched.init :=
  ⟨rfl, (fun h ↦ nomatch h), le_refl _, Int.le_refl _, (fun h ↦ nomatch h)⟩

theorem of_clock {s' : Sched} (h : TimerInv s) (he : s'.clock = s.clock) : TimerInv s' := by
  simp only [Sched.clock, Prod.mk.injEq] at he
  obtain ⟨h1, h2, h3, h4, h5, h6, h7⟩ := he
  exact ⟨h1 ▸ h2 ▸ h.1, h6 ▸ h.2, h6 ▸ h2 ▸ h.3, h3 ▸ h7 ▸ h.4, h6 ▸ h2 ▸ h4 ▸ h3 ▸ h5 ▸ h.5⟩

theorem grant (h : TimerInv s) (c : Client) : TimerInv (grant c s) where
  round_eq := by simp only [Nvshare.grant, h.round_eq]; omega
  round_start := h.round_start
  grants_le := Nat.le_succ_of_le h.grants_le
  tenure_le := Int.le_refl _
  armed _ hg := absurd hg (by simp only [Nvshare.grant, Nvshare.sendMessage]; have := h.grants_le; omega)

theorem tryScheduleLoop (ok : Nat → Bool) :
    ∀ (fuel : Nat) {s : Sched}, TimerInv s → TimerInv (tryScheduleLoop ok fuel s)
  | 0, _, h => h
  | fuel + 1, s, h => by
    unfold Nvshare.tryScheduleLoop
    split
    · exact h
    · split
      · exact h.grant _
      · exact tryScheduleLoop ok fuel (h.of_clock (clock_deleteClient _ _))

theorem trySchedule (h : TimerInv s) (ok : Nat → Bool) : TimerInv (trySchedule ok s) :=
  tryScheduleLoop ok _ h

theorem processMsg (h : TimerInv s) (ok : Nat → Bool) (newId : UInt64) (c : Client)
    (m : Message) : TimerInv (processMsg ok newId c m s) :=
  processMsg_of ok h (h.of_clock (clock_registerOrDelete ..))
    (fun _ _ ↦ h.of_clock (clock_bcastStatus ok _))
    (fun _ _ ↦ h.of_clock (clock_bcastStatus ok { s with schedulerOn := false }))
    (fun _ ↦ ⟨h.1, h.2, h.3, h.4, fun _ _ ht ↦ nomatch ht⟩)
    (fun _ _ _ ↦ h.of_clock (clock_insertReq c s))
    (fun _ _ _ _ ↦ (h.of_clock (clock_insertReq c s)).trySchedule ok)
    (fun _ _ _ ↦ h.of_clock (clock_removeReq c s))
    (fun _ _ _ _ ↦ (h.of_clock (clock_removeReq c s)).trySchedule ok)
    (fun _ ↦ h.of_clock (clock_deleteClient c s))

theorem evict (h : TimerInv s) (ok : Nat → Bool) (c : Client) : TimerInv (evict ok c s) := by
  unfold Nvshare.evict
  dsimp only
  split
  · exact (h.of_clock (clock_deleteClient c s)).trySchedule ok
  · exact h.of_clock (clock_deleteClient c s)

theorem handleEvent (h : TimerInv s) {ch : Choice} {e : Event} {s' : Sched}
    (he : handleEvent ch e s = some s') : TimerInv s' := by
  obtain rfl | ⟨fd, added, -, -, rfl⟩ | ⟨c, -, rfl | ⟨-, m, -, -, rfl⟩⟩ := handleEvent_cases he
  · exact h
  · exact h.of_clock (clock_acceptClient _ fd added)
  · exact h.evict _ _
  · exact h.processMsg _ _ _ _

theorem timerRestart (h : TimerInv s) : TimerInv (timerRestart s) where
  round_eq := h.round_eq
  round_start _ := h.round_eq
  grants_le := le_refl _
  tenure_le := h.tenure_le
  armed _ _ _ := by simp only [Nvshare.timerRestart]; have := h.tenure_le; omega

theorem setDropLockSent (h : TimerInv s) (b : Bool) : TimerInv (setDropLockSent b s) :=
  ⟨h.1, h.2, h.3, h.4, h.5⟩

theorem timerWake (h : TimerInv s) {ok : Nat → Bool} {timedOut : Bool} {s' : Sched}
    (hw : timerWake ok timedOut s = some s') : TimerInv s' := by
  rcases timerWake_cases hw with rfl | rfl | rfl | ⟨r, rest, -, -, -, -, -, rfl | rfl⟩
  · exact h
  · exact h.timerRestart
  · exact (h.setDropLockSent _).timerRestart
  · exact ((h.of_clock (clock_sendMessage _ _ _)).setDropLockSent _).timerRestart
  · exact (((h.of_clock (clock_deleteClient _ _)).trySchedule ok).setDropLockSent _).timerRestart

theorem step (h : TimerInv s) {l : Label} {s' : Sched} (hs : step l s = some s') :
    TimerInv s' := by
  obtain ⟨_, rfl⟩ | ⟨_, _, _, _, -, -, -, he, rfl⟩ | rfl | ⟨_, _, hw⟩ | ⟨_, rfl⟩ := step_cases hs
  · exact ⟨h.1, h.2, h.3, h.4, h.5⟩
  · have h₁ := h.handleEvent he
    exact ⟨h₁.1, h₁.2, h₁.3, h₁.4, h₁.5⟩
  · exact (h.setDropLockSent _).timerRestart
  · exact h.timerWake hw
  · exact ⟨h.1, h.2, h.3, by simp only; have := h.4; omega, h.5⟩

end TimerInv

theorem Reachable.timerInv {s : Sched} (h : Reachable s) : TimerInv s :=
  h.invariant TimerInv.init fun _ _ _ hi hs ↦ hi.step hs

/-! ## When DROP_LOCK is sent -/

/-- A wake-up of the timer that writes DROP_LOCK to `h` is a timeout that found the lock held, no
DROP_LOCK sent and the round unchanged, and `h` is the head of the queue. -/
theorem timerWake_sends_dropLock {ok : Nat → Bool} {timedOut : Bool} {s s' : Sched} {h : Nat}
    (hw : timerWake ok timedOut s = some s') (hs : s'.sent = s.sent ++ [(h, dropLockMsg)]) :
    timedOut = true ∧ s.lockHeld = true ∧ s.timer.dropLockSent = false ∧
      s.timer.roundAtStart = s.schedulingRound ∧
      ∃ r rest, s.requests = r :: rest ∧ h = r.client.handle := by
  rcases timerWake_cases hw with rfl | rfl | rfl |
      ⟨r, rest, hto, hl, hd, hround, hrs, rfl | rfl⟩
  · simp at hs
  · simp at hs
  · simp at hs
  · simp only [timerRestart_sent, setDropLockSent_sent, sendMessage,
      List.append_cancel_left_eq, List.cons.injEq, Prod.mk.injEq, and_true] at hs
    exact ⟨hto, hl, hd, hround, r, rest, hrs, hs.symm⟩
  · rcases trySchedule_sent ok (deleteClient r.client s) with he | ⟨c, he⟩ <;>
      simp [he, dropLockMsg, outMsg] at hs

/-- A move of the timer that writes DROP_LOCK to `h`: the recipient is the head of the queue, which
holds the lock and received the most recent LOCK_OK, and the move is a timeout of a deadline armed
on the current round. -/
theorem dropLock_of_step {s s' : Sched} {timedOut : Bool} {ok : Nat → Bool} {h : Nat}
    (hr : Reachable s) (hstep : Nvshare.step (.timerWake timedOut ok) s = some s')
    (hsend : s'.sent = s.sent ++ [(h, dropLockMsg)]) :
    (∃ r rest, s.requests = r :: rest ∧ h = r.client.handle ∧ s.lockHeld = true ∧
      lastLockOk s.sent = some h) ∧
    s.timer.pc = .waiting ∧ s.timer.deadline ≤ s.now ∧ s.timer.roundAtStart = s.schedulingRound := by
  simp only [Nvshare.step] at hstep
  split at hstep
  · next hg =>
    simp only [Bool.and_eq_true, decide_eq_true_eq, Bool.not_eq_true', Bool.or_eq_true] at hg
    obtain ⟨⟨hpc, -⟩, hdl⟩ := hg
    obtain ⟨rfl, hl, -, hround, r, rest, hrs, rfl⟩ := timerWake_sends_dropLock hstep hsend
    obtain ⟨r', rest', hrs', hlast⟩ := hr.queueInv.holder hl
    rw [hrs, List.cons.injEq] at hrs'
    exact ⟨⟨r, rest, hrs, rfl, hl, hrs'.1 ▸ hlast⟩, hpc, by simpa using hdl, hround⟩
  · cases hstep

/-- Client `0` registers and takes the lock at time `0`, and the first quantum runs out. -/
def firstQuantumRun : List Label :=
  [.timerStart,
   .poll [.listener], .lock, .handle (.accepted 10), .unlock,
   .poll [.client 0 true false], .lock, .handle (.read ⟨.register, 0, []⟩ 1), .unlock,
   .poll [.client 0 true false], .lock, .handle (.read ⟨.reqLock, 1, []⟩ 2), .unlock,
   .timerWake false fun _ ↦ true, .tick 30000000000]

/-- The state at the end of `firstQuantumRun`. -/
def firstQuantumState : Sched := (exec firstQuantumRun Sched.init).getD Sched.init

theorem reachable_firstQuantumState : Reachable firstQuantumState :=
  @Reachable.exec _ _ firstQuantumRun Reachable.init rfl

/-- The timeout at the end of the first quantum. -/
def firstQuantumDrop : Sched :=
  (Nvshare.step (.timerWake true fun _ ↦ true) firstQuantumState).getD firstQuantumState

/-- **DROP_LOCK goes to the holder.** Whenever a wake-up of the timer writes DROP_LOCK, whatever
`SET_TQ` frames were processed and however many LOCK_OKs went out while it waited, the recipient
is the head of the queue, the lock is held and the recipient received the most recent
LOCK_OK. -/
theorem drop_lock_recipient {s s' : Sched} {timedOut : Bool} {ok : Nat → Bool} {h : Nat}
    (hr : Reachable s) (hstep : Nvshare.step (.timerWake timedOut ok) s = some s')
    (hsend : s'.sent = s.sent ++ [(h, dropLockMsg)]) :
    ∃ r rest, s.requests = r :: rest ∧ h = r.client.handle ∧ s.lockHeld = true ∧
      lastLockOk s.sent = some h :=
  (dropLock_of_step hr hstep hsend).1

theorem drop_lock_recipient_first_quantum :
    Nvshare.step (.timerWake true fun _ ↦ true) firstQuantumState = some firstQuantumDrop ∧
    firstQuantumDrop.sent = firstQuantumState.sent ++ [(0, dropLockMsg)] ∧
    ∃ r rest, firstQuantumState.requests = r :: rest ∧ 0 = r.client.handle ∧
      firstQuantumState.lockHeld = true ∧ lastLockOk firstQuantumState.sent = some 0 :=
  ⟨rfl, by decide, @drop_lock_recipient firstQuantumState firstQuantumDrop true (fun _ ↦ true) 0
    reachable_firstQuantumState rfl (by decide)⟩

/-- **No premature preemption, without wrap-around.** Whenever a wake-up of the timer writes
DROP_LOCK, if no `SET_TQ` was processed in the current tenure and fewer than `2 ^ 32` LOCK_OKs
were sent since the timer armed its deadline, the write comes at least one quantum after the
LOCK_OK of the tenure. -/
theorem drop_lock_not_early {s s' : Sched} {timedOut : Bool} {ok : Nat → Bool} {h : Nat}
    (hr : Reachable s) (hstep : Nvshare.step (.timerWake timedOut ok) s = some s')
    (hsend : s'.sent = s.sent ++ [(h, dropLockMsg)])
    (htq : s.ghost.tqSet = false) (hwrap : s.ghost.grants < s.timer.grantsAtStart + 2 ^ 32) :
    s.ghost.tenureStart + s.tq * 1000000000 ≤ s.now := by
  obtain ⟨-, hpc, hdl, hround⟩ := dropLock_of_step hr hstep hsend
  have ht := hr.timerInv
  have hg : s.timer.grantsAtStart = s.ghost.grants := by
    have := ht.round_start hpc; have := ht.round_eq; have := ht.grants_le
    omega
  have := ht.armed hpc hg htq
  omega

/-- At the end of the first quantum the timer writes DROP_LOCK to client `0`, a full quantum
after its LOCK_OK. -/
theorem drop_lock_not_early_first_quantum :
    Nvshare.step (.timerWake true fun _ ↦ true) firstQuantumState = some firstQuantumDrop ∧
    firstQuantumDrop.sent = firstQuantumState.sent ++ [(0, dropLockMsg)] ∧
    firstQuantumState.ghost.tenureStart + firstQuantumState.tq * 1000000000 ≤
      firstQuantumState.now :=
  ⟨rfl, by decide,
    (@drop_lock_not_early firstQuantumState firstQuantumDrop true (fun _ ↦ true) 0
      reachable_firstQuantumState rfl (by decide) (by decide) (by decide))⟩

/-! ### Wrap-around

Client `0` takes and releases the lock `2 ^ 32` times while the timer, armed at time `0` on
round `0`, waits for the mutex; the last LOCK_OK brings the round back to `0` just after the
deadline has passed. -/

/-- The client of the wrap-around run: record `0` on fd `10`, registered with id `1`. -/
def wrapClient : Client := ⟨0, 10, 1⟩

/-- The wrap-around run between tenures: `wrapClient` registered, no request queued, every
request appended so far removed, the timer waiting on round `0` with deadline `30 s`, after `k`
LOCK_OKs, the last one sent at `tenureStart`. -/
def wrapState (k : Nat) (sent : List (Nat × Message)) (appended : List Request)
    (tenureStart now : Int) : Sched where
  clients := [wrapClient]
  requests := []
  lockHeld := false
  mustResetTimer := true
  schedulerOn := true
  tq := 30
  schedulingRound := k % 2 ^ 32
  epoll := [(10, 0)]
  main := .idle
  timer := ⟨.waiting, 0, 30000000000, false, 0⟩
  now := now
  nextHandle := 1
  sent := sent
  ghost := ⟨appended, appended, k, tenureStart, false, false⟩

/-- `wrapClient` asks for the lock and gets it. -/
def wrapRequest : List Label :=
  [.poll [.client 0 true false], .lock, .handle (.read ⟨.reqLock, 1, []⟩ 2), .unlock]

/-- `wrapClient` releases the lock. -/
def wrapRelease : List Label :=
  [.poll [.client 0 true false], .lock, .handle (.read ⟨.lockReleased, 1, []⟩ 2), .unlock]

/-- One tenure of `wrapClient`: request, grant, release. -/
def wrapCycle : List Label := wrapRequest ++ wrapRelease

/-- The wrap-around run in the middle of a tenure: `wrapClient` holds the lock after the
`k + 1`-th LOCK_OK, sent at `now`. -/
def wrapHeld (k : Nat) (sent : List (Nat × Message)) (appended : List Request) (now : Int) :
    Sched where
  clients := [wrapClient]
  requests := [⟨wrapClient, appended.length⟩]
  lockHeld := true
  mustResetTimer := true
  schedulerOn := true
  tq := 30
  schedulingRound := (k + 1) % 2 ^ 32
  epoll := [(10, 0)]
  main := .idle
  timer := ⟨.waiting, 0, 30000000000, false, 0⟩
  now := now
  nextHandle := 1
  sent := sent ++ [(0, outMsg .lockOk)]
  ghost := ⟨appended ++ [⟨wrapClient, appended.length⟩], appended, k + 1, now, false, false⟩

theorem exec_wrapRequest (k : Nat) (sent : List (Nat × Message)) (appended : List Request)
    (tenureStart now : Int) :
    exec wrapRequest (wrapState k sent appended tenureStart now) =
      some (wrapHeld k sent appended now) := by
  rw [wrapHeld, ← Nat.mod_add_mod]
  rfl

theorem exec_wrapRelease (k : Nat) (sent : List (Nat × Message)) (appended : List Request)
    (now : Int) :
    exec wrapRelease (wrapHeld k sent appended now) =
      some (wrapState (k + 1) (sent ++ [(0, outMsg .lockOk)])
        (appended ++ [⟨wrapClient, appended.length⟩]) now now) := by
  simp only [wrapRelease, exec, step, wrapHeld, Sched.canPoll, Sched.canChoose, handleEvent,
    processMsg, removeReq, llDeleteIf_self, trySchedule, tryScheduleLoop, Choice.read, Event.key]
  rfl

theorem exec_wrapCycle (k : Nat) (sent : List (Nat × Message)) (appended : List Request)
    (now : Int) :
    exec wrapCycle (wrapState k sent appended now now) =
      some (wrapState (k + 1) (sent ++ [(0, outMsg .lockOk)])
        (appended ++ [⟨wrapClient, appended.length⟩]) now now) := by
  rw [wrapCycle, exec_append, exec_wrapRequest, Option.some_bind, exec_wrapRelease]

/-- `n` tenures of `wrapClient`. -/
def wrapCycles : Nat → List Label
  | 0 => []
  | n + 1 => wrapCycle ++ wrapCycles n

theorem exec_wrapCycles (n k : Nat) (sent : List (Nat × Message)) (appended : List Request)
    (now : Int) :
    ∃ sent' appended', exec (wrapCycles n) (wrapState k sent appended now now) =
      some (wrapState (k + n) sent' appended' now now) := by
  induction n generalizing k sent appended with
  | zero => exact ⟨sent, appended, rfl⟩
  | succ n ih =>
    obtain ⟨sent', appended', he⟩ := ih (k + 1) (sent ++ [(0, outMsg .lockOk)])
      (appended ++ [⟨wrapClient, appended.length⟩])
    refine ⟨sent', appended', ?_⟩
    rw [wrapCycles, exec_append, exec_wrapCycle, Option.some_bind, he, Nat.add_right_comm,
      Nat.add_assoc]

/-- `wrapClient` connects and registers with the timer already armed, then has its first
tenure. -/
def wrapSetup : List Label :=
  [.timerStart,
   .poll [.listener], .lock, .handle (.accepted 10), .unlock,
   .poll [.client 0 true false], .lock, .handle (.read ⟨.register, 0, []⟩ 1), .unlock] ++
  wrapCycle

theorem exec_wrapSetup :
    exec wrapSetup Sched.init =
      some (wrapState 1 [(0, ⟨.schedOn, 7331, hex16 1⟩), (0, outMsg .lockOk)]
        [⟨wrapClient, 0⟩] 0 0) := rfl

/-- The clock reaches the deadline, `30 s`, and `wrapClient` takes the lock once more: the
`2 ^ 32`-th LOCK_OK brings the round back to `0`. -/
theorem exec_wrapFinal (sent : List (Nat × Message)) (appended : List Request) :
    exec (.tick 30000000000 :: wrapRequest) (wrapState (2 ^ 32 - 1) sent appended 0 0) =
      some (wrapHeld (2 ^ 32 - 1) sent appended 30000000000) := by
  rw [exec, step, Option.some_bind]
  exact exec_wrapRequest _ _ _ 0 30000000000

/-- **Premature preemption after wrap-around.** Without the bound on the number of grants,
`drop_lock_not_early` fails: at the end of the wrap-around run the timer's timeout writes
DROP_LOCK to the holder at the instant of its LOCK_OK, with no `SET_TQ` ever processed. -/
theorem drop_lock_early_after_wrap :
    ¬ ∀ (s s' : Sched) (ok : Nat → Bool) (h : Nat), Reachable s →
      Nvshare.step (.timerWake true ok) s = some s' → s'.sent = s.sent ++ [(h, dropLockMsg)] →
      s.ghost.tqSet = false → s.ghost.tenureStart + s.tq * 1000000000 ≤ s.now := by
  intro hall
  obtain ⟨sent, appended, he⟩ := exec_wrapCycles (2 ^ 32 - 2) 1 _ _ 0
  rw [show 1 + (2 ^ 32 - 2) = 2 ^ 32 - 1 by omega] at he
  have hr : Reachable (wrapHeld (2 ^ 32 - 1) sent appended 30000000000) :=
    ((Reachable.init.exec exec_wrapSetup).exec he).exec (exec_wrapFinal sent appended)
  have := hall _ (timerRestart (setDropLockSent true
    (sendMessage wrapClient dropLockMsg (wrapHeld (2 ^ 32 - 1) sent appended 30000000000))))
    (fun _ ↦ true) 0 hr rfl rfl rfl
  simp [wrapHeld] at this

/-! ### A stale `drop_lock_sent` -/

/-- Whether a log has a DROP_LOCK to `h` after its last LOCK_OK. -/
def droppedInTenure (log : List (Nat × Message)) (h : Nat) : Bool :=
  (log.reverse.takeWhile fun e ↦ e.2.type != .lockOk).any fun e ↦
    e.1 == h && e.2.type == .dropLock

/-- Client `0`'s first tenure is preempted at `30 s`; it releases, asks again at `60 s` and is
granted the lock, and the timer's next wake-up is the timeout of the deadline armed at `30 s`. -/
def staleDropRun : List Label :=
  firstQuantumRun ++
  [.timerWake true fun _ ↦ true,
   .poll [.client 0 true false], .lock, .handle (.read ⟨.lockReleased, 1, []⟩ 2), .unlock,
   .tick 30000000000,
   .poll [.client 0 true false], .lock, .handle (.read ⟨.reqLock, 1, []⟩ 2), .unlock,
   .timerWake true fun _ ↦ true]

/-- **A stale `drop_lock_sent`.** A reachable state holds the lock with `drop_lock_sent` set
although no DROP_LOCK went out since the last LOCK_OK: the timeout found the flag of the previous
tenure and restarted the timer without clearing it, and it stays set for every later timeout of
the new tenure, so the timer sends no DROP_LOCK in it unless a `SET_TQ` wakes it first. -/
theorem stale_drop_lock_sent :
    ¬ ∀ s, Reachable s → s.lockHeld = true → s.timer.dropLockSent = true →
      ∃ r rest, s.requests = r :: rest ∧ droppedInTenure s.sent r.client.handle = true := by
  intro hall
  obtain ⟨s, hs, hP⟩ := exists_reachable_of_exec
    (fun s ↦ s.lockHeld && s.timer.dropLockSent &&
      s.requests.all fun r ↦ !droppedInTenure s.sent r.client.handle) staleDropRun (by decide)
  simp only [Bool.and_eq_true, List.all_eq_true, Bool.not_eq_true'] at hP
  obtain ⟨r, rest, hrs, hd⟩ := hall s hs hP.1.1 hP.1.2
  simp [hP.2 r (by simp [hrs])] at hd

end Nvshare
