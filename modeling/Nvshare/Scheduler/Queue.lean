import Nvshare.Scheduler.Step

/-!
# The request queue and the GPU lock

Everything the scheduler does to `requests` and `lock_held` goes through four operations:
`insert_req` appends, `remove_req` (and `delete_client`, which calls it) filters by fd and clears
`lock_held` when the head goes, the success branch of `try_schedule` sets `lock_held` after a
LOCK_OK to the head, and `SCHED_OFF` empties the queue and clears the flag. `QueueInv` is what
these keep true:

* a non-empty queue means scheduling is on;
* `lock_held` means the head of the queue received the most recent LOCK_OK;
* no LOCK_OK was sent while `lock_held` was set.

Each handler gets one lemma, proved from the lemmas of the operations it calls, and `step`
preserves the invariant because each move runs one handler. The last fact needs `try_schedule`
to be entered with the lock free; every call site checks `!lock_held` except the timer, which
calls it right after evicting the holder, and evicting the head always frees the lock.

`QueueLog` relates the queue to the ghost history: it is exactly the list of requests
`insert_req` appended, in append order, less those that `remove_req` and the `SCHED_OFF` loop
unlinked. Unlike `QueueInv` it holds after every operation from any state, so its lemmas have no
side conditions.
-/

namespace Nvshare

/-- The address of the record that received the most recent LOCK_OK in a log. -/
def lastLockOk (log : List (Nat × Message)) : Option Nat :=
  log.foldl (fun acc e ↦ if e.2.type = .lockOk then some e.1 else acc) none

@[simp] theorem lastLockOk_append_singleton (log : List (Nat × Message)) (h : Nat) (m : Message) :
    lastLockOk (log ++ [(h, m)]) = if m.type = .lockOk then some h else lastLockOk log := by
  simp [lastLockOk, List.foldl_append]

theorem removeReq_lockHeld_eq_true {c : Client} {s : Sched} :
    (removeReq c s).lockHeld = true ↔
      s.lockHeld = true ∧ ∀ r ∈ s.requests.head?, r.client.fd ≠ c.fd := by
  rw [removeReq_lockHeld]
  split <;> [split; skip] <;> simp_all

theorem statusType_ne_lockOk (b : Bool) : statusType b ≠ .lockOk := by cases b <;> decide

/-- The invariant of the request queue. -/
structure QueueInv (s : Sched) : Prop where
  on_of_queued : s.requests ≠ [] → s.schedulerOn = true
  holder : s.lockHeld = true →
    ∃ r rest, s.requests = r :: rest ∧ lastLockOk s.sent = some r.client.handle
  no_double_grant : s.ghost.grantedWhileHeld = false

namespace QueueInv

variable {s : Sched}

theorem init : QueueInv Sched.init where
  on_of_queued h := (h rfl).elim
  holder h := by simp [Sched.init] at h
  no_double_grant := rfl

/-! ## The operations -/

theorem sendMessage (h : QueueInv s) (c : Client) (m : Message) (hm : m.type ≠ .lockOk) :
    QueueInv (sendMessage c m s) where
  on_of_queued := h.on_of_queued
  holder := by simpa [Nvshare.sendMessage, hm] using h.holder
  no_double_grant := h.no_double_grant

theorem removeReq (h : QueueInv s) (c : Client) : QueueInv (removeReq c s) where
  on_of_queued hne := h.on_of_queued fun he ↦ hne (by simp [he])
  holder hl := by
    obtain ⟨hl, hhead⟩ := removeReq_lockHeld_eq_true.mp hl
    obtain ⟨r, rest, hrs, hlast⟩ := h.holder hl
    have hr : r.client.fd ≠ c.fd := hhead r (by simp [hrs])
    exact ⟨r, rest.filter fun r ↦ !(r.client.fd == c.fd), by simp [hrs, hr], hlast⟩
  no_double_grant := h.no_double_grant

theorem deleteClient (h : QueueInv s) (c : Client) : QueueInv (deleteClient c s) :=
  let h' := h.removeReq c
  ⟨h'.1, h'.2, h'.3⟩

theorem withClients (h : QueueInv s) (l : List Client) : QueueInv { s with clients := l } :=
  ⟨h.1, h.2, h.3⟩

theorem insertReq (h : QueueInv s) (c : Client) (hon : s.schedulerOn = true) :
    QueueInv (insertReq c s) := by
  unfold Nvshare.insertReq
  split
  · exact h
  · refine ⟨fun _ ↦ hon, fun hl ↦ ?_, h.no_double_grant⟩
    obtain ⟨r, rest, hrs, hlast⟩ := h.holder hl
    exact ⟨r, rest ++ [⟨c, s.ghost.appended.length⟩], by simp [hrs], hlast⟩

/-- A LOCK_OK to the head, sent while the lock is free. -/
theorem grant (h : QueueInv s) {r : Request} {rest : List Request} (hrs : s.requests = r :: rest)
    (hl : s.lockHeld = false) : QueueInv (grant r.client s) where
  on_of_queued := h.on_of_queued
  holder _ := ⟨r, rest, hrs, by simp [Nvshare.grant, Nvshare.sendMessage, outMsg]⟩
  no_double_grant := by simp [Nvshare.grant, h.no_double_grant, hl]

theorem tryScheduleLoop (ok : Nat → Bool) :
    ∀ (fuel : Nat) {s : Sched}, QueueInv s → s.lockHeld = false →
      QueueInv (tryScheduleLoop ok fuel s)
  | 0, _, h, _ => h
  | fuel + 1, s, h, hl => by
    unfold Nvshare.tryScheduleLoop
    split
    · exact h
    · rename_i r rest hrs
      split
      · exact h.grant hrs hl
      · refine tryScheduleLoop ok fuel (h.deleteClient _) ?_
        rw [deleteClient_lockHeld, removeReq_lockHeld, hrs]
        simp [hl]

theorem trySchedule (h : QueueInv s) (ok : Nat → Bool) (hl : s.lockHeld = false) :
    QueueInv (trySchedule ok s) :=
  tryScheduleLoop ok _ h hl

theorem registerOrDelete (h : QueueInv s) (ok : Nat → Bool) (newId : UInt64) (c : Client) :
    QueueInv (registerOrDelete ok newId c s) := by
  rcases registerOrDelete_cases ok newId c s with ⟨-, he⟩ | ⟨-, -, he⟩ | ⟨-, -, he⟩ <;> rw [he]
  · exact h.deleteClient c
  · exact (h.withClients _).sendMessage _ _ (statusType_ne_lockOk _)
  · exact (h.withClients _).deleteClient c

theorem bcastStatus (h : QueueInv s) (ok : Nat → Bool) : QueueInv (bcastStatus ok s) := by
  unfold Nvshare.bcastStatus
  generalize s.clients = l
  induction l generalizing s with
  | nil => exact h
  | cons c l ih =>
    refine ih ?_
    unfold bcastOne
    split
    · exact h
    · split
      · exact h.sendMessage c _ (statusType_ne_lockOk _)
      · exact h.deleteClient c

theorem evict (h : QueueInv s) (ok : Nat → Bool) (c : Client) : QueueInv (evict ok c s) := by
  unfold Nvshare.evict
  dsimp only
  split
  · rename_i hc
    simp only [Bool.and_eq_true, Bool.not_eq_true'] at hc
    exact (h.deleteClient c).trySchedule ok hc.1
  · exact h.deleteClient c

/-! ## The handlers -/

theorem processMsg (h : QueueInv s) (ok : Nat → Bool) (newId : UInt64) (c : Client)
    (m : Message) : QueueInv (processMsg ok newId c m s) :=
  processMsg_of ok h (h.registerOrDelete ok newId c)
    (fun _ _ ↦ QueueInv.bcastStatus (s := { s with schedulerOn := true })
      ⟨fun _ ↦ rfl, h.2, h.3⟩ ok)
    (fun _ _ ↦ ⟨by simp, by simp, by simpa using h.3⟩)
    (fun _ ↦ ⟨h.1, h.2, h.3⟩)
    (fun _ _ hon ↦ h.insertReq c hon) (fun _ _ hon hl ↦ (h.insertReq c hon).trySchedule ok hl)
    (fun _ _ _ ↦ h.removeReq c) (fun _ _ _ hl ↦ (h.removeReq c).trySchedule ok hl)
    (fun _ ↦ h.deleteClient c)

theorem acceptClient (h : QueueInv s) (fd : Nat) (added : Bool) :
    QueueInv (acceptClient fd added s) := by
  unfold Nvshare.acceptClient; split <;> exact ⟨h.1, h.2, h.3⟩

theorem handleEvent (h : QueueInv s) {ch : Choice} {e : Event} {s' : Sched}
    (he : handleEvent ch e s = some s') : QueueInv s' := by
  obtain rfl | ⟨fd, added, -, -, rfl⟩ | ⟨c, -, rfl | ⟨-, m, -, -, rfl⟩⟩ := handleEvent_cases he
  · exact h
  · exact h.acceptClient fd added
  · exact h.evict _ _
  · exact h.processMsg _ _ _ _

theorem timerRestart (h : QueueInv s) : QueueInv (timerRestart s) := ⟨h.1, h.2, h.3⟩

theorem setDropLockSent (h : QueueInv s) (b : Bool) : QueueInv (setDropLockSent b s) :=
  ⟨h.1, h.2, h.3⟩

/-- The timer's eviction of the holder frees the lock before it calls `try_schedule`. -/
theorem timerWake (h : QueueInv s) {ok : Nat → Bool} {timedOut : Bool} {s' : Sched}
    (hw : timerWake ok timedOut s = some s') : QueueInv s' := by
  rcases timerWake_cases hw with rfl | rfl | rfl | ⟨r, rest, -, -, -, -, hrs, rfl | rfl⟩
  · exact h
  · exact h.timerRestart
  · exact (h.setDropLockSent _).timerRestart
  · exact ((h.sendMessage _ _ (by decide)).setDropLockSent _).timerRestart
  · refine ((QueueInv.trySchedule (h.deleteClient _) ok ?_).setDropLockSent _).timerRestart
    rw [deleteClient_lockHeld, removeReq_lockHeld, hrs]
    simp

theorem step (h : QueueInv s) {l : Label} {s' : Sched} (hs : step l s = some s') :
    QueueInv s' := by
  obtain ⟨_, rfl⟩ | ⟨_, _, _, _, -, -, -, he, rfl⟩ | rfl | ⟨_, _, hw⟩ | ⟨_, rfl⟩ := step_cases hs
  · exact ⟨h.1, h.2, h.3⟩
  · have h₁ := h.handleEvent he
    exact ⟨h₁.1, h₁.2, h₁.3⟩
  · exact (h.setDropLockSent _).timerRestart
  · exact h.timerWake hw
  · exact ⟨h.1, h.2, h.3⟩

end QueueInv

theorem Reachable.queueInv {s : Sched} (h : Reachable s) : QueueInv s :=
  h.invariant QueueInv.init fun _ _ _ hi hs ↦ hi.step hs

namespace QueueInv

variable {s : Sched}

/-- With the lock held the queue is not empty, so the timer's `requests->client` is never `NULL`. -/
theorem timerWake_ne_none (h : QueueInv s) (ok : Nat → Bool) (timedOut : Bool) :
    Nvshare.timerWake ok timedOut s ≠ none := by
  intro hw
  unfold Nvshare.timerWake at hw
  split at hw
  · split at hw
    · cases hw
    · next hl =>
      split at hw
      · cases hw
      · split at hw
        · cases hw
        · split at hw
          · next hrs =>
            obtain ⟨_, _, h', -⟩ := h.holder (by simpa using hl)
            rw [hrs] at h'; cases h'
          · split at hw <;> cases hw
  · split at hw <;> cases hw

end QueueInv

/-- **Lock invariant.** In every reachable state of the scheduler a non-empty queue means
scheduling is on; `lock_held` means the queue is not empty and its head received the most recent
LOCK_OK; `try_schedule` has never sent LOCK_OK while `lock_held` was set; and no return of the
timer's `pthread_cond_timedwait` finds the lock held with an empty queue. -/
theorem lock_invariant {s : Sched} (h : Reachable s) :
    (s.requests ≠ [] → s.schedulerOn = true) ∧
    (s.lockHeld = true →
      ∃ r rest, s.requests = r :: rest ∧ lastLockOk s.sent = some r.client.handle) ∧
    s.ghost.grantedWhileHeld = false ∧
    ∀ ok timedOut, timerWake ok timedOut s ≠ none :=
  let hi := h.queueInv
  ⟨hi.on_of_queued, hi.holder, hi.no_double_grant, hi.timerWake_ne_none⟩

/-- Two clients register (addresses `0` and `1`), `0` gets the lock and `1` queues behind it. -/
def queuedRun : List Label :=
  [.poll [.listener], .lock, .handle (.accepted 10), .unlock,
   .poll [.listener], .lock, .handle (.accepted 11), .unlock,
   .poll [.client 0 true false, .client 1 true false], .lock,
   .handle (.read ⟨.register, 0, []⟩ 1), .handle (.read ⟨.register, 0, []⟩ 2), .unlock,
   .poll [.client 0 true false], .lock, .handle (.read ⟨.reqLock, 1, []⟩ 3), .unlock,
   .poll [.client 1 true false], .lock, .handle (.read ⟨.reqLock, 2, []⟩ 3), .unlock]

/-- The state at the end of `queuedRun`. -/
def queuedState : Sched := (exec queuedRun Sched.init).getD Sched.init

/-- In `queuedState` the lock is held by the head of the queue, which received the last
LOCK_OK. -/
theorem lock_invariant_queued :
    ∃ r rest, queuedState.requests = r :: rest ∧ lastLockOk queuedState.sent = some r.client.handle :=
  (lock_invariant (@Reachable.exec _ _ queuedRun .init rfl)).2.1 (by decide)

/-! ## Work conservation

`QueueInv` does not say that a waiting request and scheduling on mean the lock is held, and it
is not true: `process_msg` evicts a client that sends `REGISTER` a second time without calling
`try_schedule`, while every other eviction path (the main loop's three, the timer's, the loop in
`try_schedule` itself) does. If that client holds the lock, the mutex is released with the lock
free and the next request waiting. -/

/-- Client `0` of `queuedRun` sends `REGISTER` again. -/
def registerTwiceRun : List Label :=
  queuedRun ++ [.poll [.client 0 true false], .lock, .handle (.read ⟨.register, 1, []⟩ 3), .unlock]

/-- After `registerTwiceRun` the main loop is back in `epoll_wait` with scheduling on, client
`1` waiting alone in the queue, the lock free, and no LOCK_OK ever sent to `1`. -/
theorem registerTwice_strands_queue :
    ¬ ∀ s, Reachable s → s.main = .idle → s.schedulerOn = true → s.requests ≠ [] →
      s.lockHeld = true := by
  intro hall
  obtain ⟨s, hs, hP⟩ := exists_reachable_of_exec
    (fun s ↦ s.main == .idle && s.schedulerOn && s.requests.map (·.client.handle) == [1] &&
      !s.lockHeld && !(s.sent.contains (1, outMsg .lockOk))) registerTwiceRun (by decide)
  simp only [Bool.and_eq_true, beq_iff_eq, Bool.not_eq_true'] at hP
  obtain ⟨⟨⟨⟨hidle, hon⟩, hq⟩, hl⟩, -⟩ := hP
  have := hall s hs hidle hon (fun he ↦ by simp [he] at hq)
  simp [hl] at this

/-! ## The queue against its history -/

/-- The queue is the list of appended requests, in append order, less the ones logged as removed;
every removed request was appended, and the `k`-th request appended carries sequence number `k`. -/
structure QueueLog (s : Sched) : Prop where
  queue_eq : s.requests = s.ghost.appended.filter (· ∉ s.ghost.removed)
  removed_sub : ∀ r ∈ s.ghost.removed, r ∈ s.ghost.appended
  seq_eq : s.ghost.appended.map (·.seq) = List.range s.ghost.appended.length

namespace QueueLog

variable {s : Sched}

theorem init : QueueLog Sched.init := ⟨rfl, nofun, rfl⟩

theorem seq_lt (h : QueueLog s) {r : Request} (hr : r ∈ s.ghost.appended) :
    r.seq < s.ghost.appended.length := by
  have hm := List.mem_map_of_mem (·.seq) hr
  rwa [h.seq_eq, List.mem_range] at hm

theorem mem_appended (h : QueueLog s) {r : Request} (hr : r ∈ s.requests) :
    r ∈ s.ghost.appended := by
  rw [h.queue_eq] at hr
  exact List.mem_of_mem_filter hr

/-- Unlinking the queued requests that satisfy `p` and logging them, as `remove_req` and the
`SCHED_OFF` loop do, leaves the queue the appended requests that are not logged. -/
theorem unlink (h : QueueLog s) (p : Request → Bool) :
    s.requests.filter (fun r ↦ !p r) =
      s.ghost.appended.filter (· ∉ s.ghost.removed ++ s.requests.filter p) ∧
    ∀ r ∈ s.ghost.removed ++ s.requests.filter p, r ∈ s.ghost.appended := by
  constructor
  · rw [h.queue_eq, List.filter_filter]
    refine List.filter_congr fun r hr ↦ ?_
    by_cases hR : r ∈ s.ghost.removed <;> by_cases hp : p r <;> simp [hR, hp, hr]
  · intro r hr
    rcases List.mem_append.mp hr with hr | hr
    · exact h.removed_sub r hr
    · exact h.mem_appended (List.mem_of_mem_filter hr)

/-! ### The operations -/

theorem sendMessage (h : QueueLog s) (c : Client) (m : Message) : QueueLog (sendMessage c m s) :=
  ⟨h.1, h.2, h.3⟩

theorem timerRestart (h : QueueLog s) : QueueLog (timerRestart s) := ⟨h.1, h.2, h.3⟩

theorem setDropLockSent (h : QueueLog s) (b : Bool) : QueueLog (setDropLockSent b s) :=
  ⟨h.1, h.2, h.3⟩

theorem removeReq (h : QueueLog s) (c : Client) : QueueLog (removeReq c s) where
  queue_eq := by rw [removeReq_requests]; exact (h.unlink fun r ↦ r.client.fd == c.fd).1
  removed_sub := (h.unlink fun r ↦ r.client.fd == c.fd).2
  seq_eq := h.seq_eq

theorem deleteClient (h : QueueLog s) (c : Client) : QueueLog (deleteClient c s) :=
  let h' := h.removeReq c
  ⟨h'.1, h'.2, h'.3⟩

/-- The request `insert_req` appends carries the next sequence number, so it was never removed. -/
theorem insertReq (h : QueueLog s) (c : Client) : QueueLog (insertReq c s) := by
  unfold Nvshare.insertReq
  split
  · exact h
  · have hnew : (⟨c, s.ghost.appended.length⟩ : Request) ∉ s.ghost.removed := fun hm ↦
      Nat.lt_irrefl _ (h.seq_lt (h.removed_sub _ hm))
    refine ⟨?_, fun r hr ↦ List.mem_append_left _ (h.removed_sub r hr), ?_⟩
    · simp [h.queue_eq, hnew]
    · simp [h.seq_eq, List.range_succ]

theorem tryScheduleLoop (ok : Nat → Bool) :
    ∀ (fuel : Nat) {s : Sched}, QueueLog s → QueueLog (tryScheduleLoop ok fuel s)
  | 0, _, h => h
  | fuel + 1, s, h => by
    unfold Nvshare.tryScheduleLoop
    split
    · exact h
    · split
      · exact ⟨h.1, h.2, h.3⟩
      · exact tryScheduleLoop ok fuel (h.deleteClient _)

theorem trySchedule (h : QueueLog s) (ok : Nat → Bool) : QueueLog (trySchedule ok s) :=
  tryScheduleLoop ok _ h

theorem registerOrDelete (h : QueueLog s) (ok : Nat → Bool) (newId : UInt64) (c : Client) :
    QueueLog (registerOrDelete ok newId c s) := by
  have hc : QueueLog (setClientId newId c s) := ⟨h.1, h.2, h.3⟩
  rcases registerOrDelete_cases ok newId c s with ⟨-, he⟩ | ⟨-, -, he⟩ | ⟨-, -, he⟩ <;> rw [he]
  · exact h.deleteClient c
  · exact hc.sendMessage _ _
  · exact hc.deleteClient c

theorem bcastStatus (h : QueueLog s) (ok : Nat → Bool) : QueueLog (bcastStatus ok s) := by
  unfold Nvshare.bcastStatus
  generalize s.clients = l
  induction l generalizing s with
  | nil => exact h
  | cons c l ih =>
    refine ih ?_
    unfold bcastOne
    split
    · exact h
    · split
      · exact h.sendMessage c _
      · exact h.deleteClient c

theorem evict (h : QueueLog s) (ok : Nat → Bool) (c : Client) : QueueLog (evict ok c s) := by
  unfold Nvshare.evict
  dsimp only
  split
  · exact (h.deleteClient c).trySchedule ok
  · exact h.deleteClient c

/-- The `SCHED_OFF` loop unlinks every queued request and logs them all. -/
theorem schedOff (h : QueueLog s) (ok : Nat → Bool) :
    QueueLog (let s := Nvshare.bcastStatus ok { s with schedulerOn := false }
      { s with
        requests := llDeleteIf (fun _ ↦ true) s.requests s.requests
        lockHeld := false
        ghost := { s.ghost with removed := s.ghost.removed ++ s.requests } }) := by
  have hb := QueueLog.bcastStatus (s := { s with schedulerOn := false }) ⟨h.1, h.2, h.3⟩ ok
  have hu := hb.unlink fun _ ↦ true
  simp only [Bool.not_true, List.filter_false, List.filter_true] at hu
  exact ⟨by simpa only [llDeleteIf_self, Bool.not_true, List.filter_false] using hu.1, hu.2,
    hb.seq_eq⟩

/-! ### The handlers -/

theorem processMsg (h : QueueLog s) (ok : Nat → Bool) (newId : UInt64) (c : Client)
    (m : Message) : QueueLog (processMsg ok newId c m s) :=
  processMsg_of ok h (h.registerOrDelete ok newId c)
    (fun _ _ ↦ QueueLog.bcastStatus (s := { s with schedulerOn := true }) ⟨h.1, h.2, h.3⟩ ok)
    (fun _ _ ↦ h.schedOff ok) (fun _ ↦ ⟨h.1, h.2, h.3⟩)
    (fun _ _ _ ↦ h.insertReq c) (fun _ _ _ _ ↦ (h.insertReq c).trySchedule ok)
    (fun _ _ _ ↦ h.removeReq c) (fun _ _ _ _ ↦ (h.removeReq c).trySchedule ok)
    (fun _ ↦ h.deleteClient c)

theorem handleEvent (h : QueueLog s) {ch : Choice} {e : Event} {s' : Sched}
    (he : handleEvent ch e s = some s') : QueueLog s' := by
  obtain rfl | ⟨fd, added, -, -, rfl⟩ | ⟨c, -, rfl | ⟨-, m, -, -, rfl⟩⟩ := handleEvent_cases he
  · exact h
  · unfold Nvshare.acceptClient; split <;> exact ⟨h.1, h.2, h.3⟩
  · exact h.evict _ _
  · exact h.processMsg _ _ _ _

theorem timerWake (h : QueueLog s) {ok : Nat → Bool} {timedOut : Bool} {s' : Sched}
    (hw : timerWake ok timedOut s = some s') : QueueLog s' := by
  rcases timerWake_cases hw with rfl | rfl | rfl | ⟨r, rest, -, -, -, -, -, rfl | rfl⟩
  · exact h
  · exact h.timerRestart
  · exact (h.setDropLockSent _).timerRestart
  · exact ((h.sendMessage _ _).setDropLockSent _).timerRestart
  · exact (((h.deleteClient _).trySchedule ok).setDropLockSent _).timerRestart

theorem step (h : QueueLog s) {l : Label} {s' : Sched} (hs : step l s = some s') :
    QueueLog s' := by
  obtain ⟨_, rfl⟩ | ⟨_, _, _, _, -, -, -, he, rfl⟩ | rfl | ⟨_, _, hw⟩ | ⟨_, rfl⟩ := step_cases hs
  · exact ⟨h.1, h.2, h.3⟩
  · have h₁ := h.handleEvent he
    exact ⟨h₁.1, h₁.2, h₁.3⟩
  · exact (h.setDropLockSent _).timerRestart
  · exact h.timerWake hw
  · exact ⟨h.1, h.2, h.3⟩

/-- Sequence numbers increase along the queue. -/
theorem seq_pairwise (h : QueueLog s) : (s.requests.map (·.seq)).Pairwise (· < ·) := by
  have hs : (s.requests.map (·.seq)).Sublist (List.range s.ghost.appended.length) := by
    rw [h.queue_eq, ← h.seq_eq]
    exact (List.filter_sublist _).map _
  exact (List.pairwise_lt_range _).sublist hs

end QueueLog

theorem Reachable.queueLog {s : Sched} (h : Reachable s) : QueueLog s :=
  h.invariant QueueLog.init fun _ _ _ hi hs ↦ hi.step hs

/-- **FCFS.** In every reachable state the queue is exactly the list of requests `insert_req`
appended, in append order, less those `remove_req`, `delete_client` and the `SCHED_OFF` loop
unlinked, and none reordered; the holder, which received the most recent LOCK_OK, was appended
before every request still waiting behind it. -/
theorem fcfs {s : Sched} (h : Reachable s) :
    s.requests = s.ghost.appended.filter (· ∉ s.ghost.removed) ∧
    s.ghost.appended.map (·.seq) = List.range s.ghost.appended.length ∧
    (s.requests.map (·.seq)).Pairwise (· < ·) ∧
    (s.lockHeld = true → ∃ r rest, s.requests = r :: rest ∧
      lastLockOk s.sent = some r.client.handle ∧ ∀ r' ∈ rest, r.seq < r'.seq) := by
  have hq := h.queueLog
  refine ⟨hq.queue_eq, hq.seq_eq, hq.seq_pairwise, fun hl ↦ ?_⟩
  obtain ⟨r, rest, hrs, hlast⟩ := h.queueInv.holder hl
  have hp := hq.seq_pairwise
  rw [hrs, List.map_cons, List.pairwise_cons] at hp
  exact ⟨r, rest, hrs, hlast, fun r' hr' ↦ hp.1 _ (List.mem_map_of_mem _ hr')⟩

/-- In `queuedState` the holder was appended before the request waiting behind it. -/
theorem fcfs_queued :
    ∃ r rest, queuedState.requests = r :: rest ∧ lastLockOk queuedState.sent = some r.client.handle ∧
      ∀ r' ∈ rest, r.seq < r'.seq :=
  (fcfs (@Reachable.exec _ _ queuedRun .init rfl)).2.2.2 (by decide)

end Nvshare
