import Nvshare.Scheduler.Record
import Nvshare.Scheduler.Timer

/-!
# What a client's channel carries

The frames the scheduler writes to one record, in order, are `inbox h s.sent`: what the client
at the other end reads. Over every run of the scheduler, under any messages, connections and send
failures:

* `channel_opens_with_answer`: nothing is written to a record before it registers, and the first
  frame written to a registered one is `register_client`'s answer, SCHED_ON or SCHED_OFF with the
  record's id in hex;
* `drop_lock_after_sched_on`: every DROP_LOCK on a channel comes after a SCHED_ON that no
  SCHED_OFF follows, so a client is never told to drop the lock while it was last told that
  scheduling is off;
* `lock_ok_per_request`: no record is sent more LOCK_OKs than `insert_req` appended requests of
  it, and one whose request waits has been sent fewer: a LOCK_OK is never sent twice for one
  request, nor without one.

The first two are read off the invariants that `Nvshare.Scheduler.Record` and
`Nvshare.Scheduler.Status` prove by induction over the runs; the third has its own invariant,
`GrantInv`, kept by every move (`GrantStep.step`).
-/

namespace Nvshare

/-- **Every channel opens with the answer to `REGISTER`.** In every reachable state of the
scheduler nothing has been written to a record that has not registered, and the first frame
written to a registered record is `register_client`'s answer: SCHED_ON or SCHED_OFF, with the
record's id as sixteen hex digits. -/
theorem channel_opens_with_answer {s : Sched} (hs : Reachable s) :
    ∀ c ∈ s.clients,
      (c.hasRegistered = false → inbox c.handle s.sent = []) ∧
      (c.hasRegistered = true →
        ∃ b rest, inbox c.handle s.sent = ⟨statusType b, 7331, hex16 c.id⟩ :: rest) :=
  fun c hc ↦ ⟨hs.answerInv.unregistered c hc, hs.answerInv.answered c hc⟩

theorem channel_opens_with_answer_first_quantum :
    Reachable firstQuantumState ∧
      ∀ c ∈ firstQuantumState.clients,
        (c.hasRegistered = false → inbox c.handle firstQuantumState.sent = []) ∧
        (c.hasRegistered = true → ∃ b rest,
          inbox c.handle firstQuantumState.sent = ⟨statusType b, 7331, hex16 c.id⟩ :: rest) :=
  ⟨reachable_firstQuantumState, channel_opens_with_answer reachable_firstQuantumState⟩

/-- **DROP_LOCK only under SCHED_ON.** In every reachable state of the scheduler, each DROP_LOCK
written to a record comes after a SCHED_ON frame written to it that no SCHED_OFF frame
follows. -/
theorem drop_lock_after_sched_on {s : Sched} (hs : Reachable s) (h : Nat) :
    ∀ i m, (inbox h s.sent)[i]? = some m → m.type = .dropLock →
      lastStatus ((inbox h s.sent).take i) = some true :=
  hs.dropInv h

theorem drop_lock_after_sched_on_first_quantum :
    Reachable firstQuantumDrop ∧
      ∀ i m, (inbox 0 firstQuantumDrop.sent)[i]? = some m → m.type = .dropLock →
        lastStatus ((inbox 0 firstQuantumDrop.sent).take i) = some true :=
  have hr : Reachable firstQuantumDrop :=
    .step (.timerWake true fun _ ↦ true) reachable_firstQuantumState rfl
  ⟨hr, drop_lock_after_sched_on hr 0⟩

/-! ## No LOCK_OK without a request

Every LOCK_OK goes to the head of the queue while the lock is free, and makes that record the
holder; the holder stays at the head until its request leaves the queue. So each LOCK_OK to a
record uses up one of its requests: the LOCK_OKs written to a record and its requests still
queued never outnumber the requests `insert_req` appended for it and the lock it holds
(`GrantInv`). Every move keeps that balance (`GrantStep`), and a run from the initial state keeps
it by induction. -/

/-- The requests of the record at address `h` that `insert_req` has appended over the run. -/
def Sched.appendedTo (s : Sched) (h : Nat) : Nat := s.ghost.appended.countP (·.client.handle = h)

/-- The requests of the record at address `h` in the queue. -/
def Sched.queuedOf (s : Sched) (h : Nat) : Nat := s.requests.countP (·.client.handle = h)

theorem held_le_queuedOf (s : Sched) (h : Nat) : s.held h ≤ s.queuedOf h := by
  unfold Sched.held
  split
  · obtain ⟨r, hr, he⟩ := Sched.Queued.of_owner ‹_›
    exact List.countP_pos_iff.mpr ⟨r, hr, by simpa using he⟩
  · exact Nat.zero_le _

/-- The account of every record: LOCK_OKs written and requests queued against requests appended
and the lock held. -/
def GrantInv (s : Sched) : Prop := ∀ h, s.grantsTo h + s.queuedOf h ≤ s.appendedTo h + s.held h

/-- A move that keeps every record's account: LOCK_OKs written and requests queued grow by no
more than requests appended and the lock taken. -/
def GrantStep (s s' : Sched) : Prop :=
  ∀ h, s'.grantsTo h + s'.queuedOf h + s.appendedTo h + s.held h ≤
    s.grantsTo h + s.queuedOf h + s'.appendedTo h + s'.held h

namespace GrantStep

variable {s s' s₁ s₂ s₃ : Sched}

/-- A move that touches neither the queue, the lock, the log nor the appended requests. -/
theorem of_eq (hr : s'.requests = s.requests) (hl : s'.lockHeld = s.lockHeld)
    (hs : s'.sent = s.sent) (ha : s'.ghost.appended = s.ghost.appended) : GrantStep s s' :=
  fun h ↦ by
    simp only [Sched.grantsTo, Sched.queuedOf, Sched.appendedTo, Sched.held, Sched.owner, hr, hl,
      hs, ha, le_refl]

theorem refl : GrantStep s s := of_eq rfl rfl rfl rfl

theorem trans (h₁ : GrantStep s₁ s₂) (h₂ : GrantStep s₂ s₃) : GrantStep s₁ s₃ := fun h ↦ by
  have := h₁ h
  have := h₂ h
  omega

theorem sendMessage (c : Client) {m : Message} (hm : m.type ≠ .lockOk) :
    GrantStep s (sendMessage c m s) := fun h ↦ by
  rw [grantsTo_sendMessage, if_neg fun h ↦ hm h.2]
  exact le_refl _

/-- `remove_req` drops requests and frees the lock only with its holder's request. -/
theorem removeReq (c : Client) : GrantStep s (removeReq c s) := fun h ↦ by
  suffices (Nvshare.removeReq c s).queuedOf h + s.held h ≤
      s.queuedOf h + (Nvshare.removeReq c s).held h by
    have hg : (Nvshare.removeReq c s).grantsTo h = s.grantsTo h := rfl
    have ha : (Nvshare.removeReq c s).appendedTo h = s.appendedTo h := rfl
    omega
  cases hrs : s.requests with
  | nil => simp [Sched.queuedOf, Sched.held, Sched.owner, Nvshare.removeReq, hrs]
  | cons r rest =>
    have hrest : ((rest.filter fun r ↦ !(r.client.fd == c.fd)).countP
        fun r ↦ r.client.handle = h) ≤ rest.countP fun r ↦ r.client.handle = h :=
      (List.filter_sublist rest).countP_le _
    by_cases hfd : r.client.fd = c.fd <;> by_cases hh : r.client.handle = h <;>
      cases hl : s.lockHeld <;>
      simp [Sched.queuedOf, Sched.held, Sched.owner, Nvshare.removeReq, hrs, hfd, hh, hl,
        List.countP_cons] <;> omega

/-- SCHED_OFF empties the queue and frees the lock, whose holder was queued. -/
theorem of_clear (hr : s'.requests = []) (hl : s'.lockHeld = false) (hs : s'.sent = s.sent)
    (ha : s'.ghost.appended = s.ghost.appended) : GrantStep s s' := fun h ↦ by
  have := held_le_queuedOf s h
  have hq : s'.queuedOf h = 0 := by simp [Sched.queuedOf, hr]
  have hH : s'.held h = 0 := by simp [Sched.held, Sched.owner, hl]
  have hg : s'.grantsTo h = s.grantsTo h := by simp only [Sched.grantsTo, hs]
  have ha : s'.appendedTo h = s.appendedTo h := by simp only [Sched.appendedTo, ha]
  omega

theorem deleteClient (c : Client) : GrantStep s (deleteClient c s) :=
  (removeReq c).trans (of_eq rfl rfl rfl rfl)

/-- `insert_req` queues what it appends; with the lock held the queue is not empty, so the
holder stays at its head. -/
theorem insertReq (hQ : QueueInv s) (c : Client) : GrantStep s (insertReq c s) := fun h ↦ by
  unfold Nvshare.insertReq
  split
  · exact refl h
  · have hH : Sched.held { s with
          requests := s.requests ++ [⟨c, s.ghost.appended.length⟩],
          ghost := { s.ghost with appended := s.ghost.appended ++ [⟨c, s.ghost.appended.length⟩] } }
          h = s.held h := by
      unfold Sched.held Sched.owner
      cases hl : s.lockHeld
      · rfl
      · obtain ⟨r, rest, hrs, -⟩ := hQ.holder hl
        simp [hrs, hl]
    simp only [hH, Sched.grantsTo, Sched.queuedOf, Sched.appendedTo, List.countP_append]
    omega

/-- The success branch of `try_schedule`: the LOCK_OK makes the head the holder. -/
theorem grant {r : Request} {rest : List Request} (hrs : s.requests = r :: rest)
    (hl : s.lockHeld = false) : GrantStep s (grant r.client s) := fun h ↦ by
  by_cases hh : r.client.handle = h <;>
    simp [Nvshare.grant, Nvshare.sendMessage, Sched.held, Sched.owner, Sched.grantsTo,
      Sched.queuedOf, Sched.appendedTo, hrs, hl, hh, outMsg]
  omega

theorem tryScheduleLoop (ok : Nat → Bool) :
    ∀ (fuel : Nat) {s : Sched}, s.lockHeld = false → GrantStep s (tryScheduleLoop ok fuel s)
  | 0, _, _ => refl
  | fuel + 1, s, hl => by
    unfold Nvshare.tryScheduleLoop
    split
    · exact refl
    · rename_i r rest hrs
      split
      · exact grant hrs hl
      · refine (deleteClient _).trans (tryScheduleLoop ok fuel ?_)
        rw [deleteClient_lockHeld, removeReq_lockHeld, hrs]
        simp

theorem trySchedule (ok : Nat → Bool) (hl : s.lockHeld = false) :
    GrantStep s (trySchedule ok s) :=
  tryScheduleLoop ok _ hl

theorem bcastStatus (ok : Nat → Bool) : GrantStep s (bcastStatus ok s) := by
  unfold Nvshare.bcastStatus
  generalize s.clients = l
  induction l generalizing s with
  | nil => exact refl
  | cons d l ih =>
    rcases bcastOne_cases ok s d with ⟨-, he⟩ | ⟨-, -, he⟩ | ⟨-, -, he⟩ <;>
      rw [List.foldl_cons, he]
    · exact ih
    · exact (sendMessage d (statusType_ne_lockOk _)).trans ih
    · exact (deleteClient d).trans ih

theorem registerOrDelete (ok : Nat → Bool) (newId : UInt64) (c : Client) :
    GrantStep s (registerOrDelete ok newId c s) := by
  rcases registerOrDelete_cases ok newId c s with ⟨-, he⟩ | ⟨-, -, he⟩ | ⟨-, -, he⟩ <;> rw [he]
  · exact deleteClient c
  · exact (of_eq rfl rfl rfl rfl).trans (sendMessage _ (statusType_ne_lockOk _))
  · exact (of_eq rfl rfl rfl rfl).trans (deleteClient c)

theorem evict (ok : Nat → Bool) (c : Client) : GrantStep s (evict ok c s) := by
  unfold Nvshare.evict; dsimp only; split
  · next hc =>
    simp only [Bool.and_eq_true, Bool.not_eq_true'] at hc
    exact (deleteClient c).trans (trySchedule ok hc.1)
  · exact deleteClient c

theorem processMsg (hQ : QueueInv s) (ok : Nat → Bool) (newId : UInt64) (c : Client)
    (m : Message) : GrantStep s (processMsg ok newId c m s) :=
  processMsg_of ok refl (registerOrDelete ok newId c)
    (fun _ _ ↦ (of_eq rfl rfl rfl rfl).trans (bcastStatus ok))
    (fun _ _ ↦ (of_eq rfl rfl rfl rfl).trans ((bcastStatus (s := { s with schedulerOn := false })
      ok).trans (of_clear (by simp) rfl rfl rfl)))
    (fun _ ↦ of_eq rfl rfl rfl rfl)
    (fun _ _ _ ↦ insertReq hQ c) (fun _ _ _ hl ↦ (insertReq hQ c).trans (trySchedule ok hl))
    (fun _ _ _ ↦ removeReq c) (fun _ _ _ hl ↦ (removeReq c).trans (trySchedule ok hl))
    (fun _ ↦ deleteClient c)

theorem acceptClient (fd : Nat) (added : Bool) : GrantStep s (acceptClient fd added s) := by
  unfold Nvshare.acceptClient; split <;> exact of_eq rfl rfl rfl rfl

theorem handleEvent (hQ : QueueInv s) {ch : Choice} {e : Event}
    (he : handleEvent ch e s = some s') : GrantStep s s' := by
  obtain rfl | ⟨fd, added, -, -, rfl⟩ | ⟨c, -, rfl | ⟨-, m, -, -, rfl⟩⟩ := handleEvent_cases he
  · exact refl
  · exact acceptClient fd added
  · exact evict _ _
  · exact processMsg hQ _ _ _ _

theorem timerRestart (q : GrantStep s s') : GrantStep s (timerRestart s') :=
  q.trans (of_eq rfl rfl rfl rfl)

theorem setDropLockSent (q : GrantStep s s') (b : Bool) : GrantStep s (setDropLockSent b s') :=
  q.trans (of_eq rfl rfl rfl rfl)

theorem timerWake {ok : Nat → Bool} {timedOut : Bool} (hw : timerWake ok timedOut s = some s') :
    GrantStep s s' := by
  rcases timerWake_cases hw with rfl | rfl | rfl | ⟨r, rest, -, -, -, -, hrs, rfl | rfl⟩
  · exact refl
  · exact refl.timerRestart
  · exact (refl.setDropLockSent _).timerRestart
  · exact ((sendMessage _ (by decide)).setDropLockSent _).timerRestart
  · refine (((deleteClient _).trans (trySchedule ok ?_)).setDropLockSent _).timerRestart
    rw [deleteClient_lockHeld, removeReq_lockHeld, hrs]
    simp

theorem step (hQ : QueueInv s) {l : Label} (hs : step l s = some s') : GrantStep s s' := by
  obtain ⟨_, rfl⟩ | ⟨_, _, _, _, -, -, -, he, rfl⟩ | rfl | ⟨_, _, hw⟩ | ⟨_, rfl⟩ := step_cases hs
  · exact of_eq rfl rfl rfl rfl
  · exact (handleEvent hQ he).trans (of_eq rfl rfl rfl rfl)
  · exact of_eq rfl rfl rfl rfl
  · exact timerWake hw
  · exact of_eq rfl rfl rfl rfl

end GrantStep

theorem GrantInv.init : GrantInv Sched.init := fun h ↦ by
  simp [Sched.init, Sched.grantsTo, Sched.queuedOf, Sched.appendedTo, Sched.held, Sched.owner]

theorem Reachable.grantInv {s : Sched} (hs : Reachable s) : GrantInv s := by
  induction hs with
  | init => exact GrantInv.init
  | step _ hr hst ih =>
    intro h
    have := ih h
    have := GrantStep.step hr.queueInv hst h
    omega

/-- **No LOCK_OK without a request.** In every reachable state of the scheduler, no record has
been sent more LOCK_OKs than `insert_req` has appended requests of it; one whose request is
queued but does not hold the lock has been sent fewer, so that request has not been answered. -/
theorem lock_ok_per_request {s : Sched} (hs : Reachable s) (h : Nat) :
    s.grantsTo h ≤ s.appendedTo h ∧
      (s.Queued h → s.owner ≠ some h → s.grantsTo h < s.appendedTo h) := by
  have hi := hs.grantInv h
  have hle := held_le_queuedOf s h
  refine ⟨by omega, fun ⟨r, hr, he⟩ ho ↦ ?_⟩
  have hq : 0 < s.queuedOf h := List.countP_pos_iff.mpr ⟨r, hr, by simpa using he⟩
  have hH : s.held h = 0 := if_neg ho
  omega

theorem lock_ok_per_request_first_quantum :
    Reachable firstQuantumState ∧
      firstQuantumState.grantsTo 0 ≤ firstQuantumState.appendedTo 0 ∧
      (firstQuantumState.Queued 0 → firstQuantumState.owner ≠ some 0 →
        firstQuantumState.grantsTo 0 < firstQuantumState.appendedTo 0) :=
  ⟨reachable_firstQuantumState, lock_ok_per_request reachable_firstQuantumState 0⟩

end Nvshare
