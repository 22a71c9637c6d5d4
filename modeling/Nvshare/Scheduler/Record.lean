import Nvshare.Scheduler.Status

/-!
# What a move does to one record

Whether the lock is safe and whether a lock request can be lost are both questions about one
record of the table: how many LOCK_OKs it has been sent, whether it holds the lock, and whether a
request of it is queued. Almost every move answers them the same way. The record was already in
the table; it comes to hold the lock exactly when the move sends it a LOCK_OK, and it does not
stop holding it; a request of it that was queued stays queued (`Quiet`). There are three
exceptions (`step_record`):

* the move accepts the connection, and the record is new: it has been sent nothing and holds
  nothing;
* the move reads LOCK_RELEASED from the record, which loses the lock without a LOCK_OK to anyone
  being counted against it;
* the move handles SCHED_OFF, which empties the queue and frees the lock.

The composed system's invariants cite `step_record` and never look inside a handler.

## The lemmas

Every handler is built from `send_message`, `remove_req`, `delete_client`, `insert_req` and the
success branch of `try_schedule`, and `Quiet` is transitive, so each handler's lemma chains the
lemmas of the operations it calls. Deletion needs `Linked`: a queued request points at the
table's record with its address, so deleting the records of another fd takes neither the
requests nor the lock of this one.
-/

namespace Nvshare

/-! ## One record's account -/

/-- The table has a record at address `h`. -/
def Sched.HasRecord (s : Sched) (h : Nat) : Prop := ∃ c ∈ s.clients, c.handle = h

/-- A request of the record at address `h` is queued. -/
def Sched.Queued (s : Sched) (h : Nat) : Prop := ∃ r ∈ s.requests, r.client.handle = h

/-- The address of the record holding the lock: the head of the queue, while `lock_held`. -/
def Sched.owner (s : Sched) : Option Nat :=
  if s.lockHeld then s.requests.head?.map (·.client.handle) else none

/-- `1` if the record at address `h` holds the lock, else `0`. -/
def Sched.held (s : Sched) (h : Nat) : Nat := if s.owner = some h then 1 else 0

/-- The number of LOCK_OKs written to the record at address `h`. -/
def Sched.grantsTo (s : Sched) (h : Nat) : Nat := (inbox h s.sent).countP (·.type == .lockOk)

/-- Every queued request points at the table's record with its address. -/
def Sched.Linked (s : Sched) : Prop :=
  ∀ r ∈ s.requests, ∀ d ∈ s.clients, r.client.handle = d.handle → r.client = d

theorem TableInv.linked {s : Sched} (h : TableInv s) : s.Linked :=
  fun r hr _ hd he ↦ h.eq_of_handle (h.queued r hr).1 hd he

theorem Sched.Linked.deleteClient {s : Sched} (h : s.Linked) (c : Client) :
    (deleteClient c s).Linked := by
  intro r hr d hd he
  simp only [deleteClient_requests, deleteClient_clients, List.mem_filter] at hr hd
  exact h r hr.1 d hd.1 he

theorem Sched.Queued.of_owner {s : Sched} {h : Nat} (ho : s.owner = some h) : s.Queued h := by
  unfold Sched.owner at ho
  split at ho
  · cases hrs : s.requests with
    | nil => simp [hrs] at ho
    | cons r rest =>
      simp only [hrs, List.head?_cons, Option.map_some', Option.some.injEq] at ho
      exact ⟨r, by simp [hrs], ho⟩
  · cases ho

theorem held_eq_zero {s : Sched} {h : Nat} (hq : ¬ s.Queued h) : s.held h = 0 :=
  if_neg fun ho ↦ hq (.of_owner ho)

theorem grantsTo_sendMessage (c : Client) (m : Message) (s : Sched) (h : Nat) :
    (sendMessage c m s).grantsTo h =
      s.grantsTo h + if c.handle = h ∧ m.type = .lockOk then 1 else 0 := by
  by_cases hc : c.handle = h <;> by_cases hm : m.type = .lockOk <;>
    simp [Sched.grantsTo, sendMessage, hc, hm]

/-- Nothing has been written to an address `malloc` has not handed out. -/
theorem grantsTo_nextHandle {s : Sched} (hT : TableInv s) : s.grantsTo s.nextHandle = 0 := by
  have : inbox s.nextHandle s.sent = [] :=
    List.eq_nil_iff_forall_not_mem.mpr fun m hm ↦
      (hT.sent_lt _ (mem_inbox.mp hm)).ne rfl
  simp [Sched.grantsTo, this]

/-! ## Deleting the requests of another fd -/

section Other

variable {s : Sched} (hL : s.Linked) {c d : Client} (hd : d ∈ s.clients) (hfd : d.fd ≠ c.fd)
include hL hd hfd

theorem owner_removeReq : (removeReq c s).owner = some d.handle ↔ s.owner = some d.handle := by
  unfold Sched.owner
  rw [removeReq_lockHeld, removeReq_requests]
  cases hrs : s.requests with
  | nil => simp
  | cons r rest =>
    by_cases hr : r.client.fd = c.fd
    · have hne : r.client.handle ≠ d.handle := fun he ↦
        hfd (hL r (by simp [hrs]) d hd he ▸ hr)
      simp [hr, hne]
    · simp [hr]

theorem queued_removeReq (hq : s.Queued d.handle) : (removeReq c s).Queued d.handle := by
  obtain ⟨r, hr, he⟩ := hq
  refine ⟨r, ?_, he⟩
  rw [removeReq_requests, List.mem_filter]
  exact ⟨hr, by simp [hL r hr d hd he, hfd]⟩

end Other

/-! ## Moves that leave a record's account balanced -/

/-- A move from `s` to `s'` that keeps the account of the record at address `h`: if the record is
in the table afterwards, it was before; it came to hold the lock exactly when it was sent a
LOCK_OK, and did not stop holding it; and a request of it that was queued still is. -/
structure Quiet (h : Nat) (s s' : Sched) : Prop where
  hasRecord : s'.HasRecord h → s.HasRecord h
  grants : s'.HasRecord h → s'.grantsTo h + s.held h = s.grantsTo h + s'.held h
  queued : s'.HasRecord h → s.Queued h → s'.Queued h

namespace Quiet

variable {h : Nat} {s s' s₁ s₂ s₃ : Sched}

/-- A move that touches neither the table, the queue, the lock nor the log. -/
theorem of_eq (hc : s'.clients = s.clients) (hr : s'.requests = s.requests)
    (hl : s'.lockHeld = s.lockHeld) (hs : s'.sent = s.sent) : Quiet h s s' where
  hasRecord := by unfold Sched.HasRecord; rw [hc]; exact id
  grants _ := by simp only [Sched.grantsTo, Sched.held, Sched.owner, hr, hl, hs]
  queued _ := by unfold Sched.Queued; rw [hr]; exact id

theorem refl : Quiet h s s := of_eq rfl rfl rfl rfl

theorem trans (h₁ : Quiet h s₁ s₂) (h₂ : Quiet h s₂ s₃) : Quiet h s₁ s₃ where
  hasRecord hr := h₁.hasRecord (h₂.hasRecord hr)
  grants hr := by
    have := h₁.grants (h₂.hasRecord hr)
    have := h₂.grants hr
    omega
  queued hr hq := h₂.queued hr (h₁.queued (h₂.hasRecord hr) hq)

theorem sendMessage (c : Client) {m : Message} (hm : m.type ≠ .lockOk) :
    Quiet h s (sendMessage c m s) where
  hasRecord := id
  grants _ := by rw [grantsTo_sendMessage, if_neg fun h ↦ hm h.2, Nat.add_zero]; rfl
  queued _ := id

theorem removeReq (hL : s.Linked) {c d : Client} (hd : d ∈ s.clients) (hfd : d.fd ≠ c.fd) :
    Quiet d.handle s (removeReq c s) where
  hasRecord := id
  grants _ := by simp only [Sched.held, owner_removeReq hL hd hfd]; rfl
  queued _ := queued_removeReq hL hd hfd

theorem deleteClient (hL : s.Linked) (c : Client) : Quiet h s (deleteClient c s) := by
  have key : (Nvshare.deleteClient c s).HasRecord h →
      ∃ d ∈ s.clients, d.fd ≠ c.fd ∧ d.handle = h := by
    rintro ⟨d, hd, rfl⟩
    simp only [deleteClient_clients, List.mem_filter, Bool.not_eq_true', beq_eq_false_iff_ne] at hd
    exact ⟨d, hd.1, hd.2, rfl⟩
  refine ⟨fun hr ↦ ?_, fun hr ↦ ?_, fun hr ↦ ?_⟩ <;> obtain ⟨d, hd, hfd, rfl⟩ := key hr
  · exact ⟨d, hd, rfl⟩
  · exact (removeReq hL hd hfd).grants ⟨d, hd, rfl⟩
  · exact (removeReq hL hd hfd).queued ⟨d, hd, rfl⟩

/-- The success branch of `try_schedule`: the head comes to hold the lock with its LOCK_OK. -/
theorem grant {r : Request} {rest : List Request} (hrs : s.requests = r :: rest)
    (hl : s.lockHeld = false) : Quiet h s (grant r.client s) where
  hasRecord := id
  grants _ := by
    by_cases hh : r.client.handle = h <;>
      simp [Nvshare.grant, Sched.held, Sched.owner, Sched.grantsTo, Nvshare.sendMessage, hrs, hl, hh,
        outMsg]
  queued _ := id

theorem tryScheduleLoop (ok : Nat → Bool) :
    ∀ (fuel : Nat) {s : Sched}, s.Linked → s.lockHeld = false →
      Quiet h s (tryScheduleLoop ok fuel s)
  | 0, _, _, _ => refl
  | fuel + 1, s, hL, hl => by
    unfold Nvshare.tryScheduleLoop
    split
    · exact refl
    · rename_i r rest hrs
      split
      · exact grant hrs hl
      · refine (deleteClient hL _).trans (tryScheduleLoop ok fuel (hL.deleteClient _) ?_)
        rw [deleteClient_lockHeld, removeReq_lockHeld, hrs]
        simp

theorem trySchedule (hL : s.Linked) (ok : Nat → Bool) (hl : s.lockHeld = false) :
    Quiet h s (trySchedule ok s) :=
  tryScheduleLoop ok _ hL hl

theorem bcastStatus (hL : s.Linked) (ok : Nat → Bool) : Quiet h s (bcastStatus ok s) := by
  unfold Nvshare.bcastStatus
  generalize s.clients = l
  induction l generalizing s with
  | nil => exact refl
  | cons d l ih =>
    rcases bcastOne_cases ok s d with ⟨-, he⟩ | ⟨-, -, he⟩ | ⟨-, -, he⟩ <;>
      rw [List.foldl_cons, he]
    · exact ih hL
    · exact (sendMessage d (statusType_ne_lockOk _)).trans (ih hL)
    · exact (deleteClient hL d).trans (ih (hL.deleteClient d))

theorem setClientId (newId : UInt64) (c : Client) : Quiet h s (setClientId newId c s) where
  hasRecord := by
    rintro ⟨d', hd', rfl⟩
    obtain ⟨d, hd, rfl⟩ := List.mem_map.mp hd'
    exact ⟨d, hd, by split <;> simp_all⟩
  grants _ := rfl
  queued _ := id

theorem registerOrDelete (hT : TableInv s) (ok : Nat → Bool) (newId : UInt64) {c : Client}
    (hc : c ∈ s.clients) : Quiet h s (registerOrDelete ok newId c s) := by
  rcases registerOrDelete_cases ok newId c s with ⟨-, he⟩ | ⟨hreg, -, he⟩ | ⟨hreg, -, he⟩ <;>
    rw [he]
  · exact deleteClient hT.linked c
  · exact (setClientId newId c).trans (sendMessage _ (statusType_ne_lockOk _))
  · exact (setClientId newId c).trans (deleteClient (hT.setClientId newId hc hreg).linked c)

theorem evict (hL : s.Linked) (ok : Nat → Bool) (c : Client) : Quiet h s (evict ok c s) := by
  unfold Nvshare.evict; dsimp only; split
  · next hc =>
    simp only [Bool.and_eq_true, Bool.not_eq_true'] at hc
    exact (deleteClient hL c).trans (trySchedule (hL.deleteClient c) ok hc.1)
  · exact deleteClient hL c

/-- Appending to the queue moves no lock: with the lock held the queue is not empty. -/
theorem insertReq (hQ : QueueInv s) (c : Client) : Quiet h s (insertReq c s) := by
  unfold Nvshare.insertReq
  split
  · exact refl
  · refine ⟨id, fun _ ↦ ?_, fun _ ⟨r, hr, he⟩ ↦ ⟨r, List.mem_append_left _ hr, he⟩⟩
    unfold Sched.held Sched.owner
    split
    · next hl =>
      obtain ⟨r, rest, hrs, -⟩ := hQ.holder hl
      simp only [hrs, List.cons_append, List.head?_cons]; rfl
    · rfl

theorem timerRestart (q : Quiet h s s') : Quiet h s (timerRestart s') :=
  q.trans (of_eq rfl rfl rfl rfl)

theorem setDropLockSent (q : Quiet h s s') (b : Bool) : Quiet h s (setDropLockSent b s') :=
  q.trans (of_eq rfl rfl rfl rfl)

theorem timerWake (hT : TableInv s) {ok : Nat → Bool} {timedOut : Bool}
    (hw : timerWake ok timedOut s = some s') : Quiet h s s' := by
  rcases timerWake_cases hw with rfl | rfl | rfl | ⟨r, rest, -, -, -, -, hrs, rfl | rfl⟩
  · exact refl
  · exact refl.timerRestart
  · exact (refl.setDropLockSent _).timerRestart
  · exact ((sendMessage _ (by decide)).setDropLockSent _).timerRestart
  · refine (((deleteClient hT.linked _).trans
      (trySchedule (hT.linked.deleteClient _) ok ?_)).setDropLockSent _).timerRestart
    rw [deleteClient_lockHeld, removeReq_lockHeld, hrs]
    simp

end Quiet

/-! ## The handlers -/

/-- Deleting a record takes its address out of the table. -/
theorem not_hasRecord_deleteClient {s : Sched} (hT : TableInv s) {c : Client}
    (hc : c ∈ s.clients) : ¬ (deleteClient c s).HasRecord c.handle := by
  rintro ⟨d, hd, he⟩
  simp only [deleteClient_clients, List.mem_filter, Bool.not_eq_true', beq_eq_false_iff_ne] at hd
  exact hd.2 (by rw [hT.eq_of_handle hd.1 hc he])

theorem tryScheduleLoop_requests_sublist (ok : Nat → Bool) :
    ∀ (fuel : Nat) (s : Sched), (tryScheduleLoop ok fuel s).requests.Sublist s.requests
  | 0, _ => .refl _
  | fuel + 1, s => by
    unfold tryScheduleLoop
    split
    · exact .refl _
    · split
      · exact .refl _
      · exact (tryScheduleLoop_requests_sublist ok fuel _).trans
          (by rw [deleteClient_requests]; exact List.filter_sublist _)

/-- LOCK_RELEASED from a registered record with scheduling on: the record holds nothing
afterwards, and nobody sent it a LOCK_OK. -/
theorem release_self {s : Sched} (hT : TableInv s) (ok : Nat → Bool) {c : Client}
    (hc : c ∈ s.clients) :
    let s' := (let s := removeReq c s; if s.lockHeld then s else trySchedule ok s)
    s'.HasRecord c.handle → s'.grantsTo c.handle = s.grantsTo c.handle ∧ s'.held c.handle = 0 := by
  have hnq : ¬ (removeReq c s).Queued c.handle := by
    rintro ⟨r, hr, he⟩
    simp only [removeReq_requests, List.mem_filter] at hr
    simp [hT.linked r hr.1 c hc he] at hr
  intro s' hh
  dsimp only [s'] at hh ⊢
  split
  · exact ⟨rfl, held_eq_zero hnq⟩
  · next hl =>
    rw [if_neg hl] at hh
    have hl : (removeReq c s).lockHeld = false := by simpa using hl
    have hg := (Quiet.trySchedule (h := c.handle) (hT.removeReq c).linked ok hl).grants hh
    have h0 : (trySchedule ok (removeReq c s)).held c.handle = 0 := held_eq_zero fun ⟨r, hr, he⟩ ↦
      hnq ⟨r, (tryScheduleLoop_requests_sublist ok _ _).subset hr, he⟩
    rw [h0, held_eq_zero fun hq ↦ hnq hq] at hg
    exact ⟨by simpa using hg, h0⟩

/-- With scheduling off the lock is free. -/
theorem held_eq_zero_of_off {s : Sched} (hQ : QueueInv s) (hoff : ¬ s.schedulerOn = true)
    (h : Nat) : s.held h = 0 := by
  have hl : s.lockHeld = false := by
    cases hl : s.lockHeld
    · rfl
    · obtain ⟨_, _, hrs, -⟩ := hQ.holder hl
      exact absurd (hQ.on_of_queued (by simp [hrs])) hoff
  simp [Sched.held, Sched.owner, hl]

/-- A frame other than LOCK_RELEASED from the record at `h` keeps that record's account, unless it
turns scheduling off. -/
theorem processMsg_quiet {s : Sched} (hT : TableInv s) (hQ : QueueInv s) (ok : Nat → Bool)
    (newId : UInt64) {c : Client} (hc : c ∈ s.clients) (m : Message) {h : Nat}
    (hne : ¬ (m.type = .lockReleased ∧ c.handle = h)) :
    Quiet h s (processMsg ok newId c m s) ∨
    (s.schedulerOn = true ∧ (processMsg ok newId c m s).schedulerOn = false) := by
  have hrem (hrel : m.type = .lockReleased) : Quiet h s (removeReq c s) := by
    have hh : c.handle ≠ h := fun hh ↦ hne ⟨hrel, hh⟩
    refine ⟨id, fun ⟨d, hd, hdh⟩ ↦ ?_, fun ⟨d, hd, hdh⟩ ↦ ?_⟩ <;> subst hdh <;>
      have hfd : d.fd ≠ c.fd := fun he ↦ hh (by rw [hT.eq_of_fd hd hc he])
    · exact (Quiet.removeReq hT.linked hd hfd).grants ⟨d, hd, rfl⟩
    · exact (Quiet.removeReq hT.linked hd hfd).queued ⟨d, hd, rfl⟩
  exact processMsg_of ok
    (P := fun s' ↦ Quiet h s s' ∨ (s.schedulerOn = true ∧ s'.schedulerOn = false))
    (.inl .refl) (.inl (.registerOrDelete hT ok newId hc))
    (fun _ _ ↦ .inl ((show Quiet h s { s with schedulerOn := true } from .of_eq rfl rfl rfl rfl).trans
      (.bcastStatus (s := { s with schedulerOn := true }) hT.linked ok)))
    (fun _ hon ↦ .inr ⟨hon, by simp⟩) (fun _ ↦ .inl (.of_eq rfl rfl rfl rfl))
    (fun _ _ _ ↦ .inl (.insertReq hQ c))
    (fun _ hreg _ hl ↦ .inl ((Quiet.insertReq hQ c).trans
      (.trySchedule (hT.insertReq hc hreg).linked ok hl)))
    (fun hrel _ _ ↦ .inl (hrem hrel))
    (fun hrel _ _ hl ↦ .inl ((hrem hrel).trans (.trySchedule (hT.removeReq c).linked ok hl)))
    (fun _ ↦ .inl (.deleteClient hT.linked c))

/-- **One frame read from `c`.** Every record's account stays balanced, except that SCHED_OFF
turns scheduling off, and LOCK_RELEASED takes the lock and the requests of `c` itself. -/
theorem processMsg_record {s : Sched} (hT : TableInv s) (hQ : QueueInv s) (ok : Nat → Bool)
    (newId : UInt64) {c : Client} (hc : c ∈ s.clients) (m : Message) (h : Nat) :
    (Quiet h s (processMsg ok newId c m s) ∧ (m.type = .lockReleased → c.handle ≠ h)) ∨
    (s.schedulerOn = true ∧ (processMsg ok newId c m s).schedulerOn = false) ∨
    (m.type = .lockReleased ∧ c.handle = h ∧ ((processMsg ok newId c m s).HasRecord h →
      (processMsg ok newId c m s).grantsTo h = s.grantsTo h ∧
      (processMsg ok newId c m s).held h = 0)) := by
  by_cases hrel : m.type = .lockReleased ∧ c.handle = h
  · obtain ⟨hrel, rfl⟩ := hrel
    refine .inr (.inr ⟨hrel, rfl, fun hrec ↦ ?_⟩)
    unfold processMsg at hrec ⊢
    rw [hrel] at hrec ⊢
    dsimp only at hrec ⊢
    split at hrec
    · next hreg =>
      rw [if_pos hreg]
      split at hrec
      · next hon => rw [if_pos hon]; exact release_self hT ok hc hrec
      · next hon => rw [if_neg hon]; exact ⟨rfl, held_eq_zero_of_off hQ hon _⟩
    · exact absurd hrec (not_hasRecord_deleteClient hT hc)
  · rcases processMsg_quiet hT hQ ok newId hc m hrel with q | hoff
    · exact .inl ⟨q, fun h₁ h₂ ↦ hrel ⟨h₁, h₂⟩⟩
    · exact .inr (.inl hoff)

/-- The listener branch: every record but the new one keeps its account, and the new one has been
sent nothing and holds nothing. -/
theorem acceptClient_record {s : Sched} (hT : TableInv s) (fd : Nat) (added : Bool) (h : Nat) :
    Quiet h s (acceptClient fd added s) ∨
    (h = s.nextHandle ∧ added = true ∧ (acceptClient fd added s).grantsTo h = 0 ∧
      (acceptClient fd added s).held h = 0) := by
  by_cases hh : h = s.nextHandle ∧ added = true
  · obtain ⟨rfl, rfl⟩ := hh
    refine .inr ⟨rfl, rfl, grantsTo_nextHandle hT, held_eq_zero fun ⟨r, hr, he⟩ ↦ ?_⟩
    exact (hT.handle_lt _ (hT.queued r hr).1).ne he
  · refine .inl ⟨fun ⟨d, hd, hdh⟩ ↦ ?_, fun _ ↦ ?_, fun _ hq ↦ ?_⟩
    · unfold acceptClient at hd
      split at hd
      · rcases List.mem_append.mp hd with hd | hd
        · exact ⟨d, hd, hdh⟩
        · rw [List.mem_singleton.mp hd] at hdh
          exact absurd ⟨hdh.symm, ‹_›⟩ hh
      · exact ⟨d, hd, hdh⟩
    · unfold acceptClient; split <;> rfl
    · unfold acceptClient; split <;> exact hq

/-- A read of `m` from the record at address `h` processes `m` as from that record. -/
theorem handleEvent_read {ch : Choice} {h : Nat} {eh : Bool} {m : Message} {s s₁ : Sched}
    (hm : ch.recv = some m) (he : handleEvent ch (.client h true eh) s = some s₁) :
    ∃ c ∈ s.clients, c.handle = h ∧ s₁ = processMsg ch.ok ch.newId c m s := by
  unfold handleEvent at he
  dsimp only at he
  split at he
  · cases he
  · rename_i c hc
    simp only [if_true, hm, Option.some.injEq] at he
    exact ⟨c, List.mem_of_find?_eq_some hc, by simpa using List.find?_some hc, he.symm⟩

theorem step_read {l : Label} {s s' : Sched} (hs : step l s = some s') {h : Nat} {m : Message}
    (hread : l.read s = some (h, m)) :
    ∃ (ch : Choice) (c : Client) (rest : List Event), c ∈ s.clients ∧ c.handle = h ∧
      s' = { processMsg ch.ok ch.newId c m s with main := .handling rest } := by
  cases l with
  | handle ch =>
    unfold Label.read at hread
    rcases hmain : s.main with _ | _ | ⟨_ | ⟨_ | ⟨h', _ | _, eh⟩, rest⟩⟩ <;>
      simp [hmain] at hread
    obtain ⟨hm', rfl⟩ := hread
    simp only [step, hmain] at hs
    split at hs
    · obtain ⟨s₁, he₁, rfl⟩ := Option.map_eq_some'.mp hs
      obtain ⟨c, hc, hch, rfl⟩ := handleEvent_read hm' he₁
      exact ⟨ch, c, rest, hc, hch, rfl⟩
    · cases hs
  | _ => simp [Label.read] at hread

/-! ## Every move -/

/-- Scheduling goes off only when a SCHED_OFF is read. -/
theorem step_schedulerOn_off {s s' : Sched} {l : Label} (hs : step l s = some s')
    (hon : s.schedulerOn = true) (hoff : s'.schedulerOn = false) :
    ∃ h m, l.read s = some (h, m) ∧ m.type = .schedOff := by
  by_cases hread : ∃ h m, l.read s = some (h, m)
  · obtain ⟨h, m, hread⟩ := hread
    refine ⟨h, m, hread, by_contra fun hne ↦ ?_⟩
    obtain ⟨ch, c, rest, -, -, rfl⟩ := step_read hs hread
    change (processMsg ch.ok ch.newId c m s).schedulerOn = false at hoff
    by_cases hm : m.type = .schedOn
    · unfold processMsg at hoff; simp [hm, hon] at hoff
    · rw [processMsg_schedulerOn ch.ok ch.newId c s hm hne, hon] at hoff; cases hoff
  suffices s'.schedulerOn = s.schedulerOn by rw [this, hon] at hoff; cases hoff
  obtain ⟨_, rfl⟩ | ⟨ch, e, rest, s₁, rfl, hmain, -, he, rfl⟩ | rfl | ⟨_, _, hw⟩ | ⟨_, rfl⟩ :=
    step_cases hs
  · rfl
  · obtain rfl | ⟨fd, added, -, -, rfl⟩ | ⟨c, -, rfl | ⟨eh, m, rfl, hm, rfl⟩⟩ :=
      handleEvent_cases he
    · rfl
    · show (acceptClient fd added s).schedulerOn = _
      unfold acceptClient; split <;> rfl
    · exact evict_schedulerOn ch.ok c s
    · exact absurd ⟨c.handle, m, by simp [Label.read, hmain, hm]⟩ hread
  · rfl
  · exact timerWake_schedulerOn hw
  · rfl

/-- **What a move does to one record.** Take a record of the table after a move. Either the move
kept its account (`Quiet`) and read no LOCK_RELEASED from it, or it accepted the record's
connection and the record has been sent nothing and holds nothing, or it turned scheduling off,
or it read LOCK_RELEASED from the record, which then holds nothing and was sent no LOCK_OK. -/
theorem step_record {s s' : Sched} (hr : Reachable s) {l : Label} (hs : step l s = some s')
    {h : Nat} (hh : s'.HasRecord h) :
    (Quiet h s s' ∧ ∀ m, l.read s = some (h, m) → m.type ≠ .lockReleased) ∨
    (h = s.nextHandle ∧ l.accepts s = true ∧ s'.grantsTo h = 0 ∧ s'.held h = 0) ∨
    (s.schedulerOn = true ∧ s'.schedulerOn = false) ∨
    (∃ m, l.read s = some (h, m) ∧ m.type = .lockReleased ∧ s.HasRecord h ∧
      s'.grantsTo h = s.grantsTo h ∧ s'.held h = 0) := by
  have hT := hr.tableInv
  by_cases hread : ∃ h' m, l.read s = some (h', m)
  · obtain ⟨h', m, hread⟩ := hread
    obtain ⟨ch, c, rest, hc, rfl, rfl⟩ := step_read hs hread
    have q₁ : Quiet h (processMsg ch.ok ch.newId c m s)
        { processMsg ch.ok ch.newId c m s with main := .handling rest } := .of_eq rfl rfl rfl rfl
    rcases processMsg_record hT hr.queueInv ch.ok ch.newId hc m h with ⟨q, hq⟩ | hoff |
        ⟨hrel, rfl, hg⟩
    · refine .inl ⟨q.trans q₁, fun m' hm' hrel' ↦ ?_⟩
      rw [hread, Option.some.injEq, Prod.mk.injEq] at hm'
      exact hq (hm'.2 ▸ hrel') hm'.1
    · exact .inr (.inr (.inl hoff))
    · obtain ⟨hg, hheld⟩ := hg hh
      exact .inr (.inr (.inr ⟨m, hread, hrel, ⟨c, hc, rfl⟩, hg, hheld⟩))
  suffices hq : Quiet h s s' ∨
      (h = s.nextHandle ∧ l.accepts s = true ∧ s'.grantsTo h = 0 ∧ s'.held h = 0) by
    rcases hq with q | ha
    exacts [.inl ⟨q, fun m he ↦ absurd ⟨h, m, he⟩ hread⟩, .inr (.inl ha)]
  obtain ⟨_, rfl⟩ | ⟨ch, e, rest, s₁, rfl, hmain, -, he, rfl⟩ | rfl | ⟨_, _, hw⟩ | ⟨_, rfl⟩ :=
    step_cases hs
  · exact .inl (.of_eq rfl rfl rfl rfl)
  · have q₁ : Quiet h s₁ { s₁ with main := .handling rest } := .of_eq rfl rfl rfl rfl
    obtain rfl | ⟨fd, added, rfl, hacc, rfl⟩ | ⟨c, hc, rfl | ⟨eh, m, rfl, hm, rfl⟩⟩ :=
      handleEvent_cases he
    · exact .inl q₁
    · rcases acceptClient_record hT fd added h with q | ⟨rfl, rfl, hg, hheld⟩
      · exact .inl (q.trans q₁)
      · exact .inr ⟨rfl, by simp [Label.accepts, hmain, hacc], hg, hheld⟩
    · exact .inl ((Quiet.evict hT.linked _ c).trans q₁)
    · exact absurd ⟨c.handle, m, by simp [Label.read, hmain, hm]⟩ hread
  · exact .inl (.of_eq rfl rfl rfl rfl)
  · exact .inl (.timerWake hT hw)
  · exact .inl (.of_eq rfl rfl rfl rfl)

/-- A REQ_LOCK read from a record while scheduling is on leaves a request of it queued, if the
record stays: `insert_req` appends one unless one of its fd is queued, and `try_schedule` only
deletes the requests of the records it evicts. -/
theorem step_reqLock_queued {s s' : Sched} (hr : Reachable s) {l : Label}
    (hs : step l s = some s') {h : Nat} {m : Message} (hread : l.read s = some (h, m))
    (hm : m.type = .reqLock) (hon : s'.schedulerOn = true) (hh : s'.HasRecord h) : s'.Queued h := by
  have hT := hr.tableInv
  obtain ⟨ch, c, rest, hc, rfl, rfl⟩ := step_read hs hread
  change (processMsg ch.ok ch.newId c m s).HasRecord c.handle at hh
  change (processMsg ch.ok ch.newId c m s).schedulerOn = true at hon
  change (processMsg ch.ok ch.newId c m s).Queued c.handle
  unfold processMsg at hh hon ⊢
  rw [hm] at hh hon ⊢
  dsimp only at hh hon ⊢
  by_cases hreg : c.hasRegistered = true
  swap
  · rw [if_neg hreg] at hh
    exact absurd hh (not_hasRecord_deleteClient hT hc)
  by_cases hon' : s.schedulerOn = true
  swap
  · rw [if_pos hreg, if_neg hon'] at hon
    exact absurd hon hon'
  have hins : (insertReq c s).Queued c.handle := by
    unfold insertReq
    split
    · next hany =>
      obtain ⟨r, hr, hfd⟩ := List.any_eq_true.mp hany
      exact ⟨r, hr, by rw [hT.eq_of_fd (hT.queued r hr).1 hc (by simpa using hfd)]⟩
    · exact ⟨_, List.mem_append_right _ (List.mem_singleton_self _), rfl⟩
  rw [if_pos hreg, if_pos hon'] at hh ⊢
  split
  · exact hins
  · next hl =>
    rw [if_neg hl] at hh
    exact (Quiet.trySchedule (hT.insertReq hc hreg).linked ch.ok (by simpa using hl)).queued hh hins

/-! ## Frames go to registered records

`register_client` answers a `REGISTER` right after it has marked the record registered, and every
other frame goes to a registered record: the head of the queue or a record `bcast_status` found
registered. So a record that has not registered has been sent nothing, and the first frame a
registered record was sent is the answer: a SCHED_ON or a SCHED_OFF whose data is its id in hex.
Since every later frame goes to an address that has been written to already, the first frame of
every channel is such an answer, also once its record has been deleted. -/

/-- The first frame of a channel carries a status. -/
def StartsWithStatus (l : List Message) : Prop := ∃ m rest b, l = m :: rest ∧ m.type.status = some b

/-- What has been sent to the records of the table: nothing to one that has not registered, and
first the answer to its `REGISTER` to one that has. -/
structure SentInv (s : Sched) : Prop where
  unregistered : ∀ c ∈ s.clients, c.hasRegistered = false → inbox c.handle s.sent = []
  answered : ∀ c ∈ s.clients, c.hasRegistered = true → StartsWithStatus (inbox c.handle s.sent)

/-- The first frame of a channel is the answer `register_client` writes for the id `id`. -/
def AnsweredWith (id : UInt64) (l : List Message) : Prop :=
  ∃ b rest, l = ⟨statusType b, 7331, hex16 id⟩ :: rest

theorem AnsweredWith.append {id : UInt64} {l : List Message} (h : AnsweredWith id l)
    (t : List Message) : AnsweredWith id (l ++ t) :=
  let ⟨b, rest, he⟩ := h
  ⟨b, rest ++ t, by simp [he]⟩

/-- `SentInv` with the answers' ids, and the first frame of every channel. -/
structure AnswerInv (s : Sched) : Prop where
  unregistered : ∀ c ∈ s.clients, c.hasRegistered = false → inbox c.handle s.sent = []
  answered : ∀ c ∈ s.clients, c.hasRegistered = true → AnsweredWith c.id (inbox c.handle s.sent)
  first : ∀ h, inbox h s.sent = [] ∨ ∃ id, AnsweredWith id (inbox h s.sent)

namespace AnswerInv

variable {s : Sched}

theorem init : AnswerInv Sched.init := ⟨nofun, nofun, fun _ ↦ .inl rfl⟩

theorem sentInv (h : AnswerInv s) : SentInv s :=
  ⟨h.unregistered, fun c hc hreg ↦
    let ⟨b, rest, he⟩ := h.answered c hc hreg
    ⟨_, rest, b, he, status_statusType b⟩⟩

/-- A move that only removes records and only appends to channels written to already. -/
theorem of_sublist (h : AnswerInv s) {s' : Sched} (hc : ∀ c ∈ s'.clients, c ∈ s.clients)
    (hs : ∃ t, s'.sent = s.sent ++ t ∧ ∀ x ∈ t, inbox x.1 s.sent ≠ []) : AnswerInv s' := by
  obtain ⟨t, he, ht⟩ := hs
  have hnew : ∀ a, inbox a s.sent = [] → inbox a t = [] := fun a h0 ↦
    List.eq_nil_iff_forall_not_mem.mpr fun _ hm ↦ ht _ (mem_inbox.mp hm) h0
  refine ⟨fun c hc' hreg ↦ ?_, fun c hc' hreg ↦ ?_, fun a ↦ ?_⟩ <;> rw [he, inbox_append]
  · have h0 := h.unregistered c (hc c hc') hreg
    rw [h0, hnew _ h0, List.append_nil]
  · exact (h.answered c (hc c hc') hreg).append _
  · rcases h.first a with h0 | ⟨id, ha⟩
    · exact .inl (by rw [h0, hnew a h0, List.append_nil])
    · exact .inr ⟨id, ha.append _⟩

/-- A frame to a channel written to already. -/
theorem sendMessage (h : AnswerInv s) {d : Client} (hd : inbox d.handle s.sent ≠ [])
    (m : Message) : AnswerInv (sendMessage d m s) :=
  h.of_sublist (fun _ ↦ id) ⟨_, rfl, by simpa using hd⟩

/-- A frame to a registered record of the table. -/
theorem sendMessage_registered (h : AnswerInv s) {d : Client} (hd : d ∈ s.clients)
    (hreg : d.hasRegistered = true) (m : Message) : AnswerInv (Nvshare.sendMessage d m s) :=
  h.sendMessage (fun he ↦ by obtain ⟨_, _, h'⟩ := h.answered d hd hreg; simp [he] at h') m

theorem deleteClient (h : AnswerInv s) (c : Client) : AnswerInv (deleteClient c s) :=
  h.of_sublist (fun d hd ↦ (List.mem_filter.mp (by simpa only [deleteClient_clients] using hd)).1)
    ⟨[], by simp, nofun⟩

theorem grant (h : AnswerInv s) (hT : TableInv s) {r : Request} {rest : List Request}
    (hrs : s.requests = r :: rest) : AnswerInv (grant r.client s) :=
  have hr := hT.queued r (by simp [hrs])
  let h' := h.sendMessage_registered hr.1 hr.2 (outMsg .lockOk)
  ⟨h'.1, h'.2, h'.3⟩

theorem tryScheduleLoop (ok : Nat → Bool) :
    ∀ (fuel : Nat) {s : Sched}, AnswerInv s → TableInv s → AnswerInv (tryScheduleLoop ok fuel s)
  | 0, _, h, _ => h
  | fuel + 1, s, h, hT => by
    unfold Nvshare.tryScheduleLoop
    split
    · exact h
    · split
      · exact h.grant hT ‹_›
      · exact tryScheduleLoop ok fuel (h.deleteClient _) (hT.deleteClient _)

theorem trySchedule (h : AnswerInv s) (hT : TableInv s) (ok : Nat → Bool) :
    AnswerInv (trySchedule ok s) :=
  tryScheduleLoop ok _ h hT

/-- The broadcast writes only to records of the table it started from that it finds registered,
whose channels were written to before it started. -/
theorem bcastStatus (h : AnswerInv s) (ok : Nat → Bool) : AnswerInv (bcastStatus ok s) := by
  unfold Nvshare.bcastStatus
  suffices ∀ (l : List Client), (∀ d ∈ l, d ∈ s.clients) → ∀ t : Sched,
      s.sent.IsPrefix t.sent → AnswerInv t → AnswerInv (l.foldl (bcastOne ok) t) from
    this _ (fun _ ↦ id) s (List.prefix_refl _) h
  intro l
  induction l with
  | nil => exact fun _ _ _ ht ↦ ht
  | cons d l ih =>
    intro hl t hst ht
    have hd := hl d (.head _)
    refine ih (fun d' hd' ↦ hl d' (.tail _ hd')) _ ?_ ?_ <;>
      rcases bcastOne_cases ok t d with ⟨-, he⟩ | ⟨hreg, -, he⟩ | ⟨-, -, he⟩ <;> rw [he]
    · exact hst
    · exact hst.trans (List.prefix_append _ _)
    · exact hst
    · exact ht
    · refine ht.sendMessage (fun he ↦ ?_) _
      obtain ⟨u, hu⟩ := hst
      obtain ⟨_, _, h'⟩ := h.answered d hd hreg
      simp [← hu, h'] at he
    · exact ht.deleteClient d

/-- `register_client` marks the record registered and answers it with the status and the new id,
or the record is deleted. -/
theorem registerOrDelete (h : AnswerInv s) (ok : Nat → Bool) {newId : UInt64}
    (hnew : newId ≠ unregisteredId) {c : Client} (hc : c ∈ s.clients) :
    AnswerInv (registerOrDelete ok newId c s) := by
  rcases registerOrDelete_cases ok newId c s with ⟨-, he⟩ | ⟨hreg, -, he⟩ | ⟨hreg, -, he⟩ <;>
    rw [he]
  · exact h.deleteClient c
  · have hnil := h.unregistered c hc hreg
    refine ⟨fun e he hereg ↦ ?_, fun e he hereg ↦ ?_, fun h' ↦ ?_⟩
    rotate_left 2
    · by_cases hh : c.handle = h'
      · exact .inr ⟨newId, s.schedulerOn, [], by
          simp [Nvshare.sendMessage, Nvshare.setClientId, ← hh, hnil]⟩
      · simpa [Nvshare.sendMessage, Nvshare.setClientId, hh] using h.first h'
    all_goals obtain ⟨d, hd, rfl⟩ := List.mem_map.mp he; by_cases hdc : d.handle = c.handle
    · simp [hdc, Client.hasRegistered, hnew] at hereg
    · rw [if_neg hdc] at hereg ⊢
      simp [Nvshare.sendMessage, Nvshare.setClientId, h.unregistered d hd hereg, Ne.symm hdc]
    · simp only [hdc, if_true]
      exact ⟨s.schedulerOn, [], by simp [Nvshare.sendMessage, Nvshare.setClientId, hnil]⟩
    · rw [if_neg hdc] at hereg ⊢
      simpa [Nvshare.sendMessage, Nvshare.setClientId, Ne.symm hdc] using h.answered d hd hereg
  · refine h.of_sublist (fun d hd ↦ ?_) ⟨[], by simp, nofun⟩
    simp only [deleteClient_clients, Nvshare.setClientId, List.mem_filter, List.mem_map] at hd
    obtain ⟨⟨a, ha, rfl⟩, hfd⟩ := hd
    by_cases hac : a.handle = c.handle
    · simp [hac] at hfd
    · simpa [hac] using ha

theorem evict (h : AnswerInv s) (hT : TableInv s) (ok : Nat → Bool) (c : Client) :
    AnswerInv (evict ok c s) := by
  unfold Nvshare.evict; dsimp only; split
  exacts [(h.deleteClient c).trySchedule (hT.deleteClient c) ok, h.deleteClient c]

theorem processMsg (h : AnswerInv s) (hT : TableInv s) (ok : Nat → Bool) {newId : UInt64}
    (hnew : newId ≠ unregisteredId) {c : Client} (hc : c ∈ s.clients) (m : Message) :
    AnswerInv (processMsg ok newId c m s) :=
  have hins : AnswerInv (insertReq c s) := by unfold insertReq; split <;> exact ⟨h.1, h.2, h.3⟩
  have h' : ∀ b, AnswerInv { s with schedulerOn := b } := fun _ ↦ ⟨h.1, h.2, h.3⟩
  processMsg_of ok h (h.registerOrDelete ok hnew hc) (fun _ _ ↦ (h' true).bcastStatus ok)
    (fun _ _ ↦ have h'' := (h' false).bcastStatus ok; ⟨h''.1, h''.2, h''.3⟩)
    (fun _ ↦ ⟨h.1, h.2, h.3⟩) (fun _ _ _ ↦ hins)
    (fun _ hr _ _ ↦ hins.trySchedule (hT.insertReq hc hr) ok) (fun _ _ _ ↦ ⟨h.1, h.2, h.3⟩)
    (fun _ _ _ _ ↦ AnswerInv.trySchedule (s := removeReq c s) ⟨h.1, h.2, h.3⟩ (hT.removeReq c) ok)
    (fun _ ↦ h.deleteClient c)

theorem acceptClient (h : AnswerInv s) (hT : TableInv s) (fd : Nat) (added : Bool) :
    AnswerInv (acceptClient fd added s) := by
  unfold Nvshare.acceptClient
  split
  · refine ⟨fun d hd hreg ↦ ?_, fun d hd hreg ↦ ?_, h.first⟩ <;>
      rcases List.mem_append.mp hd with hd | hd
    · exact h.unregistered d hd hreg
    · rw [List.mem_singleton.mp hd]
      exact List.eq_nil_iff_forall_not_mem.mpr fun m hm ↦ (hT.sent_lt _ (mem_inbox.mp hm)).ne rfl
    · exact h.answered d hd hreg
    · rw [List.mem_singleton.mp hd] at hreg; cases hreg
  · exact ⟨h.1, h.2, h.3⟩

theorem timerRestart (h : AnswerInv s) : AnswerInv (timerRestart s) := ⟨h.1, h.2, h.3⟩

theorem setDropLockSent (h : AnswerInv s) (b : Bool) : AnswerInv (setDropLockSent b s) :=
  ⟨h.1, h.2, h.3⟩

theorem timerWake (h : AnswerInv s) (hT : TableInv s) {ok : Nat → Bool} {timedOut : Bool}
    {s' : Sched} (hw : timerWake ok timedOut s = some s') : AnswerInv s' := by
  rcases timerWake_cases hw with rfl | rfl | rfl | ⟨r, rest, -, -, -, -, hrs, rfl | rfl⟩
  · exact h
  · exact h.timerRestart
  · exact (h.setDropLockSent _).timerRestart
  · have hr := hT.queued r (by simp [hrs])
    exact ((h.sendMessage_registered hr.1 hr.2 _).setDropLockSent _).timerRestart
  · exact (((h.deleteClient r.client).trySchedule (hT.deleteClient r.client) ok).setDropLockSent
      _).timerRestart

theorem step (h : AnswerInv s) (hT : TableInv s) {l : Label} {s' : Sched}
    (hs : step l s = some s') : AnswerInv s' := by
  obtain ⟨_, rfl⟩ | ⟨ch, _, _, _, -, -, hch, he, rfl⟩ | rfl | ⟨ok, _, hw⟩ | ⟨_, rfl⟩ :=
    step_cases hs
  · exact ⟨h.1, h.2, h.3⟩
  · have hnew : ch.newId ≠ unregisteredId := by
      simp only [Sched.canChoose, Bool.and_eq_true, bne_iff_ne] at hch; exact hch.1.1
    obtain rfl | ⟨fd, added, -, -, rfl⟩ | ⟨c, hc, rfl | ⟨-, m, -, -, rfl⟩⟩ := handleEvent_cases he
    · exact ⟨h.1, h.2, h.3⟩
    · have h' := h.acceptClient hT fd added; exact ⟨h'.1, h'.2, h'.3⟩
    · have h' := h.evict hT ch.ok c; exact ⟨h'.1, h'.2, h'.3⟩
    · have h' := h.processMsg hT ch.ok hnew hc m; exact ⟨h'.1, h'.2, h'.3⟩
  · exact ⟨h.1, h.2, h.3⟩
  · exact h.timerWake hT hw
  · exact ⟨h.1, h.2, h.3⟩

end AnswerInv

theorem Reachable.answerInv {s : Sched} (h : Reachable s) : AnswerInv s := by
  induction h with
  | init => exact AnswerInv.init
  | step _ hr hs ih => exact ih.step hr.tableInv hs

theorem Reachable.sentInv {s : Sched} (h : Reachable s) : SentInv s := h.answerInv.sentInv

end Nvshare
