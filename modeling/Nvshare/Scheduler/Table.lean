import Mathlib.Data.List.Nodup
import Nvshare.Scheduler.Step

/-!
# The client table and the write log

Two facts about the scheduler that the composed system needs before anything about clients:

* the log of frames written only grows, so the frames written to one record are a channel that
  a client reads from the front (`step_sent_grows`);
* `TableInv`: records have distinct addresses and distinct fds, every address in the table or in
  the log was handed out by `malloc` before, and every queued request points at a registered
  record of the table.

The last point is what makes `delete_client`'s deletions by fd precise: deleting one record
never takes the requests of another with it.
-/

namespace Nvshare

/-- The frames written to the record at address `h`, oldest first. -/
def inbox (h : Nat) (log : List (Nat × Message)) : List Message :=
  log.filterMap fun e ↦ if e.1 = h then some e.2 else none

@[simp] theorem inbox_nil (h : Nat) : inbox h [] = [] := rfl

@[simp] theorem inbox_append (h : Nat) (l₁ l₂ : List (Nat × Message)) :
    inbox h (l₁ ++ l₂) = inbox h l₁ ++ inbox h l₂ :=
  List.filterMap_append _ _ _

@[simp] theorem inbox_singleton (h h' : Nat) (m : Message) :
    inbox h [(h', m)] = if h' = h then [m] else [] := by
  by_cases hh : h' = h <;> simp [inbox, hh]

theorem mem_inbox {h : Nat} {m : Message} {log : List (Nat × Message)} :
    m ∈ inbox h log ↔ (h, m) ∈ log := by
  simp only [inbox, List.mem_filterMap, Option.ite_none_right_eq_some, Option.some.injEq]
  constructor
  · rintro ⟨⟨h', m'⟩, hx, rfl, rfl⟩; exact hx
  · intro hx; exact ⟨(h, m), hx, rfl, rfl⟩

/-! ## What a move writes

The log only grows, and what a move appends is known: LOCK_OKs, SCHED_ON or SCHED_OFF frames that
carry the scheduler's `scheduler_on` after the move, and the timer's DROP_LOCK to the holder. -/

/-- A move from `s` to `s'` appended frames to the log, each satisfying `P`, and changed none. -/
def Writes (P : Nat × Message → Prop) (s s' : Sched) : Prop :=
  ∃ t, s'.sent = s.sent ++ t ∧ ∀ x ∈ t, P x

namespace Writes

variable {P Q : Nat × Message → Prop} {s₁ s₂ s₃ : Sched}

theorem of_sent (h : s₂.sent = s₁.sent) : Writes P s₁ s₂ := ⟨[], by simp [h], nofun⟩

theorem trans (h₁ : Writes P s₁ s₂) (h₂ : Writes P s₂ s₃) : Writes P s₁ s₃ := by
  obtain ⟨t₁, e₁, p₁⟩ := h₁
  obtain ⟨t₂, e₂, p₂⟩ := h₂
  exact ⟨t₁ ++ t₂, by simp [e₁, e₂], fun x hx ↦ (List.mem_append.mp hx).elim (p₁ x) (p₂ x)⟩

theorem mono (h : Writes P s₁ s₂) (hPQ : ∀ x, P x → Q x) : Writes Q s₁ s₂ :=
  let ⟨t, e, p⟩ := h
  ⟨t, e, fun x hx ↦ hPQ x (p x hx)⟩

theorem grows (h : Writes P s₁ s₂) : s₁.sent.IsPrefix s₂.sent :=
  let ⟨t, e, _⟩ := h
  ⟨t, e.symm⟩

end Writes

theorem sendMessage_writes (c : Client) (m : Message) (s : Sched) :
    Writes (· = (c.handle, m)) s (sendMessage c m s) :=
  ⟨_, rfl, by simp⟩

section Handlers

variable (ok : Nat → Bool)

theorem tryScheduleLoop_writes (n : Nat) (s : Sched) :
    Writes (·.2 = outMsg .lockOk) s (tryScheduleLoop ok n s) := by
  rcases tryScheduleLoop_sent ok n s with he | ⟨_, he⟩
  exacts [.of_sent he, ⟨_, he, by simp⟩]

theorem trySchedule_writes (s : Sched) : Writes (·.2 = outMsg .lockOk) s (trySchedule ok s) :=
  tryScheduleLoop_writes ok _ s

theorem bcastStatus_writes (s : Sched) :
    Writes (·.2 = outMsg (statusType s.schedulerOn)) s (bcastStatus ok s) := by
  unfold bcastStatus
  suffices ∀ (l : List Client) (t : Sched), t.schedulerOn = s.schedulerOn →
      Writes (·.2 = outMsg (statusType s.schedulerOn)) t (l.foldl (bcastOne ok) t) from
    this _ _ rfl
  intro l
  induction l with
  | nil => exact fun _ _ ↦ .of_sent rfl
  | cons d l ih =>
    intro t hon
    rcases bcastOne_cases ok t d with ⟨-, he⟩ | ⟨-, -, he⟩ | ⟨-, -, he⟩ <;>
      rw [List.foldl_cons, he]
    · exact ih t hon
    · exact ((sendMessage_writes _ _ _).mono fun x hx ↦ by rw [hx, hon]).trans (ih _ hon)
    · exact (Writes.of_sent rfl).trans (ih _ hon)

theorem registerOrDelete_writes (newId : UInt64) (c : Client) (s : Sched) :
    Writes (·.2.type = statusType s.schedulerOn) s (registerOrDelete ok newId c s) := by
  rcases registerOrDelete_cases ok newId c s with ⟨-, he⟩ | ⟨-, -, he⟩ | ⟨-, -, he⟩ <;> rw [he]
  · exact .of_sent rfl
  · exact (sendMessage_writes _ _ _).mono fun x hx ↦ by rw [hx]
  · exact .of_sent rfl

theorem evict_writes (c : Client) (s : Sched) : Writes (·.2 = outMsg .lockOk) s (evict ok c s) := by
  unfold evict; dsimp only; split
  exacts [(Writes.of_sent rfl).trans (trySchedule_writes ok _), .of_sent rfl]

/-- `process_msg` writes LOCK_OKs and status frames that carry its new `scheduler_on`. -/
theorem processMsg_writes (newId : UInt64) (c : Client) (m : Message) (s : Sched) :
    Writes (fun x ↦ x.2.type = .lockOk ∨
      x.2.type = statusType (processMsg ok newId c m s).schedulerOn) s
      (processMsg ok newId c m s) := by
  have hlock : ∀ {s₁ s₂ : Sched} {b : Bool}, Writes (·.2 = outMsg .lockOk) s₁ s₂ →
      Writes (fun x ↦ x.2.type = .lockOk ∨ x.2.type = statusType b) s₁ s₂ :=
    fun h ↦ h.mono fun x hx ↦ .inl (by rw [hx]; rfl)
  have hins : (insertReq c s).sent = s.sent := by unfold insertReq; split <;> rfl
  have hbcast (b : Bool) : Writes (fun x ↦ x.2.type = .lockOk ∨
      x.2.type = statusType (bcastStatus ok { s with schedulerOn := b }).schedulerOn) s
      (bcastStatus ok { s with schedulerOn := b }) :=
    (bcastStatus_writes ok _).mono fun x hx ↦ .inr (by rw [hx, bcastStatus_schedulerOn]; rfl)
  exact processMsg_of ok
    (P := fun s' ↦ Writes (fun x ↦ x.2.type = .lockOk ∨ x.2.type = statusType s'.schedulerOn) s s')
    (.of_sent rfl)
    ((registerOrDelete_writes ok newId c s).mono fun x hx ↦
      .inr (by rw [hx, registerOrDelete_schedulerOn]))
    (fun _ _ ↦ hbcast true) (fun _ _ ↦ hbcast false) (fun _ ↦ .of_sent rfl)
    (fun _ _ _ ↦ .of_sent hins)
    (fun _ _ _ _ ↦ hlock ((Writes.of_sent hins).trans (trySchedule_writes ok (insertReq c s))))
    (fun _ _ _ ↦ .of_sent rfl)
    (fun _ _ _ _ ↦ hlock ((Writes.of_sent rfl).trans (trySchedule_writes ok _)))
    (fun _ ↦ .of_sent rfl)

end Handlers

/-- What the main loop writes while handling one event. -/
theorem handleEvent_writes {ch : Choice} {e : Event} {s s' : Sched}
    (he : handleEvent ch e s = some s') :
    Writes (fun x ↦ x.2.type = .lockOk ∨ x.2.type = statusType s'.schedulerOn) s s' := by
  obtain rfl | ⟨fd, added, -, -, rfl⟩ | ⟨c, -, rfl | ⟨-, m, -, -, rfl⟩⟩ := handleEvent_cases he
  · exact .of_sent rfl
  · exact .of_sent (by unfold acceptClient; split <;> rfl)
  · exact (evict_writes _ c s).mono fun x hx ↦ .inl (by rw [hx]; rfl)
  · exact processMsg_writes _ _ _ _ _

/-- The timer writes LOCK_OKs, or one DROP_LOCK to the head of the queue while the lock is held. -/
theorem timerWake_writes {ok : Nat → Bool} {timedOut : Bool} {s s' : Sched}
    (hw : timerWake ok timedOut s = some s') :
    Writes (·.2.type = .lockOk) s s' ∨ (s.lockHeld = true ∧ ∃ r rest, s.requests = r :: rest ∧
      s'.sent = s.sent ++ [(r.client.handle, dropLockMsg)]) := by
  rcases timerWake_cases hw with rfl | rfl | rfl | ⟨r, rest, -, hl, -, -, hrs, rfl | rfl⟩
  · exact .inl (.of_sent rfl)
  · exact .inl (.of_sent rfl)
  · exact .inl (.of_sent rfl)
  · exact .inr ⟨hl, r, rest, hrs, rfl⟩
  · exact .inl ((trySchedule_writes ok _).mono fun x hx ↦ by rw [hx]; rfl)

/-- What one move appends to the log: LOCK_OKs, status frames carrying the new `scheduler_on`, and
the timer's DROP_LOCK to the head of the queue while the lock is held. -/
def StepWrite (s s' : Sched) (x : Nat × Message) : Prop :=
  x.2.type = .lockOk ∨ x.2.type = statusType s'.schedulerOn ∨
  (x.2 = dropLockMsg ∧ s.lockHeld = true ∧ ∃ r rest, s.requests = r :: rest ∧ x.1 = r.client.handle)

theorem step_writes {l : Label} {s s' : Sched} (h : step l s = some s') :
    Writes (StepWrite s s') s s' := by
  obtain ⟨_, rfl⟩ | ⟨ch, _, _, _, -, -, -, he, rfl⟩ | rfl | ⟨_, _, hw⟩ | ⟨_, rfl⟩ := step_cases h
  · exact .of_sent rfl
  · exact (handleEvent_writes he).mono fun x hx ↦ hx.elim .inl (.inr ∘ .inl)
  · exact .of_sent rfl
  · rcases timerWake_writes hw with hw | ⟨hl, r, rest, hrs, he⟩
    · exact hw.mono fun _ ↦ .inl
    · exact ⟨_, he, by simp [StepWrite, hl, hrs]⟩
  · exact .of_sent rfl

/-- **The log only grows.** Every move appends to the frames written, and changes none. -/
theorem step_sent_grows {l : Label} {s s' : Sched} (h : step l s = some s') :
    s.sent.IsPrefix s'.sent :=
  (step_writes h).grows

/-! ## The table invariant -/

/-- The invariant of the client table. -/
structure TableInv (s : Sched) : Prop where
  handles_nodup : (s.clients.map (·.handle)).Nodup
  fds_nodup : (s.clients.map (·.fd)).Nodup
  handle_lt : ∀ c ∈ s.clients, c.handle < s.nextHandle
  queued : ∀ r ∈ s.requests, r.client ∈ s.clients ∧ r.client.hasRegistered = true
  sent_lt : ∀ e ∈ s.sent, e.1 < s.nextHandle

namespace TableInv

variable {s : Sched}

theorem init : TableInv Sched.init :=
  ⟨List.nodup_nil, List.nodup_nil, nofun, nofun, nofun⟩

/-- Two records of the table with the same address are the same record. -/
theorem eq_of_handle (h : TableInv s) {c d : Client} (hc : c ∈ s.clients) (hd : d ∈ s.clients)
    (he : c.handle = d.handle) : c = d :=
  List.inj_on_of_nodup_map h.handles_nodup hc hd he

/-- Two records of the table with the same fd are the same record. -/
theorem eq_of_fd (h : TableInv s) {c d : Client} (hc : c ∈ s.clients) (hd : d ∈ s.clients)
    (he : c.fd = d.fd) : c = d :=
  List.inj_on_of_nodup_map h.fds_nodup hc hd he

theorem sendMessage (h : TableInv s) {c : Client} (hc : c.handle < s.nextHandle) (m : Message) :
    TableInv (sendMessage c m s) :=
  ⟨h.1, h.2, h.3, h.4, by
    simpa [Nvshare.sendMessage, or_imp, forall_and, hc] using h.sent_lt⟩

theorem removeReq (h : TableInv s) (c : Client) : TableInv (removeReq c s) :=
  ⟨h.1, h.2, h.3, fun r hr ↦
    h.queued r (List.mem_filter.mp (by simpa only [removeReq_requests] using hr)).1, h.5⟩

theorem deleteClient (h : TableInv s) (c : Client) : TableInv (deleteClient c s) where
  handles_nodup := by simpa using h.handles_nodup.sublist ((List.filter_sublist _).map _)
  fds_nodup := by simpa using h.fds_nodup.sublist ((List.filter_sublist _).map _)
  handle_lt d hd := h.handle_lt d (List.mem_filter.mp (by simpa only [deleteClient_clients] using hd)).1
  queued r hr := by
    simp only [deleteClient_requests, List.mem_filter, beq_iff_eq, Bool.not_eq_true',
      beq_eq_false_iff_ne] at hr
    obtain ⟨hc, hreg⟩ := h.queued r hr.1
    exact ⟨by simp [hc, hr.2], hreg⟩
  sent_lt := h.sent_lt

theorem insertReq (h : TableInv s) {c : Client} (hc : c ∈ s.clients)
    (hreg : c.hasRegistered = true) : TableInv (insertReq c s) := by
  unfold Nvshare.insertReq
  split
  · exact h
  · refine ⟨h.1, h.2, h.3, fun r hr ↦ ?_, h.5⟩
    rcases List.mem_append.mp hr with hr | hr
    · exact h.queued r hr
    · rw [List.mem_singleton.mp hr]; exact ⟨hc, hreg⟩

theorem grant (h : TableInv s) {c : Client} (hc : c.handle < s.nextHandle) :
    TableInv (grant c s) :=
  let h' := h.sendMessage hc (outMsg .lockOk)
  ⟨h'.1, h'.2, h'.3, h'.4, h'.5⟩

theorem tryScheduleLoop (ok : Nat → Bool) :
    ∀ (fuel : Nat) {s : Sched}, TableInv s → TableInv (tryScheduleLoop ok fuel s)
  | 0, _, h => h
  | fuel + 1, s, h => by
    unfold Nvshare.tryScheduleLoop
    split
    · exact h
    · rename_i r rest hrs
      have hr := h.queued r (by simp [hrs])
      split
      · exact h.grant (h.handle_lt _ hr.1)
      · exact tryScheduleLoop ok fuel (h.deleteClient _)

theorem trySchedule (h : TableInv s) (ok : Nat → Bool) : TableInv (trySchedule ok s) :=
  tryScheduleLoop ok _ h

/-- `register_client`'s table update keeps addresses and fds, and touches no queued record:
those are registered and `c` is not. -/
theorem setClientId (h : TableInv s) (newId : UInt64) {c : Client} (hc : c ∈ s.clients)
    (hreg : c.hasRegistered = false) : TableInv (setClientId newId c s) := by
  let f : Client → Client := fun d ↦ if d.handle = c.handle then { c with id := newId } else d
  have hfh : ∀ d ∈ s.clients, (f d).handle = d.handle := fun d _ ↦ by
    simp only [f]; split <;> simp [*]
  have hff : ∀ d ∈ s.clients, (f d).fd = d.fd := fun d hd ↦ by
    simp only [f]; split
    · rw [h.eq_of_handle hd hc ‹_›]
    · rfl
  have hmh : (s.clients.map f).map (·.handle) = s.clients.map (·.handle) := by
    rw [List.map_map]; exact List.map_congr_left hfh
  have hmf : (s.clients.map f).map (·.fd) = s.clients.map (·.fd) := by
    rw [List.map_map]; exact List.map_congr_left hff
  refine ⟨hmh ▸ h.1, hmf ▸ h.2, fun d hd ↦ ?_, fun r hr ↦ ?_, h.sent_lt⟩
  · obtain ⟨d', hd', rfl⟩ := List.mem_map.mp hd
    rw [hfh d' hd']; exact h.handle_lt d' hd'
  · obtain ⟨hrc, hrr⟩ := h.queued r hr
    have hne : r.client.handle ≠ c.handle := fun he ↦ by
      rw [h.eq_of_handle hrc hc he, hreg] at hrr; cases hrr
    exact ⟨List.mem_map.mpr ⟨r.client, hrc, by simp [f, hne]⟩, hrr⟩

theorem registerOrDelete (h : TableInv s) (ok : Nat → Bool) (newId : UInt64) {c : Client}
    (hc : c ∈ s.clients) : TableInv (registerOrDelete ok newId c s) := by
  rcases registerOrDelete_cases ok newId c s with ⟨-, he⟩ | ⟨hreg, -, he⟩ | ⟨hreg, -, he⟩ <;>
    rw [he]
  · exact h.deleteClient c
  · exact (h.setClientId newId hc hreg).sendMessage (h.handle_lt c hc) _
  · exact (h.setClientId newId hc hreg).deleteClient c

theorem bcastStatus (h : TableInv s) (ok : Nat → Bool) : TableInv (bcastStatus ok s) := by
  have hl : ∀ c ∈ s.clients, c.handle < s.nextHandle := h.handle_lt
  unfold Nvshare.bcastStatus
  generalize s.clients = l at hl
  induction l generalizing s with
  | nil => exact h
  | cons c l ih =>
    refine ih ?_ fun d hd ↦ ?_
    · unfold bcastOne
      split
      · exact h
      · split
        · exact h.sendMessage (hl c (.head _)) _
        · exact h.deleteClient c
    · unfold bcastOne
      split
      · exact hl d (.tail _ hd)
      · split <;> exact hl d (.tail _ hd)

theorem evict (h : TableInv s) (ok : Nat → Bool) (c : Client) : TableInv (evict ok c s) := by
  unfold Nvshare.evict; dsimp only; split
  exacts [(h.deleteClient c).trySchedule ok, h.deleteClient c]

theorem processMsg (h : TableInv s) (ok : Nat → Bool) (newId : UInt64) {c : Client}
    (hc : c ∈ s.clients) (m : Message) : TableInv (processMsg ok newId c m s) :=
  processMsg_of ok h (h.registerOrDelete ok newId hc)
    (fun _ _ ↦ TableInv.bcastStatus (s := { s with schedulerOn := true }) ⟨h.1, h.2, h.3, h.4, h.5⟩ ok)
    (fun _ _ ↦
      have h' := TableInv.bcastStatus (s := { s with schedulerOn := false })
        ⟨h.1, h.2, h.3, h.4, h.5⟩ ok
      ⟨h'.1, h'.2, h'.3, by simp, h'.5⟩)
    (fun _ ↦ ⟨h.1, h.2, h.3, h.4, h.5⟩)
    (fun _ hr _ ↦ h.insertReq hc hr) (fun _ hr _ _ ↦ (h.insertReq hc hr).trySchedule ok)
    (fun _ _ _ ↦ h.removeReq c) (fun _ _ _ _ ↦ (h.removeReq c).trySchedule ok)
    (fun _ ↦ h.deleteClient c)

theorem acceptClient (h : TableInv s) (fd : Nat) (hfd : ∀ d ∈ s.clients, d.fd ≠ fd) :
    TableInv (acceptClient fd true s) where
  handles_nodup := by
    simpa [Nvshare.acceptClient, List.nodup_append] using
      ⟨h.1, fun d hd he ↦ (h.handle_lt d hd).ne he⟩
  fds_nodup := by
    simpa [Nvshare.acceptClient, List.nodup_append] using ⟨h.2, fun d hd ↦ hfd d hd⟩
  handle_lt d hd := by
    simp only [Nvshare.acceptClient, if_true, List.mem_append, List.mem_singleton] at hd
    rcases hd with hd | rfl
    · exact Nat.lt_succ_of_lt (h.handle_lt d hd)
    · exact Nat.lt_succ_self _
  queued r hr := by
    obtain ⟨hc, hreg⟩ := h.queued r hr
    exact ⟨List.mem_append_left _ hc, hreg⟩
  sent_lt e he := Nat.lt_succ_of_lt (h.sent_lt e he)

theorem handleEvent (h : TableInv s) {ch : Choice} {e : Event} {s' : Sched}
    (hch : s.canChoose ch = true) (he : handleEvent ch e s = some s') : TableInv s' := by
  obtain rfl | ⟨fd, added, -, hacc, rfl⟩ | ⟨c, hc, rfl | ⟨-, m, -, -, rfl⟩⟩ :=
    handleEvent_cases he
  · exact h
  · cases added
    · exact ⟨h.1, h.2, fun d hd ↦ Nat.lt_succ_of_lt (h.handle_lt d hd), h.4,
        fun e he ↦ Nat.lt_succ_of_lt (h.sent_lt e he)⟩
    · simp only [Sched.canChoose, hacc, Bool.and_eq_true, List.all_eq_true, bne_iff_ne,
        ne_eq] at hch
      exact h.acceptClient fd hch.2
  · exact h.evict _ _
  · exact h.processMsg _ _ hc _

theorem timerRestart (h : TableInv s) : TableInv (timerRestart s) := ⟨h.1, h.2, h.3, h.4, h.5⟩

theorem setDropLockSent (h : TableInv s) (b : Bool) : TableInv (setDropLockSent b s) :=
  ⟨h.1, h.2, h.3, h.4, h.5⟩

theorem timerWake (h : TableInv s) {ok : Nat → Bool} {timedOut : Bool} {s' : Sched}
    (hw : timerWake ok timedOut s = some s') : TableInv s' := by
  rcases timerWake_cases hw with rfl | rfl | rfl | ⟨r, rest, -, -, -, -, hrs, rfl | rfl⟩
  · exact h
  · exact h.timerRestart
  · exact (h.setDropLockSent _).timerRestart
  · exact ((h.sendMessage (h.handle_lt _ (h.queued r (by simp [hrs])).1) _).setDropLockSent
      _).timerRestart
  · exact (((h.deleteClient r.client).trySchedule ok).setDropLockSent _).timerRestart

theorem step (h : TableInv s) {l : Label} {s' : Sched} (hs : step l s = some s') :
    TableInv s' := by
  obtain ⟨_, rfl⟩ | ⟨_, _, _, _, -, -, hch, he, rfl⟩ | rfl | ⟨_, _, hw⟩ | ⟨_, rfl⟩ :=
    step_cases hs
  · exact ⟨h.1, h.2, h.3, h.4, h.5⟩
  · have h₁ := h.handleEvent hch he
    exact ⟨h₁.1, h₁.2, h₁.3, h₁.4, h₁.5⟩
  · exact ⟨h.1, h.2, h.3, h.4, h.5⟩
  · exact h.timerWake hw
  · exact ⟨h.1, h.2, h.3, h.4, h.5⟩

end TableInv

theorem Reachable.tableInv {s : Sched} (h : Reachable s) : TableInv s :=
  h.invariant TableInv.init fun _ _ _ hi hs ↦ hi.step hs

end Nvshare
