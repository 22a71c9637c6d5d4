import Nvshare.Scheduler.Queue
import Nvshare.Scheduler.Table

/-!
# What each client was last told about the status

`register_client` answers a `REGISTER` with the current status, and every change of
`scheduler_on` is followed, in the same critical section, by `bcast_status`, which tells every
registered record the new status or evicts it. So the last SCHED_ON or SCHED_OFF frame written to
a registered record of the table always carries the current `scheduler_on` (`StatusInv`).

`register_client` marks the record registered before it writes the answer; when the write fails
the record is registered but untold until `process_msg` deletes it, so the invariant holds
between handlers, not inside them.
-/

namespace Nvshare

/-- The status carried by the last SCHED_ON or SCHED_OFF frame of a list. -/
def lastStatus : List Message → Option Bool
  | [] => none
  | m :: l => (lastStatus l).or m.type.status

@[simp] theorem lastStatus_nil : lastStatus [] = none := rfl

theorem lastStatus_append (l₁ l₂ : List Message) :
    lastStatus (l₁ ++ l₂) = (lastStatus l₂).or (lastStatus l₁) := by
  induction l₁ with
  | nil => simp
  | cons m l ih => simp [lastStatus, ih, Option.or_assoc]

@[simp] theorem lastStatus_singleton (m : Message) : lastStatus [m] = m.type.status := rfl

/-- Every registered record of the table was last told the current status. -/
def StatusInv (s : Sched) : Prop :=
  ∀ c ∈ s.clients, c.hasRegistered = true → lastStatus (inbox c.handle s.sent) = some s.schedulerOn

/-- A frame that carries no status changes no record's last status. -/
theorem lastStatus_sendMessage {c : Client} {m : Message} (hm : m.type.status = none)
    (s : Sched) (h : Nat) :
    lastStatus (inbox h (sendMessage c m s).sent) = lastStatus (inbox h s.sent) := by
  simp only [sendMessage, inbox_append, inbox_singleton, lastStatus_append]
  split <;> simp [hm]

section Broadcast

variable (ok : Nat → Bool)

/-- One iteration of the broadcast: each registered record of the table has been told `b` or is
still to be visited. -/
theorem bcastOne_told {b : Bool} {t : Sched} (hon : t.schedulerOn = b) {d : Client}
    {l : List Client} (ht : ∀ c ∈ t.clients, c.hasRegistered = true →
      lastStatus (inbox c.handle t.sent) = some b ∨ c ∈ d :: l) :
    ∀ c ∈ (bcastOne ok t d).clients, c.hasRegistered = true →
      lastStatus (inbox c.handle (bcastOne ok t d).sent) = some b ∨ c ∈ l := by
  intro c hc hreg
  rcases bcastOne_cases ok t d with ⟨hd, he⟩ | ⟨-, -, he⟩ | ⟨-, -, he⟩ <;> rw [he] at hc ⊢
  · rcases ht c hc hreg with h | h
    · exact .inl h
    · rcases List.mem_cons.mp h with rfl | h
      · simp [hd] at hreg
      · exact .inr h
  · simp only [sendMessage, inbox_append, inbox_singleton, lastStatus_append]
    by_cases hcd : d.handle = c.handle
    · simp [hcd, outMsg, hon]
    · rcases ht c hc hreg with h | h
      · exact .inl (by simpa [hcd] using h)
      · rcases List.mem_cons.mp h with rfl | h
        · exact absurd rfl hcd
        · exact .inr h
  · have hc' := List.mem_filter.mp (by simpa only [deleteClient_clients] using hc)
    rcases ht c hc'.1 hreg with h | h
    · exact .inl h
    · rcases List.mem_cons.mp h with rfl | h
      · simp at hc'
      · exact .inr h

/-- **The broadcast reaches every registered record that stays.** -/
theorem bcastStatus_told (s : Sched) : StatusInv (bcastStatus ok s) := by
  intro c hc hreg
  rw [bcastStatus_schedulerOn]
  suffices key : ∀ (l : List Client) (t : Sched), t.schedulerOn = s.schedulerOn →
      (∀ c ∈ t.clients, c.hasRegistered = true →
        lastStatus (inbox c.handle t.sent) = some s.schedulerOn ∨ c ∈ l) →
      ∀ c ∈ (l.foldl (bcastOne ok) t).clients, c.hasRegistered = true →
        lastStatus (inbox c.handle (l.foldl (bcastOne ok) t).sent) = some s.schedulerOn from
    key s.clients s rfl (fun c hc _ ↦ .inr hc) c hc hreg
  intro l
  induction l with
  | nil => intro t _ ht c hc hreg; simpa using ht c hc hreg
  | cons d l ih =>
    intro t hon ht
    refine ih _ ?_ (bcastOne_told ok hon ht)
    rcases bcastOne_cases ok t d with ⟨-, he⟩ | ⟨-, -, he⟩ | ⟨-, -, he⟩ <;> rw [he] <;> exact hon

@[simp] theorem bcastStatus_clients_sublist (s : Sched) :
    (bcastStatus ok s).clients.Sublist s.clients := by
  unfold bcastStatus
  suffices ∀ (l : List Client) (t : Sched), (l.foldl (bcastOne ok) t).clients.Sublist t.clients from
    this _ _
  intro l
  induction l with
  | nil => intro t; exact .refl _
  | cons d l ih =>
    intro t
    refine (ih _).trans ?_
    unfold bcastOne; split
    · exact .refl _
    · split
      · exact .refl _
      · simp

end Broadcast

namespace StatusInv

variable {s : Sched}

theorem init : StatusInv Sched.init := nofun

theorem sendMessage (h : StatusInv s) (c : Client) {m : Message} (hm : m.type.status = none) :
    StatusInv (sendMessage c m s) := fun d hd hreg ↦ by
  rw [lastStatus_sendMessage hm]; exact h d hd hreg

theorem deleteClient (h : StatusInv s) (c : Client) : StatusInv (deleteClient c s) :=
  fun d hd hreg ↦ h d (List.mem_filter.mp (by simpa only [deleteClient_clients] using hd)).1 hreg

theorem grant (h : StatusInv s) (c : Client) : StatusInv (grant c s) :=
  h.sendMessage c (m := outMsg .lockOk) rfl

theorem tryScheduleLoop (ok : Nat → Bool) :
    ∀ (fuel : Nat) {s : Sched}, StatusInv s → StatusInv (tryScheduleLoop ok fuel s)
  | 0, _, h => h
  | fuel + 1, s, h => by
    unfold Nvshare.tryScheduleLoop
    split
    · exact h
    · split
      · exact h.grant _
      · exact tryScheduleLoop ok fuel (h.deleteClient _)

theorem trySchedule (h : StatusInv s) (ok : Nat → Bool) : StatusInv (trySchedule ok s) :=
  tryScheduleLoop ok _ h

theorem evict (h : StatusInv s) (ok : Nat → Bool) (c : Client) : StatusInv (evict ok c s) := by
  unfold Nvshare.evict; dsimp only; split
  exacts [(h.deleteClient c).trySchedule ok, h.deleteClient c]

/-- A `REGISTER` leaves every record as told as before: the one it registers is answered with
the current status, or deleted. -/
theorem registerOrDelete (h : StatusInv s) (ok : Nat → Bool) (newId : UInt64) (c : Client) :
    StatusInv (registerOrDelete ok newId c s) := by
  rcases registerOrDelete_cases ok newId c s with ⟨-, he⟩ | ⟨-, -, he⟩ | ⟨-, -, he⟩ <;> rw [he]
  · exact h.deleteClient c
  · intro d hd hdreg
    obtain ⟨d', hd', rfl⟩ := List.mem_map.mp hd
    by_cases hdc : d'.handle = c.handle
    · simp [hdc, Nvshare.sendMessage, lastStatus_append]
    · simp only [hdc, if_false] at hdreg ⊢
      simpa [Nvshare.sendMessage, lastStatus_append, Ne.symm hdc] using h d' hd' hdreg
  · intro d hd hdreg
    have hd := List.mem_filter.mp (by simpa only [deleteClient_clients] using hd)
    obtain ⟨d', hd', rfl⟩ := List.mem_map.mp hd.1
    by_cases hdc : d'.handle = c.handle
    · simp [hdc] at hd
    · simp only [hdc, if_false] at hdreg ⊢
      simpa using h d' hd' hdreg

theorem processMsg (h : StatusInv s) (ok : Nat → Bool) (newId : UInt64) (c : Client)
    (m : Message) : StatusInv (processMsg ok newId c m s) :=
  have hins : StatusInv (insertReq c s) := by unfold insertReq; split <;> exact h
  processMsg_of ok h (h.registerOrDelete ok newId c) (fun _ _ ↦ bcastStatus_told ok _)
    (fun _ _ ↦ bcastStatus_told ok _) (fun _ ↦ h) (fun _ _ _ ↦ hins)
    (fun _ _ _ _ ↦ hins.trySchedule ok) (fun _ _ _ ↦ h)
    (fun _ _ _ _ ↦ StatusInv.trySchedule (s := removeReq c s) h ok) (fun _ ↦ h.deleteClient c)

theorem acceptClient (h : StatusInv s) (fd : Nat) (added : Bool) :
    StatusInv (acceptClient fd added s) := by
  unfold Nvshare.acceptClient
  split
  · intro d hd hreg
    rcases List.mem_append.mp hd with hd | hd
    · exact h d hd hreg
    · rw [List.mem_singleton.mp hd] at hreg; simp [Client.hasRegistered] at hreg
  · exact h

theorem handleEvent (h : StatusInv s) {ch : Choice} {e : Event} {s' : Sched}
    (he : handleEvent ch e s = some s') : StatusInv s' := by
  obtain rfl | ⟨fd, added, -, -, rfl⟩ | ⟨c, -, rfl | ⟨-, m, -, -, rfl⟩⟩ := handleEvent_cases he
  · exact h
  · exact h.acceptClient fd added
  · exact h.evict _ _
  · exact h.processMsg _ _ _ _

theorem timerRestart (h : StatusInv s) : StatusInv (timerRestart s) := h

theorem setDropLockSent (h : StatusInv s) (b : Bool) : StatusInv (setDropLockSent b s) := h

theorem timerWake (h : StatusInv s) {ok : Nat → Bool} {timedOut : Bool} {s' : Sched}
    (hw : timerWake ok timedOut s = some s') : StatusInv s' := by
  rcases timerWake_cases hw with rfl | rfl | rfl | ⟨r, rest, -, -, -, -, -, rfl | rfl⟩
  · exact h
  · exact h.timerRestart
  · exact (h.setDropLockSent _).timerRestart
  · exact ((h.sendMessage _ (m := dropLockMsg) rfl).setDropLockSent _).timerRestart
  · exact (((h.deleteClient _).trySchedule ok).setDropLockSent _).timerRestart

theorem step (h : StatusInv s) {l : Label} {s' : Sched} (hs : step l s = some s') :
    StatusInv s' := by
  obtain ⟨_, rfl⟩ | ⟨_, _, _, _, -, -, -, he, rfl⟩ | rfl | ⟨_, _, hw⟩ | ⟨_, rfl⟩ :=
    step_cases hs
  · exact h
  · have h₁ := h.handleEvent he
    exact h₁
  · exact h
  · exact h.timerWake hw
  · exact h

end StatusInv

theorem Reachable.statusInv {s : Sched} (h : Reachable s) : StatusInv s :=
  h.invariant StatusInv.init fun _ _ _ hi hs ↦ hi.step hs

/-! ## DROP_LOCK comes after SCHED_ON

The timer writes DROP_LOCK only to the holder and only while the lock is held, so while
scheduling is on; the holder is a registered record of the table, so by `StatusInv` the last
status frame it was sent is SCHED_ON. The main loop writes no DROP_LOCK. -/

/-- Every DROP_LOCK of a channel comes after a SCHED_ON that no SCHED_OFF follows. -/
def DropsAfterOn (l : List Message) : Prop :=
  ∀ i m, l[i]? = some m → m.type = .dropLock → lastStatus (l.take i) = some true

namespace DropsAfterOn

variable {l : List Message}

theorem append (hl : DropsAfterOn l) {t : List Message} (ht : ∀ m ∈ t, m.type ≠ .dropLock) :
    DropsAfterOn (l ++ t) := by
  intro i m hi hm
  by_cases hlt : i < l.length
  · rw [List.getElem?_append_left hlt] at hi
    rw [List.take_append_of_le_length hlt.le]
    exact hl i m hi hm
  · rw [List.getElem?_append_right (Nat.le_of_not_lt hlt)] at hi
    exact absurd hm (ht m (List.getElem?_mem hi))

theorem append_dropLock (hl : DropsAfterOn l) (hon : lastStatus l = some true) :
    DropsAfterOn (l ++ [dropLockMsg]) := by
  intro i m hi hm
  by_cases hlt : i < l.length
  · rw [List.getElem?_append_left hlt] at hi
    rw [List.take_append_of_le_length hlt.le]
    exact hl i m hi hm
  · rw [List.getElem?_append_right (Nat.le_of_not_lt hlt)] at hi
    have hi' : i = l.length := by
      rcases hj : i - l.length with _ | j
      · omega
      · simp [hj] at hi
    rw [hi', List.take_left]
    exact hon

end DropsAfterOn

/-- Every DROP_LOCK written to a record comes after a SCHED_ON that no SCHED_OFF follows. -/
def DropInv (s : Sched) : Prop := ∀ h, DropsAfterOn (inbox h s.sent)

theorem DropInv.step {s s' : Sched} {l : Label} (hr : Reachable s) (hd : DropInv s)
    (hs : step l s = some s') : DropInv s' := by
  have hframes : ∀ {t : List (Nat × Message)}, (∀ x ∈ t, x.2.type ≠ .dropLock) →
      s'.sent = s.sent ++ t → DropInv s' := fun ht he h ↦ by
    rw [he, inbox_append]
    exact (hd h).append fun m hm ↦ ht _ (mem_inbox.mp hm)
  obtain ⟨_, rfl⟩ | ⟨ch, _, _, _, -, -, -, he, rfl⟩ | rfl | ⟨_, _, hw⟩ | ⟨_, rfl⟩ := step_cases hs
  · exact hd
  · obtain ⟨t, he', ht⟩ := handleEvent_writes he
    refine hframes (fun x hx ↦ ?_) he'
    rcases ht x hx with h₁ | h₁ <;> rw [h₁]
    · decide
    · generalize Sched.schedulerOn _ = b; cases b <;> decide
  · exact hd
  · rcases timerWake_writes hw with ⟨t, he', ht⟩ | ⟨hl, r, rest, hrs, he'⟩
    · exact hframes (fun x hx ↦ by rw [ht x hx]; decide) he'
    · have hq := hr.tableInv.queued r (by simp [hrs])
      have hon := hr.queueInv.on_of_queued (by simp [hrs])
      intro h
      rw [he', inbox_append, inbox_singleton]
      split
      · next hh =>
        subst hh
        exact (hd _).append_dropLock (hon ▸ hr.statusInv _ hq.1 hq.2)
      · simpa using hd h
  · exact hd

theorem Reachable.dropInv {s : Sched} (h : Reachable s) : DropInv s := by
  induction h with
  | init => intro _ _ _ hi; simp [Sched.init] at hi
  | step _ hr hs ih => exact ih.step hr hs

end Nvshare
