import Nvshare.Scheduler.Record
import Nvshare.System.Status

/-!
# No lost lock request

An application thread that finds neither the lock nor a pending request writes REQ_LOCK, sets
`need_lock` and waits in `continue_with_lock`. The wait ends when `client_fn` handles a LOCK_OK or
a SCHED_OFF. So a waiting client is fine as long as its request is on its way, or queued, or a
LOCK_OK or a SCHED_OFF is on its way back (`Pending`). Each way the scheduler drops a request is
covered by one of these:

* it drops REQ_LOCK while off, and SCHED_OFF empties the queue: then the client, which believes
  scheduling on, has the SCHED_OFF still to read (`off_in_flight`, from `StatusInv` and
  `ReadInv`);
* the duplicate filter of `insert_req` leaves a request of the same record queued;
* LOCK_RELEASED deletes the record's requests; but a client writes LOCK_RELEASED only while it
  owns the lock, so while it waits every LOCK_RELEASED it wrote is followed in its channel by the
  REQ_LOCK it wrote after (`lastAsk`).

The conditions need the client to have read its initial status: until then `scheduler_on` and
`own_lock` are both `0`, while the scheduler already counts the record registered
(`registering_client_not_owner`).
-/

namespace Nvshare

/-! ## Requests and releases in a channel -/

/-- A REQ_LOCK asks for the lock (`true`), a LOCK_RELEASED gives it back (`false`). -/
def MessageType.ask : MessageType → Option Bool
  | .reqLock => some true
  | .lockReleased => some false
  | _ => none

/-- What the last REQ_LOCK or LOCK_RELEASED of a list of frames does. -/
def lastAsk : List Message → Option Bool
  | [] => none
  | m :: l => (lastAsk l).or m.type.ask

theorem lastAsk_append (l₁ l₂ : List Message) :
    lastAsk (l₁ ++ l₂) = (lastAsk l₂).or (lastAsk l₁) := by
  induction l₁ with
  | nil => simp [lastAsk]
  | cons m l ih => simp [lastAsk, ih, Option.or_assoc]

theorem lastAsk_tail {m : Message} {l : List Message} (h : lastAsk (m :: l) ≠ some false) :
    lastAsk l ≠ some false :=
  fun hl ↦ h (by simp [lastAsk, hl])

theorem exists_reqLock_of_lastAsk {l : List Message} (h : lastAsk l = some true) :
    ∃ m ∈ l, m.type = .reqLock := by
  induction l with
  | nil => cases h
  | cons m l ih =>
    simp only [lastAsk] at h
    cases hl : lastAsk l with
    | some b =>
      rw [hl] at h
      obtain ⟨m', hm', he⟩ := ih (by simpa using hl.trans h)
      exact ⟨m', .tail _ hm', he⟩
    | none =>
      rw [hl, Option.none_or] at h
      refine ⟨m, .head _, ?_⟩
      cases ht : m.type <;> simp [ht, MessageType.ask] at h ⊢

/-- A LOCK_RELEASED at the head of a channel whose last ask is not a release has a REQ_LOCK
behind it. -/
theorem exists_reqLock_of_release {m : Message} {l : List Message} (hm : m.type = .lockReleased)
    (h : lastAsk (m :: l) ≠ some false) : ∃ m' ∈ l, m'.type = .reqLock := by
  cases hl : lastAsk l with
  | none => simp [lastAsk, hl, hm, MessageType.ask] at h
  | some b =>
    cases b
    · simp [lastAsk, hl] at h
    · exact exists_reqLock_of_lastAsk hl

theorem exists_schedOff_of_lastStatus {l : List Message} (h : lastStatus l = some false) :
    ∃ m ∈ l, m.type = .schedOff := by
  induction l with
  | nil => cases h
  | cons m l ih =>
    simp only [lastStatus] at h
    cases hl : lastStatus l with
    | some b =>
      rw [hl] at h
      obtain ⟨m', hm', he⟩ := ih (by simpa using hl.trans h)
      exact ⟨m', .tail _ hm', he⟩
    | none =>
      rw [hl, Option.none_or] at h
      refine ⟨m, .head _, ?_⟩
      cases ht : m.type <;> simp [ht, MessageType.status] at h ⊢

/-! ## The client's flags -/

/-- The flags `client.c` keeps consistent: once the initial status is in, `scheduler_on = 0`
means `own_lock = 1`; and `own_lock = 1` means `need_lock = 0`. -/
structure Proc.Flags (p : Proc) : Prop where
  off_owns : p.phase = .running → p.schedulerOn = false → p.ownLock = true
  own_not_need : p.ownLock = true → p.needLock = false

namespace Proc.Flags

variable {p : Proc}

theorem init (b : Bool) : (Proc.init b).Flags := ⟨fun h ↦ (by cases h), fun h ↦ by cases h⟩

theorem initialStatus (hf : p.Flags) (m : Message) : (p.initialStatus m).Flags := by
  unfold Proc.initialStatus
  split
  · exact ⟨fun _ h ↦ by simp_all, fun _ ↦ rfl⟩
  · exact ⟨fun h ↦ (by cases h), hf.own_not_need⟩

/-- Handling a frame keeps the flags; a DROP_LOCK comes only while the client believes
scheduling on. -/
theorem handleMsg (hf : p.Flags) (m : Message) (hdrop : m.type = .dropLock → p.schedulerOn = true) :
    (p.handleMsg m).1.Flags := by
  unfold Proc.handleMsg
  split
  · exact ⟨fun _ _ ↦ rfl, fun _ ↦ rfl⟩
  · split
    · exact ⟨fun _ h ↦ absurd (hdrop ‹_›) (by simp_all), fun h ↦ by cases h⟩
    · exact hf
  · split
    · exact ⟨fun _ h ↦ (by cases h), fun _ ↦ rfl⟩
    · exact hf
  · split
    · exact ⟨fun _ _ ↦ rfl, fun _ ↦ rfl⟩
    · exact ⟨hf.off_owns, hf.own_not_need⟩
  · exact hf

theorem continueWithLock (hf : p.Flags) (t : Nat) : (p.continueWithLock t).1.Flags := by
  unfold Proc.continueWithLock
  split
  · exact ⟨hf.off_owns, hf.own_not_need⟩
  · split
    · exact ⟨hf.off_owns, fun h ↦ absurd h ‹_›⟩
    · exact ⟨hf.off_owns, hf.own_not_need⟩

theorem releaseEarlyFn (hf : p.Flags) (timedOut : Bool) (probe : Probe) :
    (p.releaseEarlyFn timedOut probe).1.Flags := by
  rcases releaseEarlyFn_cases p timedOut probe with h | h | h | ⟨hon, -, h⟩ <;> rw [h]
  · exact hf
  · exact ⟨hf.off_owns, hf.own_not_need⟩
  · exact ⟨hf.off_owns, hf.own_not_need⟩
  · exact ⟨fun _ h ↦ absurd hon (by simpa using h), nofun⟩

end Proc.Flags

section Waiting

variable {p : Proc}

/-- The initial status clears `need_lock`, or the process exits. -/
theorem initialStatus_needLock {m : Message} (h : (p.initialStatus m).needLock = true) :
    p.needLock = true ∧ (p.initialStatus m).phase = .exited := by
  unfold Proc.initialStatus at h ⊢
  split at h <;> simp_all

/-- `client_fn` never sets `need_lock`, and writes only while it owns the lock. -/
theorem handleMsg_need (hf : p.Flags) (m : Message) (h : (p.handleMsg m).1.needLock = true) :
    p.needLock = true ∧ (p.handleMsg m).2 = [] := by
  have := hf.own_not_need
  unfold Proc.handleMsg at h ⊢
  split at h <;> (try split at h) <;> simp_all

/-- A frame that leaves the client waiting for the lock is neither a LOCK_OK nor a SCHED_OFF,
and `client_fn` was waiting before it and wrote nothing. -/
theorem handleMsg_waiting (hf : p.Flags) (hrun : p.phase = .running) (m : Message)
    (hown : (p.handleMsg m).1.ownLock = false) (hneed : (p.handleMsg m).1.needLock = true) :
    p.ownLock = false ∧ p.needLock = true ∧ (p.handleMsg m).2 = [] ∧
      m.type ≠ .lockOk ∧ m.type ≠ .schedOff := by
  have h₁ := hf.own_not_need
  have h₂ := hf.off_owns hrun
  unfold Proc.handleMsg at hown hneed ⊢
  split at hown <;> (try split at hown) <;> simp_all

/-- A thread that leaves the client waiting either found a request pending, or wrote one. -/
theorem continueWithLock_need (t : Nat) (h : (p.continueWithLock t).1.needLock = true) :
    (p.needLock = true ∧ (p.continueWithLock t).2 = []) ∨
    (p.continueWithLock t).2 = [⟨.reqLock, p.clientId, []⟩] := by
  unfold Proc.continueWithLock at h ⊢
  split at h <;> (try split at h) <;> simp_all

@[simp] theorem releaseEarlyFn_needLock (timedOut : Bool) (probe : Probe) :
    (p.releaseEarlyFn timedOut probe).1.needLock = p.needLock := by
  rcases releaseEarlyFn_cases p timedOut probe with h | h | h | ⟨-, -, h⟩ <;> rw [h]

/-- The early releaser of a waiting client has no lock to give back. -/
theorem releaseEarlyFn_waiting (hf : p.Flags) (hneed : p.needLock = true) (timedOut : Bool)
    (probe : Probe) :
    (p.releaseEarlyFn timedOut probe).1.ownLock = p.ownLock ∧
      (p.releaseEarlyFn timedOut probe).2 = [] := by
  rcases releaseEarlyFn_cases p timedOut probe with h | h | h | ⟨-, hown, -⟩ <;>
    (try rw [h]) <;> (try exact ⟨rfl, rfl⟩)
  rw [hf.own_not_need hown] at hneed; cases hneed

end Waiting

/-! ## Waiting clients in the composed system -/

/-- The request of the waiting client at address `h` is on its way, or queued, or a LOCK_OK or a
SCHED_OFF is on its way back. -/
def Pending (S : Sys) (h : Nat) (p : Proc) : Prop :=
  (∃ m ∈ S.up h, m.type = .reqLock) ∨ S.sched.Queued h ∨
  ∃ m ∈ (S.down h).drop p.consumed, m.type = .lockOk ∨ m.type = .schedOff

theorem mem_drop_of_grows {l₁ l₂ : List Message} (hp : l₁.IsPrefix l₂) {k : Nat} {m : Message}
    (hm : m ∈ l₁.drop k) : m ∈ l₂.drop k := by
  obtain ⟨t, rfl⟩ := hp
  rw [List.drop_append_eq_append_drop]
  exact List.mem_append_left _ hm

/-- **SCHED_OFF in flight.** With scheduling off, a client of the table in its loop that still
believes it on has a SCHED_OFF to read. -/
theorem off_in_flight {kind : Nat → Kind} {S : Sys} (hS : SysReachable kind S) {h : Nat}
    {p : Proc} (hp : S.peers h = .client p) (hrun : p.phase = .running)
    (hon : p.schedulerOn = true) (hoff : S.sched.schedulerOn = false) (hrec : S.sched.HasRecord h) :
    ∃ m ∈ (S.down h).drop p.consumed, m.type = .schedOff := by
  obtain ⟨c, hc, rfl⟩ := hrec
  have htold := hS.readInv.told _ _ hp hrun
  rw [hon] at htold
  have hreg : c.hasRegistered = true := by
    cases hr : c.hasRegistered
    · have := hS.sched.sentInv.unregistered c hc hr
      simp [Sys.down, this] at htold
    · rfl
  have hlast := hS.sched.statusInv c hc hreg
  rw [hoff] at hlast
  change lastStatus (S.down c.handle) = some false at hlast
  rw [← List.take_append_drop p.consumed (S.down c.handle), lastStatus_append, htold] at hlast
  cases hd : lastStatus ((S.down c.handle).drop p.consumed) with
  | none => simp [hd] at hlast
  | some b =>
    rw [hd] at hlast
    cases b
    · exact exists_schedOff_of_lastStatus hd
    · cases hlast

/-- The invariant behind "no request is lost" in the composed system: every client's flags hold;
a waiting client's last ask is not a release; and a waiting client of the table is `Pending`, its
request in flight, queued, or answered by a LOCK_OK or SCHED_OFF in flight. -/
structure ReqInv (S : Sys) : Prop where
  flags : ∀ h p, S.peers h = .client p → p.Flags
  asked : ∀ h p, S.peers h = .client p → p.needLock = true → lastAsk (S.up h) ≠ some false
  pending : ∀ h p, S.peers h = .client p → p.phase = .running → p.ownLock = false →
    p.needLock = true → S.sched.HasRecord h → Pending S h p

namespace ReqInv

variable {kind : Nat → Kind} {S : Sys}

theorem init : ReqInv Sys.init :=
  ⟨fun _ _ hp ↦ (by cases hp), fun _ _ hp ↦ (by cases hp), fun _ _ hp ↦ (by cases hp)⟩

/-- A scheduler move: peers and their flags stay, a read only shortens a channel, and the
waiting clients' requests are carried by `step_record`. -/
theorem schedStep (hS : SysReachable kind S) (hi : ReqInv S) {l : Label} {S' : Sys}
    (hst : S.schedStep kind l = some S') : ReqInv S' := by
  have hs := (schedStep_cases hst).1
  refine ⟨fun h p hp ↦ ?_, fun h p hp hneed ↦ ?_, fun h p hp hrun hown hneed hrec ↦ ?_⟩
  · rcases schedStep_peers hst hp with hp | ⟨b, rfl⟩
    exacts [hi.flags h p hp, .init b]
  · rcases schedStep_at hst h with ⟨-, hpe, ⟨m, -, hu⟩ | ⟨-, hu⟩⟩ | ⟨-, -, hpe, -⟩
    · exact lastAsk_tail (hu ▸ hi.asked h p (hpe ▸ hp) hneed)
    · exact hu ▸ hi.asked h p (hpe ▸ hp) hneed
    · obtain ⟨b, rfl⟩ := Kind.start_client (hpe ▸ hp); cases hneed
  rcases schedStep_at hst h with ⟨hnew, hpe, hu⟩ | ⟨-, -, hpe, -⟩
  swap
  · obtain ⟨b, rfl⟩ := Kind.start_client (hpe ▸ hp); cases hrun
  rw [hpe] at hp
  have hon : p.schedulerOn = true := by
    cases h' : p.schedulerOn
    · rw [(hi.flags h p hp).off_owns hrun h'] at hown; cases hown
    · rfl
  cases hoff : S'.sched.schedulerOn
  · exact .inr (.inr ((off_in_flight (hS.step (.sched l) hst) (hpe ▸ hp) hrun hon hoff hrec).imp
      fun _ ⟨hm, ht⟩ ↦ ⟨hm, .inr ht⟩))
  have hdown : (S.down h).IsPrefix (S'.down h) := inbox_grows (step_sent_grows hs) h
  rcases step_record hS.sched hs hrec with ⟨q, -⟩ | ⟨rfl, hacc, -⟩ | ⟨-, hoff'⟩ |
      ⟨m, hread, hrel, -⟩
  · rcases hi.pending h p hp hrun hown hneed (q.hasRecord hrec) with ⟨m, hm, hreq⟩ | hq |
        ⟨m, hm, hlk⟩
    · rcases hu with ⟨m', hread, hu⟩ | ⟨-, hu⟩
      · rw [hu] at hm
        rcases List.mem_cons.mp hm with rfl | hm
        · exact .inr (.inl (step_reqLock_queued hS.sched hs hread hreq hoff hrec))
        · exact .inl ⟨m, hm, hreq⟩
      · exact .inl ⟨m, hu ▸ hm, hreq⟩
    · exact .inr (.inl (q.queued hrec hq))
    · exact .inr (.inr ⟨m, mem_drop_of_grows hdown hm, hlk⟩)
  · exact absurd ⟨rfl, hacc⟩ hnew
  · rw [hoff] at hoff'; cases hoff'
  · have hu' := (schedStep_cases hst).2
    rcases hu with ⟨m', hread', hu⟩ | ⟨hno, -⟩
    · rw [hread, Option.some.injEq, Prod.mk.injEq] at hread'
      obtain ⟨m'', hm'', hreq⟩ := exists_reqLock_of_release hrel
        (hread'.2 ▸ hu ▸ hi.asked h p hp hneed)
      exact .inl ⟨m'', hm'', hreq⟩
    · exact absurd hread (hno m)

/-- Replacing one client by one that keeps the invariant on its own channel. -/
theorem setProc (hi : ReqInv S) {hd : Nat} {p' : Proc} (out : List Message) (hf : p'.Flags)
    (ha : p'.needLock = true → lastAsk (S.up hd ++ out) ≠ some false)
    (hpend : p'.phase = .running → p'.ownLock = false → p'.needLock = true →
      S.sched.HasRecord hd → Pending (S.setProc hd p' out) hd p') :
    ReqInv (S.setProc hd p' out) := by
  refine ⟨fun h p hp ↦ ?_, fun h p hp ↦ ?_, fun h p hp ↦ ?_⟩ <;> by_cases hh : h = hd
  · subst hh; simp only [setProc_peers_self, Peer.client.injEq] at hp; exact hp ▸ hf
  · exact hi.flags h p (by rwa [setProc_peers_ne S hh] at hp)
  · subst hh; simp only [setProc_peers_self, Peer.client.injEq] at hp; subst hp
    simpa [Sys.setProc] using ha
  · rw [setProc_peers_ne S hh] at hp
    simpa [Sys.setProc, hh] using hi.asked h p hp
  · subst hh; simp only [setProc_peers_self, Peer.client.injEq] at hp; subst hp; exact hpend
  · rw [setProc_peers_ne S hh] at hp
    intro hrun hown hneed hrec
    simpa [Pending, Sys.setProc, Sys.down, hh] using hi.pending h p hp hrun hown hneed hrec

/-- A waiting client whose move changed nothing of its wait and wrote nothing stays pending. -/
theorem pending_setProc (hi : ReqInv S) {hd : Nat} {p p' : Proc} (hp : S.peers hd = .client p)
    (hrun : p.phase = .running) (hown : p.ownLock = false) (hneed : p.needLock = true)
    (hc : p'.consumed = p.consumed) (out : List Message) (hrec : S.sched.HasRecord hd) :
    Pending (S.setProc hd p' out) hd p' := by
  rcases hi.pending hd p hp hrun hown hneed hrec with ⟨m, hm, hreq⟩ | hq | hlk
  · exact .inl ⟨m, by simp [Sys.setProc, hm], hreq⟩
  · exact .inr (.inl hq)
  · exact .inr (.inr (by simpa [hc] using hlk))

/-- `client_fn` handles a frame in its loop. A frame that leaves the client waiting is neither
a LOCK_OK nor a SCHED_OFF, so the one it read was not what kept it pending. -/
theorem handleMsg (hS : SysReachable kind S) (hi : ReqInv S) {hd : Nat} {p : Proc}
    (hp : S.peers hd = .client p) (hph : p.phase = .running) {m : Message}
    (hm : (S.down hd)[p.consumed]? = some m) :
    ReqInv (S.setProc hd ({ p with consumed := p.consumed + 1 }.handleMsg m).1
      ({ p with consumed := p.consumed + 1 }.handleMsg m).2) := by
  have hf := hi.flags hd p hp
  have hdrop : m.type = .dropLock → p.schedulerOn = true := fun hd' ↦ Option.some.inj
    ((hS.readInv.told _ _ hp hph).symm.trans (hS.sched.dropInv hd p.consumed m hm hd'))
  have hf₁ : Proc.Flags { p with consumed := p.consumed + 1 } := ⟨hf.off_owns, hf.own_not_need⟩
  refine hi.setProc _ (hf₁.handleMsg m hdrop) (fun hneed ↦ ?_) fun _ hown hneed hrec ↦ ?_
  · rw [(handleMsg_need hf₁ m hneed).2, List.append_nil]
    exact hi.asked hd p hp (handleMsg_need hf₁ m hneed).1
  obtain ⟨hown₁, hneed₁, -, hlk, hoff⟩ := handleMsg_waiting hf₁ hph m hown hneed
  rcases hi.pending hd p hp hph hown₁ hneed₁ hrec with ⟨m', hm', hreq⟩ | hq | ⟨m', hm', hlk'⟩
  · exact .inl ⟨m', by simp [Sys.setProc, hm'], hreq⟩
  · exact .inr (.inl hq)
  refine .inr (.inr ⟨m', ?_, hlk'⟩)
  obtain ⟨hk, he⟩ := List.getElem?_eq_some_iff.mp hm
  rw [List.drop_eq_getElem_cons hk, he] at hm'
  rcases List.mem_cons.mp hm' with rfl | hm'
  · exact absurd hlk' (by simp [hlk, hoff])
  · simpa [Sys.setProc, Sys.down, handleMsg_consumed] using hm'

/-- An application thread passes `continue_with_lock`'s loop once: it asks for the lock, or a
request was already pending. -/
theorem continueWithLock (hi : ReqInv S) {hd : Nat} {p : Proc} (hp : S.peers hd = .client p)
    (hph : p.phase = .running) (t : Nat) :
    ReqInv (S.setProc hd (p.continueWithLock t).1 (p.continueWithLock t).2) := by
  refine hi.setProc _ ((hi.flags hd p hp).continueWithLock t) (fun hneed ↦ ?_)
    fun _ hown hneed hrec ↦ ?_ <;> rcases continueWithLock_need t hneed with ⟨hneed₀, hout⟩ | hout
  · rw [hout, List.append_nil]; exact hi.asked hd p hp hneed₀
  · rw [hout, lastAsk_append]; simp [lastAsk, MessageType.ask]
  · exact hi.pending_setProc hp hph (by simpa using hown) hneed₀ (by simp) _ hrec
  · exact .inl ⟨⟨.reqLock, p.clientId, []⟩, by simp [Sys.setProc, hout], rfl⟩

/-- The early releaser of a waiting client writes nothing and keeps it waiting. -/
theorem releaseEarlyFn (hi : ReqInv S) {hd : Nat} {p : Proc} (hp : S.peers hd = .client p)
    (hph : p.phase = .running) (timedOut : Bool) (probe : Probe) :
    ReqInv (S.setProc hd (p.releaseEarlyFn timedOut probe).1
      (p.releaseEarlyFn timedOut probe).2) := by
  have hf := hi.flags hd p hp
  refine hi.setProc _ (hf.releaseEarlyFn timedOut probe) (fun hneed ↦ ?_)
    fun _ hown hneed hrec ↦ ?_ <;> rw [releaseEarlyFn_needLock] at hneed <;>
    have hw := releaseEarlyFn_waiting hf hneed timedOut probe
  · rw [hw.2, List.append_nil]
    exact hi.asked hd p hp hneed
  · exact hi.pending_setProc hp hph (hw.1 ▸ hown) hneed (by simp) _ hrec

theorem step (hS : SysReachable kind S) (hi : ReqInv S) {L : SysLabel} {S' : Sys}
    (h : Sys.step kind L S = some S') : ReqInv S' := by
  rcases Sys.step_cases h with ⟨l, -, hl⟩ | ⟨hd, p, hp, hcase⟩
  · exact hi.schedStep hS hl
  have hf := hi.flags hd p hp
  rcases hcase with ⟨m, hph, hm, rfl⟩ | ⟨m, hph, hm, rfl⟩ | ⟨t, hph, -, rfl⟩ | ⟨t, hph, -, rfl⟩ |
      ⟨timedOut, probe, hph, rfl⟩ | rfl
  · refine hi.setProc _ (Proc.Flags.initialStatus (p := { p with consumed := p.consumed + 1 })
      ⟨fun h ↦ (by cases hph.symm.trans h), hf.own_not_need⟩ m) (fun hneed ↦ ?_)
      fun hrun _ hneed ↦ ?_
    · simpa using hi.asked hd p hp (initialStatus_needLock hneed).1
    · rw [(initialStatus_needLock hneed).2] at hrun; cases hrun
  · exact hi.handleMsg hS hp hph hm
  · exact hi.continueWithLock hp hph t
  · refine hi.setProc _ ⟨hf.off_owns, hf.own_not_need⟩ (fun hneed ↦ ?_) fun _ hown hneed hrec ↦
      hi.pending_setProc hp hph hown hneed rfl _ hrec
    simpa using hi.asked hd p hp hneed
  · exact hi.releaseEarlyFn hp hph timedOut probe
  · exact hi.setProc _ ⟨fun h ↦ (by cases h), hf.own_not_need⟩
      (fun hneed ↦ by simpa using hi.asked hd p hp hneed) fun h ↦ by cases h

end ReqInv

theorem SysReachable.reqInv {kind : Nat → Kind} {S : Sys} (h : SysReachable kind S) :
    ReqInv S := by
  induction h with
  | init => exact ReqInv.init
  | step _ hS hst ih => exact ih.step hS hst

/-- **No lost lock request.** Take a record of the table whose peer is a client that has read
its initial status. If the client believes scheduling off, it owns the lock; if it owns the lock,
it needs none; and if it waits for the lock, its REQ_LOCK is on its way, or a request of the
record is queued, or a LOCK_OK or a SCHED_OFF is on its way to it. -/
theorem no_lost_request {kind : Nat → Kind} {S : Sys} (hS : SysReachable kind S) {c : Client}
    (hc : c ∈ S.sched.clients) {p : Proc} (hp : S.peers c.handle = .client p)
    (hrun : p.phase = .running) :
    (p.schedulerOn = false → p.ownLock = true) ∧ (p.ownLock = true → p.needLock = false) ∧
    (p.ownLock = false → p.needLock = true →
      (∃ m ∈ S.up c.handle, m.type = .reqLock) ∨ (∃ r ∈ S.sched.requests, r.client = c) ∨
      ∃ m ∈ (S.down c.handle).drop p.consumed, m.type = .lockOk ∨ m.type = .schedOff) := by
  have hi := hS.reqInv
  have hf := hi.flags _ _ hp
  refine ⟨hf.off_owns hrun, hf.own_not_need, fun hown hneed ↦ ?_⟩
  rcases hi.pending _ _ hp hrun hown hneed ⟨c, hc, rfl⟩ with hreq | ⟨r, hr, he⟩ | hlk
  · exact .inl hreq
  · exact .inr (.inl ⟨r, hr, hS.sched.tableInv.linked r hr c hc he⟩)
  · exact .inr (.inr hlk)

/-- A client registers, reads the answer, and application thread `0` asks for the lock. -/
def waitingRun : List SysLabel := agreementRun ++ [.gate 0 0]

/-- The state at the end of `waitingRun`. -/
def waitingState : Sys := (Sys.exec (fun _ ↦ .client true) waitingRun Sys.init).getD Sys.init

/-- The client of `waitingState`. -/
def waitingProc : Proc :=
  match waitingState.peers 0 with
  | .client p => p
  | _ => Proc.init true

/-- The waiting client of `waitingState` has its request on its way. -/
theorem no_lost_request_waiting :
    (∃ m ∈ waitingState.up 0, m.type = .reqLock) ∨
    (∃ r ∈ waitingState.sched.requests, r.client = ⟨0, 10, 1⟩) ∨
    ∃ m ∈ (waitingState.down 0).drop waitingProc.consumed,
      m.type = .lockOk ∨ m.type = .schedOff :=
  (no_lost_request
    (@SysReachable.exec (fun _ ↦ .client true) _ waitingState waitingRun .init rfl)
    (c := ⟨0, 10, 1⟩) (by decide) (p := waitingProc) rfl (by decide)).2.2 (by decide) (by decide)

/-! ## Before the initial status

`register_client` marks the record registered and writes the answer in one critical section, but
`client_fn` reads it later: in between, the scheduler counts a registered client whose
`scheduler_on` and `own_lock` are both still `0`. -/

/-- A client connects and the scheduler handles its `REGISTER`; the client has not read the
answer. -/
def registeredRun : List SysLabel :=
  [.sched (.poll [.listener]), .sched .lock, .sched (.handle (.accepted 10)), .sched .unlock,
   .sched (.poll [.client 0 true false]), .sched .lock, .sched (.handle (.read registerMsg 1)),
   .sched .unlock]

/-- The state at the end of `registeredRun`. -/
def registeredState : Sys :=
  (Sys.exec (fun _ ↦ .client true) registeredRun Sys.init).getD Sys.init

/-- **A registered client that does not own the lock with scheduling off.** In a reachable state a
live client whose record the scheduler has registered has `scheduler_on = 0` and
`own_lock = 0`. -/
theorem registering_client_not_owner :
    ¬ ∀ (kind : Nat → Kind) (S : Sys), SysReachable kind S → ∀ c ∈ S.sched.clients,
      c.hasRegistered = true → ∀ p, S.peers c.handle = .client p → p.phase ≠ .exited →
      p.schedulerOn = false → p.ownLock = true := by
  intro hall
  have hS := @SysReachable.exec (fun _ ↦ .client true) _ registeredState registeredRun .init rfl
  have := hall _ registeredState hS ⟨0, 10, 1⟩ (by decide) (by decide) (Proc.init true) rfl
    (by decide) rfl
  exact absurd this (by decide)

end Nvshare
