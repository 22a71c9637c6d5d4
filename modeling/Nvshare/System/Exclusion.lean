import Nvshare.System.Requests

/-!
# Mutual exclusion

The lock of a record can be in three places: its client owns it (`own_lock`), a LOCK_OK to the
client is on its way down, or a LOCK_RELEASED from the client is on its way up (`tokens`). The
scheduler counts it held while the record heads the queue with `lock_held` set (`Sched.held`).
Each scheduler move keeps the two counts in step (`step_record`): the LOCK_OK it writes to a
record makes the record the holder, and reading the record's LOCK_RELEASED ends the tenure. On the
client's side, handling LOCK_OK moves the lock from the channel to `own_lock`, and DROP_LOCK and
an early release move it back into the channel as LOCK_RELEASED. So the count is conserved
(`ExclInv.balanced`), and a client that owns the lock is the scheduler's holder.

SCHED_OFF breaks the count. `client_fn` handles it by setting `own_lock` without a LOCK_OK, and
the SCHED_ON after it clears `own_lock` and `need_lock` without a LOCK_RELEASED, whether or not a
LOCK_OK is on its way. In `toggleRun` a client whose LOCK_OK is overtaken by a SCHED_OFF and a
SCHED_ON asks again, and the LOCK_RELEASED it writes for the first LOCK_OK ends the tenure of the
second: two clients end up owning the lock (`toggle_two_owners`). The theorem assumes that
`nvsharectl` is never asked to turn scheduling off; then scheduling stays on and no SCHED_OFF is
ever written.
-/

namespace Nvshare

/-! ## Frames without SCHED_OFF -/

theorem MessageType.status_eq_true {t : MessageType} {b : Bool} (h : t.status = some b)
    (hoff : t ≠ .schedOff) : b = true := by
  cases t <;> simp_all [MessageType.status]

theorem MessageType.ne_lockOk_of_status {t : MessageType} {b : Bool} (h : t.status = some b) :
    t ≠ .lockOk := by
  rintro rfl; cases h

/-- What a peer writes on connecting is no SCHED_OFF, unless it is `nvsharectl --anti-thrash
off`. -/
theorem Kind.start_ne_schedOff {k : Kind} (hk : k ≠ .cli (.changeStatus false)) :
    ∀ m ∈ k.start.2, m.type ≠ .schedOff := by
  rcases k with _ | ⟨⟨_ | _⟩ | _⟩ <;> simp_all [Kind.start, Command.msg, registerMsg]

theorem Kind.start_releases {k : Kind} {p : Proc} (h : k.start.1 = .client p) :
    k.start.2.countP (·.type == .lockReleased) = 0 := by
  cases k <;> simp_all [Kind.start, registerMsg]

/-! ## The client's side

Each function of `client.c` moves the lock between `own_lock` and the frames it writes, and only
handling a LOCK_OK brings one in. -/

section Client

variable {p : Proc}

/-- Handling a frame: LOCK_OK brings the lock, DROP_LOCK sends it back as LOCK_RELEASED. -/
theorem handleMsg_tokens {m : Message} (hon : p.schedulerOn = true) (hoff : m.type ≠ .schedOff)
    (hown : m.type = .lockOk → p.ownLock = false) :
    (p.handleMsg m).1.ownLock.toNat + (p.handleMsg m).2.countP (·.type == .lockReleased) =
      p.ownLock.toNat + if m.type = .lockOk then 1 else 0 := by
  unfold Proc.handleMsg
  split <;> (try split) <;> simp_all

theorem handleMsg_out {m m' : Message} (h : m' ∈ (p.handleMsg m).2) : m'.type = .lockReleased := by
  unfold Proc.handleMsg at h
  split at h <;> (try split at h) <;> simp_all

theorem continueWithLock_out {t : Nat} {m : Message} (h : m ∈ (p.continueWithLock t).2) :
    m.type = .reqLock := by
  unfold Proc.continueWithLock at h
  split at h <;> (try split at h) <;> simp_all

theorem continueWithLock_releases (t : Nat) :
    (p.continueWithLock t).2.countP (·.type == .lockReleased) = 0 :=
  List.countP_eq_zero.mpr fun m hm ↦ by simp [continueWithLock_out hm]

/-- The early releaser gives back the lock it owns, as LOCK_RELEASED. -/
theorem releaseEarlyFn_tokens (timedOut : Bool) (probe : Probe) :
    (p.releaseEarlyFn timedOut probe).1.ownLock.toNat +
      (p.releaseEarlyFn timedOut probe).2.countP (·.type == .lockReleased) = p.ownLock.toNat := by
  rcases releaseEarlyFn_cases p timedOut probe with h | h | h | ⟨-, hown, h⟩ <;> simp [h]
  simp [hown]

theorem releaseEarlyFn_out {timedOut : Bool} {probe : Probe} {m : Message}
    (h : m ∈ (p.releaseEarlyFn timedOut probe).2) : m.type = .lockReleased := by
  rcases releaseEarlyFn_cases p timedOut probe with he | he | he | ⟨-, -, he⟩ <;>
    simp only [he, List.not_mem_nil, List.mem_singleton] at h
  rw [h]

/-- The initial status sets `own_lock` to `!scheduler_on`. -/
theorem initialStatus_ownLock {m : Message} (h : (p.initialStatus m).phase = .running) :
    (p.initialStatus m).ownLock = !(p.initialStatus m).schedulerOn := by
  unfold Proc.initialStatus at h ⊢
  split <;> simp_all

end Client

/-! ## Counting the lock -/

/-- Where the lock of the record at address `h`, whose client is `p`, can be: owned by `p`, a
LOCK_OK that `p` has still to read, a LOCK_RELEASED the scheduler has still to read. -/
def tokens (S : Sys) (h : Nat) (p : Proc) : Nat :=
  p.ownLock.toNat + ((S.down h).drop p.consumed).countP (·.type == .lockOk) +
    (S.up h).countP (·.type == .lockReleased)

theorem Sched.held_le_one (s : Sched) (h : Nat) : s.held h ≤ 1 := by
  unfold Sched.held; split <;> omega

theorem Sched.owner_of_held {s : Sched} {h : Nat} (hh : 0 < s.held h) : s.owner = some h := by
  unfold Sched.held at hh; split at hh <;> simp_all

theorem Sched.owner_eq_some {s : Sched} {h : Nat} (ho : s.owner = some h) :
    s.lockHeld = true ∧ ∃ r rest, s.requests = r :: rest ∧ r.client.handle = h := by
  unfold Sched.owner at ho
  split at ho
  · rcases hrs : s.requests with _ | ⟨r, rest⟩ <;> simp [hrs] at ho
    exact ⟨‹_›, r, rest, rfl, ho⟩
  · cases ho

theorem not_hasRecord_nextHandle {s : Sched} (hT : TableInv s) : ¬ s.HasRecord s.nextHandle :=
  fun ⟨c, hc, he⟩ ↦ (hT.handle_lt c hc).ne he

/-- Reading the frame at position `k` takes it out of the frames still to read. -/
theorem lockOks_drop_of_getElem {l : List Message} {k : Nat} {m : Message} (hm : l[k]? = some m) :
    (l.drop k).countP (·.type == .lockOk) =
      (l.drop (k + 1)).countP (·.type == .lockOk) + if m.type = .lockOk then 1 else 0 := by
  obtain ⟨hk, he⟩ := List.getElem?_eq_some_iff.mp hm
  rw [List.drop_eq_getElem_cons hk, List.countP_cons, he]
  simp

/-- A scheduler move adds to the LOCK_OKs a client has still to read exactly those it writes to
the client. -/
theorem lockOks_drop_step {l : Label} {S S' : Sys} (hs : step l S.sched = some S'.sched) {h k : Nat}
    (hk : k ≤ (S.down h).length) :
    ((S'.down h).drop k).countP (·.type == .lockOk) + S.sched.grantsTo h =
      ((S.down h).drop k).countP (·.type == .lockOk) + S'.sched.grantsTo h := by
  obtain ⟨t, ht⟩ := inbox_grows (step_sent_grows hs) h
  change _ + (S.down h).countP _ = _ + (S'.down h).countP _
  rw [← show S.down h ++ t = S'.down h from ht, List.drop_append_of_le_length hk]
  simp only [List.countP_append]
  omega

@[simp] theorem tokens_setProc_self (S : Sys) (h : Nat) (p : Proc) (out : List Message) :
    tokens (S.setProc h p out) h p =
      tokens S h p + out.countP (·.type == .lockReleased) := by
  simp only [tokens, setProc_down, setProc_up_self, List.countP_append]
  omega

theorem tokens_setProc_ne (S : Sys) {h h' : Nat} (hne : h' ≠ h) (p p' : Proc)
    (out : List Message) : tokens (S.setProc h p out) h' p' = tokens S h' p' := by
  simp only [tokens, setProc_down, setProc_up_ne S hne]

/-! ## The invariant -/

/-- What carries mutual exclusion while `nvsharectl` never turns scheduling off: scheduling is on,
no SCHED_OFF is written either way, a client that has not read its initial status owns nothing,
one in its loop believes scheduling on, and the lock of every record of the table with a live
client is where the scheduler counts it. -/
structure ExclInv (S : Sys) : Prop where
  schedOn : S.sched.schedulerOn = true
  sent : ∀ x ∈ S.sched.sent, x.2.type ≠ .schedOff
  up : ∀ h, ∀ m ∈ S.up h, m.type ≠ .schedOff
  registering : ∀ h p, S.peers h = .client p → p.phase = .registering → p.ownLock = false
  running : ∀ h p, S.peers h = .client p → p.phase = .running → p.schedulerOn = true
  balanced : ∀ h p, S.peers h = .client p → p.phase ≠ .exited → S.sched.HasRecord h →
    tokens S h p = S.sched.held h

namespace ExclInv

variable {kind : Nat → Kind} {S : Sys}

theorem init : ExclInv Sys.init :=
  ⟨rfl, nofun, fun _ _ hm ↦ (by cases hm), fun _ _ hp ↦ (by cases hp),
    fun _ _ hp ↦ (by cases hp), fun _ _ hp ↦ (by cases hp)⟩

/-- A frame `client_fn` reads is no SCHED_OFF. -/
theorem read_ne_schedOff (hi : ExclInv S) {h k : Nat} {m : Message} (hm : (S.down h)[k]? = some m) :
    m.type ≠ .schedOff :=
  hi.sent _ (mem_inbox.mp (List.getElem?_mem hm))

/-- A live client that owns the lock is the scheduler's holder. -/
theorem owner (hi : ExclInv S) {h : Nat} {p : Proc} (hp : S.peers h = .client p)
    (hlive : p.phase ≠ .exited) (hrec : S.sched.HasRecord h) (hown : p.ownLock = true) :
    S.sched.owner = some h := by
  have := hi.balanced h p hp hlive hrec
  unfold tokens at this
  rw [hown] at this
  exact Sched.owner_of_held (by simp at this; omega)

/-- The record of a scheduler move: its lock count moves as `step_record` says. -/
theorem balanced_schedStep (hS : SysReachable kind S) (hi : ExclInv S) {l : Label} {S' : Sys}
    (hst : S.schedStep kind l = some S') (hon : S'.sched.schedulerOn = true) {h : Nat} {p : Proc}
    (hp : S'.peers h = .client p) (hlive : p.phase ≠ .exited) (hrec : S'.sched.HasRecord h) :
    tokens S' h p = S'.sched.held h := by
  have hs := (schedStep_cases hst).1
  have hT := hS.sched.tableInv
  have hle := S.sched.held_le_one h
  rcases step_record hS.sched hs hrec with ⟨q, hnrel⟩ | ⟨rfl, hacc, hg, hheld⟩ | ⟨-, hoff⟩ |
      ⟨m, hread, hrel, hrec₀, hg, hheld⟩
  · have hrec₀ := q.hasRecord hrec
    rcases schedStep_at hst h with ⟨-, hpe, hu⟩ | ⟨rfl, -⟩
    swap
    · exact absurd hrec₀ (not_hasRecord_nextHandle hT)
    rw [hpe] at hp
    have hup : (S'.up h).countP (·.type == .lockReleased) =
        (S.up h).countP (·.type == .lockReleased) := by
      rcases hu with ⟨m, hread, hu⟩ | ⟨-, hu⟩
      · simp [hu, hnrel m hread]
      · rw [hu]
    have hbal := hi.balanced h p hp hlive hrec₀
    have hc := lockOks_drop_step hs (h := h) (hS.readInv.consumed_le h p hp)
    have hq := q.grants hrec
    unfold tokens at hbal ⊢
    omega
  · rcases schedStep_at hst S.sched.nextHandle with ⟨hnew, -⟩ | ⟨-, -, hpe, hu⟩
    · exact absurd ⟨rfl, hacc⟩ hnew
    obtain ⟨b, rfl⟩ := Kind.start_client (hpe ▸ hp)
    rw [hheld, ← hg]
    simp [tokens, Proc.init, hu, Kind.start_releases (hpe ▸ hp), Sched.grantsTo, Sys.down]
  · rw [hon] at hoff; cases hoff
  · rcases schedStep_at hst h with ⟨-, hpe, -⟩ | ⟨rfl, hacc, -⟩
    swap
    · rw [Label.accepts_eq_false_of_read hread] at hacc; cases hacc
    rw [hpe] at hp
    have hbal := hi.balanced h p hp hlive hrec₀
    have hc := lockOks_drop_step hs (h := h) (hS.readInv.consumed_le h p hp)
    unfold tokens at hbal ⊢
    rw [schedStep_read hst hread] at hbal
    simp only [List.countP_cons, hrel, beq_self_eq_true, if_true] at hbal
    omega

theorem schedStep (hk : ∀ h, kind h ≠ .cli (.changeStatus false)) (hS : SysReachable kind S)
    (hi : ExclInv S) {l : Label} {S' : Sys} (hst : S.schedStep kind l = some S') : ExclInv S' := by
  have hs := (schedStep_cases hst).1
  have hon : S'.sched.schedulerOn = true := by
    cases hoff : S'.sched.schedulerOn
    · obtain ⟨h, m, hread, hm⟩ := step_schedulerOn_off hs hi.schedOn hoff
      exact absurd hm (hi.up h m (by rw [schedStep_read hst hread]; exact .head _))
    · rfl
  refine ⟨hon, fun x hx ↦ ?_, fun h m hm ↦ ?_, fun h p hp ↦ ?_, fun h p hp ↦ ?_,
    fun h p hp ↦ hi.balanced_schedStep hS hst hon hp⟩
  · obtain ⟨t, he, ht⟩ := step_writes hs
    rw [he, List.mem_append] at hx
    rcases hx with hx | hx
    · exact hi.sent x hx
    rcases ht x hx with h | h | ⟨h, -⟩
    · rw [h]; decide
    · rw [h, hon]; decide
    · rw [h]; decide
  · rcases schedStep_at hst h with ⟨-, -, ⟨m', -, hu⟩ | ⟨-, hu⟩⟩ | ⟨-, -, -, hu⟩
    · exact hi.up h m (hu ▸ .tail _ hm)
    · exact hi.up h m (hu ▸ hm)
    · exact Kind.start_ne_schedOff (hk h) m (hu ▸ hm)
  · rcases schedStep_peers hst hp with hp | ⟨b, rfl⟩
    exacts [hi.registering h p hp, fun _ ↦ rfl]
  · rcases schedStep_peers hst hp with hp | ⟨b, rfl⟩
    exacts [hi.running h p hp, fun h ↦ by cases h]

/-- Replacing one client by one that keeps the invariant at its own address. -/
theorem setProc (hi : ExclInv S) {hd : Nat} {p' : Proc} (out : List Message)
    (hout : ∀ m ∈ out, m.type ≠ .schedOff)
    (hreg : p'.phase = .registering → p'.ownLock = false)
    (hrun : p'.phase = .running → p'.schedulerOn = true)
    (hbal : p'.phase ≠ .exited → S.sched.HasRecord hd →
      tokens S hd p' + out.countP (·.type == .lockReleased) = S.sched.held hd) :
    ExclInv (S.setProc hd p' out) := by
  refine ⟨hi.schedOn, hi.sent, fun h m hm ↦ ?_, fun h p hp ↦ ?_, fun h p hp ↦ ?_,
    fun h p hp ↦ ?_⟩ <;>
    by_cases hh : h = hd
  · subst hh
    rcases List.mem_append.mp (by simpa using hm) with hm | hm
    exacts [hi.up h m hm, hout m hm]
  · exact hi.up h m (by rwa [setProc_up_ne S hh] at hm)
  all_goals first
    | (subst hh; simp only [setProc_peers_self, Peer.client.injEq] at hp; subst hp)
    | rw [setProc_peers_ne S hh] at hp
  · exact hreg
  · exact hi.registering h p hp
  · exact hrun
  · exact hi.running h p hp
  · simpa using hbal
  · rw [tokens_setProc_ne S hh]; exact hi.balanced h p hp

/-- A move of a client that reads nothing, keeps its phase and status, and sends back as
LOCK_RELEASED whatever lock it stops owning. -/
theorem setProc_local (hi : ExclInv S) {hd : Nat} {p p' : Proc} (hp : S.peers hd = .client p)
    (out : List Message) (hout : ∀ m ∈ out, m.type ≠ .schedOff) (hph : p'.phase = p.phase)
    (hc : p'.consumed = p.consumed) (hon : p'.schedulerOn = p.schedulerOn)
    (hown : p'.ownLock.toNat + out.countP (·.type == .lockReleased) = p.ownLock.toNat) :
    ExclInv (S.setProc hd p' out) := by
  refine hi.setProc out hout (fun h ↦ ?_) (fun h ↦ hon ▸ hi.running hd p hp (hph ▸ h))
    fun hlive hrec ↦ ?_
  · have := hi.registering hd p hp (hph ▸ h)
    rw [this] at hown
    cases h' : p'.ownLock <;> simp_all
  · rw [← hi.balanced hd p hp (hph ▸ hlive) hrec]
    unfold tokens
    rw [hc]
    omega

/-- `client_fn` reads its initial status: a SCHED_ON, so `own_lock` stays `0`. -/
theorem initialStatus (hi : ExclInv S) {hd : Nat} {p : Proc} (hp : S.peers hd = .client p)
    (hph : p.phase = .registering) {m : Message} (hm : (S.down hd)[p.consumed]? = some m) :
    ExclInv (S.setProc hd ({ p with consumed := p.consumed + 1 }.initialStatus m) []) := by
  rcases initialStatus_cases { p with consumed := p.consumed + 1 } m with he | ⟨hrun, hst⟩
  · exact hi.setProc [] nofun (fun h ↦ by rw [he] at h; cases h) (fun h ↦ by rw [he] at h; cases h)
      fun hlive ↦ absurd he hlive
  have hon := MessageType.status_eq_true hst (hi.read_ne_schedOff hm)
  refine hi.setProc [] nofun (fun h ↦ by rw [hrun] at h; cases h) (fun _ ↦ hon) fun _ hrec ↦ ?_
  have h₀ := hi.balanced hd p hp (by rw [hph]; decide) hrec
  have hown := initialStatus_ownLock hrun
  rw [hon] at hown
  unfold tokens at h₀ ⊢
  rw [lockOks_drop_of_getElem hm, hi.registering hd p hp hph,
    if_neg (MessageType.ne_lockOk_of_status hst)] at h₀
  simp only [hown, initialStatus_consumed, List.countP_nil, Bool.not_true, Bool.toNat_false] at h₀ ⊢
  omega

/-- `client_fn` handles a frame in its loop: a LOCK_OK moves the lock from the channel to
`own_lock`, which it did not hold, since the count is at most one. -/
theorem handleMsg (hi : ExclInv S) {hd : Nat} {p : Proc} (hp : S.peers hd = .client p)
    (hph : p.phase = .running) {m : Message} (hm : (S.down hd)[p.consumed]? = some m) :
    ExclInv (S.setProc hd ({ p with consumed := p.consumed + 1 }.handleMsg m).1
      ({ p with consumed := p.consumed + 1 }.handleMsg m).2) := by
  have hms := hi.read_ne_schedOff hm
  have hon := hi.running hd p hp hph
  refine hi.setProc _ (fun m' hm' ↦ by rw [handleMsg_out hm']; decide)
    (fun h ↦ by simp [hph] at h) (fun _ ↦ ?_) fun _ hrec ↦ ?_
  · rw [handleMsg_schedulerOn]
    cases hs : m.type.status with
    | none => exact hon
    | some b => exact MessageType.status_eq_true hs hms
  have h₀ := hi.balanced hd p hp (by rw [hph]; decide) hrec
  have hle := S.sched.held_le_one hd
  unfold tokens at h₀ ⊢
  rw [lockOks_drop_of_getElem hm] at h₀
  have ht := handleMsg_tokens (p := { p with consumed := p.consumed + 1 }) hon hms fun hlk ↦ by
    cases hown : p.ownLock
    · rfl
    · simp [hown, hlk] at h₀; omega
  simp only [handleMsg_consumed] at ht ⊢
  omega

theorem step (hk : ∀ h, kind h ≠ .cli (.changeStatus false)) (hS : SysReachable kind S)
    (hi : ExclInv S) {L : SysLabel} {S' : Sys} (h : Sys.step kind L S = some S') : ExclInv S' := by
  rcases Sys.step_cases h with ⟨l, -, hl⟩ | ⟨hd, p, hp, hcase⟩
  · exact hi.schedStep hk hS hl
  rcases hcase with ⟨m, hph, hm, rfl⟩ | ⟨m, hph, hm, rfl⟩ | ⟨t, -, -, rfl⟩ | ⟨t, -, -, rfl⟩ |
      ⟨timedOut, probe, -, rfl⟩ | rfl
  · exact hi.initialStatus hp hph hm
  · exact hi.handleMsg hp hph hm
  · exact hi.setProc_local hp _ (fun m hm ↦ by rw [continueWithLock_out hm]; decide) (by simp)
      (by simp) (by simp) (by simp [continueWithLock_releases])
  · exact hi.setProc_local hp [] nofun rfl rfl rfl (by simp [Proc.realCall])
  · exact hi.setProc_local hp _ (fun m hm ↦ by rw [releaseEarlyFn_out hm]; decide) (by simp)
      (by simp) (by simp) (releaseEarlyFn_tokens timedOut probe)
  · exact hi.setProc [] nofun (fun h ↦ by cases h) (fun h ↦ by cases h) fun h ↦ absurd rfl h

end ExclInv

theorem SysReachable.exclInv {kind : Nat → Kind} (hk : ∀ h, kind h ≠ .cli (.changeStatus false))
    {S : Sys} (h : SysReachable kind S) : ExclInv S := by
  induction h with
  | init => exact ExclInv.init
  | step _ hS hst ih => exact ih.step hk hS hst

/-! ## Mutual exclusion -/

/-- **Mutual exclusion.** Suppose no `nvsharectl` connection asks to turn scheduling off. Take a
record of the table whose peer is a live client that owns the lock. The record is the head of the
queue with `lock_held` set, and it is the only record of the table with a live client that owns
the lock. -/
theorem mutual_exclusion {kind : Nat → Kind} (hk : ∀ h, kind h ≠ .cli (.changeStatus false))
    {S : Sys} (hS : SysReachable kind S) {c : Client} (hc : c ∈ S.sched.clients) {p : Proc}
    (hp : S.peers c.handle = .client p) (hlive : p.phase ≠ .exited) (hown : p.ownLock = true) :
    (S.sched.lockHeld = true ∧ ∃ r rest, S.sched.requests = r :: rest ∧ r.client = c) ∧
    ∀ c' ∈ S.sched.clients, ∀ p', S.peers c'.handle = .client p' → p'.phase ≠ .exited →
      p'.ownLock = true → c' = c := by
  have hi := hS.exclInv hk
  have hT := hS.sched.tableInv
  have ho := hi.owner hp hlive ⟨c, hc, rfl⟩ hown
  obtain ⟨hheld, r, rest, hrs, he⟩ := Sched.owner_eq_some ho
  refine ⟨⟨hheld, r, rest, hrs, hT.linked r (by simp [hrs]) c hc he⟩,
    fun c' hc' p' hp' hlive' hown' ↦ hT.eq_of_handle hc' hc ?_⟩
  have ho' := hi.owner hp' hlive' ⟨c', hc', rfl⟩ hown'
  rw [ho] at ho'
  exact (Option.some.inj ho').symm

/-- A client registers, asks for the lock, is granted it and reads the LOCK_OK. -/
def ownerRun : List SysLabel :=
  waitingRun ++
  [.sched (.poll [.client 0 true false]), .sched .lock,
   .sched (.handle (.read ⟨.reqLock, 1, []⟩ 2)), .sched .unlock, .receive 0]

/-- The state at the end of `ownerRun`. -/
def ownerState : Sys := (Sys.exec (fun _ ↦ .client true) ownerRun Sys.init).getD Sys.init

/-- The client of `ownerState`. -/
def ownerProc : Proc :=
  match ownerState.peers 0 with
  | .client p => p
  | _ => Proc.init true

/-- The client of `ownerState` owns the lock, and the scheduler counts it the holder. -/
theorem mutual_exclusion_owner :
    ownerState.sched.lockHeld = true ∧
      ∃ r rest, ownerState.sched.requests = r :: rest ∧ r.client = ⟨0, 10, 1⟩ :=
  (@mutual_exclusion (fun _ ↦ .client true) (fun _ ↦ nofun) ownerState
    (@SysReachable.exec (fun _ ↦ .client true) _ ownerState ownerRun .init rfl)
    ⟨0, 10, 1⟩ (by decide) ownerProc rfl (by decide) (by decide)).1

/-! ## SCHED_OFF and SCHED_ON overtaking a LOCK_OK -/

/-- Connections `0` and `1` are clients; the others are `nvsharectl`, turning scheduling off at
even addresses and on at odd ones. -/
def toggleKind (n : Nat) : Kind :=
  if n < 2 then .client true else .cli (.changeStatus (n % 2 == 1))

/-- The scheduler accepts a connection on `fd`. -/
def acceptRun (fd : Nat) : List SysLabel :=
  [.sched (.poll [.listener]), .sched .lock, .sched (.handle (.accepted fd)), .sched .unlock]

/-- The scheduler reads `m` from connection `h`. -/
def readRun (h : Nat) (m : Message) (newId : UInt64) : List SysLabel :=
  [.sched (.poll [.client h true false]), .sched .lock, .sched (.handle (.read m newId)),
   .sched .unlock]

/-- `nvsharectl` turns scheduling off from connection `h` (on `fd`), then on from `h + 1`. -/
def offOnRun (fd h : Nat) : List SysLabel :=
  acceptRun fd ++ readRun h (Command.changeStatus false).msg 7 ++
  acceptRun (fd + 1) ++ readRun (h + 1) (Command.changeStatus true).msg 7

/-- Clients `0` and `1` register. Client `0` asks for the lock, scheduling goes off and on, and
the scheduler grants the request; client `0` reads SCHED_OFF and SCHED_ON before the LOCK_OK, so
it asks again, then takes the first LOCK_OK and gives the lock back early. Scheduling goes off and
on again, and the scheduler grants the second request. Client `1` asks and queues; the scheduler
reads client `0`'s LOCK_RELEASED and grants client `1`. Both clients read everything. -/
def toggleRun : List SysLabel :=
  acceptRun 10 ++ readRun 0 registerMsg 1 ++ [.receive 0] ++
  acceptRun 11 ++ readRun 1 registerMsg 2 ++ [.receive 1, .gate 0 0] ++
  offOnRun 12 2 ++ readRun 0 ⟨.reqLock, 1, []⟩ 7 ++
  [.receive 0, .receive 0, .gate 0 0, .receive 0,
   .releaseEarly 0 true .busy, .releaseEarly 0 true .idle] ++
  offOnRun 14 4 ++ readRun 0 ⟨.reqLock, 1, []⟩ 7 ++
  [.gate 1 0] ++ readRun 1 ⟨.reqLock, 2, []⟩ 7 ++ readRun 0 ⟨.lockReleased, 1, []⟩ 7 ++
  [.receive 0, .receive 0, .receive 0, .receive 1, .receive 1, .receive 1, .receive 1, .receive 1]

/-- The state at the end of `toggleRun`. -/
def toggleState : Sys := (Sys.exec toggleKind toggleRun Sys.init).getD Sys.init

/-- The client at address `h` of `toggleState`. -/
def toggleProc (h : Nat) : Proc :=
  match toggleState.peers h with
  | .client p => p
  | _ => Proc.init true

/-- **Two owners.** With `nvsharectl` free to send SCHED_OFF, a reachable state has two live
clients of the table that both own the lock, believe scheduling on and have read every frame
written to them. -/
theorem toggle_two_owners :
    ¬ ∀ (kind : Nat → Kind) (S : Sys), SysReachable kind S →
      ∀ c ∈ S.sched.clients, ∀ c' ∈ S.sched.clients, ∀ p p',
      S.peers c.handle = .client p → S.peers c'.handle = .client p' →
      p.phase ≠ .exited → p'.phase ≠ .exited → p.ownLock = true → p'.ownLock = true →
      p.schedulerOn = true → p'.schedulerOn = true →
      p.consumed = (S.down c.handle).length → p'.consumed = (S.down c'.handle).length → c = c' := by
  intro hall
  have hS := @SysReachable.exec toggleKind _ toggleState toggleRun .init rfl
  have := hall _ toggleState hS ⟨0, 10, 1⟩ (by decide) ⟨1, 11, 2⟩ (by decide) (toggleProc 0)
    (toggleProc 1) rfl rfl (by decide) (by decide) (by decide) (by decide) (by decide) (by decide)
    (by decide) (by decide)
  exact absurd this (by decide)

/-! ## Scheduling off -/

/-- **With scheduling off, every client runs freely.** In every reachable state of the composed
system, whatever the `nvsharectl` connections send, a running client that was last told
SCHED_OFF owns the lock and needs none, so `continue_with_lock` lets its application threads
through at once. -/
theorem off_client_owns_lock {kind : Nat → Kind} {S : Sys} (hS : SysReachable kind S) {h : Nat}
    {p : Proc} (hp : S.peers h = .client p) (hrun : p.phase = .running)
    (hoff : p.schedulerOn = false) : p.ownLock = true ∧ p.needLock = false :=
  have hf := hS.reqInv.flags h p hp
  ⟨hf.off_owns hrun hoff, hf.own_not_need (hf.off_owns hrun hoff)⟩

/-- Client `0` registers; `nvsharectl` turns scheduling off from connection `2`, and the client
reads the SCHED_OFF. -/
def offRun : List SysLabel :=
  acceptRun 10 ++ readRun 0 registerMsg 1 ++ [.receive 0] ++ acceptRun 11 ++ acceptRun 12 ++
    readRun 2 (Command.changeStatus false).msg 7 ++ [.receive 0]

/-- The state at the end of `offRun`. -/
def offState : Sys := (Sys.exec toggleKind offRun Sys.init).getD Sys.init

/-- The client of `offState`. -/
def offProc : Proc :=
  match offState.peers 0 with
  | .client p => p
  | _ => Proc.init true

theorem off_client_owns_lock_after_sched_off :
    SysReachable toggleKind offState ∧ offState.peers 0 = .client offProc ∧
      offProc.phase = .running ∧ offProc.schedulerOn = false ∧
      offProc.ownLock = true ∧ offProc.needLock = false := by
  have hS : SysReachable toggleKind offState :=
    @SysReachable.exec toggleKind _ offState offRun .init rfl
  have hp : offState.peers 0 = .client offProc := rfl
  have hrun : offProc.phase = .running := by decide
  have hoff : offProc.schedulerOn = false := by decide
  exact ⟨hS, hp, hrun, hoff, off_client_owns_lock hS hp hrun hoff⟩

end Nvshare
