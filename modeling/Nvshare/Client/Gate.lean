import Nvshare.Client.Process

/-!
# One client process and its gate

`client.c` on its own: `client_fn` handling whatever frames arrive, any number of application
threads in `continue_with_lock` and in the real driver call, and `release_early_fn`, interleaved
at `global_mutex` granularity. The frames are arbitrary, so what is proved here holds whatever the
scheduler sends. In the composed system (`Nvshare.System.Step`) each client move is one of the
moves below, with the frame the scheduler wrote.

## The gate

`need_lock` says that a REQ_LOCK is outstanding. `continue_with_lock` writes REQ_LOCK only when it
finds `need_lock = 0`, and sets it; only LOCK_OK, SCHED_ON while off and SCHED_OFF while on clear
it again (and the initial status, before any application thread runs). So a run with none of
those frames writes at most one REQ_LOCK, and none if one is outstanding already.

`own_lock` plays the same part for LOCK_RELEASED: it is written only when `own_lock` goes from
`1` to `0`, and only LOCK_OK and SCHED_OFF set `own_lock`. Both bounds are one lemma about runs,
`Proc.exec_countP_le`, applied to a flag and a frame type.
-/

namespace Nvshare

/-- A move of one client process. -/
inductive ProcLabel
  /-- `client_fn` reads `m` and handles it: the initial status, or one frame of its loop. -/
  | receive (m : Message)
  /-- Application thread `t` runs `continue_with_lock`'s loop once: on entering a gated hook, or
  when its `pthread_cond_wait` returns. -/
  | gate (t : Nat)
  /-- Application thread `t` issues the real driver call. -/
  | call (t : Nat)
  /-- `pthread_cond_timedwait` returns in `release_early_fn`. -/
  | releaseEarly (timedOut : Bool) (probe : Probe)
  /-- The process exits. -/
  | exit

/-- One move and the frames it writes, or `none` if the move is not possible. Application
threads run once `initialize_client` has returned, that is once the initial status is read. -/
def Proc.step : ProcLabel → Proc → Option (Proc × List Message)
  | .receive m, p =>
    match p.phase with
    | .registering => some ({ p with consumed := p.consumed + 1 }.initialStatus m, [])
    | .running => some ({ p with consumed := p.consumed + 1 }.handleMsg m)
    | .exited => none
  | .gate t, p =>
    if p.phase = .running ∧ p.app t ≠ .ready then some (p.continueWithLock t) else none
  | .call t, p => if p.phase = .running ∧ p.app t = .ready then some (p.realCall t, []) else none
  | .releaseEarly timedOut probe, p =>
    if p.phase = .running then some (p.releaseEarlyFn timedOut probe) else none
  | .exit, p => some ({ p with phase := .exited }, [])

/-- The states of a client process from `initialize_client` on. -/
inductive Proc.Reachable : Proc → Prop
  | init (nvmlOk : Bool) : Proc.Reachable (Proc.init nvmlOk)
  | step {p q : Proc} {out : List Message} (l : ProcLabel) :
      Proc.Reachable p → p.step l = some (q, out) → Proc.Reachable q

/-- Run a list of moves: the final state and every frame written, in order. -/
def Proc.exec : List ProcLabel → Proc → Option (Proc × List Message)
  | [], p => some (p, [])
  | l :: ls, p => (p.step l).bind fun r ↦ (Proc.exec ls r.1).map fun r' ↦ (r'.1, r.2 ++ r'.2)

/-- Whether some move of a run satisfies `P` in the state it is taken from. -/
def Proc.anyMove (P : Proc → ProcLabel → Bool) : List ProcLabel → Proc → Bool
  | [], _ => false
  | l :: ls, p => P p l || match p.step l with
    | some r => Proc.anyMove P ls r.1
    | none => false

/-- Handling `m` in the loop clears `need_lock`: LOCK_OK, SCHED_ON while off, SCHED_OFF while on. -/
def Proc.clearsNeed (p : Proc) (m : Message) : Bool :=
  m.type == .lockOk || m.type == .schedOn && !p.schedulerOn || m.type == .schedOff && p.schedulerOn

/-- A move of `client_fn`'s loop that clears `need_lock`. -/
def Proc.clearingMove (p : Proc) : ProcLabel → Bool
  | .receive m => p.phase == .running && p.clearsNeed m
  | _ => false

/-- A move of `client_fn` that processes LOCK_OK or SCHED_OFF, the initial status included. -/
def Proc.grantingMove (_ : Proc) : ProcLabel → Bool
  | .receive m => m.type == .lockOk || m.type == .schedOff
  | _ => false

/-! ## What each function does to the flags -/

section Flags

variable (p : Proc) (m : Message) (t : Nat)

theorem handleMsg_needLock : (p.handleMsg m).1.needLock = (p.needLock && !p.clearsNeed m) := by
  unfold Proc.handleMsg Proc.clearsNeed
  split <;> (try split) <;> simp_all

/-- Only LOCK_OK and SCHED_OFF give the lock to the process, and DROP_LOCK takes it away. -/
theorem handleMsg_ownLock (h₁ : m.type ≠ .lockOk) (h₂ : m.type ≠ .schedOff)
    (h : (p.handleMsg m).1.ownLock = true) : p.ownLock = true ∧ m.type ≠ .dropLock := by
  revert h
  unfold Proc.handleMsg
  split <;> (try split) <;> simp_all

/-- Owning the lock with no request outstanding survives every frame. -/
theorem handleMsg_own_not_need (h : p.ownLock = true → p.needLock = false) :
    (p.handleMsg m).1.ownLock = true → (p.handleMsg m).1.needLock = false := by
  unfold Proc.handleMsg
  split <;> (try split) <;> simp_all

/-- `client_fn`'s loop writes one frame: LOCK_RELEASED, on DROP_LOCK with the lock owned. -/
theorem handleMsg_frames : (p.handleMsg m).2 =
    if m.type = .dropLock ∧ p.ownLock = true then [⟨.lockReleased, p.clientId, []⟩] else [] := by
  unfold Proc.handleMsg
  split <;> (try split) <;> simp_all

theorem continueWithLock_frames : (p.continueWithLock t).2 =
    if p.ownLock = false ∧ p.needLock = false then [⟨.reqLock, p.clientId, []⟩] else [] := by
  unfold Proc.continueWithLock
  split <;> (try split) <;> simp_all

theorem continueWithLock_needLock :
    (p.continueWithLock t).1.needLock = (p.needLock || !p.ownLock) := by
  unfold Proc.continueWithLock
  split <;> (try split) <;> simp_all

@[simp] theorem continueWithLock_ownLock : (p.continueWithLock t).1.ownLock = p.ownLock := by
  unfold Proc.continueWithLock
  split <;> (try split) <;> rfl

/-- A thread leaves `continue_with_lock` only with the lock owned. -/
theorem continueWithLock_app :
    (p.continueWithLock t).1.app t = if p.ownLock then .ready else .waiting := by
  unfold Proc.continueWithLock
  split <;> (try split) <;> simp_all

end Flags

/-- What one move can do. -/
theorem Proc.step_cases {p q : Proc} {l : ProcLabel} {out : List Message}
    (h : p.step l = some (q, out)) :
    (∃ m, l = .receive m ∧ p.phase = .registering ∧
      q = { p with consumed := p.consumed + 1 }.initialStatus m ∧ out = []) ∨
    (∃ m, l = .receive m ∧ p.phase = .running ∧
      q = ({ p with consumed := p.consumed + 1 }.handleMsg m).1 ∧
      out = ({ p with consumed := p.consumed + 1 }.handleMsg m).2) ∨
    (∃ t, l = .gate t ∧ p.phase = .running ∧ p.app t ≠ .ready ∧
      q = (p.continueWithLock t).1 ∧ out = (p.continueWithLock t).2) ∨
    (∃ t, l = .call t ∧ p.phase = .running ∧ q = p.realCall t ∧ out = []) ∨
    (∃ timedOut probe, l = .releaseEarly timedOut probe ∧ p.phase = .running ∧
      q = (p.releaseEarlyFn timedOut probe).1 ∧ out = (p.releaseEarlyFn timedOut probe).2) ∨
    (l = .exit ∧ q = { p with phase := .exited } ∧ out = []) := by
  cases l with
  | receive m =>
    simp only [Proc.step] at h
    split at h <;> simp only [Option.some.injEq, Prod.mk.injEq, reduceCtorEq] at h
    · exact .inl ⟨m, rfl, ‹_›, h.1.symm, h.2.symm⟩
    · exact .inr (.inl ⟨m, rfl, ‹_›, by rw [h], by rw [h]⟩)
  | gate t =>
    simp only [Proc.step] at h
    split at h <;> simp only [Option.some.injEq, reduceCtorEq] at h
    exact .inr (.inr (.inl ⟨t, rfl, ‹_ ∧ _›.1, ‹_ ∧ _›.2, by rw [h], by rw [h]⟩))
  | call t =>
    simp only [Proc.step] at h
    split at h <;> simp only [Option.some.injEq, Prod.mk.injEq, reduceCtorEq] at h
    exact .inr (.inr (.inr (.inl ⟨t, rfl, ‹_ ∧ _›.1, h.1.symm, h.2.symm⟩)))
  | releaseEarly timedOut probe =>
    simp only [Proc.step] at h
    split at h <;> simp only [Option.some.injEq, reduceCtorEq] at h
    exact .inr (.inr (.inr (.inr (.inl ⟨timedOut, probe, rfl, ‹_›, by rw [h], by rw [h]⟩))))
  | exit =>
    simp only [Proc.step, Option.some.injEq, Prod.mk.injEq] at h
    exact .inr (.inr (.inr (.inr (.inr ⟨rfl, h.1.symm, h.2.symm⟩))))

/-! ## The invariant -/

/-- Owning the lock means no request is outstanding, and none is before the initial status. -/
structure GateInv (p : Proc) : Prop where
  own_not_need : p.ownLock = true → p.needLock = false
  registering : p.phase = .registering → p.needLock = false

namespace GateInv

theorem init (nvmlOk : Bool) : GateInv (Proc.init nvmlOk) := ⟨nofun, fun _ ↦ rfl⟩

theorem step {p q : Proc} {l : ProcLabel} {out : List Message} (hI : GateInv p)
    (h : p.step l = some (q, out)) : GateInv q := by
  rcases Proc.step_cases h with ⟨m, -, hph, rfl, -⟩ | ⟨m, -, hph, rfl, -⟩ | ⟨t, -, hph, -, rfl, -⟩ |
    ⟨t, -, -, rfl, -⟩ | ⟨tOut, pr, -, hph, rfl, -⟩ | ⟨-, rfl, -⟩
  · have hn := hI.registering hph
    unfold Proc.initialStatus
    split
    · exact ⟨fun _ ↦ rfl, nofun⟩
    · exact ⟨fun ho ↦ hI.own_not_need ho, fun _ ↦ hn⟩
  · exact ⟨handleMsg_own_not_need _ _ hI.own_not_need, by simp [hph]⟩
  · refine ⟨fun ho ↦ ?_, by simp [hph]⟩
    simp only [continueWithLock_ownLock] at ho
    simp [continueWithLock_needLock, ho, hI.own_not_need ho]
  · exact ⟨hI.own_not_need, hI.registering⟩
  · refine ⟨fun ho ↦ ?_, by simp [hph]⟩
    rcases releaseEarlyFn_cases p tOut pr with hr | hr | hr | ⟨-, -, hr⟩ <;> rw [hr] at ho ⊢
    all_goals first | exact hI.own_not_need ho | cases ho
  · exact ⟨hI.own_not_need, nofun⟩

end GateInv

theorem Proc.Reachable.gateInv {p : Proc} (h : p.Reachable) : GateInv p := by
  induction h with
  | init nvmlOk => exact .init nvmlOk
  | step _ _ hs ih => exact ih.step hs

/-! ## Counting frames over runs -/

section Runs

variable (I : Proc → Prop) (P : Proc → ProcLabel → Bool) (f : Proc → Bool) (x : Message → Bool)

/-- A flag `f` that a move without `P` never clears, and that every move writing a frame of kind
`x` sets, bounds the frames of kind `x` of a run without `P`: one at most, none if `f` is set at
the start. -/
theorem Proc.exec_countP_le
    (hI : ∀ {p l q out}, I p → p.step l = some (q, out) → I q)
    (hstep : ∀ {p l q out}, I p → p.step l = some (q, out) → P p l = false →
      (f p = true → f q = true ∧ out.countP x = 0) ∧ out.countP x ≤ 1 ∧
        (out.countP x ≠ 0 → f q = true)) :
    ∀ (ls : List ProcLabel) {p q : Proc} {out : List Message}, I p →
      p.exec ls = some (q, out) → Proc.anyMove P ls p = false →
      out.countP x ≤ if f p then 0 else 1
  | [], p, q, out, _, he, _ => by
    simp only [Proc.exec, Option.some.injEq, Prod.mk.injEq] at he
    simp [← he.2]
  | l :: ls, p, q, out, hp, he, hP => by
    simp only [Proc.exec, Option.bind_eq_some, Option.map_eq_some'] at he
    obtain ⟨⟨p₁, o₁⟩, h₁, ⟨q', o₂⟩, h₂, he⟩ := he
    simp only [Prod.mk.injEq] at he
    obtain ⟨rfl, rfl⟩ := he
    simp only [Proc.anyMove, h₁, Bool.or_eq_false_iff] at hP
    have ih := Proc.exec_countP_le hI hstep ls (hI hp h₁) h₂ hP.2
    obtain ⟨hset, hle, hwrite⟩ := hstep hp h₁ hP.1
    rw [List.countP_append]
    cases hf : f p
    · simp only [Bool.false_eq_true, if_false]
      by_cases h0 : o₁.countP x = 0
      · have : o₂.countP x ≤ 1 := ih.trans (by split <;> omega)
        omega
      · simp only [hwrite h0, if_true] at ih
        omega
    · obtain ⟨hf₁, h0⟩ := hset hf
      simp only [hf₁, if_true] at ih
      simp only [if_true]; omega

end Runs

/-! ## REQ_LOCK and LOCK_RELEASED -/

/-- A move that does not clear `need_lock` keeps it set, and writes at most one REQ_LOCK, only
when it sets `need_lock`. -/
theorem Proc.step_reqLock {p q : Proc} {l : ProcLabel} {out : List Message} (hI : GateInv p)
    (h : p.step l = some (q, out)) (hc : p.clearingMove l = false) :
    (p.needLock = true → q.needLock = true ∧ out.countP (·.type == .reqLock) = 0) ∧
    out.countP (·.type == .reqLock) ≤ 1 ∧
    (out.countP (·.type == .reqLock) ≠ 0 → q.needLock = true) := by
  rcases Proc.step_cases h with ⟨m, -, hph, rfl, rfl⟩ | ⟨m, rfl, hph, rfl, rfl⟩ |
    ⟨t, -, -, -, rfl, rfl⟩ | ⟨t, -, -, rfl, rfl⟩ | ⟨tOut, pr, -, -, rfl, rfl⟩ | ⟨-, rfl, rfl⟩
  · simp [hI.registering hph]
  · have hcl : p.clearsNeed m = false := by simpa [Proc.clearingMove, hph] using hc
    rw [handleMsg_frames, handleMsg_needLock, show Proc.clearsNeed { p with consumed := p.consumed + 1 } m =
      p.clearsNeed m from rfl, hcl, Bool.not_false, Bool.and_true]
    split <;> simp
  · rw [continueWithLock_frames, continueWithLock_needLock]
    split <;> simp_all
  · simp [Proc.realCall]
  · rcases releaseEarlyFn_cases p tOut pr with hr | hr | hr | ⟨-, -, hr⟩ <;> rw [hr] <;> simp
  · simp

/-- A move that processes neither LOCK_OK nor SCHED_OFF never gives the process the lock, and
writes at most one LOCK_RELEASED, only when it takes the lock away. -/
theorem Proc.step_lockReleased {p q : Proc} {l : ProcLabel} {out : List Message}
    (h : p.step l = some (q, out)) (hg : p.grantingMove l = false) :
    (p.ownLock = false → q.ownLock = false ∧ out.countP (·.type == .lockReleased) = 0) ∧
    out.countP (·.type == .lockReleased) ≤ 1 ∧
    (out.countP (·.type == .lockReleased) ≠ 0 → q.ownLock = false) := by
  rcases Proc.step_cases h with ⟨m, rfl, -, rfl, rfl⟩ | ⟨m, rfl, -, rfl, rfl⟩ |
    ⟨t, -, -, -, rfl, rfl⟩ | ⟨t, -, -, rfl, rfl⟩ | ⟨tOut, pr, -, -, rfl, rfl⟩ | ⟨-, rfl, rfl⟩
  · simp only [Proc.grantingMove, Bool.or_eq_false_iff, beq_eq_false_iff_ne] at hg
    unfold Proc.initialStatus
    split
    · next isOn id hst _ =>
      have hon : isOn = true := by
        revert hst; cases hm : m.type <;> simp_all [MessageType.status]
      simp [hon]
    · simp
  · simp only [Proc.grantingMove, Bool.or_eq_false_iff, beq_eq_false_iff_ne] at hg
    have hown := handleMsg_ownLock { p with consumed := p.consumed + 1 } m hg.1 hg.2
    rw [handleMsg_frames]
    split
    · next hd => exact ⟨by simp_all, by simp, fun _ ↦ by
        cases ho : ({ p with consumed := p.consumed + 1 }.handleMsg m).1.ownLock
        · rfl
        · exact absurd hd.1 (hown ho).2⟩
    · refine ⟨fun hp ↦ ⟨?_, by simp⟩, by simp, by simp⟩
      cases ho : ({ p with consumed := p.consumed + 1 }.handleMsg m).1.ownLock
      · rfl
      · simpa [hp] using (hown ho).1
  · rw [continueWithLock_frames]
    split <;> simp
  · simp [Proc.realCall]
  · rcases releaseEarlyFn_cases p tOut pr with hr | hr | hr | ⟨-, hown, hr⟩ <;> rw [hr]
    · simp
    · simp
    · simp
    · simp [hown]
  · simp

/-- Only an application thread in `continue_with_lock` writes REQ_LOCK, and only without the lock. -/
theorem Proc.step_reqLock_writer {p q : Proc} {l : ProcLabel} {out : List Message}
    (h : p.step l = some (q, out)) (hm : ∃ m ∈ out, m.type = .reqLock) :
    p.ownLock = false ∧ ∃ t, l = .gate t := by
  obtain ⟨m', hm', ht⟩ := hm
  rcases Proc.step_cases h with ⟨m, -, -, -, rfl⟩ | ⟨m, -, -, -, rfl⟩ | ⟨t, rfl, -, -, -, rfl⟩ |
    ⟨t, -, -, -, rfl⟩ | ⟨tOut, pr, -, -, -, rfl⟩ | ⟨-, -, rfl⟩
  · cases hm'
  · rw [handleMsg_frames] at hm'
    split at hm' <;> simp_all
  · rw [continueWithLock_frames] at hm'
    split at hm' <;> simp_all
  · cases hm'
  · rcases releaseEarlyFn_cases p tOut pr with hr | hr | hr | ⟨-, -, hr⟩ <;> rw [hr] at hm' <;>
      simp_all
  · cases hm'

/-- LOCK_RELEASED is written only by DROP_LOCK handling and by the early releaser, each time as
`own_lock` goes from `1` to `0`. -/
theorem Proc.step_lockReleased_writer {p q : Proc} {l : ProcLabel} {out : List Message}
    (h : p.step l = some (q, out)) (hm : ∃ m ∈ out, m.type = .lockReleased) :
    p.ownLock = true ∧ q.ownLock = false ∧
      ((∃ m, l = .receive m ∧ m.type = .dropLock) ∨ ∃ timedOut probe, l = .releaseEarly timedOut probe) := by
  obtain ⟨m', hm', ht⟩ := hm
  rcases Proc.step_cases h with ⟨m, -, -, -, rfl⟩ | ⟨m, rfl, -, rfl, rfl⟩ | ⟨t, -, -, -, -, rfl⟩ |
    ⟨t, -, -, -, rfl⟩ | ⟨tOut, pr, rfl, -, rfl, rfl⟩ | ⟨-, -, rfl⟩
  · cases hm'
  · rw [handleMsg_frames] at hm'
    split at hm'
    · next hd =>
      refine ⟨hd.2, ?_, .inl ⟨m, rfl, hd.1⟩⟩
      cases ho : ({ p with consumed := p.consumed + 1 }.handleMsg m).1.ownLock
      · rfl
      · exact absurd hd.1 (handleMsg_ownLock _ m (by simp [hd.1]) (by simp [hd.1]) ho).2
    · cases hm'
  · rw [continueWithLock_frames] at hm'
    split at hm' <;> simp_all
  · cases hm'
  · rcases releaseEarlyFn_cases p tOut pr with hr | hr | hr | ⟨-, hown, hr⟩ <;> rw [hr] at hm' ⊢
    · cases hm'
    · cases hm'
    · cases hm'
    · exact ⟨hown, rfl, .inr ⟨tOut, pr, rfl⟩⟩
  · cases hm'

/-- **The client gate.** In every state of a client process, whatever frames it receives and
however many application threads it runs: (1) owning the lock means no request is outstanding;
(2) REQ_LOCK is written only by `continue_with_lock` without the lock, and a run with no frame
that clears `need_lock` writes at most one, none if one is outstanding; (3) LOCK_RELEASED is
written only by DROP_LOCK handling or the early releaser, as `own_lock` goes from `1` to `0`, and a
run that processes no LOCK_OK and no SCHED_OFF writes at most one, none without the lock;
(4) `continue_with_lock` lets a thread through only with the lock. -/
theorem client_gate {p : Proc} (hp : p.Reachable) :
    (p.ownLock = true → p.needLock = false) ∧
    (∀ l q out, p.step l = some (q, out) → (∃ m ∈ out, m.type = .reqLock) →
      p.ownLock = false ∧ ∃ t, l = .gate t) ∧
    (∀ ls q out, p.exec ls = some (q, out) → Proc.anyMove Proc.clearingMove ls p = false →
      out.countP (·.type == .reqLock) ≤ if p.needLock then 0 else 1) ∧
    (∀ l q out, p.step l = some (q, out) → (∃ m ∈ out, m.type = .lockReleased) →
      p.ownLock = true ∧ q.ownLock = false ∧
      ((∃ m, l = .receive m ∧ m.type = .dropLock) ∨
        ∃ timedOut probe, l = .releaseEarly timedOut probe)) ∧
    (∀ ls q out, p.exec ls = some (q, out) → Proc.anyMove Proc.grantingMove ls p = false →
      out.countP (·.type == .lockReleased) ≤ if p.ownLock then 1 else 0) ∧
    (∀ t q out, p.step (.gate t) = some (q, out) → q.app t = .ready → p.ownLock = true) := by
  refine ⟨hp.gateInv.own_not_need, fun _ _ _ h hm ↦ Proc.step_reqLock_writer h hm,
    fun ls _ _ he hc ↦ Proc.exec_countP_le GateInv Proc.clearingMove Proc.needLock _
      (fun hI h ↦ hI.step h) (fun hI h hc ↦ Proc.step_reqLock hI h hc) ls hp.gateInv he hc,
    fun _ _ _ h hm ↦ Proc.step_lockReleased_writer h hm, fun ls _ _ he hg ↦ ?_, fun t _ _ h hq ↦ ?_⟩
  · have := Proc.exec_countP_le (fun _ ↦ True) Proc.grantingMove (fun p ↦ !p.ownLock)
      (·.type == .lockReleased) (fun _ _ ↦ trivial) (fun _ h hg ↦ by
        simpa using Proc.step_lockReleased h hg) ls trivial he hg
    cases hown : p.ownLock <;> simp_all
  · rcases Proc.step_cases h with ⟨_, ⟨⟩, -⟩ | ⟨_, ⟨⟩, -⟩ | ⟨t', ⟨⟩, -, -, rfl, -⟩ | ⟨_, ⟨⟩, -⟩ |
      ⟨_, _, ⟨⟩, -⟩ | ⟨⟨⟩, -⟩
    rw [continueWithLock_app] at hq
    revert hq; cases p.ownLock <;> simp

/-- Three application threads of a fresh process enter their gated hooks with scheduling on:
together they write at most one REQ_LOCK. -/
theorem client_gate_three_threads :
    ((Proc.init true).exec [.receive ⟨.schedOn, 7331, hex16 5⟩, .gate 0, .gate 1, .gate 2]).all
      (fun r ↦ r.2.countP (·.type == .reqLock) ≤ 1) = true := by
  cases he : (Proc.init true).exec [.receive ⟨.schedOn, 7331, hex16 5⟩, .gate 0, .gate 1, .gate 2]
  · rfl
  · simpa using (client_gate (.init true)).2.2.1 _ _ _ he (by decide)

end Nvshare
