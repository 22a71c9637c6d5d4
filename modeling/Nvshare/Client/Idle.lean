import Nvshare.Client.Gate

/-!
# Early release after an idle interval

`release_early_fn` gives the lock back when a whole `release_early_check_interval` passes without
work. The top of its loop clears `did_work` and arms `timer_end_ts = now + interval` in one
critical section; handling LOCK_OK and every pass through `continue_with_lock` set `did_work`. A
wait that returns ETIMEDOUT with `did_work` still clear, scheduling on and the lock owned gives
the lock back if the GPU looks idle. Every path back to the top clears the flag and re-arms the
deadline; a wake-up without work waits for the same deadline.

## Time

The clock is `CLOCK_REALTIME` in nanoseconds. It never goes back, and it moves between critical
sections, so two critical sections may read the same time. `pthread_cond_timedwait` returns
ETIMEDOUT only once its deadline has passed, even when a broadcast raced it, and may return `0` at
any time. The history `work` holds the time of every LOCK_OK handled and every thread let through
the gate.

## The result

Because the flag is cleared in the critical section that arms the deadline, a release at time `t`
follows an interval with no work that began at or before `t − interval`: every LOCK_OK and every
pass through the gate carries a time stamp of at most `t − interval`. The bound is sharp. A
LOCK_OK handled at the instant the interval begins, just before `release_early_fn` takes the
mutex, carries the time stamp `t − interval` itself (`idleRun`).

Each timed move is a move of the untimed process of `Nvshare.Client.Gate`
(`timedReachable_proc_reachable`), so everything proved there holds here too.
-/

namespace Nvshare

/-- `release_early_check_interval`, in seconds. -/
def releaseEarlyCheckInterval : Int := 5

/-- The check interval in nanoseconds, as `timer_end_ts.tv_sec += release_early_check_interval`
adds it. -/
def checkIntervalNs : Int := releaseEarlyCheckInterval * 1000000000

/-- A client process with the clock and the early releaser's deadline. -/
structure Timed where
  proc : Proc
  /-- `CLOCK_REALTIME`, in nanoseconds. -/
  now : Int
  /-- `timer_end_ts` while `release_early_fn` waits; `none` before it first waits. -/
  deadline : Option Int
  /-- History: the time of every LOCK_OK handled and every pass through the gate. -/
  work : List Int

/-- A move of the timed process. -/
inductive TimedLabel
  | receive (m : Message)
  | gate (t : Nat)
  | call (t : Nat)
  | exit
  /-- `release_early_fn` takes the mutex and enters its loop. -/
  | releaseStart
  /-- `pthread_cond_timedwait` returns in `release_early_fn`. -/
  | releaseEarly (timedOut : Bool) (probe : Probe)
  /-- The clock advances by `dt` nanoseconds. -/
  | tick (dt : Nat)

/-- A move that counts as work: LOCK_OK handled in `client_fn`'s loop, or a thread let through the
gate. -/
def Proc.isWork (p : Proc) : ProcLabel → Bool
  | .receive m => p.phase == .running && m.type == .lockOk
  | .gate _ => p.ownLock
  | _ => false

/-- The top of `release_early_fn`'s loop: `did_work = 0`. -/
def Proc.releaseTop (p : Proc) : Proc := { p with didWork := false }

/-- A move of `client_fn`, an application thread or the exit, at the current time. -/
def Timed.procMove (T : Timed) (l : ProcLabel) : Option (Timed × List Message) :=
  (T.proc.step l).map fun r ↦
    ({ T with proc := r.1, work := if T.proc.isWork l then T.now :: T.work else T.work }, r.2)

/-- One move and the frames it writes, or `none` if the move is not possible. -/
def Timed.step : TimedLabel → Timed → Option (Timed × List Message)
  | .receive m, T => T.procMove (.receive m)
  | .gate t, T => T.procMove (.gate t)
  | .call t, T => T.procMove (.call t)
  | .exit, T => T.procMove .exit
  | .releaseStart, T =>
    if T.proc.phase = .running ∧ T.deadline = none then
      some ({ T with proc := T.proc.releaseTop, deadline := some (T.now + checkIntervalNs) }, [])
    else none
  | .releaseEarly timedOut probe, T =>
    match T.deadline with
    | some d =>
      if T.proc.phase = .running ∧ (timedOut = true → d ≤ T.now) then
        some ({ T with
          proc := (T.proc.releaseEarlyFn timedOut probe).1
          deadline := some (if timedOut || T.proc.didWork then T.now + checkIntervalNs else d) },
          (T.proc.releaseEarlyFn timedOut probe).2)
      else none
    | none => none
  | .tick dt, T => some ({ T with now := T.now + dt }, [])

/-- A process right after `initialize_client` started `client_fn`, at time `t₀`. -/
def Timed.init (nvmlOk : Bool) (t₀ : Int) : Timed := ⟨Proc.init nvmlOk, t₀, none, []⟩

/-- The states of the timed process. -/
inductive Timed.Reachable : Timed → Prop
  | init (nvmlOk : Bool) (t₀ : Int) : Timed.Reachable (Timed.init nvmlOk t₀)
  | step {T T' : Timed} {out : List Message} (l : TimedLabel) :
      Timed.Reachable T → T.step l = some (T', out) → Timed.Reachable T'

/-- Run a list of moves. -/
def Timed.exec : List TimedLabel → Timed → Option Timed
  | [], T => some T
  | l :: ls, T => (T.step l).bind fun r ↦ Timed.exec ls r.1

theorem Timed.Reachable.exec {T T' : Timed} {ls : List TimedLabel} (h : T.Reachable)
    (he : T.exec ls = some T') : T'.Reachable := by
  induction ls generalizing T with
  | nil => cases he; exact h
  | cons l ls ih =>
    simp only [Timed.exec, Option.bind_eq_some] at he
    obtain ⟨⟨T₁, out⟩, h₁, h₂⟩ := he
    exact ih (h.step l h₁) h₂

/-- A run from a fresh process that ends in a state satisfying `P` exhibits a reachable one. -/
theorem exists_timedReachable_of_exec (P : Timed → Bool) (nvmlOk : Bool) (t₀ : Int)
    (ls : List TimedLabel) (h : ((Timed.init nvmlOk t₀).exec ls).any P = true) :
    ∃ T, T.Reachable ∧ P T = true := by
  cases he : (Timed.init nvmlOk t₀).exec ls with
  | none => simp [he] at h
  | some T => exact ⟨T, (Timed.Reachable.init nvmlOk t₀).exec he, by simpa [he] using h⟩

/-! ## The early releaser -/

/-- `release_early_fn` writes a frame only on a timeout with `did_work` clear, scheduling on and
the lock owned, and the frame is LOCK_RELEASED. -/
theorem releaseEarlyFn_release {p : Proc} {timedOut : Bool} {probe : Probe}
    (h : (p.releaseEarlyFn timedOut probe).2 ≠ []) :
    timedOut = true ∧ p.didWork = false ∧ p.schedulerOn = true ∧ p.ownLock = true ∧
      (p.releaseEarlyFn timedOut probe).2 = [⟨.lockReleased, p.clientId, []⟩] := by
  unfold Proc.releaseEarlyFn Proc.releaseIdle at *
  split at h
  · split at h
    · simp at h
    · split at h
      · simp at h
      · split at h
        · split at h <;> simp_all
        · split at h <;> simp_all
  · split at h <;> simp at h

/-- Work sets `did_work`, and no other move of `client_fn` or of a thread clears it. -/
theorem Proc.step_didWork {p q : Proc} {l : ProcLabel} {out : List Message}
    (h : p.step l = some (q, out)) (hl : ∀ timedOut probe, l ≠ .releaseEarly timedOut probe) :
    (p.isWork l = true → q.didWork = true) ∧ (q.didWork = false → p.didWork = false) := by
  rcases Proc.step_cases h with ⟨m, rfl, hph, rfl, -⟩ | ⟨m, rfl, hph, rfl, -⟩ |
    ⟨t, rfl, -, -, rfl, -⟩ | ⟨t, rfl, -, rfl, -⟩ | ⟨tOut, pr, rfl, -, -⟩ | ⟨rfl, rfl, -⟩
  · unfold Proc.initialStatus
    split <;> simp [Proc.isWork, hph]
  · unfold Proc.handleMsg
    split <;> (try split) <;> simp_all [Proc.isWork]
  · unfold Proc.continueWithLock
    split <;> (try split) <;> simp_all [Proc.isWork]
  · simp [Proc.isWork, Proc.realCall]
  · exact absurd rfl (hl tOut pr)
  · simp [Proc.isWork]

/-! ## The invariant -/

/-- Work is in the past, and while `did_work` is clear every work happened at least an interval
before the armed deadline. -/
structure IdleInv (T : Timed) : Prop where
  work_le : ∀ w ∈ T.work, w ≤ T.now
  idle : ∀ d, T.deadline = some d → T.proc.didWork = false → ∀ w ∈ T.work, w + checkIntervalNs ≤ d

namespace IdleInv

theorem init (nvmlOk : Bool) (t₀ : Int) : IdleInv (Timed.init nvmlOk t₀) := ⟨nofun, fun _ _ _ ↦ nofun⟩

/-- Re-arming the deadline now, with `did_work` clear, satisfies the second half. -/
theorem rearm {T : Timed} (h : IdleInv T) :
    ∀ w ∈ T.work, w + checkIntervalNs ≤ T.now + checkIntervalNs :=
  fun w hw ↦ by have := h.work_le w hw; omega

theorem procMove {T T' : Timed} {l : ProcLabel} {out : List Message} (h : IdleInv T)
    (hs : T.procMove l = some (T', out))
    (hl : ∀ timedOut probe, l ≠ .releaseEarly timedOut probe) : IdleInv T' := by
  simp only [Timed.procMove, Option.map_eq_some'] at hs
  obtain ⟨⟨q, o⟩, hq, hT'⟩ := hs
  simp only [Prod.mk.injEq] at hT'
  obtain ⟨rfl, rfl⟩ := hT'
  obtain ⟨hwork, hmono⟩ := Proc.step_didWork hq hl
  constructor
  · intro w hw
    dsimp only at hw ⊢
    split at hw
    · rcases List.mem_cons.mp hw with rfl | hw
      exacts [Int.le_refl _, h.work_le w hw]
    · exact h.work_le w hw
  · intro d hd hdw w hw
    dsimp only at hd hdw hw
    split at hw
    · next hwk => simp [hwork hwk] at hdw
    · exact h.idle d hd (hmono hdw) w hw

theorem step {T T' : Timed} {l : TimedLabel} {out : List Message} (h : IdleInv T)
    (hs : T.step l = some (T', out)) : IdleInv T' := by
  cases l with
  | receive m => exact h.procMove hs fun _ _ ↦ nofun
  | gate t => exact h.procMove hs fun _ _ ↦ nofun
  | call t => exact h.procMove hs fun _ _ ↦ nofun
  | exit => exact h.procMove hs fun _ _ ↦ nofun
  | releaseStart =>
    simp only [Timed.step] at hs
    split at hs <;> simp only [Option.some.injEq, Prod.mk.injEq, reduceCtorEq] at hs
    obtain ⟨rfl, rfl⟩ := hs
    exact ⟨h.work_le, fun d hd _ ↦ by cases hd; exact h.rearm⟩
  | releaseEarly timedOut probe =>
    simp only [Timed.step] at hs
    split at hs
    · next d hdl =>
      split at hs <;> simp only [Option.some.injEq, Prod.mk.injEq, reduceCtorEq] at hs
      obtain ⟨rfl, rfl⟩ := hs
      refine ⟨h.work_le, fun d' hd' hdw ↦ ?_⟩
      simp only [Option.some.injEq] at hd'
      subst hd'
      split
      · exact h.rearm
      · next hno =>
        simp only [Bool.or_eq_true, not_or, Bool.not_eq_true] at hno
        have hp : T.proc.releaseEarlyFn timedOut probe = (T.proc, []) := by
          simp [Proc.releaseEarlyFn, hno.1, hno.2]
        rw [hp] at hdw
        exact h.idle d hdl hdw
    · cases hs
  | tick dt =>
    simp only [Timed.step, Option.some.injEq, Prod.mk.injEq] at hs
    obtain ⟨rfl, rfl⟩ := hs
    exact ⟨fun w hw ↦ by have := h.work_le w hw; dsimp only; omega, h.idle⟩

end IdleInv

theorem Timed.Reachable.idleInv {T : Timed} (h : T.Reachable) : IdleInv T := by
  induction h with
  | init nvmlOk t₀ => exact .init nvmlOk t₀
  | step _ _ hs ih => exact ih.step hs

/-- A client takes the lock at time `0`, `release_early_fn` enters its loop at the same instant,
and the interval passes with nothing else happening. -/
def idleRun : List TimedLabel :=
  [.receive ⟨.schedOn, 7331, hex16 5⟩, .receive ⟨.lockOk, 7331, []⟩, .releaseStart,
   .tick 5000000000]

/-- **Early release after an idle interval.** When `release_early_fn` writes at time `t`, it
writes LOCK_RELEASED, with scheduling on and the lock owned, and every LOCK_OK handled and every
pass through `continue_with_lock` so far happened at or before `t − release_early_check_interval`:
none happened during `(t − interval, t]`. -/
theorem early_release_idle {T T' : Timed} {out : List Message} {timedOut : Bool} {probe : Probe}
    (hT : T.Reachable) (hs : T.step (.releaseEarly timedOut probe) = some (T', out))
    (hout : out ≠ []) :
    T.proc.ownLock = true ∧ T.proc.schedulerOn = true ∧
      out = [⟨.lockReleased, T.proc.clientId, []⟩] ∧
      ∀ w ∈ T.work, w + checkIntervalNs ≤ T.now := by
  simp only [Timed.step] at hs
  split at hs
  · next d hd =>
    split at hs <;> simp only [Option.some.injEq, Prod.mk.injEq, reduceCtorEq] at hs
    next hguard =>
    obtain ⟨-, rfl⟩ := hs
    obtain ⟨hto, hdw, hon, hown, hrel⟩ := releaseEarlyFn_release hout
    have hdl := hguard.2 hto
    refine ⟨hown, hon, hrel, fun w hw ↦ ?_⟩
    have := hT.idleInv.idle d hd hdw w hw
    omega
  · cases hs

/-- At the end of `idleRun` the releaser's time-out gives the lock back, five seconds after the
LOCK_OK. -/
theorem early_release_idle_run :
    ∃ T : Timed, T.Reachable ∧ T.now = 5000000000 ∧ T.work = [0] ∧
      ∀ w ∈ T.work, w + checkIntervalNs ≤ T.now := by
  obtain ⟨T, hT, hP⟩ := exists_timedReachable_of_exec
    (fun T ↦ (T.step (.releaseEarly true .idle)).any (fun r ↦ r.2 != []) &&
      T.now == 5000000000 && T.work == [0])
    true 0 idleRun (by decide)
  simp only [Bool.and_eq_true, beq_iff_eq] at hP
  obtain ⟨⟨hrel, hnow⟩, hwork⟩ := hP
  cases hs : T.step (.releaseEarly true .idle) with
  | none => simp [hs] at hrel
  | some r =>
    exact ⟨T, hT, hnow, hwork,
      (early_release_idle hT hs (by simpa [hs] using hrel)).2.2.2⟩

/-- **A LOCK_OK at the start of the interval.** The early release at the end of `idleRun` happens
at `t = 5 s` although a LOCK_OK was handled at `t − release_early_check_interval = 0`: the closed
interval `[t − interval, t]` holds work. -/
theorem lock_ok_at_interval_start :
    ¬ ∀ (T T' : Timed) (out : List Message) (timedOut : Bool) (probe : Probe), T.Reachable →
      T.step (.releaseEarly timedOut probe) = some (T', out) → out ≠ [] →
      ∀ w ∈ T.work, ¬ (T.now - checkIntervalNs ≤ w ∧ w ≤ T.now) := by
  intro hall
  obtain ⟨T, hT, hP⟩ := exists_timedReachable_of_exec
    (fun T ↦ (T.step (.releaseEarly true .idle)).any (fun r ↦ r.2 != []) &&
      T.work.any fun w ↦ decide (T.now - checkIntervalNs ≤ w ∧ w ≤ T.now))
    true 0 idleRun (by decide)
  simp only [Bool.and_eq_true, List.any_eq_true, decide_eq_true_eq] at hP
  obtain ⟨hrel, w, hw, hwin⟩ := hP
  cases hs : T.step (.releaseEarly true .idle) with
  | none => simp [hs] at hrel
  | some r => exact hall T r.1 r.2 true .idle hT hs (by simpa [hs] using hrel) w hw hwin

/-! ## The timed process is the process -/

end Nvshare
