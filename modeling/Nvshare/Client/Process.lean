import Mathlib.Logic.Function.Basic
import Nvshare.Wire

/-!
# The client library

`client.c` runs inside every CUDA application. `client_fn` registers with the scheduler and then
handles the frames it receives; every application thread passes `continue_with_lock` before a
gated driver call (`cuLaunchKernel` and the `cuMemcpy*` family in `hook.c`); and
`release_early_fn` gives the lock back when the GPU has been idle for a check interval. The three
share `global_mutex`, and each function below is one critical section: one frame handled, one
pass of `continue_with_lock`'s loop, one return of the early releaser's wait. The real driver
call happens after `continue_with_lock` has released the mutex, as a move of its own.

## Representation

* Each function returns the new state and the frames it wrote, in order. The client's writes are
  `true_or_exit (write_whole (...))`: on a connection the scheduler still serves they succeed.
* The application threads are a function from thread numbers to where each thread is.
* `consumed` counts the frames `client_fn` has read from its connection.
* `released` is history: a LOCK_RELEASED was written and no LOCK_OK or SCHED_OFF handled since.
* `cuda_sync_context` blocks under the mutex and changes no variable of this file.
-/

namespace Nvshare

/-- Where `client_fn` is. -/
inductive Phase
  /-- `REGISTER` written; blocked reading the initial status. -/
  | registering
  /-- In the receive loop. -/
  | running
  /-- The process has exited. -/
  | exited
  deriving DecidableEq, Repr

/-- Where an application thread is in a gated hook. -/
inductive AppPc
  /-- Outside the hook. -/
  | idle
  /-- In `pthread_cond_wait (&own_lock_cv)` inside `continue_with_lock`. -/
  | waiting
  /-- Past `continue_with_lock`; the real driver call comes next. -/
  | ready
  deriving DecidableEq, Repr

/-- What `release_early_fn` finds when its interval passes without work. With NVML: the GPU's
utilization is above `0`, is `0`, or the query fails. The fallback times `cuCtxSynchronize`:
`100` ms or more is `busy`, less is `idle`. -/
inductive Probe
  | busy
  | idle
  | nvmlError
  deriving DecidableEq, Repr

/-- The client library's globals in one process, and where its threads are. -/
structure Proc where
  phase : Phase
  schedulerOn : Bool
  ownLock : Bool
  needLock : Bool
  didWork : Bool
  nvmlOk : Bool
  /-- `nvshare_client_id`. -/
  clientId : UInt64
  /-- How many frames `client_fn` has read from its connection. -/
  consumed : Nat
  /-- The application threads. -/
  app : Nat → AppPc
  /-- History: LOCK_RELEASED written, and no LOCK_OK or SCHED_OFF handled since. -/
  released : Bool

/-- The frame `client_fn` writes right after connecting. -/
def registerMsg : Message := ⟨.register, 1234, []⟩

/-- `initialize_client` and `client_fn` up to the read of the initial status; `nvmlOk` is what
`bootstrap_cuda` found. -/
def Proc.init (nvmlOk : Bool) : Proc where
  phase := .registering
  schedulerOn := false
  ownLock := false
  needLock := false
  didWork := false
  nvmlOk := nvmlOk
  clientId := 0
  consumed := 0
  app := fun _ ↦ .idle
  released := false

/-- `client_fn` on the frame that answers its `REGISTER`: the status and the id, or an exit. -/
def Proc.initialStatus (m : Message) (p : Proc) : Proc :=
  match m.type.status, scanHex m.data with
  | some isOn, some id =>
    { p with phase := .running, clientId := id, schedulerOn := isOn, ownLock := !isOn,
             needLock := false }
  | _, _ => { p with phase := .exited }

/-- The body of `client_fn`'s receive loop for one frame, under `global_mutex`. -/
def Proc.handleMsg (m : Message) (p : Proc) : Proc × List Message :=
  match m.type with
  | .lockOk =>
    ({ p with needLock := false, ownLock := true, didWork := true, released := false }, [])
  | .dropLock =>
    if p.ownLock then
      ({ p with ownLock := false, released := true }, [⟨.lockReleased, p.clientId, []⟩])
    else (p, [])
  | .schedOn =>
    if !p.schedulerOn then
      ({ p with schedulerOn := true, needLock := false, ownLock := false }, [])
    else (p, [])
  | .schedOff =>
    if p.schedulerOn then
      ({ p with schedulerOn := false, ownLock := true, needLock := false, released := false }, [])
    else ({ p with released := false }, [])
  | _ => (p, [])

/-- One pass of `continue_with_lock`'s loop for application thread `t`, on entry or when
`pthread_cond_wait` returns: with the lock the thread goes on to the real call; without it, the
first thread to find no request pending asks for the lock on behalf of the process, then it
waits. -/
def Proc.continueWithLock (t : Nat) (p : Proc) : Proc × List Message :=
  if p.ownLock then ({ p with didWork := true, app := Function.update p.app t .ready }, [])
  else if !p.needLock then
    ({ p with needLock := true, app := Function.update p.app t .waiting },
      [⟨.reqLock, p.clientId, []⟩])
  else ({ p with app := Function.update p.app t .waiting }, [])

/-- The real driver call of application thread `t`, which then leaves the hook. -/
def Proc.realCall (t : Nat) (p : Proc) : Proc :=
  { p with app := Function.update p.app t .idle }

/-- The idle branch of `release_early_fn`: give the lock back. -/
def Proc.releaseIdle (p : Proc) : Proc × List Message :=
  ({ p with ownLock := false, released := true }, [⟨.lockReleased, p.clientId, []⟩])

/-- One return of `pthread_cond_timedwait` in `release_early_fn`, and what the thread does until
it waits again. Every path back to the top of the loop clears `did_work`; a signal without work
goes back to waiting for the same deadline. -/
def Proc.releaseEarlyFn (timedOut : Bool) (probe : Probe) (p : Proc) : Proc × List Message :=
  if timedOut then
    let q := { p with didWork := false }
    if !p.schedulerOn || !p.ownLock then (q, [])
    else if p.didWork then (q, [])
    else if p.nvmlOk then
      match probe with
      | .nvmlError => ({ q with nvmlOk := false }, [])
      | .busy => (q, [])
      | .idle => q.releaseIdle
    else if probe = .idle then q.releaseIdle
    else (q, [])
  else if p.didWork then ({ p with didWork := false }, [])
  else (p, [])

/-! ## What each function leaves alone -/

section Frame

variable (p : Proc) (m : Message) (t : Nat) (timedOut : Bool) (probe : Probe)

@[simp] theorem handleMsg_phase : (p.handleMsg m).1.phase = p.phase := by
  unfold Proc.handleMsg; split <;> (try split) <;> rfl

@[simp] theorem handleMsg_consumed : (p.handleMsg m).1.consumed = p.consumed := by
  unfold Proc.handleMsg; split <;> (try split) <;> rfl

/-- A status frame sets `scheduler_on` to its status; no other frame changes it. -/
theorem handleMsg_schedulerOn :
    (p.handleMsg m).1.schedulerOn = m.type.status.getD p.schedulerOn := by
  unfold Proc.handleMsg
  split <;> (try split) <;> simp_all [MessageType.status]

@[simp] theorem continueWithLock_phase : (p.continueWithLock t).1.phase = p.phase := by
  unfold Proc.continueWithLock; split <;> (try split) <;> rfl

@[simp] theorem continueWithLock_consumed : (p.continueWithLock t).1.consumed = p.consumed := by
  unfold Proc.continueWithLock; split <;> (try split) <;> rfl

@[simp] theorem continueWithLock_schedulerOn :
    (p.continueWithLock t).1.schedulerOn = p.schedulerOn := by
  unfold Proc.continueWithLock; split <;> (try split) <;> rfl

/-- What a return of the early releaser's wait does: nothing, clear `did_work` (and after an
NVML error `nvml_ok`), or, with scheduling on and the lock owned, give the lock back. -/
theorem releaseEarlyFn_cases :
    p.releaseEarlyFn timedOut probe = (p, []) ∨
    p.releaseEarlyFn timedOut probe = ({ p with didWork := false }, []) ∨
    p.releaseEarlyFn timedOut probe = ({ p with didWork := false, nvmlOk := false }, []) ∨
    (p.schedulerOn = true ∧ p.ownLock = true ∧ p.releaseEarlyFn timedOut probe =
      ({ p with didWork := false, ownLock := false, released := true },
        [⟨.lockReleased, p.clientId, []⟩])) := by
  generalize hr : p.releaseEarlyFn timedOut probe = r
  unfold Proc.releaseEarlyFn Proc.releaseIdle at hr
  split at hr
  · split at hr
    · exact .inr (.inl hr.symm)
    · next hheld =>
      have hon : p.schedulerOn = true ∧ p.ownLock = true := by simpa using hheld
      split at hr
      · exact .inr (.inl hr.symm)
      · split at hr
        · split at hr
          · exact .inr (.inr (.inl hr.symm))
          · exact .inr (.inl hr.symm)
          · exact .inr (.inr (.inr ⟨hon.1, hon.2, hr.symm⟩))
        · split at hr
          · exact .inr (.inr (.inr ⟨hon.1, hon.2, hr.symm⟩))
          · exact .inr (.inl hr.symm)
  · split at hr
    · exact .inr (.inl hr.symm)
    · exact .inl hr.symm

@[simp] theorem releaseEarlyFn_phase : (p.releaseEarlyFn timedOut probe).1.phase = p.phase := by
  rcases releaseEarlyFn_cases p timedOut probe with h | h | h | ⟨-, -, h⟩ <;> rw [h]

@[simp] theorem releaseEarlyFn_consumed :
    (p.releaseEarlyFn timedOut probe).1.consumed = p.consumed := by
  rcases releaseEarlyFn_cases p timedOut probe with h | h | h | ⟨-, -, h⟩ <;> rw [h]

@[simp] theorem releaseEarlyFn_schedulerOn :
    (p.releaseEarlyFn timedOut probe).1.schedulerOn = p.schedulerOn := by
  rcases releaseEarlyFn_cases p timedOut probe with h | h | h | ⟨-, -, h⟩ <;> rw [h]

@[simp] theorem realCall_phase : (p.realCall t).phase = p.phase := rfl
@[simp] theorem realCall_consumed : (p.realCall t).consumed = p.consumed := rfl
@[simp] theorem realCall_schedulerOn : (p.realCall t).schedulerOn = p.schedulerOn := rfl

@[simp] theorem initialStatus_consumed : (p.initialStatus m).consumed = p.consumed := by
  unfold Proc.initialStatus; split <;> rfl

@[simp] theorem handleMsg_clientId : (p.handleMsg m).1.clientId = p.clientId := by
  unfold Proc.handleMsg; split <;> (try split) <;> rfl

@[simp] theorem continueWithLock_clientId : (p.continueWithLock t).1.clientId = p.clientId := by
  unfold Proc.continueWithLock; split <;> (try split) <;> rfl

@[simp] theorem releaseEarlyFn_clientId :
    (p.releaseEarlyFn timedOut probe).1.clientId = p.clientId := by
  rcases releaseEarlyFn_cases p timedOut probe with h | h | h | ⟨-, -, h⟩ <;> rw [h]

@[simp] theorem realCall_clientId : (p.realCall t).clientId = p.clientId := rfl

/-- The answer to `REGISTER` puts `client_fn` in its loop with the status and the id it carries. -/
theorem initialStatus_answer (b : Bool) (id : UInt64) :
    p.initialStatus ⟨statusType b, 7331, hex16 id⟩ =
      { p with phase := .running, clientId := id, schedulerOn := b, ownLock := !b,
               needLock := false } := by
  simp [Proc.initialStatus, scanHex_hex16]

/-- The initial status frame puts `client_fn` in its loop with that status, or the process
exits. -/
theorem initialStatus_cases :
    (p.initialStatus m).phase = .exited ∨
    ((p.initialStatus m).phase = .running ∧ m.type.status = some (p.initialStatus m).schedulerOn) := by
  unfold Proc.initialStatus; split
  · exact .inr ⟨rfl, ‹_›⟩
  · exact .inl rfl

end Frame

end Nvshare
