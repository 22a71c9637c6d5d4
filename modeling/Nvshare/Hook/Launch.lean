import Nvshare.Common.Time

/-!
# The window of pending kernels

After the real launch, `cuLaunchKernel` (`hook.c`) counts the kernels submitted since the last
`cuCtxSynchronize` in `kern_since_sync`. When the count reaches `pending_kernel_window` it
synchronises the context, times the sync, and sizes the window by it: back to `1` after a sync of
`KERN_SYNC_DURATION_BIG` seconds or more, halved (not below `1`) after one of
`KERN_SYNC_WINDOW_STEPDOWN_THRESH` seconds or more, doubled (up to `KERN_SYNC_WINDOW_MAX`) after a
shorter one. Both globals are `int`s, updated under `kcount_mutex`, so launches are one after
another here.

The client thread writes the window too: `cuda_sync_context` (`client.c`), which it runs on
DROP_LOCK and from `release_early_fn`, sets `pending_kernel_window` back to `1`, without the mutex
and without touching `kern_since_sync`. A run is therefore a list of moves, launches and
`cuda_sync_context`s in any order (`WindowMove`, `windowRun`). A launch reads the window once for
its test and once for its update (the `max` and `min` of `common.h` evaluate their arguments
once), so a `cuda_sync_context` that overlaps the launch's own sync ends where one of the two
orders of the moves ends (`launchWindowOverlapped_eq`).

## Results

* `windowRun_window`: over every run the window is a power of two between `1` and `2048` and
  fewer than `2048` kernels are pending, so neither `int` can overflow; fewer kernels than the
  window are pending except right after `cuda_sync_context`, which leaves the window at `1`.
* `launchRun_syncs`: from any state of a run, if only launches follow, the next sync is exactly
  `window - pending` launches away, or the next launch when `cuda_sync_context` left more
  pending than the window.
* `nextWindow_duration`: the thresholds, stated on the seconds of `timespecsub`, compare the real
  duration of the sync, to the nanosecond.

The real launch and the lock gate before it are `Nvshare.Client.Gate`'s; `cuCtxSynchronize` is
only timed here, its readings of `CLOCK_MONOTONIC` a parameter of each launch.
-/

namespace Nvshare

/-- `kern_since_sync` and `pending_kernel_window`. -/
structure KernelWindow where
  kernSinceSync : Int
  pendingKernelWindow : Int
  deriving DecidableEq, Repr

/-- Their initial values. -/
def KernelWindow.init : KernelWindow := ⟨0, 1⟩

/-- `KERN_SYNC_DURATION_BIG`, in seconds. -/
def kernSyncDurationBig : Int := 10

/-- `KERN_SYNC_WINDOW_STEPDOWN_THRESH`, in seconds. -/
def kernSyncWindowStepdownThresh : Int := 1

/-- `KERN_SYNC_WINDOW_MAX`, in kernels. -/
def kernSyncWindowMax : Int := 2048

/-- `pending_kernel_window` after a sync that took `d`; `/` on `int` truncates. -/
def nextWindow (w : Int) (d : Timespec) : Int :=
  if d.sec ≥ kernSyncDurationBig then 1
  else if d.sec ≥ kernSyncWindowStepdownThresh then max (w.tdiv 2) 1
  else min (w * 2) kernSyncWindowMax

/-- The rate control of `cuLaunchKernel` after the real launch: `start` and `complete` are what
`clock_gettime` reads around `cuCtxSynchronize` if the window is full. The flag says whether it
synchronised. -/
def launchWindow (s : KernelWindow) (start complete : Timespec) : KernelWindow × Bool :=
  let kernSinceSync := s.kernSinceSync + 1
  if kernSinceSync ≥ s.pendingKernelWindow then
    (⟨0, nextWindow s.pendingKernelWindow (timespecsub complete start)⟩, true)
  else (⟨kernSinceSync, s.pendingKernelWindow⟩, false)

/-- Launches one after another, each with the readings of its sync: the globals after them, and
whether each launch synchronised. -/
def launchRun : KernelWindow → List (Timespec × Timespec) → KernelWindow × List Bool
  | s, [] => (s, [])
  | s, (start, complete) :: ts =>
    let (s', synced) := launchWindow s start complete
    let (s'', flags) := launchRun s' ts
    (s'', synced :: flags)

/-- `cuda_sync_context`'s write: the window back to `1`, `kern_since_sync` as it was. -/
def cudaSyncContext (s : KernelWindow) : KernelWindow := { s with pendingKernelWindow := 1 }

/-- What writes the two globals: a launch, with the readings of its sync, or the client thread's
`cuda_sync_context`. -/
inductive WindowMove where
  | launch (start complete : Timespec)
  | syncContext
  deriving DecidableEq, Repr

/-- The globals after one move. -/
def windowStep (s : KernelWindow) : WindowMove → KernelWindow
  | .launch start complete => (launchWindow s start complete).1
  | .syncContext => cudaSyncContext s

/-- The globals after a run of moves. -/
def windowRun (s : KernelWindow) (ms : List WindowMove) : KernelWindow := ms.foldl windowStep s

@[simp] theorem windowRun_nil (s : KernelWindow) : windowRun s [] = s := rfl

@[simp] theorem windowRun_cons (s : KernelWindow) (m : WindowMove) (ms : List WindowMove) :
    windowRun s (m :: ms) = windowRun (windowStep s m) ms := rfl

/-- A launch whose sync overlaps a `cuda_sync_context`: the test reads the window before the
write, the update reads it after. -/
def launchWindowOverlapped (s : KernelWindow) (start complete : Timespec) : KernelWindow :=
  let kernSinceSync := s.kernSinceSync + 1
  if kernSinceSync ≥ s.pendingKernelWindow then ⟨0, nextWindow 1 (timespecsub complete start)⟩
  else ⟨kernSinceSync, 1⟩

/-- A launch that synchronises ends as if the write came first, one that does not as if it came
after. -/
theorem launchWindowOverlapped_eq {s : KernelWindow} (hw : 1 ≤ s.pendingKernelWindow)
    (start complete : Timespec) :
    launchWindowOverlapped s start complete = windowRun s [.syncContext, .launch start complete] ∨
      launchWindowOverlapped s start complete =
        windowRun s [.launch start complete, .syncContext] := by
  unfold launchWindowOverlapped
  simp only [windowRun_cons, windowRun_nil, windowStep, cudaSyncContext, launchWindow]
  by_cases h : s.kernSinceSync + 1 ≥ s.pendingKernelWindow
  · exact .inl (by rw [if_pos h, if_pos (by omega)])
  · exact .inr (by rw [if_neg h, if_neg h])

/-! ## The invariant -/

/-- The windows the code can reach: `2 ^ k` for `k ≤ 11`. -/
def kernelWindows : List Int := (List.range 12).map (2 ^ ·)

/-- What holds of the two globals between moves. -/
structure KernelWindow.Inv (s : KernelWindow) : Prop where
  window : s.pendingKernelWindow ∈ kernelWindows
  pending_nonneg : 0 ≤ s.kernSinceSync
  pending_lt_max : s.kernSinceSync < kernSyncWindowMax
  pending_lt : s.kernSinceSync < s.pendingKernelWindow ∨ s.pendingKernelWindow = 1

theorem KernelWindow.Inv.init : KernelWindow.init.Inv :=
  ⟨by decide, by decide, by decide, .inl (by decide)⟩

theorem one_le_of_mem_kernelWindows {w : Int} (hw : w ∈ kernelWindows) : 1 ≤ w := by
  revert w
  decide

theorem le_max_of_mem_kernelWindows {w : Int} (hw : w ∈ kernelWindows) :
    w ≤ kernSyncWindowMax := by
  revert w
  decide

/-- Each branch of the update keeps the window among `kernelWindows`. -/
theorem nextWindow_mem {w : Int} (hw : w ∈ kernelWindows) (d : Timespec) :
    nextWindow w d ∈ kernelWindows := by
  have halve : ∀ w ∈ kernelWindows, max (w.tdiv 2) 1 ∈ kernelWindows := by decide
  have double : ∀ w ∈ kernelWindows, min (w * 2) kernSyncWindowMax ∈ kernelWindows := by
    decide
  unfold nextWindow
  split_ifs
  exacts [by decide, halve w hw, double w hw]

theorem launchWindow_launch (s : KernelWindow) (start complete : Timespec) :
    (s.kernSinceSync + 1 < s.pendingKernelWindow ∧
      launchWindow s start complete = (⟨s.kernSinceSync + 1, s.pendingKernelWindow⟩, false)) ∨
    (s.pendingKernelWindow ≤ s.kernSinceSync + 1 ∧
      launchWindow s start complete =
        (⟨0, nextWindow s.pendingKernelWindow (timespecsub complete start)⟩, true)) := by
  unfold launchWindow
  dsimp only
  split_ifs with h
  · exact .inr ⟨h, rfl⟩
  · exact .inl ⟨by omega, rfl⟩

/-- After a launch fewer kernels than the window are pending. -/
theorem KernelWindow.Inv.launch_lt {s : KernelWindow} (hs : s.Inv) (start complete : Timespec) :
    (launchWindow s start complete).1.kernSinceSync <
      (launchWindow s start complete).1.pendingKernelWindow := by
  rcases launchWindow_launch s start complete with ⟨hlt, h⟩ | ⟨-, h⟩ <;> rw [h]
  · exact hlt
  · exact one_le_of_mem_kernelWindows (nextWindow_mem hs.window _)

theorem KernelWindow.Inv.launch {s : KernelWindow} (hs : s.Inv) (start complete : Timespec) :
    (launchWindow s start complete).1.Inv := by
  have hlt := hs.launch_lt start complete
  rcases launchWindow_launch s start complete with ⟨-, h⟩ | ⟨-, h⟩ <;> rw [h] at hlt ⊢
  · have hmax := le_max_of_mem_kernelWindows hs.window
    exact ⟨hs.window, by dsimp only; have := hs.pending_nonneg; omega, by dsimp only at hlt ⊢; omega,
      .inl hlt⟩
  · exact ⟨nextWindow_mem hs.window _, Int.le_refl 0, by dsimp only; decide, .inl hlt⟩

theorem KernelWindow.Inv.syncContext {s : KernelWindow} (hs : s.Inv) : (cudaSyncContext s).Inv :=
  ⟨show (1 : Int) ∈ kernelWindows by decide, hs.pending_nonneg, hs.pending_lt_max, .inr rfl⟩

theorem KernelWindow.Inv.step {s : KernelWindow} (hs : s.Inv) : ∀ m, (windowStep s m).Inv
  | .launch start complete => hs.launch start complete
  | .syncContext => hs.syncContext

theorem KernelWindow.Inv.run {s : KernelWindow} (hs : s.Inv) (ms : List WindowMove) :
    (windowRun s ms).Inv := by
  induction ms generalizing s with
  | nil => exact hs
  | cons m ms ih => exact ih (hs.step m)

/-- **The window stays a power of two up to 2048.** Over every run of launches and
`cuda_sync_context`s the window is `2 ^ k` for some `k ≤ 11` and fewer than `2048` kernels are
pending since the last sync; fewer than the window are pending unless `cuda_sync_context` left the
window at `1`, and always right after a launch. -/
theorem windowRun_window (ms : List WindowMove) :
    (∃ k < 12, (windowRun KernelWindow.init ms).pendingKernelWindow = 2 ^ k) ∧
      0 ≤ (windowRun KernelWindow.init ms).kernSinceSync ∧
      (windowRun KernelWindow.init ms).kernSinceSync < 2048 ∧
      ((windowRun KernelWindow.init ms).kernSinceSync <
          (windowRun KernelWindow.init ms).pendingKernelWindow ∨
        (windowRun KernelWindow.init ms).pendingKernelWindow = 1) ∧
      ∀ start complete,
        (windowRun KernelWindow.init (ms ++ [.launch start complete])).kernSinceSync <
          (windowRun KernelWindow.init (ms ++ [.launch start complete])).pendingKernelWindow := by
  obtain ⟨hw, h0, hmax, hlt⟩ := KernelWindow.Inv.init.run ms
  obtain ⟨k, hk, hw⟩ := List.mem_map.mp hw
  refine ⟨⟨k, List.mem_range.mp hk, hw.symm⟩, h0, hmax, hlt, fun start complete ↦ ?_⟩
  rw [windowRun, List.foldl_append]
  exact (KernelWindow.Inv.init.run ms).launch_lt start complete

/-- **A `cuda_sync_context` that overlaps a launch adds no state.** Whatever a run reached, a launch
whose sync the client thread's write overlaps ends in a state that the run followed by the two
moves, in one order or the other, reaches. -/
theorem launchWindowOverlapped_reachable (ms : List WindowMove) (start complete : Timespec) :
    launchWindowOverlapped (windowRun KernelWindow.init ms) start complete =
        windowRun KernelWindow.init (ms ++ [.syncContext, .launch start complete]) ∨
      launchWindowOverlapped (windowRun KernelWindow.init ms) start complete =
        windowRun KernelWindow.init (ms ++ [.launch start complete, .syncContext]) := by
  simp only [windowRun, List.foldl_append]
  exact launchWindowOverlapped_eq
    (one_le_of_mem_kernelWindows (KernelWindow.Inv.init.run ms).window) start complete

/-! ## When the hook synchronises -/

/-- From a state of the invariant, the next `max (window - pending) 1` launches synchronise once,
at the last of them. -/
theorem KernelWindow.Inv.next_sync {s : KernelWindow} (hs : s.Inv)
    (ts : List (Timespec × Timespec))
    (hlen : (ts.length : Int) = max (s.pendingKernelWindow - s.kernSinceSync) 1) :
    (launchRun s ts).2 = List.replicate (ts.length - 1) false ++ [true] := by
  induction ts generalizing s with
  | nil => simp at hlen; omega
  | cons t ts ih =>
    obtain ⟨start, complete⟩ := t
    have hw := one_le_of_mem_kernelWindows hs.window
    have hp := hs.pending_nonneg
    rcases launchWindow_launch s start complete with ⟨hlt, h⟩ | ⟨hge, h⟩
    · have hs' := hs.launch start complete
      rw [h] at hs'
      have hne : ts ≠ [] := by rintro rfl; simp at hlen; omega
      have := ih hs' (by simp at hlen ⊢; omega)
      simp only [launchRun, h, this, List.length_cons, Nat.add_sub_cancel]
      obtain ⟨n, hn⟩ := Nat.exists_eq_succ_of_ne_zero (List.length_pos.mpr hne).ne'
      simp [hn, List.replicate_succ]
    · have hnil : ts = [] := by
        simp at hlen
        exact List.length_eq_zero.mp (by omega)
      subst hnil
      simp [launchRun, h]

/-- **Every window-th launch synchronises.** From any state a run of launches and
`cuda_sync_context`s reaches, if only launches follow, the next sync is `window - pending`
launches away, or the next launch when fewer than that is left, and none comes before it. -/
theorem launchRun_syncs (ms : List WindowMove) (ts : List (Timespec × Timespec))
    (hlen : (ts.length : Int) = max ((windowRun KernelWindow.init ms).pendingKernelWindow -
      (windowRun KernelWindow.init ms).kernSinceSync) 1) :
    (launchRun (windowRun KernelWindow.init ms) ts).2 =
      List.replicate (ts.length - 1) false ++ [true] :=
  (KernelWindow.Inv.init.run ms).next_sync ts hlen

/-- A short sync doubles the window to `2`, one launch leaves a kernel pending, and
`cuda_sync_context` sets the window back to `1`. -/
def resetRun : List WindowMove := [.launch ⟨0, 0⟩ ⟨0, 1⟩, .launch ⟨0, 0⟩ ⟨0, 1⟩, .syncContext]

theorem launchRun_syncs_after_reset :
    (([(⟨0, 0⟩, ⟨0, 1⟩)] : List (Timespec × Timespec)).length : Int) =
        max ((windowRun KernelWindow.init resetRun).pendingKernelWindow -
          (windowRun KernelWindow.init resetRun).kernSinceSync) 1 ∧
      (launchRun (windowRun KernelWindow.init resetRun) [(⟨0, 0⟩, ⟨0, 1⟩)]).2 =
        List.replicate (([(⟨0, 0⟩, ⟨0, 1⟩)] : List (Timespec × Timespec)).length - 1) false ++
          [true] :=
  ⟨by decide, launchRun_syncs resetRun _ (by decide)⟩

/-- **The window follows the real duration of the sync.** On readings of the monotonic clock as
`clock_gettime` returns them, a sync of 10 s or more resets the window to `1`, one of 1 s or more
halves it, and a shorter one doubles it up to `2048`. -/
theorem nextWindow_duration (w : Int) {start complete : Timespec} (hs : start.Normal)
    (hc : complete.Normal) :
    nextWindow w (timespecsub complete start) =
      if 10 * 1000000000 ≤ complete.toNs - start.toNs then 1
      else if 1 * 1000000000 ≤ complete.toNs - start.toNs then max (w.tdiv 2) 1
      else min (w * 2) 2048 := by
  simp only [nextWindow, kernSyncDurationBig, kernSyncWindowStepdownThresh, kernSyncWindowMax,
    ge_iff_le, timespecsub_sec_le hc hs]

theorem nextWindow_duration_two_seconds :
    (⟨1, 0⟩ : Timespec).Normal ∧ (⟨3, 500⟩ : Timespec).Normal ∧
      nextWindow 64 (timespecsub ⟨3, 500⟩ ⟨1, 0⟩) =
        if 10 * 1000000000 ≤ (⟨3, 500⟩ : Timespec).toNs - (⟨1, 0⟩ : Timespec).toNs then 1
        else if 1 * 1000000000 ≤ (⟨3, 500⟩ : Timespec).toNs - (⟨1, 0⟩ : Timespec).toNs
        then max ((64 : Int).tdiv 2) 1
        else min (64 * 2) 2048 := by
  have hs : (⟨1, 0⟩ : Timespec).Normal := by decide
  have hc : (⟨3, 500⟩ : Timespec).Normal := by decide
  exact ⟨hs, hc, nextWindow_duration 64 hs hc⟩

end Nvshare
