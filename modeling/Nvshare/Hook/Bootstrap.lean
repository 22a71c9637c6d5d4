import Nvshare.Hook.Symbols

/-!
# Loading the driver: `initialize_libnvshare` and `bootstrap_cuda`

`cuInit`, `cuGetProcAddress` and `cuGetProcAddress_v2` open with two `pthread_once` lines: the
first time, `initialize_libnvshare` reads `NVSHARE_DEBUG` and `NVSHARE_ENABLE_SINGLE_OVERSUB` and
runs `bootstrap_cuda`, which opens NVML and the driver and stores the address of every real
function it will call; then `initialize_client` starts the client. Every other hook only checks
its own real function and returns `CUDA_ERROR_NOT_INITIALIZED` while that is `NULL`.

`bootstrap_cuda` is a list of lookups, each followed by a `dlerror` check whose failure does one
of three things: NVML's clear `nvml_ok`, `cuGetProcAddress{,_v2}`'s are only logged, and the other
eighteen end the process with `log_fatal` (`bootstrapCuda_spec`). Over every sequence of calls
(`lib_start_up`), the library is initialised at most once and the client only after it, the
functions whose lookup is fatal are all set exactly when an entry point has run (so the one
`loaded` flag of the memory hooks stands for the three pointers they check, `cuMemAllocManaged`,
`cuMemFree` and `cuMemGetInfo`), and once the client runs, `nvml_ok` means that the three NVML
functions `release_early_fn` calls are there.

## Representation

* The dynamic linker is a parameter: whether `dlopen` opens each library, and which symbols the
  real `dlsym` finds in it; `dlerror` reports exactly the misses. The lazy `dlvsym` lookup of
  glibc's own `dlsym` in `real_dlsym_225` is not modelled.
* A pointer is `true` when set. `getenv` is a parameter too, fixed over the run.
* Calls are one after another: a hook that another thread runs while `bootstrap_cuda` is halfway
  through sees some pointers set and others not, which is not modelled.
* A failed `true_or_exit` of `pthread_once`, `pthread_mutex_init` or of `initialize_client`'s
  thread start is an environment failure and is not modelled; `initialize_client` itself is the
  client's `Proc.init`, started with the `nvml_ok` left here.
-/

namespace Nvshare

/-! ## The lookups -/

/-- The real functions whose addresses `bootstrap_cuda` stores, each under the identifier it
gives `CUDA_SYMBOL_STRING`. -/
inductive RealFn
  | nvmlDeviceGetUtilizationRates | nvmlInit | nvmlDeviceGetHandleByIndex
  | cuMemAllocManaged | cuMemFree | cuGetProcAddress | cuGetProcAddressV2 | cuMemGetInfo
  | cuGetErrorString | cuGetErrorName | cuCtxSetCurrent | cuCtxGetCurrent | cuInit
  | cuCtxSynchronize | cuLaunchKernel | cuMemcpy | cuMemcpyAsync | cuMemcpyDtoH
  | cuMemcpyDtoHAsync | cuMemcpyHtoD | cuMemcpyHtoDAsync | cuMemcpyDtoD | cuMemcpyDtoDAsync
  deriving DecidableEq, Repr

/-- The identifier of a real function in `bootstrap_cuda`. -/
def RealFn.name : RealFn → List Char
  | .nvmlDeviceGetUtilizationRates => "nvmlDeviceGetUtilizationRates".toList
  | .nvmlInit => "nvmlInit".toList
  | .nvmlDeviceGetHandleByIndex => "nvmlDeviceGetHandleByIndex".toList
  | .cuMemAllocManaged => "cuMemAllocManaged".toList
  | .cuMemFree => "cuMemFree".toList
  | .cuGetProcAddress => "cuGetProcAddress".toList
  | .cuGetProcAddressV2 => "cuGetProcAddress_v2".toList
  | .cuMemGetInfo => "cuMemGetInfo".toList
  | .cuGetErrorString => "cuGetErrorString".toList
  | .cuGetErrorName => "cuGetErrorName".toList
  | .cuCtxSetCurrent => "cuCtxSetCurrent".toList
  | .cuCtxGetCurrent => "cuCtxGetCurrent".toList
  | .cuInit => "cuInit".toList
  | .cuCtxSynchronize => "cuCtxSynchronize".toList
  | .cuLaunchKernel => "cuLaunchKernel".toList
  | .cuMemcpy => "cuMemcpy".toList
  | .cuMemcpyAsync => "cuMemcpyAsync".toList
  | .cuMemcpyDtoH => "cuMemcpyDtoH".toList
  | .cuMemcpyDtoHAsync => "cuMemcpyDtoHAsync".toList
  | .cuMemcpyHtoD => "cuMemcpyHtoD".toList
  | .cuMemcpyHtoDAsync => "cuMemcpyHtoDAsync".toList
  | .cuMemcpyDtoD => "cuMemcpyDtoD".toList
  | .cuMemcpyDtoDAsync => "cuMemcpyDtoDAsync".toList

/-- `CUDA_SYMBOL_STRING (f)`: the symbol `bootstrap_cuda` asks the real `dlsym` for. -/
def RealFn.symbolString (f : RealFn) : List Char := cudaDefsRename f.name

/-- What `bootstrap_cuda` does when `dlerror` reports a failed lookup. -/
inductive OnMiss
  /-- `nvml_ok = 0`. -/
  | clearNvmlOk
  /-- `log_debug` only. -/
  | logDebug
  /-- `log_fatal`, which ends the process. -/
  | fatal
  deriving DecidableEq, Repr

theorem OnMiss.bne_eq (a b : OnMiss) : (a != b) = !decide (a = b) := rfl

/-- The lookups in `libnvidia-ml.so.1`, in the code's order. -/
def nvmlLookups : List (RealFn × OnMiss) :=
  [(.nvmlDeviceGetUtilizationRates, .clearNvmlOk), (.nvmlInit, .clearNvmlOk),
    (.nvmlDeviceGetHandleByIndex, .clearNvmlOk)]

/-- The lookups in `libcuda.so`, in the code's order. -/
def cudaLookups : List (RealFn × OnMiss) :=
  [(.cuMemAllocManaged, .fatal), (.cuMemFree, .fatal), (.cuGetProcAddress, .logDebug),
    (.cuGetProcAddressV2, .logDebug), (.cuMemGetInfo, .fatal), (.cuGetErrorString, .fatal),
    (.cuGetErrorName, .fatal), (.cuCtxSetCurrent, .fatal), (.cuCtxGetCurrent, .fatal),
    (.cuInit, .fatal), (.cuCtxSynchronize, .fatal), (.cuLaunchKernel, .fatal),
    (.cuMemcpy, .fatal), (.cuMemcpyAsync, .fatal), (.cuMemcpyDtoH, .fatal),
    (.cuMemcpyDtoHAsync, .fatal), (.cuMemcpyHtoD, .fatal), (.cuMemcpyHtoDAsync, .fatal),
    (.cuMemcpyDtoD, .fatal), (.cuMemcpyDtoDAsync, .fatal)]

/-- What the dynamic linker answers `bootstrap_cuda`. -/
structure DlEnv where
  /-- `dlopen ("libnvidia-ml.so.1", RTLD_LAZY)` succeeds. -/
  nvmlOpens : Bool
  /-- The symbols the real `dlsym` finds in NVML. -/
  nvmlHas : List Char → Bool
  /-- `dlopen ("libcuda.so", RTLD_LAZY)` succeeds. -/
  cudaOpens : Bool
  /-- The symbols the real `dlsym` finds in the driver. -/
  cudaHas : List Char → Bool

/-- The globals `bootstrap_cuda` writes: the real function pointers that are set, and
`nvml_ok`. -/
structure Loaded where
  ptr : RealFn → Bool
  nvmlOk : Bool

/-- The globals at load time: every pointer `NULL`, `nvml_ok = 1`. -/
def Loaded.init : Loaded := ⟨fun _ ↦ false, true⟩

/-- The lookups in one library from one on: each stores what the real `dlsym` returns, then acts
on a miss; `none` once a fatal one misses. -/
def lookupLoop (has : List Char → Bool) : List (RealFn × OnMiss) → Loaded → Option Loaded
  | [], ld => some ld
  | (f, miss) :: ls, ld =>
    let ld := { ld with ptr := fun g ↦ if g = f then has f.symbolString else ld.ptr g }
    if has f.symbolString then lookupLoop has ls ld
    else
      match miss with
      | .clearNvmlOk => lookupLoop has ls { ld with nvmlOk := false }
      | .logDebug => lookupLoop has ls ld
      | .fatal => none

/-- `bootstrap_cuda`: NVML if it opens (`nvml_ok = 0` if not), then the driver, whose failed
`dlopen` is fatal; `none` when the process ends. -/
def bootstrapCuda (dl : DlEnv) (ld : Loaded) : Option Loaded :=
  (if dl.nvmlOpens then lookupLoop dl.nvmlHas nvmlLookups ld
    else some { ld with nvmlOk := false }).bind
    fun ld ↦ if dl.cudaOpens then lookupLoop dl.cudaHas cudaLookups ld else none

/-! ## What the lookups leave -/

/-- The lookups end the process exactly when a fatal one misses; otherwise every function looked
up holds what the real `dlsym` found, and `nvml_ok` is cleared exactly when a lookup that clears
it misses. -/
theorem lookupLoop_eq (has : List Char → Bool) (ls : List (RealFn × OnMiss)) (ld : Loaded) :
    lookupLoop has ls ld =
      if ls.all (fun l ↦ l.2 != .fatal || has l.1.symbolString) then
        some ⟨fun g ↦ if g ∈ ls.map Prod.fst then has g.symbolString else ld.ptr g,
          ld.nvmlOk && ls.all fun l ↦ l.2 != .clearNvmlOk || has l.1.symbolString⟩
      else none := by
  induction ls generalizing ld with
  | nil => simp [lookupLoop]
  | cons l ls ih =>
    obtain ⟨f, miss⟩ := l
    have hptr : (fun g ↦ if g ∈ ls.map Prod.fst then has g.symbolString
        else if g = f then has f.symbolString else ld.ptr g) =
        fun g ↦ if g ∈ ((f, miss) :: ls).map Prod.fst then has g.symbolString
          else ld.ptr g := by
      funext g
      by_cases hg : g = f
      · subst hg
        simp only [List.map_cons, List.mem_cons, true_or, eq_self_iff_true, if_true, ite_self]
      · simp only [List.map_cons, List.mem_cons, hg, false_or, if_false]
    simp only [lookupLoop, ih, hptr, List.all_cons]
    cases hf : has f.symbolString <;> cases miss <;>
      simp only [hf, OnMiss.bne_eq, reduceCtorEq, decide_True, decide_False, Bool.not_true,
        Bool.not_false, Bool.or_true, Bool.or_false, Bool.true_and, Bool.false_and, Bool.and_true,
        Bool.and_false, if_true, if_false]

/-- Every real function is looked up in exactly one of the two libraries. -/
theorem mem_cudaLookups_iff (f : RealFn) :
    f ∈ cudaLookups.map Prod.fst ↔ f ∉ nvmlLookups.map Prod.fst := by
  cases f <;> decide

/-- The NVML stage of `bootstrap_cuda` from the globals at load time: it never ends the process,
and leaves each NVML pointer set when NVML opened and has the symbol, and `nvml_ok` when it
opened and has all three. -/
theorem bootstrapCuda_nvml (dl : DlEnv) :
    (if dl.nvmlOpens then lookupLoop dl.nvmlHas nvmlLookups Loaded.init
      else some { Loaded.init with nvmlOk := false }) =
      some ⟨fun g ↦ g ∈ nvmlLookups.map Prod.fst && dl.nvmlOpens && dl.nvmlHas g.symbolString,
        dl.nvmlOpens && nvmlLookups.all fun l ↦ dl.nvmlHas l.1.symbolString⟩ := by
  cases dl.nvmlOpens
  · simp only [Bool.false_eq_true, if_false, Loaded.init, Bool.and_false, Bool.false_and]
  · rw [lookupLoop_eq]
    simp [nvmlLookups, OnMiss.bne_eq, Loaded.init]

/-- `bootstrap_cuda` from the globals at load time, in closed form. -/
theorem bootstrapCuda_init_eq (dl : DlEnv) :
    bootstrapCuda dl Loaded.init =
      if dl.cudaOpens && cudaLookups.all (fun l ↦ l.2 != .fatal || dl.cudaHas l.1.symbolString)
      then some ⟨fun f ↦ if f ∈ cudaLookups.map Prod.fst then dl.cudaHas f.symbolString
          else dl.nvmlOpens && dl.nvmlHas f.symbolString,
        dl.nvmlOpens && nvmlLookups.all fun l ↦ dl.nvmlHas l.1.symbolString⟩
      else none := by
  have hclear : (cudaLookups.all fun l ↦ l.2 != .clearNvmlOk || dl.cudaHas l.1.symbolString) =
      true := by
    simp [cudaLookups, OnMiss.bne_eq]
  have hstages : bootstrapCuda dl Loaded.init = if dl.cudaOpens then
      lookupLoop dl.cudaHas cudaLookups
        ⟨fun g ↦ g ∈ nvmlLookups.map Prod.fst && dl.nvmlOpens && dl.nvmlHas g.symbolString,
          dl.nvmlOpens && nvmlLookups.all fun l ↦ dl.nvmlHas l.1.symbolString⟩
      else none := by
    rw [bootstrapCuda, bootstrapCuda_nvml]
    rfl
  have hptr : (fun g ↦ if g ∈ cudaLookups.map Prod.fst then dl.cudaHas g.symbolString
      else g ∈ nvmlLookups.map Prod.fst && dl.nvmlOpens && dl.nvmlHas g.symbolString) =
      fun g ↦ if g ∈ cudaLookups.map Prod.fst then dl.cudaHas g.symbolString
        else dl.nvmlOpens && dl.nvmlHas g.symbolString := by
    funext g
    by_cases hg : g ∈ cudaLookups.map Prod.fst
    · simp only [hg, if_true]
    · have hn : g ∈ nvmlLookups.map Prod.fst := by
        by_contra h
        exact hg ((mem_cudaLookups_iff g).mpr h)
      simp only [hg, hn, if_false, decide_True, Bool.true_and]
  rw [hstages]
  cases dl.cudaOpens
  · rfl
  · rw [if_pos rfl, lookupLoop_eq, hclear, Bool.true_and, Bool.and_true, hptr]

/-- The driver has its eighteen functions whose lookup is fatal. -/
theorem cudaLookups_all_iff (has : List Char → Bool) :
    (cudaLookups.all fun l ↦ l.2 != .fatal || has l.1.symbolString) = true ↔
      ∀ f, (f, OnMiss.fatal) ∈ cudaLookups → has f.symbolString = true := by
  simp only [List.all_eq_true, Bool.or_eq_true, OnMiss.bne_eq, Bool.not_eq_true',
    decide_eq_false_iff_not, Prod.forall]
  constructor
  · intro h f hf
    exact (h f _ hf).resolve_left (not_not.mpr rfl)
  · intro h f miss hf
    by_cases hm : miss = .fatal
    · subst hm
      exact .inr (h f hf)
    · exact .inl hm

section Returned

variable {dl : DlEnv} {ld : Loaded}

/-- When `bootstrap_cuda` returns, the driver opened and has its eighteen functions, and the
globals are the closed form's. -/
theorem bootstrapCuda_eq_some (h : bootstrapCuda dl Loaded.init = some ld) :
    (dl.cudaOpens && cudaLookups.all fun l ↦ l.2 != .fatal || dl.cudaHas l.1.symbolString) =
        true ∧
      ld = ⟨fun f ↦ if f ∈ cudaLookups.map Prod.fst then dl.cudaHas f.symbolString
          else dl.nvmlOpens && dl.nvmlHas f.symbolString,
        dl.nvmlOpens && nvmlLookups.all fun l ↦ dl.nvmlHas l.1.symbolString⟩ := by
  rw [bootstrapCuda_init_eq] at h
  split_ifs at h with hc
  exact ⟨hc, (Option.some.inj h).symm⟩

/-- Every driver function whose lookup is fatal is set once `bootstrap_cuda` returns. -/
theorem ptr_of_fatal (h : bootstrapCuda dl Loaded.init = some ld) {f : RealFn}
    (hf : (f, OnMiss.fatal) ∈ cudaLookups) : ld.ptr f = true := by
  obtain ⟨hc, rfl⟩ := bootstrapCuda_eq_some h
  have hm : f ∈ cudaLookups.map Prod.fst := List.mem_map.mpr ⟨_, hf, rfl⟩
  simp only [Bool.and_eq_true, cudaLookups_all_iff] at hc
  simp only [hm, if_true, hc.2 f hf]

/-- `nvml_ok` after `bootstrap_cuda` means that the NVML functions are set. -/
theorem ptr_of_nvmlOk (h : bootstrapCuda dl Loaded.init = some ld) (hok : ld.nvmlOk = true)
    {f : RealFn} (hf : (f, OnMiss.clearNvmlOk) ∈ nvmlLookups) : ld.ptr f = true := by
  obtain ⟨-, rfl⟩ := bootstrapCuda_eq_some h
  have hn : f ∉ cudaLookups.map Prod.fst :=
    (mem_cudaLookups_iff f).not.mpr (not_not.mpr (List.mem_map.mpr ⟨_, hf, rfl⟩))
  simp only [Bool.and_eq_true, List.all_eq_true] at hok
  simp only [hn, if_false, hok.1, hok.2 _ hf, Bool.and_self]

end Returned

/-- **What `bootstrap_cuda` does with what the linker has.** From the globals at load time, it
ends the process exactly when `libcuda.so` does not open or one of the eighteen driver functions
whose lookup is fatal is missing; a missing `cuGetProcAddress`, `cuGetProcAddress_v2` or NVML is
no reason to stop. When it returns, each pointer is set exactly when its library opened and has
the symbol, so the eighteen are all set; `nvml_ok` says that NVML opened and has its three
functions, which are then set. -/
theorem bootstrapCuda_spec (dl : DlEnv) :
    (bootstrapCuda dl Loaded.init = none ↔ dl.cudaOpens = false ∨
        ∃ f, (f, OnMiss.fatal) ∈ cudaLookups ∧ dl.cudaHas f.symbolString = false) ∧
      ∀ ld, bootstrapCuda dl Loaded.init = some ld →
        (∀ f, ld.ptr f = if f ∈ cudaLookups.map Prod.fst then dl.cudaHas f.symbolString
          else dl.nvmlOpens && dl.nvmlHas f.symbolString) ∧
        ld.nvmlOk = (dl.nvmlOpens && nvmlLookups.all fun l ↦ dl.nvmlHas l.1.symbolString) ∧
        (∀ f, (f, OnMiss.fatal) ∈ cudaLookups → ld.ptr f = true) ∧
        (ld.nvmlOk = true →
          ∀ f, (f, OnMiss.clearNvmlOk) ∈ nvmlLookups → ld.ptr f = true) := by
  refine ⟨?_, fun ld h ↦ ?_⟩
  · rw [bootstrapCuda_init_eq]
    split_ifs with hc <;> simp only [Bool.and_eq_true, cudaLookups_all_iff] at hc
    · refine iff_of_false (by simp) ?_
      rintro (h | ⟨f, hf, hh⟩)
      · rw [hc.1] at h
        cases h
      · rw [hc.2 f hf] at hh
        cases hh
    · refine iff_of_true rfl ?_
      by_contra hr
      push_neg at hr
      exact hc ⟨by simpa using hr.1, fun f hf ↦ by simpa using hr.2 f hf⟩
  · obtain ⟨-, rfl⟩ := bootstrapCuda_eq_some h
    exact ⟨fun _ ↦ rfl, rfl, fun _ hf ↦ ptr_of_fatal h hf,
      fun hok _ hf ↦ ptr_of_nvmlOk h hok hf⟩

/-! ## Start-up -/

/-- `ENV_NVSHARE_DEBUG`. -/
def envNvshareDebug : List Char := "NVSHARE_DEBUG".toList

/-- `ENV_NVSHARE_ENABLE_SINGLE_OVERSUB`. -/
def envNvshareEnableSingleOversub : List Char := "NVSHARE_ENABLE_SINGLE_OVERSUB".toList

/-- The globals of the library that start-up writes, in one process. -/
structure Lib where
  /-- `init_libnvshare_done` has run its routine. -/
  libnvshareDone : Bool
  /-- `init_done` has run its routine. -/
  clientDone : Bool
  /-- `__debug`. -/
  debug : Bool
  /-- `enable_single_oversub`. -/
  enableSingleOversub : Bool
  /-- The real function pointers and `nvml_ok`. -/
  loaded : Loaded
  /-- A `log_fatal` has ended the process. -/
  exited : Bool
  /-- History: the runs of `bootstrap_cuda`. -/
  bootstraps : Nat

/-- The process when the library is loaded. -/
def Lib.init : Lib := ⟨false, false, false, false, Loaded.init, false, 0⟩

/-- `initialize_libnvshare`: the two environment variables, then `bootstrap_cuda`. -/
def initializeLibnvshare (getenv : List Char → Option (List Char)) (dl : DlEnv) (l : Lib) :
    Lib :=
  let l := { l with
    debug := l.debug || (getenv envNvshareDebug).isSome
    enableSingleOversub := l.enableSingleOversub || (getenv envNvshareEnableSingleOversub).isSome
    bootstraps := l.bootstraps + 1 }
  match bootstrapCuda dl l.loaded with
  | some ld => { l with loaded := ld }
  | none => { l with exited := true }

/-- The two `pthread_once` lines that open `cuInit`, `cuGetProcAddress` and
`cuGetProcAddress_v2`: each routine runs the first time only, and `initialize_client` not at all
once the process has ended. -/
def Lib.once (getenv : List Char → Option (List Char)) (dl : DlEnv) (l : Lib) : Lib :=
  let l := if l.libnvshareDone then l
    else initializeLibnvshare getenv dl { l with libnvshareDone := true }
  if l.exited || l.clientDone then l else { l with clientDone := true }

/-- The start-up globals a process can reach, its calls one after another: the entry points
change them, and every other hook only reads its own pointer. -/
inductive LibReachable (getenv : List Char → Option (List Char)) (dl : DlEnv) : Lib → Prop
  | init : LibReachable getenv dl Lib.init
  | entry {l : Lib} : LibReachable getenv dl l → l.exited = false →
      LibReachable getenv dl (l.once getenv dl)

/-- The first entry point: `initialize_libnvshare`, and `initialize_client` unless
`bootstrap_cuda` ended the process. -/
theorem Lib.init_once (getenv : List Char → Option (List Char)) (dl : DlEnv) :
    Lib.init.once getenv dl =
      match bootstrapCuda dl Loaded.init with
      | some ld => ⟨true, true, (getenv envNvshareDebug).isSome,
          (getenv envNvshareEnableSingleOversub).isSome, ld, false, 1⟩
      | none => ⟨true, false, (getenv envNvshareDebug).isSome,
          (getenv envNvshareEnableSingleOversub).isSome, Loaded.init, true, 1⟩ := by
  cases h : bootstrapCuda dl Loaded.init <;> simp [Lib.once, initializeLibnvshare, Lib.init, h]

/-- What holds of the start-up globals between calls. -/
structure LibInv (getenv : List Char → Option (List Char)) (l : Lib) : Prop where
  /-- Before any entry point, nothing has changed. -/
  fresh : l.libnvshareDone = false → l = Lib.init
  /-- `initialize_libnvshare` has run once since. -/
  bootstraps : l.libnvshareDone = true → l.bootstraps = 1
  /-- The client runs exactly when the library is initialised, unless the process ended. -/
  client : l.exited = false → l.clientDone = l.libnvshareDone
  /-- The flags are the environment's. -/
  env : l.libnvshareDone = true → l.debug = (getenv envNvshareDebug).isSome ∧
    l.enableSingleOversub = (getenv envNvshareEnableSingleOversub).isSome
  /-- The driver functions whose lookup is fatal are all set. -/
  fatal : l.libnvshareDone = true → l.exited = false →
    ∀ f, (f, OnMiss.fatal) ∈ cudaLookups → l.loaded.ptr f = true
  /-- Once the client runs, `nvml_ok` means the NVML functions are set. -/
  nvml : l.clientDone = true → l.loaded.nvmlOk = true →
    ∀ f, (f, OnMiss.clearNvmlOk) ∈ nvmlLookups → l.loaded.ptr f = true

namespace LibInv

variable {getenv : List Char → Option (List Char)} {dl : DlEnv} {l : Lib}

theorem init : LibInv getenv Lib.init :=
  ⟨fun _ ↦ rfl, nofun, fun _ ↦ rfl, nofun, nofun, nofun⟩

/-- An entry point keeps the invariant: the first one initialises, the later ones change
nothing. -/
theorem once (hI : LibInv getenv l) (hx : l.exited = false) : LibInv getenv (l.once getenv dl) := by
  cases hd : l.libnvshareDone
  · rw [hI.fresh hd, Lib.init_once]
    cases hb : bootstrapCuda dl Loaded.init with
    | none =>
      exact ⟨nofun, fun _ ↦ rfl, nofun, fun _ ↦ ⟨rfl, rfl⟩, fun _ ↦ nofun, nofun⟩
    | some ld =>
      exact ⟨nofun, fun _ ↦ rfl, fun _ ↦ rfl, fun _ ↦ ⟨rfl, rfl⟩,
        fun _ _ _ hf ↦ ptr_of_fatal hb hf, fun _ hok _ hf ↦ ptr_of_nvmlOk hb hok hf⟩
  · have hc : l.clientDone = true := (hI.client hx).trans hd
    have hl : l.once getenv dl = l := by simp [Lib.once, hd, hc]
    rwa [hl]

end LibInv

theorem LibReachable.libInv {getenv : List Char → Option (List Char)} {dl : DlEnv} {l : Lib}
    (hl : LibReachable getenv dl l) : LibInv getenv l := by
  induction hl with
  | init => exact .init
  | entry _ hx ih => exact ih.once hx

/-- **Start-up, over every sequence of calls.** In every state a process reaches that it has not
ended: `initialize_libnvshare` has run at most once and the client runs exactly when it has; the
two flags are the environment's; each of the eighteen driver functions whose lookup is fatal is
set exactly when an entry point has run, so every hook that checks one of them (`cuMemAlloc`,
`cuMemFree`, `cuMemGetInfo`, `cuLaunchKernel`, the eight `cuMemcpy` hooks) returns
`CUDA_ERROR_NOT_INITIALIZED` exactly before that, and the pointers they then call unchecked
(`cuCtxSynchronize`, `cuGetErrorString`, `cuGetErrorName`) are set; and once the client runs,
`nvml_ok` means that the three NVML functions `release_early_fn` calls are set. -/
theorem lib_start_up {getenv : List Char → Option (List Char)} {dl : DlEnv} {l : Lib}
    (hl : LibReachable getenv dl l) (hx : l.exited = false) :
    l.bootstraps = (if l.libnvshareDone then 1 else 0) ∧ l.clientDone = l.libnvshareDone ∧
      l.enableSingleOversub =
        (l.libnvshareDone && (getenv envNvshareEnableSingleOversub).isSome) ∧
      (∀ f, (f, OnMiss.fatal) ∈ cudaLookups → l.loaded.ptr f = l.libnvshareDone) ∧
      (l.clientDone = true → l.loaded.nvmlOk = true →
        ∀ f, (f, OnMiss.clearNvmlOk) ∈ nvmlLookups → l.loaded.ptr f = true) := by
  have hI := hl.libInv
  cases hd : l.libnvshareDone
  · have h0 := hI.fresh hd
    subst h0
    exact ⟨rfl, rfl, rfl, fun _ _ ↦ rfl, nofun⟩
  · exact ⟨by rw [if_pos rfl, hI.bootstraps hd], (hI.client hx).trans hd,
      by rw [(hI.env hd).2, Bool.true_and], fun f hf ↦ hI.fatal hd hx f hf, hI.nvml⟩

/-- A linker with the driver but without NVML. -/
def dlNoNvml : DlEnv := ⟨false, fun _ ↦ false, true, fun _ ↦ true⟩

/-- A process after its first `cuInit`, with no `NVSHARE_*` variable set. -/
def firstEntry : Lib := Lib.init.once (fun _ ↦ none) dlNoNvml

theorem lib_start_up_first_entry :
    LibReachable (fun _ ↦ none) dlNoNvml firstEntry ∧ firstEntry.exited = false ∧
      firstEntry.bootstraps = (if firstEntry.libnvshareDone then 1 else 0) ∧
      firstEntry.clientDone = firstEntry.libnvshareDone ∧
      firstEntry.enableSingleOversub =
        (firstEntry.libnvshareDone && ((fun _ ↦ none) envNvshareEnableSingleOversub :
          Option (List Char)).isSome) ∧
      (∀ f, (f, OnMiss.fatal) ∈ cudaLookups →
        firstEntry.loaded.ptr f = firstEntry.libnvshareDone) ∧
      (firstEntry.clientDone = true → firstEntry.loaded.nvmlOk = true →
        ∀ f, (f, OnMiss.clearNvmlOk) ∈ nvmlLookups → firstEntry.loaded.ptr f = true) := by
  have hl : LibReachable (fun _ ↦ none) dlNoNvml firstEntry := .entry .init rfl
  have hx : firstEntry.exited = false := rfl
  exact ⟨hl, hx, lib_start_up hl hx⟩

end Nvshare
