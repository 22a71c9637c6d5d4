import Mathlib.Data.UInt
import Mathlib.Algebra.BigOperators.Group.List
import Nvshare.Scheduler.State

/-!
# GPU memory accounting in the hook

`hook.c` turns every `cuMemAlloc` into a managed allocation and keeps what the process has
allocated in `cuda_allocation_list`, with the running total `sum_allocated`. An allocation is
refused with `CUDA_ERROR_OUT_OF_MEMORY` when the total would pass
`nvshare_size_mem_allocatable`, unless single-process oversubscription is on. That limit is fixed
by the first `cuMemAlloc`: it is the free size the hooked `cuMemGetInfo` reports, the total the
driver reports less a reserve of `MEMINFO_RESERVE_MIB` MiB.

The list and the total agree modulo `2 ^ 64` over every sequence of calls (`SumInv`). The limit
holds only while no addition or subtraction wraps: a device reporting less than the reserve gets
a limit above its total, and an allocation whose size wraps the admission test is admitted and
later leaves the total above the limit once something is freed (`memory_cap_wraps`). Without
such a wrap the total stays within the limit (`CapInv`).

## Representation

* `size_t` and `CUdeviceptr` are 64 bits wide: `UInt64`, whose `+` and `-` wrap as C's unsigned
  arithmetic does.
* A call of a real driver function is a parameter of the hook that makes it: its result code and
  what it leaves in the variables it was given. `CUresult` is its number.
* The hooks take no lock; calls are one after another. Logging and `cuda_driver_check_error`,
  which only logs, are not modelled, nor is a failed `malloc` in `insert_cuda_allocation`, which
  ends the process.
-/

namespace Nvshare

/-! ## Driver results -/

/-- `CUDA_SUCCESS`. -/
def cudaSuccess : Nat := 0

/-- `CUDA_ERROR_OUT_OF_MEMORY`. -/
def cudaErrorOutOfMemory : Nat := 2

/-- `CUDA_ERROR_NOT_INITIALIZED`. -/
def cudaErrorNotInitialized : Nat := 3

/-- `(MEMINFO_RESERVE_MIB) MiB`: the bytes the hooked `cuMemGetInfo` hides. -/
def reserveBytes : UInt64 := 1536 * 1048576

/-- What the real `cuMemGetInfo` answers: its result, and what `*free` and `*total` hold after
it. -/
structure MemInfo where
  result : Nat
  free : UInt64
  total : UInt64
  deriving DecidableEq, Repr

/-- What the real `cuMemAllocManaged` answers: its result, and what `*dptr` holds after it. -/
structure ManagedAlloc where
  result : Nat
  dptr : UInt64
  deriving DecidableEq, Repr

/-! ## The hooks -/

/-- `struct cuda_mem_allocation`. -/
structure CudaMemAllocation where
  ptr : UInt64
  size : UInt64
  deriving DecidableEq, Repr

/-- The globals of `hook.c` that the memory hooks read and write. -/
structure Hook where
  /-- `bootstrap_cuda` found the real driver functions, which are `NULL` before. -/
  loaded : Bool
  /-- `enable_single_oversub`. -/
  enableSingleOversub : Bool
  /-- `cuMemAlloc`'s `static int got_max_mem_size`. -/
  gotMaxMemSize : Bool
  /-- `nvshare_size_mem_allocatable`. -/
  sizeMemAllocatable : UInt64
  /-- `sum_allocated`. -/
  sumAllocated : UInt64
  /-- `cuda_allocation_list`. -/
  cudaAllocationList : List CudaMemAllocation
  deriving DecidableEq, Repr

/-- The process after `initialize_libnvshare`, before any allocation. -/
def Hook.init (loaded enableSingleOversub : Bool) : Hook :=
  ⟨loaded, enableSingleOversub, false, 0, 0, []⟩

/-- `insert_cuda_allocation`. -/
def insertCudaAllocation (dptr bytesize : UInt64) (h : Hook) : Hook :=
  { h with sumAllocated := h.sumAllocated + bytesize
           cudaAllocationList := h.cudaAllocationList ++ [⟨dptr, bytesize⟩] }

/-- The loop of `remove_cuda_allocation`: `LL_FOREACH_SAFE` walks the saved successors `tmp`, and
every node with pointer `rmPtr` has its size subtracted and is unlinked, as in `llDeleteIf`. -/
def removeLoop (rmPtr : UInt64) : Hook → List CudaMemAllocation → Hook
  | h, [] => h
  | h, a :: tmp =>
    removeLoop rmPtr (if a.ptr == rmPtr then
      { h with sumAllocated := h.sumAllocated - a.size
               cudaAllocationList := h.cudaAllocationList.erase a } else h) tmp

/-- `remove_cuda_allocation`. -/
def removeCudaAllocation (rmPtr : UInt64) (h : Hook) : Hook :=
  removeLoop rmPtr h h.cudaAllocationList

/-- The hooked `cuMemGetInfo`: its result, and the free and total sizes it leaves, or `none` when
it returns before calling the real one. -/
def cuMemGetInfo (loaded : Bool) (real : MemInfo) : Nat × Option (UInt64 × UInt64) :=
  if !loaded then (cudaErrorNotInitialized, none)
  else (real.result, some (real.total - reserveBytes, real.total))

/-- The first `cuMemAlloc` sets the limit to the free size the hooked `cuMemGetInfo` reports. -/
def Hook.getMaxMemSize (info : MemInfo) (h : Hook) : Hook :=
  if h.gotMaxMemSize then h
  else
    { h with sizeMemAllocatable :=
               ((cuMemGetInfo h.loaded info).2.map Prod.fst).getD h.sizeMemAllocatable
             gotMaxMemSize := true }

/-- The admission test of `cuMemAlloc`: `(sum_allocated + bytesize) >
nvshare_size_mem_allocatable` refuses, unless oversubscription is on. -/
def Hook.admits (bytesize : UInt64) (h : Hook) : Bool :=
  !decide (h.sizeMemAllocatable < h.sumAllocated + bytesize) || h.enableSingleOversub

/-- `cuMemAlloc (&dptr, bytesize)`: its result and the state after. `info` is the answer of the
real `cuMemGetInfo` if this is the first call, `real` that of `cuMemAllocManaged`. -/
def cuMemAlloc (bytesize : UInt64) (info : MemInfo) (real : ManagedAlloc) (h : Hook) :
    Nat × Hook :=
  if !h.loaded then (cudaErrorNotInitialized, h)
  else
    let h := h.getMaxMemSize info
    if !h.admits bytesize then (cudaErrorOutOfMemory, h)
    else if real.result = cudaSuccess then (real.result, insertCudaAllocation real.dptr bytesize h)
    else (real.result, h)

/-- `cuMemFree (dptr)`, with `result` the answer of the real `cuMemFree`. -/
def cuMemFree (dptr : UInt64) (result : Nat) (h : Hook) : Nat × Hook :=
  if !h.loaded then (cudaErrorNotInitialized, h)
  else if result = cudaSuccess then (result, removeCudaAllocation dptr h)
  else (result, h)

/-- A call of the memory hooks, with the answers of the real driver functions it calls. -/
inductive MemCall
  | alloc (bytesize : UInt64) (info : MemInfo) (real : ManagedAlloc)
  | free (dptr : UInt64) (result : Nat)
  deriving DecidableEq, Repr

/-- One call: its result and the state after. -/
def Hook.call : MemCall → Hook → Nat × Hook
  | .alloc bytesize info real, h => cuMemAlloc bytesize info real h
  | .free dptr result, h => cuMemFree dptr result h

/-- A sequence of calls. -/
def Hook.run : List MemCall → Hook → Hook
  | [], h => h
  | c :: cs, h => Hook.run cs (h.call c).2

/-! ## What each hook does -/

section Fields

variable (h : Hook) (info : MemInfo) (dptr bytesize : UInt64)

@[simp] theorem getMaxMemSize_loaded : (h.getMaxMemSize info).loaded = h.loaded := by
  unfold Hook.getMaxMemSize; split <;> rfl
@[simp] theorem getMaxMemSize_enableSingleOversub :
    (h.getMaxMemSize info).enableSingleOversub = h.enableSingleOversub := by
  unfold Hook.getMaxMemSize; split <;> rfl
@[simp] theorem getMaxMemSize_sumAllocated :
    (h.getMaxMemSize info).sumAllocated = h.sumAllocated := by
  unfold Hook.getMaxMemSize; split <;> rfl
@[simp] theorem getMaxMemSize_cudaAllocationList :
    (h.getMaxMemSize info).cudaAllocationList = h.cudaAllocationList := by
  unfold Hook.getMaxMemSize; split <;> rfl

@[simp] theorem insertCudaAllocation_cudaAllocationList :
    (insertCudaAllocation dptr bytesize h).cudaAllocationList =
      h.cudaAllocationList ++ [⟨dptr, bytesize⟩] := rfl
@[simp] theorem insertCudaAllocation_sumAllocated :
    (insertCudaAllocation dptr bytesize h).sumAllocated = h.sumAllocated + bytesize := rfl
@[simp] theorem insertCudaAllocation_gotMaxMemSize :
    (insertCudaAllocation dptr bytesize h).gotMaxMemSize = h.gotMaxMemSize := rfl
@[simp] theorem insertCudaAllocation_sizeMemAllocatable :
    (insertCudaAllocation dptr bytesize h).sizeMemAllocatable = h.sizeMemAllocatable := rfl

end Fields

/-- The loop unlinks the nodes of `tmp` with pointer `rmPtr` as `llDeleteIf` does, and subtracts
their sizes. -/
theorem removeLoop_eq (rmPtr : UInt64) (tmp : List CudaMemAllocation) (h : Hook) :
    removeLoop rmPtr h tmp = { h with
      sumAllocated := h.sumAllocated - ((tmp.filter (·.ptr == rmPtr)).map (·.size)).sum
      cudaAllocationList := llDeleteIf (·.ptr == rmPtr) h.cudaAllocationList tmp } := by
  induction tmp generalizing h with
  | nil => simp [removeLoop, llDeleteIf]
  | cons a tmp ih =>
    rw [removeLoop, ih, llDeleteIf]
    by_cases ha : (a.ptr == rmPtr) = true <;> simp [ha, sub_sub]

/-- `remove_cuda_allocation` removes exactly the entries with pointer `rmPtr`, keeping the others
in order, and subtracts their sizes. -/
theorem removeCudaAllocation_eq (rmPtr : UInt64) (h : Hook) :
    removeCudaAllocation rmPtr h = { h with
      sumAllocated := h.sumAllocated -
        ((h.cudaAllocationList.filter (·.ptr == rmPtr)).map (·.size)).sum
      cudaAllocationList := h.cudaAllocationList.filter (·.ptr != rmPtr) } := by
  rw [removeCudaAllocation, removeLoop_eq, llDeleteIf_self]
  rfl

/-- The outcomes of `cuMemAlloc`. -/
theorem cuMemAlloc_cases (bytesize : UInt64) (info : MemInfo) (real : ManagedAlloc) (h : Hook) :
    (h.loaded = false ∧ cuMemAlloc bytesize info real h = (cudaErrorNotInitialized, h)) ∨
    (h.loaded = true ∧ (h.getMaxMemSize info).admits bytesize = false ∧
      cuMemAlloc bytesize info real h = (cudaErrorOutOfMemory, h.getMaxMemSize info)) ∨
    (h.loaded = true ∧ (h.getMaxMemSize info).admits bytesize = true ∧
      real.result = cudaSuccess ∧ cuMemAlloc bytesize info real h =
        (cudaSuccess, insertCudaAllocation real.dptr bytesize (h.getMaxMemSize info))) ∨
    (h.loaded = true ∧ (h.getMaxMemSize info).admits bytesize = true ∧
      real.result ≠ cudaSuccess ∧ cuMemAlloc bytesize info real h =
        (real.result, h.getMaxMemSize info)) := by
  unfold cuMemAlloc
  cases hl : h.loaded
  · exact .inl ⟨rfl, rfl⟩
  cases ha : (h.getMaxMemSize info).admits bytesize
  · exact .inr (.inl ⟨rfl, rfl, by simp [ha]⟩)
  by_cases hr : real.result = cudaSuccess
  · exact .inr (.inr (.inl ⟨rfl, rfl, hr, by simp [ha, hr]⟩))
  · exact .inr (.inr (.inr ⟨rfl, rfl, hr, by simp [ha, hr]⟩))

/-- The outcomes of `cuMemFree`. -/
theorem cuMemFree_cases (dptr : UInt64) (result : Nat) (h : Hook) :
    (h.loaded = false ∧ cuMemFree dptr result h = (cudaErrorNotInitialized, h)) ∨
    (h.loaded = true ∧ result = cudaSuccess ∧
      cuMemFree dptr result h = (cudaSuccess, removeCudaAllocation dptr h)) ∨
    (h.loaded = true ∧ result ≠ cudaSuccess ∧ cuMemFree dptr result h = (result, h)) := by
  unfold cuMemFree
  cases hl : h.loaded
  · exact .inl ⟨rfl, rfl⟩
  by_cases hr : result = cudaSuccess
  · exact .inr (.inl ⟨rfl, hr, by simp [hr]⟩)
  · exact .inr (.inr ⟨rfl, hr, by simp [hr]⟩)

/-! ## The total and the list -/

/-- Splitting a list by a test splits the sum of a quantity over it. -/
theorem sum_map_filter {M : Type} [AddCommMonoid M] (f : CudaMemAllocation → M)
    (p : CudaMemAllocation → Bool) (l : List CudaMemAllocation) :
    (l.map f).sum = ((l.filter p).map f).sum + ((l.filter fun a ↦ !p a).map f).sum := by
  induction l with
  | nil => simp
  | cons a l ih => cases hp : p a <;> simp [hp, ih, add_left_comm, add_assoc]

/-- `sum_allocated` is the sum of the sizes in the list, in `size_t` arithmetic. -/
def SumInv (h : Hook) : Prop := h.sumAllocated = (h.cudaAllocationList.map (·.size)).sum

theorem SumInv.init (loaded oversub : Bool) : SumInv (Hook.init loaded oversub) := rfl

theorem SumInv.getMaxMemSize {h : Hook} (hI : SumInv h) (info : MemInfo) :
    SumInv (h.getMaxMemSize info) := by
  simpa [SumInv] using hI

theorem SumInv.call {h : Hook} (hI : SumInv h) (c : MemCall) : SumInv (h.call c).2 := by
  cases c with
  | alloc bytesize info real =>
    have hI' := hI.getMaxMemSize info
    rcases cuMemAlloc_cases bytesize info real h with ⟨-, he⟩ | ⟨-, -, he⟩ | ⟨-, -, -, he⟩ |
        ⟨-, -, -, he⟩ <;> simp only [Hook.call, he]
    · exact hI
    · exact hI'
    · rw [SumInv, insertCudaAllocation_sumAllocated, insertCudaAllocation_cudaAllocationList, hI',
        List.map_append, List.sum_append, List.map_singleton, List.sum_singleton]
    · exact hI'
  | free dptr result =>
    rcases cuMemFree_cases dptr result h with ⟨-, he⟩ | ⟨-, -, he⟩ | ⟨-, -, he⟩ <;>
      simp only [Hook.call, he]
    · exact hI
    · rw [SumInv, removeCudaAllocation_eq]
      dsimp only
      rw [hI, sum_map_filter _ (·.ptr == dptr), add_sub_cancel_left]
      rfl
    · exact hI

theorem SumInv.run {h : Hook} (hI : SumInv h) (calls : List MemCall) : SumInv (h.run calls) := by
  induction calls generalizing h with
  | nil => exact hI
  | cons c cs ih => exact ih (hI.call c)

theorem toNat_list_sum (l : List UInt64) : l.sum.toNat = (l.map UInt64.toNat).sum % 2 ^ 64 := by
  induction l with
  | nil => rfl
  | cons x l ih =>
    rw [List.sum_cons, show (x + l.sum).toNat = (x.toNat + l.sum.toNat) % 2 ^ 64 from
      BitVec.toNat_add _ _, ih, List.map_cons, List.sum_cons]
    omega

/-- **Allocation accounting.** Over every sequence of calls, whatever the driver answers,
`sum_allocated` is the sum of the sizes in `cuda_allocation_list` modulo `2 ^ 64`. `cuMemAlloc`
appends one entry, with the pointer the driver wrote and the size asked for, exactly when it
admits the request and `cuMemAllocManaged` succeeds; `cuMemFree` removes exactly the entries with
its pointer, and keeps the others in order, exactly when the real `cuMemFree` succeeds. -/
theorem allocation_accounting :
    (∀ (loaded oversub : Bool) (calls : List MemCall),
      ((Hook.init loaded oversub).run calls).sumAllocated.toNat =
        (((Hook.init loaded oversub).run calls).cudaAllocationList.map (·.size.toNat)).sum %
          2 ^ 64) ∧
    (∀ (h : Hook) (bytesize : UInt64) (info : MemInfo) (real : ManagedAlloc),
      (cuMemAlloc bytesize info real h).2.cudaAllocationList =
        if h.loaded ∧ (h.getMaxMemSize info).admits bytesize ∧ real.result = cudaSuccess
        then h.cudaAllocationList ++ [⟨real.dptr, bytesize⟩] else h.cudaAllocationList) ∧
    (∀ (h : Hook) (dptr : UInt64) (result : Nat),
      (cuMemFree dptr result h).2.cudaAllocationList =
        if h.loaded ∧ result = cudaSuccess then h.cudaAllocationList.filter (·.ptr != dptr)
        else h.cudaAllocationList) := by
  refine ⟨fun loaded oversub calls ↦ ?_, fun h bytesize info real ↦ ?_, fun h dptr result ↦ ?_⟩
  · rw [(SumInv.init loaded oversub).run calls, toNat_list_sum, List.map_map]
    rfl
  · rcases cuMemAlloc_cases bytesize info real h with ⟨hl, he⟩ | ⟨-, ha, he⟩ |
        ⟨hl, ha, hr, he⟩ | ⟨-, -, hr, he⟩ <;> rw [he]
    · simp [hl]
    · simp [ha]
    · simp [hl, ha, hr]
    · simp [hr]
  · rcases cuMemFree_cases dptr result h with ⟨hl, he⟩ | ⟨hl, hr, he⟩ | ⟨-, hr, he⟩ <;> rw [he]
    · simp [hl]
    · simp [hl, hr, removeCudaAllocation_eq]
    · simp [hr]

/-! ## The limit -/

theorem uint64_le_iff {a b : UInt64} : a ≤ b ↔ a.toNat ≤ b.toNat := Iff.rfl

theorem uint64_lt_iff {a b : UInt64} : a < b ↔ a.toNat < b.toNat := Iff.rfl

/-- An allocation whose admission test wraps: `sum_allocated + bytesize` reaches `2 ^ 64`. -/
def MemCall.wraps (h : Hook) : MemCall → Bool
  | .alloc bytesize _ _ => decide (2 ^ 64 ≤ h.sumAllocated.toNat + bytesize.toNat)
  | .free _ _ => false

/-- No allocation of a sequence of calls wraps its admission test. -/
def Hook.noWrap : List MemCall → Hook → Bool
  | [], _ => true
  | c :: cs, h => !c.wraps h && Hook.noWrap cs (h.call c).2

@[simp] theorem getMaxMemSize_gotMaxMemSize (h : Hook) (info : MemInfo) :
    (h.getMaxMemSize info).gotMaxMemSize = true := by
  unfold Hook.getMaxMemSize; split <;> simp_all

theorem call_enableSingleOversub (h : Hook) (c : MemCall) :
    (h.call c).2.enableSingleOversub = h.enableSingleOversub := by
  cases c with
  | alloc bytesize info real =>
    rcases cuMemAlloc_cases bytesize info real h with ⟨-, he⟩ | ⟨-, -, he⟩ | ⟨-, -, -, he⟩ |
        ⟨-, -, -, he⟩ <;> simp [Hook.call, he, insertCudaAllocation]
  | free dptr result =>
    rcases cuMemFree_cases dptr result h with ⟨-, he⟩ | ⟨-, -, he⟩ | ⟨-, -, he⟩ <;>
      simp [Hook.call, he, removeCudaAllocation_eq]

/-- What the limit guarantees while nothing wraps: nothing is allocated before the limit is set,
`sum_allocated` is the sum of the sizes without reduction, and that sum is within the limit. -/
structure CapInv (h : Hook) : Prop where
  fresh : h.gotMaxMemSize = false → h.cudaAllocationList = []
  sum : h.sumAllocated.toNat = (h.cudaAllocationList.map (·.size.toNat)).sum
  le : (h.cudaAllocationList.map (·.size.toNat)).sum ≤ h.sizeMemAllocatable.toNat

namespace CapInv

variable {h : Hook}

theorem init (loaded oversub : Bool) : CapInv (Hook.init loaded oversub) :=
  ⟨fun _ ↦ rfl, rfl, Nat.zero_le _⟩

theorem getMaxMemSize (hI : CapInv h) (info : MemInfo) : CapInv (h.getMaxMemSize info) := by
  unfold Hook.getMaxMemSize
  split
  · exact hI
  · rename_i hg
    have hl := hI.fresh (by simpa using hg)
    exact ⟨nofun, by simpa [hl] using hI.sum, by simp [hl]⟩

/-- An admitted allocation that does not wrap stays within the limit. -/
theorem insert (hI : CapInv h) (hoff : h.enableSingleOversub = false) {bytesize : UInt64}
    (ha : h.admits bytesize = true) (hw : h.sumAllocated.toNat + bytesize.toNat < 2 ^ 64)
    (hg : h.gotMaxMemSize = true) (dptr : UInt64) : CapInv (insertCudaAllocation dptr bytesize h) := by
  have hadd : (h.sumAllocated + bytesize).toNat = h.sumAllocated.toNat + bytesize.toNat := by
    rw [show (h.sumAllocated + bytesize).toNat = (h.sumAllocated.toNat + bytesize.toNat) % 2 ^ 64
      from BitVec.toNat_add _ _]
    exact Nat.mod_eq_of_lt hw
  have hle : h.sumAllocated.toNat + bytesize.toNat ≤ h.sizeMemAllocatable.toNat := by
    simp only [Hook.admits, hoff, Bool.or_false, Bool.not_eq_true', decide_eq_false_iff_not,
      uint64_lt_iff, not_lt] at ha
    omega
  have hs := hI.sum
  refine ⟨fun h' ↦ by simp [hg] at h', ?_, ?_⟩ <;>
    simp only [insertCudaAllocation_sumAllocated, insertCudaAllocation_cudaAllocationList,
      insertCudaAllocation_sizeMemAllocatable, List.map_append, List.sum_append, List.map_singleton,
      List.sum_singleton, hadd] <;> omega

/-- A free leaves the rest of the list, whose sum is no larger. -/
theorem remove (hI : CapInv h) (dptr : UInt64) : CapInv (removeCudaAllocation dptr h) := by
  rw [removeCudaAllocation_eq]
  have hsplit := sum_map_filter (fun a : CudaMemAllocation ↦ a.size.toNat) (·.ptr == dptr)
    h.cudaAllocationList
  have hs := hI.sum
  have hlt : h.sumAllocated.toNat < 2 ^ 64 := h.sumAllocated.toNat_lt_size
  generalize hR : ((h.cudaAllocationList.filter (·.ptr == dptr)).map
    fun a : CudaMemAllocation ↦ a.size).sum = R
  have hRn : R.toNat = ((h.cudaAllocationList.filter (·.ptr == dptr)).map
      fun a ↦ a.size.toNat).sum := by
    rw [← hR, toNat_list_sum, List.map_map, Function.comp_def]
    exact Nat.mod_eq_of_lt (by omega)
  have hle : R ≤ h.sumAllocated := uint64_le_iff.mpr (by omega)
  refine ⟨fun hg ↦ by simp [hI.fresh hg], ?_, ?_⟩
  · dsimp only
    rw [UInt64.toNat_sub_of_le _ _ hle]
    simp only [bne] at hsplit ⊢
    omega
  · have := hI.le
    simp only [bne] at hsplit ⊢
    omega

theorem call (hI : CapInv h) (hoff : h.enableSingleOversub = false) (c : MemCall)
    (hw : c.wraps h = false) : CapInv (h.call c).2 := by
  cases c with
  | alloc bytesize info real =>
    have hI' := hI.getMaxMemSize info
    rcases cuMemAlloc_cases bytesize info real h with ⟨-, he⟩ | ⟨-, -, he⟩ | ⟨-, ha, -, he⟩ |
        ⟨-, -, -, he⟩ <;> simp only [Hook.call, he]
    · exact hI
    · exact hI'
    · exact hI'.insert (by simpa using hoff) ha (by simpa [MemCall.wraps] using hw) (by simp) _
    · exact hI'
  | free dptr result =>
    rcases cuMemFree_cases dptr result h with ⟨-, he⟩ | ⟨-, -, he⟩ | ⟨-, -, he⟩ <;>
      simp only [Hook.call, he]
    · exact hI
    · exact hI.remove dptr
    · exact hI

theorem run (hI : CapInv h) (hoff : h.enableSingleOversub = false) (calls : List MemCall)
    (hw : Hook.noWrap calls h = true) : CapInv (h.run calls) := by
  induction calls generalizing h with
  | nil => exact hI
  | cons c cs ih =>
    simp only [Hook.noWrap, Bool.and_eq_true, Bool.not_eq_true'] at hw
    exact ih (hI.call hoff c hw.1) (by rw [call_enableSingleOversub, hoff]) hw.2

end CapInv

/-- A device that reports `1024` bytes in all. -/
def tinyDevice : MemInfo := ⟨0, 0, 1024⟩

/-- A device that reports `100` bytes more than the reserve. -/
def smallDevice : MemInfo := ⟨0, 0, reserveBytes + 100⟩

/-- **The memory cap holds while nothing wraps.** Over every run of `cuMemAlloc` and `cuMemFree`
calls with oversubscription off, as long as no admission test wraps, `sum_allocated` is the sum of
the sizes of the live allocations, with no reduction, and stays within the limit. -/
theorem sumAllocated_le_of_noWrap (loaded : Bool) (calls : List MemCall)
    (hw : Hook.noWrap calls (Hook.init loaded false) = true) :
    ((Hook.init loaded false).run calls).sumAllocated.toNat =
        (((Hook.init loaded false).run calls).cudaAllocationList.map (·.size.toNat)).sum ∧
      ((Hook.init loaded false).run calls).sumAllocated ≤
        ((Hook.init loaded false).run calls).sizeMemAllocatable := by
  have hI := (CapInv.init loaded false).run rfl calls hw
  exact ⟨hI.sum, uint64_le_iff.mpr (hI.sum ▸ hI.le)⟩

theorem sumAllocated_le_of_noWrap_small :
    Hook.noWrap [.alloc 50 smallDevice ⟨0, 16⟩] (Hook.init true false) = true ∧
      ((Hook.init true false).run [.alloc 50 smallDevice ⟨0, 16⟩]).sumAllocated ≤
        ((Hook.init true false).run [.alloc 50 smallDevice ⟨0, 16⟩]).sizeMemAllocatable := by
  have hw : Hook.noWrap [.alloc 50 smallDevice ⟨0, 16⟩] (Hook.init true false) = true := by decide
  exact ⟨hw, (sumAllocated_le_of_noWrap true _ hw).2⟩

/-- An allocation of `50` bytes, one of `2 ^ 64 - 1` bytes, and a free of the first, on
`smallDevice`, with the driver succeeding. -/
def capWrapRun : List MemCall :=
  [.alloc 50 smallDevice ⟨0, 16⟩, .alloc 18446744073709551615 smallDevice ⟨0, 32⟩, .free 16 0]

/-- **The memory cap wraps**, with oversubscription off. On a device that reports less than the
reserve in all, the limit the first `cuMemAlloc` takes is above that total. On a device with
`100` bytes above the reserve, after an allocation of `50` bytes one of `2 ^ 64 - 1` bytes passes
the admission test, whose sum wraps to `49`; once the first is freed, `sum_allocated` is above
the limit. -/
theorem memory_cap_wraps :
    tinyDevice.total <
      ((Hook.init true false).run [.alloc 1 tinyDevice ⟨0, 16⟩]).sizeMemAllocatable ∧
    ((Hook.init true false).run capWrapRun).sizeMemAllocatable <
      ((Hook.init true false).run capWrapRun).sumAllocated := by
  decide

end Nvshare
