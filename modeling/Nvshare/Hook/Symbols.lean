import Nvshare.Hook.Memory

/-!
# Which function an application gets

An application reaches the driver's functions through two lookups, and `hook.c` interposes both:
`dlsym` (as `dlsym_225` and `dlsym_234`, one per glibc symbol version) and the driver's own
`cuGetProcAddress` and `cuGetProcAddress_v2`. Each compares the symbol asked for with the names
of the fifteen functions `hook.c` defines, one `strcmp` after another, and hands out the hook on
a match; any other symbol goes to the real lookup. Only through a hook does a kernel launch or a
copy wait for the lock (`continue_with_lock`), so which names reach a hook decides what the lock
covers.

The two lookups do not compare the same names. `dlsym` compares `CUDA_SYMBOL_STRING (x)`, which
stringifies `x` after the `#define`s of `cuda_defs.h` have renamed it, so `"cuMemAlloc_v2"`;
`cuGetProcAddress` compares the plain literal `"cuMemAlloc"`.

## Results

* `hookOf_eq_some_iff`: the names of the table are pairwise distinct, so a chain of `strcmp`s
  finds the hook whose name is the symbol, whatever its place in the chain.
* `interposedDlsym_spec`: `dlsym` hands out a hook exactly for its `CUDA_SYMBOL_STRING`; its
  shortcut for symbols that do not start with `cu` changes no answer.
* `cuGetProcAddressV2_eq`: `cuGetProcAddress_v2` stores the pointer and returns the result that
  `cuGetProcAddress` does, given the same driver; it adds only the status it stores.
* `interposedDlsym_plain_name`: through `dlsym`, the plain names of the nine functions that
  `cuda_defs.h` renames reach the driver, not the hooks.

Symbols are `List Char`, without the NUL that ends them. A real lookup and the hooks' addresses
are parameters: the real `dlsym` as `dlvsym` found it, with its `handle` fixed, and the real
`cuGetProcAddress` as `bootstrap_cuda` found it, `none` where that failed.
-/

namespace Nvshare

/-- The functions of the driver API that `hook.c` defines. -/
inductive HookFn
  | cuMemAlloc | cuMemFree | cuMemGetInfo | cuGetProcAddress | cuGetProcAddressV2 | cuInit
  | cuLaunchKernel | cuMemcpy | cuMemcpyAsync | cuMemcpyDtoH | cuMemcpyDtoHAsync
  | cuMemcpyHtoD | cuMemcpyHtoDAsync | cuMemcpyDtoD | cuMemcpyDtoDAsync
  deriving DecidableEq, Repr

/-- The order in which the four lookups compare the names. -/
def hookTable : List HookFn :=
  [.cuMemAlloc, .cuMemFree, .cuMemGetInfo, .cuGetProcAddress, .cuGetProcAddressV2, .cuInit,
    .cuLaunchKernel, .cuMemcpy, .cuMemcpyAsync, .cuMemcpyDtoH, .cuMemcpyDtoHAsync,
    .cuMemcpyHtoD, .cuMemcpyHtoDAsync, .cuMemcpyDtoD, .cuMemcpyDtoDAsync]

/-- The function's name as `hook.c` spells it, the literal `cuGetProcAddress` compares with. -/
def HookFn.name : HookFn → List Char
  | .cuMemAlloc => "cuMemAlloc".toList
  | .cuMemFree => "cuMemFree".toList
  | .cuMemGetInfo => "cuMemGetInfo".toList
  | .cuGetProcAddress => "cuGetProcAddress".toList
  | .cuGetProcAddressV2 => "cuGetProcAddress_v2".toList
  | .cuInit => "cuInit".toList
  | .cuLaunchKernel => "cuLaunchKernel".toList
  | .cuMemcpy => "cuMemcpy".toList
  | .cuMemcpyAsync => "cuMemcpyAsync".toList
  | .cuMemcpyDtoH => "cuMemcpyDtoH".toList
  | .cuMemcpyDtoHAsync => "cuMemcpyDtoHAsync".toList
  | .cuMemcpyHtoD => "cuMemcpyHtoD".toList
  | .cuMemcpyHtoDAsync => "cuMemcpyHtoDAsync".toList
  | .cuMemcpyDtoD => "cuMemcpyDtoD".toList
  | .cuMemcpyDtoDAsync => "cuMemcpyDtoDAsync".toList

/-- The `#define`s of `cuda_defs.h`, from the name a program writes to the driver's versioned
one. -/
def cudaDefsRenames : List (List Char × List Char) :=
  [("cuMemGetInfo".toList, "cuMemGetInfo_v2".toList),
    ("cuMemAlloc".toList, "cuMemAlloc_v2".toList),
    ("cuMemFree".toList, "cuMemFree_v2".toList),
    ("cuMemcpyHtoD".toList, "cuMemcpyHtoD_v2".toList),
    ("cuMemcpyDtoH".toList, "cuMemcpyDtoH_v2".toList),
    ("cuMemcpyDtoD".toList, "cuMemcpyDtoD_v2".toList),
    ("cuMemcpyHtoDAsync".toList, "cuMemcpyHtoDAsync_v2".toList),
    ("cuMemcpyDtoHAsync".toList, "cuMemcpyDtoHAsync_v2".toList),
    ("cuMemcpyDtoDAsync".toList, "cuMemcpyDtoDAsync_v2".toList),
    ("nvmlInit".toList, "nvmlInit_v2".toList),
    ("nvmlDeviceGetHandleByIndex".toList, "nvmlDeviceGetHandleByIndex_v2".toList)]

/-- An identifier after the preprocessor: renamed if `cuda_defs.h` defines it, else itself. -/
def cudaDefsRename (ident : List Char) : List Char :=
  (cudaDefsRenames.lookup ident).getD ident

/-- `CUDA_SYMBOL_STRING (x)`: `STRINGIFY (x)` with `x` macro-expanded first, so the renamed
name. -/
def HookFn.symbolString (h : HookFn) : List Char := cudaDefsRename h.name

/-- A chain of `if (strcmp (symbol, name (h)) == 0)` over `hookTable`: the first hook whose name
is `symbol`. -/
def hookOf (name : HookFn → List Char) (symbol : List Char) : Option HookFn :=
  hookTable.find? fun h ↦ decide (symbol = name h)

/-- The body of `dlsym_225` and `dlsym_234`: the real `dlsym` for a symbol that does not start
with `cu` (`strncmp (symbol, "cu", 2) != 0`), else the hook whose `CUDA_SYMBOL_STRING` it is, and
the real `dlsym` again when there is none. -/
def interposedDlsym {α : Type} (realDlsym : List Char → α) (addr : HookFn → α)
    (symbol : List Char) : α :=
  if symbol.take 2 ≠ "cu".toList then realDlsym symbol
  else
    match hookOf HookFn.symbolString symbol with
    | some h => addr h
    | none => realDlsym symbol

/-- `dlsym_225`, the `dlsym@GLIBC_2.2.5` of `libnvshare`, over `real_dlsym_225`. -/
def dlsym225 {α : Type} (realDlsym225 : List Char → α) (addr : HookFn → α) : List Char → α :=
  interposedDlsym realDlsym225 addr

/-- `dlsym_234`, the `dlsym@GLIBC_2.34` of `libnvshare`, over `real_dlsym_234`. -/
def dlsym234 {α : Type} (realDlsym234 : List Char → α) (addr : HookFn → α) : List Char → α :=
  interposedDlsym realDlsym234 addr

/-- `cuGetProcAddress (symbol, pfn, cudaVersion, flags)` once `pthread_once` has run the
initialisers: its result, and what it stores in `*pfn` (`none`: nothing). `real` answers the
same for the other symbols. -/
def cuGetProcAddress {α : Type} (real : Option (List Char → Nat × Option α))
    (addr : HookFn → α) (symbol : List Char) : Nat × Option α :=
  match real with
  | none => (cudaErrorNotInitialized, none)
  | some real =>
    match hookOf HookFn.name symbol with
    | some h => (cudaSuccess, some (addr h))
    | none => real symbol

/-- `CU_GET_PROC_ADDRESS_SUCCESS` of the driver's `cuda.h`. -/
def cuGetProcAddressSuccess : Nat := 0

/-- `cuGetProcAddress_v2 (symbol, pfn, cudaVersion, flags, symbolStatus)`: as
`cuGetProcAddress`, and what it stores in `*symbolStatus` when `symbolStatus` is not `NULL`.
It stores `CU_GET_PROC_ADDRESS_SUCCESS` before the lookup; the real function may overwrite it. -/
def cuGetProcAddressV2 {α : Type} (real : Option (List Char → Nat × Option α × Option Nat))
    (addr : HookFn → α) (statusPtr : Bool) (symbol : List Char) :
    Nat × Option α × Option Nat :=
  match real with
  | none => (cudaErrorNotInitialized, none, none)
  | some real =>
    let status := if statusPtr then some cuGetProcAddressSuccess else none
    match hookOf HookFn.name symbol with
    | some h => (cudaSuccess, some (addr h), status)
    | none =>
      let (result, pfn, status') := real symbol
      (result, pfn, if statusPtr then status'.or status else none)

/-! ## The table lookup -/

theorem hookOf_name_self (h : HookFn) : hookOf HookFn.name h.name = some h := by
  cases h <;> rfl

theorem hookOf_symbolString_self (h : HookFn) :
    hookOf HookFn.symbolString h.symbolString = some h := by
  cases h <;> rfl

/-- A chain of `strcmp`s over names that each lead back to their own hook finds, for every
symbol, the hook whose name it is. -/
theorem hookOf_eq_some_iff {name : HookFn → List Char}
    (hself : ∀ h, hookOf name (name h) = some h) {symbol : List Char} {h : HookFn} :
    hookOf name symbol = some h ↔ symbol = name h := by
  constructor
  · intro hs
    simpa using List.find?_some hs
  · rintro rfl
    exact hself h

theorem hookOf_eq_none_iff {name : HookFn → List Char}
    (hself : ∀ h, hookOf name (name h) = some h) {symbol : List Char} :
    hookOf name symbol = none ↔ ∀ h, symbol ≠ name h := by
  constructor
  · rintro hs h rfl
    rw [hself h] at hs
    cases hs
  · intro hs
    cases hh : hookOf name symbol with
    | none => rfl
    | some h => exact absurd ((hookOf_eq_some_iff hself).mp hh) (hs h)

/-- Every `CUDA_SYMBOL_STRING` of the table starts with `cu`. -/
theorem symbolString_take_two (h : HookFn) : h.symbolString.take 2 = "cu".toList := by
  cases h <;> rfl

/-! ## `dlsym` -/

/-- **`dlsym` hands out a hook exactly for its `CUDA_SYMBOL_STRING`.** For every symbol,
`dlsym_225` and `dlsym_234` return the hook whose versioned name it is, and the real `dlsym`'s
answer for any other: the `strncmp` shortcut sends nothing to the real `dlsym` that the chain
would have hooked. -/
theorem interposedDlsym_spec {α : Type} (realDlsym : List Char → α) (addr : HookFn → α)
    (symbol : List Char) :
    (∀ h : HookFn, symbol = h.symbolString → interposedDlsym realDlsym addr symbol = addr h) ∧
      ((∀ h : HookFn, symbol ≠ h.symbolString) →
        interposedDlsym realDlsym addr symbol = realDlsym symbol) := by
  constructor
  · rintro h rfl
    simp [interposedDlsym, symbolString_take_two, hookOf_symbolString_self]
  · intro hs
    simp [interposedDlsym, (hookOf_eq_none_iff hookOf_symbolString_self).mpr hs]

/-- What `dlsym` does with a function's plain name, the one `cuGetProcAddress` compares. -/
theorem hookOf_symbolString_name (h : HookFn) :
    hookOf HookFn.symbolString h.name = if h.symbolString = h.name then some h else none := by
  cases h <;> rfl

/-- **The plain names of the renamed functions bypass the hooks under `dlsym`.** A function's
plain name reaches its hook through `dlsym` exactly when `cuda_defs.h` does not rename it. For
`cuMemAlloc`, `cuMemFree`, `cuMemGetInfo` and the six `cuMemcpy{HtoD,DtoH,DtoD}[Async]`,
`dlsym` of the plain name returns the real `dlsym`'s function, which does not wait for the lock;
`cuGetProcAddress` hooks those same names. -/
theorem interposedDlsym_plain_name {α : Type} (realDlsym : List Char → α) (addr : HookFn → α)
    (h : HookFn) :
    interposedDlsym realDlsym addr h.name =
      if h.symbolString = h.name then addr h else realDlsym h.name := by
  have hcu : h.name.take 2 = "cu".toList := by cases h <;> rfl
  simp only [interposedDlsym, hcu, ne_eq, not_true_eq_false, if_false,
    hookOf_symbolString_name]
  split_ifs <;> rfl

/-! ## `cuGetProcAddress` -/

/-- `cuGetProcAddress` hands out a hook exactly for its plain name once the real one was found,
and stores nothing while it was not. -/
theorem cuGetProcAddress_spec {α : Type} (real : Option (List Char → Nat × Option α))
    (addr : HookFn → α) (symbol : List Char) :
    (real = none → cuGetProcAddress real addr symbol = (cudaErrorNotInitialized, none)) ∧
      (∀ r (h : HookFn), real = some r → symbol = h.name →
        cuGetProcAddress real addr symbol = (cudaSuccess, some (addr h))) ∧
      (∀ r, real = some r → (∀ h : HookFn, symbol ≠ h.name) →
        cuGetProcAddress real addr symbol = r symbol) := by
  refine ⟨?_, ?_, ?_⟩
  · rintro rfl
    rfl
  · rintro r h rfl rfl
    simp [cuGetProcAddress, hookOf_name_self]
  · rintro r rfl hs
    simp [cuGetProcAddress, (hookOf_eq_none_iff hookOf_name_self).mpr hs]

/-- **`cuGetProcAddress_v2` hands out what `cuGetProcAddress` does.** Over drivers whose two
functions answer alike, the two hooks return the same result and store the same pointer for
every symbol; `cuGetProcAddress_v2` adds only the status, `CU_GET_PROC_ADDRESS_SUCCESS` for every
name it hooks. -/
theorem cuGetProcAddressV2_eq {α : Type} {real : Option (List Char → Nat × Option α)}
    {realV2 : Option (List Char → Nat × Option α × Option Nat)}
    (hreal : ∀ s, (realV2.map fun r ↦ ((r s).1, (r s).2.1)) = real.map fun r ↦ r s)
    (addr : HookFn → α) (statusPtr : Bool) (symbol : List Char) :
    ((cuGetProcAddressV2 realV2 addr statusPtr symbol).1,
        (cuGetProcAddressV2 realV2 addr statusPtr symbol).2.1) =
        cuGetProcAddress real addr symbol ∧
      (realV2.isSome → (∃ h : HookFn, symbol = h.name) → statusPtr = true →
        (cuGetProcAddressV2 realV2 addr statusPtr symbol).2.2 = some cuGetProcAddressSuccess) := by
  have hs := hreal symbol
  cases realV2 with
  | none =>
    cases real with
    | none => exact ⟨rfl, by simp⟩
    | some _ => cases hs
  | some r =>
    cases real with
    | none => cases hs
    | some r₁ =>
      simp only [Option.map_some', Option.some.injEq] at hs
      refine ⟨?_, fun _ ⟨h, hsym⟩ hptr ↦ ?_⟩
      · cases hh : hookOf HookFn.name symbol <;>
          simp [cuGetProcAddressV2, cuGetProcAddress, hh, ← hs]
      · simp [cuGetProcAddressV2, hsym, hookOf_name_self, hptr]

theorem cuGetProcAddressV2_eq_found :
    (∀ s, ((some fun _ ↦ (7, none, none) : Option (List Char → Nat × Option Nat × Option Nat)).map
        fun r ↦ ((r s).1, (r s).2.1)) =
      (some fun _ ↦ (7, none) : Option (List Char → Nat × Option Nat)).map fun r ↦ r s) ∧
      ((cuGetProcAddressV2 (some fun _ ↦ (7, none, none)) (fun _ ↦ 1) true
            HookFn.cuLaunchKernel.name).1,
          (cuGetProcAddressV2 (some fun _ ↦ (7, none, none)) (fun _ ↦ 1) true
            HookFn.cuLaunchKernel.name).2.1) =
          cuGetProcAddress (some fun _ ↦ (7, none)) (fun _ ↦ 1) HookFn.cuLaunchKernel.name ∧
        ((some fun _ ↦ (7, none, none) :
            Option (List Char → Nat × Option Nat × Option Nat)).isSome →
          (∃ h : HookFn, HookFn.cuLaunchKernel.name = h.name) → true = true →
          (cuGetProcAddressV2 (some fun _ ↦ (7, none, none)) (fun _ ↦ 1) true
            HookFn.cuLaunchKernel.name).2.2 = some cuGetProcAddressSuccess) := by
  have hreal : ∀ s, ((some fun _ ↦ (7, none, none) :
      Option (List Char → Nat × Option Nat × Option Nat)).map fun r ↦ ((r s).1, (r s).2.1)) =
      (some fun _ ↦ (7, none) : Option (List Char → Nat × Option Nat)).map fun r ↦ r s :=
    fun _ ↦ rfl
  exact ⟨hreal, cuGetProcAddressV2_eq hreal _ true _⟩

end Nvshare
