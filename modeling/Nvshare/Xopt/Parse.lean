import Mathlib.Data.List.Basic
import Mathlib.Logic.Relation

/-!
# xopt's command-line parser

`nvsharectl` reads its command line with xopt (`xopt.c`). `xopt_parse` walks `argv` once: an
argument that starts with one dash is a group of short options, one that starts with two dashes
is a long option, `--=`-style values included, and anything else is an *extra*. A short option
that wants a value takes the rest of its group or the next argument; after a bare `--` every
argument is an extra. Each option found runs its callback, which stores the value in the
caller's data. At the end every option marked `XOPT_REQUIRED` must have been seen.

Errors are reported through `_xopt_set_err`, which formats the message into a static buffer and
`longjmp`s back to the end of `_xopt_parse_impl`: here the parser returns `Except`, and the
message is what the buffer holds (`xoptErrText`).

## Representation

* `argv` is a list of C strings without their NUL, `argc` its length; `argv[i]` is
  `argv.getD i []`.
* An option's callback is a parameter `cb` of the parser: the one the option table names, or
  `_xopt_default_callback` (`Nvshare.Xopt.Nvsharectl`). It is given the option's index, the
  option, the value (`NULL` or a string), whether the option came in its long form, and the
  caller's data, and returns the new data or the error it reports.
* The parser starts from a fresh context, as `xopt_context` leaves it (`doubledash` clear).
  `malloc` and `realloc` of the extras array succeed.
* A run records its callbacks, `(index, value, long form)` in order, beside the data.

## Results

The loop is cut into rounds (`xoptRound`: one argument, the `switch` on its kind, `argi++`), and
a parse is a run of rounds (`xoptLoop_run`, which also shows that `argc` rounds of fuel are
enough). `xoptRound_cases` says once what a round can do; every property of a parse is an
invariant of rounds, lifted over the run.

* `xoptParseArgv_extras`: the extras are arguments of `argv`, in order.
* `xoptParseArgv_doubledash`: everything after the first `--` is an extra, verbatim.
* `xoptParseArgv_unknown_long`: a long option that names no option fails the parse, wherever it
  stands before `--`.
* `xoptParseArgv_posix`: with `XOPT_CTX_POSIXMEHARDER`, the extras are one stretch of `argv`, the
  first `--` left out.
* `xoptParseArgv_required`: a successful parse ran the callback of every required option.
-/

namespace Nvshare

/-! ## Options and flags -/

/-- `xoptOption`, the fields the parser reads: `longArg` is `NULL` or a name, a missing
`shortArg` is `'\0'`, `offset` places the value in the caller's data, and `options` holds the
`XOPT_TYPE_*`, `XOPT_PARAM_OPTIONAL` and `XOPT_REQUIRED` bits. -/
structure XoptOption where
  longArg : Option (List Char)
  shortArg : Char
  offset : Nat
  options : Nat
  deriving DecidableEq, Repr

/-- `XOPT_TYPE_STRING`. -/
def xoptTypeString : Nat := 0x1

/-- `XOPT_TYPE_INT`. -/
def xoptTypeInt : Nat := 0x2

/-- `XOPT_TYPE_LONG`. -/
def xoptTypeLong : Nat := 0x4

/-- `XOPT_TYPE_BOOL`. -/
def xoptTypeBool : Nat := 0x20

/-- `XOPT_PARAM_OPTIONAL`. -/
def xoptParamOptional : Nat := 0x40

/-- `XOPT_REQUIRED`. -/
def xoptRequired : Nat := 0x80

/-- `XOPT_CTX_KEEPFIRST`: `argv[0]` is parsed too. -/
def xoptCtxKeepfirst : Nat := 0x1

/-- `XOPT_CTX_POSIXMEHARDER`: no option after an extra. -/
def xoptCtxPosixmeharder : Nat := 0x2

/-- `XOPT_CTX_NOCONDENSE`: no groups of short flags. -/
def xoptCtxNocondense : Nat := 0x4

/-- `XOPT_CTX_SLOPPYSHORTS`: a short option's value may follow it in its group. -/
def xoptCtxSloppyshorts : Nat := 0x8

/-- `XOPT_CTX_STRICT`: an unknown short option is an error. -/
def xoptCtxStrict : Nat := 0x10

/-- `flags & bit`, as a test. -/
def hasFlag (flags bit : Nat) : Bool := flags &&& bit != 0

/-- `_xopt_set_err`'s message as `errbuf` holds it: formatted into `ERRBUF_SIZE` bytes, and read
back as a C string, up to its first NUL. -/
def xoptErrText (msg : List Char) : List Char := (msg.take 4095).takeWhile (· ≠ '\x00')

/-- `_xopt_get_size`: how many of the first two characters are dashes, up to the first that is
not. -/
def xoptGetSize : List Char → Nat
  | '-' :: '-' :: _ => 2
  | '-' :: _ => 1
  | _ => 0

/-- The test of `_xopt_get_arg`'s search: `opt` has the short name `arg[0]` when `size = 1`, or a
long name of `len` characters that `arg` starts with. -/
def XoptOption.names (opt : XoptOption) (arg : List Char) (len size : Nat) : Bool :=
  (size == 1 && opt.shortArg == arg.headD '\x00') ||
    match opt.longArg with
    | some l => l.length == len && l == arg.take len
    | none => false

/-- `_xopt_get_arg`: the first option `arg` names, with its index, and what it asks of a value:
`0` nothing (a flag, or no option), `1` an optional value, `2` a value. -/
def xoptGetArg (options : List XoptOption) (arg : List Char) (len size : Nat) :
    Nat × Option (Nat × XoptOption) :=
  match options.enum.find? fun p ↦ p.2.names arg len size with
  | none => (0, none)
  | some (i, opt) =>
    if opt.options &&& xoptTypeBool != 0 then (0, some (i, opt))
    else if opt.options &&& xoptParamOptional != 0 then (1, some (i, opt))
    else (2, some (i, opt))

/-- The parser's state: `argi`, the context's `doubledash` and `required`, the caller's data,
the extras so far, and the callbacks made so far. -/
structure XoptState (D : Type) where
  argi : Nat
  doubledash : Bool
  required : List Bool
  data : D
  extras : List (List Char)
  calls : List (Nat × Option (List Char) × Bool)

/-- `ctx->required[option_index] = false` for the option `_xopt_parse_arg` found last. -/
def XoptState.seen {D : Type} (st : XoptState D) : Option Nat → XoptState D
  | none => st
  | some i => { st with required := st.required.set i false }

/-- The value of a long option: what follows the first `=`, `NULL` when there is no `=` or
nothing after it. -/
def xoptValStart (rest : List Char) : Option (List Char) :=
  if '=' ∈ rest then
    match rest.drop ((rest.takeWhile (· ≠ '=')).length + 1) with
    | [] => none
    | v => some v
  else none

section Parser

variable {D : Type} (options : List XoptOption) (flags : Nat)
  (cb : Nat → XoptOption → Option (List Char) → Bool → D → Except (List Char) D)
  (argv : List (List Char))

/-- `_xopt_set`: run the option's callback; an error it reports ends the parse. -/
def xoptSet (i : Nat) (opt : XoptOption) (val : Option (List Char)) (longArg : Bool)
    (st : XoptState D) : Except (List Char) (XoptState D) := do
  let d ← cb i opt val longArg st.data
  pure { st with data := d, calls := st.calls ++ [(i, val, longArg)] }

/-- The loop over a group of short options, `while (length--)`, on the characters not yet read:
the option the last lookup found (`option`, `NULL` after a character that names none). -/
def xoptShortLoop : List Char → Option Nat → XoptState D →
    Except (List Char) (Option Nat × XoptState D)
  | [], last, st => .ok (last, st)
  | c :: cs, _, st =>
    match xoptGetArg options (c :: cs) 1 1 with
    | (_, none) =>
      if hasFlag flags xoptCtxStrict then .error (xoptErrText ("invalid option: -".toList ++ [c]))
      else .ok (none, st)
    | (req, some (i, opt)) =>
      if 0 < req ∧ cs ≠ [] ∧ hasFlag flags xoptCtxSloppyshorts = false then
        .error (xoptErrText
          ("short option parameters must be separated, not condensed: ".toList ++
            argv.getD st.argi []))
      else match req with
      | 0 =>
        if cs ≠ [] ∧ hasFlag flags xoptCtxNocondense then
          .error (xoptErrText ("short options cannot be combined: ".toList ++ argv.getD st.argi []))
        else do
          let st ← xoptSet cb i opt none false st
          xoptShortLoop cs (some i) st
      | 1 =>
        if st.argi + 1 < argv.length ∧ xoptGetSize (argv.getD (st.argi + 1) []) = 0 then do
          let st ← xoptSet cb i opt (some (argv.getD (st.argi + 1) [])) false
            { st with argi := st.argi + 1 }
          xoptShortLoop cs (some i) st
        else do
          let st ← xoptSet cb i opt none false st
          xoptShortLoop cs (some i) st
      | _ =>
        if cs = [] then
          if st.argi + 1 < argv.length ∧ xoptGetSize (argv.getD (st.argi + 1) []) = 0 then do
            let st ← xoptSet cb i opt (some (argv.getD (st.argi + 1) [])) false
              { st with argi := st.argi + 1 }
            pure (some i, st)
          else .error (xoptErrText ("missing option value: -".toList ++ [opt.shortArg]))
        else do
          let st ← xoptSet cb i opt (some cs) false st
          pure (some i, st)

/-- The long-option branch of `_xopt_parse_arg`, on the characters after `--`: the index of the
option it names. The value follows the first `=` (`xoptValStart`). A flag's callback runs twice:
once in its `case 0`, and once more after the `switch`. -/
def xoptLong (rest : List Char) (st : XoptState D) : Except (List Char) (Nat × XoptState D) :=
  let name := rest.takeWhile (· ≠ '=')
  let valStart := xoptValStart rest
  match xoptGetArg options rest name.length 2 with
  | (_, none) => .error (xoptErrText ("invalid option: --".toList ++ name))
  | (0, some (i, opt)) =>
    if valStart.isSome then
      .error (xoptErrText ("option doesn\x27t take a value: --".toList ++ rest))
    else do
      let st ← xoptSet cb i opt valStart true st
      let st ← xoptSet cb i opt valStart true st
      pure (i, st)
  | (2, some (i, opt)) =>
    if valStart.isNone then .error (xoptErrText ("missing option value: --".toList ++ rest))
    else do
      let st ← xoptSet cb i opt valStart true st
      pure (i, st)
  | (_, some (i, opt)) => do
    let st ← xoptSet cb i opt valStart true st
    pure (i, st)

/-- `_xopt_parse_arg` on `argv[argi]`: `0` for an option, `1` for an extra, `2` for `--`. -/
def xoptParseArg (st : XoptState D) : Except (List Char) (Nat × XoptState D) :=
  let arg := argv.getD st.argi []
  if st.doubledash then .ok (1, st) else
  let size := xoptGetSize arg
  let rest := arg.drop size
  if size = 1 ∧ rest = [] then .ok (1, st)
  else if size = 2 ∧ rest = [] then .ok (2, { st with doubledash := true })
  else match size with
  | 1 => do
    let (last, st) ← xoptShortLoop options flags cb argv rest none st
    pure (0, st.seen last)
  | 2 => do
    let (i, st) ← xoptLong options cb rest st
    pure (0, st.seen (some i))
  | _ => .ok (1, st)

/-- The `switch (parseResult)` in the loop of `_xopt_parse_impl`: an option after an extra is an
error under `XOPT_CTX_POSIXMEHARDER`, an extra is appended to the extras. -/
def xoptResult (st : XoptState D) : Nat → Except (List Char) (XoptState D)
  | 0 =>
    if hasFlag flags xoptCtxPosixmeharder ∧ st.extras ≠ [] then
      .error (xoptErrText
        ("options cannot be specified after arguments: ".toList ++ argv.getD st.argi []))
    else .ok st
  | 1 => .ok { st with extras := st.extras ++ [argv.getD st.argi []] }
  | _ => .ok st

/-- One round of the loop of `_xopt_parse_impl`: `_xopt_parse_arg`, the `switch` on its result,
and `(*argi)++`. -/
def xoptRound (st : XoptState D) : Except (List Char) (XoptState D) := do
  let (r, st) ← xoptParseArg options flags cb argv st
  let st ← xoptResult flags argv st r
  pure { st with argi := st.argi + 1 }

/-- The loop of `_xopt_parse_impl` over `argv[argi ..]`; `fuel` bounds its rounds, and `argc`
rounds are enough (`xoptLoop_run`). -/
def xoptLoop : Nat → XoptState D → Except (List Char) (XoptState D)
  | 0, st => .ok st
  | fuel + 1, st =>
    if st.argi < argv.length then xoptRound options flags cb argv st >>= xoptLoop fuel
    else .ok st

/-- A round of the loop, which runs while `argi < argc`. -/
def XoptRound (st st' : XoptState D) : Prop :=
  st.argi < argv.length ∧ xoptRound options flags cb argv st = .ok st'

/-- The check at `end:` of `_xopt_parse_impl`: the message for the first option still
required. -/
def xoptMissing (required : List Bool) : Option (List Char) :=
  match (options.zip required).find? (·.2) with
  | none => none
  | some (opt, _) =>
    some (match opt.longArg with
      | some l => "missing required option: --".toList ++ l
      | none => "missing required option: -".toList ++ [opt.shortArg])

/-- The first argument parsed: `argv[0]` only under `XOPT_CTX_KEEPFIRST`. -/
def xoptFirstArg : Nat := if hasFlag flags xoptCtxKeepfirst then 0 else 1

/-- The state `_xopt_parse_impl` starts from, on the caller's data `d`. -/
def xoptInit (d : D) : XoptState D :=
  ⟨xoptFirstArg flags, false,
    options.map fun o ↦ o.options &&& xoptRequired != 0, d, [], []⟩

/-- `xopt_parse` on a fresh context: the final state, whose `extras` are what `*inextras`
lists, or the error. -/
def xoptParseArgv (d : D) : Except (List Char) (XoptState D) := do
  let st ← xoptLoop options flags cb argv argv.length (xoptInit options flags d)
  match xoptMissing options st.required with
  | some msg => .error (xoptErrText msg)
  | none => pure st

end Parser

/-! ## One argument -/

theorem except_bind_eq_ok {ε α β : Type} {x : Except ε α} {f : α → Except ε β} {b : β} :
    x >>= f = .ok b ↔ ∃ a, x = .ok a ∧ f a = .ok b := by
  cases x <;> simp [bind, Except.bind]

theorem getD_set_false {l : List Bool} {i j : Nat} (h : (l.set j false).getD i true = false) :
    l.getD i true = false ∨ i = j := by
  simp only [List.getD_eq_getElem?_getD, List.getElem?_set] at h ⊢
  split_ifs at h with h₁ h₂
  · exact .inr h₁.symm
  · simp_all
  · exact .inl h

theorem xoptGetArg_some {options : List XoptOption} {arg : List Char} {len size r i : Nat}
    {opt : XoptOption} (h : xoptGetArg options arg len size = (r, some (i, opt))) :
    options[i]? = some opt := by
  unfold xoptGetArg at h
  split at h
  · cases h
  · rename_i hf
    obtain ⟨hi, hopt⟩ := List.mem_enum (List.mem_of_find?_eq_some hf)
    split_ifs at h <;> cases h <;> simp [hi, hopt]

theorem xoptGetSize_le (arg : List Char) : xoptGetSize arg ≤ 2 := by
  unfold xoptGetSize; split <;> omega

theorem eq_dash_of_getSize {arg : List Char} (h₁ : xoptGetSize arg = 1)
    (h₂ : arg.drop (xoptGetSize arg) = []) : arg = ['-'] := by
  rw [h₁] at h₂
  unfold xoptGetSize at h₁
  split at h₁ <;> simp_all

theorem eq_dashdash_of_getSize {arg : List Char} (h₁ : xoptGetSize arg = 2)
    (h₂ : arg.drop (xoptGetSize arg) = []) : arg = ['-', '-'] := by
  rw [h₁] at h₂
  unfold xoptGetSize at h₁
  split at h₁ <;> simp_all

/-- `_xopt_get_arg` finds no option for a long name that is no option's `longArg`. -/
theorem xoptGetArg_long_none {options : List XoptOption} {rest : List Char}
    (hname : ∀ opt ∈ options, opt.longArg ≠ some (rest.takeWhile (· ≠ '='))) :
    xoptGetArg options rest (rest.takeWhile (· ≠ '=')).length 2 = (0, none) := by
  have htake := List.prefix_iff_eq_take.mp (List.takeWhile_prefix (l := rest) (· ≠ '='))
  unfold xoptGetArg
  rw [List.find?_eq_none.mpr]
  rintro ⟨i, opt⟩ hmem
  have hopt := hname opt (List.snd_mem_of_mem_enum hmem)
  simp only [XoptOption.names]
  split
  · rename_i l hl
    simp only [show (2 == 1) = false from rfl, Bool.false_and, Bool.false_or, Bool.and_eq_true,
      beq_iff_eq, ← htake]
    rintro ⟨-, rfl⟩
    exact hopt hl
  · simp

/-- The missing-option check passes only when no option is still required. -/
theorem xoptMissing_eq_none {options : List XoptOption} {required : List Bool}
    (h : xoptMissing options required = none) (hlen : required.length = options.length) {i : Nat}
    (hi : i < options.length) : required.getD i true = false := by
  unfold xoptMissing at h
  split at h
  · rename_i hf
    have hi' : i < (options.zip required).length := by simp [hlen, hi]
    have := List.find?_eq_none.mp hf _ (List.getElem_mem hi')
    simp_all [List.getD_eq_getElem?_getD]
  · cases h

section Steps

variable {D : Type} {options : List XoptOption} {flags : Nat}
  {cb : Nat → XoptOption → Option (List Char) → Bool → D → Except (List Char) D}
  {argv : List (List Char)}

/-- One callback and its record: `cb` makes the data `p'.1` of `p.1` for an option of the table,
and the call is appended to the calls `p.2`. -/
def XoptCallback (options : List XoptOption)
    (cb : Nat → XoptOption → Option (List Char) → Bool → D → Except (List Char) D)
    (p p' : D × List (Nat × Option (List Char) × Bool)) : Prop :=
  ∃ i opt val longArg, options[i]? = some opt ∧ cb i opt val longArg p.1 = .ok p'.1 ∧
    p'.2 = p.2 ++ [(i, val, longArg)]

/-- `st'` comes after `st` in a run: callbacks were only added, an option stopped being required
only once its callback ran, `required` keeps one flag per option, and the data changed only by
callbacks. -/
structure XoptState.Grows (options : List XoptOption)
    (cb : Nat → XoptOption → Option (List Char) → Bool → D → Except (List Char) D)
    (st st' : XoptState D) : Prop where
  calls : st.calls <+: st'.calls
  required : ∀ i, st'.required.getD i true = false →
    st.required.getD i true = false ∨ ∃ v l, (i, v, l) ∈ st'.calls
  length : st'.required.length = st.required.length
  data : Relation.ReflTransGen (XoptCallback options cb) (st.data, st.calls) (st'.data, st'.calls)

/-- A step that makes no callback and clears nothing. -/
theorem XoptState.Grows.of_eq {st st' : XoptState D} (hc : st'.calls = st.calls)
    (hr : st'.required = st.required) (hd : st'.data = st.data) : st.Grows options cb st' :=
  ⟨hc ▸ List.prefix_refl _, fun _ h ↦ .inl (hr ▸ h), hr ▸ rfl, by rw [hd, hc]⟩

theorem XoptState.Grows.refl (st : XoptState D) : st.Grows options cb st := .of_eq rfl rfl rfl

theorem XoptState.Grows.trans {st₁ st₂ st₃ : XoptState D}
    (h₁ : st₁.Grows options cb st₂) (h₂ : st₂.Grows options cb st₃) :
    st₁.Grows options cb st₃ where
  calls := h₁.calls.trans h₂.calls
  required i h := (h₂.required i h).elim (fun h ↦ (h₁.required i h).imp_right
    fun ⟨v, l, hm⟩ ↦ ⟨v, l, h₂.calls.subset hm⟩) .inr
  length := h₂.length.trans h₁.length
  data := h₁.data.trans h₂.data

/-- `st'` follows `st` within one argument: the extras and `doubledash` are as they were, and
`argi` moved only over values (arguments that do not start with a dash). -/
structure XoptState.Advance (options : List XoptOption)
    (cb : Nat → XoptOption → Option (List Char) → Bool → D → Except (List Char) D)
    (argv : List (List Char)) (st st' : XoptState D) extends st.Grows options cb st' : Prop where
  extras : st'.extras = st.extras
  doubledash : st'.doubledash = st.doubledash
  argi : st.argi ≤ st'.argi
  values : ∀ j, st.argi < j → j ≤ st'.argi →
    j < argv.length ∧ xoptGetSize (argv.getD j []) = 0

theorem XoptState.Advance.refl (st : XoptState D) : st.Advance options cb argv st :=
  ⟨.refl st, rfl, rfl, le_rfl, fun _ h₁ h₂ ↦ absurd h₁ (not_lt.mpr h₂)⟩

theorem XoptState.Advance.trans {st₁ st₂ st₃ : XoptState D}
    (h₁ : st₁.Advance options cb argv st₂) (h₂ : st₂.Advance options cb argv st₃) :
    st₁.Advance options cb argv st₃ where
  toGrows := h₁.toGrows.trans h₂.toGrows
  extras := h₂.extras.trans h₁.extras
  doubledash := h₂.doubledash.trans h₁.doubledash
  argi := h₁.argi.trans h₂.argi
  values j hj hj' := if hj₂ : j ≤ st₂.argi then h₁.values j hj hj₂
    else h₂.values j (by omega) hj'

/-- Taking `argv[argi + 1]` as a value. -/
theorem XoptState.Advance.next {st : XoptState D} (h₁ : st.argi + 1 < argv.length)
    (h₂ : xoptGetSize (argv.getD (st.argi + 1) []) = 0) :
    st.Advance options cb argv { st with argi := st.argi + 1 } := by
  refine ⟨.of_eq rfl rfl rfl, rfl, rfl, Nat.le_succ _, fun j hj hj' ↦ ?_⟩
  dsimp only at hj'
  obtain rfl : j = st.argi + 1 := by omega
  exact ⟨h₁, h₂⟩

/-- Clearing `required` for an option whose callback ran. -/
theorem XoptState.Advance.seen {st st' : XoptState D} {last : Option Nat}
    (h : st.Advance options cb argv st')
    (hlast : ∀ i, last = some i → ∃ v l, (i, v, l) ∈ st'.calls) :
    st.Advance options cb argv (st'.seen last) := by
  cases last with
  | none => exact h
  | some i =>
    refine ⟨⟨h.calls, fun j hj ↦ ?_, (List.length_set ..).trans h.length, h.data⟩, h.extras,
      h.doubledash, h.argi, h.values⟩
    rcases getD_set_false hj with hj | rfl
    · exact h.required j hj
    · exact .inr (hlast _ rfl)

theorem xoptSet_ok (argv : List (List Char)) {i : Nat} {opt : XoptOption}
    {val : Option (List Char)} {longArg : Bool} {st st' : XoptState D}
    (hopt : options[i]? = some opt) (h : xoptSet cb i opt val longArg st = .ok st') :
    st.Advance options cb argv st' ∧ st'.argi = st.argi ∧ (i, val, longArg) ∈ st'.calls := by
  obtain ⟨d, hd, h⟩ := except_bind_eq_ok.mp h
  cases h
  exact ⟨⟨⟨List.prefix_append _ _, fun _ h ↦ .inl h, rfl,
    .single ⟨i, opt, val, longArg, hopt, hd, rfl⟩⟩, rfl, rfl, le_rfl,
    fun _ h₁ h₂ ↦ absurd h₁ (not_lt.mpr h₂)⟩, rfl, by simp⟩

/-- What a group of short options does: it moves within its argument and over values, and the
option it found last has had its callback run. -/
theorem xoptShortLoop_ok {cs : List Char} {last last' : Option Nat} {st st' : XoptState D}
    (hlast : ∀ i, last = some i → ∃ v l, (i, v, l) ∈ st.calls)
    (h : xoptShortLoop options flags cb argv cs last st = .ok (last', st')) :
    st.Advance options cb argv st' ∧
      ∀ i, last' = some i → ∃ v l, (i, v, l) ∈ st'.calls := by
  induction cs generalizing last st with
  | nil =>
    cases h
    exact ⟨.refl _, hlast⟩
  | cons c cs ih =>
    have hcall : ∀ {i opt val st₁ st₂}, options[i]? = some opt →
        xoptSet cb i opt val false st₁ = .ok st₂ →
        xoptShortLoop options flags cb argv cs (some i) st₂ = .ok (last', st') →
        st₁.Advance options cb argv st' ∧
          ∀ i, last' = some i → ∃ v l, (i, v, l) ∈ st'.calls :=
      fun hopt hs hl ↦
        have hs' := xoptSet_ok argv hopt hs
        have ih' := ih (fun _ h ↦ by cases h; exact ⟨_, _, hs'.2.2⟩) hl
        ⟨hs'.1.trans ih'.1, ih'.2⟩
    unfold xoptShortLoop at h
    split at h
    · split at h
      · cases h
      · cases h
        exact ⟨.refl _, fun _ h ↦ by cases h⟩
    · rename_i req i opt hget
      have hopt := xoptGetArg_some hget
      split at h
      · cases h
      split at h
      · split at h
        · cases h
        · obtain ⟨st₂, hs, hl⟩ := except_bind_eq_ok.mp h
          exact hcall hopt hs hl
      · split at h
        · rename_i hnext
          obtain ⟨st₂, hs, hl⟩ := except_bind_eq_ok.mp h
          have := hcall hopt hs hl
          exact ⟨(XoptState.Advance.next hnext.1 hnext.2).trans this.1, this.2⟩
        · obtain ⟨st₂, hs, hl⟩ := except_bind_eq_ok.mp h
          exact hcall hopt hs hl
      · split at h
        · split at h
          · rename_i hnext
            obtain ⟨st₂, hs, hl⟩ := except_bind_eq_ok.mp h
            cases hl
            have hs' := xoptSet_ok argv hopt hs
            exact ⟨(XoptState.Advance.next hnext.1 hnext.2).trans hs'.1,
              fun _ h ↦ by cases h; exact ⟨_, _, hs'.2.2⟩⟩
          · cases h
        · obtain ⟨st₂, hs, hl⟩ := except_bind_eq_ok.mp h
          cases hl
          have hs' := xoptSet_ok argv hopt hs
          exact ⟨hs'.1, fun _ h ↦ by cases h; exact ⟨_, _, hs'.2.2⟩⟩

/-- A long option stays within its argument, and its callback runs. -/
theorem xoptLong_ok (argv : List (List Char)) {rest : List Char} {i : Nat} {st st' : XoptState D}
    (h : xoptLong options cb rest st = .ok (i, st')) :
    st.Advance options cb argv st' ∧ ∃ v l, (i, v, l) ∈ st'.calls := by
  unfold xoptLong at h
  generalize xoptValStart rest = valStart at h
  dsimp only at h
  have hone : ∀ {r i opt st₁ st₂},
      xoptGetArg options rest (rest.takeWhile (· ≠ '=')).length 2 = (r, some (i, opt)) →
      xoptSet cb i opt valStart true st₁ = .ok st₂ →
      st₁.Advance options cb argv st₂ ∧ ∃ v l, (i, v, l) ∈ st₂.calls :=
    fun hget hs ↦ have hs' := xoptSet_ok argv (xoptGetArg_some hget) hs
      ⟨hs'.1, _, _, hs'.2.2⟩
  split at h
  · cases h
  · rename_i hget
    split at h
    · cases h
    obtain ⟨st₁, h₁, h⟩ := except_bind_eq_ok.mp h
    obtain ⟨st₂, h₂, h⟩ := except_bind_eq_ok.mp h
    cases h
    exact ⟨(hone hget h₁).1.trans (hone hget h₂).1, (hone hget h₂).2⟩
  · rename_i hget
    split at h
    · cases h
    obtain ⟨st₁, h₁, h⟩ := except_bind_eq_ok.mp h
    cases h
    exact hone hget h₁
  · rename_i hget
    obtain ⟨st₁, h₁, h⟩ := except_bind_eq_ok.mp h
    cases h
    exact hone hget h₁

/-- What `_xopt_parse_arg` returns: an extra leaves the state alone; `--` sets `doubledash`; an
option argument, which starts with a dash and is neither `-` nor `--`, moves over values and
runs callbacks. -/
theorem xoptParseArg_cases {st st' : XoptState D} {r : Nat}
    (h : xoptParseArg options flags cb argv st = .ok (r, st')) :
    (r = 1 ∧ st' = st ∧ (st.doubledash = true ∨ xoptGetSize (argv.getD st.argi []) = 0 ∨
      argv.getD st.argi [] = ['-'])) ∨
    (r = 2 ∧ st.doubledash = false ∧ argv.getD st.argi [] = ['-', '-'] ∧
      st' = { st with doubledash := true }) ∨
    (r = 0 ∧ st.doubledash = false ∧ xoptGetSize (argv.getD st.argi []) ≠ 0 ∧
      argv.getD st.argi [] ≠ ['-'] ∧ argv.getD st.argi [] ≠ ['-', '-'] ∧
      st.Advance options cb argv st') := by
  unfold xoptParseArg at h
  dsimp only at h
  generalize harg : argv.getD st.argi [] = arg at h ⊢
  split at h
  · cases h
    exact .inl ⟨rfl, rfl, .inl ‹_›⟩
  rename_i hdd
  have hdd : st.doubledash = false := by simpa using hdd
  split at h
  · cases h
    exact .inl ⟨rfl, rfl, .inr (.inr (eq_dash_of_getSize ‹_ ∧ _›.1 ‹_ ∧ _›.2))⟩
  split at h
  · cases h
    exact .inr (.inl ⟨rfl, hdd, eq_dashdash_of_getSize ‹_ ∧ _›.1 ‹_ ∧ _›.2, rfl⟩)
  rename_i h₁ h₂
  split at h
  · rename_i hsize
    obtain ⟨⟨last, st₁⟩, hl, h⟩ := except_bind_eq_ok.mp h
    cases h
    have := xoptShortLoop_ok (fun _ h ↦ by cases h) hl
    refine .inr (.inr ⟨rfl, hdd, by omega, fun he ↦ ?_, fun he ↦ ?_, this.1.seen this.2⟩)
    · simp [he, xoptGetSize] at h₁
    · simp [he, xoptGetSize] at hsize
  · rename_i hsize
    obtain ⟨⟨i, st₁⟩, hl, h⟩ := except_bind_eq_ok.mp h
    cases h
    have := xoptLong_ok argv hl
    refine .inr (.inr ⟨rfl, hdd, by omega, fun he ↦ ?_, fun he ↦ ?_,
      this.1.seen fun _ h ↦ by cases h; exact this.2⟩)
    · simp [he, xoptGetSize] at hsize
    · simp [he, xoptGetSize] at h₂
  · cases h
    rename_i hsize hsize'
    refine .inl ⟨rfl, rfl, .inr (.inl ?_)⟩
    have := xoptGetSize_le arg
    simp only [imp_false] at hsize hsize'
    omega

/-! ## One round -/

/-- What a round does: an extra is appended to the extras; `--` sets `doubledash`; an option
argument, after no extra under `XOPT_CTX_POSIXMEHARDER`, moves within its argument and over
values. -/
theorem xoptRound_cases {st st' : XoptState D} (h : xoptRound options flags cb argv st = .ok st') :
    (st' = { st with extras := st.extras ++ [argv.getD st.argi []], argi := st.argi + 1 } ∧
      (st.doubledash = true ∨ xoptGetSize (argv.getD st.argi []) = 0 ∨
        argv.getD st.argi [] = ['-'])) ∨
    (st.doubledash = false ∧ argv.getD st.argi [] = ['-', '-'] ∧
      st' = { st with doubledash := true, argi := st.argi + 1 }) ∨
    (st.doubledash = false ∧ xoptGetSize (argv.getD st.argi []) ≠ 0 ∧
      argv.getD st.argi [] ≠ ['-'] ∧ argv.getD st.argi [] ≠ ['-', '-'] ∧
      (hasFlag flags xoptCtxPosixmeharder → st.extras = []) ∧
      ∃ st₁, st.Advance options cb argv st₁ ∧
        st' = { st₁ with argi := st₁.argi + 1 }) := by
  obtain ⟨⟨r, st₁⟩, hp, h⟩ := except_bind_eq_ok.mp h
  obtain ⟨st₂, hr, h⟩ := except_bind_eq_ok.mp h
  cases h
  rcases xoptParseArg_cases hp with ⟨rfl, rfl, hx⟩ | ⟨rfl, hdd, harg, rfl⟩ |
    ⟨rfl, hdd, h0, h1, h2, hadv⟩
  · cases hr
    exact .inl ⟨rfl, hx⟩
  · cases hr
    exact .inr (.inl ⟨hdd, harg, rfl⟩)
  · simp only [xoptResult] at hr
    split at hr
    · cases hr
    · rename_i hc
      cases hr
      refine .inr (.inr ⟨hdd, h0, h1, h2, fun hposix ↦ ?_, _, hadv, rfl⟩)
      rw [← hadv.extras]
      by_contra he
      exact hc ⟨hposix, he⟩

theorem XoptRound.argi_lt {st st' : XoptState D} (h : XoptRound options flags cb argv st st') :
    st.argi < st'.argi := by
  rcases xoptRound_cases h.2 with ⟨rfl, -⟩ | ⟨-, -, rfl⟩ |
    ⟨-, -, -, -, -, st₁, hadv, rfl⟩
  · exact Nat.lt_succ_self _
  · exact Nat.lt_succ_self _
  · exact Nat.lt_succ_of_le hadv.argi

/-- A round takes only values: every argument it moves over, after its own, does not start with a
dash. -/
theorem XoptRound.skips {st st' : XoptState D} (h : XoptRound options flags cb argv st st')
    {j : Nat} (hj : st.argi < j) (hj' : j < st'.argi) : xoptGetSize (argv.getD j []) = 0 := by
  rcases xoptRound_cases h.2 with ⟨rfl, -⟩ | ⟨-, -, rfl⟩ |
    ⟨-, -, -, -, -, st₁, hadv, rfl⟩
  · exact absurd hj' (by dsimp only; omega)
  · exact absurd hj' (by dsimp only; omega)
  · exact (hadv.values j hj (Nat.le_of_lt_succ hj')).2

theorem XoptRound.grows {st st' : XoptState D} (h : XoptRound options flags cb argv st st') :
    st.Grows options cb st' := by
  rcases xoptRound_cases h.2 with ⟨rfl, -⟩ | ⟨-, -, rfl⟩ |
    ⟨-, -, -, -, -, st₁, hadv, rfl⟩
  · exact .of_eq rfl rfl rfl
  · exact .of_eq rfl rfl rfl
  · exact hadv.toGrows.trans (.of_eq rfl rfl rfl)

/-! ## Runs -/

open Relation

/-- The loop is a run of rounds that ends with `argi` past `argc`: `argc` rounds are enough, so the
fuel never cuts it short. -/
theorem xoptLoop_run {fuel : Nat} {st st' : XoptState D}
    (h : xoptLoop options flags cb argv fuel st = .ok st')
    (hfuel : argv.length - st.argi ≤ fuel) :
    ReflTransGen (XoptRound options flags cb argv) st st' ∧ argv.length ≤ st'.argi := by
  induction fuel generalizing st with
  | zero =>
    cases h
    exact ⟨.refl, by omega⟩
  | succ fuel ih =>
    unfold xoptLoop at h
    split at h
    · obtain ⟨st₁, h₁, h⟩ := except_bind_eq_ok.mp h
      have hr : XoptRound options flags cb argv st st₁ := ⟨‹_›, h₁⟩
      have := hr.argi_lt
      obtain ⟨hrun, hend⟩ := ih h (by omega)
      exact ⟨.head hr hrun, hend⟩
    · cases h
      exact ⟨.refl, by omega⟩

theorem xoptRun_argi {st st' : XoptState D}
    (hrun : ReflTransGen (XoptRound options flags cb argv) st st') : st.argi ≤ st'.argi := by
  induction hrun with
  | refl => exact le_rfl
  | tail _ hr ih => exact ih.trans hr.argi_lt.le

theorem xoptRun_grows {st st' : XoptState D}
    (hrun : ReflTransGen (XoptRound options flags cb argv) st st') : st.Grows options cb st' := by
  induction hrun with
  | refl => exact .refl _
  | tail _ hr ih => exact ih.trans hr.grows

/-- A run passes through every argument that starts with a dash: no round takes one as a value. -/
theorem xoptRun_visit {st st' : XoptState D}
    (hrun : ReflTransGen (XoptRound options flags cb argv) st st') {k : Nat} (hk : st.argi ≤ k)
    (hk' : k < st'.argi) (hsize : xoptGetSize (argv.getD k []) ≠ 0) :
    ∃ s₁ s₂, ReflTransGen (XoptRound options flags cb argv) st s₁ ∧ s₁.argi = k ∧
      XoptRound options flags cb argv s₁ s₂ ∧
      ReflTransGen (XoptRound options flags cb argv) s₂ st' := by
  induction hrun using ReflTransGen.head_induction_on with
  | refl => omega
  | head hr hrun ih =>
    rcases hk.eq_or_lt with rfl | hlt
    · exact ⟨_, _, .refl, rfl, hr, hrun⟩
    · have : _ ≤ k := not_lt.mp fun hc ↦ hsize (hr.skips hlt hc)
      obtain ⟨s₁, s₂, h₁, h₂, h₃, h₄⟩ := ih this
      exact ⟨s₁, s₂, .head hr h₁, h₂, h₃, h₄⟩

/-- `doubledash` is set only by a `--` the run went through. -/
theorem xoptRun_doubledash {st st' : XoptState D}
    (hrun : ReflTransGen (XoptRound options flags cb argv) st st') (hdd : st.doubledash = false)
    (hdd' : st'.doubledash = true) :
    ∃ j, st.argi ≤ j ∧ j < st'.argi ∧ argv.getD j [] = ['-', '-'] := by
  induction hrun using ReflTransGen.head_induction_on with
  | refl => simp_all
  | head hr hrun ih =>
    have hle := xoptRun_argi hrun
    rcases xoptRound_cases hr.2 with ⟨rfl, hx⟩ | ⟨-, harg, rfl⟩ |
      ⟨-, -, -, -, -, st₁, hadv, rfl⟩
    · obtain ⟨j, hj, hj', h⟩ := ih hdd
      exact ⟨j, by dsimp only at hj; omega, hj', h⟩
    · exact ⟨_, le_rfl, by dsimp only at hle; omega, harg⟩
    · obtain ⟨j, hj, hj', h⟩ := ih (hadv.doubledash.trans hdd)
      exact ⟨j, by have := hadv.argi; dsimp only at hj; omega, hj', h⟩

/-- After `--` every argument is an extra, as it stands in `argv`. -/
theorem xoptRun_after_doubledash {st st' : XoptState D}
    (hrun : ReflTransGen (XoptRound options flags cb argv) st st') (hdd : st.doubledash = true)
    (hend : argv.length ≤ st'.argi) : st'.extras = st.extras ++ argv.drop st.argi := by
  induction hrun using ReflTransGen.head_induction_on with
  | refl => simp [List.drop_eq_nil_of_le hend]
  | head hr hrun ih =>
    rcases xoptRound_cases hr.2 with ⟨rfl, -⟩ | ⟨h, -⟩ | ⟨h, -⟩
    · dsimp only at ih ⊢
      rw [ih hdd, List.drop_eq_getElem_cons hr.1]
      simp [List.getD_eq_getElem?_getD, hr.1]
    · simp_all
    · simp_all

/-- The extras are arguments of `argv` from `first` on, in their order in `argv`. -/
theorem xoptRun_extras {st st' : XoptState D}
    (hrun : ReflTransGen (XoptRound options flags cb argv) st st') {first : Nat}
    (hfirst : first ≤ st.argi) (hex : st.extras.Sublist ((argv.take st.argi).drop first)) :
    st'.extras.Sublist ((argv.take st'.argi).drop first) := by
  induction hrun with
  | refl => exact hex
  | tail hrun hr ih =>
    have hle := (xoptRun_argi hrun).trans' hfirst
    have hmono : ∀ {m n}, m ≤ n →
        ((argv.take m).drop first).Sublist ((argv.take n).drop first) :=
      fun h ↦ (List.take_sublist_take_left argv h).drop first
    rcases xoptRound_cases hr.2 with ⟨rfl, -⟩ | ⟨-, -, rfl⟩ |
      ⟨-, -, -, -, -, st₁, hadv, rfl⟩
    · dsimp only
      rw [List.take_succ, List.drop_append_of_le_length (by simp [hr.1.le, hle])]
      simp only [List.getD_eq_getElem?_getD, List.getElem?_eq_getElem hr.1, Option.getD_some,
        Option.toList_some]
      exact ih.append (.refl _)
    · exact ih.trans (hmono (Nat.le_succ _))
    · exact hadv.extras ▸ ih.trans (hmono (hadv.argi.trans (Nat.le_succ _)))

/-- Under `XOPT_CTX_POSIXMEHARDER`, once an extra is found every later argument is one, the first
`--` left out: an option there is an error. -/
theorem xoptRun_posix {st st' : XoptState D}
    (hrun : ReflTransGen (XoptRound options flags cb argv) st st')
    (hposix : hasFlag flags xoptCtxPosixmeharder = true) (hdd : st.doubledash = false)
    (hend : argv.length ≤ st'.argi) :
    ∃ i, st.argi ≤ i ∧ st'.extras = st.extras ++ (argv.drop i).erase ['-', '-'] ∧
      (st.extras ≠ [] → i = st.argi) := by
  induction hrun using ReflTransGen.head_induction_on with
  | refl => exact ⟨_, le_rfl, by simp [List.drop_eq_nil_of_le hend], fun _ ↦ rfl⟩
  | @head s _ hr hrun ih =>
    have hlt : s.argi < argv.length := hr.1
    rcases xoptRound_cases hr.2 with ⟨rfl, hx⟩ | ⟨-, harg, rfl⟩ |
      ⟨-, -, -, -, hnil, st₁, hadv, rfl⟩
    · obtain ⟨i, -, hi, hlast⟩ := ih hdd
      obtain rfl := hlast (by simp)
      have hne : argv.getD s.argi [] ≠ ['-', '-'] := fun h ↦ by
        rw [h] at hx
        simp [hdd, xoptGetSize] at hx
      have hget : argv.getD s.argi [] = argv[s.argi] := by simp [hlt]
      refine ⟨_, le_rfl, ?_, fun _ ↦ rfl⟩
      rw [hi, List.drop_eq_getElem_cons hlt, ← hget, List.erase_cons_tail (by simpa using hne)]
      simp
    · have hget : argv.getD s.argi [] = argv[s.argi] := by simp [hlt]
      refine ⟨_, le_rfl, ?_, fun _ ↦ rfl⟩
      rw [xoptRun_after_doubledash hrun rfl hend, List.drop_eq_getElem_cons hlt, ← hget, harg,
        List.erase_cons_head]
    · obtain ⟨i, hi₁, hi, -⟩ := ih (hadv.doubledash.trans hdd)
      have := hadv.argi
      refine ⟨i, by dsimp only at hi₁; omega, by rw [hi, hadv.extras],
        fun h ↦ absurd (hnil hposix) h⟩

/-! ## Whole parses

The witnesses parse `sampleArgv` with `sampleOptions` and `sampleCb`. -/

/-- A flag `-a`, `--all`, and a required string option `-o`, `--out`. -/
def sampleOptions : List XoptOption :=
  [⟨some "all".toList, 'a', 0, xoptTypeBool⟩,
    ⟨some "out".toList, 'o', 0, xoptTypeString ||| xoptRequired⟩]

/-- `prog -a --out=f x -- -a y`. -/
def sampleArgv : List (List Char) :=
  ["prog", "-a", "--out=f", "x", "--", "-a", "y"].map String.toList

/-- A callback that keeps the data. -/
def sampleCb (_ : Nat) (_ : XoptOption) (_ : Option (List Char)) (_ : Bool) (d : Unit) :
    Except (List Char) Unit :=
  .ok d

/-- The parse of `sampleArgv`: both options seen, and three extras. -/
def sampleState : XoptState Unit :=
  ⟨7, true, [false, false], (), ["x", "-a", "y"].map String.toList,
    [(0, none, false), (1, some "f".toList, true)]⟩

/-- A successful parse is a run of rounds from the initial state over all of `argv`, after which
no option is still required. -/
theorem xoptParseArgv_run {d : D} {st : XoptState D}
    (h : xoptParseArgv options flags cb argv d = .ok st) :
    ReflTransGen (XoptRound options flags cb argv) (xoptInit options flags d) st ∧
      argv.length ≤ st.argi ∧ xoptMissing options st.required = none := by
  obtain ⟨st₁, h₁, h⟩ := except_bind_eq_ok.mp h
  split at h
  · cases h
  · cases h
    obtain ⟨hrun, hend⟩ := xoptLoop_run h₁ (Nat.sub_le _ _)
    exact ⟨hrun, hend, ‹_›⟩

theorem lt_length_of_getSize {argv : List (List Char)} {k : Nat}
    (h : xoptGetSize (argv.getD k []) ≠ 0) : k < argv.length := by
  by_contra hk
  simp [List.getD_eq_getElem?_getD, List.getElem?_eq_none (not_lt.mp hk), xoptGetSize] at h

/-- A successful parse makes a round at each argument that starts with a dash, up to the first
`--`, with `doubledash` clear. -/
theorem xoptParseArgv_visit {d : D} {st : XoptState D}
    (h : xoptParseArgv options flags cb argv d = .ok st) {k : Nat} (hk : xoptFirstArg flags ≤ k)
    (hsize : xoptGetSize (argv.getD k []) ≠ 0)
    (hfirst : ∀ j, xoptFirstArg flags ≤ j → j < k → argv.getD j [] ≠ ['-', '-']) :
    ∃ s₁ s₂,
      ReflTransGen (XoptRound options flags cb argv) (xoptInit options flags d) s₁ ∧
      s₁.argi = k ∧ s₁.doubledash = false ∧ XoptRound options flags cb argv s₁ s₂ ∧
      ReflTransGen (XoptRound options flags cb argv) s₂ st := by
  obtain ⟨hrun, hend, -⟩ := xoptParseArgv_run h
  obtain ⟨s₁, s₂, h₁, rfl, h₂, h₃⟩ :=
    xoptRun_visit hrun hk ((lt_length_of_getSize hsize).trans_le hend) hsize
  refine ⟨s₁, s₂, h₁, rfl, ?_, h₂, h₃⟩
  cases hdd : s₁.doubledash
  · rfl
  · obtain ⟨j, hj, hj', hj''⟩ := xoptRun_doubledash h₁ rfl hdd
    exact absurd hj'' (hfirst j hj hj')

/-- Everything after the first `--` is an extra, as it stands in `argv`; the extras before it are
arguments before it, in their order. -/
theorem xoptParseArgv_doubledash {d : D} {st : XoptState D}
    (h : xoptParseArgv options flags cb argv d = .ok st) {k : Nat} (hk : xoptFirstArg flags ≤ k)
    (hdd : argv.getD k [] = ['-', '-'])
    (hfirst : ∀ j, xoptFirstArg flags ≤ j → j < k → argv.getD j [] ≠ ['-', '-']) :
    ∃ e, e.Sublist ((argv.take k).drop (xoptFirstArg flags)) ∧
      st.extras = e ++ argv.drop (k + 1) := by
  obtain ⟨s₁, s₂, h₁, rfl, hdd₁, hr, h₂⟩ :=
    xoptParseArgv_visit h hk (by rw [hdd]; decide) hfirst
  obtain ⟨-, hend, -⟩ := xoptParseArgv_run h
  rcases xoptRound_cases hr.2 with ⟨rfl, hx⟩ | ⟨-, -, rfl⟩ | ⟨-, -, -, hne, -⟩
  · rw [hdd] at hx
    simp [hdd₁, xoptGetSize] at hx
  · exact ⟨s₁.extras, xoptRun_extras h₁ le_rfl (List.nil_sublist _),
      xoptRun_after_doubledash h₂ rfl hend⟩
  · exact absurd hdd hne

theorem xoptParseArgv_doubledash_sample :
    xoptParseArgv sampleOptions 0 sampleCb sampleArgv () = .ok sampleState ∧
      xoptFirstArg 0 ≤ 4 ∧ sampleArgv.getD 4 [] = ['-', '-'] ∧
      (∀ j, xoptFirstArg 0 ≤ j → j < 4 → sampleArgv.getD j [] ≠ ['-', '-']) ∧
      ∃ e, e.Sublist ((sampleArgv.take 4).drop (xoptFirstArg 0)) ∧
        sampleState.extras = e ++ sampleArgv.drop (4 + 1) := by
  have h : xoptParseArgv sampleOptions 0 sampleCb sampleArgv () = .ok sampleState := rfl
  have hfirst : ∀ j, xoptFirstArg 0 ≤ j → j < 4 → sampleArgv.getD j [] ≠ ['-', '-'] := by
    decide
  exact ⟨h, by decide, rfl, hfirst, xoptParseArgv_doubledash h (by decide) rfl hfirst⟩

theorem xoptLong_unknown {st : XoptState D} {rest : List Char}
    (hname : ∀ opt ∈ options, opt.longArg ≠ some (rest.takeWhile (· ≠ '='))) :
    xoptLong options cb rest st =
      .error (xoptErrText ("invalid option: --".toList ++ rest.takeWhile (· ≠ '='))) := by
  unfold xoptLong
  dsimp only
  rw [xoptGetArg_long_none hname]

/-- `_xopt_parse_arg` fails on a long option whose name is no option's `longArg`. -/
theorem xoptParseArg_unknown_long {st : XoptState D} {rest : List Char}
    (hdd : st.doubledash = false) (harg : argv.getD st.argi [] = '-' :: '-' :: rest)
    (hrest : rest ≠ [])
    (hname : ∀ opt ∈ options, opt.longArg ≠ some (rest.takeWhile (· ≠ '='))) :
    xoptParseArg options flags cb argv st =
      .error (xoptErrText ("invalid option: --".toList ++ rest.takeWhile (· ≠ '='))) := by
  simp only [xoptParseArg, harg]
  simp [hdd, xoptGetSize, hrest, xoptLong_unknown hname, bind, Except.bind]

/-- A long option that names no option fails the parse, wherever it stands before the first
`--`. -/
theorem xoptParseArgv_unknown_long (d : D) {k : Nat} {rest : List Char}
    (hk : xoptFirstArg flags ≤ k) (harg : argv.getD k [] = '-' :: '-' :: rest)
    (hrest : rest ≠ [])
    (hname : ∀ opt ∈ options, opt.longArg ≠ some (rest.takeWhile (· ≠ '=')))
    (hfirst : ∀ j, xoptFirstArg flags ≤ j → j < k → argv.getD j [] ≠ ['-', '-']) :
    ∃ e, xoptParseArgv options flags cb argv d = .error e := by
  rcases hp : xoptParseArgv options flags cb argv d with e | st
  · exact ⟨e, rfl⟩
  obtain ⟨s₁, s₂, -, rfl, hdd, hr, -⟩ :=
    xoptParseArgv_visit hp hk (by rw [harg]; simp [xoptGetSize]) hfirst
  obtain ⟨_, hp', -⟩ := except_bind_eq_ok.mp hr.2
  rw [xoptParseArg_unknown_long hdd harg hrest hname] at hp'
  cases hp'

theorem xoptParseArgv_unknown_long_sample :
    xoptFirstArg 0 ≤ 1 ∧
      (["prog", "--bogus"].map String.toList).getD 1 [] = '-' :: '-' :: "bogus".toList ∧
      "bogus".toList ≠ [] ∧
      (∀ opt ∈ sampleOptions, opt.longArg ≠ some ("bogus".toList.takeWhile (· ≠ '='))) ∧
      (∀ j, xoptFirstArg 0 ≤ j → j < 1 →
        (["prog", "--bogus"].map String.toList).getD j [] ≠ ['-', '-']) ∧
      ∃ e, xoptParseArgv sampleOptions 0 sampleCb
        (["prog", "--bogus"].map String.toList) () = .error e :=
  ⟨by decide, rfl, by decide, by decide, by decide,
    by apply xoptParseArgv_unknown_long <;> first | rfl | decide⟩

/-- Under `XOPT_CTX_POSIXMEHARDER` the extras are one stretch of `argv`, its first `--` left
out. -/
theorem xoptParseArgv_posix (hposix : hasFlag flags xoptCtxPosixmeharder = true) {d : D}
    {st : XoptState D} (h : xoptParseArgv options flags cb argv d = .ok st) :
    ∃ i, xoptFirstArg flags ≤ i ∧ st.extras = (argv.drop i).erase ['-', '-'] := by
  obtain ⟨hrun, hend, -⟩ := xoptParseArgv_run h
  obtain ⟨i, hi, he, -⟩ := xoptRun_posix hrun hposix rfl hend
  exact ⟨i, hi, he⟩

theorem xoptParseArgv_posix_sample :
    hasFlag xoptCtxPosixmeharder xoptCtxPosixmeharder = true ∧
      xoptParseArgv sampleOptions xoptCtxPosixmeharder sampleCb sampleArgv () =
        .ok sampleState ∧
      ∃ i, xoptFirstArg xoptCtxPosixmeharder ≤ i ∧
        sampleState.extras = (sampleArgv.drop i).erase ['-', '-'] := by
  have hposix : hasFlag xoptCtxPosixmeharder xoptCtxPosixmeharder = true := rfl
  have h :
      xoptParseArgv sampleOptions xoptCtxPosixmeharder sampleCb sampleArgv () = .ok sampleState :=
    rfl
  exact ⟨hposix, h, xoptParseArgv_posix hposix h⟩

/-- A successful parse ran the callback of every option marked `XOPT_REQUIRED`. -/
theorem xoptParseArgv_required {d : D} {st : XoptState D}
    (h : xoptParseArgv options flags cb argv d = .ok st) {i : Nat} {opt : XoptOption}
    (hopt : options[i]? = some opt) (hreq : opt.options &&& xoptRequired ≠ 0) :
    ∃ v l, (i, v, l) ∈ st.calls := by
  obtain ⟨hrun, -, hmiss⟩ := xoptParseArgv_run h
  have hg := xoptRun_grows hrun
  obtain ⟨hi, -⟩ := List.getElem?_eq_some_iff.mp hopt
  have hlen : st.required.length = options.length := by simpa [xoptInit] using hg.length
  rcases hg.required i (xoptMissing_eq_none hmiss hlen hi) with h0 | hc
  · simp [xoptInit, List.getD_eq_getElem?_getD, hopt, hreq] at h0
  · exact hc

theorem xoptParseArgv_required_sample :
    xoptParseArgv sampleOptions 0 sampleCb sampleArgv () = .ok sampleState ∧
      sampleOptions[1]? = some ⟨some "out".toList, 'o', 0, xoptTypeString ||| xoptRequired⟩ ∧
      (xoptTypeString ||| xoptRequired) &&& xoptRequired ≠ 0 ∧
      ∃ v l, (1, v, l) ∈ sampleState.calls := by
  have h : xoptParseArgv sampleOptions 0 sampleCb sampleArgv () = .ok sampleState := rfl
  have hopt :
      sampleOptions[1]? = some ⟨some "out".toList, 'o', 0, xoptTypeString ||| xoptRequired⟩ :=
    rfl
  exact ⟨h, hopt, by decide, xoptParseArgv_required h hopt (by decide)⟩

/-- The extras are arguments of `argv` from the first one parsed on, in their order in `argv`: the
parser never makes one up, repeats one or reorders them. -/
theorem xoptParseArgv_extras {d : D} {st : XoptState D}
    (h : xoptParseArgv options flags cb argv d = .ok st) :
    st.extras.Sublist (argv.drop (xoptFirstArg flags)) := by
  obtain ⟨hrun, hend, -⟩ := xoptParseArgv_run h
  simpa [List.take_of_length_le hend] using xoptRun_extras hrun le_rfl (List.nil_sublist _)

theorem xoptParseArgv_extras_sample :
    xoptParseArgv sampleOptions 0 sampleCb sampleArgv () = .ok sampleState ∧
      sampleState.extras.Sublist (sampleArgv.drop (xoptFirstArg 0)) := by
  have h : xoptParseArgv sampleOptions 0 sampleCb sampleArgv () = .ok sampleState := rfl
  exact ⟨h, xoptParseArgv_extras h⟩

/-- The caller's data changes only through callbacks, each for an option of the table, in the
order of the calls recorded: what every callback keeps of the data and its record holds of the
data a successful parse returns. -/
theorem xoptParseArgv_data {P : D × List (Nat × Option (List Char) × Bool) → Prop}
    (hcb : ∀ i opt val longArg d d' calls, options[i]? = some opt → P (d, calls) →
      cb i opt val longArg d = .ok d' → P (d', calls ++ [(i, val, longArg)]))
    {d : D} {st : XoptState D} (hd : P (d, []))
    (h : xoptParseArgv options flags cb argv d = .ok st) :
    P (st.data, st.calls) := by
  have hdata := (xoptRun_grows (xoptParseArgv_run h).1).data
  generalize (st.data, st.calls) = p at hdata
  induction hdata with
  | refl => exact hd
  | tail _ hstep ih =>
    obtain ⟨i, opt, val, longArg, hopt, hcall, hcalls⟩ := hstep
    have := hcb i opt val longArg _ _ _ hopt ih hcall
    rwa [← hcalls] at this

end Steps

end Nvshare
