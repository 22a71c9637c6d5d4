import Nvshare.Cli
import Nvshare.Xopt.Parse

/-!
# `nvsharectl` on its command line

`Nvshare.Cli` models `main` of `cli.c` on `Args`: the value each option's callback is given, as if
xopt asked for each option once. Here `main` runs on `argv` itself: xopt's parser
(`Nvshare.Xopt.Parse`), with the option table of `cli.c` and `_xopt_default_callback`, fills
`config`, and the rest of `main` reads it (`cliMain`).

The two levels agree. `cliMain_eq`: on every command line `nvsharectl` either stops in
`xopt_parse`, writing nothing, or does what `main` of `Nvshare.Cli` does on the `Args` that its
parse's callbacks give, the last value of each option winning (`callsArgs`). The proof is an
invariant of the callbacks, lifted over the parse by `xoptParseArgv_data`.

## Representation

* The caller's data, `&config` passed as `void *data`, is its fields by offset, each holding what
  `_xopt_default_callback` writes there (`XoptVal`). `XOPT_TYPE_FLOAT` and `XOPT_TYPE_DOUBLE`,
  which convert with `strtod`, are not modelled and leave the data alone here: no table of this
  program uses them.
* `config.help` is not initialised by `main`; it is `false` here, as in `Nvshare.Cli`.
* `xopt_context` succeeds, and the text of `xopt_autohelp` is not modelled.
-/

namespace Nvshare

/-! ## `_xopt_default_callback` -/

/-- A field of the caller's data, as `_xopt_default_callback` writes it. -/
inductive XoptVal
  /-- `_Bool`. -/
  | bool (b : Bool)
  /-- `const char *`: `NULL` or an argument of `argv`. -/
  | string (s : Option (List Char))
  /-- `int`. -/
  | int (v : Int)
  /-- `long`. -/
  | long (v : Int)
  deriving DecidableEq, Repr

/-- `_xopt_default_callback` for an `XOPT_TYPE_LONG` option with a value: what `strtol` reads, or
xopt's error when it stops before the end of the value. -/
def xoptLongCallback (longArg : Bool) (longName : List Char) (shortName : Char)
    (value : List Char) : Except (List Char) Int :=
  let (v, parsePtr, _) := strtol value
  if parsePtr < value.length then
    .error ("value isn\x27t a valid number: ".toList ++
      if longArg then "--".toList ++ longName ++ '=' :: value else ['-', shortName, ' '] ++ value)
  else .ok v

/-- `_xopt_default_callback`: a value that is `NULL` or empty leaves a field that is not boolean
alone; otherwise the field at the option's offset gets the value, as the option's type converts
it. An error is the text `_xopt_set_err` leaves in `errbuf`. -/
def xoptDefaultCallback (value : Option (List Char)) (data : Nat → XoptVal)
    (option : XoptOption) (longArg : Bool) : Except (List Char) (Nat → XoptVal) :=
  let v := value.getD []
  if v = [] ∧ option.options &&& xoptTypeBool = 0 then .ok data
  else
    let target (x : XoptVal) := Function.update data option.offset x
    match option.options &&& 0x3F with
    | 0x20 => .ok (target (.bool true))
    | 0x1 => .ok (target (.string value))
    | 0x2 => ((xoptIntCallback longArg (option.longArg.getD []) option.shortArg v 0).map
        (target ∘ .int)).mapError xoptErrText
    | 0x4 => ((xoptLongCallback longArg (option.longArg.getD []) option.shortArg v).map
        (target ∘ .long)).mapError xoptErrText
    | _ => .ok data

/-! ## `main` of `cli.c` -/

/-- `options` of `cli.c`: `--set-tq`, `-T`, an `int` at offset `0`; `--anti-thrash`, `-S`, a
string at offset `8`; `--help`, `-h`, a `bool` at offset `16`: the offsets of `SimpleConfig`'s
fields on LP64. -/
def nvsharectlOptions : List XoptOption :=
  [⟨some "set-tq".toList, 'T', 0, xoptTypeInt⟩,
    ⟨some "anti-thrash".toList, 'S', 8, xoptTypeString⟩,
    ⟨some "help".toList, 'h', 16, xoptTypeBool⟩]

/-- The flags `main` gives `xopt_context`. -/
def nvsharectlFlags : Nat := xoptCtxPosixmeharder ||| xoptCtxStrict

/-- What `_xopt_set` runs for an option of the table: no option names its own callback. -/
def nvsharectlCallback (_ : Nat) (option : XoptOption) (value : Option (List Char))
    (longArg : Bool) (data : Nat → XoptVal) : Except (List Char) (Nat → XoptVal) :=
  xoptDefaultCallback value data option longArg

/-- `config` as `main` sets it before `xopt_parse`. -/
def initialConfig : Nat → XoptVal
  | 0 => .int 0
  | 8 => .string none
  | _ => .bool false

/-- `config`'s fields, read at their offsets. -/
def readConfig (data : Nat → XoptVal) : SimpleConfig where
  cmdlineSchedulerTq := match data 0 with | .int v => v | _ => 0
  cmdlineAntiThrash := match data 8 with | .string s => s | _ => none
  help := match data 16 with | .bool b => b | _ => false

/-- What `main` does once `xopt_parse` has filled `config`. -/
def mainConfig (env : Env) (config : SimpleConfig) : List Command × Exit :=
  if !env.pathOk then ([], .fatal "Failed to obtain nvshare-scheduler socket path.".toList)
  else
    match antiThrashAction env config.cmdlineAntiThrash with
    | .error msg => ([], .fatal msg)
    | .ok (sent, done) =>
      match setTqAction env config.cmdlineSchedulerTq with
      | .error msg => (sent, .fatal msg)
      | .ok (sent', done') =>
        (sent ++ sent', if config.help || done + done' = 0 then .help else .ok)

/-- `main` of `cli.c` on its command line. -/
def cliMain (env : Env) (argv : List (List Char)) : List Command × Exit :=
  match xoptParseArgv nvsharectlOptions nvsharectlFlags nvsharectlCallback argv initialConfig with
  | .error e => ([], .fatal ("Error: ".toList ++ e))
  | .ok st => mainConfig env (readConfig st.data)

theorem main_eq_mainConfig (env : Env) (a : Args) :
    main env a =
      match xoptParse a with
      | .error e => ([], .fatal ("Error: ".toList ++ e))
      | .ok config => mainConfig env config := rfl

/-! ## The options a parse gives -/

/-- One callback of `nvsharectl`'s parse, on the options given before it: a value that is not
empty replaces the option's value, and `-h` sets `help`. -/
def Args.call (a : Args) : Nat × Option (List Char) × Bool → Args
  | (0, some v, longArg) => if v = [] then a else { a with setTq := some (longArg, v) }
  | (1, some v, _) => if v = [] then a else { a with antiThrash := some v }
  | (2, _, _) => { a with help := true }
  | _ => a

/-- The options the callbacks of a parse give: for each option, the last value that is not
empty. -/
def callsArgs (calls : List (Nat × Option (List Char) × Bool)) : Args :=
  calls.foldl Args.call ⟨none, none, false⟩

theorem callsArgs_append (calls : List (Nat × Option (List Char) × Bool))
    (c : Nat × Option (List Char) × Bool) :
    callsArgs (calls ++ [c]) = (callsArgs calls).call c := by
  simp [callsArgs]

/-- What `xopt_parse` puts in `config` besides the quantum. -/
theorem xoptParse_ok {a : Args} {config : SimpleConfig} (h : xoptParse a = .ok config) :
    config.cmdlineAntiThrash = a.antiThrash.bind (fun value ↦ xoptStringCallback value none) ∧
      config.help = a.help := by
  unfold xoptParse at h
  dsimp only at h
  split at h <;>
  · obtain ⟨tq, -, h⟩ := except_bind_eq_ok.mp h
    cases h
    exact ⟨rfl, rfl⟩

/-- The quantum `xopt_parse` puts in `config` depends on `--set-tq` alone. -/
theorem xoptParse_congr {a b : Args} {config : SimpleConfig} (h : xoptParse a = .ok config)
    (htq : b.setTq = a.setTq) :
    xoptParse b = .ok ⟨config.cmdlineSchedulerTq,
      b.antiThrash.bind (fun value ↦ xoptStringCallback value none), b.help⟩ := by
  rcases ha : a.setTq with _ | ⟨l, s⟩
  · simp only [xoptParse, ha, htq] at h ⊢
    cases h
    rfl
  · rcases hc : xoptIntCallback l "set-tq".toList 'T' s 0 with e | n <;>
      simp only [xoptParse, ha, htq, hc] at h ⊢
    · cases h
    · cases h
      rfl

theorem xoptParse_setTq {a : Args} {config : SimpleConfig} (h : xoptParse a = .ok config)
    {l : Bool} {v : List Char} {n : Int} (hn : xoptIntCallback l "set-tq".toList 'T' v 0 = .ok n) :
    xoptParse { a with setTq := some (l, v) } = .ok { config with cmdlineSchedulerTq := n } := by
  obtain ⟨hanti, hhelp⟩ := xoptParse_ok h
  simp only [xoptParse, hn]
  rw [hanti, hhelp]
  rfl

@[simp] theorem readConfig_update_tq (data : Nat → XoptVal) (n : Int) :
    readConfig (Function.update data 0 (.int n)) =
      { readConfig data with cmdlineSchedulerTq := n } := by
  simp [readConfig, Function.update]

@[simp] theorem readConfig_update_antiThrash (data : Nat → XoptVal) (s : Option (List Char)) :
    readConfig (Function.update data 8 (.string s)) =
      { readConfig data with cmdlineAntiThrash := s } := by
  simp [readConfig, Function.update]

@[simp] theorem readConfig_update_help (data : Nat → XoptVal) (b : Bool) :
    readConfig (Function.update data 16 (.bool b)) = { readConfig data with help := b } := by
  simp [readConfig, Function.update]

theorem except_mapError_map_eq_ok {ε ε' α β : Type} {x : Except ε α} {f : α → β}
    {g : ε → ε'} {b : β} : (x.map f).mapError g = .ok b ↔ ∃ a, x = .ok a ∧ f a = b := by
  cases x <;> simp [Except.map, Except.mapError]

/-- A `NULL` or empty value of `--set-tq` or `--anti-thrash` changes neither `config` nor the
options given. -/
theorem nvsharectlCallback_empty {i : Nat} {opt : XoptOption} {value : Option (List Char)}
    {longArg : Bool} {data data' : Nat → XoptVal} (hi : i < 2)
    (hopt : nvsharectlOptions[i]? = some opt) (hv : value.getD [] = [])
    (h : nvsharectlCallback i opt value longArg data = .ok data') :
    data' = data ∧ ∀ a : Args, a.call (i, value, longArg) = a := by
  have hbool : xoptTypeInt &&& xoptTypeBool = 0 ∧ xoptTypeString &&& xoptTypeBool = 0 := by
    decide
  rcases i with _ | _ | i
  case succ.succ => omega
  all_goals
    simp [nvsharectlOptions] at hopt
    subst hopt
    refine ⟨by simpa [nvsharectlCallback, xoptDefaultCallback, hv, hbool] using h.symm,
      fun a ↦ ?_⟩
    rcases value with _ | v
    · rfl
    · obtain rfl : v = [] := hv
      simp [Args.call]

/-- Every callback of `nvsharectl` keeps `config` what `xoptParse` makes of the options given so
far. -/
theorem nvsharectlCallback_args {i : Nat} {opt : XoptOption} {value : Option (List Char)}
    {longArg : Bool} {data data' : Nat → XoptVal}
    {calls : List (Nat × Option (List Char) × Bool)} (hopt : nvsharectlOptions[i]? = some opt)
    (hinv : xoptParse (callsArgs calls) = .ok (readConfig data))
    (h : nvsharectlCallback i opt value longArg data = .ok data') :
    xoptParse (callsArgs (calls ++ [(i, value, longArg)])) = .ok (readConfig data') := by
  obtain ⟨hanti, hhelp⟩ := xoptParse_ok hinv
  rw [callsArgs_append]
  by_cases hv : value.getD [] = [] ∧ i < 2
  · obtain ⟨rfl, hcall⟩ := nvsharectlCallback_empty hv.2 hopt hv.1 h
    rwa [hcall]
  rcases i with _ | _ | _ | i <;> simp [nvsharectlOptions] at hopt <;> subst hopt
  · -- `--set-tq`
    obtain ⟨v, rfl, hne⟩ : ∃ v, value = some v ∧ v ≠ [] := by cases value <;> simp_all
    simp [nvsharectlCallback, xoptDefaultCallback, hne, xoptTypeInt, xoptTypeBool] at h
    obtain ⟨n, hn, rfl⟩ := except_mapError_map_eq_ok.mp h
    simp only [Args.call, hne, if_false]
    rw [xoptParse_setTq hinv hn]
    simp
  · -- `--anti-thrash`
    obtain ⟨v, rfl, hne⟩ : ∃ v, value = some v ∧ v ≠ [] := by cases value <;> simp_all
    simp [nvsharectlCallback, xoptDefaultCallback, hne, xoptTypeString, xoptTypeBool] at h
    subst h
    simp only [Args.call, hne, if_false]
    rw [xoptParse_congr (b := { callsArgs calls with antiThrash := some v }) hinv rfl]
    simp [xoptStringCallback, hne, hhelp]
  · -- `--help`
    simp [nvsharectlCallback, xoptDefaultCallback, xoptTypeBool] at h
    subst h
    rw [show (callsArgs calls).call (2, value, longArg) = { callsArgs calls with help := true }
      from rfl, xoptParse_congr (b := { callsArgs calls with help := true }) hinv rfl]
    simp [hanti]

/-- **`nvsharectl` refines its model on `Args`.** On every command line `nvsharectl` either stops
in `xopt_parse`, with xopt's message and nothing written, or does what `main` of `Nvshare.Cli`
does on the options its parse's callbacks give, the last value of each option winning. -/
theorem cliMain_eq (env : Env) (argv : List (List Char)) :
    cliMain env argv =
      match xoptParseArgv nvsharectlOptions nvsharectlFlags nvsharectlCallback argv
        initialConfig with
      | .error e => ([], .fatal ("Error: ".toList ++ e))
      | .ok st => main env (callsArgs st.calls) := by
  unfold cliMain
  split
  · rfl
  · rename_i st h
    have := xoptParseArgv_data (P := fun p ↦ xoptParse (callsArgs p.2) = .ok (readConfig p.1))
      (fun _ _ _ _ _ _ _ hopt hinv hcb ↦ nvsharectlCallback_args hopt hinv hcb)
      (d := initialConfig) rfl h
    rw [main_eq_mainConfig, this]

end Nvshare
