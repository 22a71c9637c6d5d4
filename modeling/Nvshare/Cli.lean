import Nvshare.System.Step

/-!
# `nvsharectl`

`cli.c` parses its options with xopt and then writes one command per connection: SCHED_ON or
SCHED_OFF for `--anti-thrash`, SET_TQ for `--set-tq`. The time quantum is cast to `int` twice on
its way: xopt stores `(int) strtol (value, &parsePtr, 0)` in the `int` field of the config, and
the scheduler reads the frame back with `(int) strtoll (data, &endptr, 0)`.

Between the two casts nothing is lost: `change_tq` only sends a positive `int`, as decimal text,
and the scheduler reads that text back exactly (`main_setTq_sent`). The first cast is where a
value is lost: it keeps the typed integer modulo `2 ^ 32`, so a value above `INT_MAX` that
`strtol` reads whole can become any `int`, a positive one included (`set_tq_wraps`).

## Representation

* `Args` holds, for each option given, the value xopt passes to its callback, and whether
  `--set-tq` came as `--set-tq=value`, which only changes the text of xopt's error. How xopt
  splits `argv` is not modelled.
* `Env` is what the environment answers: whether the scheduler's socket path is found, whether
  `nvshare_connect` succeeds, and whether `write_whole` writes the whole frame. `close` succeeds.
* `main` returns the commands whose frames were written whole, in order, and how the process
  ends; a `log_fatal` keeps its message, without the `[NVSHARE][FATAL]` prefix. `log_info` lines
  are not modelled.
* `config.help` is not initialised in `main`, and only xopt sets it; it is `false` here when `-h`
  is absent. It only chooses between `xopt_autohelp` before `exit (0)` and returning `0`.
-/

namespace Nvshare

/-- `strtol`: on LP64 `long` is 64 bits wide, so it converts as `strtoll` does. -/
def strtol (s : List Char) : Int × Nat × Bool := strtoll s

/-- How `nvsharectl` ends. -/
inductive Exit
  /-- `log_fatal`: the message, and exit status `1`. -/
  | fatal (msg : List Char)
  /-- `xopt_autohelp`, then `exit (0)`. -/
  | help
  /-- `main` returns `0`. -/
  | ok
  deriving DecidableEq, Repr

/-- The exit status. -/
def Exit.status : Exit → Nat
  | .fatal _ => 1
  | .help | .ok => 0

/-- `_xopt_default_callback` for an `XOPT_TYPE_INT` option: the new value of the target, or
xopt's error when `strtol` stops before the end of the value. An empty value leaves the target
alone. -/
def xoptIntCallback (longArg : Bool) (longName : List Char) (shortName : Char)
    (value : List Char) (target : Int) : Except (List Char) Int :=
  if value = [] then .ok target
  else
    let (v, parsePtr, _) := strtol value
    if parsePtr < value.length then
      .error ("value isn\x27t a valid number: ".toList ++
        if longArg then "--".toList ++ longName ++ '=' :: value else ['-', shortName, ' '] ++ value)
    else .ok (toInt32 v)

/-- `_xopt_default_callback` for an `XOPT_TYPE_STRING` option. -/
def xoptStringCallback (value : List Char) (target : Option (List Char)) : Option (List Char) :=
  if value = [] then target else some value

/-- `SimpleConfig`. -/
structure SimpleConfig where
  cmdlineSchedulerTq : Int
  cmdlineAntiThrash : Option (List Char)
  help : Bool

/-- The options given: the value of `--set-tq` and whether it came in the long form, the value
of `--anti-thrash`, and whether `-h` was given. -/
structure Args where
  setTq : Option (Bool × List Char)
  antiThrash : Option (List Char)
  help : Bool

/-- `xopt_parse` on the config `main` initialised: `--set-tq` is `XOPT_TYPE_INT`,
`--anti-thrash` is `XOPT_TYPE_STRING`. -/
def xoptParse (a : Args) : Except (List Char) SimpleConfig := do
  let tq ← match a.setTq with
    | some (longArg, value) => xoptIntCallback longArg "set-tq".toList 'T' value 0
    | none => pure 0
  pure ⟨tq, a.antiThrash.bind fun value ↦ xoptStringCallback value none, a.help⟩

/-- What the environment answers. -/
structure Env where
  /-- `nvshare_get_scheduler_path` succeeds. -/
  pathOk : Bool
  /-- `nvshare_connect` succeeds. -/
  connectOk : Bool
  /-- `write_whole` writes the whole frame. -/
  writeOk : Bool

/-- Everything succeeds. -/
def Env.up : Env := ⟨true, true, true⟩

@[simp] theorem Env.up_pathOk : Env.up.pathOk = true := rfl
@[simp] theorem Env.up_connectOk : Env.up.connectOk = true := rfl
@[simp] theorem Env.up_writeOk : Env.up.writeOk = true := rfl

/-- `change_status`: the commands written. -/
def changeStatus (env : Env) (status : Bool) : Except (List Char) (List Command) :=
  if env.connectOk then .ok (if env.writeOk then [.changeStatus status] else [])
  else .error "Condition failed: nvshare_connect(&rsock, nvscheduler_socket_path) == 0".toList

/-- `change_tq`, which `main` calls with a positive value: the commands written. -/
def changeTq (env : Env) (newtq : Int) : Except (List Char) (List Command) :=
  if env.connectOk then .ok (if env.writeOk then [.changeTq newtq.toNat] else [])
  else .error "nvshare_connect() failed".toList

/-- The `--anti-thrash` block of `main`: the commands written and the actions done. -/
def antiThrashAction (env : Env) : Option (List Char) → Except (List Char) (List Command × Nat)
  | none => .ok ([], 0)
  | some s =>
    if s = "on".toList then (changeStatus env true).map (·, 1)
    else if s = "off".toList then (changeStatus env false).map (·, 1)
    else .error
      "Invalid option for --anti-thrash (-S). Must be one of \x27on\x27 or \x27off\x27.".toList

/-- The `--set-tq` block of `main`: the commands written and the actions done. -/
def setTqAction (env : Env) (tq : Int) : Except (List Char) (List Command × Nat) :=
  if tq ≠ 0 then
    if tq ≤ 0 then
      .error "Invalid option for --set-tq. TQ value must be a positive integer.".toList
    else (changeTq env tq).map (·, 1)
  else .ok ([], 0)

/-- `main`: the commands written, one connection each, and how the process ends. -/
def main (env : Env) (a : Args) : List Command × Exit :=
  match xoptParse a with
  | .error e => ([], .fatal ("Error: ".toList ++ e))
  | .ok config =>
    if !env.pathOk then ([], .fatal "Failed to obtain nvshare-scheduler socket path.".toList)
    else
      match antiThrashAction env config.cmdlineAntiThrash with
      | .error msg => ([], .fatal msg)
      | .ok (sent, done) =>
        match setTqAction env config.cmdlineSchedulerTq with
        | .error msg => (sent, .fatal msg)
        | .ok (sent', done') =>
          (sent ++ sent', if config.help || done + done' = 0 then .help else .ok)

/-- `nvsharectl -T value`. -/
def setTqArgs (value : List Char) : Args := ⟨some (false, value), none, false⟩

/-! ## What `--set-tq` sends -/

/-- `(int)` keeps a value in the range of `int`. -/
theorem toInt32_bounds (v : Int) : -2 ^ 31 ≤ toInt32 v ∧ toInt32 v < 2 ^ 31 := by
  have h₁ := @Int.le_bmod v (2 ^ 32) (by decide)
  have h₂ := @Int.bmod_lt v (2 ^ 32) (by decide)
  exact ⟨by simpa [toInt32] using h₁, by simpa [toInt32] using h₂⟩

/-- The three outcomes of the callback: an empty value, a value `strtol` stops in, and a value
it reads to its end. -/
theorem xoptIntCallback_cases (longArg : Bool) (longName : List Char) (shortName : Char)
    (value : List Char) (target : Int) :
    (value = [] ∧ xoptIntCallback longArg longName shortName value target = .ok target) ∨
    (value ≠ [] ∧ (strtol value).2.1 < value.length ∧
      ∃ e, xoptIntCallback longArg longName shortName value target = .error e) ∨
    (value ≠ [] ∧ ¬ (strtol value).2.1 < value.length ∧
      xoptIntCallback longArg longName shortName value target = .ok (toInt32 (strtol value).1)) := by
  unfold xoptIntCallback
  by_cases hv : value = []
  · exact .inl ⟨hv, if_pos hv⟩
  rw [if_neg hv]
  obtain ⟨v, parsePtr, e⟩ := strtol value
  by_cases hs : parsePtr < value.length
  · exact .inr (.inl ⟨hv, hs, _, if_pos hs⟩)
  · exact .inr (.inr ⟨hv, hs, if_neg hs⟩)

/-- The quantum in the config is `0` unless a value of `--set-tq` was read to its end, and is
then that value cast to `int`. -/
theorem xoptParse_tq {a : Args} {config : SimpleConfig} (h : xoptParse a = .ok config)
    (htq : config.cmdlineSchedulerTq ≠ 0) :
    ∃ lg s, a.setTq = some (lg, s) ∧ ¬ (strtol s).2.1 < s.length ∧
      config.cmdlineSchedulerTq = toInt32 (strtol s).1 := by
  rcases ha : a.setTq with _ | ⟨lg, s⟩
  · simp only [xoptParse, ha] at h
    cases h; exact absurd rfl htq
  · rcases xoptIntCallback_cases lg "set-tq".toList 'T' s 0 with ⟨-, hc⟩ | ⟨-, -, e, hc⟩ |
        ⟨-, hend, hc⟩ <;> simp only [xoptParse, ha, hc] at h
    · cases h; exact absurd rfl htq
    · cases h
    · refine ⟨lg, s, rfl, hend, ?_⟩
      generalize toInt32 (strtol s).1 = v at h ⊢
      cases h; rfl

theorem antiThrashAction_sent {env : Env} {o : Option (List Char)} {sent : List Command}
    {d : Nat} (h : antiThrashAction env o = .ok (sent, d)) :
    ∀ c ∈ sent, ∃ b, c = .changeStatus b := by
  cases o with
  | none => cases h; nofun
  | some s =>
    simp only [antiThrashAction, changeStatus] at h
    split_ifs at h <;> cases h <;> simp

theorem setTqAction_sent {env : Env} {tq : Int} {sent : List Command} {d : Nat}
    (h : setTqAction env tq = .ok (sent, d)) : ∀ c ∈ sent, c = .changeTq tq.toNat ∧ 0 < tq := by
  simp only [setTqAction, changeTq] at h
  split_ifs at h <;> cases h <;> simp
  omega

/-- On the frame `change_tq` writes for a quantum in the range `nvsharectl` sends, the scheduler
sets its quantum to exactly that value. -/
theorem changeTq_read (ok : Nat → Bool) (newId : UInt64) (c : Client) (s : Sched) {n : Nat}
    (h₁ : 0 < n) (h₂ : n < 2 ^ 31) : (processMsg ok newId c (Command.changeTq n).msg s).tq = n := by
  rw [processMsg_setTq ok newId c s rfl]
  simp only [Command.msg, parseTq_toString n h₁ h₂, Option.getD_some]

/-- **What a `--set-tq` request does**, whatever the options and the environment: a SET_TQ that
`nvsharectl` writes comes from a value of `--set-tq` that `strtol` reads to its end, and carries
that value cast to `int`, which is positive; on that frame the scheduler sets its quantum to
exactly the value carried. -/
theorem main_setTq_sent {env : Env} {a : Args} {n : Nat}
    (h : Command.changeTq n ∈ (main env a).1) :
    (∃ lg s, a.setTq = some (lg, s) ∧ ¬ (strtol s).2.1 < s.length ∧
      (n : Int) = toInt32 (strtol s).1 ∧ 0 < n ∧ n < 2 ^ 31) ∧
    ∀ ok newId c (st : Sched), (processMsg ok newId c (Command.changeTq n).msg st).tq = n := by
  unfold main at h
  split at h
  · simp at h
  rename_i config hc
  split at h
  · simp at h
  split at h
  · simp at h
  rename_i sent d ha
  have hcs := antiThrashAction_sent ha
  split at h
  · obtain ⟨b, hb⟩ := hcs _ h; cases hb
  rename_i sent' d' ht
  rcases List.mem_append.mp h with h | h
  · obtain ⟨b, hb⟩ := hcs _ h; cases hb
  obtain ⟨he, hpos⟩ := setTqAction_sent ht _ h
  obtain ⟨lg, s, hs, hend, htq⟩ := xoptParse_tq hc (by omega)
  have hn : (n : Int) = config.cmdlineSchedulerTq := by
    rw [Command.changeTq.inj he]; omega
  have hb := toInt32_bounds (strtol s).1
  have h₁ : 0 < n := by omega
  have h₂ : n < 2 ^ 31 := by omega
  exact ⟨⟨lg, s, hs, hend, hn.trans htq, h₁, h₂⟩,
    fun ok newId c st ↦ changeTq_read ok newId c st h₁ h₂⟩

theorem main_setTq_sent_five :
    Command.changeTq 5 ∈ (main Env.up (setTqArgs "5".toList)).1 ∧
      ∃ lg s, (setTqArgs "5".toList).setTq = some (lg, s) ∧ ¬ (strtol s).2.1 < s.length ∧
        ((5 : Nat) : Int) = toInt32 (strtol s).1 ∧ 0 < 5 ∧ 5 < 2 ^ 31 :=
  have h : Command.changeTq 5 ∈ (main Env.up (setTqArgs "5".toList)).1 := by decide
  ⟨h, (main_setTq_sent h).1⟩

/-- Every value `k * 2 ^ 32 + n` with `0 < n ≤ INT_MAX` that fits in a `long` makes
`nvsharectl` send the quantum `n`. -/
theorem main_setTq_wrap (k n : Nat) (hn : 0 < n) (hn' : n < 2 ^ 31)
    (hk : k * 2 ^ 32 + n < 2 ^ 63) :
    main Env.up (setTqArgs (toString (k * 2 ^ 32 + n)).toList) = ([.changeTq n], .ok) := by
  have hs := strtoll_toString (k * 2 ^ 32 + n) hk
  have hw : toInt32 ((k * 2 ^ 32 + n : Nat) : Int) = n := by
    simp only [toInt32, Int.bmod]; push_cast; split <;> omega
  obtain ⟨c, t, he, -⟩ := toString_decimal (k * 2 ^ 32 + n)
  rw [he] at hs ⊢
  have hcb : xoptIntCallback false "set-tq".toList 'T' (c :: t) 0 = .ok n := by
    rw [xoptIntCallback, if_neg (List.cons_ne_nil _ _)]
    simp only [strtol, hs, lt_irrefl, if_false, hw]
  have hset : setTqAction Env.up n = .ok ([.changeTq n], 1) := by
    rw [setTqAction, if_pos (by omega), if_neg (by omega)]
    simp [changeTq]; rfl
  simp only [main, xoptParse, setTqArgs, hcb, bind, Except.bind, pure, Except.pure,
    Option.bind, Env.up_pathOk, antiThrashAction, hset]
  rfl

/-- **`--set-tq` wraps modulo `2 ^ 32`.** `nvsharectl -T 4294967297` reads the whole value, sends
SET_TQ with the quantum `1` and exits with status `0`; the scheduler sets its quantum to `1` on
that frame, and on a SET_TQ whose data is `4294967297` as well. `nvsharectl -T 0` sends nothing
and exits with status `0`. -/
theorem set_tq_wraps :
    strtol "4294967297".toList = (4294967297, 10, false) ∧
    main Env.up (setTqArgs "4294967297".toList) = ([.changeTq 1], .ok) ∧
    (∀ ok newId c (s : Sched), (processMsg ok newId c (Command.changeTq 1).msg s).tq = 1 ∧
      (processMsg ok newId c ⟨.setTq, 0xBEEF, "4294967297".toList⟩ s).tq = 1) ∧
    main Env.up (setTqArgs "0".toList) = ([], .help) ∧ Exit.help.status = 0 := by
  have hwrap := main_setTq_wrap 1 1 (by decide) (by decide) (by decide)
  rw [show (toString (1 * 2 ^ 32 + 1)).toList = "4294967297".toList by decide] at hwrap
  refine ⟨by decide, hwrap, fun ok newId c s ↦ ⟨changeTq_read ok newId c s (by decide) (by decide),
    ?_⟩, by decide, rfl⟩
  rw [processMsg_setTq ok newId c s rfl]
  show (parseTq "4294967297".toList).getD s.tq = 1
  rw [show parseTq "4294967297".toList = some 1 by decide]
  rfl

end Nvshare
