import Mathlib.Data.List.Basic
import Mathlib.Algebra.Group.Nat.Basic
import Mathlib.Algebra.Group.Int
import Mathlib.Tactic.Ring
import Mathlib.Data.Nat.Digits

/-!
# The wire protocol

Scheduler and clients exchange fixed-size frames (`struct message` in `comm.h`). This file fixes
the parts of a frame that the modelled code reads or writes, and the two text formats carried in
the 20-byte `data` field:

* the reply to `REGISTER` carries the new client id as sixteen lowercase hex digits, written by
  `snprintf (…, "%016" PRIx64, id)` and read back by `sscanf (…, "%" SCNx64, …)`;
* `SET_TQ` carries a time quantum in C integer syntax, read by `strtoll (…, &endptr, 0)` followed
  by a cast to `int`.

## Representation

`data` is kept as the C string it holds: the characters before the first NUL byte. The pod name
and namespace fields are only copied and logged by the scheduler, so they are left out. The frame
type is one byte on the wire; any byte other than the eight named ones is `unknown`, which is all
that `process_msg`'s `default` branch needs to know.
-/

namespace Nvshare

/-- `enum message_type`. -/
inductive MessageType
  | register
  | schedOn
  | schedOff
  | reqLock
  | lockOk
  | dropLock
  | lockReleased
  | setTq
  /-- Any other byte in the type field. -/
  | unknown
  deriving DecidableEq, Repr

/-- `struct message`, without the pod identity fields. -/
structure Message where
  type : MessageType
  /-- Cosmetic except in replies to `REGISTER`: nobody reads it to route a frame. -/
  id : UInt64
  /-- The contents of the `data` field up to its first NUL byte. -/
  data : List Char
  deriving DecidableEq, Repr

/-- `NVSHARE_UNREGISTERED_ID`, the id of a client record before `REGISTER` succeeds. -/
def unregisteredId : UInt64 := 0xF00DF00DF00DF00D

/-- The scheduling status a frame announces: `SCHED_ON` and `SCHED_OFF` are status frames, every
other type announces nothing. -/
def MessageType.status : MessageType → Option Bool
  | .schedOn => some true
  | .schedOff => some false
  | _ => none

/-- The status frame type for a value of `scheduler_on`. -/
def statusType (isOn : Bool) : MessageType := if isOn then .schedOn else .schedOff

@[simp] theorem status_statusType (isOn : Bool) : (statusType isOn).status = some isOn := by
  cases isOn <;> rfl

/-! ## Client ids as hex text -/

/-- A lowercase hex digit. -/
def hexDigit (n : Nat) : Char := if n < 10 then Char.ofNat (48 + n) else Char.ofNat (87 + n)

/-- `snprintf (buf, 16 + 1, "%016" PRIx64, id)`: sixteen hex digits, most significant first. -/
def hex16 (id : UInt64) : List Char :=
  (List.range 16).reverse.map fun i ↦ hexDigit (id.toNat / 16 ^ i % 16)

/-- The value of a digit in bases up to 36, as `strtol` reads it. -/
def digitVal (c : Char) : Option Nat :=
  if '0' ≤ c ∧ c ≤ '9' then some (c.toNat - 48)
  else if 'a' ≤ c ∧ c ≤ 'z' then some (c.toNat - 87)
  else if 'A' ≤ c ∧ c ≤ 'Z' then some (c.toNat - 55)
  else none

/-- Whether `c` is a digit of `base`. -/
def isDigitOf (base : Nat) (c : Char) : Bool := (digitVal c).any (· < base)

/-- `isspace` in the C locale. -/
def isSpace (c : Char) : Bool :=
  c = ' ' || c = '\t' || c = '\n' || c = '\x0b' || c = '\x0c' || c = '\r'

/-- The value of a run of digits of `base`, most significant first. -/
def digitsValue (base : Nat) (ds : List Char) : Nat :=
  ds.foldl (fun v c ↦ v * base + ((digitVal c).getD 0)) 0

/-- The optional sign after leading white space: whether it is `-`, and its length. -/
def signOf : List Char → Bool × Nat
  | '-' :: _ => (true, 1)
  | '+' :: _ => (false, 1)
  | _ => (false, 0)

/-- The base chosen by base `0` and the length of the prefix it skips: `0x` followed by a hex
digit selects base 16, any other leading `0` is the first digit of an octal number. -/
def baseOf : List Char → Nat × Nat
  | '0' :: x :: d :: _ => if (x = 'x' || x = 'X') && isDigitOf 16 d then (16, 2) else (8, 0)
  | '0' :: _ => (8, 0)
  | _ => (10, 0)

/-- What `strtoll (s, &endptr, 0)` computes: the value, the index `endptr` points at, and
whether `errno` was set to `ERANGE`. An input with no digits converts nothing and leaves
`endptr` at the start. -/
def strtoll (s : List Char) : Int × Nat × Bool :=
  let ws := (s.takeWhile isSpace).length
  let (neg, sl) := signOf (s.drop ws)
  let t := s.drop (ws + sl)
  let (base, pl) := baseOf t
  let ds := (t.drop pl).takeWhile (isDigitOf base)
  let mag := digitsValue base ds
  if ds.length = 0 then (0, 0, false)
  else
    let stop := ws + sl + pl + ds.length
    if neg then
      if 2 ^ 63 < mag then (-2 ^ 63, stop, true) else (-(mag : Int), stop, false)
    else
      if 2 ^ 63 - 1 < mag then (2 ^ 63 - 1, stop, true) else ((mag : Int), stop, false)

/-- The conversion `(int) v` of a `long long`, modulo `2 ^ 32` as GCC defines it. -/
def toInt32 (v : Int) : Int := Int.bmod v (2 ^ 32)

/-- The `SET_TQ` branch of `process_msg`: the new quantum, when `strtoll` converted something,
stopped at the terminating NUL and did not overflow. -/
def parseTq (data : List Char) : Option Int :=
  let (v, stop, erange) := strtoll data
  if stop ≠ 0 ∧ stop = data.length ∧ erange = false then some (toInt32 v) else none

/-- What `sscanf (data, "%" SCNx64, &id)` stores, or `none` when it matches nothing and
returns `0`: leading white space, an optional sign and `0x` prefix, then hex digits, converted as
`strtoull` does (saturating on overflow, negating modulo `2 ^ 64`). -/
def scanHex (data : List Char) : Option UInt64 :=
  let t := data.dropWhile isSpace
  let (neg, sl) := signOf t
  let u := t.drop sl
  let (base, pl) := baseOf u
  let ds := (u.drop (if base = 16 then pl else 0)).takeWhile (isDigitOf 16)
  if ds.length = 0 then none
  else
    let mag := min (digitsValue 16 ds) (2 ^ 64 - 1)
    some (UInt64.ofNat (if neg then 2 ^ 64 - mag else mag))

/-! ## The id round trip

`register_client` writes the id with `"%016" PRIx64` and `client_fn` reads it back with
`"%" SCNx64`. What is written is sixteen characters of the lowercase hex alphabet whose value is
the id; and `scanHex` reads any run of at least two such characters as its value, since none of
them is white space, a sign, or the `x` of a `0x` prefix. -/

/-- The digits `PRIx64` writes. -/
def lowerHexDigits : List Char := "0123456789abcdef".toList

theorem hexDigit_mem : ∀ d < 16, hexDigit d ∈ lowerHexDigits := by decide

theorem digitVal_hexDigit : ∀ d < 16, digitVal (hexDigit d) = some d := by decide

/-- A lowercase hex digit is a base-16 digit and nothing else `scanHex` looks for. -/
theorem lowerHexDigits_plain : ∀ c ∈ lowerHexDigits, isSpace c = false ∧
    isDigitOf 16 c = true ∧ c ≠ '-' ∧ c ≠ '+' ∧ c ≠ 'x' ∧ c ≠ 'X' := by decide

theorem signOf_cons {c : Char} (h₁ : c ≠ '-') (h₂ : c ≠ '+') (l : List Char) :
    signOf (c :: l) = (false, 0) := by
  simp [signOf, h₁, h₂]

/-- Without an `x` in second place there is no `0x` prefix. -/
theorem baseOf_ne_hex {c x : Char} (hx₁ : x ≠ 'x') (hx₂ : x ≠ 'X') (l : List Char) :
    (baseOf (c :: x :: l)).1 ≠ 16 := by
  unfold baseOf; split <;> simp_all

/-- The digit fold from any start value. -/
theorem foldl_digits (b : Nat) (l : List Char) (a : Nat) :
    l.foldl (fun v c ↦ v * b + (digitVal c).getD 0) a = a * b ^ l.length + digitsValue b l := by
  induction l generalizing a with
  | nil => simp [digitsValue]
  | cons c l ih =>
    have hc : digitsValue b (c :: l) =
        (0 * b + (digitVal c).getD 0) * b ^ l.length + digitsValue b l := ih _
    rw [List.foldl_cons, ih, hc, List.length_cons]
    ring

theorem digitsValue_cons (b : Nat) (c : Char) (l : List Char) :
    digitsValue b (c :: l) = (digitVal c).getD 0 * b ^ l.length + digitsValue b l := by
  rw [digitsValue, List.foldl_cons, foldl_digits]; simp

/-- The last `k` nibbles of `n`, most significant first, read back as `n % 16 ^ k`. -/
theorem digitsValue_nibbles (n k : Nat) :
    digitsValue 16 ((List.range k).reverse.map fun i ↦ hexDigit (n / 16 ^ i % 16)) =
      n % 16 ^ k := by
  induction k with
  | zero => simp [digitsValue, Nat.mod_one]
  | succ k ih =>
    rw [List.range_succ, List.reverse_append, List.map_append, List.reverse_singleton,
      List.map_singleton, List.singleton_append, digitsValue_cons, ih,
      digitVal_hexDigit _ (Nat.mod_lt _ (by decide)), List.length_map, List.length_reverse,
      List.length_range, pow_succ, Nat.mod_mul, Option.getD_some]
    ring

theorem length_hex16 (id : UInt64) : (hex16 id).length = 16 := by simp [hex16]

theorem mem_hex16 {id : UInt64} {c : Char} (hc : c ∈ hex16 id) : c ∈ lowerHexDigits := by
  obtain ⟨i, -, rfl⟩ := List.mem_map.mp hc
  exact hexDigit_mem _ (Nat.mod_lt _ (by decide))

theorem digitsValue_hex16 (id : UInt64) : digitsValue 16 (hex16 id) = id.toNat := by
  rw [hex16, digitsValue_nibbles]
  exact Nat.mod_eq_of_lt id.toNat_lt_size

/-- `sscanf` reads a run of lowercase hex digits as its value, when that fits in 64 bits. -/
theorem scanHex_of_lowerHex {c x : Char} {l : List Char}
    (hl : ∀ d ∈ c :: x :: l, d ∈ lowerHexDigits) (hv : digitsValue 16 (c :: x :: l) < 2 ^ 64) :
    scanHex (c :: x :: l) = some (UInt64.ofNat (digitsValue 16 (c :: x :: l))) := by
  have hc := lowerHexDigits_plain c (hl c (by simp))
  have hx := lowerHexDigits_plain x (hl x (by simp))
  have hws : (c :: x :: l).dropWhile isSpace = c :: x :: l :=
    List.dropWhile_cons_of_neg (by simp [hc.1])
  have hds : (c :: x :: l).takeWhile (isDigitOf 16) = c :: x :: l :=
    List.takeWhile_eq_self_iff.mpr fun d hd ↦ (lowerHexDigits_plain d (hl d hd)).2.1
  simp only [scanHex, hws, signOf_cons hc.2.2.1 hc.2.2.2.1, List.drop_zero,
    if_neg (baseOf_ne_hex hx.2.2.2.2.1 hx.2.2.2.2.2 l), hds]
  rw [Nat.min_eq_left (by omega)]
  simp

theorem scanHex_hex16 (id : UInt64) : scanHex (hex16 id) = some id := by
  obtain ⟨c, x, l, he⟩ : ∃ c x l, hex16 id = c :: x :: l := by
    match hex16 id, length_hex16 id with
    | c :: x :: l, _ => exact ⟨c, x, l, rfl⟩
  have hv : digitsValue 16 (c :: x :: l) < 2 ^ 64 :=
    he ▸ (digitsValue_hex16 id).symm ▸ id.toNat_lt_size
  rw [he, scanHex_of_lowerHex (he ▸ fun _ ↦ mem_hex16) hv, ← he, digitsValue_hex16]
  exact congrArg some <| UInt64.toNat.inj (UInt64.toNat_ofNat_of_lt id.toNat_lt_size)

theorem hex16_inj {a b : UInt64} (h : hex16 a = hex16 b) : a = b :=
  Option.some.inj (by rw [← scanHex_hex16 a, h, scanHex_hex16])

/-! ## Decimal text

`change_tq` writes the quantum with `"%lld"`, which for a nonnegative value is `toString` of the
number: its decimal digits, with no leading zero unless it is `0`. `strtoll` reads such a text
back in base 10 (a leading `0` would select octal), so the scheduler reads back every quantum
`nvsharectl` can send. -/

/-- The digits `"%lld"` writes. -/
def decimalDigits : List Char := "0123456789".toList

theorem digitChar_spec : ∀ d < 10, digitVal (Nat.digitChar d) = some d ∧
    Nat.digitChar d ∈ decimalDigits ∧ (0 < d → Nat.digitChar d ≠ '0') := by decide

theorem decimalDigits_plain : ∀ c ∈ decimalDigits, isSpace c = false ∧ isDigitOf 10 c = true ∧
    c ≠ '-' ∧ c ≠ '+' := by decide

theorem digitsValue_append_singleton (b : Nat) (l : List Char) (c : Char) :
    digitsValue b (l ++ [c]) = digitsValue b l * b + (digitVal c).getD 0 := by
  simp [digitsValue, List.foldl_append]

theorem toDigitsCore_ten (fuel n : Nat) (ds : List Char) (hf : n < fuel) :
    ∃ l, Nat.toDigitsCore 10 fuel n ds = l ++ ds ∧ (∀ c ∈ l, c ∈ decimalDigits) ∧
      digitsValue 10 l = n ∧ ∃ c t, l = c :: t ∧ (0 < n → c ≠ '0') := by
  induction fuel generalizing n ds with
  | zero => omega
  | succ fuel ih =>
    have hd := digitChar_spec (n % 10) (Nat.mod_lt _ (by decide))
    rw [Nat.toDigitsCore]
    split
    · refine ⟨[Nat.digitChar (n % 10)], rfl, by simpa using hd.2.1, ?_, _, [], rfl, fun hn ↦ hd.2.2 (by omega)⟩
      simp [digitsValue, hd.1]; omega
    · obtain ⟨l, he, hmem, hv, c, t, rfl, hc⟩ := ih (n / 10) (Nat.digitChar (n % 10) :: ds) (by omega)
      refine ⟨c :: t ++ [Nat.digitChar (n % 10)], by simp [he], ?_, ?_, c, _, rfl, fun _ ↦ hc (by omega)⟩
      · rintro x hx
        rcases List.mem_append.mp hx with hx | hx
        exacts [hmem x hx, List.mem_singleton.mp hx ▸ hd.2.1]
      · rw [digitsValue_append_singleton, hv, hd.1, Option.getD_some]; omega

theorem toString_toList (n : Nat) : (toString n).toList = Nat.toDigits 10 n := rfl

theorem baseOf_decimal {c : Char} (hc : c ≠ '0') (l : List Char) : baseOf (c :: l) = (10, 0) := by
  unfold baseOf; split <;> simp_all

theorem strtoll_of_decimal {c : Char} {t : List Char} (hl : ∀ d ∈ c :: t, d ∈ decimalDigits)
    (hc : c ≠ '0') (hv : digitsValue 10 (c :: t) < 2 ^ 63) :
    strtoll (c :: t) = ((digitsValue 10 (c :: t) : Int), t.length + 1, false) := by
  have hc' := decimalDigits_plain c (hl c (by simp))
  have hws : (c :: t).takeWhile isSpace = [] := by simp [List.takeWhile_cons, hc'.1]
  have hds : (c :: t).takeWhile (isDigitOf 10) = c :: t :=
    List.takeWhile_eq_self_iff.mpr fun d hd ↦ (decimalDigits_plain d (hl d hd)).2.1
  simp only [strtoll, hws, List.length_nil, List.drop_zero, signOf_cons hc'.2.2.1 hc'.2.2.2,
    Nat.add_zero, baseOf_decimal hc, hds]
  rw [if_neg (by simp), if_neg (by simp), if_neg (by omega)]
  simp

/-- The text of a number is its decimal digits, without a leading zero unless it is `0`. -/
theorem toString_decimal (n : Nat) : ∃ c t, (toString n).toList = c :: t ∧
    (∀ d ∈ c :: t, d ∈ decimalDigits) ∧ digitsValue 10 (c :: t) = n ∧ (0 < n → c ≠ '0') := by
  obtain ⟨l, he, hmem, hv, c, t, rfl, hc⟩ := toDigitsCore_ten (n + 1) n [] (by omega)
  exact ⟨c, t, by rw [toString_toList, Nat.toDigits, he, List.append_nil], hmem, hv, hc⟩

theorem strtoll_toString (n : Nat) (hn : n < 2 ^ 63) :
    strtoll (toString n).toList = ((n : Int), (toString n).toList.length, false) := by
  rcases Nat.eq_zero_or_pos n with rfl | hpos
  · decide
  obtain ⟨c, t, he, hmem, hv, hc⟩ := toString_decimal n
  rw [he, strtoll_of_decimal hmem (hc hpos) (hv ▸ hn), hv, List.length_cons]

theorem toInt32_of_lt {v : Int} (h₁ : -2 ^ 31 ≤ v) (h₂ : v < 2 ^ 31) : toInt32 v = v := by
  simp only [toInt32, Int.bmod]
  split <;> omega

theorem parseTq_toString (n : Nat) (h₁ : 0 < n) (h₂ : n < 2 ^ 31) :
    parseTq (toString n).toList = some (n : Int) := by
  obtain ⟨c, t, he, -⟩ := toString_decimal n
  have hs := strtoll_toString n (by omega)
  rw [he] at hs
  simp only [parseTq, he, hs, List.length_cons]
  rw [if_pos (by simp), toInt32_of_lt (by omega) (by omega)]

end Nvshare
