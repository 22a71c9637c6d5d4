import Nvshare.Scheduler.Step

/-!
# The ids `register_client` hands out

`register_client` draws an id with `nvshare_generate_id` (`comm.c`) and draws again while the id
is `NVSHARE_UNREGISTERED_ID` or a record of the table already carries it. The scheduler's model
leaves the id to the environment (`Choice.newId`), and `Sched.canChoose` admits exactly the ids
that are neither the sentinel nor in use. This module runs the code's loop on the answers of
`rand ()` and shows that the two agree: the ids the loop can settle on are exactly the ones the
model lets the environment choose (`registerClientId_iff`).

`nvshare_generate_id` shifts `r` left by `RAND_MAX_WIDTH` bits and xors in the next `rand ()`,
for `i = 0, RAND_MAX_WIDTH, ...` below `64`. With glibc's `RAND_MAX = 2 ^ 31 - 1` that is three
draws, and the id keeps the low two bits of the first, then all the bits of the other two
(`nvshareGenerateId_spec`): every 64-bit value, the sentinel included, is an id it can return,
from as many draws as any other.

## Representation

The answers of `rand ()` are a table `rand : Nat → UInt32`, the `k`-th call answering `rand k`;
each answer is at most `RAND_MAX`, and `(unsigned) rand ()` keeps its value. The generator returns
the index of the next call as well, so the retry loop draws on from where it stopped. The loop
has no bound in the code; `fuel` bounds the tries.
-/

namespace Nvshare

/-- `RAND_MAX` of glibc. -/
def randMax : Nat := 2147483647

/-- `IMAX_BITS (m)`: the number of bits of `m = 2 ^ k - 1`, by integer arithmetic. -/
def imaxBits (m : Nat) : Nat := m / (m % 255 + 1) / 255 % 255 * 8 + 7 - 86 / (m % 255 + 12)

/-- `RAND_MAX_WIDTH`. -/
def randMaxWidth : Nat := imaxBits randMax

theorem randMaxWidth_eq : randMaxWidth = 31 := by decide

/-- The loop of `nvshare_generate_id` from `i` on, the next call of `rand` being the `k`-th: the
id and the index of the call after the last. -/
def generateIdLoop (rand : Nat → UInt32) (i k : Nat) (r : UInt64) : UInt64 × Nat :=
  if i < 64 then
    generateIdLoop rand (i + randMaxWidth) (k + 1)
      ((r <<< randMaxWidth.toUInt64) ^^^ (rand k).toUInt64)
  else (r, k)
termination_by 64 - i
decreasing_by rw [randMaxWidth_eq]; omega

/-- `nvshare_generate_id ()`, its first call of `rand` the `k`-th. -/
def nvshareGenerateId (rand : Nat → UInt32) (k : Nat) : UInt64 × Nat := generateIdLoop rand 0 k 0

/-- The `again:` loop of `register_client`, for at most `fuel` draws: the first id that is not
`NVSHARE_UNREGISTERED_ID` and that no record of `clients` carries. -/
def registerClientId (clients : List Client) (rand : Nat → UInt32) : Nat → Nat → Option UInt64
  | 0, _ => none
  | fuel + 1, k =>
    let (id, k') := nvshareGenerateId rand k
    if id = unregisteredId ∨ clients.any (·.id = id) then registerClientId clients rand fuel k'
    else some id

/-! ## The generator -/

/-- Xor with a number below `2 ^ i` adds it to a multiple of `2 ^ i`. -/
theorem two_pow_mul_xor_of_lt {b i : Nat} (hb : b < 2 ^ i) (a : Nat) :
    2 ^ i * a ^^^ b = 2 ^ i * a + b := by
  apply Nat.eq_of_testBit_eq
  intro j
  rw [Nat.testBit_xor, Nat.testBit_mul_pow_two_add a hb, Nat.testBit_mul_pow_two]
  by_cases hj : j < i
  · simp [hj, Nat.not_le_of_lt hj]
  · have hb' : b < 2 ^ j :=
      lt_of_lt_of_le hb (Nat.pow_le_pow_right (by decide) (Nat.le_of_not_lt hj))
    simp [hj, Nat.le_of_not_lt hj, Nat.testBit_lt_two_pow hb']

/-- One round of the loop on a draw below `2 ^ 31`: `r` loses its top 31 bits and the draw fills
the 31 bits it freed. -/
theorem shift_xor_toNat (r : UInt64) (x : UInt32) (hx : x.toNat < 2 ^ 31) :
    ((r <<< randMaxWidth.toUInt64) ^^^ x.toUInt64).toNat =
      2 ^ 31 * (r.toNat % 2 ^ 33) + x.toNat := by
  rw [randMaxWidth_eq]
  show ((r.toBitVec <<< ((31 : Nat).toUInt64 % 64).toBitVec) ^^^ x.toUInt64.toBitVec).toNat = _
  rw [BitVec.toNat_xor, BitVec.shiftLeft_eq', BitVec.toNat_shiftLeft, Nat.shiftLeft_eq]
  have hshift : ((31 : Nat).toUInt64 % 64).toBitVec.toNat = 31 := rfl
  have hmod : r.toBitVec.toNat * 2 ^ 31 % 2 ^ 64 = 2 ^ 31 * (r.toNat % 2 ^ 33) := by
    rw [Nat.mul_comm, show (2 : Nat) ^ 64 = 2 ^ 31 * 2 ^ 33 by norm_num, Nat.mul_mod_mul_left]
    rfl
  rw [hshift, hmod]
  exact two_pow_mul_xor_of_lt hx _

/-- **What `nvshare_generate_id` returns.** With glibc's `RAND_MAX`, the id is made of the low two
bits of the first of three draws and all the bits of the other two, and the next draw is the
fourth. -/
theorem nvshareGenerateId_toNat (rand : Nat → UInt32) (hr : ∀ j, (rand j).toNat ≤ randMax)
    (k : Nat) :
    (nvshareGenerateId rand k).1.toNat =
        (rand k).toNat % 4 * 2 ^ 62 + (rand (k + 1)).toNat * 2 ^ 31 + (rand (k + 2)).toNat ∧
      (nvshareGenerateId rand k).2 = k + 3 := by
  have hlt : ∀ j, (rand j).toNat < 2 ^ 31 := fun j ↦ by
    have := hr j
    unfold randMax at this
    omega
  unfold nvshareGenerateId
  rw [generateIdLoop, if_pos (by decide), generateIdLoop, if_pos (by rw [randMaxWidth_eq]; decide),
    generateIdLoop, if_pos (by rw [randMaxWidth_eq]; decide), generateIdLoop,
    if_neg (by rw [randMaxWidth_eq]; decide)]
  refine ⟨?_, rfl⟩
  rw [shift_xor_toNat _ _ (hlt _), shift_xor_toNat _ _ (hlt _), shift_xor_toNat _ _ (hlt _),
    show k + 1 + 1 = k + 2 from rfl]
  have h₀ := hlt k
  have h₁ := hlt (k + 1)
  simp only [UInt64.toNat_zero, Nat.zero_mod, Nat.mul_zero, Nat.zero_add]
  omega

/-- Every 64-bit id is what `nvshare_generate_id` returns on some three draws. -/
theorem exists_rand_nvshareGenerateId (id : UInt64) (k : Nat) :
    ∃ rand : Nat → UInt32, (∀ j, (rand j).toNat ≤ randMax) ∧
      (nvshareGenerateId rand k).1 = id := by
  let digit (j : Nat) : Nat :=
    if j = k then id.toNat / 2 ^ 62 else if j = k + 1 then id.toNat / 2 ^ 31 % 2 ^ 31
    else if j = k + 2 then id.toNat % 2 ^ 31 else 0
  have hdigit : ∀ j, digit j ≤ randMax := fun j ↦ by
    have : id.toNat < 2 ^ 64 := id.toNat_lt_size
    simp only [digit, randMax]
    split_ifs <;> omega
  have hsmall : ∀ j, (UInt32.ofNat (digit j)).toNat = digit j := fun j ↦
    UInt32.toNat_ofNat_of_lt ((hdigit j).trans_lt (by decide))
  refine ⟨fun j ↦ UInt32.ofNat (digit j), fun j ↦ (hsmall j).symm ▸ hdigit j, ?_⟩
  apply UInt64.toNat.inj
  rw [(nvshareGenerateId_toNat _ (fun j ↦ (hsmall j).symm ▸ hdigit j) k).1, hsmall, hsmall,
    hsmall]
  have : id.toNat < 2 ^ 64 := id.toNat_lt_size
  simp only [digit, if_pos, if_neg (by omega : k + 1 ≠ k), if_neg (by omega : k + 2 ≠ k),
    if_neg (by omega : k + 2 ≠ k + 1)]
  omega

/-- **What `nvshare_generate_id` returns, and that every id is among its results.** With
glibc's `RAND_MAX`, on any answers of `rand ()` within it the id is made of the low two bits of the
first of three draws and all the bits of the other two, and the next draw is the fourth; and every
64-bit value is the id of some three draws within `RAND_MAX`. -/
theorem nvshareGenerateId_spec (rand : Nat → UInt32) (hr : ∀ j, (rand j).toNat ≤ randMax)
    (k : Nat) :
    ((nvshareGenerateId rand k).1.toNat =
        (rand k).toNat % 4 * 2 ^ 62 + (rand (k + 1)).toNat * 2 ^ 31 + (rand (k + 2)).toNat ∧
      (nvshareGenerateId rand k).2 = k + 3) ∧
    ∀ id : UInt64, ∃ rand' : Nat → UInt32, (∀ j, (rand' j).toNat ≤ randMax) ∧
      (nvshareGenerateId rand' k).1 = id :=
  ⟨nvshareGenerateId_toNat rand hr k, fun id ↦ exists_rand_nvshareGenerateId id k⟩

theorem nvshareGenerateId_spec_fives :
    (∀ j, ((fun _ ↦ 5 : Nat → UInt32) j).toNat ≤ randMax) ∧
      (nvshareGenerateId (fun _ ↦ 5) 0).1.toNat = 5 % 4 * 2 ^ 62 + 5 * 2 ^ 31 + 5 ∧
        (nvshareGenerateId (fun _ ↦ 5) 0).2 = 3 := by
  have hr : ∀ j, ((fun _ ↦ 5 : Nat → UInt32) j).toNat ≤ randMax := fun _ ↦
    show (5 : UInt32).toNat ≤ randMax by decide
  exact ⟨hr, (nvshareGenerateId_spec _ hr 0).1⟩

/-! ## The retry loop -/

/-- The loop's test, read the other way: an id passes it exactly when it is neither the sentinel
nor the id of a record of the table. -/
theorem fresh_iff_not_clash {clients : List Client} {id : UInt64} :
    (id != unregisteredId && clients.all (·.id != id)) = true ↔
      ¬ (id = unregisteredId ∨ clients.any (·.id = id)) := by
  simp [List.all_eq_true, List.any_eq_true]

/-- What the loop settles on is neither the sentinel nor an id of the table. -/
theorem registerClientId_fresh {clients : List Client} {rand : Nat → UInt32} :
    ∀ {fuel k : Nat} {id : UInt64}, registerClientId clients rand fuel k = some id →
      (id != unregisteredId && clients.all (·.id != id)) = true
  | 0, _, _, h => by cases h
  | fuel + 1, k, id, h => by
    rw [registerClientId] at h
    dsimp only at h
    split_ifs at h with hbad
    · exact registerClientId_fresh h
    · cases h
      exact fresh_iff_not_clash.mpr hbad

/-- An id is what the regeneration loop settles on, for some answers of `rand ()` within
`RAND_MAX`, exactly when it is neither `NVSHARE_UNREGISTERED_ID` nor the id of a record of the
table. -/
theorem registerClientId_iff (clients : List Client) (id : UInt64) :
    (∃ rand fuel k, (∀ j, (rand j).toNat ≤ randMax) ∧
        registerClientId clients rand fuel k = some id) ↔
      (id != unregisteredId && clients.all (·.id != id)) = true := by
  constructor
  · rintro ⟨rand, fuel, k, -, h⟩
    exact registerClientId_fresh h
  · intro hfresh
    obtain ⟨rand, hr, hid⟩ := exists_rand_nvshareGenerateId id 0
    refine ⟨rand, 1, 0, hr, ?_⟩
    simp only [registerClientId, hid, if_neg (fresh_iff_not_clash.mp hfresh)]

/-- **The ids `register_client` can hand out are the ones the model lets the environment choose.**
A read of `m` may serve a `REGISTER` with the id `id` exactly when, for some answers of `rand ()`
within `RAND_MAX`, the regeneration loop over the current table settles on `id`. -/
theorem canChoose_read_iff (s : Sched) (m : Message) (id : UInt64) :
    s.canChoose (Choice.read m id) = true ↔
      ∃ rand fuel k, (∀ j, (rand j).toNat ≤ randMax) ∧
        registerClientId s.clients rand fuel k = some id := by
  rw [registerClientId_iff]
  simp only [Sched.canChoose, Choice.read, Bool.and_true]

end Nvshare
