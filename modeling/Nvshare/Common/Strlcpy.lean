import Mathlib.Data.List.Basic

/-!
# `strlcpy`

`common.c` carries its own `strlcpy`, the OpenBSD one. It copies a NUL-terminated `src` into a
`dst` of `dsize` bytes: as much of `src` as fits before a NUL, which it always writes when
`dsize` is not `0`. It returns `strlen (src)`, so that a result `≥ dsize` tells the caller that
the copy was cut. The client fills the pod name and namespace of its `REGISTER` message with it,
and the scheduler copies them from the message into its client record the same way.

`src` is the list of the bytes from `src` on, and a NUL-terminated `src` is one that holds a
`0`. A run of `strlcpy` is the list of its writes to `dst`, `(index, byte)` in the order it makes
them, with what it returns; `applyWrites` is a memory `dst` after them. The model follows the
pointers of the source: `--nleft` on the `size_t` `nleft`, one write for each byte read, the NUL
when `nleft` reaches `0`, and the walk `while (*src++)` to the end of `src` for the result
`src - osrc - 1`.

For a NUL-terminated `src` the writes are `src[0, k)` at `dst[0, k)` and a NUL at `dst[k]`, with
`k = min (strlen src) (dsize - 1)`, and none at all when `dsize = 0` (`strlcpy_writes`); the result
is `strlen src` (`strlcpy_ret`).
-/

namespace Nvshare

/-- `strlen`: the number of bytes before the first NUL. -/
def strlen : List UInt8 → Nat
  | [] => 0
  | b :: s => if b = 0 then 0 else strlen s + 1

/-- A memory `dst` after the writes `w`, made in order. -/
def applyWrites (w : List (Nat × UInt8)) (dst : Nat → UInt8) : Nat → UInt8 :=
  w.foldl (fun m p j ↦ if j = p.1 then p.2 else m j) dst

/-- Where the copy loop of `strlcpy` stops: its writes, the bytes of `src` it has not read, and
`nleft`. -/
structure CopyEnd where
  writes : List (Nat × UInt8)
  rest : List UInt8
  nleft : UInt64

/-- The copy loop `while (--nleft != 0) { if ((*dst++ = *src++) == '\0') break; }`, writing from
`dst + i` on. A `src` that ends before its NUL has nothing more to read, and the loop stops
there. -/
def strlcpyCopy (i : Nat) (nleft : UInt64) (src : List UInt8) : CopyEnd :=
  if nleft - 1 = 0 then ⟨[], src, nleft - 1⟩ else
  match src with
  | [] => ⟨[], [], nleft - 1⟩
  | b :: src =>
    if b = 0 then ⟨[(i, b)], src, nleft - 1⟩
    else
      let e := strlcpyCopy (i + 1) (nleft - 1) src
      ⟨(i, b) :: e.writes, e.rest, e.nleft⟩

/-- `while (*src++) ;`: how far `src` moves, its NUL included. -/
def strlcpySkip : List UInt8 → Nat
  | [] => 0
  | b :: src => if b = 0 then 1 else strlcpySkip src + 1

/-- `strlcpy (dst, src, dsize)`: its writes to `dst` and what it returns. `src` moves one byte
for each byte the loop copies, and on to past its NUL when the loop ran out of room. -/
def strlcpy (src : List UInt8) (dsize : UInt64) : List (Nat × UInt8) × UInt64 :=
  let e : CopyEnd := if dsize ≠ 0 then strlcpyCopy 0 dsize src else ⟨[], src, dsize⟩
  if e.nleft = 0 then
    (e.writes ++ (if dsize ≠ 0 then [(e.writes.length, 0)] else []),
      .ofNat (e.writes.length + strlcpySkip e.rest) - 1)
  else (e.writes, .ofNat e.writes.length - 1)

/-! ## Strings -/

@[simp] theorem strlen_cons_zero (s : List UInt8) : strlen (0 :: s) = 0 := rfl

theorem strlen_cons_of_ne {b : UInt8} (hb : b ≠ 0) (s : List UInt8) :
    strlen (b :: s) = strlen s + 1 := if_neg hb

theorem mem_of_mem_cons_of_ne {b : UInt8} {s : List UInt8} (h0 : 0 ∈ b :: s) (hb : b ≠ 0) :
    0 ∈ s :=
  (List.mem_cons.mp h0).resolve_left (Ne.symm hb)

theorem strlen_lt_length {s : List UInt8} (h0 : 0 ∈ s) : strlen s < s.length := by
  induction s with
  | nil => simp at h0
  | cons b s ih =>
    by_cases hb : b = 0
    · simp [hb]
    · simpa [strlen_cons_of_ne hb] using ih (mem_of_mem_cons_of_ne h0 hb)

/-- The NUL closes the first `strlen s` bytes. -/
theorem take_strlen_succ {s : List UInt8} (h0 : 0 ∈ s) :
    s.take (strlen s + 1) = s.take (strlen s) ++ [0] := by
  induction s with
  | nil => simp at h0
  | cons b s ih =>
    by_cases hb : b = 0
    · simp [hb]
    · simp [strlen_cons_of_ne hb, ih (mem_of_mem_cons_of_ne h0 hb)]

/-- From `k` bytes in, the walk to the NUL covers what is left of the string and its NUL. -/
theorem strlcpySkip_drop {s : List UInt8} (h0 : 0 ∈ s) {k : Nat} (hk : k ≤ strlen s) :
    strlcpySkip (s.drop k) = strlen s + 1 - k := by
  induction s generalizing k with
  | nil => simp at h0
  | cons b s ih =>
    by_cases hb : b = 0
    · subst hb
      obtain rfl : k = 0 := by simpa using hk
      rfl
    · rw [strlen_cons_of_ne hb] at hk ⊢
      cases k with
      | zero =>
        have hskip := ih (mem_of_mem_cons_of_ne h0 hb) (Nat.zero_le _)
        rw [List.drop_zero] at hskip
        simp [strlcpySkip, hb, hskip]
      | succ k => simpa using ih (mem_of_mem_cons_of_ne h0 hb) (by omega)

theorem strlen_append {s : List UInt8} (h0 : 0 ∈ s) (t : List UInt8) :
    strlen (s ++ t) = strlen s := by
  induction s with
  | nil => simp at h0
  | cons b s ih =>
    by_cases hb : b = 0
    · simp [hb]
    · rw [List.cons_append, strlen_cons_of_ne hb, strlen_cons_of_ne hb,
        ih (mem_of_mem_cons_of_ne h0 hb)]

/-- The first `k ≤ strlen s` bytes of `s`, closed by a NUL, are a string of length `k`. -/
theorem strlen_take_append_nul {s : List UInt8} {k : Nat} (hk : k ≤ strlen s) (t : List UInt8) :
    strlen (s.take k ++ 0 :: t) = k := by
  induction s generalizing k with
  | nil =>
    obtain rfl : k = 0 := by simpa [strlen] using hk
    rfl
  | cons b s ih =>
    cases k with
    | zero => rfl
    | succ k =>
      have hb : b ≠ 0 := fun hb ↦ by simp [hb] at hk
      rw [strlen_cons_of_ne hb] at hk
      rw [List.take_succ_cons, List.cons_append, strlen_cons_of_ne hb, ih (by omega)]

theorem uint64_toNat_sub_one {n : UInt64} (hn : n ≠ 0) : (n - 1).toNat = n.toNat - 1 :=
  UInt64.toNat_sub_of_le _ _ (Nat.one_le_iff_ne_zero.mpr fun h ↦ hn (UInt64.toNat.inj h))

theorem uint64_ofNat_succ_sub_one (n : Nat) : UInt64.ofNat (n + 1) - 1 = .ofNat n := by
  show (⟨BitVec.ofNat 64 (n + 1) - 1#64⟩ : UInt64) = ⟨BitVec.ofNat 64 n⟩
  rw [BitVec.ofNat_add, BitVec.add_sub_cancel]

/-! ## Writes -/

section Writes

variable (dst : Nat → UInt8)

@[simp] theorem applyWrites_nil : applyWrites [] dst = dst := rfl

theorem applyWrites_cons (p : Nat × UInt8) (w : List (Nat × UInt8)) :
    applyWrites (p :: w) dst = applyWrites w (fun j ↦ if j = p.1 then p.2 else dst j) := rfl

theorem applyWrites_append (w w' : List (Nat × UInt8)) :
    applyWrites (w ++ w') dst = applyWrites w' (applyWrites w dst) :=
  List.foldl_append _ _ _ _

@[simp] theorem applyWrites_singleton (i : Nat) (b : UInt8) (j : Nat) :
    applyWrites [(i, b)] dst j = if j = i then b else dst j := rfl

/-- Writes from `dst + i` on leave every index outside them as it was. -/
theorem applyWrites_zip_frame (l : List UInt8) {i n j : Nat} (hj : j < i ∨ i + n ≤ j) :
    applyWrites ((List.range' i n).zip l) dst j = dst j := by
  induction n generalizing i l dst with
  | zero => rfl
  | succ n ih =>
    cases l with
    | nil => simp
    | cons b l =>
      rw [List.range'_succ, List.zip_cons_cons, applyWrites_cons, ih _ l (i := i + 1) (by omega),
        if_neg (by omega)]

/-- The first `k` bytes of `l`, written from `dst + i` on, are what `dst[i, i + k)` holds
afterwards. -/
theorem applyWrites_zip_read (l : List UInt8) (i : Nat) {k : Nat} (hk : k ≤ l.length) :
    (List.range' i k).map (applyWrites ((List.range' i k).zip (l.take k)) dst) = l.take k := by
  induction l generalizing i k dst with
  | nil =>
    obtain rfl : k = 0 := by simpa using hk
    rfl
  | cons b l ih =>
    cases k with
    | zero => rfl
    | succ k =>
      rw [List.range'_succ, List.take_succ_cons, List.zip_cons_cons, applyWrites_cons,
        List.map_cons, applyWrites_zip_frame _ _ (i := i + 1) (n := k) (j := i) (by omega),
        if_pos rfl, ih _ _ (by simpa using hk)]

end Writes

/-! ## The copy loop -/

/-- The copy loop copies `m = min (strlen src + 1) (nleft - 1)` bytes: the string and its NUL
when there is room for both, else `nleft - 1` bytes. It ends with `nleft = 0` exactly when there
was no room for the NUL. -/
theorem strlcpyCopy_spec {src : List UInt8} (h0 : 0 ∈ src) {nleft : UInt64} (hn : nleft ≠ 0)
    (i : Nat) :
    let m := min (strlen src + 1) (nleft.toNat - 1)
    (strlcpyCopy i nleft src).writes = (List.range' i m).zip (src.take m) ∧
    (strlcpyCopy i nleft src).rest = src.drop m ∧
    ((strlcpyCopy i nleft src).nleft = 0 ↔ nleft.toNat ≤ strlen src + 1) := by
  induction src generalizing i nleft with
  | nil => simp at h0
  | cons b s ih =>
    have hsub := uint64_toNat_sub_one hn
    rw [strlcpyCopy]
    by_cases hz : nleft - 1 = 0
    · have h1 : nleft.toNat - 1 = 0 := by rw [← hsub, hz]; rfl
      rw [if_pos hz, h1, Nat.min_zero]
      exact ⟨rfl, rfl, iff_of_true hz (by omega)⟩
    have h1 : nleft.toNat - 1 ≠ 0 := fun h ↦ hz (UInt64.toNat.inj (hsub.trans h))
    by_cases hb : b = 0
    · subst hb
      simp only [if_neg hz, if_true, strlen_cons_zero, Nat.zero_add,
        Nat.min_eq_left (by omega : 1 ≤ nleft.toNat - 1)]
      exact ⟨rfl, rfl, fun h ↦ absurd h hz, by omega⟩
    · have hm : min (strlen s + 1 + 1) (nleft.toNat - 1) =
          min (strlen s + 1) (nleft.toNat - 1 - 1) + 1 := by omega
      obtain ⟨hw, hr, hl⟩ := ih (mem_of_mem_cons_of_ne h0 hb) hz (i + 1)
      rw [hsub] at hw hr hl
      simp only [if_neg hz, if_neg hb, strlen_cons_of_ne hb, hm, List.range'_succ,
        List.take_succ_cons, List.zip_cons_cons, List.drop_succ_cons, hw, hr, hl, true_and]
      omega

/-! ## `strlcpy` -/

theorem strlcpy_zero (src : List UInt8) :
    strlcpy src 0 = ([], .ofNat (strlcpySkip src) - 1) := by
  simp [strlcpy]

theorem strlcpy_of_ne_zero (src : List UInt8) {dsize : UInt64} (hd : dsize ≠ 0) :
    strlcpy src dsize =
      let e := strlcpyCopy 0 dsize src
      if e.nleft = 0 then
        (e.writes ++ [(e.writes.length, 0)], .ofNat (e.writes.length + strlcpySkip e.rest) - 1)
      else (e.writes, .ofNat e.writes.length - 1) := by
  simp only [strlcpy, if_pos hd]

theorem length_zip_range'_take (l : List UInt8) (i : Nat) {m : Nat} (hm : m ≤ l.length) :
    ((List.range' i m).zip (l.take m)).length = m := by
  simp [List.length_zip, List.length_take, hm]

/-- What `strlcpy` writes: nothing when `dsize = 0`, else `src[0, k)` at `dst[0, k)` and a NUL at
`dst[k]`, where `k = min (strlen src) (dsize - 1)`. -/
theorem strlcpy_writes {src : List UInt8} (h0 : 0 ∈ src) (dsize : UInt64) :
    (strlcpy src dsize).1 =
      if dsize = 0 then [] else
        (List.range (min (strlen src) (dsize.toNat - 1))).zip
          (src.take (min (strlen src) (dsize.toNat - 1))) ++
        [(min (strlen src) (dsize.toNat - 1), 0)] := by
  by_cases hd : dsize = 0
  · simp [hd, strlcpy_zero]
  obtain ⟨hw, -, hl⟩ := strlcpyCopy_spec h0 hd 0
  have hlen := strlen_lt_length h0
  rw [strlcpy_of_ne_zero src hd, if_neg hd, List.range_eq_range']
  dsimp only
  by_cases hroom : dsize.toNat ≤ strlen src + 1
  · have hk : min (strlen src + 1) (dsize.toNat - 1) = min (strlen src) (dsize.toNat - 1) := by
      omega
    rw [if_pos (hl.mpr hroom), hw, hk, length_zip_range'_take _ _ (by omega)]
  · rw [if_neg (mt hl.mp hroom), hw, Nat.min_eq_left (by omega : strlen src + 1 ≤ _),
      Nat.min_eq_left (by omega : strlen src ≤ _), take_strlen_succ h0, List.range'_concat,
      List.zip_append (by simp; omega)]
    simp

/-- `strlcpy` returns `strlen src`, whether or not the copy was cut. -/
theorem strlcpy_ret {src : List UInt8} (h0 : 0 ∈ src) (dsize : UInt64) :
    (strlcpy src dsize).2 = .ofNat (strlen src) := by
  have hlen := strlen_lt_length h0
  by_cases hd : dsize = 0
  · have hskip := strlcpySkip_drop h0 (Nat.zero_le _)
    rw [List.drop_zero] at hskip
    rw [hd, strlcpy_zero, hskip]
    exact uint64_ofNat_succ_sub_one _
  obtain ⟨hw, hr, hl⟩ := strlcpyCopy_spec h0 hd 0
  rw [strlcpy_of_ne_zero src hd]
  dsimp only
  by_cases hroom : dsize.toNat ≤ strlen src + 1
  · have hm : min (strlen src + 1) (dsize.toNat - 1) ≤ strlen src := by omega
    rw [if_pos (hl.mpr hroom), hw, hr, strlcpySkip_drop h0 hm,
      length_zip_range'_take _ _ (by omega), Nat.add_sub_cancel' (by omega)]
    exact uint64_ofNat_succ_sub_one _
  · rw [if_neg (mt hl.mp hroom), hw, length_zip_range'_take _ _ (by omega),
      Nat.min_eq_left (by omega : strlen src + 1 ≤ dsize.toNat - 1)]
    exact uint64_ofNat_succ_sub_one _

/-- `[0, n)` around an index `k` in it. -/
theorem range_eq_append_cons {k n : Nat} (h : k < n) :
    List.range n = List.range' 0 k ++ k :: List.range' (k + 1) (n - 1 - k) := by
  have happ := List.range'_append_1 0 k (n - 1 - k + 1)
  rw [Nat.zero_add] at happ
  rw [← List.range'_succ, happ, List.range_eq_range']
  congr 1
  omega

/-- The whole of `dst[0, dsize)` after `strlcpy`: `src[0, k)`, the NUL, then what was there. -/
theorem strlcpy_buffer {src : List UInt8} (h0 : 0 ∈ src) {dsize : UInt64} (hd : dsize ≠ 0)
    (dst : Nat → UInt8) :
    let k := min (strlen src) (dsize.toNat - 1)
    (List.range dsize.toNat).map (applyWrites (strlcpy src dsize).1 dst) =
      src.take k ++ 0 :: (List.range' (k + 1) (dsize.toNat - 1 - k)).map dst := by
  intro k
  have hpos : 0 < dsize.toNat := Nat.pos_of_ne_zero fun h ↦ hd (UInt64.toNat.inj h)
  have hk : k ≤ src.length := (Nat.min_le_left _ _).trans (strlen_lt_length h0).le
  rw [strlcpy_writes h0, if_neg hd, List.range_eq_range', applyWrites_append,
    range_eq_append_cons (by omega : k < dsize.toNat),
    List.map_append, List.map_cons, applyWrites_singleton, if_pos rfl]
  congr 2
  · rw [List.map_congr_left fun j hj ↦ by
      rw [applyWrites_singleton, if_neg (by rw [List.mem_range'_1] at hj; omega)]]
    exact applyWrites_zip_read dst src 0 hk
  · refine List.map_congr_left fun j hj ↦ ?_
    rw [List.mem_range'_1] at hj
    rw [applyWrites_singleton, if_neg (by omega), applyWrites_zip_frame _ _ (by omega)]

/-- `strlcpy` on a NUL-terminated `src` returns `strlen src`. When `dsize > 0`, afterwards
`dst[0, k)` holds `src[0, k)` and `dst[k]` a NUL, with `k = min (strlen src) (dsize - 1)`, and no
write reaches `dst + dsize`; when `dsize = 0` it writes nothing. -/
theorem strlcpy_contract (src : List UInt8) (h0 : 0 ∈ src) (dsize : UInt64)
    (dst : Nat → UInt8) :
    (strlcpy src dsize).2 = .ofNat (strlen src) ∧
    (0 < dsize →
      let k := min (strlen src) (dsize.toNat - 1)
      (List.range k).map (applyWrites (strlcpy src dsize).1 dst) = src.take k ∧
        applyWrites (strlcpy src dsize).1 dst k = 0 ∧
        ∀ p ∈ (strlcpy src dsize).1, p.1 < dsize.toNat) ∧
    (dsize = 0 → (strlcpy src dsize).1 = []) := by
  refine ⟨strlcpy_ret h0 dsize, fun hd ↦ ?_, fun hd ↦ by rw [strlcpy_writes h0, if_pos hd]⟩
  have hd' : dsize ≠ 0 := fun h ↦ (lt_irrefl 0) (h ▸ hd)
  have hk : min (strlen src) (dsize.toNat - 1) ≤ src.length :=
    (Nat.min_le_left _ _).trans (strlen_lt_length h0).le
  have hpos : 0 < dsize.toNat := hd
  dsimp only
  rw [strlcpy_writes h0, if_neg hd', List.range_eq_range', applyWrites_append]
  refine ⟨?_, by simp, ?_⟩
  · rw [List.map_congr_left fun j hj ↦ by
      rw [applyWrites_singleton, if_neg (by rw [List.mem_range'_1] at hj; omega)]]
    exact applyWrites_zip_read dst src 0 hk
  · intro p hp
    rcases List.mem_append.mp hp with hp | hp
    · have := List.mem_range'_1.mp (List.of_mem_zip hp).1
      omega
    · rw [List.mem_singleton.mp hp]
      exact lt_of_le_of_lt (Nat.min_le_right _ _) (by omega)

/-- `"hello"` into three bytes: `"he"` and a NUL, and the result `5` tells the caller that the
copy was cut. -/
theorem strlcpy_contract_hello :
    (0 : UInt8) ∈ [104, 101, 108, 108, 111, 0] ∧
      (strlcpy [104, 101, 108, 108, 111, 0] 3).2 = 5 ∧
      (List.range 2).map (applyWrites (strlcpy [104, 101, 108, 108, 111, 0] 3).1 fun _ ↦ 7) =
        [104, 101] :=
  ⟨by decide, (strlcpy_contract _ (by decide) 3 fun _ ↦ 7).1,
    ((strlcpy_contract _ (by decide) 3 fun _ ↦ 7).2.1 (by decide)).1⟩

/-- `strlcpy` reads nothing past the NUL of `src`. -/
theorem strlcpy_append {src : List UInt8} (h0 : 0 ∈ src) (t : List UInt8) (dsize : UInt64) :
    strlcpy (src ++ t) dsize = strlcpy src dsize := by
  have h0' : 0 ∈ src ++ t := List.mem_append_left t h0
  have hk : min (strlen src) (dsize.toNat - 1) ≤ src.length :=
    (Nat.min_le_left _ _).trans (strlen_lt_length h0).le
  refine Prod.ext ?_ ?_
  · rw [strlcpy_writes h0', strlcpy_writes h0, strlen_append h0, List.take_append_of_le_length hk]
  · rw [strlcpy_ret h0', strlcpy_ret h0, strlen_append h0]

/-! ## The pod name

The client sends the scheduler the name of its pod in the `REGISTER` message. `main_thread` of
`client.c` clears the message and, on Kubernetes, fills the field with `read_pod_name`, which
copies `HOSTNAME` and warns when it cuts it; elsewhere, or without `HOSTNAME`, the name is
`"none"`. `register_client` of `scheduler.c` copies the field into the client's record, of the
same size. The record then holds the client's name cut to `POD_NAME_LEN_MAX - 1` bytes, and the
copy reads nothing of the message past the field (`registered_pod_name`).
-/

/-- `POD_NAME_LEN_MAX`, the size of the pod name in a message and in a client record. -/
def podNameLenMax : UInt64 := 254

/-- The string `"none"`. -/
def noneStr : List UInt8 := [110, 111, 110, 101, 0]

/-- The name `main_thread` sends: `HOSTNAME` on Kubernetes, if it is set, else `"none"`. -/
def chosenPodName (k8s : Bool) (hostname : Option (List UInt8)) : List UInt8 :=
  if k8s then hostname.getD noneStr else noneStr

/-- `read_pod_name (pod_name, size)`, with `HOSTNAME` as `getenv` returns it: the writes to
`pod_name`, and whether it warns that the name is longer than `size` characters. -/
def readPodName (hostname : Option (List UInt8)) (size : UInt64) : List (Nat × UInt8) × Bool :=
  match hostname with
  | some value =>
    let r := strlcpy value size
    (r.1, decide (r.2 ≥ size))
  | none => ((strlcpy noneStr size).1, false)

/-- The pod name field of the client's `REGISTER` message, as `main_thread` fills it: the message
cleared, then `read_pod_name` on Kubernetes and `"none"` elsewhere. -/
def msgPodName (k8s : Bool) (hostname : Option (List UInt8)) : List UInt8 :=
  let w := if k8s then (readPodName hostname podNameLenMax).1
    else (strlcpy noneStr podNameLenMax).1
  (List.range podNameLenMax.toNat).map (applyWrites w fun _ ↦ 0)

/-- `register_client`'s copy of the pod name,
`strlcpy (client->pod_name, in_msg->pod_name, sizeof (client->pod_name))`, with `msg` the bytes
of the message from its pod name on. -/
def registerPodName (msg : List UInt8) : List (Nat × UInt8) :=
  (strlcpy msg podNameLenMax).1

/-- `read_pod_name` warns exactly when the pod name loses bytes of `HOSTNAME`. -/
theorem readPodName_warns_iff {value : List UInt8} (h0 : 0 ∈ value)
    (hlen : strlen value < UInt64.size) {size : UInt64} (hsize : size ≠ 0) :
    (readPodName (some value) size).2 = true ↔
      min (strlen value) (size.toNat - 1) < strlen value := by
  have hpos : 0 < size.toNat := Nat.pos_of_ne_zero fun h ↦ hsize (UInt64.toNat.inj h)
  have hret : (strlcpy value size).2.toNat = strlen value := by
    rw [strlcpy_ret h0, UInt64.toNat_ofNat_of_lt hlen]
  simp only [readPodName, decide_eq_true_iff, ge_iff_le]
  show size.toNat ≤ (strlcpy value size).2.toNat ↔ _
  omega

/-- `"hello"` in three bytes is cut, and `read_pod_name` says so. -/
theorem readPodName_warns_hello : (readPodName (some [104, 101, 108, 108, 111, 0]) 3).2 = true :=
  (readPodName_warns_iff (by decide) (by decide) (by decide)).mpr (by decide)

/-- The field the client sends is `strlcpy` of the name it chose, `HOSTNAME` or `"none"`, into a
cleared buffer. -/
theorem msgPodName_eq (k8s : Bool) (hostname : Option (List UInt8)) :
    msgPodName k8s hostname =
      (List.range podNameLenMax.toNat).map
        (applyWrites (strlcpy (chosenPodName k8s hostname) podNameLenMax).1 fun _ ↦ 0) := by
  cases k8s <;> cases hostname <;> rfl

/-- The pod name the scheduler records for a client is the one the client sent: the first
`k = min (strlen name) 253` bytes of `HOSTNAME` (or of `"none"`) and a NUL, the rest of the record
as it was; and whatever the message holds past the field, the copy does not read it. -/
theorem registered_pod_name (k8s : Bool) (hostname : Option (List UInt8))
    (hv : ∀ v ∈ hostname, 0 ∈ v) (after : List UInt8) (rec : Nat → UInt8) :
    (List.range podNameLenMax.toNat).map
        (applyWrites (registerPodName (msgPodName k8s hostname ++ after)) rec) =
      (chosenPodName k8s hostname).take (min (strlen (chosenPodName k8s hostname)) 253) ++
        0 :: (List.range' (min (strlen (chosenPodName k8s hostname)) 253 + 1)
          (253 - min (strlen (chosenPodName k8s hostname)) 253)).map rec := by
  set name := chosenPodName k8s hostname
  set k := min (strlen name) 253
  have hname : 0 ∈ name := by
    have hnone : (0 : UInt8) ∈ noneStr := by decide
    cases k8s
    · exact hnone
    · cases hostname with
      | none => exact hnone
      | some v => exact hv v rfl
  have hk : k ≤ strlen name := Nat.min_le_left _ _
  have htake : (name.take k).length = k :=
    List.length_take_of_le (hk.trans (strlen_lt_length hname).le)
  have hfield : msgPodName k8s hostname = name.take k ++ 0 :: (List.range' (k + 1) (253 - k)).map
      fun _ ↦ 0 := by
    rw [msgPodName_eq]
    exact strlcpy_buffer hname (by decide) _
  have hlen : strlen (msgPodName k8s hostname) = k := by
    rw [hfield, strlen_take_append_nul hk]
  have h0 : 0 ∈ msgPodName k8s hostname := by
    rw [hfield]
    exact List.mem_append_right _ (List.mem_cons_self _ _)
  rw [registerPodName, strlcpy_append h0, strlcpy_buffer h0 (by decide), hlen,
    show min k (podNameLenMax.toNat - 1) = k from Nat.min_eq_left (Nat.min_le_right _ _), hfield,
    List.take_left' htake]
  rfl

/-- `"hi"` reaches the scheduler's record whole, whatever follows the field in the message. -/
theorem registered_pod_name_hi :
    (List.range podNameLenMax.toNat).map
        (applyWrites (registerPodName (msgPodName true (some [104, 105, 0]) ++ [1, 2]))
          fun _ ↦ 7) =
      [104, 105] ++ 0 :: (List.range' 3 251).map fun _ ↦ 7 :=
  registered_pod_name true (some [104, 105, 0]) (by rintro v ⟨⟩; decide) [1, 2] _

end Nvshare
