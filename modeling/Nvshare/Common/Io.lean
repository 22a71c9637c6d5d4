import Mathlib.Data.List.Range
import Nvshare.Wire

/-!
# The framed I/O loops

`write_whole` and `read_whole` of `common.c` move a whole buffer over a socket: they loop over
partial writes and reads, and every call goes through `RETRY_INTR`, which makes it again while it
fails with `EINTR`. `nvshare_receive_block` is `read_whole` on a buffer it clears first. Every
message of the protocol goes through them.

The kernel is a parameter: the list of what the successive calls answer, `-1` with an `errno` or
what the call moved. A run returns what the function returns, or `none` when the answers run out
before it does, and the calls it made, each with the offset into `buf`, the count asked for and
the answer. What a run sent or stored is read off its calls (`sent`, `Call.store`).

`RETRY_INTR` keeps the result in an `int`. Linux moves at most `MAX_RW_COUNT = 0x7ffff000`
bytes in one `read` or `write`, so every answer is below `2 ^ 31` (`Call.FitsInt`) and the `int`
holds it. Under that bound, and with `cnt` an `ssize_t`, the loops keep their contracts
(`WriteContract`, `ReadContract`): `write_whole` sends `buf[0, cnt)` once, in order, and returns
`cnt`, or returns `-1` after a failure that is not `EINTR`; `read_whole` asks for no more than the
rest of the buffer, stores the chunks one after another from `buf` on and returns `cnt`, or what
it read before an end of file, or `-1`.
-/

namespace Nvshare

/-- `EINTR`. -/
def eintr : Nat := 4

/-- What one `write` or `read` answers. -/
inductive Answer (β : Type) where
  /-- `-1`, with `errno` set. -/
  | fail (errno : Nat)
  /-- What it moved: a count for `write`, the bytes stored for `read`. -/
  | moved (x : β)
  deriving DecidableEq, Repr

/-- A call as the loops make it: at `buf + offset`, asking for `count` bytes. -/
structure Call (β : Type) where
  offset : Nat
  count : Nat
  answer : Answer β
  deriving DecidableEq, Repr

section Answers

variable {β : Type} (size : β → Nat)

/-- The `ssize_t` the call returns: `-1`, or the size of what it moved. -/
def Answer.ret : Answer β → Int
  | .fail _ => -1
  | .moved x => size x

/-- `errno` after the call: a failure sets it, a success leaves it as it was. -/
def Answer.errnoAfter (errno : Nat) : Answer β → Nat
  | .fail e => e
  | .moved _ => errno

/-- A failure with `EINTR`. -/
def Answer.interrupted : Answer β → Bool
  | .fail e => e == eintr
  | .moved _ => false

/-- The answer is one the kernel gives: a failure, or from `least` bytes up to the count asked
for. -/
def Call.Fits (least : Nat) (c : Call β) : Prop :=
  match c.answer with
  | .fail _ => True
  | .moved x => least ≤ size x ∧ size x ≤ c.count

/-- The answer moves fewer than `2 ^ 31` bytes, so that its count fits an `int`. -/
def Call.FitsInt (c : Call β) : Prop :=
  match c.answer with
  | .fail _ => True
  | .moved x => size x < 2 ^ 31

instance (least : Nat) (c : Call β) : Decidable (c.Fits size least) := by
  unfold Call.Fits; split <;> infer_instance

instance (c : Call β) : Decidable (c.FitsInt size) := by
  unfold Call.FitsInt; split <;> infer_instance

/-- The answer of the last call. -/
def lastAnswer (calls : List (Call β)) : Option (Answer β) :=
  calls.getLast?.map Call.answer

/-- The last call failed with an `errno` other than `EINTR`. -/
def FailsLast (calls : List (Call β)) : Prop :=
  ∃ e, e ≠ eintr ∧ lastAnswer calls = some (.fail e)

end Answers

/-- `RETRY_INTR`'s test: the call is made again while its result, kept in an `int`, is negative
and `errno` is `EINTR`. -/
def retryIntr (rc : Int) (errno : Nat) : Bool :=
  decide (rc < 0) && errno == eintr

/-- The conversion of a `size_t` to the `ssize_t` a function returns, modulo `2 ^ 64`. -/
def toSsize (v : UInt64) : Int := Int.bmod v.toNat (2 ^ 64)

/-! ## `write_whole` -/

/-- The loop of `write_whole (fd, buf, cnt)`, with `origCnt` the `cnt` it was called with, `buf`
advanced by `offset` and `cnt` bytes left. A retry of `RETRY_INTR` makes the same call again, so
it is the same state with the next answer. -/
def writeLoop (origCnt : UInt64) (errno offset : Nat) (cnt : UInt64) (as : List (Answer Nat)) :
    Option Int × List (Call Nat) :=
  if 0 < cnt then
    match as with
    | [] => (none, [])
    | a :: as =>
      let call : Call Nat := ⟨offset, cnt.toNat, a⟩
      let rc := toInt32 (a.ret id)
      let errno := a.errnoAfter errno
      if retryIntr rc errno then Prod.map id (call :: ·) (writeLoop origCnt errno offset cnt as)
      else if rc < 0 then (some rc, [call])
      else
        Prod.map id (call :: ·)
          (writeLoop origCnt errno (offset + rc.toNat) (cnt - .ofNat rc.toNat) as)
  else (some (toSsize origCnt), [])

/-- `write_whole (fd, buf, cnt)`, with `errno` as it is at the call. -/
def writeWhole (errno : Nat) (cnt : UInt64) (as : List (Answer Nat)) :
    Option Int × List (Call Nat) :=
  writeLoop cnt errno 0 cnt as

/-- The offsets of `buf` the calls sent, in the order they went out. -/
def sent (calls : List (Call Nat)) : List Nat :=
  calls.flatMap fun c ↦
    match c.answer with
    | .fail _ => []
    | .moved n => List.range' c.offset n

/-! ## `read_whole` -/

section Read

variable {α : Type}

/-- The loop of `read_whole (fd, buf, cnt)`, with `buf` advanced by `offset` and `readcnt` bytes
read. -/
def readLoop (cnt : UInt64) (errno offset : Nat) (readcnt : UInt64) (as : List (Answer (List α))) :
    Option Int × List (Call (List α)) :=
  if readcnt < cnt then
    match as with
    | [] => (none, [])
    | a :: as =>
      let call : Call (List α) := ⟨offset, (cnt - readcnt).toNat, a⟩
      let rc := toInt32 (a.ret List.length)
      let errno := a.errnoAfter errno
      if retryIntr rc errno then Prod.map id (call :: ·) (readLoop cnt errno offset readcnt as)
      else if rc < 0 then (some rc, [call])
      else if rc = 0 then (some (toSsize readcnt), [call])
      else
        Prod.map id (call :: ·)
          (readLoop cnt errno (offset + rc.toNat) (readcnt + .ofNat rc.toNat) as)
  else (some (toSsize readcnt), [])

/-- `read_whole (fd, buf, cnt)`, with `errno` as it is at the call. -/
def readWhole (errno : Nat) (cnt : UInt64) (as : List (Answer (List α))) :
    Option Int × List (Call (List α)) :=
  readLoop cnt errno 0 0 as

/-- The bytes a read call stored. -/
def Call.chunk (c : Call (List α)) : List α :=
  match c.answer with
  | .fail _ => []
  | .moved l => l

/-- The chunks the calls read, one after another. -/
def reads (calls : List (Call (List α))) : List α :=
  calls.flatMap Call.chunk

/-- `mem` with `l` stored from `offset` on. -/
def place (offset : Nat) (l : List α) (mem : Nat → α) : Nat → α :=
  fun i ↦ if offset ≤ i then l[i - offset]?.getD (mem i) else mem i

/-- The buffer after a read call: its chunk stored at `buf + offset`. -/
def Call.store (c : Call (List α)) (mem : Nat → α) : Nat → α :=
  place c.offset c.chunk mem

/-- `nvshare_receive_block (rsock, msg_p, count)`: `read_whole` on a buffer it first clears, with
its result as the `int` it returns. -/
def nvshareReceiveBlock (errno : Nat) (count : UInt64) (as : List (Answer (List UInt8))) :
    Option Int × List (Call (List UInt8)) :=
  Prod.map (Option.map toInt32) id (readWhole errno count as)

/-- `memset (msg_p, 0, count)`. -/
def memsetZero (count : Nat) (mem : Nat → UInt8) : Nat → UInt8 :=
  fun i ↦ if i < count then 0 else mem i

end Read

/-! ## Machine integers -/

theorem toInt32_neg_one : toInt32 (-1) = -1 := by decide

theorem toInt32_count {n : Nat} (h : n < 2 ^ 31) : toInt32 n = n :=
  toInt32_of_lt (by omega) (by omega)

theorem toSsize_of_lt {v : UInt64} (h : v.toNat < 2 ^ 63) : toSsize v = v.toNat := by
  simp only [toSsize, Int.bmod]
  split <;> omega

theorem uint64_sub_toNat {a : UInt64} {n : Nat} (h : n ≤ a.toNat) :
    (a - .ofNat n).toNat = a.toNat - n := by
  have hn : (UInt64.ofNat n).toNat = n :=
    UInt64.toNat_ofNat_of_lt (by have := a.toNat_lt_size; omega)
  rw [UInt64.toNat_sub_of_le _ _ (by show (UInt64.ofNat n).toNat ≤ a.toNat; omega), hn]

theorem uint64_add_toNat {a : UInt64} {n : Nat} (h : a.toNat + n < 2 ^ 64) :
    (a + .ofNat n).toNat = a.toNat + n := by
  have hn : (UInt64.ofNat n).toNat = n :=
    UInt64.toNat_ofNat_of_lt (by simp only [UInt64.size]; omega)
  rw [show (a + .ofNat n).toNat = (a.toNat + (UInt64.ofNat n).toNat) % 2 ^ 64 from
    BitVec.toNat_add _ _, hn, Nat.mod_eq_of_lt h]

/-! ## Answers and calls -/

section Steps

variable {β : Type}

@[simp] theorem Answer.interrupted_moved (x : β) : (Answer.moved x).interrupted = false := rfl

@[simp] theorem Answer.interrupted_fail (e : Nat) :
    (Answer.fail e : Answer β).interrupted = (e == eintr) := rfl

theorem lastAnswer_cons {calls : List (Call β)} {a : Answer β} (c : Call β)
    (h : lastAnswer calls = some a) : lastAnswer (c :: calls) = some a := by
  cases calls with
  | nil => cases h
  | cons d calls => rwa [lastAnswer, List.getLast?_cons_cons]

theorem FailsLast.cons {calls : List (Call β)} (c : Call β) (h : FailsLast calls) :
    FailsLast (c :: calls) :=
  let ⟨e, he, hl⟩ := h
  ⟨e, he, lastAnswer_cons c hl⟩

theorem failsLast_singleton {e : Nat} (he : e ≠ eintr) (offset count : Nat) :
    FailsLast [(⟨offset, count, .fail e⟩ : Call β)] :=
  ⟨e, he, rfl⟩

end Steps

/-! ## `write_whole`, call by call -/

section WriteSteps

variable (origCnt : UInt64) (errno offset : Nat) {cnt : UInt64} (as : List (Answer Nat))

theorem writeLoop_done (h : ¬ 0 < cnt) :
    writeLoop origCnt errno offset cnt as = (some (toSsize origCnt), []) := by
  unfold writeLoop
  rw [if_neg h]

theorem writeLoop_nil (h : 0 < cnt) : writeLoop origCnt errno offset cnt [] = (none, []) := by
  rw [writeLoop, if_pos h]

theorem writeLoop_interrupted (h : 0 < cnt) :
    writeLoop origCnt errno offset cnt (.fail eintr :: as) =
      Prod.map id (⟨offset, cnt.toNat, .fail eintr⟩ :: ·)
        (writeLoop origCnt eintr offset cnt as) := by
  rw [writeLoop, if_pos h]
  simp only [Answer.ret, Answer.errnoAfter, toInt32_neg_one, retryIntr]
  rfl

theorem writeLoop_fail {e : Nat} (h : 0 < cnt) (he : e ≠ eintr) :
    writeLoop origCnt errno offset cnt (.fail e :: as) =
      (some (-1), [⟨offset, cnt.toNat, .fail e⟩]) := by
  rw [writeLoop, if_pos h]
  simp [Answer.ret, Answer.errnoAfter, toInt32_neg_one, retryIntr, he]

theorem writeLoop_moved {n : Nat} (h : 0 < cnt) (hn : n < 2 ^ 31) :
    writeLoop origCnt errno offset cnt (.moved n :: as) =
      Prod.map id (⟨offset, cnt.toNat, .moved n⟩ :: ·)
        (writeLoop origCnt errno (offset + n) (cnt - .ofNat n) as) := by
  have hpos : ¬ (n : Int) < 0 := by omega
  rw [writeLoop, if_pos h]
  simp [Answer.ret, Answer.errnoAfter, toInt32_count hn, retryIntr, hpos]

theorem writeLoop_first {a : Answer Nat} (h : 0 < cnt) :
    ⟨offset, cnt.toNat, a⟩ ∈ (writeLoop origCnt errno offset cnt (a :: as)).2 := by
  rw [writeLoop, if_pos h]
  dsimp only
  split_ifs <;> simp

end WriteSteps

/-- The contract of the loop from `buf + offset` with `cnt` bytes left: it sends
`buf[offset, offset + k)` for some `k ≤ cnt`, each byte once and in order; it returns `origCnt`
once `k = cnt`, or `-1` after a failure other than `EINTR` with `k < cnt`; and it runs out of
answers only while fewer than `cnt` of them are not `EINTR`. -/
def WriteContract (origCnt : UInt64) (offset cnt : Nat) (as : List (Answer Nat))
    (run : Option Int × List (Call Nat)) : Prop :=
  ∃ k ≤ cnt, sent run.2 = List.range' offset k ∧
    match run.1 with
    | none => k < cnt ∧ as.countP (!·.interrupted) < cnt
    | some r => r = toSsize origCnt ∧ k = cnt ∨ r = -1 ∧ k < cnt ∧ FailsLast run.2

namespace WriteContract

variable {origCnt : UInt64} {offset cnt : Nat} {as : List (Answer Nat)}

theorem done : WriteContract origCnt offset 0 as (some (toSsize origCnt), []) :=
  ⟨0, le_rfl, rfl, .inl ⟨rfl, rfl⟩⟩

theorem nil (h : 0 < cnt) : WriteContract origCnt offset cnt [] (none, []) :=
  ⟨0, Nat.zero_le _, rfl, h, h⟩

theorem fail {e : Nat} (he : e ≠ eintr) (h : 0 < cnt) (count : Nat) :
    WriteContract origCnt offset cnt (.fail e :: as) (some (-1), [⟨offset, count, .fail e⟩]) :=
  ⟨0, Nat.zero_le _, rfl, .inr ⟨rfl, h, failsLast_singleton he _ _⟩⟩

theorem interrupted {run : Option Int × List (Call Nat)} (count : Nat)
    (hw : WriteContract origCnt offset cnt as run) :
    WriteContract origCnt offset cnt (.fail eintr :: as)
      (Prod.map id (⟨offset, count, .fail eintr⟩ :: ·) run) := by
  obtain ⟨r, calls⟩ := run
  obtain ⟨k, hk, hs, hr⟩ := hw
  refine ⟨k, hk, by simpa [sent] using hs, ?_⟩
  cases r with
  | none => simpa [Answer.interrupted] using hr
  | some r => exact hr.imp id fun h ↦ ⟨h.1, h.2.1, h.2.2.cons _⟩

theorem moved {run : Option Int × List (Call Nat)} {n : Nat} (h1 : 1 ≤ n) (hn : n ≤ cnt)
    (count : Nat) (hw : WriteContract origCnt (offset + n) (cnt - n) as run) :
    WriteContract origCnt offset cnt (.moved n :: as)
      (Prod.map id (⟨offset, count, .moved n⟩ :: ·) run) := by
  obtain ⟨r, calls⟩ := run
  obtain ⟨k, hk, hs, hr⟩ := hw
  refine ⟨n + k, by omega, ?_, ?_⟩
  · have hsplit := List.range'_append offset n k 1
    rw [Nat.one_mul, Nat.add_comm k] at hsplit
    simp only [sent, Prod.map_snd, List.flatMap_cons] at hs ⊢
    rw [hs, hsplit]
  · cases r with
    | none =>
      simp only [Prod.map, id, List.countP_cons, Answer.interrupted_moved, Bool.not_false,
        if_true]
      omega
    | some r =>
      rcases hr with ⟨hr, hk'⟩ | ⟨hr, hk', hf⟩
      · exact .inl ⟨hr, by omega⟩
      · exact .inr ⟨hr, by omega, hf.cons _⟩

end WriteContract

section WriteRun

variable (origCnt : UInt64)

theorem writeLoop_contract_of_not_pos (errno offset : Nat) {cnt : UInt64} (as : List (Answer Nat))
    (h : ¬ 0 < cnt) :
    WriteContract origCnt offset cnt.toNat as (writeLoop origCnt errno offset cnt as) := by
  rw [writeLoop_done _ _ _ _ h, show cnt.toNat = 0 from Nat.eq_zero_of_not_pos h]
  exact .done

/-- Every run of the loop keeps its contract, when every answer fits. -/
theorem writeLoop_contract (as : List (Answer Nat)) (errno offset : Nat) (cnt : UInt64)
    (hv : ∀ c ∈ (writeLoop origCnt errno offset cnt as).2, c.Fits id 1 ∧ c.FitsInt id) :
    WriteContract origCnt offset cnt.toNat as (writeLoop origCnt errno offset cnt as) := by
  induction as generalizing errno offset cnt with
  | nil =>
    by_cases h : 0 < cnt
    · rw [writeLoop_nil _ _ _ h]; exact .nil h
    · exact writeLoop_contract_of_not_pos _ _ _ _ h
  | cons a as ih =>
    by_cases h : 0 < cnt
    swap; · exact writeLoop_contract_of_not_pos _ _ _ _ h
    have hfirst := hv _ (writeLoop_first _ _ _ _ h)
    cases a with
    | fail e =>
      by_cases he : e = eintr
      · subst he
        rw [writeLoop_interrupted _ _ _ _ h] at hv ⊢
        exact (ih _ _ _ fun c hc ↦ hv c (List.mem_cons_of_mem _ hc)).interrupted _
      · rw [writeLoop_fail _ _ _ _ h he]; exact .fail he h _
    | moved n =>
      obtain ⟨⟨h1, hn⟩, hint⟩ := hfirst
      change 1 ≤ n at h1; change n ≤ cnt.toNat at hn; change n < 2 ^ 31 at hint
      rw [writeLoop_moved _ _ _ _ h hint] at hv ⊢
      have ht := ih _ _ _ fun c hc ↦ hv c (List.mem_cons_of_mem _ hc)
      rw [uint64_sub_toNat hn] at ht
      exact ht.moved h1 hn _

end WriteRun

/-! ## `read_whole`, call by call -/

section ReadSteps

variable {α : Type} (cnt : UInt64) (errno offset : Nat) {readcnt : UInt64}
  (as : List (Answer (List α)))

theorem readLoop_done (h : ¬ readcnt < cnt) :
    readLoop cnt errno offset readcnt as = (some (toSsize readcnt), []) := by
  unfold readLoop
  rw [if_neg h]

theorem readLoop_nil (h : readcnt < cnt) :
    readLoop cnt errno offset readcnt ([] : List (Answer (List α))) = (none, []) := by
  rw [readLoop, if_pos h]

theorem readLoop_interrupted (h : readcnt < cnt) :
    readLoop cnt errno offset readcnt (.fail eintr :: as) =
      Prod.map id (⟨offset, (cnt - readcnt).toNat, .fail eintr⟩ :: ·)
        (readLoop cnt eintr offset readcnt as) := by
  rw [readLoop, if_pos h]
  simp only [Answer.ret, Answer.errnoAfter, toInt32_neg_one, retryIntr]
  rfl

theorem readLoop_fail {e : Nat} (h : readcnt < cnt) (he : e ≠ eintr) :
    readLoop cnt errno offset readcnt (.fail e :: as) =
      (some (-1), [⟨offset, (cnt - readcnt).toNat, .fail e⟩]) := by
  rw [readLoop, if_pos h]
  simp [Answer.ret, Answer.errnoAfter, toInt32_neg_one, retryIntr, he]

theorem readLoop_eof (h : readcnt < cnt) :
    readLoop cnt errno offset readcnt (.moved [] :: as) =
      (some (toSsize readcnt), [⟨offset, (cnt - readcnt).toNat, .moved []⟩]) := by
  rw [readLoop, if_pos h]
  simp [Answer.ret, Answer.errnoAfter, retryIntr, show toInt32 0 = 0 from rfl]

theorem readLoop_moved {l : List α} (h : readcnt < cnt) (hl : l ≠ []) (hn : l.length < 2 ^ 31) :
    readLoop cnt errno offset readcnt (.moved l :: as) =
      Prod.map id (⟨offset, (cnt - readcnt).toNat, .moved l⟩ :: ·)
        (readLoop cnt errno (offset + l.length) (readcnt + .ofNat l.length) as) := by
  have hpos : ¬ (l.length : Int) < 0 := by omega
  have hne : ¬ (l.length : Int) = 0 := by simpa using hl
  rw [readLoop, if_pos h]
  simp [Answer.ret, Answer.errnoAfter, toInt32_count hn, retryIntr, hpos, hne]

theorem readLoop_first {a : Answer (List α)} (h : readcnt < cnt) :
    ⟨offset, (cnt - readcnt).toNat, a⟩ ∈ (readLoop cnt errno offset readcnt (a :: as)).2 := by
  rw [readLoop, if_pos h]
  dsimp only
  split_ifs <;> simp

end ReadSteps

section Place

variable {α : Type}

@[simp] theorem place_nil (offset : Nat) (mem : Nat → α) : place offset [] mem = mem := by
  funext i
  simp [place]

theorem place_append (offset : Nat) (l₁ l₂ : List α) (mem : Nat → α) :
    place (offset + l₁.length) l₂ (place offset l₁ mem) =
      place offset (l₁ ++ l₂) mem := by
  funext i
  simp only [place]
  by_cases h₁ : offset ≤ i
  · by_cases h₂ : offset + l₁.length ≤ i
    · have hnone : l₁[i - offset]? = none := List.getElem?_eq_none (by omega)
      simp only [if_pos h₁, if_pos h₂, hnone, Option.getD_none]
      rw [List.getElem?_append_right (by omega), Nat.sub_sub]
    · simp only [if_pos h₁, if_neg h₂]
      rw [List.getElem?_append_left (by omega)]
  · simp only [if_neg h₁, if_neg (show ¬ offset + l₁.length ≤ i by omega)]

@[simp] theorem Call.chunk_fail (offset count e : Nat) :
    (⟨offset, count, .fail e⟩ : Call (List α)).chunk = [] := rfl

@[simp] theorem Call.chunk_moved (offset count : Nat) (l : List α) :
    (⟨offset, count, .moved l⟩ : Call (List α)).chunk = l := rfl

end Place

theorem eq_append_cons_of_cons {γ : Type} {x c : γ} {xs pre post : List γ}
    (h : x :: xs = pre ++ c :: post) :
    pre = [] ∧ c = x ∨ ∃ pre', pre = x :: pre' ∧ xs = pre' ++ c :: post := by
  cases pre with
  | nil => exact .inl ⟨rfl, (List.cons.inj h).1.symm⟩
  | cons d pre =>
    obtain ⟨hd, ht⟩ := List.cons.inj h
    exact .inr ⟨pre, hd ▸ rfl, ht⟩

/-- The contract of the loop from `buf + offset`, with `offset` bytes of `cnt` read: every call
is at `buf` advanced by what the calls before it read and asks for the rest of the buffer; the
chunks read are stored one after another from `buf + offset` on and reach no further than
`cnt`; it returns `cnt` once the buffer is full, what it has read at an end of file, or `-1`
after a failure other than `EINTR`; and it runs out of answers only while the buffer is not full
and fewer than `cnt - offset` of them are not `EINTR`. -/
def ReadContract {α : Type} (cnt offset : Nat) (as : List (Answer (List α)))
    (run : Option Int × List (Call (List α))) : Prop :=
  (∀ pre c post, run.2 = pre ++ c :: post →
    c.offset = offset + (reads pre).length ∧ c.offset + c.count = cnt) ∧
  offset + (reads run.2).length ≤ cnt ∧
  (∀ mem, run.2.foldl (fun m c ↦ c.store m) mem = place offset (reads run.2) mem) ∧
  match run.1 with
  | none => offset + (reads run.2).length < cnt ∧ as.countP (!·.interrupted) < cnt - offset
  | some r =>
    r = cnt ∧ offset + (reads run.2).length = cnt ∨
    offset + (reads run.2).length < cnt ∧
      (r = ↑(offset + (reads run.2).length) ∧ lastAnswer run.2 = some (.moved []) ∨
        r = -1 ∧ FailsLast run.2)

namespace ReadContract

variable {α : Type} {cnt offset : Nat} {as : List (Answer (List α))}

/-- The one call of a run that ends at its first answer is at `buf + offset` and asks for the
rest. -/
theorem singleton_calls {c x : Call (List α)} {pre post : List (Call (List α))}
    (hx : x.offset = offset) (hc : x.count = cnt - offset) (h : offset < cnt)
    (he : [x] = pre ++ c :: post) :
    c.offset = offset + (reads pre).length ∧ c.offset + c.count = cnt := by
  rcases eq_append_cons_of_cons he with ⟨rfl, rfl⟩ | ⟨pre', -, hpost⟩
  · simp only [reads, List.flatMap_nil, List.length_nil]; omega
  · simp at hpost

theorem done : ReadContract cnt cnt as (some (cnt : Int), []) :=
  ⟨by simp, by simp [reads], by simp [reads], .inl ⟨rfl, by simp [reads]⟩⟩

theorem nil (h : offset < cnt) :
    ReadContract cnt offset ([] : List (Answer (List α))) (none, []) :=
  ⟨by simp, by simp [reads]; omega, by simp [reads], by simp [reads]; omega⟩

theorem fail {e : Nat} (he : e ≠ eintr) (h : offset < cnt) :
    ReadContract cnt offset (.fail e :: as) (some (-1), [⟨offset, cnt - offset, .fail e⟩]) :=
  ⟨fun _ _ _ ↦ singleton_calls rfl rfl h, by simp [reads]; omega, by simp [reads, Call.store],
    .inr ⟨by simp [reads]; omega, .inr ⟨rfl, failsLast_singleton he _ _⟩⟩⟩

theorem eof (h : offset < cnt) :
    ReadContract cnt offset (.moved [] :: as)
      (some (offset : Int), [⟨offset, cnt - offset, .moved []⟩]) :=
  ⟨fun _ _ _ ↦ singleton_calls rfl rfl h, by simp [reads]; omega, by simp [reads, Call.store],
    .inr ⟨by simp [reads]; omega, .inl ⟨by simp [reads], rfl⟩⟩⟩

theorem interrupted {run : Option Int × List (Call (List α))}
    (hw : ReadContract cnt offset as run) :
    ReadContract cnt offset (.fail eintr :: as)
      (Prod.map id (⟨offset, cnt - offset, .fail eintr⟩ :: ·) run) := by
  obtain ⟨r, calls⟩ := run
  obtain ⟨hreq, hlen, hmem, hr⟩ := hw
  dsimp only at hreq hlen hmem hr
  have hr' (pre : List (Call (List α))) :
      reads (⟨offset, cnt - offset, .fail eintr⟩ :: pre) = reads pre := by
    simp [reads]
  refine ⟨fun pre c post he ↦ ?_, by simpa [hr'] using hlen, fun mem ↦ ?_, ?_⟩
  · rcases eq_append_cons_of_cons he with ⟨rfl, rfl⟩ | ⟨pre', rfl, hpre⟩
    · simp only [reads, List.flatMap_nil, List.length_nil]; omega
    · rw [hr']; exact hreq _ _ _ hpre
  · simpa [hr', Call.store] using hmem mem
  · cases r with
    | none => simpa [hr'] using hr
    | some r =>
      simp only [Prod.map, id, hr'] at hr ⊢
      exact hr.imp id fun h ↦ ⟨h.1, h.2.imp (fun h ↦ ⟨h.1, lastAnswer_cons _ h.2⟩)
        fun h ↦ ⟨h.1, h.2.cons _⟩⟩

theorem moved {run : Option Int × List (Call (List α))} {l : List α} (hl : l ≠ [])
    (hw : ReadContract cnt (offset + l.length) as run) :
    ReadContract cnt offset (.moved l :: as)
      (Prod.map id (⟨offset, cnt - offset, .moved l⟩ :: ·) run) := by
  obtain ⟨r, calls⟩ := run
  obtain ⟨hreq, hlen, hmem, hr⟩ := hw
  dsimp only at hreq hlen hmem hr
  have hr' (pre : List (Call (List α))) :
      reads (⟨offset, cnt - offset, .moved l⟩ :: pre) = l ++ reads pre := by
    simp [reads]
  have hpos : 0 < l.length := List.length_pos.mpr hl
  refine ⟨fun pre c post he ↦ ?_, by simp only [Prod.map_snd, hr', List.length_append]; omega,
    fun mem ↦ ?_, ?_⟩
  · rcases eq_append_cons_of_cons he with ⟨rfl, rfl⟩ | ⟨pre', rfl, hpre⟩
    · simp only [reads, List.flatMap_nil, List.length_nil]; omega
    · rw [hr', List.length_append, ← Nat.add_assoc]; exact hreq _ _ _ hpre
  · simp only [Prod.map_snd, List.foldl_cons, hr']
    rw [hmem, ← place_append]
    rfl
  · cases r with
    | none =>
      simp only [Prod.map, id, hr', List.length_append, List.countP_cons,
        Answer.interrupted_moved, Bool.not_false, if_true] at hr ⊢
      omega
    | some r =>
      simp only [Prod.map, id, hr', List.length_append] at hr ⊢
      rcases hr with ⟨hr, hc⟩ | ⟨hc, h | h⟩
      · exact .inl ⟨hr, by omega⟩
      · exact .inr ⟨by omega, .inl ⟨by rw [h.1]; push_cast; ring, lastAnswer_cons _ h.2⟩⟩
      · exact .inr ⟨by omega, .inr ⟨h.1, h.2.cons _⟩⟩

end ReadContract

section ReadRun

variable {α : Type} (cnt : UInt64)

variable (hcnt : cnt.toNat < 2 ^ 63)
include hcnt

theorem toSsize_readcnt {readcnt : UInt64} {offset : Nat} (hoff : readcnt.toNat = offset)
    (hle : offset ≤ cnt.toNat) : toSsize readcnt = offset := by
  rw [toSsize_of_lt (by omega), hoff]

theorem readLoop_contract_of_not_lt (as : List (Answer (List α))) (errno offset : Nat)
    {readcnt : UInt64} (hoff : readcnt.toNat = offset) (hle : offset ≤ cnt.toNat)
    (h : ¬ readcnt < cnt) :
    ReadContract cnt.toNat offset as (readLoop cnt errno offset readcnt as) := by
  have he : offset = cnt.toNat := by have : ¬ readcnt.toNat < cnt.toNat := h; omega
  rw [readLoop_done _ _ _ _ h, toSsize_readcnt cnt hcnt hoff hle, he]
  exact .done

/-- Every run of the loop keeps its contract, when every answer fits and `cnt` fits an
`ssize_t`. -/
theorem readLoop_contract (as : List (Answer (List α))) (errno offset : Nat) (readcnt : UInt64)
    (hoff : readcnt.toNat = offset) (hle : offset ≤ cnt.toNat)
    (hv : ∀ c ∈ (readLoop cnt errno offset readcnt as).2,
      c.Fits List.length 0 ∧ c.FitsInt List.length) :
    ReadContract cnt.toNat offset as (readLoop cnt errno offset readcnt as) := by
  induction as generalizing errno offset readcnt with
  | nil =>
    by_cases h : readcnt < cnt
    · rw [readLoop_nil _ _ _ h]; exact .nil (hoff ▸ h)
    · exact readLoop_contract_of_not_lt cnt hcnt _ _ _ hoff hle h
  | cons a as ih =>
    by_cases h : readcnt < cnt
    swap; · exact readLoop_contract_of_not_lt cnt hcnt _ _ _ hoff hle h
    have hlt : offset < cnt.toNat := hoff ▸ h
    have hcount : (cnt - readcnt).toNat = cnt.toNat - offset := by
      rw [UInt64.toNat_sub_of_le _ _ (by exact Nat.le_of_lt h), hoff]
    have hfirst := hv _ (readLoop_first _ _ _ _ h)
    have htail {x : Call (List α)} {run : Option Int × List (Call (List α))}
        (hx : ∀ c ∈ (Prod.map id (x :: ·) run).2,
          c.Fits List.length 0 ∧ c.FitsInt List.length) :
        ∀ c ∈ run.2, c.Fits List.length 0 ∧ c.FitsInt List.length :=
      fun c hc ↦ hx c (List.mem_cons_of_mem _ hc)
    cases a with
    | fail e =>
      by_cases he : e = eintr
      · subst he
        rw [readLoop_interrupted _ _ _ _ h] at hv ⊢
        rw [hcount]
        exact (ih _ _ _ hoff hle (htail hv)).interrupted
      · rw [readLoop_fail _ _ _ _ h he, hcount]; exact .fail he hlt
    | moved l =>
      obtain ⟨⟨-, hn⟩, hint⟩ := hfirst
      change l.length ≤ (cnt - readcnt).toNat at hn
      change l.length < 2 ^ 31 at hint
      by_cases hl : l = []
      · subst hl
        rw [readLoop_eof _ _ _ _ h, toSsize_readcnt cnt hcnt hoff hle, hcount]
        exact .eof hlt
      rw [readLoop_moved _ _ _ _ h hl hint] at hv ⊢
      rw [hcount]
      have hoff' : (readcnt + .ofNat l.length).toNat = offset + l.length :=
        by rw [uint64_add_toNat (by omega), hoff]
      exact (ih _ _ _ hoff' (by omega) (htail hv)).moved hl

end ReadRun

/-! ## The loops, whole -/

/-- **Framed I/O.** With `cnt` an `ssize_t` and every answer of the kernel below `2 ^ 31` bytes,
over every sequence of answers: `write_whole` returns once `cnt` of them are not `EINTR`; it
returns `cnt` exactly when its writes sent `buf[0, cnt)`, each byte once and in order, and `-1`
after a failure otherwise. Every call of `read_whole` is at `buf` advanced by what it has read and
asks for the rest; the buffer holds the chunks read one after another and what it held before
past them, at most `cnt` bytes; it returns once `cnt` answers are not `EINTR`, with `cnt` when it
filled the buffer, with what it read at an end of file, and with `-1` after a failure. -/
theorem framed_io_loops (errno : Nat) (cnt : UInt64) (hcnt : cnt.toNat < 2 ^ 63) :
    (∀ as : List (Answer Nat), let w := writeWhole errno cnt as;
      (∀ c ∈ w.2, c.Fits id 1 ∧ c.FitsInt id) →
      (cnt.toNat ≤ as.countP (!·.interrupted) → w.1.isSome) ∧
      ∀ r, w.1 = some r →
        (r = cnt.toNat ↔ sent w.2 = List.range cnt.toNat) ∧
        (r ≠ cnt.toNat → r = -1 ∧ FailsLast w.2)) ∧
    ∀ (α : Type) (as : List (Answer (List α))), let w := readWhole errno cnt as;
      (∀ c ∈ w.2, c.Fits List.length 0 ∧ c.FitsInt List.length) →
      (∀ pre c post, w.2 = pre ++ c :: post →
        c.offset = (reads pre).length ∧ c.count = cnt.toNat - c.offset) ∧
      (∀ mem i, w.2.foldl (fun m c ↦ c.store m) mem i = (reads w.2)[i]?.getD (mem i)) ∧
      (reads w.2).length ≤ cnt.toNat ∧
      (cnt.toNat ≤ as.countP (!·.interrupted) → w.1.isSome) ∧
      ∀ r, w.1 = some r →
        r = cnt.toNat ∧ (reads w.2).length = cnt.toNat ∨
        (reads w.2).length < cnt.toNat ∧
          (r = (reads w.2).length ∧ lastAnswer w.2 = some (.moved []) ∨
            r = -1 ∧ FailsLast w.2) := by
  refine ⟨fun as hv ↦ ?_, fun α as hv ↦ ?_⟩
  · have hc := writeLoop_contract cnt as errno 0 cnt hv
    unfold writeWhole
    generalize writeLoop cnt errno 0 cnt as = run at hc
    obtain ⟨k, hk, hs, hr⟩ := hc
    obtain ⟨_ | r, calls⟩ := run
    · exact ⟨fun h ↦ absurd h (by have := hr.2; omega), fun r h ↦ by cases h⟩
    refine ⟨fun _ ↦ rfl, fun r' h ↦ ?_⟩
    cases h
    dsimp only at hs hr
    rw [hs, List.range_eq_range']
    rcases hr with ⟨hr, hk'⟩ | ⟨hr, hk', hf⟩
    · rw [hr, toSsize_of_lt hcnt, hk']; exact ⟨iff_of_true rfl rfl, fun h ↦ absurd rfl h⟩
    · refine ⟨iff_of_false (by omega) fun h ↦ ?_, fun _ ↦ ⟨hr, hf⟩⟩
      have := congrArg List.length h
      simp only [List.length_range'] at this
      omega
  · obtain ⟨hreq, hlen, hmem, hr⟩ :=
      readLoop_contract cnt hcnt as errno 0 0 rfl (Nat.zero_le _) hv
    unfold readWhole
    generalize readLoop cnt errno 0 0 as = run at hreq hlen hmem hr
    obtain ⟨_ | r, calls⟩ := run <;> dsimp only at hreq hlen hmem hr ⊢ <;>
      simp only [Nat.zero_add] at hreq hlen hr
    all_goals refine ⟨fun pre c post h ↦ ?_, fun mem i ↦ by simp [hmem, place], hlen, ?_⟩
    any_goals have := hreq pre c post h; omega
    · exact ⟨fun h ↦ absurd h (by omega), fun r h ↦ by cases h⟩
    · refine ⟨fun _ ↦ rfl, fun r' h ↦ ?_⟩
      cases h
      exact hr

theorem framed_io_loops_three :
    sent (writeWhole 0 3 [.moved 1, .fail eintr, .moved 2]).2 = List.range 3 ∧
      (readWhole 0 3 [.moved [7], .fail eintr, .moved ([] : List Nat)]).1 = some 1 ∧
      (reads (readWhole 0 3 [.moved [7], .fail eintr, .moved ([] : List Nat)]).2).length < 3 :=
  ⟨(((framed_io_loops 0 3 (by decide)).1 _ (by decide)).2 3 (by decide)).1.mp (by decide),
    by decide,
    (((framed_io_loops 0 3 (by decide)).2 Nat _ (by decide)).2.2.2.2 1 (by decide)).resolve_left
      (by decide) |>.1⟩

/-- A frame is taken (`nvshare_receive_block` returns its size) exactly when all its bytes were
read, and the buffer then holds them; a frame cut short by an end of file or a failure returns
something else, on which every caller ends the process. -/
theorem nvshareReceiveBlock_frame (errno : Nat) (count : UInt64) (hcount : count.toNat < 2 ^ 31)
    (as : List (Answer (List UInt8)))
    (hv : ∀ c ∈ (nvshareReceiveBlock errno count as).2,
      c.Fits List.length 0 ∧ c.FitsInt List.length) :
    ((nvshareReceiveBlock errno count as).1 = some (count.toNat : Int) ↔
      (reads (nvshareReceiveBlock errno count as).2).length = count.toNat) ∧
    ∀ mem, ∀ i < count.toNat,
      (nvshareReceiveBlock errno count as).2.foldl (fun m c ↦ c.store m)
        (memsetZero count.toNat mem) i =
        (reads (nvshareReceiveBlock errno count as).2)[i]?.getD 0 := by
  obtain ⟨-, -, hmem, hr⟩ :=
    readLoop_contract count (by omega) as errno 0 0 rfl (Nat.zero_le _) hv
  unfold nvshareReceiveBlock readWhole
  generalize readLoop count errno 0 0 as = run at hmem hr
  obtain ⟨_ | r, calls⟩ := run <;> dsimp only [Prod.map, id] at hmem hr ⊢
  · refine ⟨iff_of_false (by simp) (by omega), fun mem i hi ↦ ?_⟩
    simp [hmem, place, memsetZero, hi]
  refine ⟨?_, fun mem i hi ↦ by simp [hmem, place, memsetZero, hi]⟩
  simp only [Nat.zero_add, Option.map_some', Option.some.injEq] at hr ⊢
  rcases hr with ⟨rfl, hc⟩ | ⟨hc, ⟨rfl, -⟩ | ⟨rfl, -⟩⟩
  · rw [toInt32_count hcount]; exact iff_of_true rfl hc
  · rw [toInt32_count (by omega)]; exact iff_of_false (by omega) (by omega)
  · rw [toInt32_neg_one]; exact iff_of_false (by omega) (by omega)

theorem nvshareReceiveBlock_frame_whole :
    ((nvshareReceiveBlock 0 3 [.moved [1, 2, 3]]).1 = some ((3 : UInt64).toNat : Int) ↔
      (reads (nvshareReceiveBlock 0 3 [.moved [1, 2, 3]]).2).length = (3 : UInt64).toNat) :=
  (nvshareReceiveBlock_frame 0 3 (by decide) _ (by decide)).1

end Nvshare
