import Mathlib.Algebra.Group.Int
import Mathlib.Order.Basic

/-!
# Timing a `cuCtxSynchronize`

Two places of this program time a `cuCtxSynchronize`: they read `CLOCK_MONOTONIC` before and
after it and subtract the two readings with `timespecsub` of `common.h`. `cuLaunchKernel`
(`hook.c`, `Nvshare.Hook.Launch`) sizes its window of pending kernels by the seconds of the
difference; the fallback idle test of `release_early_fn` (`client.c`) turns it into milliseconds
in an `unsigned int` and calls the client busy from 100 ms on.

## Results

* `timespecsub_toNs`: on two times as `clock_gettime` returns them, `timespecsub` returns a time of
  the same form, and it is the difference of the two, to the nanosecond.
* `timespecsub_sec_le`: its seconds reach a bound exactly when the difference does, so the
  thresholds of `hook.c`, stated in seconds, compare the real duration.
* `releaseEarlyBusy_iff`: the fallback idle test calls the client busy exactly when the sync took at
  least 100 ms, for every sync shorter than `2 ^ 32` ms (about 49.7 days); the
  `unsigned int` wraps after that.

`time_t` and `long` are 64 bits wide on LP64; the differences of two monotonic readings do not
overflow them, so both are `Int` here.
-/

namespace Nvshare

/-- `struct timespec`: `tv_sec` and `tv_nsec`. -/
structure Timespec where
  sec : Int
  nsec : Int
  deriving DecidableEq, Repr

/-- A time as `clock_gettime` returns it: `0 ≤ tv_nsec < 10⁹`. -/
def Timespec.Normal (t : Timespec) : Prop := 0 ≤ t.nsec ∧ t.nsec < 1000000000

instance : DecidablePred Timespec.Normal :=
  fun t ↦ inferInstanceAs (Decidable (0 ≤ t.nsec ∧ t.nsec < 1000000000))

/-- The time in nanoseconds. -/
def Timespec.toNs (t : Timespec) : Int := t.sec * 1000000000 + t.nsec

/-- `timespecsub (tsp, usp, vsp)`: `*vsp = *tsp - *usp`, borrowing one second when the
nanoseconds go below zero. -/
def timespecsub (t u : Timespec) : Timespec :=
  if t.nsec - u.nsec < 0 then ⟨t.sec - u.sec - 1, t.nsec - u.nsec + 1000000000⟩
  else ⟨t.sec - u.sec, t.nsec - u.nsec⟩

/-- `timespecsub` of two times as `clock_gettime` returns them is of that form too, and is their
difference. -/
theorem timespecsub_toNs {t u : Timespec} (ht : t.Normal) (hu : u.Normal) :
    (timespecsub t u).Normal ∧ (timespecsub t u).toNs = t.toNs - u.toNs := by
  unfold Timespec.Normal at ht hu
  unfold timespecsub Timespec.Normal Timespec.toNs
  split_ifs <;> refine ⟨⟨?_, ?_⟩, ?_⟩ <;> dsimp only <;> omega

theorem timespecsub_toNs_borrow :
    (⟨5, 100⟩ : Timespec).Normal ∧ (⟨3, 999999999⟩ : Timespec).Normal ∧
      (timespecsub ⟨5, 100⟩ ⟨3, 999999999⟩).Normal ∧
      (timespecsub ⟨5, 100⟩ ⟨3, 999999999⟩).toNs = (⟨5, 100⟩ : Timespec).toNs -
        (⟨3, 999999999⟩ : Timespec).toNs := by
  have ht : (⟨5, 100⟩ : Timespec).Normal := by decide
  have hu : (⟨3, 999999999⟩ : Timespec).Normal := by decide
  exact ⟨ht, hu, timespecsub_toNs ht hu⟩

/-- The seconds of a normal time reach `n` exactly when the time reaches `n` seconds. -/
theorem Timespec.le_sec_iff {d : Timespec} (hd : d.Normal) (n : Int) :
    n ≤ d.sec ↔ n * 1000000000 ≤ d.toNs := by
  unfold Timespec.Normal at hd
  unfold Timespec.toNs
  omega

/-- The seconds of `timespecsub` reach a bound exactly when the difference does. -/
theorem timespecsub_sec_le {t u : Timespec} (ht : t.Normal) (hu : u.Normal) (n : Int) :
    n ≤ (timespecsub t u).sec ↔ n * 1000000000 ≤ t.toNs - u.toNs := by
  obtain ⟨hn, hns⟩ := timespecsub_toNs ht hu
  rw [Timespec.le_sec_iff hn, hns]

/-! ## The fallback idle test of `release_early_fn` -/

/-- `elapsed_ms = ((unsigned int) tv_sec * 1000) + (tv_nsec / 1000000)`: the product is taken in
`unsigned int`, the sum in `long`, and the result stored in an `unsigned int`. -/
def elapsedMs (d : Timespec) : Int :=
  (d.sec % 2 ^ 32 * 1000 % 2 ^ 32 + d.nsec.tdiv 1000000) % 2 ^ 32

/-- The fallback test of `release_early_fn` after it timed `cuda_sync_context` from `start` to
`complete`: busy when `elapsed_ms >= 100`. -/
def releaseEarlyBusy (start complete : Timespec) : Bool :=
  decide (100 ≤ elapsedMs (timespecsub complete start))

/-- Below `2 ^ 32` ms the conversion is exact: the whole milliseconds of the duration. -/
theorem elapsedMs_eq {d : Timespec} (hd : d.Normal) (h0 : 0 ≤ d.toNs)
    (hlt : d.toNs < 2 ^ 32 * 1000000) : elapsedMs d = d.toNs / 1000000 := by
  unfold Timespec.Normal at hd
  unfold Timespec.toNs at h0 hlt ⊢
  unfold elapsedMs
  rw [Int.tdiv_eq_ediv hd.1 (by decide)]
  omega

/-- **The fallback idle test compares the sync with 100 ms.** For two readings of the monotonic
clock less than `2 ^ 32` ms apart, `release_early_fn` calls the client busy exactly when the sync
took at least 100 ms. -/
theorem releaseEarlyBusy_iff {start complete : Timespec} (hs : start.Normal)
    (hc : complete.Normal) (hle : start.toNs ≤ complete.toNs)
    (hlt : complete.toNs - start.toNs < 2 ^ 32 * 1000000) :
    releaseEarlyBusy start complete = true ↔ 100000000 ≤ complete.toNs - start.toNs := by
  obtain ⟨hn, hns⟩ := timespecsub_toNs hc hs
  rw [releaseEarlyBusy, decide_eq_true_iff, elapsedMs_eq hn (by omega) (by omega), hns]
  omega

theorem releaseEarlyBusy_iff_150ms :
    (⟨7, 0⟩ : Timespec).Normal ∧ (⟨7, 150000000⟩ : Timespec).Normal ∧
      (⟨7, 0⟩ : Timespec).toNs ≤ (⟨7, 150000000⟩ : Timespec).toNs ∧
      (⟨7, 150000000⟩ : Timespec).toNs - (⟨7, 0⟩ : Timespec).toNs < 2 ^ 32 * 1000000 ∧
      (releaseEarlyBusy ⟨7, 0⟩ ⟨7, 150000000⟩ = true ↔
        100000000 ≤ (⟨7, 150000000⟩ : Timespec).toNs - (⟨7, 0⟩ : Timespec).toNs) := by
  have hs : (⟨7, 0⟩ : Timespec).Normal := by decide
  have hc : (⟨7, 150000000⟩ : Timespec).Normal := by decide
  have hle : (⟨7, 0⟩ : Timespec).toNs ≤ (⟨7, 150000000⟩ : Timespec).toNs := by decide
  have hlt :
      (⟨7, 150000000⟩ : Timespec).toNs - (⟨7, 0⟩ : Timespec).toNs < 2 ^ 32 * 1000000 := by
    decide
  exact ⟨hs, hc, hle, hlt, releaseEarlyBusy_iff hs hc hle hlt⟩

end Nvshare
