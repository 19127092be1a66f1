import Mathlib.Algebra.Order.Ring.Nat
import TableClient.Proofs.Duration
import TableClient.Scan.Budget

/-!
# The sleep after throttled answers

The sleep doubles with each throttled answer in a row, up to a bound. Three things are cut on the
way: the factor to the largest word of 32 bits, the product to the longest duration, and the sleep
to the bound. The second cut never shows, as the bound is a duration itself. The first one shows from
the thirty-third answer on, unless the bound is reached before.
-/

namespace TableClient
namespace ScanBudget

/-! ## The factor -/

theorem backoffFactor_of_le {n : ℕ} (h : n ≤ 32) : backoffFactor n = 2 ^ (n - 1) :=
  if_pos (by omega)

theorem backoffFactor_of_lt {n : ℕ} (h : 32 < n) : backoffFactor n = 2 ^ 32 - 1 :=
  if_neg (by omega)

theorem lt_two_pow_of_lt {n : ℕ} (h : 32 < n) : 2 ^ 32 - 1 < 2 ^ (n - 1) :=
  (by decide : 2 ^ 32 - 1 < 2 ^ 32).trans_le
    (Nat.pow_le_pow_right (by decide) (Nat.le_sub_one_of_lt h))

theorem backoffFactor_eq_min (n : ℕ) : backoffFactor n = min (2 ^ (n - 1)) (2 ^ 32 - 1) := by
  by_cases hn : n ≤ 32
  · have hle : 2 ^ (n - 1) ≤ 2 ^ 31 :=
      Nat.pow_le_pow_right (by decide) (Nat.sub_le_sub_right hn 1)
    rw [backoffFactor_of_le hn, Nat.min_eq_left (hle.trans (by decide))]
  · have hn := Nat.lt_of_not_le hn
    rw [backoffFactor_of_lt hn, Nat.min_eq_right (lt_two_pow_of_lt hn).le]

theorem backoffFactor_mono : Monotone backoffFactor := by
  intro m n hmn
  simp only [backoffFactor_eq_min]
  exact min_le_min_right _ (Nat.pow_le_pow_right (by decide) (Nat.sub_le_sub_right hmn 1))

/-- Twice a word, the largest word if there is none. -/
def twice (x : UInt32) : UInt32 :=
  if x.toNat + x.toNat < UInt32.size then x + x else UInt32.ofNat (UInt32.size - 1)

theorem toNat_twice (x : UInt32) : (twice x).toNat = min (2 * x.toNat) (2 ^ 32 - 1) := by
  rw [twice, Nat.two_mul]
  split
  · next hfits =>
    have hle : x.toNat + x.toNat ≤ 2 ^ 32 - 1 := Nat.le_sub_one_of_lt hfits
    rw [UInt32.toNat_add, Nat.mod_eq_of_lt hfits, Nat.min_eq_left hle]
  · next hlarge =>
    have hle : 2 ^ 32 ≤ x.toNat + x.toNat := Nat.not_lt.mp hlarge
    exact (Nat.min_eq_right ((Nat.sub_le _ 1).trans hle)).symm

/-- Once it is the largest word, a word stays so. -/
theorem toNat_iterate_twice (k : ℕ) : (twice^[k] 1).toNat = min (2 ^ k) (2 ^ 32 - 1) := by
  induction k with
  | zero => rfl
  | succ k ih =>
    rw [Function.iterate_succ_apply', toNat_twice, ih, Nat.pow_succ]
    omega

/-- The factor in words. -/
def factorInWords (attempt : UInt32) : UInt32 :=
  let doublings := if 1 ≤ attempt then attempt - 1 else 0
  twice^[doublings.toNat] 1

theorem toNat_factorInWords (attempt : UInt32) :
    (factorInWords attempt).toNat = backoffFactor attempt.toNat := by
  rw [factorInWords, toNat_iterate_twice, backoffFactor_eq_min]
  split
  · next hone => rw [UInt32.toNat_sub_of_le _ _ hone]; rfl
  · next hzero =>
    have hzero : attempt.toNat < 1 := Nat.not_le.mp fun h ↦ hzero (UInt32.le_iff_toNat_le.mpr h)
    rw [Nat.sub_eq_zero_of_le hzero.le]
    rfl

/-! ## The sleep -/

theorem nanos_backoff (b : ScanBudget) (n : ℕ) :
    (b.backoff n).nanos = min (b.initialBackoff.nanos * backoffFactor n) b.maxSleep.nanos :=
  Duration.nanos_shorter_times ..

theorem nanos_backoff_mono (b : ScanBudget) : Monotone fun n ↦ (b.backoff n).nanos := by
  intro m n hmn
  simp only [nanos_backoff]
  exact min_le_min_right _ (Nat.mul_le_mul_left _ (backoffFactor_mono hmn))

theorem nanos_backoff_le (b : ScanBudget) (n : ℕ) : (b.backoff n).nanos ≤ b.maxSleep.nanos :=
  (b.nanos_backoff n).trans_le (Nat.min_le_right _ _)

/-- The sleep is the exact one as long as the factor is. After that it is so exactly if it makes no
difference, as the largest factor reaches the bound or nothing is doubled. -/
theorem nanos_backoff_eq_exact_iff (b : ScanBudget) (n : ℕ) :
    (b.backoff n).nanos = min (b.initialBackoff.nanos * 2 ^ (n - 1)) b.maxSleep.nanos ↔
      n ≤ 32 ∨ b.maxSleep.nanos ≤ b.initialBackoff.nanos * (2 ^ 32 - 1) ∨
        b.initialBackoff.nanos = 0 := by
  by_cases hn : n ≤ 32
  · rw [nanos_backoff, backoffFactor_of_le hn]
    exact iff_of_true rfl (.inl hn)
  · -- The exact factor is larger now. Only the bound, or nothing to multiply, can hide that.
    have hcut := lt_two_pow_of_lt (Nat.lt_of_not_le hn)
    rw [nanos_backoff, backoffFactor_of_lt (Nat.lt_of_not_le hn), or_iff_right hn]
    rcases Nat.eq_zero_or_pos b.initialBackoff.nanos with hzero | hpos
    · rw [hzero, Nat.zero_mul, Nat.zero_mul]
      exact iff_of_true rfl (.inr rfl)
    · have hlt := Nat.mul_lt_mul_of_pos_left hcut hpos
      rw [or_iff_left hpos.ne']
      omega

/-- The sleep in words. -/
def backoffInWords (b : ScanBudget) (attempt : UInt32) : Option DurationWords :=
  (b.initialBackoff.words.times (factorInWords attempt)).map (·.shorter b.maxSleep.words)

theorem backoffInWords_eq (b : ScanBudget) (attempt : UInt32) :
    b.backoffInWords attempt = some (b.backoff attempt.toNat).words := by
  rw [backoffInWords, DurationWords.words_times, toNat_factorInWords, Option.map_some,
    DurationWords.words_shorter]
  rfl

end ScanBudget

/-- **The sleep after throttled answers neither wraps nor shrinks.** It is never shorter than the
one before and never longer than the bound. Computed in words, it never needs a longer word than
there is. It is the exact sleep, doubled each time and cut to the bound, for the first thirty-two
throttled answers in a row. After them it is so exactly if the largest factor of 32 bits reaches the
bound, or if there is nothing to double. -/
theorem backoff_neither_wraps_nor_shrinks (b : ScanBudget) (attempt : UInt32) :
    let n := attempt.toNat
    (b.backoff n).nanos ≤ (b.backoff (n + 1)).nanos ∧
      (b.backoff (n + 1)).nanos ≤ b.maxSleep.nanos ∧
      b.backoffInWords attempt = some (b.backoff n).words ∧
      ((b.backoff n).nanos = min (b.initialBackoff.nanos * 2 ^ (n - 1)) b.maxSleep.nanos ↔
        n ≤ 32 ∨ b.maxSleep.nanos ≤ b.initialBackoff.nanos * (2 ^ 32 - 1) ∨
          b.initialBackoff.nanos = 0) := by
  intro n
  exact ⟨b.nanos_backoff_mono n.le_succ, b.nanos_backoff_le (n + 1), b.backoffInWords_eq attempt,
    b.nanos_backoff_eq_exact_iff n⟩

/-- A nanosecond, doubled thirty-two times, is cut to the largest factor. -/
example : (ScanBudget.backoff
    { ScanBudget.ofConfig {} 1 with initialBackoff := .saturated 1 } 33).nanos = 2 ^ 32 - 1 := by
  decide

end TableClient
