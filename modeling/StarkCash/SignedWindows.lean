import Mathlib.Algebra.BigOperators.Intervals
import Mathlib.Algebra.BigOperators.Group.Finset.Piecewise
import Mathlib.Algebra.BigOperators.Ring.Finset
import Mathlib.Algebra.Module.BigOperators
import Mathlib.Algebra.Order.BigOperators.Group.Finset
import Mathlib.Tactic.Abel
import Mathlib.Tactic.Linarith
import Mathlib.Tactic.Ring

namespace SignedWindows

/-!
# Signed windows and their combination

A number cut into windows below `2 * half` is recoded from the lowest window
on: a window that reaches `half` with the carry gives up `2 * half` and
carries one into the next window.  The signed digits that stay, and the carry
that leaves the last window, denote the number.  In a commutative group the
points of a window are gathered in one bucket for each magnitude, the buckets
are weighted by suffix sums, and the windows are combined by Horner's rule.
-/

open Finset

section Digits

variable
    (half : ℕ)
    (window : ℕ → ℕ)

/-- The carry into a window. -/
def carry : ℕ → ℕ
  | 0 => 0
  | index + 1 => if half ≤ window index + carry index then 1 else 0

/-- What stays of a window. -/
def signedDigit (index : ℕ) : ℤ :=
  (window index + carry half window index : ℕ) -
    2 * half * carry half window (index + 1)

/-- A carry is zero or one. -/
theorem carry_le_one
    (index : ℕ) :
    carry half window index ≤ 1 := by
  cases index with
  | zero =>
      exact Nat.zero_le 1
  | succ index =>
      rw [carry]
      split <;> decide

/-- A window that reaches the half gives up twice the half. -/
theorem signedDigit_of_le
    {index : ℕ}
    (reaches : half ≤ window index + carry half window index) :
    signedDigit half window index =
      (window index + carry half window index : ℕ) - 2 * half := by
  rw [signedDigit, carry, if_pos reaches]
  ring

/-- A window below the half stays as it is. -/
theorem signedDigit_of_lt
    {index : ℕ}
    (below : window index + carry half window index < half) :
    signedDigit half window index =
      (window index + carry half window index : ℕ) := by
  rw [signedDigit, carry, if_neg (Nat.not_le.mpr below)]
  ring

variable
    {half window}

/-- Digits lie between minus the half and below the half. -/
theorem signedDigit_bounds
    {index : ℕ}
    (windowFits : window index < 2 * half) :
    -(half : ℤ) ≤ signedDigit half window index ∧
      signedDigit half window index ≤ half - 1 := by
  have carried := carry_le_one half window index
  rcases Nat.lt_or_ge (window index + carry half window index) half with
    below | reaches
  · rw [signedDigit_of_lt half window below]
    omega
  · rw [signedDigit_of_le half window reaches]
    omega

/-- The digits and the last carry denote what the windows denote. -/
theorem sum_signedDigit
    (count : ℕ) :
    (∑ index ∈ range count,
        (2 * half : ℤ) ^ index * signedDigit half window index) +
        (2 * half : ℤ) ^ count * carry half window count =
      ∑ index ∈ range count, (2 * half : ℤ) ^ index * window index := by
  induction count with
  | zero =>
      simp [carry]
  | succ count inductionHypothesis =>
      rw [sum_range_succ, sum_range_succ, ← inductionHypothesis,
        signedDigit]
      push_cast
      ring

/-- The number whose digits are all one, `base - 1` times. -/
theorem sub_one_mul_sum_pow
    (base : ℤ)
    (count : ℕ) :
    (base - 1) * ∑ index ∈ range count, base ^ index = base ^ count - 1 := by
  induction count with
  | zero =>
      simp
  | succ count inductionHypothesis =>
      rw [sum_range_succ, mul_add, inductionHypothesis]
      ring

/--
No carry leaves the last window exactly if the number is at most the one whose
signed digits are all `half - 1`.
-/
theorem carry_eq_zero_iff
    (halfPositive : 0 < half)
    (count : ℕ)
    (windowsFit : ∀ index < count, window index < 2 * half) :
    carry half window count = 0 ↔
      (∑ index ∈ range count, (2 * half : ℤ) ^ index * window index) ≤
        (half - 1) * ∑ index ∈ range count, (2 * half : ℤ) ^ index := by
  have radixNonneg : (0 : ℤ) ≤ 2 * half := by positivity
  have upper :
      (∑ index ∈ range count,
          (2 * half : ℤ) ^ index * signedDigit half window index) ≤
        (half - 1) * ∑ index ∈ range count, (2 * half : ℤ) ^ index := by
    rw [mul_sum]
    refine sum_le_sum fun index member => ?_
    have bounds :=
      signedDigit_bounds (windowsFit index (mem_range.mp member))
    rw [mul_comm ((half : ℤ) - 1)]
    exact mul_le_mul_of_nonneg_left bounds.2 (pow_nonneg radixNonneg index)
  have lower :
      -((half : ℤ) * ∑ index ∈ range count, (2 * half : ℤ) ^ index) ≤
        ∑ index ∈ range count,
          (2 * half : ℤ) ^ index * signedDigit half window index := by
    rw [mul_sum, ← sum_neg_distrib]
    refine sum_le_sum fun index member => ?_
    have bounds :=
      signedDigit_bounds (windowsFit index (mem_range.mp member))
    have scaled :=
      mul_le_mul_of_nonneg_left bounds.1 (pow_nonneg radixNonneg index)
    linarith
  have allOnes := sub_one_mul_sum_pow (2 * half : ℤ) count
  have denoted := @sum_signedDigit half window count
  constructor
  · intro noCarry
    rw [noCarry] at denoted
    simpa [← denoted] using upper
  · intro small
    have carried := carry_le_one half window count
    by_contra carries
    have one : carry half window count = 1 := by omega
    rw [one] at denoted
    push_cast at denoted
    linarith

/-- The windows of a number denote what fits into them. -/
theorem sum_windows
    (radix number count : ℕ) :
    (∑ index ∈ range count, radix ^ index * (number / radix ^ index % radix)) =
      number % radix ^ count := by
  induction count with
  | zero =>
      simp [Nat.mod_one]
  | succ count inductionHypothesis =>
      rw [sum_range_succ, inductionHypothesis, pow_succ, Nat.mod_mul]

end Digits

section Buckets

variable
    {Group : Type}
    [AddCommGroup Group]

/-- What a point with a signed digit adds to a bucket. -/
def share
    (digit : ℤ)
    (point : Group)
    (bucket : ℕ) : Group :=
  if digit = bucket + 1 then
    point
  else if digit = -(bucket + 1) then
    -point
  else
    0

/-- The weighted shares of a point are its multiple by the digit. -/
theorem sum_share
    {half : ℕ}
    {digit : ℤ}
    (lower : -(half : ℤ) ≤ digit)
    (upper : digit ≤ half)
    (point : Group) :
    ∑ bucket ∈ range half, (bucket + 1) • share digit point bucket =
      digit • point := by
  rcases lt_trichotomy digit 0 with negative | zero | positive
  · rw [sum_eq_single (digit.natAbs - 1)]
    · have own : digit = -(((digit.natAbs - 1 : ℕ) : ℤ) + 1) := by omega
      have other : ¬ digit = ((digit.natAbs - 1 : ℕ) : ℤ) + 1 := by omega
      have weight : digit.natAbs - 1 + 1 = digit.natAbs := by omega
      rw [share, if_neg other, if_pos own, weight, ← natCast_zsmul, smul_neg,
        ← neg_smul]
      congr 1
      omega
    · intro bucket _ differs
      rw [share, if_neg (by omega), if_neg (by omega), smul_zero]
    · intro absent
      rw [mem_range] at absent
      omega
  · refine (sum_eq_zero fun bucket _ => ?_).trans (by rw [zero, zero_smul])
    rw [share, if_neg (by omega), if_neg (by omega), smul_zero]
  · rw [sum_eq_single (digit.natAbs - 1)]
    · have own : digit = ((digit.natAbs - 1 : ℕ) : ℤ) + 1 := by omega
      have weight : digit.natAbs - 1 + 1 = digit.natAbs := by omega
      rw [share, if_pos own, weight, ← natCast_zsmul]
      congr 1
      omega
    · intro bucket _ differs
      rw [share, if_neg (by omega), if_neg (by omega), smul_zero]
    · intro absent
      rw [mem_range] at absent
      omega

/-- The sum of the buckets from an index on. -/
def suffixSum
    (bucket : ℕ → Group)
    (first count : ℕ) : Group :=
  ∑ index ∈ Ico first count, bucket index

/-- The sum of these sums from an index on. -/
def suffixTotal
    (bucket : ℕ → Group)
    (first count : ℕ) : Group :=
  ∑ index ∈ Ico first count, (index - first + 1) • bucket index

/-- One bucket more in the sum. -/
theorem suffixSum_step
    (bucket : ℕ → Group)
    {first count : ℕ}
    (below : first < count) :
    suffixSum bucket first count =
      suffixSum bucket (first + 1) count + bucket first := by
  rw [suffixSum, suffixSum, sum_eq_sum_Ico_succ_bot below, add_comm]

/-- One sum more in the total. -/
theorem suffixTotal_step
    (bucket : ℕ → Group)
    {first count : ℕ}
    (below : first < count) :
    suffixTotal bucket first count =
      suffixTotal bucket (first + 1) count + suffixSum bucket first count := by
  rw [suffixSum_step bucket below, suffixTotal,
    sum_eq_sum_Ico_succ_bot below, Nat.sub_self, zero_add, one_smul,
    suffixTotal, suffixSum, ← add_assoc, ← sum_add_distrib, add_comm]
  congr 1
  refine sum_congr rfl fun index member => ?_
  have above := (mem_Ico.mp member).1
  rw [← succ_nsmul]
  congr 1
  omega

/-- The total from the first bucket on weighs each by its magnitude. -/
theorem suffixTotal_zero
    (bucket : ℕ → Group)
    (count : ℕ) :
    suffixTotal bucket 0 count =
      ∑ index ∈ range count, (index + 1) • bucket index := by
  rw [suffixTotal, range_eq_Ico]
  rfl

end Buckets

section Horner

variable
    {Group : Type}
    [AddCommGroup Group]

/-- The windows from an index on, weighted by the powers of the radix. -/
def horner
    (radix : ℕ)
    (term : ℕ → Group)
    (first count : ℕ) : Group :=
  ∑ index ∈ Ico first count, radix ^ (index - first) • term index

/-- Past the last window nothing is left. -/
theorem horner_self
    (radix : ℕ)
    (term : ℕ → Group)
    (count : ℕ) :
    horner radix term count count = 0 := by
  rw [horner, Ico_self, sum_empty]

/-- Horner's rule. -/
theorem horner_step
    (radix : ℕ)
    (term : ℕ → Group)
    {first count : ℕ}
    (below : first < count) :
    horner radix term first count =
      radix • horner radix term (first + 1) count + term first := by
  rw [horner, sum_eq_sum_Ico_succ_bot below, Nat.sub_self, pow_zero,
    one_smul, add_comm, horner, smul_sum]
  congr 1
  refine sum_congr rfl fun index member => ?_
  have above := (mem_Ico.mp member).1
  rw [smul_smul, ← pow_succ']
  congr 2
  omega

/-- From the first window on the weights are the powers of the radix. -/
theorem horner_zero
    (radix : ℕ)
    (term : ℕ → Group)
    (count : ℕ) :
    horner radix term 0 count =
      ∑ index ∈ range count, radix ^ index • term index := by
  rw [horner, range_eq_Ico]
  rfl

/-- Multiples of one point by digits combine to its multiple. -/
theorem sum_pow_smul
    (radix : ℕ)
    (digit : ℕ → ℤ)
    (point : Group)
    (count : ℕ) :
    ∑ index ∈ range count, radix ^ index • digit index • point =
      (∑ index ∈ range count, (radix : ℤ) ^ index * digit index) • point := by
  rw [sum_smul]
  refine sum_congr rfl fun index _ => ?_
  rw [mul_smul, ← natCast_zsmul, Nat.cast_pow]

end Horner

end SignedWindows
