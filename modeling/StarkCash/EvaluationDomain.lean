import Mathlib.LinearAlgebra.Lagrange
import StarkCash.FourierTransform

namespace EvaluationDomain

/-!
# Polynomials on the powers of a root of unity

A polynomial of a degree below the order of a root of unity is determined by
its values at the powers of the root, and its value anywhere is a combination
of these.  The values at the even powers are the transform of its coefficients.
A product that agrees with a polynomial at the even powers of a root of twice
the order differs from it by what its values at the odd powers determine.
-/

open Finset
open FourierTransform
open Polynomial

variable
    {K : Type}
    [Field K]

/-- The value at a point of the polynomial that is one at one power only. -/
noncomputable def lagrange
    (root : K)
    (length index : ℕ)
    (point : K) : K :=
  (Lagrange.basis (range length) (fun i => root ^ i) index).eval point

/-- Powers below the order differ. -/
theorem pow_injOn
    {root : K}
    {length : ℕ}
    (primitive : IsPrimitiveRoot root length) :
    Set.InjOn (fun i : ℕ => root ^ i) (range length) := by
  intro i isIndex j isOther same
  rw [mem_coe, mem_range] at isIndex isOther
  exact primitive.pow_inj isIndex isOther same

/-- A value is a combination of the values at the powers. -/
theorem eval_eq_sum
    {root : K}
    {length : ℕ}
    (primitive : IsPrimitiveRoot root length)
    {f : K[X]}
    (degree : f.degree < length)
    (point : K) :
    f.eval point =
      ∑ i ∈ range length, f.eval (root ^ i) * lagrange root length i point := by
  have interpolated :=
    Lagrange.eq_interpolate (pow_injOn primitive)
      (by rwa [card_range] : f.degree < #(range length))
  conv_lhs => rw [interpolated]
  rw [Lagrange.interpolate_apply, eval_finsetSum]
  refine sum_congr rfl fun i _ => ?_
  rw [eval_mul, eval_C, lagrange]

/-- The polynomial of some coefficients. -/
noncomputable def polynomial
    (length : ℕ)
    (coefficient : ℕ → K) : K[X] :=
  ∑ i ∈ range length, C (coefficient i) * X ^ i

/-- Its degree is below their number. -/
theorem degree_polynomial_lt
    (length : ℕ)
    (coefficient : ℕ → K) :
    (polynomial length coefficient).degree < length := by
  rw [← mem_degreeLT]
  refine Submodule.sum_mem _ fun i member => mem_degreeLT.mpr ?_
  refine (degree_C_mul_X_pow_le i _).trans_lt ?_
  exact_mod_cast mem_range.mp member

/-- Its value at a power is that of the transform. -/
theorem eval_polynomial
    (root : K)
    (length : ℕ)
    (coefficient : ℕ → K)
    (index : ℕ) :
    (polynomial length coefficient).eval (root ^ index) =
      transform root length coefficient index := by
  unfold polynomial transform
  rw [eval_finsetSum]
  refine sum_congr rfl fun i _ => ?_
  rw [eval_mul, eval_C, eval_pow, eval_X, ← pow_mul, mul_comm]

/-- Its value at a power times a factor is that of the scaled coefficients. -/
theorem eval_polynomial_mul
    (factor root : K)
    (length : ℕ)
    (coefficient : ℕ → K)
    (index : ℕ) :
    (polynomial length coefficient).eval (factor * root ^ index) =
      transform root length (fun i => coefficient i * factor ^ i) index := by
  unfold polynomial transform
  rw [eval_finsetSum]
  refine sum_congr rfl fun i _ => ?_
  rw [eval_mul, eval_C, eval_pow, eval_X, mul_pow, ← pow_mul]
  ring

/--
A product and a polynomial that agree at the even powers of a root differ
anywhere by a combination of their differences at the odd powers.
-/
theorem eval_mul_sub_eq_sum
    {root : K}
    {length : ℕ}
    (primitive : IsPrimitiveRoot root (2 * length))
    {a b c : K[X]}
    (degreeA : a.degree < length)
    (degreeB : b.degree < length)
    (degreeC : c.degree < length)
    (agree :
      ∀ i < length,
        a.eval ((root ^ 2) ^ i) * b.eval ((root ^ 2) ^ i) =
          c.eval ((root ^ 2) ^ i))
    (point : K) :
    a.eval point * b.eval point - c.eval point =
      ∑ j ∈ range length,
        (a.eval (root ^ (2 * j + 1)) * b.eval (root ^ (2 * j + 1)) -
            c.eval (root ^ (2 * j + 1))) *
          lagrange root (2 * length) (2 * j + 1) point := by
  have degree : (a * b - c).degree < (2 * length : ℕ) := by
    refine (degree_sub_le _ _).trans_lt (max_lt ?_ ?_)
    · by_cases zero : a * b = 0
      · rw [zero, degree_zero]
        exact WithBot.bot_lt_coe _
      · have smallA :=
          (natDegree_lt_iff_degree_lt (left_ne_zero_of_mul zero)).mpr degreeA
        have smallB :=
          (natDegree_lt_iff_degree_lt (right_ne_zero_of_mul zero)).mpr degreeB
        refine (natDegree_lt_iff_degree_lt zero).mp ?_
        rw [natDegree_mul (left_ne_zero_of_mul zero) (right_ne_zero_of_mul zero)]
        omega
    · refine degreeC.trans_le ?_
      exact_mod_cast (by omega : length ≤ 2 * length)
  have value := eval_eq_sum primitive degree point
  rw [sum_range_two_mul] at value
  simp only [eval_sub, eval_mul] at value
  rw [value, sum_eq_zero, zero_add]
  intro i member
  rw [pow_mul, agree i (mem_range.mp member), sub_self, zero_mul]

end EvaluationDomain
