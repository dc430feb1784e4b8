import Mathlib.Tactic.FieldSimp
import Mathlib.Tactic.LinearCombination
import StarkCash.BaseField
import StarkCash.CurveArithmetic

namespace StarkCash.Rapidsnark

/-!
# The group that the curve arithmetic computes in

A point of the group stands in extended coordinates as `x z²`, `y z³`, `z²`
and `z³` for some `z` that is not zero.  On such coordinates the operations of
`Curve` are those of the group of the curve, also where a point is doubled,
added to its inverse, or the identity.
-/

namespace Curve

variable
    {K : Type}
    [Field K]
    [DecidableEq K]

/-- The curve as a Weierstrass curve. -/
def weierstrass (E : Curve K) : WeierstrassCurve K where
  a₁ := 0
  a₂ := 0
  a₃ := 0
  a₄ := E.fa
  a₆ := E.fb

/-- The group of the points of the curve. -/
abbrev Group (E : Curve K) : Type :=
  E.weierstrass.toAffine.Point

/-- Extended coordinates of an affine point. -/
def lift (x y z : K) : Point K where
  x := x * z ^ 2
  y := y * z ^ 3
  zz := z ^ 2
  zzz := z ^ 3

/--
A point of the group in extended coordinates.  Identities keep a first
coordinate that is not zero, on which comparing points rests.
-/
inductive Denotes (E : Curve K) : Point K → E.Group → Prop where
  | identity
      {p : Point K}
      (isZero : p.zz = 0)
      (nonzero : p.x ≠ 0) :
      E.Denotes p 0
  | finite
      {x y z : K}
      (nonzero : z ≠ 0)
      (nonsingular : E.weierstrass.toAffine.Nonsingular x y) :
      E.Denotes (lift x y z) (.some x y nonsingular)

/-- A point of the group in affine coordinates. -/
inductive DenotesAffine (E : Curve K) : PointAffine K → E.Group → Prop where
  | identity :
      E.DenotesAffine zeroAffine 0
  | finite
      {x y : K}
      (nonzero : ¬ (x = 0 ∧ y = 0))
      (nonsingular : E.weierstrass.toAffine.Nonsingular x y) :
      E.DenotesAffine ⟨x, y⟩ (.some x y nonsingular)

section Formulas

variable {E : Curve K}

/-- Multiplying by the coefficient is what it says, whatever its kind. -/
theorem mulByA_eq
    (E : Curve K)
    (ab : K) :
    E.mulByA ab = E.fa * ab := by
  unfold mulByA
  rw [E.typeOfA_eq]
  unfold TypeOfA.of
  split_ifs with isZero isOne isNegone
  · simp [isZero]
  · simp [isOne]
  · simp [isNegone]
  · rfl

/-- Leaving the coefficient out where it is zero changes nothing. -/
theorem add_mulByA
    (E : Curve K)
    (triple ab : K) :
    (if E.typeOfA ≠ .isZero then triple + E.mulByA ab else triple) =
      triple + E.fa * ab := by
  split_ifs with kind
  · rw [mulByA_eq]
  · have none : E.fa = 0 := by
      by_contra some
      apply kind
      rw [E.typeOfA_eq]
      unfold TypeOfA.of
      split_ifs <;> exact nofun
    rw [none]
    ring

/-- The slope of the line through two points. -/
def slope
    (E : Curve K)
    (x₁ x₂ y₁ y₂ : K) : K :=
  E.weierstrass.toAffine.slope x₁ x₂ y₁ y₂

/-- The third point of a line has its coordinates. -/
theorem finite_add
    {x₁ y₁ x₂ y₂ : K}
    {left : E.weierstrass.toAffine.Nonsingular x₁ y₁}
    {right : E.weierstrass.toAffine.Nonsingular x₂ y₂}
    (distinct : ¬ (x₁ = x₂ ∧ y₁ = -y₂))
    {z : K}
    (nonzero : z ≠ 0)
    {p : Point K}
    (x : p.x = (E.slope x₁ x₂ y₁ y₂ ^ 2 - x₁ - x₂) * z ^ 2)
    (y :
      p.y =
        (E.slope x₁ x₂ y₁ y₂ *
            (x₁ - (E.slope x₁ x₂ y₁ y₂ ^ 2 - x₁ - x₂)) - y₁) * z ^ 3)
    (zz : p.zz = z ^ 2)
    (zzz : p.zzz = z ^ 3) :
    E.Denotes p
      (WeierstrassCurve.Affine.Point.some x₁ y₁ left +
        WeierstrassCurve.Affine.Point.some x₂ y₂ right) := by
  have notInverse :
      ¬ (x₁ = x₂ ∧ y₁ = E.weierstrass.toAffine.negY x₂ y₂) := by
    simpa [WeierstrassCurve.Affine.negY, weierstrass] using distinct
  rw [WeierstrassCurve.Affine.Point.add_some notInverse]
  have sumX :
      E.weierstrass.toAffine.addX x₁ x₂ (E.slope x₁ x₂ y₁ y₂) =
        E.slope x₁ x₂ y₁ y₂ ^ 2 - x₁ - x₂ := by
    simp [WeierstrassCurve.Affine.addX, weierstrass]
  have sumY :
      E.weierstrass.toAffine.addY x₁ x₂ y₁ (E.slope x₁ x₂ y₁ y₂) =
        E.slope x₁ x₂ y₁ y₂ *
          (x₁ - (E.slope x₁ x₂ y₁ y₂ ^ 2 - x₁ - x₂)) - y₁ := by
    rw [WeierstrassCurve.Affine.addY, WeierstrassCurve.Affine.negAddY, sumX]
    simp only [WeierstrassCurve.Affine.negY, weierstrass]
    ring
  have coordinates :
      p =
        lift
          (E.weierstrass.toAffine.addX x₁ x₂ (E.slope x₁ x₂ y₁ y₂))
          (E.weierstrass.toAffine.addY x₁ x₂ y₁ (E.slope x₁ x₂ y₁ y₂))
          z := by
    rw [sumX, sumY]
    cases p
    simp only at x y zz zzz
    rw [x, y, zz, zzz]
    rfl
  rw [coordinates]
  exact .finite nonzero _

/-- The slope through points with different first coordinates. -/
theorem slope_of_ne
    (E : Curve K)
    {x₁ x₂ : K}
    (differs : x₁ ≠ x₂)
    (y₁ y₂ : K) :
    y₂ - y₁ = E.slope x₁ x₂ y₁ y₂ * (x₂ - x₁) := by
  have apart : x₁ - x₂ ≠ 0 := sub_ne_zero.mpr differs
  rw [slope, WeierstrassCurve.Affine.slope_of_X_ne differs]
  field_simp
  ring

/-- The slope of the tangent. -/
theorem slope_self
    (E : Curve K)
    (x : K)
    {y : K}
    (notInverse : y ≠ -y) :
    3 * x ^ 2 + E.fa = E.slope x x y y * (y + y) := by
  have apart : y + y ≠ 0 := fun sum => notInverse (eq_neg_of_add_eq_zero_left sum)
  have distinct : y ≠ E.weierstrass.toAffine.negY x y := by
    simpa [WeierstrassCurve.Affine.negY, weierstrass] using notInverse
  rw [slope, WeierstrassCurve.Affine.slope_of_Y_ne rfl distinct]
  simp only [WeierstrassCurve.Affine.negY, weierstrass]
  have denominator : y - (-y - 0 * x - 0) = y + y := by ring
  rw [denominator, div_mul_cancel₀ _ apart]
  ring

/-- A point that is its own inverse doubles to the identity. -/
theorem add_self_of_inverse
    {x y : K}
    (nonsingular : E.weierstrass.toAffine.Nonsingular x y)
    (inverse : y = -y) :
    WeierstrassCurve.Affine.Point.some x y nonsingular +
        WeierstrassCurve.Affine.Point.some x y nonsingular =
      0 := by
  refine WeierstrassCurve.Affine.Point.add_self_of_Y_eq ?_
  simpa [WeierstrassCurve.Affine.negY, weierstrass] using inverse

/-- The tangent at a point that is its own inverse is vertical. -/
theorem tangent_ne_zero
    {x y : K}
    (nonsingular : E.weierstrass.toAffine.Nonsingular x y)
    (inverse : y = -y) :
    3 * x ^ 2 + E.fa ≠ 0 := by
  rcases ((WeierstrassCurve.Affine.nonsingular_iff _ _).mp nonsingular).2 with
    horizontal | vertical
  · intro vanishes
    apply horizontal
    simp only [weierstrass]
    linear_combination -vanishes
  · refine absurd ?_ vertical
    simpa [weierstrass] using inverse

/-- Points with the same first coordinate are equal or inverse. -/
theorem add_of_ne
    {x y₁ y₂ : K}
    (left : E.weierstrass.toAffine.Nonsingular x y₁)
    (right : E.weierstrass.toAffine.Nonsingular x y₂)
    (differs : y₁ ≠ y₂) :
    WeierstrassCurve.Affine.Point.some x y₁ left +
        WeierstrassCurve.Affine.Point.some x y₂ right =
      0 := by
  refine WeierstrassCurve.Affine.Point.add_of_Y_eq rfl ?_
  exact
    (WeierstrassCurve.Affine.Y_eq_of_X_eq left.1 right.1 rfl).resolve_left
      differs

end Formulas

section Operations

variable {E : Curve K}

/-- Without `zz` a point is the identity. -/
theorem Denotes.eq_zero
    {p : Point K}
    {P : E.Group}
    (denotes : E.Denotes p P)
    (none : p.zz = 0) :
    P = 0 := by
  cases denotes with
  | identity =>
      rfl
  | finite nonzero nonsingular =>
      exact absurd none (pow_ne_zero 2 nonzero)

/-- With `zz` a point has its affine coordinates. -/
theorem Denotes.coordinates
    {p : Point K}
    {P : E.Group}
    (denotes : E.Denotes p P)
    (some : p.zz ≠ 0) :
    ∃ nonsingular,
      P = .some (p.x / p.zz) (p.y / p.zzz) nonsingular := by
  cases denotes with
  | identity none =>
      exact absurd none some
  | @finite x y z nonzero nonsingular =>
      have x' : (lift x y z).x / (lift x y z).zz = x :=
        mul_div_cancel_right₀ x (pow_ne_zero 2 nonzero)
      have y' : (lift x y z).y / (lift x y z).zzz = y :=
        mul_div_cancel_right₀ y (pow_ne_zero 3 nonzero)
      refine ⟨by rw [x', y']; exact nonsingular, ?_⟩
      simp only [x', y']

/-- Extended coordinates denote one point of the group. -/
theorem Denotes.unique
    {p : Point K}
    {P Q : E.Group}
    (left : E.Denotes p P)
    (right : E.Denotes p Q) :
    P = Q := by
  by_cases none : p.zz = 0
  · rw [left.eq_zero none, right.eq_zero none]
  · obtain ⟨_, rfl⟩ := left.coordinates none
    obtain ⟨_, rfl⟩ := right.coordinates none
    rfl

/-- A finite point is not taken for the identity. -/
@[simp] theorem isZero_lift
    {x y z : K}
    (nonzero : z ≠ 0) :
    isZero (lift x y z) = false := by
  simp [isZero, lift, nonzero]

/-- Doubling a point doubles it in the group. -/
theorem Denotes.dbl
    {p : Point K}
    {P : E.Group}
    (denotes : E.Denotes p P) :
    E.Denotes (E.dbl p) (P + P) := by
  cases denotes with
  | identity none nonzero =>
      rw [Curve.dbl, if_pos (by simp [isZero, none]), add_zero]
      exact .identity none nonzero
  | @finite x y z nonzero nonsingular =>
      rw [Curve.dbl, isZero_lift nonzero]
      simp only [Bool.false_eq_true, if_false, add_mulByA]
      by_cases inverse : y = -y
      · rw [add_self_of_inverse nonsingular inverse]
        have none : y + y = 0 := by
          nth_rewrite 2 [inverse]
          exact add_neg_cancel y
        refine .identity ?_ ?_
        · simp only [lift]
          rw [← add_mul, none]
          ring
        · have tangent := tangent_ne_zero nonsingular inverse
          have square :
              (3 * x ^ 2 + E.fa) ^ 2 * z ^ 8 ≠ 0 :=
            mul_ne_zero (pow_ne_zero 2 tangent) (pow_ne_zero 8 nonzero)
          simp only [lift]
          rw [← add_mul, none]
          intro vanishes
          apply square
          linear_combination vanishes
      · have tangent := E.slope_self x inverse
        have apart : y + y ≠ 0 :=
          fun sum => inverse (eq_neg_of_add_eq_zero_left sum)
        refine
          finite_add
            (fun same => inverse same.2)
            (mul_ne_zero apart (pow_ne_zero 4 nonzero))
            ?_ ?_ ?_ ?_
        · simp only [lift]
          linear_combination
            ((3 * x ^ 2 + E.fa) + E.slope x x y y * (y + y)) * z ^ 8 * tangent
        · simp only [lift]
          linear_combination
            (3 * x * (y + y) ^ 2 -
                ((3 * x ^ 2 + E.fa) ^ 2 +
                  (3 * x ^ 2 + E.fa) * (E.slope x x y y * (y + y)) +
                  (E.slope x x y y * (y + y)) ^ 2)) * z ^ 12 * tangent
        · simp only [lift]
          ring
        · simp only [lift]
          ring

/-- An affine point is the identity exactly if it is taken for it. -/
theorem isZeroAffine_iff
    {p : PointAffine K} :
    isZeroAffine p = true ↔ p = zeroAffine := by
  cases p
  simp [isZeroAffine, zeroAffine]

/-- A finite affine point is not taken for the identity. -/
theorem isZeroAffine_of_finite
    {x y : K}
    (nonzero : ¬ (x = 0 ∧ y = 0)) :
    isZeroAffine (⟨x, y⟩ : PointAffine K) = false := by
  simpa [isZeroAffine] using nonzero

omit [DecidableEq K] in
/-- Affine coordinates are extended coordinates with `z = 1`. -/
theorem eq_lift_one
    (x y : K) :
    (⟨x, y, 1, 1⟩ : Point K) = lift x y 1 := by
  simp [lift]

/-- An affine point is copied. -/
theorem DenotesAffine.copyMixed
    {p : PointAffine K}
    {P : E.Group}
    (denotes : E.DenotesAffine p P) :
    E.Denotes (copyMixed p) P := by
  cases denotes with
  | identity =>
      rw [Curve.copyMixed, if_pos (isZeroAffine_iff.mpr rfl)]
      exact .identity rfl one_ne_zero
  | finite nonzero nonsingular =>
      rw [Curve.copyMixed, isZeroAffine_of_finite nonzero]
      simp only [Bool.false_eq_true, if_false]
      rw [eq_lift_one]
      exact .finite one_ne_zero nonsingular

/-- Doubling an affine point doubles it in the group. -/
theorem DenotesAffine.dblMixed
    {p : PointAffine K}
    {P : E.Group}
    (denotes : E.DenotesAffine p P) :
    E.Denotes (E.dblMixed p) (P + P) := by
  cases denotes with
  | identity =>
      rw [Curve.dblMixed, if_pos (isZeroAffine_iff.mpr rfl), add_zero]
      exact DenotesAffine.identity.copyMixed
  | @finite x y nonzero nonsingular =>
      have same : E.dblMixed ⟨x, y⟩ = E.dbl (lift x y 1) := by
        rw [Curve.dblMixed, isZeroAffine_of_finite nonzero, Curve.dbl,
          isZero_lift one_ne_zero]
        simp only [Bool.false_eq_true, if_false, add_mulByA, lift, one_pow,
          mul_one]
        congr 1 <;> ring
      rw [same]
      exact (Denotes.finite one_ne_zero nonsingular).dbl

omit [DecidableEq K] in
/-- The differences of the coordinates vanish where the points are equal. -/
theorem differences_eq_zero_iff
    {x₁ y₁ x₂ y₂ z P R : K}
    (nonzero : z ≠ 0)
    (isP : P = (x₂ - x₁) * z ^ 2)
    (isR : R = (y₂ - y₁) * z ^ 3) :
    P = 0 ∧ R = 0 ↔ x₁ = x₂ ∧ y₁ = y₂ := by
  rw [isP, isR, mul_eq_zero_iff_right (pow_ne_zero 2 nonzero),
    mul_eq_zero_iff_right (pow_ne_zero 3 nonzero), sub_eq_zero, sub_eq_zero,
    eq_comm, @eq_comm K y₂]

/-- The sum of two finite points that are not equal. -/
theorem add_lift
    {x₁ y₁ z₁ x₂ y₂ z₂ : K}
    (nonzero₁ : z₁ ≠ 0)
    (nonzero₂ : z₂ ≠ 0)
    (left : E.weierstrass.toAffine.Nonsingular x₁ y₁)
    (right : E.weierstrass.toAffine.Nonsingular x₂ y₂)
    (differ : ¬ (x₁ = x₂ ∧ y₁ = y₂))
    {P R : K}
    (isP : P = (x₂ - x₁) * (z₁ * z₂) ^ 2)
    (isR : R = (y₂ - y₁) * (z₁ * z₂) ^ 3)
    {p : Point K}
    (x :
      p.x = R ^ 2 - P ^ 3 - 2 * (x₁ * (z₁ * z₂) ^ 2 * P ^ 2))
    (y :
      p.y =
        (x₁ * (z₁ * z₂) ^ 2 * P ^ 2 - p.x) * R -
          y₁ * (z₁ * z₂) ^ 3 * P ^ 3)
    (zz : p.zz = (z₁ * z₂ * P) ^ 2)
    (zzz : p.zzz = (z₁ * z₂ * P) ^ 3) :
    E.Denotes p
      (WeierstrassCurve.Affine.Point.some x₁ y₁ left +
        WeierstrassCurve.Affine.Point.some x₂ y₂ right) := by
  by_cases same : x₁ = x₂
  · subst same
    have apart : y₂ - y₁ ≠ 0 :=
      sub_ne_zero.mpr fun also => differ ⟨rfl, also.symm⟩
    have none : P = 0 := by
      rw [isP]
      ring
    rw [add_of_ne left right fun also => differ ⟨rfl, also⟩]
    refine .identity ?_ ?_
    · rw [zz, none]
      ring
    · have square : R ^ 2 ≠ 0 := by
        rw [isR]
        exact
          pow_ne_zero 2
            (mul_ne_zero apart
              (pow_ne_zero 3 (mul_ne_zero nonzero₁ nonzero₂)))
      rw [x, none]
      intro vanishes
      apply square
      linear_combination vanishes
  · have chord := E.slope_of_ne same y₁ y₂
    have apart : x₂ - x₁ ≠ 0 := sub_ne_zero.mpr (Ne.symm same)
    have nonzero : z₁ * z₂ ≠ 0 := mul_ne_zero nonzero₁ nonzero₂
    have factor : P ≠ 0 := by
      rw [isP]
      exact mul_ne_zero apart (pow_ne_zero 2 nonzero)
    have isSlope : R = E.slope x₁ x₂ y₁ y₂ * (z₁ * z₂ * P) := by
      rw [isR, isP, chord]
      ring
    have sum : P = (x₂ - x₁) * (z₁ * z₂) ^ 2 := isP
    have x' :
        p.x =
          (E.slope x₁ x₂ y₁ y₂ ^ 2 - x₁ - x₂) * (z₁ * z₂ * P) ^ 2 := by
      rw [x, isSlope]
      linear_combination (-P ^ 2) * sum
    refine
      finite_add (fun both => same both.1) (mul_ne_zero nonzero factor)
        x' ?_ zz zzz
    rw [y, x', isSlope]
    ring

/-- Adding points adds them in the group. -/
theorem Denotes.add
    {p q : Point K}
    {P Q : E.Group}
    (left : E.Denotes p P)
    (right : E.Denotes q Q) :
    E.Denotes (E.add p q) (P + Q) := by
  cases left with
  | identity none =>
      rw [Curve.add, if_pos (by simp [isZero, none]), zero_add]
      exact right
  | @finite x₁ y₁ z₁ nonzero₁ nonsingular₁ =>
      rw [Curve.add, isZero_lift nonzero₁]
      simp only [Bool.false_eq_true, if_false]
      cases right with
      | identity none =>
          rw [if_pos (by simp [isZero, none]), add_zero]
          exact .finite nonzero₁ nonsingular₁
      | @finite x₂ y₂ z₂ nonzero₂ nonsingular₂ =>
          rw [isZero_lift nonzero₂]
          simp only [Bool.false_eq_true, if_false]
          have isP :
              (lift x₂ y₂ z₂).x * (lift x₁ y₁ z₁).zz -
                  (lift x₁ y₁ z₁).x * (lift x₂ y₂ z₂).zz =
                (x₂ - x₁) * (z₁ * z₂) ^ 2 := by
            simp only [lift]
            ring
          have isR :
              (lift x₂ y₂ z₂).y * (lift x₁ y₁ z₁).zzz -
                  (lift x₁ y₁ z₁).y * (lift x₂ y₂ z₂).zzz =
                (y₂ - y₁) * (z₁ * z₂) ^ 3 := by
            simp only [lift]
            ring
          have equal :=
            differences_eq_zero_iff (mul_ne_zero nonzero₁ nonzero₂) isP isR
          split_ifs with vanish
          · obtain ⟨rfl, rfl⟩ := equal.mp vanish
            exact (Denotes.finite nonzero₁ nonsingular₁).dbl
          · refine
              add_lift nonzero₁ nonzero₂ nonsingular₁ nonsingular₂
                (mt equal.mpr vanish) isP isR ?_ ?_ ?_ ?_
            · simp only [lift]
              ring
            · simp only [lift]
              ring
            · simp only [lift]
              ring
            · simp only [lift]
              ring

/-- Adding an affine point adds it in the group. -/
theorem Denotes.addMixed
    {p : Point K}
    {q : PointAffine K}
    {P Q : E.Group}
    (left : E.Denotes p P)
    (right : E.DenotesAffine q Q) :
    E.Denotes (E.addMixed p q) (P + Q) := by
  cases left with
  | identity none =>
      rw [Curve.addMixed, if_pos (by simp [isZero, none]), zero_add]
      exact right.copyMixed
  | @finite x₁ y₁ z nonzero nonsingular₁ =>
      rw [Curve.addMixed, isZero_lift nonzero]
      simp only [Bool.false_eq_true, if_false]
      cases right with
      | identity =>
          rw [if_pos (isZeroAffine_iff.mpr rfl), add_zero]
          exact .finite nonzero nonsingular₁
      | @finite x₂ y₂ finite nonsingular₂ =>
          rw [isZeroAffine_of_finite finite]
          simp only [Bool.false_eq_true, if_false]
          have isP :
              x₂ * (lift x₁ y₁ z).zz - (lift x₁ y₁ z).x =
                (x₂ - x₁) * (z * 1) ^ 2 := by
            simp only [lift]
            ring
          have isR :
              y₂ * (lift x₁ y₁ z).zzz - (lift x₁ y₁ z).y =
                (y₂ - y₁) * (z * 1) ^ 3 := by
            simp only [lift]
            ring
          have equal :=
            differences_eq_zero_iff (mul_ne_zero nonzero one_ne_zero) isP isR
          split_ifs with vanish
          · obtain ⟨rfl, rfl⟩ := equal.mp vanish
            exact (DenotesAffine.finite finite nonsingular₂).dblMixed
          · refine
              add_lift nonzero one_ne_zero nonsingular₁ nonsingular₂
                (mt equal.mpr vanish) isP isR ?_ ?_ ?_ ?_
            · simp only [lift]
              ring
            · simp only [lift]
              ring
            · simp only [lift]
              ring
            · simp only [lift]
              ring

/-- Adding affine points adds them in the group. -/
theorem DenotesAffine.addAffine
    {p q : PointAffine K}
    {P Q : E.Group}
    (left : E.DenotesAffine p P)
    (right : E.DenotesAffine q Q) :
    E.Denotes (E.addAffine p q) (P + Q) := by
  cases left with
  | identity =>
      rw [Curve.addAffine, if_pos (isZeroAffine_iff.mpr rfl), zero_add]
      exact right.copyMixed
  | @finite x₁ y₁ finite₁ nonsingular₁ =>
      cases right with
      | identity =>
          rw [Curve.addAffine, isZeroAffine_of_finite finite₁,
            if_pos (isZeroAffine_iff.mpr rfl), add_zero]
          exact (DenotesAffine.finite finite₁ nonsingular₁).copyMixed
      | @finite x₂ y₂ finite₂ nonsingular₂ =>
          rw [Curve.addAffine, isZeroAffine_of_finite finite₁,
            isZeroAffine_of_finite finite₂]
          simp only [Bool.false_eq_true, if_false]
          have isP : x₂ - x₁ = (x₂ - x₁) * ((1 : K) * 1) ^ 2 := by ring
          have isR : y₂ - y₁ = (y₂ - y₁) * ((1 : K) * 1) ^ 3 := by ring
          have equal :=
            differences_eq_zero_iff (mul_ne_zero one_ne_zero one_ne_zero)
              isP isR
          split_ifs with vanish
          · obtain ⟨rfl, rfl⟩ := equal.mp vanish
            exact (DenotesAffine.finite finite₂ nonsingular₂).dblMixed
          · exact
              add_lift one_ne_zero one_ne_zero nonsingular₁ nonsingular₂
                (mt equal.mpr vanish) isP isR (by ring) (by ring) (by ring)
                (by ring)

/-- The inverse of a point. -/
theorem neg_some_eq
    {x y : K}
    (nonsingular : E.weierstrass.toAffine.Nonsingular x y) :
    ∃ inverse : E.weierstrass.toAffine.Nonsingular x (-y),
      -WeierstrassCurve.Affine.Point.some x y nonsingular =
        .some x (-y) inverse := by
  have negated : E.weierstrass.toAffine.negY x y = -y := by
    simp [WeierstrassCurve.Affine.negY, weierstrass]
  have inverse : E.weierstrass.toAffine.Nonsingular x (-y) := by
    rw [← negated]
    exact (WeierstrassCurve.Affine.nonsingular_neg x y).mpr nonsingular
  refine ⟨inverse, ?_⟩
  rw [WeierstrassCurve.Affine.Point.neg_some]
  simp only [negated]

/-- Negating a point negates it in the group. -/
theorem Denotes.neg
    {p : Point K}
    {P : E.Group}
    (denotes : E.Denotes p P) :
    E.Denotes (Curve.neg p) (-P) := by
  cases denotes with
  | identity none nonzero =>
      rw [neg_zero]
      exact .identity none nonzero
  | @finite x y z nonzero nonsingular =>
      have coordinates : Curve.neg (lift x y z) = lift x (-y) z := by
        simp [Curve.neg, lift]
      obtain ⟨inverse, isInverse⟩ := neg_some_eq nonsingular
      rw [coordinates, isInverse]
      exact .finite nonzero inverse

/-- Negating an affine point negates it in the group. -/
theorem DenotesAffine.neg
    {p : PointAffine K}
    {P : E.Group}
    (denotes : E.DenotesAffine p P) :
    E.DenotesAffine (negAffine p) (-P) := by
  cases denotes with
  | identity =>
      have same : negAffine (zeroAffine : PointAffine K) = zeroAffine := by
        simp [negAffine, zeroAffine]
      rw [neg_zero, same]
      exact .identity
  | @finite x y nonzero nonsingular =>
      obtain ⟨inverse, isInverse⟩ := neg_some_eq nonsingular
      rw [isInverse]
      exact .finite (by simpa using nonzero) inverse

/--
Negating an affine point into extended coordinates negates it in the group,
unless it is the identity, whose coordinates become those of another point.
-/
theorem DenotesAffine.negMixed_iff
    {p : PointAffine K}
    {P : E.Group}
    (denotes : E.DenotesAffine p P) :
    E.Denotes (negMixed p) (-P) ↔ P ≠ 0 := by
  cases denotes with
  | identity =>
      refine ⟨fun negated => ?_, fun nonzero => absurd rfl nonzero⟩
      obtain ⟨_, isZero⟩ := negated.coordinates one_ne_zero
      exact absurd isZero.symm (by rw [neg_zero]; exact nofun)
  | @finite x y nonzero nonsingular =>
      refine ⟨fun _ => WeierstrassCurve.Affine.Point.some_ne_zero _, ?_⟩
      intro _
      obtain ⟨inverse, isInverse⟩ := neg_some_eq nonsingular
      have coordinates :
          negMixed (⟨x, y⟩ : PointAffine K) = lift x (-y) 1 :=
        eq_lift_one x (-y)
      rw [isInverse, coordinates]
      exact .finite one_ne_zero inverse

/-- Subtracting points subtracts them in the group. -/
theorem Denotes.sub
    {p q : Point K}
    {P Q : E.Group}
    (left : E.Denotes p P)
    (right : E.Denotes q Q) :
    E.Denotes (E.sub p q) (P - Q) := by
  rw [sub_eq_add_neg]
  exact left.add right.neg

/-- Subtracting an affine point subtracts it in the group. -/
theorem Denotes.subMixed
    {p : Point K}
    {q : PointAffine K}
    {P Q : E.Group}
    (left : E.Denotes p P)
    (right : E.DenotesAffine q Q) :
    E.Denotes (E.subMixed p q) (P - Q) := by
  rw [sub_eq_add_neg]
  exact left.addMixed right.neg

/-- Subtracting a point from an affine point subtracts it in the group. -/
theorem DenotesAffine.subFromAffine
    {p : PointAffine K}
    {q : Point K}
    {P Q : E.Group}
    (left : E.DenotesAffine p P)
    (right : E.Denotes q Q) :
    E.Denotes (E.subFromAffine p q) (P - Q) := by
  rw [sub_eq_add_neg, add_comm]
  exact right.neg.addMixed left

/-- Subtracting affine points subtracts them in the group. -/
theorem DenotesAffine.subAffine
    {p q : PointAffine K}
    {P Q : E.Group}
    (left : E.DenotesAffine p P)
    (right : E.DenotesAffine q Q) :
    E.Denotes (E.subAffine p q) (P - Q) := by
  rw [sub_eq_add_neg]
  exact left.addAffine right.neg

/-- The origin is off a curve with a second coefficient. -/
theorem origin_not_on_curve
    (coefficient : E.fb ≠ 0)
    {x y : K}
    (nonsingular : E.weierstrass.toAffine.Nonsingular x y) :
    ¬ (x = 0 ∧ y = 0) := by
  rintro ⟨rfl, rfl⟩
  have equation :=
    (WeierstrassCurve.Affine.equation_iff _ _).mp nonsingular.1
  simp only [weierstrass] at equation
  apply coefficient
  linear_combination -equation

/-- The affine coordinates of a point are those of the group. -/
theorem Denotes.toAffine
    (coefficient : E.fb ≠ 0)
    {p : Point K}
    {P : E.Group}
    (denotes : E.Denotes p P) :
    E.DenotesAffine (toAffine p) P := by
  by_cases none : p.zz = 0
  · rw [denotes.eq_zero none, Curve.toAffine, if_pos (by simp [isZero, none])]
    exact .identity
  · obtain ⟨nonsingular, rfl⟩ := denotes.coordinates none
    rw [Curve.toAffine, if_neg (by simp [isZero, none])]
    exact .finite (origin_not_on_curve coefficient nonsingular) nonsingular

/-- Affine coordinates are those of one point of the group only. -/
theorem DenotesAffine.inj
    {p q : PointAffine K}
    {P Q : E.Group}
    (left : E.DenotesAffine p P)
    (right : E.DenotesAffine q Q) :
    p = q ↔ P = Q := by
  constructor
  · rintro rfl
    exact left.copyMixed.unique right.copyMixed
  · rintro rfl
    cases left with
    | identity =>
        cases right
        rfl
    | finite nonzero nonsingular =>
        cases right
        rfl

/-- Two points are found equal exactly if they are equal in the group. -/
theorem Denotes.eq_iff
    {p q : Point K}
    {P Q : E.Group}
    (left : E.Denotes p P)
    (right : E.Denotes q Q) :
    Curve.eq p q = true ↔ P = Q := by
  cases left with
  | identity none =>
      rw [Curve.eq, if_pos (by simp [isZero, none])]
      constructor
      · intro isZero
        exact (right.eq_zero (of_decide_eq_true isZero)).symm
      · rintro rfl
        by_contra nonzero
        obtain ⟨_, isSome⟩ :=
          right.coordinates fun none => nonzero (decide_eq_true none)
        cases isSome
  | @finite x₁ y₁ z₁ nonzero₁ nonsingular₁ =>
      rw [Curve.eq, isZero_lift nonzero₁]
      simp only [Bool.false_eq_true, if_false, Bool.and_eq_true,
        decide_eq_true_eq]
      cases right with
      | identity none nonzero =>
          constructor
          · rintro ⟨first, -⟩
            simp only [lift, none] at first
            have product : q.x * z₁ ^ 2 = 0 := by
              linear_combination first
            exact
              absurd product (mul_ne_zero nonzero (pow_ne_zero 2 nonzero₁))
          · exact nofun
      | @finite x₂ y₂ z₂ nonzero₂ nonsingular₂ =>
          have equal :=
            @differences_eq_zero_iff K _ x₁ y₁ x₂ y₂ (z₁ * z₂) _ _
              (mul_ne_zero nonzero₁ nonzero₂) rfl rfl
          rw [WeierstrassCurve.Affine.Point.some.injEq, ← equal]
          simp only [lift]
          refine and_congr (Eq.congr_left ?_) (Eq.congr_left ?_)
          · ring
          · ring

/-- A point is found equal to an affine one as in the group. -/
theorem Denotes.eqMixed_iff
    (coefficient : E.fb ≠ 0)
    {p : Point K}
    {q : PointAffine K}
    {P Q : E.Group}
    (left : E.Denotes p P)
    (right : E.DenotesAffine q Q) :
    Curve.eqMixed p q = true ↔ P = Q := by
  cases left with
  | identity none nonzero =>
      rw [Curve.eqMixed, if_pos (by simp [isZero, none]), isZeroAffine_iff]
      exact (right.inj .identity).trans eq_comm
  | @finite x₁ y₁ z nonzero nonsingular₁ =>
      rw [Curve.eqMixed, isZero_lift nonzero]
      simp only [Bool.false_eq_true, if_false, Bool.and_eq_true,
        decide_eq_true_eq]
      cases right with
      | identity =>
          have finite := origin_not_on_curve coefficient nonsingular₁
          have equal :=
            @differences_eq_zero_iff K _ x₁ y₁ 0 0 z _ _ nonzero rfl rfl
          refine ⟨fun vanish => absurd (equal.mp ?_) finite, nofun⟩
          simp only [lift, zeroAffine] at vanish
          refine ⟨?_, ?_⟩
          · linear_combination vanish.1
          · linear_combination vanish.2
      | @finite x₂ y₂ finite nonsingular₂ =>
          have equal :=
            @differences_eq_zero_iff K _ x₁ y₁ x₂ y₂ z _ _ nonzero rfl rfl
          rw [WeierstrassCurve.Affine.Point.some.injEq, ← equal]
          simp only [lift]
          refine and_congr (Eq.congr_left ?_) (Eq.congr_left ?_)
          · ring
          · ring

/-- Two affine points are found equal exactly if they are equal in the group. -/
theorem DenotesAffine.eqAffine_iff
    {p q : PointAffine K}
    {P Q : E.Group}
    (left : E.DenotesAffine p P)
    (right : E.DenotesAffine q Q) :
    Curve.eqAffine p q = true ↔ P = Q := by
  rw [← left.inj right, Curve.eqAffine, Bool.and_eq_true, decide_eq_true_eq,
    decide_eq_true_eq, PointAffine.mk.injEq]

/-- Negating a point into affine coordinates negates it in the group. -/
theorem Denotes.negToAffine
    (coefficient : E.fb ≠ 0)
    {p : Point K}
    {P : E.Group}
    (denotes : E.Denotes p P) :
    E.DenotesAffine (Curve.negToAffine p) (-P) := by
  have same : Curve.negToAffine p = negAffine (Curve.toAffine p) := by
    unfold Curve.negToAffine Curve.toAffine negAffine
    split_ifs <;> simp
  rw [same]
  exact (denotes.toAffine coefficient).neg

end Operations

section Computations

variable {E : Curve K}

/-- The kinds of coordinates. -/
inductive Kind where
  | extended
  | affine

/-- A point in coordinates of a kind. -/
abbrev Coordinates (K : Type) : Kind → Type
  | .extended => Point K
  | .affine => PointAffine K

/-- A point of the group in coordinates of a kind. -/
def DenotesKind
    (E : Curve K) :
    {kind : Kind} → Coordinates K kind → E.Group → Prop
  | .extended => E.Denotes
  | .affine => E.DenotesAffine

/-- Whether two points are the same, whatever their coordinates (`eq`). -/
def eqKind :
    {kind other : Kind} →
    Coordinates K kind →
    Coordinates K other →
    Bool
  | .extended, .extended, p1, p2 => Curve.eq p1 p2
  | .extended, .affine, p1, p2 => eqMixed p1 p2
  | .affine, .extended, p1, p2 => eqMixed p2 p1
  | .affine, .affine, p1, p2 => eqAffine p1 p2

/-- A sequence of operations on given points, as a tree. -/
inductive Computation : Kind → Type where
  | zero : Computation .extended
  | zeroAffine : Computation .affine
  | point (index : ℕ) : Computation .extended
  | base (index : ℕ) : Computation .affine
  | copyMixed (operand : Computation .affine) : Computation .extended
  | toAffine (operand : Computation .extended) : Computation .affine
  | add (left right : Computation .extended) : Computation .extended
  | addMixed
      (left : Computation .extended)
      (right : Computation .affine) : Computation .extended
  | addAffine (left right : Computation .affine) : Computation .extended
  | sub (left right : Computation .extended) : Computation .extended
  | subMixed
      (left : Computation .extended)
      (right : Computation .affine) : Computation .extended
  | subFromAffine
      (left : Computation .affine)
      (right : Computation .extended) : Computation .extended
  | subAffine (left right : Computation .affine) : Computation .extended
  | dbl (operand : Computation .extended) : Computation .extended
  | dblMixed (operand : Computation .affine) : Computation .extended
  | neg (operand : Computation .extended) : Computation .extended
  | negAffine (operand : Computation .affine) : Computation .affine
  | negMixed (operand : Computation .affine) : Computation .extended
  | negToAffine (operand : Computation .extended) : Computation .affine

/-- What the operations of the curve compute. -/
def Computation.evaluate
    (E : Curve K)
    (points : ℕ → Point K)
    (bases : ℕ → PointAffine K) :
    {kind : Kind} → Computation kind → Coordinates K kind
  | _, zero => Curve.zero
  | _, zeroAffine => Curve.zeroAffine
  | _, point index => points index
  | _, base index => bases index
  | _, copyMixed operand => Curve.copyMixed (operand.evaluate E points bases)
  | _, toAffine operand => Curve.toAffine (operand.evaluate E points bases)
  | _, add left right =>
      E.add (left.evaluate E points bases) (right.evaluate E points bases)
  | _, addMixed left right =>
      E.addMixed (left.evaluate E points bases) (right.evaluate E points bases)
  | _, addAffine left right =>
      E.addAffine (left.evaluate E points bases)
        (right.evaluate E points bases)
  | _, sub left right =>
      E.sub (left.evaluate E points bases) (right.evaluate E points bases)
  | _, subMixed left right =>
      E.subMixed (left.evaluate E points bases) (right.evaluate E points bases)
  | _, subFromAffine left right =>
      E.subFromAffine (left.evaluate E points bases)
        (right.evaluate E points bases)
  | _, subAffine left right =>
      E.subAffine (left.evaluate E points bases)
        (right.evaluate E points bases)
  | _, dbl operand => E.dbl (operand.evaluate E points bases)
  | _, dblMixed operand => E.dblMixed (operand.evaluate E points bases)
  | _, neg operand => Curve.neg (operand.evaluate E points bases)
  | _, negAffine operand => Curve.negAffine (operand.evaluate E points bases)
  | _, negMixed operand => Curve.negMixed (operand.evaluate E points bases)
  | _, negToAffine operand =>
      Curve.negToAffine (operand.evaluate E points bases)

/-- The value of a computation in a commutative group. -/
def Computation.value
    {Group : Type}
    [AddCommGroup Group]
    (points bases : ℕ → Group) :
    {kind : Kind} → Computation kind → Group
  | _, zero => 0
  | _, zeroAffine => 0
  | _, point index => points index
  | _, base index => bases index
  | _, copyMixed operand => operand.value points bases
  | _, toAffine operand => operand.value points bases
  | _, add left right => left.value points bases + right.value points bases
  | _, addMixed left right =>
      left.value points bases + right.value points bases
  | _, addAffine left right =>
      left.value points bases + right.value points bases
  | _, sub left right => left.value points bases - right.value points bases
  | _, subMixed left right =>
      left.value points bases - right.value points bases
  | _, subFromAffine left right =>
      left.value points bases - right.value points bases
  | _, subAffine left right =>
      left.value points bases - right.value points bases
  | _, dbl operand => 2 • operand.value points bases
  | _, dblMixed operand => 2 • operand.value points bases
  | _, neg operand => -operand.value points bases
  | _, negAffine operand => -operand.value points bases
  | _, negMixed operand => -operand.value points bases
  | _, negToAffine operand => -operand.value points bases

/-- The affine identity is nowhere negated into extended coordinates. -/
def Computation.NegatesFinite
    {Group : Type}
    [AddCommGroup Group]
    (points bases : ℕ → Group) :
    {kind : Kind} → Computation kind → Prop
  | _, zero => True
  | _, zeroAffine => True
  | _, point _ => True
  | _, base _ => True
  | _, copyMixed operand => operand.NegatesFinite points bases
  | _, toAffine operand => operand.NegatesFinite points bases
  | _, add left right =>
      left.NegatesFinite points bases ∧ right.NegatesFinite points bases
  | _, addMixed left right =>
      left.NegatesFinite points bases ∧ right.NegatesFinite points bases
  | _, addAffine left right =>
      left.NegatesFinite points bases ∧ right.NegatesFinite points bases
  | _, sub left right =>
      left.NegatesFinite points bases ∧ right.NegatesFinite points bases
  | _, subMixed left right =>
      left.NegatesFinite points bases ∧ right.NegatesFinite points bases
  | _, subFromAffine left right =>
      left.NegatesFinite points bases ∧ right.NegatesFinite points bases
  | _, subAffine left right =>
      left.NegatesFinite points bases ∧ right.NegatesFinite points bases
  | _, dbl operand => operand.NegatesFinite points bases
  | _, dblMixed operand => operand.NegatesFinite points bases
  | _, neg operand => operand.NegatesFinite points bases
  | _, negAffine operand => operand.NegatesFinite points bases
  | _, negMixed operand =>
      operand.NegatesFinite points bases ∧ operand.value points bases ≠ 0
  | _, negToAffine operand => operand.NegatesFinite points bases

/-- Every such computation denotes its value. -/
theorem Computation.evaluate_value
    (coefficient : E.fb ≠ 0)
    {points : ℕ → Point K}
    {bases : ℕ → PointAffine K}
    {P B : ℕ → E.Group}
    (pointsDenote : ∀ index, E.Denotes (points index) (P index))
    (basesDenote : ∀ index, E.DenotesAffine (bases index) (B index))
    {kind : Kind}
    (computation : Computation kind)
    (finite : computation.NegatesFinite P B) :
    E.DenotesKind
      (computation.evaluate E points bases)
      (computation.value P B) := by
  induction computation with
  | zero =>
      exact Denotes.identity rfl one_ne_zero
  | zeroAffine =>
      exact DenotesAffine.identity
  | point index =>
      exact pointsDenote index
  | base index =>
      exact basesDenote index
  | copyMixed operand operandHypothesis =>
      exact DenotesAffine.copyMixed (operandHypothesis finite)
  | toAffine operand operandHypothesis =>
      exact Denotes.toAffine coefficient (operandHypothesis finite)
  | add left right leftHypothesis rightHypothesis =>
      exact Denotes.add (leftHypothesis finite.1) (rightHypothesis finite.2)
  | addMixed left right leftHypothesis rightHypothesis =>
      exact
        Denotes.addMixed (leftHypothesis finite.1) (rightHypothesis finite.2)
  | addAffine left right leftHypothesis rightHypothesis =>
      exact
        DenotesAffine.addAffine (leftHypothesis finite.1)
          (rightHypothesis finite.2)
  | sub left right leftHypothesis rightHypothesis =>
      exact Denotes.sub (leftHypothesis finite.1) (rightHypothesis finite.2)
  | subMixed left right leftHypothesis rightHypothesis =>
      exact
        Denotes.subMixed (leftHypothesis finite.1) (rightHypothesis finite.2)
  | subFromAffine left right leftHypothesis rightHypothesis =>
      exact
        DenotesAffine.subFromAffine (leftHypothesis finite.1)
          (rightHypothesis finite.2)
  | subAffine left right leftHypothesis rightHypothesis =>
      exact
        DenotesAffine.subAffine (leftHypothesis finite.1)
          (rightHypothesis finite.2)
  | dbl operand operandHypothesis =>
      rw [value, two_nsmul]
      exact Denotes.dbl (operandHypothesis finite)
  | dblMixed operand operandHypothesis =>
      rw [value, two_nsmul]
      exact DenotesAffine.dblMixed (operandHypothesis finite)
  | neg operand operandHypothesis =>
      exact Denotes.neg (operandHypothesis finite)
  | negAffine operand operandHypothesis =>
      exact DenotesAffine.neg (operandHypothesis finite)
  | negMixed operand operandHypothesis =>
      exact
        (DenotesAffine.negMixed_iff (operandHypothesis finite.1)).mpr finite.2
  | negToAffine operand operandHypothesis =>
      exact Denotes.negToAffine coefficient (operandHypothesis finite)

/-- Points are found equal exactly if they are equal in the group. -/
theorem DenotesKind.eqKind_iff
    (coefficient : E.fb ≠ 0)
    {kind other : Kind}
    {p : Coordinates K kind}
    {q : Coordinates K other}
    {P Q : E.Group}
    (left : E.DenotesKind p P)
    (right : E.DenotesKind q Q) :
    eqKind p q = true ↔ P = Q := by
  cases kind with
  | extended =>
      cases other with
      | extended =>
          exact Denotes.eq_iff left right
      | affine =>
          exact Denotes.eqMixed_iff coefficient left right
  | affine =>
      cases other with
      | extended =>
          exact (Denotes.eqMixed_iff coefficient right left).trans eq_comm
      | affine =>
          exact DenotesAffine.eqAffine_iff left right

/--
Whatever is computed from points of the curve, in whatever coordinates, has
coordinates of its value in the group, and is found equal to what has the same
value only, as long as the affine identity is not negated into extended
coordinates, which gives another point.
-/
theorem Computation.evaluate_denotes
    (coefficient : E.fb ≠ 0)
    {points : ℕ → Point K}
    {bases : ℕ → PointAffine K}
    {P B : ℕ → E.Group}
    (pointsDenote : ∀ index, E.Denotes (points index) (P index))
    (basesDenote : ∀ index, E.DenotesAffine (bases index) (B index))
    {kind otherKind : Kind}
    (computation : Computation kind)
    (other : Computation otherKind)
    (finite : computation.NegatesFinite P B)
    (otherFinite : other.NegatesFinite P B) :
    E.DenotesKind
        (computation.evaluate E points bases)
        (computation.value P B) ∧
      (eqKind
          (computation.evaluate E points bases)
          (other.evaluate E points bases) = true ↔
        computation.value P B = other.value P B) ∧
      ¬ E.DenotesKind
          ((negMixed zeroAffine).evaluate E points bases)
          ((negMixed zeroAffine).value P B) := by
  have denotes :=
    computation.evaluate_value coefficient pointsDenote basesDenote finite
  have otherDenotes :=
    other.evaluate_value coefficient pointsDenote basesDenote otherFinite
  refine ⟨denotes, denotes.eqKind_iff coefficient otherDenotes, ?_⟩
  intro negated
  exact
    (DenotesAffine.negMixed_iff
      (DenotesAffine.identity : E.DenotesAffine Curve.zeroAffine 0)).mp negated
        rfl

end Computations

section FirstGroup

open Cairo

/-- The first group of the engine (`g1`). -/
def g1 : Curve Fq :=
  initCurve 0 (3 : ℕ) 1 (2 : ℕ)

/-- Its generator is a point of the curve. -/
theorem g1_generator :
    g1.weierstrass.toAffine.Nonsingular 1 2 := by
  refine
    (WeierstrassCurve.Affine.equation_iff_nonsingular_of_Δ_ne_zero
      bn254Curve_discriminant).mp ?_
  rw [WeierstrassCurve.Affine.equation_iff]
  simp only [bn254Curve]
  norm_num

/-- Its second coefficient is not zero. -/
theorem g1_fb_ne_zero : g1.fb ≠ 0 := by
  change (3 : Fq) ≠ 0
  decide

/-- Its generator stands for that point. -/
theorem g1_foneAffine :
    g1.DenotesAffine g1.foneAffine (.some 1 2 g1_generator) :=
  .finite (fun both => one_ne_zero both.1) g1_generator

/-- Doubling the generator and subtracting its inverse are found equal. -/
theorem g1_dbl_eq_add :
    @eqKind _ _ _ .extended .affine (g1.dbl g1.one)
        (toAffine (g1.subMixed g1.one (negAffine g1.foneAffine))) = true := by
  have point :
      g1.Denotes g1.one (.some 1 2 g1_generator) := by
    have coordinates : g1.one = lift 1 2 1 := eq_lift_one 1 2
    rw [coordinates]
    exact .finite one_ne_zero g1_generator
  have computed :=
    (Computation.evaluate_denotes g1_fb_ne_zero
      (fun _ => point)
      (fun _ => g1_foneAffine)
      (.dbl (.point 0))
      (.toAffine (.subMixed (.point 0) (.negAffine (.base 0))))
      trivial ⟨trivial, trivial⟩).2.1
  refine computed.mpr ?_
  simp only [Computation.value]
  rw [two_nsmul, sub_neg_eq_add]

end FirstGroup

end Curve

end StarkCash.Rapidsnark
