import Mathlib.AlgebraicGeometry.EllipticCurve.Affine.Point
import StarkCash.CurveCheck

namespace StarkCash.Cairo

/-!
# The group of curve points

The first group of BN254: the points of `y² = x³ + 3` over the field with
`bn254BasePrime` elements.  The primality of its order is certified by Lucas'
criterion, as that of the scalar field.  A pair of coordinates denotes the
point that has them; `(0, 0)` is off the curve and stands for the identity.
-/

section Divisors

/-- Certified divisor `11465965001`. -/
private theorem prime_11465965001 :
    Nat.Prime 11465965001 :=
  LucasCertificate.prime_of_check 3
    [(2, 3), (5, 4), (7, 1), (327599, 1)]
    (by norm_num)
    (by decide +kernel)

/-- Certified divisor `173171039`. -/
private theorem prime_173171039 :
    Nat.Prime 173171039 :=
  LucasCertificate.prime_of_check 13
    [(2, 1), (73, 1), (89, 1), (13327, 1)]
    (by norm_num)
    (by decide +kernel)

/-- Certified divisor `1263766531`. -/
private theorem prime_1263766531 :
    Nat.Prime 1263766531 :=
  LucasCertificate.prime_of_check 10
    [(2, 1), (3, 1), (5, 1), (13, 1), (911, 1), (3557, 1)]
    (by norm_num)
    (by decide +kernel)

/-- Certified divisor `35385462869`. -/
private theorem prime_35385462869 :
    Nat.Prime 35385462869 :=
  LucasCertificate.prime_of_check 2
    [(2, 2), (7, 1), (1263766531, 1)]
    (by simp only [List.forall_mem_cons, prime_1263766531]; norm_num)
    (by decide +kernel)

/-- Certified divisor `2480874801745591`. -/
private theorem prime_2480874801745591 :
    Nat.Prime 2480874801745591 :=
  LucasCertificate.prime_of_check 6
    [(2, 1), (3, 2), (5, 1), (19, 1), (41, 1), (35385462869, 1)]
    (by simp only [List.forall_mem_cons, prime_35385462869]; norm_num)
    (by decide +kernel)

/-- Certified divisor `13427688667394608761327070753331941386769`. -/
private theorem prime_13427688667394608761327070753331941386769 :
    Nat.Prime 13427688667394608761327070753331941386769 :=
  LucasCertificate.prime_of_check 17
    [(2, 4), (3, 1), (7, 1), (11, 1), (1853641, 1), (4562087, 1),
      (173171039, 1), (2480874801745591, 1)]
    (by
      simp only [List.forall_mem_cons, prime_173171039,
        prime_2480874801745591]
      norm_num)
    (by decide +kernel)

end Divisors

section Field

/-- The order of the base field is prime. -/
theorem bn254BasePrime_prime :
    Nat.Prime bn254BasePrime :=
  LucasCertificate.prime_of_check 3
    [(2, 1), (3, 2), (13, 1), (29, 1), (67, 1), (229, 1), (311, 1), (983, 1),
      (11003, 1), (405928799, 1), (11465965001, 1),
      (13427688667394608761327070753331941386769, 1)]
    (by
      simp only [List.forall_mem_cons, prime_405928799, prime_11465965001,
        prime_13427688667394608761327070753331941386769]
      norm_num)
    (by decide +kernel)

instance : Fact (Nat.Prime bn254BasePrime) :=
  ⟨bn254BasePrime_prime⟩

/-- The field of the coordinates (`ark_bn254::Fq`). -/
abbrev Fq : Type :=
  ZMod bn254BasePrime

/-- Coordinates below the prime are determined by their residues. -/
theorem natCast_fq_inj
    {left right : ℕ}
    (leftFits : left < bn254BasePrime)
    (rightFits : right < bn254BasePrime)
    (same : (left : Fq) = right) :
    left = right := by
  have congruent := (ZMod.natCast_eq_natCast_iff' _ _ _).mp same
  rwa [Nat.mod_eq_of_lt leftFits, Nat.mod_eq_of_lt rightFits] at congruent

end Field

section Group

/-- The curve `y² = x³ + 3`. -/
def bn254Curve : WeierstrassCurve Fq where
  a₁ := 0
  a₂ := 0
  a₃ := 0
  a₄ := 0
  a₆ := 3

/-- The first group of BN254. -/
abbrev Bn254G1 : Type :=
  bn254Curve.toAffine.Point

/-- The curve has no singular point. -/
theorem bn254Curve_discriminant :
    bn254Curve.Δ ≠ 0 := by
  have value : bn254Curve.Δ = -(3888 : Fq) := by
    simp only [bn254Curve, WeierstrassCurve.Δ, WeierstrassCurve.b₂,
      WeierstrassCurve.b₄, WeierstrassCurve.b₆, WeierstrassCurve.b₈]
    ring
  rw [value]
  decide +kernel

namespace G1Point

/-- The coordinates of a point of the curve solve its equation. -/
theorem OnCurve.nonsingular
    {point : G1Point}
    (onCurve : point.OnCurve) :
    bn254Curve.toAffine.Nonsingular
      (point.x.toNat : Fq)
      (point.y.toNat : Fq) := by
  have equation :
      bn254Curve.toAffine.Equation
        (point.x.toNat : Fq)
        (point.y.toNat : Fq) := by
    have residues :=
      (ZMod.natCast_eq_natCast_iff _ _ _).mpr onCurve.equation
    push_cast at residues
    rw [WeierstrassCurve.Affine.equation_iff]
    simp only [bn254Curve, zero_mul, add_zero]
    exact residues.symm
  exact
    (WeierstrassCurve.Affine.equation_iff_nonsingular_of_Δ_ne_zero
      bn254Curve_discriminant).mp equation

/-- The pair `(0, 0)` is not on the curve. -/
theorem OnCurve.not_zero
    {point : G1Point}
    (onCurve : point.OnCurve) :
    ¬ (point.x = 0 ∧ point.y = 0) :=
  onCurve.not_coordinates (by decide)

/-- The group element of a pair of coordinates. -/
def toGroup (point : G1Point) : Bn254G1 :=
  if onCurve : point.OnCurve then
    .some _ _ onCurve.nonsingular
  else
    0

/-- A point of the curve is not the identity. -/
theorem OnCurve.toGroup_ne_zero
    {point : G1Point}
    (onCurve : point.OnCurve) :
    point.toGroup ≠ 0 := by
  rw [toGroup, dif_pos onCurve]
  exact WeierstrassCurve.Affine.Point.some_ne_zero _

/-- Points of the curve are determined by their group elements. -/
theorem OnCurve.eq_of_toGroup_eq
    {point other : G1Point}
    (onCurve : point.OnCurve)
    (otherOnCurve : other.OnCurve)
    (same : point.toGroup = other.toGroup) :
    point = other := by
  rw [toGroup, dif_pos onCurve, toGroup, dif_pos otherOnCurve] at same
  obtain ⟨sameX, sameY⟩ :=
    WeierstrassCurve.Affine.Point.some.inj same
  have x := natCast_fq_inj onCurve.x otherOnCurve.x sameX
  have y := natCast_fq_inj onCurve.y otherOnCurve.y sameY
  cases point
  cases other
  congr 1
  · exact BitVec.eq_of_toNat_eq x
  · exact BitVec.eq_of_toNat_eq y

end G1Point

end Group

end StarkCash.Cairo
