import Mathlib.Algebra.CharP.Algebra
import Mathlib.FieldTheory.KummerPolynomial

/-!
# Adjoining a cube root

The elements `x τ² + y τ + z` over a ring, with `τ³ = ξ`.  Their norm is a
multiplicative map to the ring, and over a field in which `ξ` is no cube it
vanishes at zero only, so that the elements are a field.
-/

/-- The elements `x τ² + y τ + z`. -/
@[ext]
structure CubicAlgebra
    (R : Type)
    (ξ : R) where
  x : R
  y : R
  z : R
  deriving DecidableEq

namespace CubicAlgebra

section Ring

variable
    {R : Type}
    [CommRing R]
    {ξ : R}

instance : Zero (CubicAlgebra R ξ) :=
  ⟨⟨0, 0, 0⟩⟩

instance : One (CubicAlgebra R ξ) :=
  ⟨⟨0, 0, 1⟩⟩

instance : Add (CubicAlgebra R ξ) :=
  ⟨fun a b => ⟨a.x + b.x, a.y + b.y, a.z + b.z⟩⟩

instance : Neg (CubicAlgebra R ξ) :=
  ⟨fun a => ⟨-a.x, -a.y, -a.z⟩⟩

instance : Sub (CubicAlgebra R ξ) :=
  ⟨fun a b => ⟨a.x - b.x, a.y - b.y, a.z - b.z⟩⟩

instance : Mul (CubicAlgebra R ξ) :=
  ⟨fun a b =>
    { x := a.x * b.z + a.y * b.y + a.z * b.x
      y := a.y * b.z + a.z * b.y + ξ * (a.x * b.x)
      z := a.z * b.z + ξ * (a.x * b.y + a.y * b.x) }⟩

@[simp] theorem zero_x : (0 : CubicAlgebra R ξ).x = 0 := rfl
@[simp] theorem zero_y : (0 : CubicAlgebra R ξ).y = 0 := rfl
@[simp] theorem zero_z : (0 : CubicAlgebra R ξ).z = 0 := rfl
@[simp] theorem one_x : (1 : CubicAlgebra R ξ).x = 0 := rfl
@[simp] theorem one_y : (1 : CubicAlgebra R ξ).y = 0 := rfl
@[simp] theorem one_z : (1 : CubicAlgebra R ξ).z = 1 := rfl

variable (a b : CubicAlgebra R ξ)

@[simp] theorem add_x : (a + b).x = a.x + b.x := rfl
@[simp] theorem add_y : (a + b).y = a.y + b.y := rfl
@[simp] theorem add_z : (a + b).z = a.z + b.z := rfl
@[simp] theorem neg_x : (-a).x = -a.x := rfl
@[simp] theorem neg_y : (-a).y = -a.y := rfl
@[simp] theorem neg_z : (-a).z = -a.z := rfl
@[simp] theorem sub_x : (a - b).x = a.x - b.x := rfl
@[simp] theorem sub_y : (a - b).y = a.y - b.y := rfl
@[simp] theorem sub_z : (a - b).z = a.z - b.z := rfl

@[simp] theorem mul_x :
    (a * b).x = a.x * b.z + a.y * b.y + a.z * b.x :=
  rfl

@[simp] theorem mul_y :
    (a * b).y = a.y * b.z + a.z * b.y + ξ * (a.x * b.x) :=
  rfl

@[simp] theorem mul_z :
    (a * b).z = a.z * b.z + ξ * (a.x * b.y + a.y * b.x) :=
  rfl

instance : CommRing (CubicAlgebra R ξ) where
  add_assoc a b c := by ext <;> simp [add_assoc]
  zero_add a := by ext <;> simp
  add_zero a := by ext <;> simp
  add_comm a b := by ext <;> simp [add_comm]
  neg_add_cancel a := by ext <;> simp
  sub_eq_add_neg a b := by ext <;> simp [sub_eq_add_neg]
  left_distrib a b c := by ext <;> simp <;> ring
  right_distrib a b c := by ext <;> simp <;> ring
  zero_mul a := by ext <;> simp
  mul_zero a := by ext <;> simp
  mul_assoc a b c := by ext <;> simp <;> ring
  one_mul a := by ext <;> simp
  mul_one a := by ext <;> simp
  mul_comm a b := by ext <;> simp <;> ring
  nsmul := nsmulRec
  zsmul := zsmulRec

instance [Nontrivial R] : Nontrivial (CubicAlgebra R ξ) :=
  ⟨0, 1, fun same => zero_ne_one (congrArg z same)⟩

/-- The elements of the ring. -/
def C : R →+* CubicAlgebra R ξ where
  toFun r := ⟨0, 0, r⟩
  map_zero' := rfl
  map_one' := rfl
  map_add' r s := by ext <;> simp
  map_mul' r s := by ext <;> simp

@[simp] theorem C_x (r : R) : (C r : CubicAlgebra R ξ).x = 0 := rfl
@[simp] theorem C_y (r : R) : (C r : CubicAlgebra R ξ).y = 0 := rfl
@[simp] theorem C_z (r : R) : (C r : CubicAlgebra R ξ).z = r := rfl

/-- The adjoined root. -/
def τ : CubicAlgebra R ξ :=
  ⟨0, 1, 0⟩

@[simp] theorem τ_x : (τ : CubicAlgebra R ξ).x = 0 := rfl
@[simp] theorem τ_y : (τ : CubicAlgebra R ξ).y = 1 := rfl
@[simp] theorem τ_z : (τ : CubicAlgebra R ξ).z = 0 := rfl

/-- Different elements of the ring stay different. -/
theorem C_injective : Function.Injective (C : R →+* CubicAlgebra R ξ) :=
  fun _ _ same => congrArg z same

/-- It is a root. -/
theorem τ_pow_three : (τ : CubicAlgebra R ξ) ^ 3 = C ξ := by
  rw [pow_succ, pow_two]
  ext <;> simp

/-- Every element is made of the root. -/
theorem eq_sum (a : CubicAlgebra R ξ) :
    a = C a.x * τ ^ 2 + C a.y * τ + C a.z := by
  rw [pow_two]
  ext <;> simp

instance (p : ℕ) [CharP R p] : CharP (CubicAlgebra R ξ) p :=
  charP_of_injective_ringHom C_injective p

/-- What an element is multiplied by to get its norm. -/
def adjugate (a : CubicAlgebra R ξ) : CubicAlgebra R ξ where
  x := a.y * a.y - a.x * a.z
  y := ξ * (a.x * a.x) - a.y * a.z
  z := a.z * a.z - ξ * (a.x * a.y)

/-- The norm of an element. -/
def norm (a : CubicAlgebra R ξ) : R :=
  ξ * (a.adjugate.x * a.y) + a.adjugate.z * a.z + ξ * (a.adjugate.y * a.x)

/-- An element times the other gives the norm. -/
theorem mul_adjugate (a : CubicAlgebra R ξ) :
    a * a.adjugate = C a.norm := by
  ext <;> simp [adjugate, norm] <;> ring

/-- Norms are multiplicative. -/
theorem norm_mul (a b : CubicAlgebra R ξ) :
    (a * b).norm = a.norm * b.norm := by
  simp only [norm, adjugate, mul_x, mul_y, mul_z]
  ring

/-- The norm of one. -/
@[simp] theorem norm_one : (1 : CubicAlgebra R ξ).norm = 1 := by
  simp [norm, adjugate]

/-- The norm of a power is that of the norm. -/
theorem norm_pow (a : CubicAlgebra R ξ) (n : ℕ) :
    (a ^ n).norm = a.norm ^ n := by
  induction n with
  | zero =>
      simp
  | succ n inductionHypothesis =>
      rw [pow_succ, pow_succ, norm_mul, inductionHypothesis]

/-- The norm of the root. -/
@[simp] theorem norm_τ : (τ : CubicAlgebra R ξ).norm = ξ := by
  simp [norm, adjugate]

/-- An element with a norm has an inverse. -/
theorem norm_ne_zero_of_mul_eq_one
    [Nontrivial R]
    {a b : CubicAlgebra R ξ}
    (inverse : b * a = 1) :
    a.norm ≠ 0 := by
  intro vanishes
  have product := norm_mul b a
  rw [inverse, norm_one, vanishes, mul_zero] at product
  exact one_ne_zero product

end Ring

section Fields

open Polynomial

variable
    {K : Type}
    [Field K]
    {ξ : K}
    [notCube : Fact (∀ b : K, b ^ 3 ≠ ξ)]

/-- The norm vanishes at zero only. -/
theorem norm_eq_zero_iff
    {a : CubicAlgebra K ξ} :
    a.norm = 0 ↔ a = 0 := by
  constructor
  · intro vanishes
    by_contra nonzero
    let f : K[X] := X ^ 3 - Polynomial.C ξ
    let g : K[X] :=
      Polynomial.C a.x * X ^ 2 + Polynomial.C a.y * X + Polynomial.C a.z
    have irreducible : Irreducible f :=
      X_pow_sub_C_irreducible_of_prime Nat.prime_three notCube.out
    have notZero : g ≠ 0 := by
      intro zero
      have coefficients : g.coeff 2 = a.x ∧ g.coeff 1 = a.y ∧ g.coeff 0 = a.z := by
        refine ⟨?_, ?_, ?_⟩ <;> simp [g, coeff_X, coeff_C]
      rw [zero] at coefficients
      apply nonzero
      ext
      · exact coefficients.1.symm
      · exact coefficients.2.1.symm
      · exact coefficients.2.2.symm
    have degree : g.degree < f.degree := by
      rw [degree_X_pow_sub_C (by norm_num)]
      exact degree_quadratic_lt
    obtain ⟨u, v, identity⟩ :=
      (irreducible.coprime_iff_not_dvd).mpr (not_dvd_of_degree_lt notZero degree)
    have evaluated := congrArg (eval₂ (C : K →+* CubicAlgebra K ξ) τ) identity
    have root : eval₂ (C : K →+* CubicAlgebra K ξ) τ f = 0 := by
      simp [f, τ_pow_three]
    have element : eval₂ (C : K →+* CubicAlgebra K ξ) τ g = a := by
      conv_rhs => rw [a.eq_sum]
      simp [g]
    rw [eval₂_add, eval₂_mul, eval₂_mul, root, element, mul_zero, zero_add,
      eval₂_one] at evaluated
    exact norm_ne_zero_of_mul_eq_one evaluated vanishes
  · rintro rfl
    simp [norm, adjugate]

instance : Inv (CubicAlgebra K ξ) :=
  ⟨fun a => C a.norm⁻¹ * a.adjugate⟩

omit notCube in
/-- The inverse comes from the norm. -/
theorem inv_eq (a : CubicAlgebra K ξ) :
    a⁻¹ = C a.norm⁻¹ * a.adjugate :=
  rfl

omit notCube in
/-- The coefficients of the inverse. -/
theorem inv_eq_mk (a : CubicAlgebra K ξ) :
    a⁻¹ =
      { x := a.adjugate.x * a.norm⁻¹
        y := a.adjugate.y * a.norm⁻¹
        z := a.adjugate.z * a.norm⁻¹ } := by
  rw [inv_eq, mul_comm]
  ext
  · simp only [mul_x, C_x, C_y, C_z, mul_zero, add_zero]
  · simp only [mul_y, C_x, C_y, C_z, mul_zero, add_zero]
  · simp only [mul_z, C_x, C_y, C_z, mul_zero, add_zero]

instance : Field (CubicAlgebra K ξ) where
  mul_inv_cancel a nonzero := by
    rw [inv_eq, mul_left_comm, mul_adjugate, ← map_mul,
      inv_mul_cancel₀ (mt norm_eq_zero_iff.mp nonzero), map_one]
  inv_zero := by
    rw [inv_eq, norm_eq_zero_iff.mpr rfl, inv_zero, map_zero, zero_mul]
  nnqsmul := _
  nnqsmul_def := fun _ _ => rfl
  qsmul := _
  qsmul_def := fun _ _ => rfl

end Fields

end CubicAlgebra
