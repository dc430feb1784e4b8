import Mathlib.Algebra.QuadraticAlgebra.Basic
import Mathlib.NumberTheory.LegendreSymbol.Basic
import StarkCash.BaseField
import StarkCash.CubicAlgebra
import StarkCash.Imperative
import StarkCash.TowerArithmetic

namespace StarkCash.Rapidsnark

/-!
# The tower is one of fields

The operations of the extensions are those of the rings that the roots are
adjoined to.  Over the field of the coordinates no root lies below, so each
extension is a field, and inversions invert whatever is not zero.
-/

section Additive

variable
    {K : Type}
    [Field K]
    {nr : K}

namespace F2Element

instance : Zero (F2Element K nr) :=
  ⟨F2Field.zero⟩

instance : One (F2Element K nr) :=
  ⟨F2Field.one⟩

instance : Add (F2Element K nr) :=
  ⟨F2Field.add⟩

instance : Neg (F2Element K nr) :=
  ⟨F2Field.neg⟩

instance : Sub (F2Element K nr) :=
  ⟨F2Field.sub⟩

@[simp] theorem zero_a : (0 : F2Element K nr).a = 0 := rfl
@[simp] theorem zero_b : (0 : F2Element K nr).b = 0 := rfl
@[simp] theorem one_a : (1 : F2Element K nr).a = 1 := rfl
@[simp] theorem one_b : (1 : F2Element K nr).b = 0 := rfl

variable (e f : F2Element K nr)

@[simp] theorem add_a : (e + f).a = e.a + f.a := rfl
@[simp] theorem add_b : (e + f).b = e.b + f.b := rfl
@[simp] theorem neg_a : (-e).a = -e.a := rfl
@[simp] theorem neg_b : (-e).b = -e.b := rfl
@[simp] theorem sub_a : (e - f).a = e.a - f.a := rfl
@[simp] theorem sub_b : (e - f).b = e.b - f.b := rfl

/-- The norm of an element. -/
def norm (e : F2Element K nr) : K :=
  e.a * e.a - nr * (e.b * e.b)

/-- Where the number is no square, the norm vanishes at zero only. -/
theorem norm_eq_zero_iff
    (notSquare : ¬ IsSquare nr)
    {e : F2Element K nr} :
    e.norm = 0 ↔ e = 0 := by
  constructor
  · intro vanishes
    have none : e.b = 0 := by
      by_contra some
      apply notSquare
      refine ⟨e.a / e.b, ?_⟩
      rw [norm, sub_eq_zero] at vanishes
      field_simp
      linear_combination -vanishes
    have square : e.a * e.a = 0 := by
      rw [norm, none] at vanishes
      linear_combination vanishes
    ext
    · exact mul_self_eq_zero.mp square
    · exact none
  · rintro rfl
    simp [norm]

end F2Element

namespace F2Field

variable (a b : F2Element K nr)

theorem add_eq : add a b = a + b := rfl
theorem sub_eq : sub a b = a - b := rfl
theorem neg_eq : neg a = -a := rfl
theorem dbl_eq : dbl a = a + a := rfl

end F2Field

end Additive

section Rings

variable
    {K : Type}
    [Field K]
    [DecidableEq K]
    {nr : K}

/-- Multiplying by the number is what it says, whatever its kind. -/
theorem F2Field.mulByNr_eq (nr a : K) :
    F2Field.mulByNr nr a = nr * a := by
  unfold F2Field.mulByNr F2Field.typeOfNr
  split_ifs with isZero isOne isNegone
  · simp [isZero]
  · simp [isOne]
  · simp [isNegone]
  · rfl

namespace F2Element

instance : Mul (F2Element K nr) :=
  ⟨F2Field.mul⟩

instance : Inv (F2Element K nr) :=
  ⟨F2Field.inv⟩

variable (e f : F2Element K nr)

@[simp] theorem mul_a : (e * f).a = e.a * f.a + nr * (e.b * f.b) := by
  change _ + F2Field.mulByNr nr _ = _
  rw [F2Field.mulByNr_eq]

@[simp] theorem mul_b : (e * f).b = e.a * f.b + e.b * f.a := by
  change (e.a + e.b) * (f.a + f.b) - e.a * f.a - e.b * f.b = _
  ring

instance : CommRing (F2Element K nr) where
  add_assoc a b c := by ext <;> simp [add_assoc]
  zero_add a := by ext <;> simp
  add_zero a := by ext <;> simp
  add_comm a b := by ext <;> simp [add_comm]
  neg_add_cancel a := by ext <;> simp
  sub_eq_add_neg a b := by ext <;> simp [sub_eq_add_neg]
  left_distrib a b c := by ext <;> simp <;> ring
  right_distrib a b c := by ext <;> simp <;> ring
  zero_mul a := by ext <;> simp
  mul_zero a := by ext <;> simp
  mul_assoc a b c := by ext <;> simp <;> ring
  one_mul a := by ext <;> simp
  mul_one a := by ext <;> simp
  mul_comm a b := by ext <;> simp <;> ring
  nsmul := nsmulRec
  zsmul := zsmulRec

instance : Nontrivial (F2Element K nr) :=
  ⟨0, 1, fun same => zero_ne_one (congrArg a same)⟩

/-- The elements of the base field. -/
def C : K →+* F2Element K nr where
  toFun r := ⟨r, 0⟩
  map_zero' := rfl
  map_one' := rfl
  map_add' r s := by ext <;> simp
  map_mul' r s := by ext <;> simp

@[simp] theorem C_a (r : K) : (C r : F2Element K nr).a = r := rfl
@[simp] theorem C_b (r : K) : (C r : F2Element K nr).b = 0 := rfl

/-- Different elements of the base field stay different. -/
theorem C_injective : Function.Injective (C : K →+* F2Element K nr) :=
  fun _ _ same => congrArg a same

instance (p : ℕ) [CharP K p] : CharP (F2Element K nr) p :=
  charP_of_injective_ringHom C_injective p

/-- Norms are multiplicative. -/
theorem norm_mul : (e * f).norm = e.norm * f.norm := by
  simp only [norm, mul_a, mul_b]
  ring

/-- The norm of a power is that of the norm. -/
theorem norm_pow (n : ℕ) : (e ^ n).norm = e.norm ^ n := by
  induction n with
  | zero =>
      simp [norm]
  | succ n inductionHypothesis =>
      rw [pow_succ, pow_succ, norm_mul, inductionHypothesis]

/-- An element times its conjugate gives the norm. -/
theorem mul_conjugate : e * F2Field.conjugate e = C e.norm := by
  ext
  · simp only [mul_a, F2Field.conjugate, C_a, norm]
    ring
  · simp only [mul_b, F2Field.conjugate, C_b]
    ring

/-- Inverting divides the conjugate by the norm. -/
theorem inv_eq : e⁻¹ = F2Field.conjugate e * C e.norm⁻¹ := by
  change F2Field.inv e = _
  unfold F2Field.inv
  simp only [F2Field.mulByNr_eq]
  ext <;> simp [norm, F2Field.conjugate]

instance [notSquare : Fact (¬ IsSquare nr)] : Field (F2Element K nr) where
  mul_inv_cancel e nonzero := by
    have norm : e.norm ≠ 0 :=
      mt (norm_eq_zero_iff notSquare.out).mp nonzero
    rw [inv_eq, ← mul_assoc, mul_conjugate, ← map_mul, mul_inv_cancel₀ norm,
      map_one]
  inv_zero := by
    rw [inv_eq, (norm_eq_zero_iff notSquare.out).mpr rfl, inv_zero, map_zero,
      mul_zero]
  nnqsmul := _
  nnqsmul_def := fun _ _ => rfl
  qsmul := _
  qsmul_def := fun _ _ => rfl

end F2Element

end Rings

section Squares

variable
    {K : Type}
    [Field K]
    [DecidableEq K]

/--
Squaring is multiplying by itself where the root is one of minus one.  With
other roots that is so only for elements on two lines.
-/
theorem F2Field.square_eq_mul_iff
    {nr : K}
    (e : F2Element K nr) :
    F2Field.square e = F2Field.mul e e ↔
      F2Field.typeOfNr nr = .isNegone ∨
        e.a + e.b = 0 ∨
        e.a + e.b = nr * e.b := by
  have product : F2Field.mul e e = e * e := rfl
  rw [product, F2Element.ext_iff, F2Element.mul_a, F2Element.mul_b]
  unfold F2Field.square
  split_ifs with kind
  · have isNegone : nr = -1 := by
      unfold F2Field.typeOfNr at kind
      split_ifs at kind
      assumption
    simp only [kind, true_or, iff_true]
    constructor
    · linear_combination -(e.b * e.b) * isNegone
    · ring
  · have difference :
        (e.a + e.b) * (e.a + (e.a + e.b)) -
              (e.a * e.b + F2Field.mulByNr nr (e.a * e.b)) -
            (e.a * e.a + nr * (e.b * e.b)) =
          (e.a + e.b) * (e.a + e.b - nr * e.b) := by
      rw [F2Field.mulByNr_eq]
      ring
    simp only [kind, false_or]
    rw [← sub_eq_zero, difference, mul_eq_zero, sub_eq_zero (b := nr * e.b)]
    refine and_iff_left ?_
    ring

/--
Squaring agrees with multiplying on all elements exactly with the root of minus
one, and with other roots exactly on two lines.
-/
theorem F2Field.square_agrees_iff (nr : K) :
    ((∀ e : F2Element K nr, F2Field.square e = F2Field.mul e e) ↔
        F2Field.typeOfNr nr = .isNegone) ∧
      (F2Field.typeOfNr nr ≠ .isNegone →
        ∀ e : F2Element K nr,
          F2Field.square e = F2Field.mul e e ↔
            e.a + e.b = 0 ∨ e.a + e.b = nr * e.b) := by
  refine ⟨⟨fun agrees => ?_, fun kind e => ?_⟩, fun kind e => ?_⟩
  · have one := (F2Field.square_eq_mul_iff _).mp (agrees ⟨1, 0⟩)
    simpa using one
  · exact (F2Field.square_eq_mul_iff e).mpr (.inl kind)
  · rw [F2Field.square_eq_mul_iff, or_iff_right kind]

/-- With the root of minus one, squaring is multiplying by itself. -/
theorem F2Field.square_eq
    [two : NeZero (2 : K)]
    (e : F2Element K (-1)) :
    F2Field.square e = e * e := by
  refine (F2Field.square_eq_mul_iff e).mpr (.inl ?_)
  unfold F2Field.typeOfNr
  rw [if_neg (neg_ne_zero.mpr one_ne_zero), if_neg, if_pos rfl]
  intro same
  apply two.out
  linear_combination -same

end Squares

section Extensions

variable
    {K : Type}
    [Field K]
    [DecidableEq K]

namespace F2Field

variable (a b : F2Element K (-1))

/-- The element that the second extension adjoins a cube root of. -/
def xi : F2Element K (-1) where
  a := 9
  b := 1

theorem mul_eq : mul a b = a * b := rfl
theorem inv_eq : inv a = a⁻¹ := rfl

/-- Multiplying by the element is what it says. -/
theorem mulXi_eq : mulXi a = xi * a := by
  ext
  · simp only [mulXi, xi, add_eq, dbl_eq, F2Element.mul_a, F2Element.add_a]
    ring
  · simp only [mulXi, xi, add_eq, dbl_eq, F2Element.mul_b, F2Element.add_b]
    ring

/-- Multiplying by an element of the base field is what it says. -/
theorem mulScalar_eq (r : K) : mulScalar a r = a * F2Element.C r := by
  ext <;> simp [mulScalar]

end F2Field

/-- The field of the second extension. -/
abbrev Sixth (K : Type) [Field K] [DecidableEq K] : Type :=
  CubicAlgebra (F2Element K (-1)) F2Field.xi

/-- The field of the third extension. -/
abbrev Twelfth (K : Type) [Field K] [DecidableEq K] : Type :=
  QuadraticAlgebra (Sixth K) CubicAlgebra.τ 0

/-- What an element of the second extension stands for. -/
def F6Element.value (a : F6Element K (-1)) : Sixth K :=
  ⟨a.x, a.y, a.z⟩

/-- What an element of the third extension stands for. -/
def F12Element.value (a : F12Element K (-1)) : Twelfth K :=
  ⟨a.y.value, a.x.value⟩

/-- Elements that stand for the same are the same. -/
theorem F6Element.value_injective :
    Function.Injective (F6Element.value : F6Element K (-1) → Sixth K) := by
  intro a b same
  have parts := CubicAlgebra.ext_iff.mp same
  exact F6Element.ext parts.1 parts.2.1 parts.2.2

/-- Elements that stand for the same are the same. -/
theorem F12Element.value_injective :
    Function.Injective (F12Element.value : F12Element K (-1) → Twelfth K) := by
  intro a b same
  have parts := QuadraticAlgebra.ext_iff.mp same
  exact
    F12Element.ext (F6Element.value_injective parts.2)
      (F6Element.value_injective parts.1)

namespace F6Field

variable (a b : F6Element K (-1))

@[simp] theorem value_zero : (zero : F6Element K (-1)).value = 0 := rfl
@[simp] theorem value_add : (add a b).value = a.value + b.value := rfl
@[simp] theorem value_sub : (sub a b).value = a.value - b.value := rfl
@[simp] theorem value_neg : (neg a).value = -a.value := rfl
@[simp] theorem value_dbl : (dbl a).value = a.value + a.value := rfl

/-- Six multiplications multiply. -/
@[simp] theorem value_mul : (mul a b).value = a.value * b.value := by
  ext1
  · simp only [mul, F6Element.value, CubicAlgebra.mul_x, F2Field.add_eq,
      F2Field.sub_eq, F2Field.mul_eq, F2Field.mulXi_eq]
    ring
  · simp only [mul, F6Element.value, CubicAlgebra.mul_y, F2Field.add_eq,
      F2Field.sub_eq, F2Field.mul_eq, F2Field.mulXi_eq]
    ring
  · simp only [mul, F6Element.value, CubicAlgebra.mul_z, F2Field.add_eq,
      F2Field.sub_eq, F2Field.mul_eq, F2Field.mulXi_eq]
    ring

/-- Squaring multiplies an element by itself. -/
@[simp] theorem value_square
    [NeZero (2 : K)] :
    (square a).value = a.value * a.value := by
  have product : (square a).value = (mul a a).value := by
    simp only [square, mul, F2Field.square_eq, F2Field.mul_eq]
  rw [product, value_mul]

/-- Moving the coefficients multiplies by the root. -/
@[simp] theorem value_mulTau :
    (mulTau a).value = CubicAlgebra.τ * a.value := by
  ext1
  · simp [mulTau, F6Element.value]
  · simp [mulTau, F6Element.value]
  · simp [mulTau, F6Element.value, F2Field.mulXi_eq]

/-- Scaling the coefficients multiplies by an element below. -/
@[simp] theorem value_mulScalar (c : F2Element K (-1)) :
    (mulScalar a c).value = a.value * CubicAlgebra.C c := by
  ext1 <;> simp [mulScalar, F6Element.value, F2Field.mul_eq]

end F6Field

namespace F12Field

variable (a b : F12Element K (-1))

@[simp] theorem value_zero : (zero : F12Element K (-1)).value = 0 := rfl
/-- Multiplying is what it says. -/
@[simp] theorem value_mul : (mul a b).value = a.value * b.value := by
  ext1
  · simp only [mul, F12Element.value, QuadraticAlgebra.re_mul,
      F6Field.value_add, F6Field.value_mul, F6Field.value_mulTau]
    ring
  · simp only [mul, F12Element.value, QuadraticAlgebra.im_mul,
      F6Field.value_add, F6Field.value_mul]
    ring

/-- Squaring multiplies an element by itself. -/
@[simp] theorem value_square : (square a).value = a.value * a.value := by
  ext1
  · simp only [square, F12Element.value, QuadraticAlgebra.re_mul,
      F6Field.value_add, F6Field.value_sub, F6Field.value_mul,
      F6Field.value_mulTau]
    ring
  · simp only [square, F12Element.value, QuadraticAlgebra.im_mul,
      F6Field.value_dbl, F6Field.value_mul]
    ring

/-- Scaling the coefficients multiplies by an element below. -/
@[simp] theorem value_mulScalar (c : F6Element K (-1)) :
    (mulScalar a c).value =
      a.value * algebraMap (Sixth K) (Twelfth K) c.value := by
  ext1
  · simp [mulScalar, F12Element.value]
  · simp [mulScalar, F12Element.value]

/-- The conjugate is that of the extension. -/
@[simp] theorem value_conjugate : (conjugate a).value = star a.value := by
  ext1
  · simp [conjugate, F12Element.value]
  · simp [conjugate, F12Element.value]

/-- The power by the bytes is that by their number. -/
@[simp] theorem value_exp
    (scalar : ℕ → UInt8)
    (scalarSize : ℕ) :
    (exp a scalar scalarSize).value =
      a.value ^ ByteMemory.load scalar 0 scalarSize := by
  unfold exp
  have loop :=
    @Imperative.foldr_range_invariant _ (scalarSize * 8)
      (fun i (r : F12Element K (-1)) =>
        r.value = a.value ^ (ByteMemory.load scalar 0 scalarSize / 2 ^ i))
      (fun i r =>
        let t := square r
        if (scalar (i / 8)).toNat.testBit (i % 8) then mul t a else t)
      one
      (by
        have size : (2 : ℕ) ^ (scalarSize * 8) = 256 ^ scalarSize := by
          rw [mul_comm, pow_mul]
          norm_num
        rw [size, Nat.div_eq_of_lt (ByteMemory.load_lt scalar 0 scalarSize)]
        rfl)
      (by
        intro r i inside power
        have bit := ByteMemory.testBit_load scalar 0 inside
        rw [zero_add, Nat.testBit_eq_decide_div_mod_eq] at bit
        have half :
            ByteMemory.load scalar 0 scalarSize / 2 ^ i / 2 =
              ByteMemory.load scalar 0 scalarSize / 2 ^ (i + 1) := by
          rw [Nat.div_div_eq_div_mul, ← pow_succ]
        have digits :=
          Nat.div_add_mod (ByteMemory.load scalar 0 scalarSize / 2 ^ i) 2
        rw [half] at digits
        simp only [← bit, decide_eq_true_eq]
        split_ifs with isSet
        · rw [value_mul, value_square, power, ← digits, isSet]
          ring
        · have clear :
              ByteMemory.load scalar 0 scalarSize / 2 ^ i % 2 = 0 := by
            omega
          rw [value_square, power, ← digits, clear]
          ring)
  rw [pow_zero, Nat.div_one] at loop
  exact loop

end F12Field

end Extensions

section Inverses

variable
    {K : Type}
    [Field K]
    [DecidableEq K]
    [notSquare : Fact (¬ IsSquare (-1 : K))]

instance two_neZero : NeZero (2 : K) :=
  ⟨fun two => notSquare.out ⟨1, by linear_combination -two⟩⟩

/-- Inverting inverts, where the element has no cube root. -/
@[simp] theorem F6Field.value_inv
    [Fact (∀ b : F2Element K (-1), b ^ 3 ≠ F2Field.xi)]
    (a : F6Element K (-1)) :
    (F6Field.inv a).value = a.value⁻¹ := by
  rw [CubicAlgebra.inv_eq_mk]
  unfold F6Field.inv F6Element.value CubicAlgebra.norm CubicAlgebra.adjugate
  simp only [F2Field.mul_eq, F2Field.mulXi_eq, F2Field.sub_eq, F2Field.add_eq,
    F2Field.inv_eq, F2Field.square_eq]

/-- Inverting inverts, where the root has no square root. -/
@[simp] theorem F12Field.value_inv
    [Fact (∀ b : F2Element K (-1), b ^ 3 ≠ F2Field.xi)]
    [Fact (∀ r : Sixth K, r ^ 2 ≠ CubicAlgebra.τ + 0 * r)]
    (a : F12Element K (-1)) :
    (F12Field.inv a).value = a.value⁻¹ := by
  have norm :
      (F6Field.inv
          (F6Field.sub (F6Field.square a.y)
            (F6Field.mulTau (F6Field.square a.x)))).value =
        a.value.norm⁻¹ := by
    simp only [F6Field.value_inv, F6Field.value_sub, F6Field.value_square,
      F6Field.value_mulTau, QuadraticAlgebra.norm_def, F12Element.value]
    congr 1
    ring
  unfold F12Field.inv
  rw [F12Field.value_mulScalar, F12Field.value_conjugate, norm,
    QuadraticAlgebra.inv_def, Algebra.smul_def, mul_comm]

end Inverses

section Coordinates

open Cairo

/-- Minus one has no square root. -/
instance fq_neg_one_not_square : Fact (¬ IsSquare (-1 : Fq)) :=
  ⟨by
    rw [ZMod.exists_sq_eq_neg_one_iff]
    decide⟩

/-- The norm of the element that a cube root is adjoined of. -/
theorem norm_xi : (F2Field.xi : F2Element Fq (-1)).norm = (82 : ℕ) := by
  decide +kernel

/-- A number whose power by a part of the order is not one has no root. -/
theorem fq_pow_ne
    {number degree : ℕ}
    (divides : degree ∣ bn254BasePrime - 1)
    (nonzero : (number : Fq) ≠ 0)
    (power :
      LucasCertificate.power bn254BasePrime number
          ((bn254BasePrime - 1) / degree) ≠
        1)
    (root : Fq) :
    root ^ degree ≠ number := by
  intro isRoot
  apply power
  have large : 1 < bn254BasePrime := bn254BasePrime_prime.one_lt
  have fits : (bn254BasePrime - 1) / degree < 2 ^ 256 :=
    (Nat.div_le_self _ _).trans_lt (by decide)
  rw [LucasCertificate.power_eq_one_iff large fits, ← isRoot, ← pow_mul,
    Nat.mul_div_cancel' divides]
  refine ZMod.pow_card_sub_one_eq_one ?_
  rintro rfl
  apply nonzero
  rw [← isRoot, zero_pow]
  rintro rfl
  exact absurd (Nat.eq_zero_of_zero_dvd divides) (by decide)

/-- The norm has no square root. -/
theorem norm_xi_ne_sq (root : Fq) : root ^ 2 ≠ (82 : ℕ) :=
  fq_pow_ne (by decide) (by decide) (by decide +kernel) root

/-- The norm has no cube root. -/
theorem norm_xi_ne_cube (root : Fq) : root ^ 3 ≠ (82 : ℕ) :=
  fq_pow_ne (by decide) (by decide) (by decide +kernel) root

/-- The element has no cube root. -/
instance xi_not_cube :
    Fact (∀ b : F2Element Fq (-1), b ^ 3 ≠ F2Field.xi) :=
  ⟨by
    intro b isRoot
    apply norm_xi_ne_cube b.norm
    rw [← norm_xi, ← isRoot, F2Element.norm_pow]⟩

/-- The cube root has no square root. -/
instance tau_not_square :
    Fact (∀ r : Sixth Fq, r ^ 2 ≠ CubicAlgebra.τ + 0 * r) :=
  ⟨by
    intro r isRoot
    rw [zero_mul, add_zero] at isRoot
    have norms := congrArg CubicAlgebra.norm isRoot
    rw [CubicAlgebra.norm_pow, CubicAlgebra.norm_τ] at norms
    have square := congrArg F2Element.norm norms
    rw [F2Element.norm_pow, norm_xi] at square
    exact norm_xi_ne_sq _ square⟩

end Coordinates

end StarkCash.Rapidsnark
