import StarkCash.TowerFields

namespace StarkCash.Rapidsnark

/-!
# The final exponentiation

The Frobenius maps are powers by the order of the field of the coordinates and
its square, which their constants make cheap.  With them the verifier raises a
product of pairings to the order of the units over that of the groups, by the
chain of multiplications that `finalExponentiation` writes out.
-/

section Definitions

variable
    {K : Type}
    [Field K]
    [DecidableEq K]
    {nr : K}

namespace F12Field

/-- The first part of the exponent, by one inversion. -/
def easyPart
    (F : F12Field K nr)
    (a : F12Element K nr) : F12Element K nr :=
  let t1 : F12Element K nr := { x := F6Field.neg a.x, y := a.y }
  let inv := inv a
  let t1 := mul t1 inv
  let t2 := F.FrobeniusP2 t1
  mul t1 t2

/-- The number that the curve comes from (`u`). -/
def curveNumber : ℕ :=
  4965661367192848881

/-- The second part of the exponent, by powers of the number. -/
def hardPart
    (F : F12Field K nr)
    (t1 : F12Element K nr) : F12Element K nr :=
  let u := ByteMemory.bytes curveNumber
  let fp := F.Frobenius t1
  let fp2 := F.FrobeniusP2 t1
  let fp3 := F.Frobenius fp2
  let fu := exp t1 u 8
  let fu2 := exp fu u 8
  let fu3 := exp fu2 u 8
  let y3 := F.Frobenius fu
  let fu2p := F.Frobenius fu2
  let fu3p := F.Frobenius fu3
  let y2 := F.FrobeniusP2 fu2
  let y0 := mul fp fp2
  let y0 := mul y0 fp3
  let y1 := conjugate t1
  let y5 := conjugate fu2
  let y3 := conjugate y3
  let y4 := mul fu fu2p
  let y4 := conjugate y4
  let y6 := mul fu3 fu3p
  let y6 := conjugate y6
  let t0 := square y6
  let t0 := mul t0 y4
  let t0 := mul t0 y5
  let t1 := mul y3 y5
  let t1 := mul t1 t0
  let t0 := mul t0 y2
  let t1 := square t1
  let t1 := mul t1 t0
  let t1 := square t1
  let t0 := mul t1 y1
  let t1 := mul t1 y0
  let t0 := square t0
  mul t0 t1

/-- The power that a product of pairings is raised to. -/
def finalExponentiation
    (F : F12Field K nr)
    (a : F12Element K nr) : F12Element K nr :=
  F.hardPart (F.easyPart a)

end F12Field

end Definitions

section Chain

variable
    {K : Type}
    [Field K]
    [DecidableEq K]
    {F : F12Field K (-1)}
    {p : ℕ}

/-- The Frobenius maps and the conjugate are the powers they stand for. -/
structure F12Field.Powers
    (F : F12Field K (-1))
    (p : ℕ) : Prop where
  frobenius : ∀ a, (F.Frobenius a).value = a.value ^ p
  frobeniusP2 : ∀ a, (F.FrobeniusP2 a).value = a.value ^ p ^ 2
  conjugate : ∀ a : F12Element K (-1), (conjugate a).value = a.value ^ p ^ 6

/-- A power by the number of the curve. -/
theorem F12Field.value_exp_curveNumber (a : F12Element K (-1)) :
    (F12Field.exp a (ByteMemory.bytes F12Field.curveNumber) 8).value =
      a.value ^ F12Field.curveNumber := by
  rw [F12Field.value_exp, ByteMemory.load_bytes]
  rfl

/--
The chain of the second part multiplies powers of an element with powers of
its inverse.
-/
theorem F12Field.Powers.value_hardPart
    (powers : F.Powers p)
    {a : F12Element K (-1)}
    {inverse : Twelfth K}
    (isInverse : a.value ^ p ^ 6 = inverse) :
    let u := F12Field.curveNumber
    (F.hardPart a).value =
      a.value ^ (p + p ^ 2 + p ^ 3 + 6 * (u ^ 2 * p ^ 2)) *
        inverse ^
          (2 + 12 * (u * p) + 18 * (u + u ^ 2 * p) + 30 * u ^ 2 +
            36 * (u ^ 3 + u ^ 3 * p)) := by
  intro u
  have number := @F12Field.value_exp_curveNumber K _ _
  have turn :
      ∀ {b : F12Element K (-1)} {n : ℕ},
        b.value = a.value ^ n →
        (F12Field.conjugate b).value = inverse ^ n := by
    intro b n power
    rw [powers.conjugate, power, ← pow_mul, mul_comm, pow_mul, isInverse]
  unfold F12Field.hardPart
  extract_lets bytes fp fp2 fp3 fu fu2 fu3 powerFu fu2p fu3p y2 pair0 y0 y1 y5 y3
    pair4 y4 pair6 y6 sixes sixes4 sixes45 threes threes6 sixes452 squared merged
    doubled final1 final0 final
  have isFp : fp.value = a.value ^ p := powers.frobenius a
  have isFp2 : fp2.value = a.value ^ p ^ 2 := powers.frobeniusP2 a
  have isFp3 : fp3.value = a.value ^ p ^ 3 := by
    rw [powers.frobenius, isFp2, ← pow_mul, ← pow_succ]
  have isFu : fu.value = a.value ^ u := number a
  have isFu2 : fu2.value = a.value ^ u ^ 2 := by
    rw [number, isFu, ← pow_mul, ← pow_two]
  have isFu3 : fu3.value = a.value ^ u ^ 3 := by
    rw [number, isFu2, ← pow_mul, ← pow_succ]
  have isFu2p : fu2p.value = a.value ^ (u ^ 2 * p) := by
    rw [powers.frobenius, isFu2, ← pow_mul]
  have isFu3p : fu3p.value = a.value ^ (u ^ 3 * p) := by
    rw [powers.frobenius, isFu3, ← pow_mul]
  have isY2 : y2.value = a.value ^ (u ^ 2 * p ^ 2) := by
    rw [powers.frobeniusP2, isFu2, ← pow_mul]
  have isY0 : y0.value = a.value ^ (p + p ^ 2 + p ^ 3) := by
    rw [F12Field.value_mul, F12Field.value_mul, isFp, isFp2, isFp3, ← pow_add,
      ← pow_add]
  have isY1 : y1.value = inverse ^ 1 := turn (pow_one _).symm
  have isY5 : y5.value = inverse ^ u ^ 2 := turn isFu2
  have isY3 : y3.value = inverse ^ (u * p) := by
    refine turn ?_
    rw [powers.frobenius, isFu, ← pow_mul]
  have isY4 : y4.value = inverse ^ (u + u ^ 2 * p) := by
    refine turn ?_
    rw [F12Field.value_mul, isFu, isFu2p, ← pow_add]
  have isY6 : y6.value = inverse ^ (u ^ 3 + u ^ 3 * p) := by
    refine turn ?_
    rw [F12Field.value_mul, isFu3, isFu3p, ← pow_add]
  simp only [sixes, sixes4, sixes45, threes, threes6, sixes452, squared, merged,
    doubled, final1, final0, final, F12Field.value_mul, F12Field.value_square,
    isY0, isY1, isY2, isY3, isY4, isY5, isY6]
  generalize a.value = t
  generalize u = number
  ring

/-- The conjugate of the conjugate is the element. -/
theorem F12Field.Powers.pow_pow
    (powers : F.Powers p)
    (a : F12Element K (-1)) :
    (a.value ^ p ^ 6) ^ p ^ 6 = a.value := by
  rw [← powers.conjugate, ← powers.conjugate, F12Field.value_conjugate,
    F12Field.value_conjugate, star_star]

section Inverses

variable
    [Fact (¬ IsSquare (-1 : K))]
    [Fact (∀ b : F2Element K (-1), b ^ 3 ≠ F2Field.xi)]
    [Fact (∀ r : Sixth K, r ^ 2 ≠ CubicAlgebra.τ + 0 * r)]

/-- The first part divides the conjugate and takes the power of two degrees. -/
theorem F12Field.Powers.value_easyPart
    (powers : F.Powers p)
    (a : F12Element K (-1)) :
    (F.easyPart a).value =
      (a.value ^ p ^ 6 * a.value⁻¹) ^ (p ^ 2 + 1) := by
  have quotient :
      (F12Field.mul { x := F6Field.neg a.x, y := a.y } (F12Field.inv a)).value =
        a.value ^ p ^ 6 * a.value⁻¹ := by
    rw [F12Field.value_mul, F12Field.value_inv, ← powers.conjugate]
    rfl
  unfold F12Field.easyPart
  simp only [F12Field.value_mul _ (F.FrobeniusP2 _), powers.frobeniusP2,
    quotient]
  rw [pow_succ _ (p ^ 2), mul_comm]

/-- Conjugating what the first part leaves inverts it. -/
theorem F12Field.Powers.pow_easyPart
    (powers : F.Powers p)
    (a : F12Element K (-1)) :
    (F.easyPart a).value ^ p ^ 6 = ((F.easyPart a).value)⁻¹ := by
  have turned :
      (a.value ^ p ^ 6 * a.value⁻¹) ^ p ^ 6 =
        (a.value ^ p ^ 6 * a.value⁻¹)⁻¹ := by
    rw [mul_pow, powers.pow_pow, inv_pow, mul_inv, inv_inv, mul_comm]
  rw [powers.value_easyPart, pow_right_comm, turned, inv_pow]

/-- The units of the third extension have an order. -/
theorem F12Field.Powers.pow_pred_order
    (powers : F.Powers p)
    (positive : 0 < p)
    {a : F12Element K (-1)}
    (nonzero : a ≠ F12Field.zero) :
    a.value ^ (p ^ 12 - 1) = 1 := by
  have some : a.value ≠ 0 := by
    intro none
    exact
      nonzero (F12Element.value_injective (none.trans F12Field.value_zero.symm))
  have period : a.value ^ p ^ 12 = a.value := by
    have split : p ^ 12 = p ^ 6 * p ^ 6 := by ring
    rw [split, pow_mul, powers.pow_pow]
  refine mul_right_cancel₀ some ?_
  rw [← pow_succ, Nat.sub_add_cancel (Nat.one_le_pow _ _ positive), period,
    one_mul]

/-- With its numbers related, the chain is one power. -/
theorem F12Field.Powers.value_finalExponentiation
    (powers : F.Powers p)
    (large : 1 < p)
    {hard : ℕ}
    (positive : 0 < hard)
    (exponent :
      let u := F12Field.curveNumber
      p + p ^ 2 + p ^ 3 + 6 * (u ^ 2 * p ^ 2) =
        hard +
          (2 + 12 * (u * p) + 18 * (u + u ^ 2 * p) + 30 * u ^ 2 +
            36 * (u ^ 3 + u ^ 3 * p)))
    (a : F12Element K (-1)) :
    (F.finalExponentiation a).value =
      a.value ^ ((p ^ 6 - 1) * (p ^ 2 + 1) * hard) := by
  have more : 1 < p ^ 6 := Nat.one_lt_pow (by decide) large
  unfold F12Field.finalExponentiation
  rw [powers.value_hardPart rfl, powers.value_easyPart]
  by_cases zero : a.value = 0
  · have total : (p ^ 6 - 1) * (p ^ 2 + 1) * hard ≠ 0 := by
      refine Nat.mul_ne_zero (Nat.mul_ne_zero ?_ ?_) positive.ne'
      · omega
      · omega
    rw [zero, inv_zero, mul_zero, zero_pow (Nat.succ_ne_zero _),
      zero_pow (by omega), zero_mul, zero_pow total]
  · rw [← powers.value_easyPart, powers.pow_easyPart]
    have nonzero : (F.easyPart a).value ≠ 0 := by
      rw [powers.value_easyPart]
      exact
        pow_ne_zero _ (mul_ne_zero (pow_ne_zero _ zero) (inv_ne_zero zero))
    simp only at exponent
    rw [exponent, pow_add, mul_assoc, ← mul_pow, mul_inv_cancel₀ nonzero,
      one_pow, mul_one, powers.value_easyPart, pow_mul, pow_mul]
    congr 2
    rw [pow_sub₀ _ zero more.le, pow_one]

end Inverses

end Chain

section Frobenius

variable
    {K : Type}
    [Field K]
    [DecidableEq K]
    {p n : ℕ}
    [Fact p.Prime]
    [CharP K p]

namespace F2Field

/-- Conjugating is multiplicative. -/
theorem conjugate_mul (a b : F2Element K (-1)) :
    conjugate (a * b) = conjugate a * conjugate b := by
  ext
  · simp [conjugate]
  · simp only [conjugate, F2Element.mul_b]
    ring

omit [DecidableEq K] in
/-- Conjugating twice changes nothing. -/
@[simp] theorem conjugate_conjugate (a : F2Element K (-1)) :
    conjugate (conjugate a) = a := by
  ext <;> simp [conjugate]

/-- Conjugating is the power by the order of the base field. -/
theorem pow_eq_conjugate
    (fixed : ∀ r : K, r ^ p = r)
    (shape : p = 12 * n + 7)
    (a : F2Element K (-1)) :
    a ^ p = conjugate a := by
  let root : F2Element K (-1) := ⟨0, 1⟩
  have parts : a = F2Element.C a.a + F2Element.C a.b * root := by
    ext <;> simp [root]
  have square : root ^ 2 = -1 := by
    rw [pow_two]
    ext <;> simp [root]
  have power : root ^ p = -root := by
    have odd : Odd (6 * n + 3) := ⟨3 * n + 1, by ring⟩
    have half : p = 2 * (6 * n + 3) + 1 := by omega
    rw [half, pow_succ, pow_mul, square, odd.neg_one_pow, neg_one_mul]
  conv_lhs => rw [parts]
  rw [add_pow_char, mul_pow, ← map_pow, ← map_pow, fixed, fixed, power]
  ext <;> simp [conjugate, root]

end F2Field

/-- The constants are powers of the element the tower rests on. -/
structure F12Field.Constants
    (F : F12Field K (-1))
    (n : ℕ) : Prop where
  sixth : F.xiToPMinus1Over6 = F2Field.xi ^ (2 * n + 1)
  third : F.F.xiToPMinus1Over3 = F.xiToPMinus1Over6 ^ 2
  thirds : F.F.xiTo2PMinus2Over3 = F.xiToPMinus1Over6 ^ 4
  sixthSquared :
    F.xiToPSquaredMinus1Over6 = F.xiToPMinus1Over6.norm
  thirdSquared :
    F.F.xiToPSquaredMinus1Over3 = F.xiToPMinus1Over6.norm ^ 2
  thirdsSquared :
    F.F.xiTo2PSquaredMinus2Over3 = F.xiToPMinus1Over6.norm ^ 4
  cube : F.xiToPMinus1Over6.norm ^ 3 = -1

variable {F : F12Field K (-1)}

/-- The map of the second extension is a power. -/
theorem F12Field.Constants.value_sixth
    (constants : F.Constants n)
    (fixed : ∀ r : K, r ^ p = r)
    (shape : p = 12 * n + 7)
    (a : F6Element K (-1)) :
    (F.F.Frobenius a).value = a.value ^ p := by
  have root :
      (CubicAlgebra.τ : Sixth K) ^ p =
        CubicAlgebra.C (F.xiToPMinus1Over6 ^ 2) * CubicAlgebra.τ := by
    have split : p = 3 * (2 * (2 * n + 1)) + 1 := by omega
    rw [split, pow_succ, pow_mul, CubicAlgebra.τ_pow_three, ← map_pow,
      constants.sixth, ← pow_mul, mul_comm 2]
  have parts := a.value.eq_sum
  conv_rhs => rw [parts]
  rw [add_pow_char, add_pow_char, mul_pow, mul_pow, pow_right_comm, root,
    mul_pow, ← map_pow, ← map_pow, ← map_pow, ← map_pow,
    F2Field.pow_eq_conjugate fixed shape, F2Field.pow_eq_conjugate fixed shape,
    F2Field.pow_eq_conjugate fixed shape, pow_two CubicAlgebra.τ, ← pow_mul]
  unfold F6Field.Frobenius F6Element.value
  simp only [F2Field.mul_eq, constants.third, constants.thirds]
  ext1 <;> simp [-map_pow]

instance twelfth_charP : CharP (Twelfth K) p :=
  charP_of_injective_algebraMap QuadraticAlgebra.algebraMap_injective p

/-- The map of the third extension is a power. -/
theorem F12Field.Constants.value_frobenius
    (constants : F.Constants n)
    (fixed : ∀ r : K, r ^ p = r)
    (shape : p = 12 * n + 7)
    (a : F12Element K (-1)) :
    (F.Frobenius a).value = a.value ^ p := by
  let base := algebraMap (Sixth K) (Twelfth K)
  let omega : Twelfth K := QuadraticAlgebra.omega
  have square : omega ^ 2 = base CubicAlgebra.τ := by
    rw [pow_two]
    ext1 <;> simp [omega, base]
  have root :
      omega ^ p = base (CubicAlgebra.C F.xiToPMinus1Over6) * omega := by
    have split : p = 2 * (3 * (2 * n + 1)) + 1 := by omega
    rw [split, pow_succ, pow_mul, square, pow_mul, ← map_pow,
      CubicAlgebra.τ_pow_three, ← map_pow, ← map_pow, constants.sixth]
  have parts : a.value = base a.value.re + base a.value.im * omega := by
    ext1 <;> simp [omega, base]
  conv_rhs => rw [parts]
  rw [add_pow_char, mul_pow, root, ← map_pow, ← map_pow]
  have below := constants.value_sixth fixed shape
  have y : a.value.re ^ p = (F.F.Frobenius a.y).value := (below a.y).symm
  have x : a.value.im ^ p = (F.F.Frobenius a.x).value := (below a.x).symm
  rw [y, x]
  ext1
  · simp [omega, base, F12Field.Frobenius, F12Element.value]
  · simp [omega, base, F12Field.Frobenius, F12Element.value]

/-- Conjugating and scaling twice scales by the norm. -/
theorem F2Field.conjugate_conjugate_mul (e k : F2Element K (-1)) :
    conjugate (conjugate e * k) * k = e * F2Element.C k.norm := by
  rw [conjugate_mul, conjugate_conjugate, mul_assoc, mul_comm _ k,
    F2Element.mul_conjugate]

/-- The map by the square is the other map twice. -/
theorem F12Field.Constants.frobenius_frobenius
    (constants : F.Constants n)
    (a : F12Element K (-1)) :
    F.Frobenius (F.Frobenius a) = F.FrobeniusP2 a := by
  have scale := @F2Field.conjugate_conjugate_mul K _ _
  unfold F12Field.Frobenius F12Field.FrobeniusP2 F6Field.Frobenius
    F6Field.FrobeniusP2 F6Field.mulScalar F6Field.mulGFP
  simp only [F2Field.mul_eq, F2Field.mulScalar_eq, constants.third,
    constants.thirds, constants.sixthSquared, constants.thirdSquared,
    constants.thirdsSquared, mul_assoc, scale, F2Field.conjugate_conjugate,
    F2Element.norm_mul, F2Element.norm_pow, map_mul]

/-- The map by the square three times is the conjugate. -/
theorem F12Field.Constants.frobeniusP2_cubed
    (constants : F.Constants n)
    (a : F12Element K (-1)) :
    F.FrobeniusP2 (F.FrobeniusP2 (F.FrobeniusP2 a)) =
      F12Field.conjugate a := by
  let c : F2Element K (-1) := F2Element.C F.xiToPMinus1Over6.norm
  have cube : c ^ 3 = -1 := by
    rw [← map_pow, constants.cube, map_neg, map_one]
  unfold F12Field.FrobeniusP2 F6Field.FrobeniusP2 F6Field.mulGFP
    F12Field.conjugate F6Field.neg
  simp only [F2Field.mulScalar_eq, F2Field.neg_eq, constants.sixthSquared,
    constants.thirdSquared, constants.thirdsSquared, map_pow]
  change
    F12Element.mk
        ⟨a.x.x * c ^ 4 * c * c ^ 4 * c * c ^ 4 * c,
          a.x.y * c ^ 2 * c * c ^ 2 * c * c ^ 2 * c,
          a.x.z * c * c * c⟩
        ⟨a.y.x * c ^ 4 * c ^ 4 * c ^ 4, a.y.y * c ^ 2 * c ^ 2 * c ^ 2, a.y.z⟩ =
      _
  congr 2
  · linear_combination
      a.x.x * (c ^ 12 - c ^ 9 + c ^ 6 - c ^ 3 + 1) * cube
  · linear_combination a.x.y * (c ^ 6 - c ^ 3 + 1) * cube
  · linear_combination a.x.z * cube
  · linear_combination a.y.x * (c ^ 9 - c ^ 6 + c ^ 3 - 1) * cube
  · linear_combination a.y.y * (c ^ 3 - 1) * cube

/-- The maps and the conjugate are powers by those of the order. -/
theorem F12Field.Constants.powers
    (constants : F.Constants n)
    (fixed : ∀ r : K, r ^ p = r)
    (shape : p = 12 * n + 7) :
    F.Powers p := by
  have frobenius := constants.value_frobenius fixed shape
  have square :
      ∀ a, (F.FrobeniusP2 a).value = a.value ^ p ^ 2 := by
    intro a
    rw [← constants.frobenius_frobenius, frobenius, frobenius, ← pow_mul,
      ← pow_two]
  refine ⟨frobenius, square, fun a => ?_⟩
  rw [← constants.frobeniusP2_cubed, square, square, square, ← pow_mul,
    ← pow_mul, ← pow_add, ← pow_add]

end Frobenius

section Coordinates

open Cairo

/-- The extensions of the engine, with their constants. -/
def f12 : F12Field Fq (-1) where
  F :=
    { xiTo2PMinus2Over3 :=
        { a :=
            (2581911344467009335267311115468803099551665605076196740867805258568234346338 :
              ℕ)
          b :=
            (19937756971775647987995932169929341994314640652964949448313374472400716661030 :
              ℕ) }
      xiToPMinus1Over3 :=
        { a :=
            (21575463638280843010398324269430826099269044274347216827212613867836435027261 :
              ℕ)
          b :=
            (10307601595873709700152284273816112264069230130616436755625194854815875713954 :
              ℕ) }
      xiTo2PSquaredMinus2Over3 :=
        (2203960485148121921418603742825762020974279258880205651966 : ℕ)
      xiToPSquaredMinus1Over3 :=
        (21888242871839275220042445260109153167277707414472061641714758635765020556616 :
          ℕ) }
  xiToPMinus1Over6 :=
    { a :=
        (8376118865763821496583973867626364092589906065868298776909617916018768340080 :
          ℕ)
      b :=
        (16469823323077808223889137241176536799009286646108169935659301613961712198316 :
          ℕ) }
  xiToPSquaredMinus1Over6 :=
    (21888242871839275220042445260109153167277707414472061641714758635765020556617 :
      ℕ)

/-- A power by squaring and multiplying along some number of bits. -/
def squareMultiply
    {M : Type}
    [Monoid M] :
    ℕ → M → M → ℕ → M
  | 0, product, _, _ => product
  | bits + 1, product, base, exponent =>
      squareMultiply bits
        (if exponent % 2 = 1 then product * base else product)
        (base * base) (exponent / 2)

/-- Squaring and multiplying gives the power. -/
theorem squareMultiply_eq
    {M : Type}
    [Monoid M]
    {bits : ℕ}
    (product base : M)
    {exponent : ℕ}
    (fits : exponent < 2 ^ bits) :
    squareMultiply bits product base exponent = product * base ^ exponent := by
  induction bits generalizing product base exponent with
  | zero =>
      obtain rfl : exponent = 0 := by simpa using fits
      simp [squareMultiply]
  | succ bits inductionHypothesis =>
      have half : exponent / 2 < 2 ^ bits := by
        rw [pow_succ] at fits
        omega
      rw [squareMultiply, inductionHypothesis _ _ half]
      have digits := Nat.div_add_mod exponent 2
      conv_rhs => rw [← digits]
      rw [← pow_two, ← pow_mul]
      split_ifs with odd
      · rw [odd, add_comm, pow_add, pow_one, mul_assoc]
      · have even : exponent % 2 = 0 := by omega
        rw [even, add_zero]

/-- The order of the field of the coordinates, for the powers of its roots. -/
theorem bn254BasePrime_shape :
    bn254BasePrime = 12 * (bn254BasePrime / 12) + 7 := by
  decide

/-- The constants of the engine are what their names say. -/
theorem f12_constants : f12.Constants (bn254BasePrime / 12) where
  sixth := by
    have fits : 2 * (bn254BasePrime / 12) + 1 < 2 ^ 254 := by decide
    have power :=
      squareMultiply_eq (1 : F2Element Fq (-1)) F2Field.xi fits
    rw [one_mul] at power
    rw [← power]
    decide +kernel
  third := by decide +kernel
  thirds := by decide +kernel
  sixthSquared := by decide +kernel
  thirdSquared := by decide +kernel
  thirdsSquared := by decide +kernel
  cube := by decide +kernel

/-- The maps of the engine are powers by the order of its coordinates. -/
theorem f12_powers : f12.Powers bn254BasePrime :=
  f12_constants.powers ZMod.pow_card bn254BasePrime_shape

/--
The final exponentiation of any element is its power by the number of units of
the third extension over the order of the groups, and so multiplicative, and
its values are roots of unity of that order unless they are zero.
-/
theorem finalExponentiation_eq_pow (a b : F12Element Fq (-1)) :
    (f12.finalExponentiation a).value =
        a.value ^ ((bn254BasePrime ^ 12 - 1) / bn254Prime) ∧
      f12.finalExponentiation (F12Field.mul a b) =
        F12Field.mul (f12.finalExponentiation a)
          (f12.finalExponentiation b) ∧
      (a ≠ F12Field.zero →
        (f12.finalExponentiation a).value ^ bn254Prime = 1) := by
  have total :
      (bn254BasePrime ^ 12 - 1) / bn254Prime =
        (bn254BasePrime ^ 6 - 1) * (bn254BasePrime ^ 2 + 1) *
          ((bn254BasePrime ^ 4 - bn254BasePrime ^ 2 + 1) / bn254Prime) := by
    decide +kernel
  have whole :
      (bn254BasePrime ^ 12 - 1) / bn254Prime * bn254Prime =
        bn254BasePrime ^ 12 - 1 := by
    decide +kernel
  have power :
      ∀ c : F12Element Fq (-1),
        (f12.finalExponentiation c).value =
          c.value ^ ((bn254BasePrime ^ 12 - 1) / bn254Prime) := by
    intro c
    rw [total]
    exact
      f12_powers.value_finalExponentiation bn254BasePrime_prime.one_lt
        (by decide +kernel) (by decide +kernel) c
  refine ⟨power a, ?_, fun nonzero => ?_⟩
  · apply F12Element.value_injective
    rw [F12Field.value_mul, power, power, power, F12Field.value_mul, mul_pow]
  · rw [power, ← pow_mul, whole]
    exact f12_powers.pow_pred_order bn254BasePrime_prime.pos nonzero

end Coordinates

end StarkCash.Rapidsnark
