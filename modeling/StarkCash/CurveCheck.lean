import Mathlib.Data.Nat.ModEq
import Mathlib.RingTheory.Coprime.Lemmas
import StarkCash.LibraryVerifier

namespace StarkCash.Cairo

/-!
# The curve check of the library verifier

`validate_g1_point` reduces by the scalar prime instead of the base-field
prime and squares and cubes inside 256 bits.  It decides membership in the
curve exactly on the points of `G1Point.Decided`: those with a coordinate from
the scalar prime on that are off the curve, and those whose powers fit and
whose equation is not off by a nonzero multiple of one of the primes.
-/

/-- The prime of the base field of BN254. -/
def bn254BasePrime : ℕ :=
  21888242871839275222246405745257275088696311157297823662689037894645226208583

namespace G1Point

/-- Coordinates of a point of the curve over the base field. -/
structure OnCurve (point : G1Point) : Prop where
  x :
    point.x.toNat < bn254BasePrime
  y :
    point.y.toNat < bn254BasePrime
  equation :
    point.x.toNat ^ 3 + 3 ≡ point.y.toNat ^ 2 [MOD bn254BasePrime]

/-- Coordinates below the scalar prime whose square and cube fit 256 bits. -/
structure Fits (point : G1Point) : Prop where
  x :
    point.x.toNat < bn254Prime
  y :
    point.y.toNat < bn254Prime
  ySquare :
    point.y.toNat ^ 2 < 2 ^ 256
  xCube :
    point.x.toNat ^ 3 < 2 ^ 256

/-- By how much the curve equation fails over the integers. -/
def gap (point : G1Point) : ℤ :=
  (point.y.toNat ^ 2 : ℕ) - (point.x.toNat ^ 3 + 3 : ℕ)

/-- The points on which the check of the source is right. -/
inductive Decided (point : G1Point) : Prop where
  | beyond
      (isBeyond :
        bn254Prime ≤ point.x.toNat ∨ bn254Prime ≤ point.y.toNat)
      (offCurve : ¬ point.OnCurve)
  | fitting
      (fits : point.Fits)
      (exactly :
        (bn254Prime : ℤ) ∣ point.gap ∨ (bn254BasePrime : ℤ) ∣ point.gap →
        point.gap = 0)

end G1Point

section Arithmetic

/-- The scalar prime is below the prime of the base field. -/
theorem bn254Prime_lt_basePrime :
    bn254Prime < bn254BasePrime := by
  decide

/-- The two primes are coprime. -/
theorem primes_coprime :
    IsCoprime (bn254Prime : ℤ) (bn254BasePrime : ℤ) := by
  apply Nat.isCoprime_iff_coprime.mpr
  decide

/--
A number smaller than the product of the primes is divided by both or by
neither exactly if it is zero as soon as one of them divides it.
-/
theorem divides_both_iff
    {number : ℤ}
    (small : |number| < bn254Prime * bn254BasePrime) :
    ((bn254Prime : ℤ) ∣ number ↔ (bn254BasePrime : ℤ) ∣ number) ↔
      ((bn254Prime : ℤ) ∣ number ∨ (bn254BasePrime : ℤ) ∣ number →
        number = 0) := by
  constructor
  · intro both divides
    have scalar : (bn254Prime : ℤ) ∣ number :=
      divides.elim id both.mpr
    have product :
        (bn254Prime * bn254BasePrime : ℤ) ∣ number :=
      primes_coprime.mul_dvd scalar (both.mp scalar)
    exact Int.eq_zero_of_abs_lt_dvd product small
  · intro isZero
    constructor
    · intro scalar
      rw [isZero (Or.inl scalar)]
      exact dvd_zero _
    · intro base
      rw [isZero (Or.inr base)]
      exact dvd_zero _

variable {left right : U256}

/-- A product that fits is computed. -/
theorem mulU256_of_lt
    (fits : left.toNat * right.toNat < 2 ^ 256) :
    mulU256 left right = .ok (left * right) ∧
      (left * right).toNat = left.toNat * right.toNat := by
  refine ⟨if_pos fits, ?_⟩
  rw [BitVec.toNat_mul, Nat.mod_eq_of_lt fits]

/-- A product that does not fit panics. -/
theorem mulU256_of_le
    (overflows : 2 ^ 256 ≤ left.toNat * right.toNat) :
    mulU256 left right = .error ⟨"u256_mul Overflow"⟩ :=
  if_neg (Nat.not_lt.mpr overflows)

/-- A sum that fits is computed. -/
theorem addU256_of_lt
    (fits : left.toNat + right.toNat < 2 ^ 256) :
    addU256 left right = .ok (left + right) ∧
      (left + right).toNat = left.toNat + right.toNat := by
  refine ⟨if_pos fits, ?_⟩
  rw [BitVec.toNat_add, Nat.mod_eq_of_lt fits]

/-- The scalar prime as a word. -/
theorem toNat_bn254PrimeWord :
    bn254PrimeWord.toNat = bn254Prime :=
  rfl

/-- A word from the scalar prime on is so as a number. -/
theorem bn254PrimeWord_le_iff
    {word : U256} :
    bn254PrimeWord ≤ word ↔ bn254Prime ≤ word.toNat :=
  Iff.rfl

end Arithmetic

namespace LibraryVerifier

section Evaluation

variable {point : G1Point}

/-- A coordinate from the scalar prime on is refused. -/
theorem validateG1Point_of_beyond
    (isBeyond :
      bn254Prime ≤ point.x.toNat ∨ bn254Prime ≤ point.y.toNat) :
    validateG1Point point = .ok false := by
  unfold validateG1Point
  by_cases isZero : point.x = 0 ∧ point.y = 0
  · rw [if_pos isZero]
  · have asWords :
        bn254PrimeWord ≤ point.x ∨ bn254PrimeWord ≤ point.y :=
      isBeyond
    rw [if_neg isZero, if_pos asWords]

/-- Below the scalar prime the coordinates other than zero are computed with. -/
theorem validateG1Point_of_below
    (xBelow : point.x.toNat < bn254Prime)
    (yBelow : point.y.toNat < bn254Prime)
    (notZero : ¬ (point.x = 0 ∧ point.y = 0)) :
    validateG1Point point = do
      let ySquared := (← mulU256 point.y point.y) % bn254PrimeWord
      let xCubed :=
        (← mulU256 (← mulU256 point.x point.x) point.x) % bn254PrimeWord
      let rhs := (← addU256 xCubed 3) % bn254PrimeWord
      return decide (ySquared = rhs) := by
  have notBeyond :
      ¬ (bn254PrimeWord ≤ point.x ∨ bn254PrimeWord ≤ point.y) := by
    rw [bn254PrimeWord_le_iff, bn254PrimeWord_le_iff, not_or]
    exact ⟨Nat.not_le_of_lt xBelow, Nat.not_le_of_lt yBelow⟩
  unfold validateG1Point
  rw [if_neg notZero, if_neg notBeyond]

/-- A square or a cube that does not fit aborts the check. -/
theorem validateG1Point_of_overflow
    (xBelow : point.x.toNat < bn254Prime)
    (yBelow : point.y.toNat < bn254Prime)
    (overflows :
      2 ^ 256 ≤ point.y.toNat ^ 2 ∨ 2 ^ 256 ≤ point.x.toNat ^ 3) :
    validateG1Point point = .error ⟨"u256_mul Overflow"⟩ := by
  have notZero : ¬ (point.x = 0 ∧ point.y = 0) := by
    rintro ⟨xZero, yZero⟩
    rw [xZero, yZero] at overflows
    revert overflows
    decide
  rw [validateG1Point_of_below xBelow yBelow notZero]
  by_cases ySquare : point.y.toNat * point.y.toNat < 2 ^ 256
  · have xCube : 2 ^ 256 ≤ point.x.toNat * point.x.toNat * point.x.toNat := by
      rcases overflows with square | cube
      · rw [pow_two point.y.toNat] at square
        exact absurd ySquare (Nat.not_lt.mpr square)
      · rw [pow_succ point.x.toNat, pow_two point.x.toNat] at cube
        exact cube
    rw [(mulU256_of_lt ySquare).1]
    by_cases xSquare : point.x.toNat * point.x.toNat < 2 ^ 256
    · obtain ⟨computed, value⟩ := mulU256_of_lt xSquare
      rw [← value] at xCube
      rw [computed, Imperative.ok_bind, Imperative.ok_bind,
        mulU256_of_le xCube]
      rfl
    · rw [mulU256_of_le (Nat.not_lt.mp xSquare)]
      rfl
  · rw [mulU256_of_le (Nat.not_lt.mp ySquare)]
    rfl

/-- On coordinates that fit, the check is the equation modulo its prime. -/
theorem validateG1Point_of_fits
    (fits : point.Fits) :
    validateG1Point point =
      .ok
        (decide
          (point.x.toNat ^ 3 + 3 ≡ point.y.toNat ^ 2 [MOD bn254Prime])) := by
  by_cases isZero : point.x = 0 ∧ point.y = 0
  · have refused : validateG1Point point = .ok false := by
      unfold validateG1Point
      rw [if_pos isZero]
    rw [refused, isZero.1, isZero.2]
    rfl
  · have ySquare : point.y.toNat * point.y.toNat < 2 ^ 256 := by
      rw [← pow_two]
      exact fits.ySquare
    have xSquare : point.x.toNat * point.x.toNat < 2 ^ 256 := by
      rcases Nat.eq_zero_or_pos point.x.toNat with xZero | xPositive
      · rw [xZero]
        decide
      · refine (Nat.le_mul_of_pos_right _ xPositive).trans_lt ?_
        rw [← pow_two, ← pow_succ]
        exact fits.xCube
    obtain ⟨yComputed, yValue⟩ := mulU256_of_lt ySquare
    obtain ⟨xComputed, xValue⟩ := mulU256_of_lt xSquare
    have xCube :
        (point.x * point.x).toNat * point.x.toNat < 2 ^ 256 := by
      rw [xValue, ← pow_two, ← pow_succ]
      exact fits.xCube
    obtain ⟨cubeComputed, cubeValue⟩ := mulU256_of_lt xCube
    have reducedBelow :
        (point.x * point.x * point.x % bn254PrimeWord).toNat <
          bn254Prime := by
      rw [BitVec.toNat_umod]
      exact Nat.mod_lt _ bn254Prime_prime.pos
    have three : (3 : U256).toNat = 3 := rfl
    have sumFits :
        (point.x * point.x * point.x % bn254PrimeWord).toNat +
            (3 : U256).toNat <
          2 ^ 256 := by
      rw [three]
      exact (Nat.add_lt_add_right reducedBelow 3).trans (by decide)
    obtain ⟨sumComputed, sumValue⟩ := addU256_of_lt sumFits
    rw [validateG1Point_of_below fits.x fits.y isZero, yComputed,
      xComputed]
    simp only [Imperative.ok_bind, cubeComputed, sumComputed]
    congr 1
    apply decide_eq_decide.mpr
    rw [← BitVec.toNat_inj, BitVec.toNat_umod, BitVec.toNat_umod, sumValue,
      BitVec.toNat_umod, yValue, cubeValue, xValue, three,
      toNat_bn254PrimeWord, ← pow_two, ← pow_two, ← pow_succ,
      Nat.mod_add_mod]
    exact eq_comm

end Evaluation

end LibraryVerifier

namespace G1Point

section Membership

variable {point : G1Point}

/-- The check answers on a point, and answers whether it is on the curve. -/
def DecidesMembership (point : G1Point) : Prop :=
  ∃ verdict,
    LibraryVerifier.validateG1Point point = .ok verdict ∧
      (verdict = true ↔ point.OnCurve)

/-- A fitting point is on the curve if the base-field prime divides its gap. -/
theorem onCurve_iff_divides
    (fits : point.Fits) :
    point.OnCurve ↔ (bn254BasePrime : ℤ) ∣ point.gap := by
  constructor
  · intro onCurve
    exact Nat.modEq_iff_dvd.mp onCurve.equation
  · intro divides
    exact
      { x := fits.x.trans bn254Prime_lt_basePrime
        y := fits.y.trans bn254Prime_lt_basePrime
        equation := Nat.modEq_iff_dvd.mpr divides }

/-- The gap of a fitting point is below the product of the primes. -/
theorem gap_small
    (fits : point.Fits) :
    |point.gap| < bn254Prime * bn254BasePrime := by
  have product : 2 ^ 256 + 3 < bn254Prime * bn254BasePrime := by
    decide
  have square := fits.ySquare
  have cube := fits.xCube
  unfold gap
  apply abs_lt.mpr
  constructor
  · omega
  · omega

/-- On a point beyond the scalar prime the check answers no. -/
theorem decidesMembership_of_beyond
    (isBeyond :
      bn254Prime ≤ point.x.toNat ∨ bn254Prime ≤ point.y.toNat) :
    point.DecidesMembership ↔ ¬ point.OnCurve := by
  have refused := LibraryVerifier.validateG1Point_of_beyond isBeyond
  constructor
  · rintro ⟨verdict, computed, means⟩ onCurve
    have accepted := means.mpr onCurve
    rw [refused, accepted] at computed
    exact Bool.noConfusion (Except.ok.inj computed)
  · intro offCurve
    refine ⟨false, refused, ?_⟩
    exact ⟨fun accepted => Bool.noConfusion accepted,
      fun onCurve => absurd onCurve offCurve⟩

/-- On a fitting point the check answers for the wrong prime. -/
theorem decidesMembership_of_fits
    (fits : point.Fits) :
    point.DecidesMembership ↔
      ((bn254Prime : ℤ) ∣ point.gap ∨ (bn254BasePrime : ℤ) ∣ point.gap →
        point.gap = 0) := by
  have computed := LibraryVerifier.validateG1Point_of_fits fits
  rw [← divides_both_iff (gap_small fits), ← onCurve_iff_divides fits]
  constructor
  · rintro ⟨verdict, answered, means⟩
    rw [computed] at answered
    rw [← means, ← Except.ok.inj answered, decide_eq_true_iff]
    exact Nat.modEq_iff_dvd.symm
  · intro agree
    refine ⟨_, computed, ?_⟩
    rw [decide_eq_true_iff, ← agree]
    exact Nat.modEq_iff_dvd

/-- A fitting point has no coordinate from the scalar prime on. -/
theorem Fits.not_beyond
    (fits : point.Fits) :
    ¬ (bn254Prime ≤ point.x.toNat ∨ bn254Prime ≤ point.y.toNat) := by
  rintro (xBeyond | yBeyond)
  · exact Nat.not_lt.mpr xBeyond fits.x
  · exact Nat.not_lt.mpr yBeyond fits.y

/-- A point is beyond the scalar prime, overflows or fits. -/
theorem beyond_or_overflows_or_fits
    (point : G1Point) :
    (bn254Prime ≤ point.x.toNat ∨ bn254Prime ≤ point.y.toNat) ∨
      ((point.x.toNat < bn254Prime ∧ point.y.toNat < bn254Prime) ∧
        (2 ^ 256 ≤ point.y.toNat ^ 2 ∨ 2 ^ 256 ≤ point.x.toNat ^ 3)) ∨
      point.Fits := by
  by_cases isBeyond :
      bn254Prime ≤ point.x.toNat ∨ bn254Prime ≤ point.y.toNat
  · exact Or.inl isBeyond
  · obtain ⟨xBelow, yBelow⟩ := not_or.mp isBeyond
    have below :=
      And.intro (Nat.lt_of_not_le xBelow) (Nat.lt_of_not_le yBelow)
    by_cases overflows :
        2 ^ 256 ≤ point.y.toNat ^ 2 ∨ 2 ^ 256 ≤ point.x.toNat ^ 3
    · exact Or.inr (Or.inl ⟨below, overflows⟩)
    · obtain ⟨square, cube⟩ := not_or.mp overflows
      exact
        Or.inr
          (Or.inr
            { x := below.1
              y := below.2
              ySquare := Nat.lt_of_not_le square
              xCube := Nat.lt_of_not_le cube })

/-- Beyond the scalar prime the decided points are those off the curve. -/
theorem decided_of_beyond
    (isBeyond :
      bn254Prime ≤ point.x.toNat ∨ bn254Prime ≤ point.y.toNat) :
    point.Decided ↔ ¬ point.OnCurve := by
  constructor
  · intro decided
    cases decided with
    | beyond _ offCurve =>
        exact offCurve
    | fitting fits _ =>
        exact absurd isBeyond fits.not_beyond
  · exact Decided.beyond isBeyond

/-- Of the fitting points those whose gap no prime divides are decided. -/
theorem decided_of_fits
    (fits : point.Fits) :
    point.Decided ↔
      ((bn254Prime : ℤ) ∣ point.gap ∨ (bn254BasePrime : ℤ) ∣ point.gap →
        point.gap = 0) := by
  constructor
  · intro decided
    cases decided with
    | beyond isBeyond _ =>
        exact absurd isBeyond fits.not_beyond
    | fitting _ exactly =>
        exact exactly
  · exact Decided.fitting fits

/-- An overflowing point is neither decided nor answered on. -/
theorem decidesMembership_of_overflow
    (below : point.x.toNat < bn254Prime ∧ point.y.toNat < bn254Prime)
    (overflows :
      2 ^ 256 ≤ point.y.toNat ^ 2 ∨ 2 ^ 256 ≤ point.x.toNat ^ 3) :
    ¬ point.DecidesMembership ∧ ¬ point.Decided := by
  constructor
  · rintro ⟨verdict, computed, _⟩
    rw [LibraryVerifier.validateG1Point_of_overflow below.1 below.2
      overflows] at computed
    cases computed
  · intro decided
    cases decided with
    | beyond isBeyond _ =>
        rcases isBeyond with xBeyond | yBeyond
        · exact Nat.not_lt.mpr xBeyond below.1
        · exact Nat.not_lt.mpr yBeyond below.2
    | fitting fits _ =>
        rcases overflows with square | cube
        · exact Nat.not_lt.mpr square fits.ySquare
        · exact Nat.not_lt.mpr cube fits.xCube

/-- The check decides membership exactly on the points of `Decided`. -/
theorem decidesMembership_iff
    (point : G1Point) :
    point.DecidesMembership ↔ point.Decided := by
  rcases point.beyond_or_overflows_or_fits with
    isBeyond | ⟨below, overflows⟩ | fits
  · rw [decidesMembership_of_beyond isBeyond, decided_of_beyond isBeyond]
  · obtain ⟨unanswered, undecided⟩ :=
      decidesMembership_of_overflow below overflows
    exact iff_of_false unanswered undecided
  · rw [decidesMembership_of_fits fits, decided_of_fits fits]

/-- The check accepts a point of the curve exactly if it decides it. -/
theorem accepted_iff
    (onCurve : point.OnCurve) :
    LibraryVerifier.validateG1Point point = .ok true ↔ point.Decided := by
  rw [← decidesMembership_iff]
  constructor
  · intro accepted
    exact ⟨true, accepted, ⟨fun _ => onCurve, fun _ => rfl⟩⟩
  · rintro ⟨verdict, computed, means⟩
    rw [computed, means.mpr onCurve]

end Membership

end G1Point

section WellFormedProofs

variable {proof : Groth16Proof}

/--
A proof as a prover sends it: two points of the curve and a nonzero pair of
elements of the quadratic extension.
-/
structure Groth16Proof.OnCurves (proof : Groth16Proof) : Prop where
  a :
    proof.a.OnCurve
  b :
    ¬ (proof.b.x0 = 0 ∧ proof.b.x1 = 0 ∧ proof.b.y0 = 0 ∧ proof.b.y1 = 0)
  bInField :
    proof.b.x0.toNat < bn254BasePrime ∧ proof.b.x1.toNat < bn254BasePrime ∧
      proof.b.y0.toNat < bn254BasePrime ∧
      proof.b.y1.toNat < bn254BasePrime
  c :
    proof.c.OnCurve

/-- The checks are right on both curve points and the third fits their prime. -/
structure Groth16Proof.Decided (proof : Groth16Proof) : Prop where
  a :
    proof.a.Decided
  b :
    proof.b.x0.toNat < bn254Prime ∧ proof.b.x1.toNat < bn254Prime ∧
      proof.b.y0.toNat < bn254Prime ∧ proof.b.y1.toNat < bn254Prime
  c :
    proof.c.Decided

namespace LibraryVerifier

/-- The coordinates the check of a second-group point accepts. -/
theorem validateG2Point_iff
    (point : G2Point) :
    validateG2Point point = true ↔
      ¬ (point.x0 = 0 ∧ point.x1 = 0 ∧ point.y0 = 0 ∧ point.y1 = 0) ∧
        point.x0.toNat < bn254Prime ∧ point.x1.toNat < bn254Prime ∧
        point.y0.toNat < bn254Prime ∧ point.y1.toNat < bn254Prime := by
  unfold validateG2Point
  simp only [bn254PrimeWord_le_iff, ← Nat.not_lt]
  grind

/-- A refusal in front of a check is no acceptance. -/
theorem refusing_eq_ok_true
    {condition : Prop}
    [Decidable condition]
    {rest : Except Panic Bool} :
    (if condition then pure false else rest) = Except.ok true ↔
      ¬ condition ∧ rest = .ok true := by
  by_cases holds : condition
  · simp [holds, pure, Except.pure]
  · simp [holds]

/-- A check in front of another accepts if both do. -/
theorem checking_eq_ok_true
    {first rest : Except Panic Bool} :
    (first >>= fun accepted =>
        if (!accepted) = true then pure false else rest) =
        .ok true ↔
      first = .ok true ∧ rest = .ok true := by
  cases first with
  | error panic =>
      simp [Imperative.error_bind]
  | ok accepted =>
      rw [Imperative.ok_bind, refusing_eq_ok_true]
      simp

/-- All three point checks have to accept. -/
theorem validateProof_iff
    (proof : Groth16Proof) :
    validateProof proof = .ok true ↔
      validateG1Point proof.a = .ok true ∧
        validateG2Point proof.b = true ∧
        validateG1Point proof.c = .ok true := by
  unfold validateProof
  rw [checking_eq_ok_true, refusing_eq_ok_true, checking_eq_ok_true,
    Bool.not_eq_true', Bool.not_eq_false]
  exact and_congr_right' (and_congr_right' (and_iff_left rfl))

/-- The combination of six public inputs is computed. -/
theorem computeVkX_completes
    (root nullifierHash recipient relayer fee refund : U256) :
    ∃ vkX,
      computeVkX getVerificationKey.ic
          [root, nullifierHash, recipient, relayer, fee, refund] =
        .ok vkX :=
  ⟨_, rfl⟩

/-- The verifier accepts a proof if both validators do and no point is `(0, 1)`. -/
theorem verifyGroth16Proof_iff
    (proof : Groth16Proof)
    (root nullifierHash : U256)
    (recipient relayer : ContractAddress)
    (fee refund : U256) :
    verifyGroth16Proof proof root nullifierHash recipient relayer fee
          refund =
        .ok true ↔
      validateProof proof = .ok true ∧
        validatePublicInputs root nullifierHash recipient relayer fee
            refund =
          true ∧
        ¬ (proof.a.x = 0 ∧ proof.a.y = 1) ∧
        ¬ (proof.c.x = 0 ∧ proof.c.y = 1) := by
  obtain ⟨vkX, computed⟩ :=
    computeVkX_completes root nullifierHash (U256.ofAddress recipient)
      (U256.ofAddress relayer) fee refund
  unfold verifyGroth16Proof
  simp only [computed, Imperative.ok_bind]
  rw [checking_eq_ok_true, refusing_eq_ok_true, refusing_eq_ok_true,
    refusing_eq_ok_true, Bool.not_eq_true', Bool.not_eq_false]
  refine and_congr_right' (and_congr_right' (and_congr_right' ?_))
  exact and_iff_left rfl

end LibraryVerifier

instance (point : G1Point) : Decidable point.OnCurve :=
  decidable_of_iff
    (point.x.toNat < bn254BasePrime ∧
      point.y.toNat < bn254BasePrime ∧
      point.x.toNat ^ 3 + 3 ≡ point.y.toNat ^ 2 [MOD bn254BasePrime])
    ⟨fun ⟨x, y, equation⟩ => ⟨x, y, equation⟩,
      fun onCurve => ⟨onCurve.x, onCurve.y, onCurve.equation⟩⟩

/-- A point of the curve has no coordinates that are off the curve. -/
theorem G1Point.OnCurve.not_coordinates
    {point : G1Point}
    {x y : U256}
    (onCurve : point.OnCurve)
    (offCurve : ¬ (G1Point.mk x y).OnCurve) :
    ¬ (point.x = x ∧ point.y = y) := by
  rintro ⟨rfl, rfl⟩
  exact offCurve onCurve

/-- The pair `(0, 1)` is not on the curve. -/
theorem G1Point.OnCurve.not_identity
    {point : G1Point}
    (onCurve : point.OnCurve) :
    ¬ (point.x = 0 ∧ point.y = 1) :=
  onCurve.not_coordinates (by decide)

/-- Of the proofs on the curves the check accepts the decided ones. -/
theorem LibraryVerifier.validateProof_iff_decided
    (onCurves : proof.OnCurves) :
    LibraryVerifier.validateProof proof = .ok true ↔ proof.Decided := by
  rw [LibraryVerifier.validateProof_iff,
    LibraryVerifier.validateG2Point_iff, G1Point.accepted_iff onCurves.a,
    G1Point.accepted_iff onCurves.c]
  constructor
  · rintro ⟨a, ⟨_, b⟩, c⟩
    exact ⟨a, b, c⟩
  · intro decided
    exact ⟨decided.a, ⟨onCurves.b, decided.b⟩, decided.c⟩

/--
The point check is right exactly on the decided points, and of the proofs on
the curves exactly the decided ones pass the proof check and, with acceptable
public inputs, the verifier.
-/
theorem curveCheck_iff_decided
    (point : G1Point)
    (proof : Groth16Proof)
    (root nullifierHash : U256)
    (recipient relayer : ContractAddress)
    (fee refund : U256) :
    (point.DecidesMembership ↔ point.Decided) ∧
      (proof.OnCurves →
        (LibraryVerifier.validateProof proof = .ok true ↔ proof.Decided) ∧
          (LibraryVerifier.validatePublicInputs root nullifierHash recipient
                relayer fee refund =
              true →
            (LibraryVerifier.verifyGroth16Proof proof root nullifierHash
                  recipient relayer fee refund =
                .ok true ↔
              proof.Decided))) := by
  refine ⟨point.decidesMembership_iff, ?_⟩
  intro onCurves
  have validated := LibraryVerifier.validateProof_iff_decided onCurves
  refine ⟨validated, ?_⟩
  intro acceptable
  rw [LibraryVerifier.verifyGroth16Proof_iff, validated]
  constructor
  · rintro ⟨decided, _⟩
    exact decided
  · intro decided
    exact ⟨decided, acceptable, onCurves.a.not_identity,
      onCurves.c.not_identity⟩

/-- The generator of the first group. -/
def generator : G1Point where
  x := 1
  y := 2

/-- The double of the generator. -/
def generatorDouble : G1Point where
  x := 1368015179489954701390400359078579693043519447331113978918064868415326638035#256
  y := 9918110051302171585080402603319702774565515993150576347155970296011118125764#256

/-- The generator is on the curve. -/
theorem generator_onCurve :
    generator.OnCurve where
  x := by decide
  y := by decide
  equation := by decide

/-- The verifier accepts a proof made of small coordinates. -/
theorem curveCheck_iff_decided_generator :
    LibraryVerifier.verifyGroth16Proof
          ⟨generator, ⟨1, 1, 1, 1⟩, generator⟩ 1 1 1 0 0 0 =
        .ok true ↔
      Groth16Proof.Decided ⟨generator, ⟨1, 1, 1, 1⟩, generator⟩ :=
  ((curveCheck_iff_decided generator
      ⟨generator, ⟨1, 1, 1, 1⟩, generator⟩ 1 1 1 0 0 0).2
    { a := generator_onCurve
      b := by decide
      bInField := by decide
      c := generator_onCurve }).2
    (by decide)

/-- The double of the generator is on the curve, and the check aborts on it. -/
theorem generatorDouble_aborts :
    generatorDouble.OnCurve ∧
      LibraryVerifier.validateG1Point generatorDouble =
        .error ⟨"u256_mul Overflow"⟩ ∧
      ¬ generatorDouble.DecidesMembership := by
  have aborts :
      LibraryVerifier.validateG1Point generatorDouble =
        .error ⟨"u256_mul Overflow"⟩ := by
    rfl
  refine ⟨⟨by decide, by decide, by decide⟩, aborts, ?_⟩
  rintro ⟨verdict, computed, _⟩
  rw [aborts] at computed
  cases computed

end WellFormedProofs

end StarkCash.Cairo
