import StarkCash.AltBn128
import StarkCash.Groth16Prover

namespace StarkCash.Rapidsnark

/-!
# What the prover proves

A setup makes the points of the proving key multiples of the generators by
values of the constraint polynomials at a secret point.  With such a key, and
a witness that satisfies the constraints, the points of the proof are the
multiples that the pairing equation asks for, whatever the random numbers.
-/

open EvaluationDomain
open Finset

namespace Groth16

/-- The constraints, and the secret numbers of a setup. -/
structure Setup (q : ℕ) where
  alpha : ZMod q
  beta : ZMod q
  delta : ZMod q
  tau : ZMod q
  matrixA : ℕ → ℕ → ZMod q
  matrixB : ℕ → ℕ → ZMod q
  matrixC : ℕ → ℕ → ZMod q

namespace Setup

variable
    {q : ℕ}
    [Fact q.Prime]

/-- The polynomial of a signal at the secret point. -/
noncomputable def column
    (S : Setup q)
    (root : ZMod q)
    (length : ℕ)
    (matrix : ℕ → ℕ → ZMod q)
    (signal : ℕ) : ZMod q :=
  ∑ constraint ∈ range length,
    matrix constraint signal * lagrange root length constraint S.tau

/-- The polynomials of a signal, each with the secret of another. -/
noncomputable def combined
    (S : Setup q)
    (root : ZMod q)
    (length signal : ℕ) : ZMod q :=
  S.beta * S.column root length S.matrixA signal +
    S.alpha * S.column root length S.matrixB signal +
    S.column root length S.matrixC signal

/-- A side of a constraint under a witness. -/
def side
    (matrix : ℕ → ℕ → ZMod q)
    (w : ℕ → ZMod q)
    (nVars constraint : ℕ) : ZMod q :=
  ∑ signal ∈ range nVars, matrix constraint signal * w signal

/-- A witness satisfies the constraints. -/
def Satisfies
    (S : Setup q)
    (w : ℕ → ZMod q)
    (length nVars : ℕ) : Prop :=
  ∀ constraint < length,
    side S.matrixA w nVars constraint * side S.matrixB w nVars constraint =
      side S.matrixC w nVars constraint

/-- The sum of the polynomials of the signals, times the witness. -/
noncomputable def total
    (S : Setup q)
    (root : ZMod q)
    (length : ℕ)
    (matrix : ℕ → ℕ → ZMod q)
    (w : ℕ → ZMod q)
    (nVars : ℕ) : ZMod q :=
  ∑ signal ∈ range nVars, w signal * S.column root length matrix signal

/-- What the first point of a proof is a multiple by. -/
noncomputable def valueA
    (S : Setup q)
    (root : ZMod q)
    (length : ℕ)
    (w : ℕ → ZMod q)
    (nVars : ℕ)
    (r : ZMod q) : ZMod q :=
  S.total root length S.matrixA w nVars + S.alpha + r * S.delta

/-- What the second point of a proof is a multiple by. -/
noncomputable def valueB
    (S : Setup q)
    (root : ZMod q)
    (length : ℕ)
    (w : ℕ → ZMod q)
    (nVars : ℕ)
    (s : ZMod q) : ZMod q :=
  S.total root length S.matrixB w nVars + S.beta + s * S.delta

/-- What the third point of a proof is a multiple by. -/
noncomputable def valueC
    (S : Setup q)
    (root : ZMod q)
    (length : ℕ)
    (w : ℕ → ZMod q)
    (nVars nPublic : ℕ)
    (r s : ZMod q) : ZMod q :=
  ∑ i ∈ range (nVars - nPublic - 1),
      w (i + (nPublic + 1)) *
        (S.combined root length (i + (nPublic + 1)) / S.delta) +
    (S.total root length S.matrixA w nVars *
          S.total root length S.matrixB w nVars -
        S.total root length S.matrixC w nVars) /
      S.delta +
    s * S.valueA root length w nVars r +
    r * S.valueB root length w nVars s -
    r * s * S.delta

/-- The sum of the polynomials is that of the sides. -/
theorem total_eq
    (S : Setup q)
    (root : ZMod q)
    (length : ℕ)
    (matrix : ℕ → ℕ → ZMod q)
    (w : ℕ → ZMod q)
    (nVars : ℕ) :
    S.total root length matrix w nVars =
      ∑ constraint ∈ range length,
        side matrix w nVars constraint *
          lagrange root length constraint S.tau := by
  unfold total column side
  simp only [mul_sum, sum_mul]
  rw [sum_comm]
  refine sum_congr rfl fun constraint _ => sum_congr rfl fun signal _ => ?_
  ring

/-- The combined polynomials of all signals. -/
theorem sum_combined
    (S : Setup q)
    (root : ZMod q)
    (length : ℕ)
    (w : ℕ → ZMod q)
    (nVars : ℕ) :
    ∑ signal ∈ range nVars, w signal * S.combined root length signal =
      S.beta * S.total root length S.matrixA w nVars +
        S.alpha * S.total root length S.matrixB w nVars +
        S.total root length S.matrixC w nVars := by
  unfold total combined
  simp only [mul_sum, ← sum_add_distrib]
  refine sum_congr rfl fun signal _ => ?_
  ring

/--
The first two values multiply to those of the setup, of the public signals and
of the third, whatever the random numbers.
-/
theorem valueA_mul_valueB
    (S : Setup q)
    (root : ZMod q)
    (length : ℕ)
    (w : ℕ → ZMod q)
    {nVars nPublic : ℕ}
    (inputs : nPublic + 1 ≤ nVars)
    (delta : S.delta ≠ 0)
    (r s : ZMod q) :
    S.valueA root length w nVars r * S.valueB root length w nVars s =
      S.alpha * S.beta +
        ∑ signal ∈ range (nPublic + 1),
          w signal * S.combined root length signal +
        S.valueC root length w nVars nPublic r s * S.delta := by
  have split := S.sum_combined root length w nVars
  have rest : nPublic + 1 + (nVars - nPublic - 1) = nVars := by omega
  rw [← rest, sum_range_add, rest] at split
  have hidden :
      (∑ i ∈ range (nVars - nPublic - 1),
            w (i + (nPublic + 1)) *
              (S.combined root length (i + (nPublic + 1)) / S.delta)) *
          S.delta =
        ∑ i ∈ range (nVars - nPublic - 1),
          w (nPublic + 1 + i) * S.combined root length (nPublic + 1 + i) := by
    rw [sum_mul]
    refine sum_congr rfl fun i _ => ?_
    rw [add_comm i, mul_assoc, div_mul_cancel₀ _ delta]
  have remainder :=
    div_mul_cancel₀
      (S.total root length S.matrixA w nVars *
          S.total root length S.matrixB w nVars -
        S.total root length S.matrixC w nVars)
      delta
  unfold valueC
  rw [sub_mul, add_mul, add_mul, add_mul, hidden, remainder]
  unfold valueA valueB
  linear_combination -split

end Setup

section Keys

variable
    {K₁ K₂ : Type}
    [Field K₁]
    [DecidableEq K₁]
    [Field K₂]
    [DecidableEq K₂]
    {q : ℕ}
    [Fact q.Prime]

/--
The proving key is that of a setup: its entries are those of the matrices, and
its points are multiples of the generators, which the homomorphisms take.
-/
structure Honest
    (E : Engine K₁ K₂)
    (P : Prover K₁ K₂ q)
    (S : Setup q)
    (bits : ℕ)
    (φ₁ : ZMod q →+ E.g1.Group)
    (φ₂ : ZMod q →+ E.g2.Group) : Prop where
  alpha1 : E.g1.DenotesAffine P.vk_alpha1 (φ₁ S.alpha)
  beta1 : E.g1.DenotesAffine P.vk_beta1 (φ₁ S.beta)
  beta2 : E.g2.DenotesAffine P.vk_beta2 (φ₂ S.beta)
  delta1 : E.g1.DenotesAffine P.vk_delta1 (φ₁ S.delta)
  delta2 : E.g2.DenotesAffine P.vk_delta2 (φ₂ S.delta)
  pointsA :
    ∀ s < P.nVars,
      E.g1.DenotesAffine (P.pointsA s)
        (φ₁ (S.column (P.fft.unity bits) (2 ^ bits) S.matrixA s))
  pointsB1 :
    ∀ s < P.nVars,
      E.g1.DenotesAffine (P.pointsB1 s)
        (φ₁ (S.column (P.fft.unity bits) (2 ^ bits) S.matrixB s))
  pointsB2 :
    ∀ s < P.nVars,
      E.g2.DenotesAffine (P.pointsB2 s)
        (φ₂ (S.column (P.fft.unity bits) (2 ^ bits) S.matrixB s))
  pointsC :
    ∀ i < P.nVars - P.nPublic - 1,
      E.g1.DenotesAffine (P.pointsC i)
        (φ₁
          (S.combined (P.fft.unity bits) (2 ^ bits) (i + (P.nPublic + 1)) /
            S.delta))
  pointsH :
    ∀ j < 2 ^ bits,
      E.g1.DenotesAffine (P.pointsH j)
        (φ₁
          (lagrange (P.fft.unity (bits + 1)) (2 * 2 ^ bits) (2 * j + 1) S.tau /
            S.delta))
  signals : ∀ i < P.nCoefs, (P.coefs i).s < P.nVars
  coefsA :
    ∀ constraint signal,
      S.matrixA constraint signal =
        ∑ i ∈ range P.nCoefs,
          if (P.coefs i).m = 0 ∧ (P.coefs i).c = constraint ∧
              (P.coefs i).s = signal then
            RawFr.fromMontgomery (P.coefs i).coef
          else
            0
  coefsB :
    ∀ constraint signal,
      S.matrixB constraint signal =
        ∑ i ∈ range P.nCoefs,
          if (P.coefs i).m ≠ 0 ∧ (P.coefs i).c = constraint ∧
              (P.coefs i).s = signal then
            RawFr.fromMontgomery (P.coefs i).coef
          else
            0

/-- The memory holds the numbers of a witness. -/
def Holds
    (wtns : ℕ → UInt8)
    (w : ℕ → ZMod q)
    (nVars : ℕ) : Prop :=
  ∀ s < nVars, MSM.scalarAt wtns RawFr.sizeOfElement s = (w s).val

omit [Field K₁] [DecidableEq K₁] [Field K₂] [DecidableEq K₂] in
/-- The entries of a matrix at a constraint are the side of the witness. -/
theorem sideSum_eq
    {P : Prover K₁ K₂ q}
    (isMatrix : ℕ → Prop)
    [DecidablePred isMatrix]
    {matrix : ℕ → ℕ → ZMod q}
    (signals : ∀ i < P.nCoefs, (P.coefs i).s < P.nVars)
    (coefs :
      ∀ constraint signal,
        matrix constraint signal =
          ∑ i ∈ range P.nCoefs,
            if isMatrix (P.coefs i).m ∧ (P.coefs i).c = constraint ∧
                (P.coefs i).s = signal then
              RawFr.fromMontgomery (P.coefs i).coef
            else
              0)
    {wtns : ℕ → UInt8}
    {w : ℕ → ZMod q}
    (holds : Holds wtns w P.nVars)
    (constraint : ℕ) :
    sideSum P isMatrix wtns constraint =
      Setup.side matrix w P.nVars constraint := by
  unfold sideSum Setup.side
  simp only [coefs, sum_mul]
  rw [sum_comm]
  refine sum_congr rfl fun i member => ?_
  have isSignal := signals i (mem_range.mp member)
  have element :
      RawFr.elementAt wtns (P.coefs i).s =
        w (P.coefs i).s / RawFr.montgomeryFactor q := by
    have number := holds _ isSignal
    unfold MSM.scalarAt at number
    rw [RawFr.elementAt, number, ZMod.natCast_zmod_val]
  rw [sum_eq_single (P.coefs i).s]
  · rw [element]
    split_ifs with here there there
    · unfold RawFr.fromMontgomery
      ring
    · exact absurd ⟨here.1, here.2, rfl⟩ there
    · exact absurd ⟨there.1, there.2.1⟩ here
    · rw [zero_mul]
  · intro signal _ differs
    rw [if_neg fun own => differs own.2.2.symm, zero_mul]
  · intro absent
    exact absurd (mem_range.mpr isSignal) absent

end Keys

section Sums

variable
    {q : ℕ}
    [Fact q.Prime]
    {Group : Type}
    [AddCommGroup Group]

/-- Multiples by numbers of elements are those of the elements. -/
theorem sum_smul_eq
    (φ : ZMod q →+ Group)
    {count : ℕ}
    {number : ℕ → ℕ}
    {element : ℕ → ZMod q}
    (numbers : ∀ i < count, (number i : ZMod q) = element i)
    (value : ℕ → ZMod q) :
    ∑ i ∈ range count, number i • φ (value i) =
      φ (∑ i ∈ range count, element i * value i) := by
  rw [map_sum]
  refine sum_congr rfl fun i member => ?_
  rw [← map_nsmul, nsmul_eq_mul, numbers i (mem_range.mp member)]

omit [Fact q.Prime] in
/-- Numbers of elements are below a quarter of their range. -/
theorem four_mul_lt
    (quarter : 4 * q ≤ 2 ^ 256)
    {number : ℕ}
    (small : number < q) :
    4 * number < 256 ^ RawFr.sizeOfElement := by
  have size : (256 : ℕ) ^ RawFr.sizeOfElement = 2 ^ 256 := by
    unfold RawFr.sizeOfElement
    norm_num
  rw [size]
  omega

end Sums

section Proving

variable
    {K₁ K₂ : Type}
    [Field K₁]
    [DecidableEq K₁]
    [Field K₂]
    [DecidableEq K₂]
    {q : ℕ}
    [Fact q.Prime]
    {E : Engine K₁ K₂}
    {P : Prover K₁ K₂ q}
    {S : Setup q}
    {bits nThreads : ℕ}
    {φ₁ : ZMod q →+ E.g1.Group}
    {φ₂ : ZMod q →+ E.g2.Group}

/-- The number of a random element. -/
def randomNumber (bytes : ℕ → UInt8) : ℕ :=
  ByteMemory.load (randomElement bytes) 0 RawFr.sizeOfElement

/-- Sums of multiples of points by elements are multiples by the sum. -/
theorem multiMulByScalarMSM_map
    {K : Type}
    [Field K]
    [DecidableEq K]
    {curve : Curve K}
    (φ : ZMod q →+ curve.Group)
    (quarter : 4 * q ≤ 2 ^ 256)
    (threads : 0 < nThreads)
    {count : ℕ}
    (fits : count < 2 ^ 31)
    {points : ℕ → PointAffine K}
    {value element : ℕ → ZMod q}
    (arePoints : ∀ i < count, curve.DenotesAffine (points i) (φ (value i)))
    {scalars : ℕ → UInt8}
    (areScalars :
      ∀ i < count,
        MSM.scalarAt scalars RawFr.sizeOfElement i = (element i).val) :
    curve.Denotes
      (curve.multiMulByScalarMSM points scalars RawFr.sizeOfElement count
        nThreads)
      (φ (∑ i ∈ Finset.range count, element i * value i)) := by
  have summed :=
    @Curve.multiMulByScalarMSM_denotes K _ _ curve points _ scalars
      RawFr.sizeOfElement count nThreads arePoints (by decide) (by decide) fits
      threads fun i isPoint => by
        rw [areScalars i isPoint]
        exact four_mul_lt quarter (ZMod.val_lt _)
  rw [sum_smul_eq φ (fun i isPoint => by
    rw [areScalars i isPoint, ZMod.natCast_zmod_val])] at summed
  exact summed

/-- A multiple of a point by bytes is one by their number. -/
theorem mulByScalarMixed_map
    {K : Type}
    [Field K]
    [DecidableEq K]
    {curve : Curve K}
    (φ : ZMod q →+ curve.Group)
    {point : PointAffine K}
    {value : ZMod q}
    (isPoint : curve.DenotesAffine point (φ value))
    (scalar : ℕ → UInt8) :
    curve.Denotes
      (curve.mulByScalarMixed point scalar RawFr.sizeOfElement)
      (φ ((ByteMemory.load scalar 0 RawFr.sizeOfElement : ℕ) * value)) := by
  rw [← nsmul_eq_mul, map_nsmul]
  exact isPoint.mulByScalarMixed scalar (by decide) (by decide)

/-- A multiple of a point by bytes is one by their number. -/
theorem mulByScalar_map
    {K : Type}
    [Field K]
    [DecidableEq K]
    {curve : Curve K}
    (φ : ZMod q →+ curve.Group)
    {point : Point K}
    {value : ZMod q}
    (isPoint : curve.Denotes point (φ value))
    (scalar : ℕ → UInt8) :
    curve.Denotes
      (curve.mulByScalar point scalar RawFr.sizeOfElement)
      (φ ((ByteMemory.load scalar 0 RawFr.sizeOfElement : ℕ) * value)) := by
  rw [← nsmul_eq_mul, map_nsmul]
  exact isPoint.mulByScalar scalar (by decide) (by decide)

/-- The number of the product of two random elements is the product. -/
theorem load_product
    (below : q ≤ 2 ^ 256)
    (factor : RawFr.montgomeryFactor q ≠ 0)
    (randomR randomS : ℕ → UInt8) :
    ((ByteMemory.load
        (RawFr.arrayBytes fun _ =>
          RawFr.toMontgomery
            (RawFr.elementAt (randomElement randomR) 0 *
              RawFr.elementAt (randomElement randomS) 0 : ZMod q))
        0 RawFr.sizeOfElement : ℕ) : ZMod q) =
      randomNumber randomR * randomNumber randomS := by
  have number :=
    RawFr.load_arrayBytes below
      (fun _ =>
        RawFr.toMontgomery
          (RawFr.elementAt (randomElement randomR) 0 *
            RawFr.elementAt (randomElement randomS) 0 : ZMod q))
      0
  rw [zero_mul] at number
  rw [number, RawFr.raw, ZMod.natCast_zmod_val]
  have product :
      ∀ first second f : ZMod q,
        f ≠ 0 → first / f * (second / f) * f * f = first * second := by
    intro first second f nonzero
    field_simp
  unfold RawFr.toMontgomery RawFr.elementAt randomNumber
  rw [zero_mul]
  exact product _ _ _ factor

omit [Field K₁] [DecidableEq K₁] [Field K₂] [DecidableEq K₂] in
/-- The interpolant of a side is its polynomials' sum at the secret point. -/
theorem eval_side
    (sized : P.Sized bits)
    (threads : 0 < nThreads)
    (matrix : ℕ → ℕ → ZMod q)
    (w : ℕ → ZMod q) :
    (P.interpolant nThreads (Setup.side matrix w P.nVars)).eval S.tau =
      S.total (P.fft.unity bits) (2 ^ bits) matrix w P.nVars := by
  have primitive := sized.valid.isPrimitiveRoot sized.known.le
  have degree :
      (P.interpolant nThreads (Setup.side matrix w P.nVars)).degree <
        (2 ^ bits : ℕ) :=
    sized.domain ▸ degree_polynomial_lt _ _
  rw [eval_eq_sum primitive degree, S.total_eq]
  refine sum_congr rfl fun i member => ?_
  rw [sized.eval_interpolant threads _ (mem_range.mp member)]

/-- The points of the quotient sum up to the quotient at the secret point. -/
theorem sum_quotient
    (sized : P.Sized bits)
    (honest : Honest E P S bits φ₁ φ₂)
    (factor : RawFr.montgomeryFactor q ≠ 0)
    (quarter : 4 * q ≤ 2 ^ 256)
    (threads : 0 < nThreads)
    {wtns : ℕ → UInt8}
    {w : ℕ → ZMod q}
    (holds : Holds wtns w P.nVars)
    (satisfies : S.Satisfies w (2 ^ bits) P.nVars) :
    E.g1.Denotes
      (E.g1.multiMulByScalarMSM P.pointsH
        (RawFr.arrayBytes (P.quotient nThreads wtns)) RawFr.sizeOfElement
        P.domainSize nThreads)
      (φ₁
        ((S.total (P.fft.unity bits) (2 ^ bits) S.matrixA w P.nVars *
              S.total (P.fft.unity bits) (2 ^ bits) S.matrixB w P.nVars -
            S.total (P.fft.unity bits) (2 ^ bits) S.matrixC w P.nVars) /
          S.delta)) := by
  have fits : P.domainSize < 2 ^ 31 := by
    rw [sized.domain]
    exact Nat.pow_lt_pow_right Nat.one_lt_two (by have := sized.most; omega)
  let interpolant := fun matrix =>
    P.interpolant nThreads (Setup.side matrix w P.nVars)
  let difference := fun point =>
    (interpolant S.matrixA).eval point * (interpolant S.matrixB).eval point -
      (interpolant S.matrixC).eval point
  let element := fun j => difference (P.fft.unity (bits + 1) ^ (2 * j + 1))
  have product :
      (P.interpolant nThreads fun i =>
          Setup.side S.matrixA w P.nVars i * Setup.side S.matrixB w P.nVars i) =
        interpolant S.matrixC :=
    sized.interpolant_congr threads satisfies
  have areScalars :
      ∀ j < P.domainSize,
        MSM.scalarAt (RawFr.arrayBytes (P.quotient nThreads wtns))
            RawFr.sizeOfElement j =
          (element j).val := by
    intro j isPoint
    rw [sized.domain] at isPoint
    have quotient := sized.quotient_eq threads wtns isPoint
    simp only [
      funext (sideSum_eq (· = 0) honest.signals honest.coefsA holds),
      funext (sideSum_eq (· ≠ 0) honest.signals honest.coefsB holds),
      product] at quotient
    unfold MSM.scalarAt
    rw [RawFr.load_arrayBytes (by omega), quotient,
      RawFr.raw_fromMontgomery factor]
  have summed :=
    multiMulByScalarMSM_map φ₁ quarter threads fits
      (fun j isPoint => honest.pointsH j (sized.domain ▸ isPoint)) areScalars
  have degree : ∀ matrix, (interpolant matrix).degree < (2 ^ bits : ℕ) :=
    fun matrix => sized.domain ▸ degree_polynomial_lt _ _
  have primitive :
      IsPrimitiveRoot (P.fft.unity (bits + 1)) (2 * 2 ^ bits) := by
    rw [← pow_succ']
    exact sized.valid.isPrimitiveRoot sized.known
  have agree :
      ∀ i < 2 ^ bits,
        (interpolant S.matrixA).eval ((P.fft.unity (bits + 1) ^ 2) ^ i) *
            (interpolant S.matrixB).eval ((P.fft.unity (bits + 1) ^ 2) ^ i) =
          (interpolant S.matrixC).eval ((P.fft.unity (bits + 1) ^ 2) ^ i) := by
    intro i inside
    simp only [interpolant, sized.unity_sq,
      sized.eval_interpolant threads _ inside]
    exact satisfies i inside
  have remainder :=
    eval_mul_sub_eq_sum primitive (degree S.matrixA) (degree S.matrixB)
      (degree S.matrixC) agree S.tau
  simp only [interpolant, eval_side sized threads] at remainder
  rw [remainder, div_eq_mul_inv, sum_mul, ← sized.domain]
  convert summed using 2
  refine sum_congr rfl fun j _ => ?_
  rw [sized.domain, div_eq_mul_inv, mul_assoc]

omit [Field K₁] [DecidableEq K₁] [Field K₂] [DecidableEq K₂] in
/-- The points of the signals sum up to their polynomials. -/
theorem sum_signals
    {K : Type}
    [Field K]
    [DecidableEq K]
    {curve : Curve K}
    (φ : ZMod q →+ curve.Group)
    (sized : P.Sized bits)
    (quarter : 4 * q ≤ 2 ^ 256)
    (threads : 0 < nThreads)
    {matrix : ℕ → ℕ → ZMod q}
    {points : ℕ → PointAffine K}
    (arePoints :
      ∀ s < P.nVars,
        curve.DenotesAffine (points s)
          (φ (S.column (P.fft.unity bits) (2 ^ bits) matrix s)))
    {wtns : ℕ → UInt8}
    {w : ℕ → ZMod q}
    (holds : Holds wtns w P.nVars) :
    curve.Denotes
      (curve.multiMulByScalarMSM points wtns RawFr.sizeOfElement P.nVars
        nThreads)
      (φ (S.total (P.fft.unity bits) (2 ^ bits) matrix w P.nVars)) :=
  multiMulByScalarMSM_map φ quarter threads sized.vars arePoints holds

/-- The points of the private signals sum up to their polynomials. -/
theorem sum_private
    (sized : P.Sized bits)
    (honest : Honest E P S bits φ₁ φ₂)
    (quarter : 4 * q ≤ 2 ^ 256)
    (threads : 0 < nThreads)
    {wtns : ℕ → UInt8}
    {w : ℕ → ZMod q}
    (holds : Holds wtns w P.nVars) :
    E.g1.Denotes
      (E.g1.multiMulByScalarMSM P.pointsC
        (fun address =>
          wtns (address + (P.nPublic + 1) * RawFr.sizeOfElement % 2 ^ 32))
        RawFr.sizeOfElement
        ((P.nVars + 2 ^ 32 - (P.nPublic + 1) % 2 ^ 32) % 2 ^ 32) nThreads)
      (φ₁
        (∑ i ∈ range (P.nVars - P.nPublic - 1),
          w (i + (P.nPublic + 1)) *
            (S.combined (P.fft.unity bits) (2 ^ bits) (i + (P.nPublic + 1)) /
              S.delta))) := by
  have offset := sized.offset
  have inputs := sized.inputs
  have vars := sized.vars
  have shift :
      (P.nPublic + 1) * RawFr.sizeOfElement % 2 ^ 32 =
        (P.nPublic + 1) * RawFr.sizeOfElement := by
    unfold RawFr.sizeOfElement
    omega
  have count :
      (P.nVars + 2 ^ 32 - (P.nPublic + 1) % 2 ^ 32) % 2 ^ 32 =
        P.nVars - P.nPublic - 1 := by
    omega
  rw [shift, count]
  refine
    multiMulByScalarMSM_map φ₁ quarter threads (by omega) honest.pointsC ?_
  intro i isPoint
  unfold MSM.scalarAt
  rw [ByteMemory.load_shift, ← add_mul]
  exact holds _ (by omega)

/--
A proof of a witness that satisfies the constraints is made of the multiples
that the pairing equation asks for.
-/
theorem prove_denotes
    (coefficient₁ : E.g1.fb ≠ 0)
    (coefficient₂ : E.g2.fb ≠ 0)
    (sized : P.Sized bits)
    (honest : Honest E P S bits φ₁ φ₂)
    (factor : RawFr.montgomeryFactor q ≠ 0)
    (quarter : 4 * q ≤ 2 ^ 256)
    (threads : 0 < nThreads)
    {wtns : ℕ → UInt8}
    {w : ℕ → ZMod q}
    (holds : Holds wtns w P.nVars)
    (satisfies : S.Satisfies w (2 ^ bits) P.nVars)
    (randomR randomS : ℕ → UInt8) :
    let proof := P.prove E nThreads wtns randomR randomS
    let root := P.fft.unity bits
    let r : ZMod q := randomNumber randomR
    let s : ZMod q := randomNumber randomS
    E.g1.DenotesAffine proof.A
        (φ₁ (S.valueA root (2 ^ bits) w P.nVars r)) ∧
      E.g2.DenotesAffine proof.B
        (φ₂ (S.valueB root (2 ^ bits) w P.nVars s)) ∧
      E.g1.DenotesAffine proof.C
        (φ₁ (S.valueC root (2 ^ bits) w P.nVars P.nPublic r s)) := by
  intro proof root r s
  have sumA := sum_signals φ₁ sized quarter threads honest.pointsA holds
  have sumB1 := sum_signals φ₁ sized quarter threads honest.pointsB1 holds
  have sumB2 := sum_signals φ₂ sized quarter threads honest.pointsB2 holds
  have sumC := sum_private sized honest quarter threads holds
  have sumH :=
    sum_quotient sized honest factor quarter threads holds satisfies
  have pointA :=
    (sumA.addMixed honest.alpha1).add
      (mulByScalarMixed_map φ₁ honest.delta1 (randomElement randomR))
  have pointB :=
    (sumB2.addMixed honest.beta2).add
      (mulByScalarMixed_map φ₂ honest.delta2 (randomElement randomS))
  have pointB1 :=
    (sumB1.addMixed honest.beta1).add
      (mulByScalarMixed_map φ₁ honest.delta1 (randomElement randomS))
  simp only [← map_add] at pointA pointB pointB1
  have pointC :=
    ((((sumC.add sumH).add
              (mulByScalar_map φ₁ pointA (randomElement randomS))).add
            (mulByScalar_map φ₁ pointB1 (randomElement randomR))).sub
          (mulByScalarMixed_map φ₁ honest.delta1
            (RawFr.arrayBytes fun _ =>
              RawFr.toMontgomery
                (RawFr.elementAt (randomElement randomR) 0 *
                  RawFr.elementAt (randomElement randomS) 0 : ZMod q))))
  rw [load_product (by omega) factor] at pointC
  simp only [← map_add, ← map_sub] at pointC
  exact
    ⟨pointA.toAffine coefficient₁, pointB.toAffine coefficient₂,
      pointC.toAffine coefficient₁⟩

/--
A prover is made for every sized key whose double domain has a root of unity,
by any threads in any order, and if the key is honest for the root it has
found, its proofs are made of such multiples.
-/
theorem makeProver_balances
    (coefficient₁ : E.g1.fb ≠ 0)
    (coefficient₂ : E.g2.fb ≠ 0)
    (odd : q ≠ 2)
    {key : ProvingKey K₁ K₂ q}
    (sized : key.Sized bits)
    (divides : 2 ^ (bits + 1) ∣ q - 1)
    (threads : 0 < nThreads)
    {order : List ℕ}
    (everyThread : order.Perm (List.range nThreads))
    (honest :
      ∀ P,
        makeProver key nThreads order = .ok P →
        Honest E P S bits φ₁ φ₂)
    (delta : S.delta ≠ 0)
    (factor : RawFr.montgomeryFactor q ≠ 0)
    (quarter : 4 * q ≤ 2 ^ 256)
    {wtns : ℕ → UInt8}
    {w : ℕ → ZMod q}
    (holds : Holds wtns w key.nVars)
    (satisfies : S.Satisfies w (2 ^ bits) key.nVars)
    (randomR randomS : ℕ → UInt8) :
    ∃ P : Prover K₁ K₂ q,
      makeProver key nThreads order = .ok P ∧
        let proof := P.prove E nThreads wtns randomR randomS
        ∃ a b c : ZMod q,
          E.g1.DenotesAffine proof.A (φ₁ a) ∧
            E.g2.DenotesAffine proof.B (φ₂ b) ∧
            E.g1.DenotesAffine proof.C (φ₁ c) ∧
            a * b =
              S.alpha * S.beta +
                ∑ signal ∈ range (key.nPublic + 1),
                  w signal *
                    S.combined (P.fft.unity bits) (2 ^ bits) signal +
                c * S.delta := by
  obtain ⟨P, made, rfl, sizedProver⟩ :=
    sized.makeProver odd threads everyThread divides
  obtain ⟨isA, isB, isC⟩ :=
    prove_denotes coefficient₁ coefficient₂ sizedProver (honest P made) factor
      quarter threads holds satisfies randomR randomS
  exact
    ⟨P, made, _, _, _, isA, isB, isC,
      S.valueA_mul_valueB _ _ w sized.inputs delta _ _⟩

end Proving

section Making

variable
    {K₁ K₂ : Type}
    [Field K₁]
    [DecidableEq K₁]
    [Field K₂]
    [DecidableEq K₂]
    {q : ℕ}
    [Fact q.Prime]

end Making

section Example

end Example

end Groth16

end StarkCash.Rapidsnark
