import StarkCash.CurveGroup
import StarkCash.MsmSchedules

namespace StarkCash.Rapidsnark

/-!
# Multiples of points of a curve

`Curve` multiplies a point by the bytes of a scalar and sums up multiples of
many points with its own operations.  On points of the curve the results are
the multiples and the sums of the group.
-/

open GroupOperations

namespace Curve

variable
    {K : Type}
    [Field K]
    [DecidableEq K]

/-- The operations with bases in extended coordinates. -/
def operations (E : Curve K) : Operations (Point K) (Point K) where
  zero := zero
  add := E.add
  addBase := E.add
  subBase := E.sub
  dbl := E.dbl

/-- The operations with bases in affine coordinates. -/
def mixedOperations (E : Curve K) : Operations (PointAffine K) (Point K) where
  zero := zero
  add := E.add
  addBase := E.addMixed
  subBase := E.subMixed
  dbl := E.dbl

/-- Multiply a point by a scalar (`mulByScalar`). -/
def mulByScalar
    (E : Curve K)
    (base : Point K)
    (scalar : ℕ → UInt8)
    (scalarSize : ℕ) : Point K :=
  nafMulByScalar E.operations base scalar scalarSize

/-- Multiply an affine point by a scalar (`mulByScalar`). -/
def mulByScalarMixed
    (E : Curve K)
    (base : PointAffine K)
    (scalar : ℕ → UInt8)
    (scalarSize : ℕ) : Point K :=
  nafMulByScalar E.mixedOperations base scalar scalarSize

/-- Sum up multiples of affine points (`multiMulByScalarMSM`). -/
def multiMulByScalarMSM
    (E : Curve K)
    (bases : ℕ → PointAffine K)
    (scalars : ℕ → UInt8)
    (scalarSize n nThreads : ℕ) : Point K :=
  MSM.run E.mixedOperations bases scalars scalarSize n nThreads

variable {E : Curve K}

/-- The identity stands for the identity. -/
theorem Denotes.zero : E.Denotes Curve.zero 0 :=
  .identity rfl one_ne_zero

/-- The operations on points are those of the group. -/
theorem operations_represents :
    E.operations.Represents E.Denotes E.Denotes where
  zero := Denotes.zero
  add := Denotes.add
  addBase := Denotes.add
  subBase := Denotes.sub
  dbl := Denotes.dbl

/-- The operations with affine points are those of the group. -/
theorem mixedOperations_represents :
    E.mixedOperations.Represents E.DenotesAffine E.Denotes where
  zero := Denotes.zero
  add := Denotes.add
  addBase := Denotes.addMixed
  subBase := Denotes.subMixed
  dbl := Denotes.dbl

/-- A point times a scalar is the multiple. -/
theorem Denotes.mulByScalar
    {base : Point K}
    {B : E.Group}
    (isBase : E.Denotes base B)
    (scalar : ℕ → UInt8)
    {scalarSize : ℕ}
    (positive : 0 < scalarSize)
    (fits : scalarSize < 2 ^ 28) :
    E.Denotes (E.mulByScalar base scalar scalarSize)
      (ByteMemory.load scalar 0 scalarSize • B) :=
  nafMulByScalar_denotes operations_represents isBase scalar positive fits

/-- An affine point times a scalar is the multiple. -/
theorem DenotesAffine.mulByScalarMixed
    {base : PointAffine K}
    {B : E.Group}
    (isBase : E.DenotesAffine base B)
    (scalar : ℕ → UInt8)
    {scalarSize : ℕ}
    (positive : 0 < scalarSize)
    (fits : scalarSize < 2 ^ 28) :
    E.Denotes (E.mulByScalarMixed base scalar scalarSize)
      (ByteMemory.load scalar 0 scalarSize • B) :=
  nafMulByScalar_denotes mixedOperations_represents isBase scalar positive fits

/-- The sum of the multiples of affine points is theirs in the group. -/
theorem multiMulByScalarMSM_denotes
    {bases : ℕ → PointAffine K}
    {B : ℕ → E.Group}
    {scalars : ℕ → UInt8}
    {scalarSize n nThreads : ℕ}
    (areBases : ∀ i < n, E.DenotesAffine (bases i) (B i))
    (size : 8 ≤ scalarSize)
    (sizeFits : scalarSize < 2 ^ 28)
    (countFits : n < 2 ^ 31)
    (threads : 0 < nThreads)
    (small :
      ∀ i < n, 4 * MSM.scalarAt scalars scalarSize i < 256 ^ scalarSize) :
    E.Denotes (E.multiMulByScalarMSM bases scalars scalarSize n nThreads)
      (∑ i ∈ Finset.range n, MSM.scalarAt scalars scalarSize i • B i) :=
  MSM.run_denotes mixedOperations_represents areBases size sizeFits countFits
    threads small

/--
The multiplications of a point, from affine and from extended coordinates, end
in the affine coordinates of the multiple, along digits of which no two that
follow each other are added.
-/
theorem mulByScalar_multiple
    (coefficient : E.fb ≠ 0)
    {base : PointAffine K}
    {point : Point K}
    {B : E.Group}
    (isBase : E.DenotesAffine base B)
    (isPoint : E.Denotes point B)
    (scalar : ℕ → UInt8)
    {scalarSize : ℕ}
    (positive : 0 < scalarSize)
    (fits : scalarSize < 2 ^ 28) :
    E.DenotesAffine (toAffine (E.mulByScalarMixed base scalar scalarSize))
        (ByteMemory.load scalar 0 scalarSize • B) ∧
      E.DenotesAffine (toAffine (E.mulByScalar point scalar scalarSize))
        (ByteMemory.load scalar 0 scalarSize • B) ∧
      ∀ k,
        nafDigit (buildNaf scalar scalarSize) k ≠ 0 →
        nafDigit (buildNaf scalar scalarSize) (k + 1) = 0 := by
  refine ⟨?_, ?_, fun k nonzero => nafDigit_nonadjacent positive fits nonzero⟩
  · exact (isBase.mulByScalarMixed scalar positive fits).toAffine coefficient
  · exact (isPoint.mulByScalar scalar positive fits).toAffine coefficient

/--
The sum of multiples can return on every number of threads, and under every
schedule it has the affine coordinates of the sum in the group, as it has if
the calling thread does all jobs.
-/
theorem multiMulByScalarMSM_sum
    (coefficient : E.fb ≠ 0)
    {bases : ℕ → PointAffine K}
    {B : ℕ → E.Group}
    {scalars : ℕ → UInt8}
    {scalarSize n nThreads others : ℕ}
    (areBases : ∀ i < n, E.DenotesAffine (bases i) (B i))
    (size : 8 ≤ scalarSize)
    (sizeFits : scalarSize < 2 ^ 28)
    (countFits : n < 2 ^ 31)
    (threads : 0 < nThreads)
    (otherThreads : 0 < others)
    (small :
      ∀ i < n, 4 * MSM.scalarAt scalars scalarSize i < 256 ^ scalarSize) :
    E.DenotesAffine
        (toAffine (E.multiMulByScalarMSM bases scalars scalarSize n nThreads))
        (∑ i ∈ Finset.range n, MSM.scalarAt scalars scalarSize i • B i) ∧
      (∃ r, MSM.SumRun E.mixedOperations bases scalars scalarSize n others r) ∧
      ∀ r,
        MSM.SumRun E.mixedOperations bases scalars scalarSize n others r →
        toAffine r =
          toAffine
            (E.multiMulByScalarMSM bases scalars scalarSize n nThreads) := by
  have summed :=
    (multiMulByScalarMSM_denotes areBases size sizeFits countFits threads
      small).toAffine coefficient
  refine
    ⟨summed, MSM.SumRun.exists size sizeFits countFits otherThreads,
      fun r run => ?_⟩
  have denoted :=
    (run.denotes_sum mixedOperations_represents areBases size sizeFits
      countFits small).toAffine coefficient
  exact (denoted.inj summed).mpr rfl

section FirstGroup

/-- Seven times the generator, from affine and from extended coordinates. -/
theorem g1_mulByScalar_seven :
    g1.DenotesAffine
        (toAffine (g1.mulByScalarMixed g1.foneAffine (fun _ => 7) 1))
        (ByteMemory.load (fun _ => 7) 0 1 • .some 1 2 g1_generator) ∧
      g1.DenotesAffine
        (toAffine
          (g1.mulByScalar (copyMixed g1.foneAffine) (fun _ => 7) 1))
        (ByteMemory.load (fun _ => 7) 0 1 • .some 1 2 g1_generator) := by
  obtain ⟨mixed, extended, -⟩ :=
    mulByScalar_multiple g1_fb_ne_zero g1_foneAffine g1_foneAffine.copyMixed
      (fun _ => 7) Nat.one_pos (by decide)
  exact ⟨mixed, extended⟩

/-- The generator, three times with a scalar of eight bytes, on four threads. -/
theorem g1_multiMulByScalarMSM_three :
    ∃ r,
      MSM.SumRun g1.mixedOperations (fun _ => g1.foneAffine) (fun _ => 7) 8 3 4
          r ∧
        toAffine r =
          toAffine
            (g1.multiMulByScalarMSM (fun _ => g1.foneAffine) (fun _ => 7) 8 3
              1) := by
  obtain ⟨-, ⟨r, run⟩, same⟩ :=
    @multiMulByScalarMSM_sum _ _ _ g1 g1_fb_ne_zero (fun _ => g1.foneAffine)
      (fun _ => .some 1 2 g1_generator) (fun _ => 7) 8 3 1 4
      (fun _ _ => g1_foneAffine) (by decide) (by decide) (by decide)
      Nat.one_pos (by decide)
      (by
        intro i _
        simp [MSM.scalarAt, ByteMemory.load, Finset.sum_range_succ])
  exact ⟨r, run, same r run⟩

end FirstGroup

end Curve

end StarkCash.Rapidsnark
