import StarkCash.CurveMultiples
import StarkCash.EvaluationDomain
import StarkCash.FftTables
import StarkCash.MontgomeryElements

namespace StarkCash.Rapidsnark

/-!
# The prover

`Prover` sums up the points of the proving key with the witness as scalars,
evaluates the two sides of the constraints and their product, takes all three
from the domain to its other coset by transforms, sums up the points of the
quotient with what the sides differ by there, and adds the parts that two
random numbers blind.
-/

namespace Groth16

/-- The curves of an engine. -/
structure Engine
    (K₁ K₂ : Type)
    [Field K₁]
    [DecidableEq K₁]
    [Field K₂]
    [DecidableEq K₂] where
  g1 : Curve K₁
  g2 : Curve K₂

/-- An entry of a matrix of the constraints (`Coef`). -/
structure Coef (Element : Type) where
  m : ℕ
  c : ℕ
  s : ℕ
  coef : Element

/-- A proof (`Proof`). -/
structure Proof (K₁ K₂ : Type) where
  A : PointAffine K₁
  B : PointAffine K₂
  C : PointAffine K₁

/-- What a prover is made from. -/
structure ProvingKey
    (K₁ K₂ : Type)
    (q : ℕ) where
  nVars : ℕ
  nPublic : ℕ
  domainSize : ℕ
  nCoefs : ℕ
  vk_alpha1 : PointAffine K₁
  vk_beta1 : PointAffine K₁
  vk_beta2 : PointAffine K₂
  vk_delta1 : PointAffine K₁
  vk_delta2 : PointAffine K₂
  coefs : ℕ → Coef (ZMod q)
  pointsA : ℕ → PointAffine K₁
  pointsB1 : ℕ → PointAffine K₁
  pointsB2 : ℕ → PointAffine K₂
  pointsC : ℕ → PointAffine K₁
  pointsH : ℕ → PointAffine K₁

/-- The proving key and the tables of the transforms (`Prover`). -/
structure Prover
    (K₁ K₂ : Type)
    (q : ℕ) extends ProvingKey K₁ K₂ q where
  fft : FFT (ZMod q)

/-- Make a prover, its tables filled by threads in some order. -/
def makeProver
    {K₁ K₂ : Type}
    {q : ℕ}
    [Fact q.Prime]
    (key : ProvingKey K₁ K₂ q)
    (nThreads : ℕ)
    (order : List ℕ) : Except FFT.Failure (Prover K₁ K₂ q) := do
  let fft ← FFT.construct q (key.domainSize * 2 % 2 ^ 32) nThreads order
  return { key with fft }

section Definitions

variable
    {K₁ K₂ : Type}
    [Field K₁]
    [DecidableEq K₁]
    [Field K₂]
    [DecidableEq K₂]
    {q : ℕ}
    [Fact q.Prime]

/-- A loop of the pool that replaces every element below a number. -/
def mapElements
    (nThreads count : ℕ)
    (func : ℕ → ZMod q → ZMod q)
    (a : ℕ → ZMod q) : ℕ → ZMod q :=
  ThreadPool.parallelFor nThreads 0 (asInt count)
    (JobRange.forLoop fun a i =>
      Function.update a i.toNat (func i.toNat (a i.toNat)))
    a

/-- Add an entry of a matrix, times its signal, to its constraint. -/
def processCoef
    (coefs : ℕ → Coef (ZMod q))
    (wtns : ℕ → UInt8)
    (sides : (ℕ → ZMod q) × (ℕ → ZMod q))
    (i : ℕ) : (ℕ → ZMod q) × (ℕ → ZMod q) :=
  let coef := coefs i
  let aux := RawFr.elementAt wtns coef.s * coef.coef
  if coef.m = 0 then
    (Function.update sides.1 coef.c (sides.1 coef.c + aux), sides.2)
  else
    (sides.1, Function.update sides.2 coef.c (sides.2 coef.c + aux))

/-- The two sides of the constraints. -/
def Prover.processCoefs
    (P : Prover K₁ K₂ q)
    (nThreads : ℕ)
    (wtns : ℕ → UInt8) : (ℕ → ZMod q) × (ℕ → ZMod q) :=
  ThreadPool.parallelFor nThreads 0 (asInt P.nCoefs)
    (JobRange.forLoop fun sides i => processCoef P.coefs wtns sides i.toNat)
    (fun _ => 0, fun _ => 0)

/-- Values on the domain to values on its other coset. -/
def Prover.shift
    (P : Prover K₁ K₂ q)
    (nThreads : ℕ)
    (a : ℕ → ZMod q) : ℕ → ZMod q :=
  let domainPower := FFT.log2 P.domainSize
  let coefficients := P.fft.ifft nThreads a P.domainSize
  let shifted :=
    mapElements nThreads P.domainSize
      (fun i element => element * P.fft.root (domainPower + 1) i) coefficients
  P.fft.fft nThreads shifted P.domainSize

/-- What the sides differ by on the other coset. -/
def Prover.quotient
    (P : Prover K₁ K₂ q)
    (nThreads : ℕ)
    (wtns : ℕ → UInt8) : ℕ → ZMod q :=
  let (a, b) := P.processCoefs nThreads wtns
  let c := mapElements nThreads P.domainSize (fun i _ => a i * b i) fun _ => 0
  let a := P.shift nThreads a
  let b := P.shift nThreads b
  let c := P.shift nThreads c
  mapElements nThreads P.domainSize
    (fun i element => RawFr.fromMontgomery (element * b i - c i)) a

/-- A random number, its last byte zero. -/
def randomElement (bytes : ℕ → UInt8) (address : ℕ) : UInt8 :=
  if address < RawFr.sizeOfElement - 1 then bytes address else 0

/-- Prove a witness, with the bytes of two random numbers. -/
def Prover.prove
    (E : Engine K₁ K₂)
    (P : Prover K₁ K₂ q)
    (nThreads : ℕ)
    (wtns : ℕ → UInt8)
    (randomR randomS : ℕ → UInt8) : Proof K₁ K₂ :=
  let sW := RawFr.sizeOfElement
  let pi_a := E.g1.multiMulByScalarMSM P.pointsA wtns sW P.nVars nThreads
  let pib1 := E.g1.multiMulByScalarMSM P.pointsB1 wtns sW P.nVars nThreads
  let pi_b := E.g2.multiMulByScalarMSM P.pointsB2 wtns sW P.nVars nThreads
  let pi_c :=
    E.g1.multiMulByScalarMSM P.pointsC
      (fun address => wtns (address + (P.nPublic + 1) * sW % 2 ^ 32))
      sW ((P.nVars + 2 ^ 32 - (P.nPublic + 1) % 2 ^ 32) % 2 ^ 32) nThreads
  let a := P.quotient nThreads wtns
  let pih :=
    E.g1.multiMulByScalarMSM P.pointsH (RawFr.arrayBytes a) sW P.domainSize
      nThreads
  let r := randomElement randomR
  let s := randomElement randomS
  let pi_a := E.g1.addMixed pi_a P.vk_alpha1
  let p1 := E.g1.mulByScalarMixed P.vk_delta1 r sW
  let pi_a := E.g1.add pi_a p1
  let pi_b := E.g2.addMixed pi_b P.vk_beta2
  let p2 := E.g2.mulByScalarMixed P.vk_delta2 s sW
  let pi_b := E.g2.add pi_b p2
  let pib1 := E.g1.addMixed pib1 P.vk_beta1
  let p1 := E.g1.mulByScalarMixed P.vk_delta1 s sW
  let pib1 := E.g1.add pib1 p1
  let pi_c := E.g1.add pi_c pih
  let p1 := E.g1.mulByScalar pi_a s sW
  let pi_c := E.g1.add pi_c p1
  let p1 := E.g1.mulByScalar pib1 r sW
  let pi_c := E.g1.add pi_c p1
  let rs : ZMod q := RawFr.elementAt r 0 * RawFr.elementAt s 0
  let rs := RawFr.toMontgomery rs
  let p1 :=
    E.g1.mulByScalarMixed P.vk_delta1 (RawFr.arrayBytes fun _ => rs) sW
  let pi_c := E.g1.sub pi_c p1
  { A := Curve.toAffine pi_a, B := Curve.toAffine pi_b, C := Curve.toAffine pi_c }

end Definitions

section Sides

variable
    {K₁ K₂ : Type}
    {q : ℕ}
    [Fact q.Prime]
    {P : Prover K₁ K₂ q}
    {nThreads : ℕ}

omit [Fact q.Prime] in
/-- Every element below the number is replaced. -/
theorem mapElements_eq
    (threads : 0 < nThreads)
    {count : ℕ}
    (fits : count < 2 ^ 31)
    (func : ℕ → ZMod q → ZMod q)
    (a : ℕ → ZMod q)
    (i : ℕ) :
    mapElements nThreads count func a i =
      if i < count then func i (a i) else a i := by
  unfold mapElements
  rw [asInt_eq fits, ThreadPool.parallelFor_range threads]
  simp only [Int.toNat_natCast]
  have mapped :=
    @Imperative.foldl_range_invariant _ count
      (fun done (current : ℕ → ZMod q) =>
        ∀ i, current i = if i < done then func i (a i) else a i)
      (fun a i => Function.update a i (func i (a i))) a
      (fun _ => rfl)
      (by
        intro current done _ correct i
        rcases eq_or_ne i done with rfl | differs
        · rw [Function.update_self, correct, if_neg (by omega),
            if_pos (by omega)]
        · rw [Function.update_of_ne differs, correct]
          congr 1
          apply propext
          omega)
  exact mapped i

/-- The entries of one matrix, times their signals, at a constraint. -/
def sideSum
    (P : Prover K₁ K₂ q)
    (isMatrix : ℕ → Prop)
    [DecidablePred isMatrix]
    (wtns : ℕ → UInt8)
    (constraint : ℕ) : ZMod q :=
  ∑ i ∈ Finset.range P.nCoefs,
    if isMatrix (P.coefs i).m ∧ (P.coefs i).c = constraint then
      RawFr.elementAt wtns (P.coefs i).s * (P.coefs i).coef
    else
      0

/-- The sides are the sums of their entries. -/
theorem Prover.processCoefs_eq
    (threads : 0 < nThreads)
    (fits : P.nCoefs < 2 ^ 31)
    (wtns : ℕ → UInt8) :
    P.processCoefs nThreads wtns =
      (sideSum P (· = 0) wtns, sideSum P (· ≠ 0) wtns) := by
  unfold Prover.processCoefs
  rw [asInt_eq fits, ThreadPool.parallelFor_range threads]
  simp only [Int.toNat_natCast]
  have processed :=
    @Imperative.foldl_range_invariant _ P.nCoefs
      (fun done (sides : (ℕ → ZMod q) × (ℕ → ZMod q)) =>
        (∀ constraint,
          sides.1 constraint =
            ∑ i ∈ Finset.range done,
              if (P.coefs i).m = 0 ∧ (P.coefs i).c = constraint then
                RawFr.elementAt wtns (P.coefs i).s * (P.coefs i).coef
              else
                0) ∧
          ∀ constraint,
            sides.2 constraint =
              ∑ i ∈ Finset.range done,
                if (P.coefs i).m ≠ 0 ∧ (P.coefs i).c = constraint then
                  RawFr.elementAt wtns (P.coefs i).s * (P.coefs i).coef
                else
                  0)
      (processCoef P.coefs wtns)
      (fun _ => 0, fun _ => 0)
      ⟨fun _ => rfl, fun _ => rfl⟩
      (by
        rintro ⟨left, right⟩ i _ ⟨first, second⟩
        have add :
            ∀ (side : ℕ → ZMod q) (aux : ZMod q) (constraint : ℕ),
              Function.update side (P.coefs i).c (side (P.coefs i).c + aux)
                  constraint =
                side constraint +
                  if (P.coefs i).c = constraint then aux else 0 := by
          intro side aux constraint
          rcases eq_or_ne constraint (P.coefs i).c with rfl | differs
          · rw [Function.update_self, if_pos rfl]
          · rw [Function.update_of_ne differs, if_neg differs.symm, add_zero]
        simp only [Finset.sum_range_succ, ← first, ← second]
        unfold processCoef
        by_cases isFirst : (P.coefs i).m = 0
        · simp [isFirst, add]
        · simp [isFirst, add])
  exact Prod.ext (funext processed.1) (funext processed.2)

end Sides

section Cosets

open EvaluationDomain
open FourierTransform

variable
    {K₁ K₂ : Type}
    {q : ℕ}
    [Fact q.Prime]
    {P : Prover K₁ K₂ q}
    {nThreads bits : ℕ}

/-- The counts are in range, and the domain is a power of two. -/
structure ProvingKey.Sized
    (key : ProvingKey K₁ K₂ q)
    (bits : ℕ) : Prop where
  domain : key.domainSize = 2 ^ bits
  most : bits < 30
  coefs : key.nCoefs < 2 ^ 31
  vars : key.nVars < 2 ^ 31
  inputs : key.nPublic + 1 ≤ key.nVars
  offset : key.nPublic + 1 < 2 ^ 27

/-- The tables know the double of the domain. -/
structure Prover.Sized
    (P : Prover K₁ K₂ q)
    (bits : ℕ) : Prop extends P.toProvingKey.Sized bits where
  valid : P.fft.Valid
  known : bits < P.fft.s

/-- Provers are made for domains whose doubles have a root of unity. -/
theorem ProvingKey.Sized.makeProver
    {key : ProvingKey K₁ K₂ q}
    (sized : key.Sized bits)
    (odd : q ≠ 2)
    (threads : 0 < nThreads)
    {order : List ℕ}
    (everyThread : order.Perm (List.range nThreads))
    (divides : 2 ^ (bits + 1) ∣ q - 1) :
    ∃ P,
      Groth16.makeProver key nThreads order = .ok P ∧
        P.toProvingKey = key ∧
        P.Sized bits := by
  have size : key.domainSize * 2 % 2 ^ 32 = 2 ^ (bits + 1) := by
    rw [sized.domain, ← pow_succ]
    refine Nat.mod_eq_of_lt (Nat.pow_lt_pow_right Nat.one_lt_two ?_)
    have := sized.most
    omega
  have power : FFT.log2 (2 ^ (bits + 1)) = bits + 1 := FFT.log2_two_pow _
  have tables :=
    @FFT.construct_cases q _ odd (2 ^ (bits + 1)) nThreads (by positivity)
      (by rw [power]; have := sized.most; omega) threads order everyThread
  rw [power, if_pos divides] at tables
  obtain ⟨F, constructed, valid, known⟩ := tables
  refine ⟨{ key with fft := F }, ?_, rfl, ⟨sized, valid, known⟩⟩
  unfold Groth16.makeProver
  rw [size, constructed]
  rfl

/-- The polynomial with some values on the domain. -/
noncomputable def Prover.interpolant
    (P : Prover K₁ K₂ q)
    (nThreads : ℕ)
    (a : ℕ → ZMod q) : Polynomial (ZMod q) :=
  polynomial P.domainSize (P.fft.ifft nThreads a P.domainSize)

/-- The root of the domain is the square of that of its double. -/
theorem Prover.Sized.unity_sq
    (sized : P.Sized bits) :
    P.fft.unity (bits + 1) ^ 2 = P.fft.unity bits :=
  sized.valid.roots.square bits sized.known

/-- The polynomial has these values. -/
theorem Prover.Sized.eval_interpolant
    (sized : P.Sized bits)
    (threads : 0 < nThreads)
    (a : ℕ → ZMod q)
    {i : ℕ}
    (inside : i < 2 ^ bits) :
    (P.interpolant nThreads a).eval (P.fft.unity bits ^ i) = a i := by
  have most : bits < 31 := by have := sized.most; omega
  unfold Prover.interpolant
  rw [eval_polynomial, sized.domain,
    ← (sized.valid.fft_eq threads sized.known.le most _).1 i inside]
  exact (sized.valid.ifft_fft threads sized.known.le most a inside).2

/-- Shifted values are those at the odd powers of the root of the double. -/
theorem Prover.Sized.shift_eq
    (sized : P.Sized bits)
    (threads : 0 < nThreads)
    (a : ℕ → ZMod q)
    {j : ℕ}
    (inside : j < 2 ^ bits) :
    P.shift nThreads a j =
      (P.interpolant nThreads a).eval (P.fft.unity (bits + 1) ^ (2 * j + 1)) := by
  have most : bits < 31 := by have := sized.most; omega
  have fits : 2 ^ bits < 2 ^ 31 := Nat.pow_lt_pow_right Nat.one_lt_two most
  have double : 2 ^ bits < 2 ^ (bits + 1) :=
    Nat.pow_lt_pow_right Nat.one_lt_two (Nat.lt_succ_self bits)
  unfold Prover.shift Prover.interpolant
  simp only [sized.domain, FFT.log2_two_pow]
  rw [(sized.valid.fft_eq threads sized.known.le most _).1 j inside,
    pow_succ', pow_mul, sized.unity_sq, eval_polynomial_mul]
  refine transform_congr _ (fun i below => ?_) j
  rw [mapElements_eq threads fits, if_pos below,
    sized.valid.root_eq sized.known (below.trans double)]

/-- Values beyond the domain do not matter. -/
theorem Prover.Sized.interpolant_congr
    (sized : P.Sized bits)
    (threads : 0 < nThreads)
    {a other : ℕ → ZMod q}
    (same : ∀ i < 2 ^ bits, a i = other i) :
    P.interpolant nThreads a = P.interpolant nThreads other := by
  have most : bits < 31 := by have := sized.most; omega
  unfold Prover.interpolant polynomial
  rw [sized.domain]
  refine Finset.sum_congr rfl fun i member => ?_
  have inside := Finset.mem_range.mp member
  rw [(sized.valid.ifft_eq threads sized.known.le most a).1 i inside,
    (sized.valid.ifft_eq threads sized.known.le most other).1 i inside,
    transform_congr _ same]

/-- The quotient holds what the sides differ by at the odd powers. -/
theorem Prover.Sized.quotient_eq
    (sized : P.Sized bits)
    (threads : 0 < nThreads)
    (wtns : ℕ → UInt8)
    {j : ℕ}
    (inside : j < 2 ^ bits) :
    let a := sideSum P (· = 0) wtns
    let b := sideSum P (· ≠ 0) wtns
    let point := P.fft.unity (bits + 1) ^ (2 * j + 1)
    P.quotient nThreads wtns j =
      RawFr.fromMontgomery
        ((P.interpolant nThreads a).eval point *
            (P.interpolant nThreads b).eval point -
          (P.interpolant nThreads fun i => a i * b i).eval point) := by
  have fits : 2 ^ bits < 2 ^ 31 :=
    Nat.pow_lt_pow_right Nat.one_lt_two (by have := sized.most; omega)
  unfold Prover.quotient
  simp only [Prover.processCoefs_eq threads sized.coefs, sized.domain]
  rw [mapElements_eq threads fits, if_pos inside]
  simp only [sized.shift_eq threads _ inside]
  congr 3
  refine sized.interpolant_congr threads fun i below => ?_
  rw [mapElements_eq threads fits, if_pos below]

end Cosets

end Groth16

end StarkCash.Rapidsnark
