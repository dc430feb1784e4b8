import StarkCash.FourierTransform
import StarkCash.ThreadPool

namespace StarkCash.Rapidsnark

/-!
# Fourier transforms on the thread pool

`FFT` transforms an array of field elements in place: it exchanges the
elements whose indices are each other's reversal, and joins pairs of elements
stage by stage with roots of unity from a table.  The inverse transforms as
well, and then turns the array around and divides by its length.  All loops
are loops of the thread pool.
-/

open FourierTransform

/-- The tables of a transform (`FFT`). -/
structure FFT (K : Type) where
  s : ℕ
  roots : ℕ → K
  powTwoInv : ℕ → K

namespace FFT

/-- The logarithm of a number that is not zero. -/
def log2 (n : ℕ) : ℕ :=
  if n ≤ 1 then 0 else log2 (n >>> 1) + 1
termination_by n
decreasing_by
  rw [Nat.shiftRight_one]
  omega

/-- An index with its lowest bits in the reversed order. -/
def BR (x domainPow : ℕ) : ℕ :=
  let x := (x >>> 16) ||| (x <<< 16) % 2 ^ 64
  let x := ((x &&& 0xFF00FF00) >>> 8) ||| ((x &&& 0x00FF00FF) <<< 8)
  let x := ((x &&& 0xF0F0F0F0) >>> 4) ||| ((x &&& 0x0F0F0F0F) <<< 4)
  let x := ((x &&& 0xCCCCCCCC) >>> 2) ||| ((x &&& 0x33333333) <<< 2)
  (((x &&& 0xAAAAAAAA) >>> 1) ||| ((x &&& 0x55555555) <<< 1)) >>>
    (32 - domainPow)

/-- Exchange an element with the one at its reversed index. -/
def exchangeReversed
    {K : Type}
    (domainPow : ℕ)
    (a : ℕ → K)
    (i : ℕ) : ℕ → K :=
  let r := BR i domainPow
  if i > r then
    let tmp := a i
    Function.update (Function.update a i (a r)) r tmp
  else
    a

/-- Exchange all elements with those at their reversed indices. -/
def reversePermutation
    {K : Type}
    (nThreads : ℕ)
    (a : ℕ → K)
    (n : ℕ) : ℕ → K :=
  let domainPow := log2 n
  ThreadPool.parallelFor nThreads 0 (asInt n)
    (JobRange.forLoop fun a i => exchangeReversed domainPow a i.toNat) a

section Field

variable
    {K : Type}
    [Field K]

/-- A root of unity of the table. -/
def root (F : FFT K) (domainPow idx : ℕ) : K :=
  F.roots (idx <<< (F.s - domainPow))

/-- Join a pair of elements at a stage. -/
def butterfly
    (F : FFT K)
    (s : ℕ)
    (a : ℕ → K)
    (i : ℕ) : ℕ → K :=
  let m := 1 <<< s
  let mdiv2 := m >>> 1
  let k := i / mdiv2 * m
  let j := i % mdiv2
  let t := F.root s j * a (k + j + mdiv2)
  let u := a (k + j)
  Function.update (Function.update a (k + j) (t + u)) (k + j + mdiv2) (u - t)

/-- Transform an array in place. -/
def fft
    (F : FFT K)
    (nThreads : ℕ)
    (a : ℕ → K)
    (n : ℕ) : ℕ → K :=
  (List.range (log2 n)).foldl
    (fun a index =>
      ThreadPool.parallelFor nThreads 0 (asInt (n >>> 1))
        (JobRange.forLoop fun a i => F.butterfly (index + 1) a i.toNat) a)
    (reversePermutation nThreads a n)

/-- Exchange an element with the one as far from the end, and divide both. -/
def turnAround
    (F : FFT K)
    (n : ℕ)
    (a : ℕ → K)
    (i : ℕ) : ℕ → K :=
  let r := n - i
  let tmp := a i
  let turned := Function.update a i (a r * F.powTwoInv (log2 n))
  Function.update turned r (tmp * F.powTwoInv (log2 n))

/-- Multiply an element by the inverse of the length. -/
def divideBy
    (F : FFT K)
    (n : ℕ)
    (a : ℕ → K)
    (i : ℕ) : ℕ → K :=
  Function.update a i (a i * F.powTwoInv (log2 n))

/-- Transform an array back in place. -/
def ifft
    (F : FFT K)
    (nThreads : ℕ)
    (a : ℕ → K)
    (n : ℕ) : ℕ → K :=
  let transformed := F.fft nThreads a n
  let turned :=
    ThreadPool.parallelFor nThreads 1 (asInt (n >>> 1))
      (JobRange.forLoop fun a i => F.turnAround n a i.toNat) transformed
  F.divideBy n (F.divideBy n turned 0) (n >>> 1)

end Field

section Reversal

/-- The logarithm of a power of two. -/
theorem log2_two_pow
    (bits : ℕ) :
    log2 (2 ^ bits) = bits := by
  induction bits with
  | zero =>
      rw [log2, if_pos (by norm_num)]
  | succ bits inductionHypothesis =>
      have large : 1 < 2 ^ (bits + 1) := Nat.one_lt_two_pow (Nat.succ_ne_zero _)
      have half : 2 ^ (bits + 1) >>> 1 = 2 ^ bits := by
        rw [Nat.shiftRight_one, pow_succ, Nat.mul_div_cancel _ Nat.two_pos]
      rw [log2, if_neg (by omega), half, inductionHypothesis]

/-- Two masks under which groups of thirty-two bits change places. -/
def Masks (high low distance : ℕ) : Prop :=
  ∀ bit < 32,
    bit ^^^ distance = distance + bit ∧
        high.testBit (distance + bit) = true ∧
        (distance ≤ bit → low.testBit (bit - distance) = false) ∨
      bit ^^^ distance = bit - distance ∧
        distance ≤ bit ∧
        high.testBit (distance + bit) = false ∧
        low.testBit (bit - distance) = true

instance (high low distance : ℕ) : Decidable (Masks high low distance) :=
  inferInstanceAs (Decidable (∀ bit < 32, _))

/-- Bits change places as their groups do. -/
theorem Masks.testBit
    {high low distance : ℕ}
    (masks : Masks high low distance)
    (x : ℕ)
    {bit : ℕ}
    (inside : bit < 32) :
    (((x &&& high) >>> distance) ||| ((x &&& low) <<< distance)).testBit bit =
      x.testBit (bit ^^^ distance) := by
  rw [Nat.testBit_or, Nat.testBit_shiftRight, Nat.testBit_shiftLeft,
    Nat.testBit_and, Nat.testBit_and]
  rcases masks bit inside with
    ⟨place, isHigh, notLow⟩ | ⟨place, above, notHigh, isLow⟩
  · rw [place, isHigh]
    by_cases above : distance ≤ bit
    · simp [notLow above]
    · simp [above]
  · rw [place, notHigh, isLow]
    simp [above]

/-- The halves of thirty-two bits change places. -/
theorem testBit_halves
    {x bit : ℕ}
    (small : x < 2 ^ 32)
    (inside : bit < 32) :
    ((x >>> 16) ||| (x <<< 16) % 2 ^ 64).testBit bit =
      x.testBit (bit ^^^ 16) := by
  have places :
      ∀ bit < 32, bit ^^^ 16 = if bit < 16 then 16 + bit else bit - 16 := by
    decide
  rw [Nat.testBit_or, Nat.testBit_shiftRight, Nat.testBit_mod_two_pow,
    Nat.testBit_shiftLeft, places bit inside]
  split
  next lower =>
    simp [Nat.not_le.mpr lower]
  next upper =>
    have past : x < 2 ^ (16 + bit) :=
      small.trans_le (Nat.pow_le_pow_right Nat.two_pos (by omega))
    rw [Nat.testBit_lt_two_pow past]
    simp [Nat.not_lt.mp upper, show bit < 64 by omega]

/-- The bits of an index in the reversed order. -/
theorem BR_eq
    {x domainPow : ℕ}
    (fits : x < 2 ^ domainPow)
    (most : domainPow ≤ 32) :
    BR x domainPow = reverse domainPow x := by
  have small : x < 2 ^ 32 :=
    fits.trans_le (Nat.pow_le_pow_right Nat.two_pos most)
  have bytes : Masks 0xFF00FF00 0x00FF00FF 8 := by decide +kernel
  have nibbles : Masks 0xF0F0F0F0 0x0F0F0F0F 4 := by decide +kernel
  have pairs : Masks 0xCCCCCCCC 0x33333333 2 := by decide +kernel
  have singles : Masks 0xAAAAAAAA 0x55555555 1 := by decide +kernel
  have places :
      ∀ bit < 32,
        bit ^^^ 1 < 32 ∧
          bit ^^^ 1 ^^^ 2 < 32 ∧
          bit ^^^ 1 ^^^ 2 ^^^ 4 < 32 ∧
          bit ^^^ 1 ^^^ 2 ^^^ 4 ^^^ 8 < 32 ∧
          bit ^^^ 1 ^^^ 2 ^^^ 4 ^^^ 8 ^^^ 16 = 31 - bit := by
    decide
  refine Nat.eq_of_testBit_eq fun bit => ?_
  simp only [BR]
  rw [Nat.testBit_shiftRight]
  rcases Nat.lt_or_ge bit domainPow with inside | outside
  · obtain ⟨first, second, third, fourth, mirrored⟩ :=
      places (32 - domainPow + bit) (by omega)
    rw [singles.testBit _ (by omega), pairs.testBit _ first,
      nibbles.testBit _ second, bytes.testBit _ third,
      testBit_halves small fourth, mirrored, testBit_reverse _ _ inside]
    congr 1
    omega
  · have word :
        ∀ y : ℕ,
          ((y &&& 0xAAAAAAAA) >>> 1) ||| ((y &&& 0x55555555) <<< 1) <
            2 ^ 32 := by
      intro y
      have high : y &&& 0xAAAAAAAA ≤ 0xAAAAAAAA := Nat.and_le_right
      have low : y &&& 0x55555555 ≤ 0x55555555 := Nat.and_le_right
      rw [Nat.shiftRight_one, Nat.shiftLeft_eq]
      exact Nat.or_lt_two_pow (by omega) (by omega)
    have past : 2 ^ 32 ≤ 2 ^ (32 - domainPow + bit) :=
      Nat.pow_le_pow_right Nat.two_pos (by omega)
    have beyond : 2 ^ domainPow ≤ 2 ^ bit :=
      Nat.pow_le_pow_right Nat.two_pos outside
    rw [Nat.testBit_lt_two_pow ((word _).trans_le past),
      Nat.testBit_lt_two_pow ((reverse_lt _ _).trans_le beyond)]

variable {K : Type}

/-- The permutation takes every element from its reversed index. -/
theorem reversePermutation_eq
    {nThreads : ℕ}
    (threads : 0 < nThreads)
    {bits : ℕ}
    (most : bits < 31)
    (a : ℕ → K) :
    (∀ i < 2 ^ bits,
        reversePermutation nThreads a (2 ^ bits) i = a (reverse bits i)) ∧
      ∀ i ≥ 2 ^ bits, reversePermutation nThreads a (2 ^ bits) i = a i := by
  have fits : 2 ^ bits < 2 ^ 31 := Nat.pow_lt_pow_right Nat.one_lt_two most
  have exchanged :=
    @foldl_exchange K (reverse bits) (2 ^ bits)
      (fun i _ => reverse_lt bits i) (fun i inside => reverse_reverse inside) a
  have loops :
      reversePermutation nThreads a (2 ^ bits) =
        (List.range (2 ^ bits)).foldl (exchange (reverse bits)) a := by
    unfold reversePermutation
    rw [asInt_eq fits, ThreadPool.parallelFor_range threads, log2_two_pow]
    refine List.foldl_ext _ _ _ fun b i member => ?_
    unfold exchangeReversed exchange
    rw [Int.toNat_natCast, BR_eq (List.mem_range.mp member) (by omega)]
  rw [loops]
  exact exchanged

end Reversal

section Tables

variable
    {K : Type}
    [Field K]
    {F : FFT K}

/-- The tables hold the powers of a root of unity and of one half. -/
structure Valid (F : FFT K) : Prop where
  primitive : IsPrimitiveRoot (F.roots 1) (2 ^ F.s)
  powers : ∀ i < 2 ^ F.s, F.roots i = F.roots 1 ^ i
  inverses : ∀ i ≤ F.s, F.powTwoInv i * 2 ^ i = 1

/-- The root of unity for a power of two. -/
def unity (F : FFT K) (bits : ℕ) : K :=
  F.roots 1 ^ 2 ^ (F.s - bits)

/-- A root of the table is a power of the root of unity of its order. -/
theorem Valid.root_eq
    (valid : F.Valid)
    {bits : ℕ}
    (known : bits ≤ F.s)
    {j : ℕ}
    (inside : j < 2 ^ bits) :
    F.root bits j = F.unity bits ^ j := by
  have place : j * 2 ^ (F.s - bits) < 2 ^ F.s := by
    have total : 2 ^ F.s = 2 ^ bits * 2 ^ (F.s - bits) := by
      rw [← pow_add, Nat.add_sub_cancel' known]
    rw [total]
    exact Nat.mul_lt_mul_of_pos_right inside (by positivity)
  unfold root unity
  rw [Nat.shiftLeft_eq, valid.powers _ place, ← pow_mul, mul_comm]

/-- The roots of unity are roots of one another. -/
theorem Valid.roots
    (valid : F.Valid) :
    Roots F.unity F.s where
  square := by
    intro bits below
    have exponent : F.s - bits = F.s - (bits + 1) + 1 := by omega
    unfold unity
    rw [← pow_mul, exponent, pow_succ]
  half := by
    intro bits below
    have exponent : F.s - (bits + 1) + bits + 1 = F.s := by omega
    have square : (F.unity (bits + 1) ^ 2 ^ bits) ^ 2 = 1 := by
      unfold unity
      rw [← pow_mul, ← pow_mul, ← pow_succ, ← pow_add, ← add_assoc, exponent]
      exact valid.primitive.pow_eq_one
    have notOne : F.unity (bits + 1) ^ 2 ^ bits ≠ 1 := by
      unfold unity
      rw [← pow_mul, ← pow_add]
      refine
        valid.primitive.pow_ne_one_of_pos_of_lt (by positivity)
          (Nat.pow_lt_pow_right Nat.one_lt_two (by omega))
    exact (sq_eq_one_iff.mp square).resolve_left notOne

/-- They are primitive. -/
theorem Valid.isPrimitiveRoot
    (valid : F.Valid)
    {bits : ℕ}
    (known : bits ≤ F.s) :
    IsPrimitiveRoot (F.unity bits) (2 ^ bits) := by
  refine valid.primitive.pow (by positivity) ?_
  rw [← pow_add, Nat.sub_add_cancel known]

end Tables

section Stages

variable
    {K : Type}
    [Field K]
    {F : FFT K}

/-- The lower place of a pair at a stage. -/
def lower (done i : ℕ) : ℕ :=
  i / 2 ^ done * 2 ^ (done + 1) + i % 2 ^ done

/-- The pair of an index below half a block. -/
theorem lower_eq
    {done block j : ℕ}
    (inside : j < 2 ^ done) :
    lower done (block * 2 ^ done + j) = block * 2 ^ (done + 1) + j := by
  have quotient : (block * 2 ^ done + j) / 2 ^ done = block := by
    rw [mul_comm, Nat.mul_add_div (by positivity), Nat.div_eq_of_lt inside,
      add_zero]
  have remainder : (block * 2 ^ done + j) % 2 ^ done = j := by
    rw [mul_comm, Nat.mul_add_mod, Nat.mod_eq_of_lt inside]
  rw [lower, quotient, remainder]

/-- Every index is that of a pair of some block. -/
theorem eq_block
    (done i : ℕ) :
    ∃ block j, j < 2 ^ done ∧ i = block * 2 ^ done + j :=
  ⟨i / 2 ^ done, i % 2 ^ done, Nat.mod_lt _ (by positivity),
    (Nat.div_add_mod' i (2 ^ done)).symm⟩

/-- Pairs of different blocks or indices have no place in common. -/
theorem lower_apart
    (done i other : ℕ) :
    lower done i ≠ lower done other + 2 ^ done ∧
      (lower done i = lower done other → i = other) := by
  obtain ⟨block, j, inside, rfl⟩ := eq_block done i
  obtain ⟨otherBlock, otherJ, otherInside, rfl⟩ := eq_block done other
  rw [lower_eq inside, lower_eq otherInside, pow_succ]
  constructor
  · intro same
    rcases lt_trichotomy block otherBlock with before | rfl | after
    · have rows := Nat.mul_le_mul_right (2 ^ done * 2) before
      rw [Nat.succ_mul] at rows
      omega
    · omega
    · have rows := Nat.mul_le_mul_right (2 ^ done * 2) after
      rw [Nat.succ_mul] at rows
      omega
  · intro same
    rcases lt_trichotomy block otherBlock with before | rfl | after
    · have rows := Nat.mul_le_mul_right (2 ^ done * 2) before
      rw [Nat.succ_mul] at rows
      omega
    · omega
    · have rows := Nat.mul_le_mul_right (2 ^ done * 2) after
      rw [Nat.succ_mul] at rows
      omega

/-- A butterfly replaces the pair of its index. -/
theorem butterfly_eq
    (F : FFT K)
    (done : ℕ)
    (a : ℕ → K)
    (i : ℕ) :
    F.butterfly (done + 1) a i =
      replacePair (lower done) (fun i => lower done i + 2 ^ done)
        (fun i u v => F.root (done + 1) (i % 2 ^ done) * v + u)
        (fun i u v => u - F.root (done + 1) (i % 2 ^ done) * v)
        a i := by
  have half : 2 ^ (done + 1) / 2 = 2 ^ done := by
    rw [pow_succ, Nat.mul_div_cancel _ Nat.two_pos]
  simp only [butterfly, Nat.one_shiftLeft, Nat.shiftRight_one, half]
  rfl

/-- A stage of pairs below half of the length joins the blocks before it. -/
theorem foldl_butterfly
    (valid : F.Valid)
    {bits : ℕ}
    (known : bits ≤ F.s)
    (a : ℕ → K)
    {done : ℕ}
    (below : done < bits)
    {current : ℕ → K}
    (blocks :
      ∀ block < 2 ^ (bits - done), ∀ j < 2 ^ done,
        current (block * 2 ^ done + j) =
          stage F.unity bits a done block j) :
    let joined :=
      (List.range (2 ^ (bits - 1))).foldl (F.butterfly (done + 1)) current
    (∀ block < 2 ^ (bits - (done + 1)), ∀ j < 2 ^ (done + 1),
        joined (block * 2 ^ (done + 1) + j) =
          stage F.unity bits a (done + 1) block j) ∧
      ∀ index ≥ 2 ^ bits, joined index = current index := by
  have halves : 2 ^ (bits - (done + 1)) * 2 ^ done = 2 ^ (bits - 1) := by
    rw [← pow_add]
    congr 1
    omega
  have whole : 2 ^ (bits - 1) * 2 = 2 ^ bits := by
    rw [← pow_succ]
    congr 1
    omega
  have blockCount : 2 ^ (bits - done) = 2 ^ (bits - (done + 1)) * 2 := by
    rw [← pow_succ]
    congr 1
    omega
  have replaced :=
    @foldl_replacePair K (lower done) (fun i => lower done i + 2 ^ done)
      (2 ^ (bits - 1))
      (fun i u v => F.root (done + 1) (i % 2 ^ done) * v + u)
      (fun i u v => u - F.root (done + 1) (i % 2 ^ done) * v)
      (fun i _ other _ => (lower_apart done i other).1)
      (fun i _ other _ => (lower_apart done i other).2)
      (fun i _ other _ same =>
        (lower_apart done i other).2 (Nat.add_right_cancel same))
      current
  have loops :
      (List.range (2 ^ (bits - 1))).foldl (F.butterfly (done + 1)) current =
        (List.range (2 ^ (bits - 1))).foldl
          (replacePair (lower done) (fun i => lower done i + 2 ^ done)
            (fun i u v => F.root (done + 1) (i % 2 ^ done) * v + u)
            (fun i u v => u - F.root (done + 1) (i % 2 ^ done) * v))
          current :=
    List.foldl_ext _ _ _ fun b i _ => F.butterfly_eq done b i
  simp only at replaced ⊢
  rw [loops]
  generalize
    (List.range (2 ^ (bits - 1))).foldl
      (replacePair (lower done) (fun i => lower done i + 2 ^ done)
        (fun i u v => F.root (done + 1) (i % 2 ^ done) * v + u)
        (fun i u v => u - F.root (done + 1) (i % 2 ^ done) * v))
      current = joined at replaced ⊢
  refine ⟨fun block isBlock => ?_, fun index past => replaced.2 index ?_⟩
  · have pairs :
        ∀ j < 2 ^ done,
          joined (block * 2 ^ (done + 1) + j) =
              stage F.unity bits a (done + 1) block j ∧
            joined (block * 2 ^ (done + 1) + j + 2 ^ done) =
              stage F.unity bits a (done + 1) block (j + 2 ^ done) := by
      intro j inside
      have isPair : block * 2 ^ done + j < 2 ^ (bits - 1) := by
        have rows := Nat.mul_le_mul_right (2 ^ done) isBlock
        rw [Nat.succ_mul, halves] at rows
        omega
      have remainder : (block * 2 ^ done + j) % 2 ^ done = j := by
        rw [mul_comm, Nat.mul_add_mod, Nat.mod_eq_of_lt inside]
      have even := blocks (2 * block) (by omega) j inside
      have odd := blocks (2 * block + 1) (by omega) j inside
      have joins :=
        stage_pair valid.roots a below (below.trans_le known) block j
      have evenPlace : 2 * block * 2 ^ done + j = block * 2 ^ (done + 1) + j := by
        ring
      have oddPlace :
          (2 * block + 1) * 2 ^ done + j =
            block * 2 ^ (done + 1) + j + 2 ^ done := by
        ring
      have root := valid.root_eq (show done + 1 ≤ F.s by omega)
        (show j < 2 ^ (done + 1) by rw [pow_succ]; omega)
      have both := replaced.1 _ isPair
      simp only [lower_eq inside, remainder, root] at both
      rw [evenPlace] at even
      rw [oddPlace] at odd
      rw [even, odd, ← joins.1, ← joins.2] at both
      exact both
    intro j inside
    rcases Nat.lt_or_ge j (2 ^ done) with first | second
    · exact (pairs j first).1
    · obtain ⟨rest, rfl⟩ := Nat.exists_eq_add_of_le' second
      rw [pow_succ] at inside
      rw [← add_assoc]
      exact (pairs rest (by omega)).2
  · intro i isPair
    obtain ⟨block, j, inside, rfl⟩ := eq_block done i
    rw [lower_eq inside]
    have rows : block < 2 ^ (bits - (done + 1)) := by
      by_contra large
      have many := Nat.mul_le_mul_right (2 ^ done) (Nat.not_lt.mp large)
      rw [halves] at many
      omega
    have area := Nat.mul_le_mul_right (2 ^ (done + 1)) rows
    have total : 2 ^ (bits - (done + 1)) * 2 ^ (done + 1) = 2 ^ bits := by
      rw [← pow_add, Nat.sub_add_cancel below]
    have double : 2 ^ (done + 1) = 2 ^ done * 2 := pow_succ 2 done
    rw [Nat.succ_mul, total] at area
    constructor
    · omega
    · omega

end Stages

section Correctness

variable
    {K : Type}
    [Field K]
    {F : FFT K}
    {nThreads bits : ℕ}

/-- An array is transformed in its place, and nothing beyond it changes. -/
theorem Valid.fft_eq
    (valid : F.Valid)
    (threads : 0 < nThreads)
    (known : bits ≤ F.s)
    (most : bits < 31)
    (a : ℕ → K) :
    (∀ j < 2 ^ bits,
        F.fft nThreads a (2 ^ bits) j =
          transform (F.unity bits) (2 ^ bits) a j) ∧
      ∀ j ≥ 2 ^ bits, F.fft nThreads a (2 ^ bits) j = a j := by
  have permuted := reversePermutation_eq threads most a
  have stages :=
    @Imperative.foldl_range_invariant _ bits
      (fun done (current : ℕ → K) =>
        (∀ block < 2 ^ (bits - done), ∀ j < 2 ^ done,
          current (block * 2 ^ done + j) =
            stage F.unity bits a done block j) ∧
          ∀ index ≥ 2 ^ bits, current index = a index)
      (fun a index =>
        ThreadPool.parallelFor nThreads 0 (asInt (2 ^ bits >>> 1))
          (JobRange.forLoop fun a i => F.butterfly (index + 1) a i.toNat) a)
      (reversePermutation nThreads a (2 ^ bits))
      (by
        refine ⟨fun block isBlock j inside => ?_, permuted.2⟩
        have first : j = 0 := by omega
        rw [first, pow_zero, mul_one, add_zero, stage_zero]
        exact permuted.1 block isBlock)
      (by
        rintro current done below ⟨blocks, outside⟩
        have half : 2 ^ bits >>> 1 = 2 ^ (bits - 1) := by
          have exponent : bits = bits - 1 + 1 := by omega
          rw [Nat.shiftRight_one, exponent, pow_succ,
            Nat.mul_div_cancel _ Nat.two_pos, Nat.add_sub_cancel]
        have fits : 2 ^ (bits - 1) < 2 ^ 31 :=
          Nat.pow_lt_pow_right Nat.one_lt_two (by omega)
        rw [half, asInt_eq fits, ThreadPool.parallelFor_range threads]
        simp only [Int.toNat_natCast]
        obtain ⟨joined, kept⟩ := foldl_butterfly valid known a below blocks
        exact
          ⟨joined, fun index past => (kept index past).trans (outside index past)⟩)
  unfold fft
  rw [log2_two_pow]
  refine ⟨fun j inside => ?_, stages.2⟩
  have last := stages.1 0 (by positivity) j inside
  rw [zero_mul, zero_add, stage_self] at last
  exact last

/-- Turning an array around takes every element from its mirror. -/
theorem foldl_turnAround
    (F : FFT K)
    (positive : 0 < bits)
    (a : ℕ → K) :
    let turned :=
      (List.range (2 ^ (bits - 1) - 1)).foldl
        (fun a offset => F.turnAround (2 ^ bits) a (1 + offset)) a
    (∀ i < 2 ^ bits,
        turned i =
          if i = 0 ∨ i = 2 ^ (bits - 1) then
            a i
          else
            a (mirror (2 ^ bits) i) * F.powTwoInv bits) ∧
      ∀ i ≥ 2 ^ bits, turned i = a i := by
  have whole : 2 ^ bits = 2 ^ (bits - 1) * 2 := by
    rw [← pow_succ, Nat.sub_add_cancel positive]
  have someHalf : 0 < 2 ^ (bits - 1) := by positivity
  have replaced :=
    @foldl_replacePair K (fun offset => 1 + offset)
      (fun offset => 2 ^ bits - (1 + offset)) (2 ^ (bits - 1) - 1)
      (fun _ _ v => v * F.powTwoInv bits)
      (fun _ u _ => u * F.powTwoInv bits)
      (fun offset isOffset other isOther => by omega)
      (fun offset _ other _ same => by omega)
      (fun offset isOffset other isOther same => by omega)
      a
  have loops :
      (List.range (2 ^ (bits - 1) - 1)).foldl
          (fun a offset => F.turnAround (2 ^ bits) a (1 + offset)) a =
        (List.range (2 ^ (bits - 1) - 1)).foldl
          (replacePair (fun offset => 1 + offset)
            (fun offset => 2 ^ bits - (1 + offset))
            (fun _ _ v => v * F.powTwoInv bits)
            (fun _ u _ => u * F.powTwoInv bits))
          a := by
    refine List.foldl_ext _ _ _ fun b offset _ => ?_
    simp only [turnAround, replacePair, log2_two_pow]
  simp only at replaced ⊢
  rw [loops]
  generalize
    (List.range (2 ^ (bits - 1) - 1)).foldl
      (replacePair (fun offset => 1 + offset)
        (fun offset => 2 ^ bits - (1 + offset))
        (fun _ _ v => v * F.powTwoInv bits)
        (fun _ u _ => u * F.powTwoInv bits))
      a = turned at replaced ⊢
  constructor
  · intro i inside
    split_ifs with border
    · refine replaced.2 i fun offset isOffset => ?_
      rcases border with rfl | rfl
      · omega
      · omega
    · have mirrored : mirror (2 ^ bits) i = 2 ^ bits - i :=
        Nat.mod_eq_of_lt (by omega)
      rw [mirrored]
      rcases Nat.lt_or_ge i (2 ^ (bits - 1)) with first | second
      · have own := (replaced.1 (i - 1) (by omega)).1
        have place : 1 + (i - 1) = i := by omega
        rw [place] at own
        exact own
      · have own := (replaced.1 (2 ^ bits - i - 1) (by omega)).2
        have place : 1 + (2 ^ bits - i - 1) = 2 ^ bits - i := by omega
        have back : 2 ^ bits - (2 ^ bits - i) = i := by omega
        rw [place, back] at own
        exact own
  · intro i past
    refine replaced.2 i fun offset isOffset => ?_
    omega

/-- The inverse takes the transform from the mirror, divided by the length. -/
theorem Valid.ifft_eq
    (valid : F.Valid)
    (threads : 0 < nThreads)
    (known : bits ≤ F.s)
    (most : bits < 31)
    (a : ℕ → K) :
    (∀ j < 2 ^ bits,
        F.ifft nThreads a (2 ^ bits) j =
          transform (F.unity bits) (2 ^ bits) a (mirror (2 ^ bits) j) *
            F.powTwoInv bits) ∧
      ∀ j ≥ 2 ^ bits, F.ifft nThreads a (2 ^ bits) j = a j := by
  obtain ⟨transformed, outside⟩ := valid.fft_eq threads known most a
  unfold ifft
  generalize F.fft nThreads a (2 ^ bits) = values at transformed outside
  rcases Nat.eq_zero_or_pos bits with rfl | positive
  · have one : F.powTwoInv 0 = 1 := by
      have inverse := valid.inverses 0 (Nat.zero_le _)
      rwa [pow_zero, mul_one] at inverse
    have still : F.divideBy (2 ^ 0) values 0 = values := by
      unfold divideBy
      rw [log2_two_pow, one, mul_one, Function.update_eq_self]
    have noPair : (2 ^ 0 >>> 1 : ℕ) = 0 := rfl
    have noLoop :
        ThreadPool.parallelFor nThreads 1 (asInt (2 ^ 0 >>> 1))
            (JobRange.forLoop fun a i => F.turnAround (2 ^ 0) a i.toNat)
            values =
          values :=
      if_pos (by decide)
    rw [noLoop, still, noPair, still]
    refine ⟨fun j inside => ?_, outside⟩
    have first : j = 0 := by omega
    rw [first, transformed 0 inside.pos, one, mul_one]
    rfl
  · have whole : 2 ^ bits = 2 ^ (bits - 1) * 2 := by
      rw [← pow_succ, Nat.sub_add_cancel positive]
    have someHalf : 0 < 2 ^ (bits - 1) := by positivity
    have half : 2 ^ bits >>> 1 = 2 ^ (bits - 1) := by
      rw [Nat.shiftRight_one, whole, Nat.mul_div_cancel _ Nat.two_pos]
    have fits : 2 ^ (bits - 1) < 2 ^ 31 :=
      Nat.pow_lt_pow_right Nat.one_lt_two (by omega)
    obtain ⟨turned, kept⟩ := foldl_turnAround F positive values
    have loops :
        ThreadPool.parallelFor nThreads 1 (asInt (2 ^ bits >>> 1))
            (JobRange.forLoop fun a i => F.turnAround (2 ^ bits) a i.toNat)
            values =
          (List.range (2 ^ (bits - 1) - 1)).foldl
            (fun a offset => F.turnAround (2 ^ bits) a (1 + offset)) values := by
      have count : ((2 ^ (bits - 1) : ℕ) - 1 : ℤ).toNat = 2 ^ (bits - 1) - 1 := by
        omega
      rw [half, asInt_eq fits, ThreadPool.parallelFor_forLoop threads]
      simp only [JobRange.indices, List.foldl_map, count]
      rfl
    rw [loops, half]
    generalize
      (List.range (2 ^ (bits - 1) - 1)).foldl
        (fun a offset => F.turnAround (2 ^ bits) a (1 + offset)) values =
      around at turned kept
    unfold divideBy
    rw [log2_two_pow]
    constructor
    · intro j inside
      have value := turned j inside
      rcases eq_or_ne j (2 ^ (bits - 1)) with rfl | notHalf
      · have own : mirror (2 ^ bits) (2 ^ (bits - 1)) = 2 ^ (bits - 1) := by
          unfold mirror
          rw [Nat.mod_eq_of_lt (by omega)]
          omega
        rw [if_pos (.inr rfl)] at value
        rw [Function.update_self, Function.update_of_ne someHalf.ne', value,
          own, transformed _ inside]
      · rw [Function.update_of_ne notHalf]
        rcases eq_or_ne j 0 with rfl | notZero
        · have own : mirror (2 ^ bits) 0 = 0 := by
            unfold mirror
            rw [Nat.sub_zero, Nat.mod_self]
          rw [if_pos (.inl rfl)] at value
          rw [Function.update_self, value, own, transformed 0 inside]
        · rw [if_neg (not_or.mpr ⟨notZero, notHalf⟩)] at value
          rw [Function.update_of_ne notZero, value,
            transformed _ (mirror_lt inside)]
    · intro j past
      rw [Function.update_of_ne (by omega), Function.update_of_ne (by omega),
        kept j past, outside j past]

/-- The inverse undoes the transform, and the transform the inverse. -/
theorem Valid.ifft_fft
    (valid : F.Valid)
    (threads : 0 < nThreads)
    (known : bits ≤ F.s)
    (most : bits < 31)
    (a : ℕ → K)
    {j : ℕ}
    (inside : j < 2 ^ bits) :
    F.ifft nThreads (F.fft nThreads a (2 ^ bits)) (2 ^ bits) j = a j ∧
      F.fft nThreads (F.ifft nThreads a (2 ^ bits)) (2 ^ bits) j = a j := by
  have primitive := valid.isPrimitiveRoot known
  have inverse := valid.inverses bits known
  have length : ((2 ^ bits : ℕ) : K) = 2 ^ bits := by
    push_cast
    rfl
  have twice := transform_transform primitive a inside
  have turned :=
    transform_mirror primitive.pow_eq_one
      (transform (F.unity bits) (2 ^ bits) a) inside
  constructor
  · rw [(valid.ifft_eq threads known most _).1 j inside,
      transform_congr _ (valid.fft_eq threads known most a).1, twice, length]
    linear_combination a j * inverse
  · rw [(valid.fft_eq threads known most _).1 j inside,
      transform_congr _ (valid.ifft_eq threads known most a).1,
      transform_mul, turned, twice, length]
    linear_combination a j * inverse

end Correctness

end FFT

end StarkCash.Rapidsnark
