import StarkCash.NafMultiplication
import StarkCash.ThreadPool

namespace StarkCash.Rapidsnark

/-!
# Sums of multiples

`MSM::run` cuts every scalar into signed digits of a few bits, gathers for
each digit the bases in one bucket for each magnitude, weighs the buckets by
adding them up twice from the top, and combines the digits by doubling.  Every
thread has a row of the buckets, which it clears before it fills it.  The
number of bits of a digit is chosen by the number of additions it costs.
-/

open GroupOperations

namespace MSM

/-- Least number of bits of a digit. -/
def minChunkSizeBits : ℕ := 3

/-- Greatest number of bits of a digit. -/
def maxChunkSizeBits : ℕ := 16

/-- Digits of a scalar. -/
def calcChunkCount (scalarSize bitsPerChunk : ℕ) : ℕ :=
  (scalarSize * 8 - 1) / bitsPerChunk + 1

/-- Buckets for the magnitudes of a digit. -/
def calcBucketCount (bitsPerChunk : ℕ) : ℕ :=
  1 <<< (bitsPerChunk - 1)

/-- Additions that digits of some bits cost. -/
def calcAddsCount (nPoints scalarSize bitsPerChunk : ℕ) : ℕ :=
  calcChunkCount scalarSize bitsPerChunk *
    (nPoints + (1 <<< bitsPerChunk) + bitsPerChunk + 1)

/-- The number of bits for which the additions are fewest. -/
def calcBitsPerChunk (n scalarSize : ℕ) : ℕ :=
  ((List.range (maxChunkSizeBits - minChunkSizeBits)).foldl
    (fun (best : ℕ × ℕ) i =>
      let k := minChunkSizeBits + 1 + i
      let curAdds := calcAddsCount n scalarSize k
      if curAdds < best.1 then (curAdds, k) else best)
    (calcAddsCount n scalarSize minChunkSizeBits, minChunkSizeBits)).2

/-- The bits of a digit, read within an eight byte word. -/
def getBucketIndex
    (scalars : ℕ → UInt8)
    (scalarSize bitsPerChunk scalarIdx chunkIdx : ℕ) : ℕ :=
  let bitStart := chunkIdx * bitsPerChunk
  let byteStart :=
    if bitStart / 8 > scalarSize - 8 then scalarSize - 8 else bitStart / 8
  let efectiveBitsPerChunk :=
    if bitStart + bitsPerChunk > scalarSize * 8 then
      scalarSize * 8 - bitStart
    else
      bitsPerChunk
  let shift := bitStart - byteStart * 8
  let v := ByteMemory.load scalars (scalarIdx * scalarSize + byteStart) 8
  (v >>> shift) &&& ((1 <<< efectiveBitsPerChunk) - 1)

/-- The digits of a scalar, the carry going from one to the next. -/
def sliceScalar
    (scalars : ℕ → UInt8)
    (scalarSize bitsPerChunk nChunks nBuckets : ℕ)
    (slicedScalars : ℕ → ℤ)
    (i : ℤ) : ℕ → ℤ :=
  ((List.range nChunks).foldl
    (fun (state : ℕ × (ℕ → ℤ)) j =>
      let bucketIndex :=
        getBucketIndex scalars scalarSize bitsPerChunk i.toNat j + state.1
      if bucketIndex ≥ nBuckets then
        (1,
          Function.update state.2 (i.toNat * nChunks + j)
            ((bucketIndex : ℤ) - nBuckets * 2))
      else
        (0, Function.update state.2 (i.toNat * nChunks + j) bucketIndex))
    (0, slicedScalars)).2

section Buckets

variable {Base Point : Type}

/-- Where the sums of the digits are computed. -/
inductive Place where
  | bucketMatrix (index : ℕ)
  | chunks (index : ℕ)
  deriving DecidableEq

/-- Set the buckets of a row to the identity. -/
def clearBuckets
    (g : Operations Base Point)
    (nBuckets row : ℕ)
    (memory : Place → Point) : Place → Point :=
  (List.range nBuckets).foldl
    (fun memory i =>
      Function.update memory (.bucketMatrix (row + i)) g.zero)
    memory

/-- Put a base into the bucket of its digit. -/
def fillBucket
    (g : Operations Base Point)
    (bases : ℕ → Base)
    (slicedScalars : ℕ → ℤ)
    (nChunks row j : ℕ)
    (memory : Place → Point)
    (i : ℕ) : Place → Point :=
  let bucketIndex := slicedScalars (i * nChunks + j)
  if bucketIndex > 0 then
    let bucket := Place.bucketMatrix (row + (bucketIndex - 1).toNat)
    Function.update memory bucket (g.addBase (memory bucket) (bases i))
  else if bucketIndex < 0 then
    let bucket := Place.bucketMatrix (row + (-bucketIndex - 1).toNat)
    Function.update memory bucket (g.subBase (memory bucket) (bases i))
  else
    memory

/-- Put all bases into the buckets of their digits at one place. -/
def fillBuckets
    (g : Operations Base Point)
    (bases : ℕ → Base)
    (slicedScalars : ℕ → ℤ)
    (nPoints nChunks row j : ℕ)
    (memory : Place → Point) : Place → Point :=
  (List.range nPoints).foldl
    (fillBucket g bases slicedScalars nChunks row j) memory

/-- Add the buckets up twice from the top. -/
def addBuckets
    (g : Operations Base Point)
    (nBuckets : ℕ)
    (buckets : ℕ → Point) : Point :=
  ((List.range (nBuckets - 1)).foldr
    (fun i (state : Point × Point) =>
      let tmp := g.add state.1 (buckets i)
      (tmp, g.add state.2 tmp))
    (buckets (nBuckets - 1), buckets (nBuckets - 1))).2

/-- The sum of all bases with their digits at one place, on some thread. -/
def sumChunk
    (g : Operations Base Point)
    (bases : ℕ → Base)
    (slicedScalars : ℕ → ℤ)
    (nPoints nChunks nBuckets numThread : ℕ)
    (memory : Place → Point)
    (j : ℤ) : Place → Point :=
  let row := numThread * nBuckets
  let filled :=
    fillBuckets g bases slicedScalars nPoints nChunks row j.toNat
      (clearBuckets g nBuckets row memory)
  Function.update filled (.chunks j.toNat)
    (addBuckets g nBuckets fun i => filled (.bucketMatrix (row + i)))

/-- The combination of the digits, the highest first. -/
def combineChunks
    (g : Operations Base Point)
    (bitsPerChunk nChunks : ℕ)
    (chunks : ℕ → Point) : Point :=
  (List.range (nChunks - 1)).foldr
    (fun j r => g.add (g.dbl^[bitsPerChunk] r) (chunks j))
    (chunks (nChunks - 1))

/-- The sum of the bases, each times its scalar (`run`). -/
def run
    (g : Operations Base Point)
    (bases : ℕ → Base)
    (scalars : ℕ → UInt8)
    (scalarSize n nThreads : ℕ) : Point :=
  let bitsPerChunk := calcBitsPerChunk n scalarSize
  if n = 0 then
    g.zero
  else if n = 1 then
    nafMulByScalar g (bases 0) scalars scalarSize
  else
    let nChunks := calcChunkCount scalarSize bitsPerChunk
    let nBuckets := calcBucketCount bitsPerChunk
    let slicedScalars :=
      ThreadPool.parallelFor nThreads 0 (asInt n)
        (JobRange.forLoop
          (sliceScalar scalars scalarSize bitsPerChunk nChunks nBuckets))
        (fun _ => 0)
    let numThread := ThreadPool.curThreadId nThreads 0 (asInt nChunks)
    let memory :=
      ThreadPool.parallelFor nThreads 0 (asInt nChunks)
        (JobRange.forLoop
          (sumChunk g bases slicedScalars n nChunks nBuckets numThread))
        (fun _ => g.zero)
    combineChunks g bitsPerChunk nChunks fun j => memory (.chunks j)

end Buckets

section Chunks

/-- The number of bits of a digit lies within its limits. -/
theorem calcBitsPerChunk_bounds
    (n scalarSize : ℕ) :
    minChunkSizeBits ≤ calcBitsPerChunk n scalarSize ∧
      calcBitsPerChunk n scalarSize ≤ maxChunkSizeBits := by
  rw [calcBitsPerChunk]
  generalize isCount : maxChunkSizeBits - minChunkSizeBits = count
  refine
    Imperative.foldl_range_invariant
      (fun _ (best : ℕ × ℕ) =>
        minChunkSizeBits ≤ best.2 ∧ best.2 ≤ maxChunkSizeBits)
      ⟨le_refl minChunkSizeBits,
        show minChunkSizeBits ≤ maxChunkSizeBits by decide⟩
      fun best i below bounds => ?_
  dsimp only
  split
  · unfold minChunkSizeBits maxChunkSizeBits at isCount
    unfold minChunkSizeBits maxChunkSizeBits
    exact ⟨by omega, by omega⟩
  · exact bounds

variable
    {scalarSize bitsPerChunk : ℕ}

/-- The digits cover the scalar. -/
theorem chunks_cover
    (bits : 0 < bitsPerChunk) :
    scalarSize * 8 ≤
      calcChunkCount scalarSize bitsPerChunk * bitsPerChunk := by
  have division := Nat.div_add_mod (scalarSize * 8 - 1) bitsPerChunk
  have rest := Nat.mod_lt (scalarSize * 8 - 1) bits
  have product :
      calcChunkCount scalarSize bitsPerChunk * bitsPerChunk =
        bitsPerChunk * ((scalarSize * 8 - 1) / bitsPerChunk) +
          bitsPerChunk := by
    unfold calcChunkCount
    ring
  omega

/-- Every digit begins within the scalar. -/
theorem chunk_begins
    (size : 0 < scalarSize)
    (bits : 0 < bitsPerChunk)
    {chunkIdx : ℕ}
    (isChunk : chunkIdx < calcChunkCount scalarSize bitsPerChunk) :
    chunkIdx * bitsPerChunk < scalarSize * 8 := by
  have below : chunkIdx ≤ (scalarSize * 8 - 1) / bitsPerChunk :=
    Nat.le_of_lt_succ isChunk
  have scaled := (Nat.le_div_iff_mul_le bits).mp below
  omega

/-- Bits in the middle of a word of a number are bits of the number. -/
theorem word_bits
    (number start : ℕ)
    {shift count : ℕ}
    (fits : shift + count ≤ 64) :
    number / 2 ^ start % 2 ^ 64 / 2 ^ shift % 2 ^ count =
      number / 2 ^ (start + shift) % 2 ^ count := by
  have word : (2 : ℕ) ^ 64 = 2 ^ shift * 2 ^ (64 - shift) := by
    rw [← pow_add]
    congr 1
    omega
  rw [word, Nat.mod_mul_right_div_self, Nat.div_div_eq_div_mul, ← pow_add,
    Nat.mod_mod_of_dvd _ (pow_dvd_pow 2 (by omega))]

/-- The bits of a digit are those of the scalar at its place. -/
theorem getBucketIndex_eq
    (scalars : ℕ → UInt8)
    (size : 8 ≤ scalarSize)
    (bits : bitsPerChunk ≤ maxChunkSizeBits)
    (scalarIdx : ℕ)
    {chunkIdx : ℕ}
    (begins : chunkIdx * bitsPerChunk < scalarSize * 8) :
    getBucketIndex scalars scalarSize bitsPerChunk scalarIdx chunkIdx =
      ByteMemory.load scalars (scalarIdx * scalarSize) scalarSize /
          (2 ^ bitsPerChunk) ^ chunkIdx %
        2 ^ bitsPerChunk := by
  unfold maxChunkSizeBits at bits
  rw [← pow_mul, mul_comm bitsPerChunk]
  simp only [getBucketIndex]
  generalize chunkIdx * bitsPerChunk = bitStart at begins
  generalize isStart :
    (if bitStart / 8 > scalarSize - 8 then scalarSize - 8 else bitStart / 8) =
      byteStart
  have startFits : byteStart + 8 ≤ scalarSize ∧ byteStart * 8 ≤ bitStart := by
    rw [← isStart]
    split_ifs <;> omega
  have window :
      ∀ count,
        bitStart - byteStart * 8 + count ≤ 64 →
        ByteMemory.load scalars (scalarIdx * scalarSize + byteStart) 8 >>>
              (bitStart - byteStart * 8) &&&
            ((1 <<< count) - 1) =
          ByteMemory.load scalars (scalarIdx * scalarSize) scalarSize /
              2 ^ bitStart %
            2 ^ count := by
    intro count inWord
    have base : (256 : ℕ) ^ byteStart = 2 ^ (byteStart * 8) := by
      rw [mul_comm, pow_mul]
      norm_num
    have word : (256 : ℕ) ^ 8 = 2 ^ 64 := by norm_num
    have place : byteStart * 8 + (bitStart - byteStart * 8) = bitStart := by
      omega
    rw [ByteMemory.load_window scalars (scalarIdx * scalarSize) startFits.1,
      Nat.shiftRight_eq_div_pow, Nat.one_shiftLeft,
      Nat.and_two_pow_sub_one_eq_mod, base, word, word_bits _ _ inWord, place]
  have inWord :
      byteStart * 8 = scalarSize * 8 - 64 ∨
        bitStart - byteStart * 8 ≤ 7 := by
    rw [← isStart]
    split_ifs <;> omega
  split_ifs with final
  · rw [window _ (by omega)]
    have high :
        ByteMemory.load scalars (scalarIdx * scalarSize) scalarSize /
            2 ^ bitStart <
          2 ^ (scalarSize * 8 - bitStart) := by
      have below :=
        ByteMemory.load_lt scalars (scalarIdx * scalarSize) scalarSize
      rw [Nat.div_lt_iff_lt_mul (by positivity), ← pow_add]
      have exponent :
          scalarSize * 8 - bitStart + bitStart = 8 * scalarSize := by
        omega
      rw [exponent, pow_mul]
      norm_num
      exact below
    rw [Nat.mod_eq_of_lt high, Nat.mod_eq_of_lt]
    exact high.trans_le (Nat.pow_le_pow_right (by decide) (by omega))
  · rw [window _ (by omega)]

end Chunks

section Slices

open SignedWindows

/-- The signed digit of a scalar at a place. -/
def chunkDigit
    (scalars : ℕ → UInt8)
    (scalarSize bitsPerChunk scalarIdx chunkIdx : ℕ) : ℤ :=
  signedDigit (calcBucketCount bitsPerChunk)
    (getBucketIndex scalars scalarSize bitsPerChunk scalarIdx) chunkIdx

variable
    (scalars : ℕ → UInt8)
    {scalarSize bitsPerChunk nChunks : ℕ}

/-- A scalar's digits are stored at its own indices, and nothing before. -/
theorem sliceScalar_spec
    (slicedScalars : ℕ → ℤ)
    (i : ℕ) :
    let sliced :=
      sliceScalar scalars scalarSize bitsPerChunk nChunks
        (calcBucketCount bitsPerChunk) slicedScalars i
    (∀ j < nChunks,
        sliced (i * nChunks + j) =
          chunkDigit scalars scalarSize bitsPerChunk i j) ∧
      ∀ k < i * nChunks, sliced k = slicedScalars k := by
  have processed :=
    @Imperative.foldl_range_invariant _ nChunks
      (fun count (state : ℕ × (ℕ → ℤ)) =>
        state.1 =
            carry (calcBucketCount bitsPerChunk)
              (getBucketIndex scalars scalarSize bitsPerChunk i) count ∧
          (∀ j < count,
            state.2 (i * nChunks + j) =
              chunkDigit scalars scalarSize bitsPerChunk i j) ∧
          ∀ k < i * nChunks, state.2 k = slicedScalars k)
      (fun (state : ℕ × (ℕ → ℤ)) j =>
        let bucketIndex :=
          getBucketIndex scalars scalarSize bitsPerChunk i j + state.1
        if bucketIndex ≥ calcBucketCount bitsPerChunk then
          (1,
            Function.update state.2 (i * nChunks + j)
              ((bucketIndex : ℤ) - calcBucketCount bitsPerChunk * 2))
        else
          (0, Function.update state.2 (i * nChunks + j) bucketIndex))
      (0, slicedScalars)
      ⟨rfl, fun j impossible => absurd impossible (Nat.not_lt_zero j),
        fun _ _ => rfl⟩
      (by
        rintro ⟨_, stored⟩ j below ⟨rfl, digits, others⟩
        have write :
            ∀ digit : ℤ,
              digit = chunkDigit scalars scalarSize bitsPerChunk i j →
              (∀ j' < j + 1,
                Function.update stored (i * nChunks + j) digit
                    (i * nChunks + j') =
                  chunkDigit scalars scalarSize bitsPerChunk i j') ∧
                ∀ k < i * nChunks,
                  Function.update stored (i * nChunks + j) digit k =
                    slicedScalars k := by
          intro digit isDigit
          constructor
          · intro j' upTo
            rcases Nat.lt_succ_iff_lt_or_eq.mp upTo with earlier | rfl
            · rw [Function.update_of_ne (by omega)]
              exact digits j' earlier
            · rw [Function.update_self, isDigit]
          · intro k before
            rw [Function.update_of_ne (by omega)]
            exact others k before
        dsimp only
        split
        next reaches =>
          refine ⟨by rw [carry, if_pos reaches], write _ ?_⟩
          rw [chunkDigit, signedDigit_of_le _ _ reaches, mul_comm (2 : ℤ)]
        next below =>
          refine ⟨by rw [carry, if_neg below], write _ ?_⟩
          rw [chunkDigit, signedDigit_of_lt _ _ (not_le.mp below)])
  exact processed.2

/-- The sliced scalars are the digits of all scalars. -/
theorem slicedScalars_eq
    {nThreads : ℕ}
    (threads : 0 < nThreads)
    (nPoints : ℕ)
    (unsliced : ℕ → ℤ)
    {i j : ℕ}
    (isPoint : i < nPoints)
    (isChunk : j < nChunks) :
    ThreadPool.parallelFor nThreads 0 nPoints
        (JobRange.forLoop
          (sliceScalar scalars scalarSize bitsPerChunk nChunks
            (calcBucketCount bitsPerChunk)))
        unsliced (i * nChunks + j) =
      chunkDigit scalars scalarSize bitsPerChunk i j := by
  rw [ThreadPool.parallelFor_range threads]
  have sliced :=
    @Imperative.foldl_range_invariant _ nPoints
      (fun count (stored : ℕ → ℤ) =>
        ∀ i < count, ∀ j < nChunks,
          stored (i * nChunks + j) =
            chunkDigit scalars scalarSize bitsPerChunk i j)
      (fun stored (i : ℕ) =>
        sliceScalar scalars scalarSize bitsPerChunk nChunks
          (calcBucketCount bitsPerChunk) stored i)
      unsliced
      (fun i impossible => absurd impossible (Nat.not_lt_zero i))
      (by
        intro stored i _ earlier i' upTo j inside
        obtain ⟨own, others⟩ :=
          @sliceScalar_spec scalars scalarSize bitsPerChunk nChunks stored i
        rcases Nat.lt_succ_iff_lt_or_eq.mp upTo with before | rfl
        · have apart : i' * nChunks + j < i * nChunks := by
            have rows := Nat.mul_le_mul_right nChunks before
            rw [Nat.succ_mul] at rows
            omega
          rw [others _ apart]
          exact earlier i' before j inside
        · exact own j inside)
  exact sliced i isPoint j isChunk

end Slices

section Rows

variable
    {Base Point : Type}
    (g : Operations Base Point)
    {bases : ℕ → Base}
    {slicedScalars : ℕ → ℤ}
    {nPoints nChunks nBuckets row other j : ℕ}

/-- What the buckets of a digit add up to. -/
def chunkSum
    (bases : ℕ → Base)
    (slicedScalars : ℕ → ℤ)
    (nPoints nChunks nBuckets j : ℕ) : Point :=
  addBuckets g nBuckets fun k =>
    fillBuckets g bases slicedScalars nPoints nChunks 0 j (fun _ => g.zero)
      (.bucketMatrix (0 + k))

/-- Cleared buckets hold the identity. -/
theorem clearBuckets_row
    (memory : Place → Point)
    {k : ℕ}
    (isBucket : k < nBuckets) :
    clearBuckets g nBuckets row memory (.bucketMatrix (row + k)) = g.zero := by
  have cleared :=
    @Imperative.foldl_range_invariant _ nBuckets
      (fun count (memory : Place → Point) =>
        ∀ k < count, memory (.bucketMatrix (row + k)) = g.zero)
      (fun memory i =>
        Function.update memory (.bucketMatrix (row + i)) g.zero)
      memory
      (fun k impossible => absurd impossible (Nat.not_lt_zero k))
      (by
        intro memory i _ earlier k upTo
        rcases Nat.lt_succ_iff_lt_or_eq.mp upTo with before | rfl
        · rw [Function.update_of_ne (by simp; omega)]
          exact earlier k before
        · rw [Function.update_self])
  exact cleared k isBucket

/-- Clearing buckets changes no sum of a digit. -/
theorem clearBuckets_chunks
    (memory : Place → Point)
    (index : ℕ) :
    clearBuckets g nBuckets row memory (.chunks index) =
      memory (.chunks index) :=
  Imperative.foldl_range_invariant
    (fun _ (later : Place → Point) =>
      later (.chunks index) = memory (.chunks index))
    rfl
    fun later i _ kept => by
      rw [Function.update_of_ne (by simp)]
      exact kept

/-- Filling buckets changes no sum of a digit. -/
theorem fillBuckets_chunks
    (memory : Place → Point)
    (index : ℕ) :
    fillBuckets g bases slicedScalars nPoints nChunks row j memory
        (.chunks index) =
      memory (.chunks index) :=
  Imperative.foldl_range_invariant
    (fun _ (later : Place → Point) =>
      later (.chunks index) = memory (.chunks index))
    rfl
    fun later i _ kept => by
      unfold fillBucket
      dsimp only
      split_ifs
      · rw [Function.update_of_ne (by simp)]
        exact kept
      · rw [Function.update_of_ne (by simp)]
        exact kept
      · exact kept

/-- A base changes the buckets of a row in the same way in every row. -/
theorem fillBucket_congr
    {memory later : Place → Point}
    (agree :
      ∀ k < nBuckets,
        memory (.bucketMatrix (row + k)) = later (.bucketMatrix (other + k)))
    (i : ℕ) :
    ∀ k < nBuckets,
      fillBucket g bases slicedScalars nChunks row j memory i
          (.bucketMatrix (row + k)) =
        fillBucket g bases slicedScalars nChunks other j later i
          (.bucketMatrix (other + k)) := by
  intro k isBucket
  unfold fillBucket
  dsimp only
  generalize slicedScalars (i * nChunks + j) = bucketIndex
  have updated :
      ∀ (bucket : ℕ) (operation : Point → Point),
        Function.update memory (.bucketMatrix (row + bucket))
            (operation (memory (.bucketMatrix (row + bucket))))
            (.bucketMatrix (row + k)) =
          Function.update later (.bucketMatrix (other + bucket))
            (operation (later (.bucketMatrix (other + bucket))))
            (.bucketMatrix (other + k)) := by
    intro bucket operation
    rcases eq_or_ne k bucket with rfl | differs
    · rw [Function.update_self, Function.update_self, agree k isBucket]
    · rw [Function.update_of_ne (by simpa using differs),
        Function.update_of_ne (by simpa using differs), agree k isBucket]
  split_ifs
  · exact updated _ fun bucket => g.addBase bucket (bases i)
  · exact updated _ fun bucket => g.subBase bucket (bases i)
  · exact agree k isBucket

/-- So do all bases. -/
theorem fillBuckets_congr
    {memory later : Place → Point}
    (agree :
      ∀ k < nBuckets,
        memory (.bucketMatrix (row + k)) = later (.bucketMatrix (other + k))) :
    ∀ k < nBuckets,
      fillBuckets g bases slicedScalars nPoints nChunks row j memory
          (.bucketMatrix (row + k)) =
        fillBuckets g bases slicedScalars nPoints nChunks other j later
          (.bucketMatrix (other + k)) := by
  unfold fillBuckets
  exact
    List.foldl_rel
      (r := fun (left right : Place → Point) =>
        ∀ k < nBuckets,
          left (.bucketMatrix (row + k)) = right (.bucketMatrix (other + k)))
      agree
      fun i _ _ _ same => fillBucket_congr g same i

/-- What buckets add up to depends on the buckets only. -/
theorem addBuckets_congr
    (positive : 0 < nBuckets)
    {buckets others : ℕ → Point}
    (agree : ∀ k < nBuckets, buckets k = others k) :
    addBuckets g nBuckets buckets = addBuckets g nBuckets others := by
  unfold addBuckets
  rw [agree (nBuckets - 1) (by omega)]
  congr 1
  refine List.foldr_ext _ _ _ fun i member state => ?_
  rw [List.mem_range] at member
  rw [agree i (by omega)]

/-- The buckets of a row, cleared and filled, add up to the sum of the digit. -/
theorem addBuckets_row
    (positive : 0 < nBuckets)
    (memory : Place → Point) :
    (addBuckets g nBuckets fun k =>
        fillBuckets g bases slicedScalars nPoints nChunks row j
          (clearBuckets g nBuckets row memory) (.bucketMatrix (row + k))) =
      chunkSum g bases slicedScalars nPoints nChunks nBuckets j :=
  addBuckets_congr g positive
    (fillBuckets_congr g fun _ isBucket => clearBuckets_row g memory isBucket)

/-- A chunk is the sum of its digit, whatever the thread. -/
theorem sumChunk_chunks
    (positive : 0 < nBuckets)
    (numThread : ℕ)
    (memory : Place → Point)
    (index : ℕ) :
    sumChunk g bases slicedScalars nPoints nChunks nBuckets numThread memory j
        (.chunks index) =
      if index = j then
        chunkSum g bases slicedScalars nPoints nChunks nBuckets j
      else
        memory (.chunks index) := by
  simp only [sumChunk, Int.toNat_natCast]
  split
  next own =>
    rw [own, Function.update_self, addBuckets_row g positive]
  next differs =>
    rw [Function.update_of_ne (by simpa using differs), fillBuckets_chunks,
      clearBuckets_chunks]

/-- All chunks are the sums of their digits. -/
theorem chunks_eq
    (positive : 0 < nBuckets)
    {nThreads : ℕ}
    (threads : 0 < nThreads)
    (numThread : ℕ)
    (memory : Place → Point)
    (isChunk : j < nChunks) :
    ThreadPool.parallelFor nThreads 0 nChunks
        (JobRange.forLoop
          (sumChunk g bases slicedScalars nPoints nChunks nBuckets numThread))
        memory (.chunks j) =
      chunkSum g bases slicedScalars nPoints nChunks nBuckets j := by
  rw [ThreadPool.parallelFor_range threads]
  have summed :=
    @Imperative.foldl_range_invariant _ nChunks
      (fun count (memory : Place → Point) =>
        ∀ j < count,
          memory (.chunks j) =
            chunkSum g bases slicedScalars nPoints nChunks nBuckets j)
      (fun memory (j : ℕ) =>
        sumChunk g bases slicedScalars nPoints nChunks nBuckets numThread
          memory j)
      memory
      (fun j impossible => absurd impossible (Nat.not_lt_zero j))
      (by
        intro memory j _ earlier index upTo
        rw [sumChunk_chunks g positive]
        split
        next own =>
          rw [own]
        next differs =>
          exact earlier index (by omega))
  exact summed j isChunk

end Rows

section Sums

open SignedWindows

variable
    {Base Point Group : Type}
    [AddCommGroup Group]
    {g : Operations Base Point}
    {denotesBase : Base → Group → Prop}
    {denotes : Point → Group → Prop}
    {bases : ℕ → Base}
    {B : ℕ → Group}
    {slicedScalars digit : ℕ → ℤ}
    {nPoints nChunks j : ℕ}

/-- A base goes to the bucket of its digit. -/
theorem fillBucket_denotes
    (represents : g.Represents denotesBase denotes)
    {i row : ℕ}
    (isBase : denotesBase (bases i) (B i))
    {memory : Place → Point}
    {S : ℕ → Group}
    (areBuckets : ∀ k, denotes (memory (.bucketMatrix (row + k))) (S k))
    (k : ℕ) :
    denotes
      (fillBucket g bases slicedScalars nChunks row j memory i
        (.bucketMatrix (row + k)))
      (S k + share (slicedScalars (i * nChunks + j)) (B i) k) := by
  unfold fillBucket share
  generalize slicedScalars (i * nChunks + j) = bucketIndex
  dsimp only
  split_ifs with positive own other negative own' other'
  · have bucket : (bucketIndex - 1).toNat = k := by omega
    rw [bucket, Function.update_self]
    exact represents.addBase (areBuckets k) isBase
  · omega
  · rw [Function.update_of_ne (by simp; omega), add_zero]
    exact areBuckets k
  · omega
  · have bucket : (-bucketIndex - 1).toNat = k := by omega
    rw [bucket, Function.update_self, ← sub_eq_add_neg]
    exact represents.subBase (areBuckets k) isBase
  · rw [Function.update_of_ne (by simp; omega), add_zero]
    exact areBuckets k
  · omega
  · omega
  · rw [add_zero]
    exact areBuckets k

/-- Empty buckets are filled with the shares of all bases. -/
theorem fillBuckets_denotes
    (represents : g.Represents denotesBase denotes)
    (areBases : ∀ i < nPoints, denotesBase (bases i) (B i))
    (row k : ℕ) :
    denotes
      (fillBuckets g bases slicedScalars nPoints nChunks row j
        (fun _ => g.zero) (.bucketMatrix (row + k)))
      (∑ i ∈ Finset.range nPoints,
        share (slicedScalars (i * nChunks + j)) (B i) k) := by
  have filled :=
    @Imperative.foldl_range_invariant _ nPoints
      (fun count (memory : Place → Point) =>
        ∀ k,
          denotes (memory (.bucketMatrix (row + k)))
            (∑ i ∈ Finset.range count,
              share (slicedScalars (i * nChunks + j)) (B i) k))
      (fillBucket g bases slicedScalars nChunks row j)
      (fun _ => g.zero)
      (fun _ => represents.zero)
      (by
        intro memory i below areBuckets k
        rw [Finset.sum_range_succ]
        exact fillBucket_denotes represents (areBases i below) areBuckets k)
  exact filled k

/-- Adding the buckets up twice from the top weighs them. -/
theorem addBuckets_denotes
    (represents : g.Represents denotesBase denotes)
    {buckets : ℕ → Point}
    {S : ℕ → Group}
    (areBuckets : ∀ k, denotes (buckets k) (S k))
    {nBuckets : ℕ}
    (positive : 0 < nBuckets) :
    denotes (addBuckets g nBuckets buckets)
      (∑ k ∈ Finset.range nBuckets, (k + 1) • S k) := by
  have top :
      suffixSum S (nBuckets - 1) nBuckets = S (nBuckets - 1) ∧
        suffixTotal S (nBuckets - 1) nBuckets = S (nBuckets - 1) := by
    have last : nBuckets = nBuckets - 1 + 1 := by omega
    unfold suffixSum suffixTotal
    rw [last]
    simp
  have added :=
    @Imperative.foldr_range_invariant _ (nBuckets - 1)
      (fun first (state : Point × Point) =>
        denotes state.1 (suffixSum S first nBuckets) ∧
          denotes state.2 (suffixTotal S first nBuckets))
      (fun i (state : Point × Point) =>
        let tmp := g.add state.1 (buckets i)
        (tmp, g.add state.2 tmp))
      (buckets (nBuckets - 1), buckets (nBuckets - 1))
      (by
        rw [top.1, top.2]
        exact ⟨areBuckets _, areBuckets _⟩)
      (by
        rintro ⟨tmp, t⟩ i below ⟨isSum, isTotal⟩
        have sum := represents.add isSum (areBuckets i)
        rw [← suffixSum_step S (by omega)] at sum
        refine ⟨sum, ?_⟩
        rw [suffixTotal_step S (by omega)]
        exact represents.add isTotal sum)
  rw [← suffixTotal_zero]
  exact added.2

/-- The sum of a digit is that of the bases times their digits. -/
theorem chunkSum_denotes
    (represents : g.Represents denotesBase denotes)
    (areBases : ∀ i < nPoints, denotesBase (bases i) (B i))
    {nBuckets : ℕ}
    (positive : 0 < nBuckets)
    (digitsFit :
      ∀ i < nPoints,
        -(nBuckets : ℤ) ≤ slicedScalars (i * nChunks + j) ∧
          slicedScalars (i * nChunks + j) ≤ nBuckets) :
    denotes (chunkSum g bases slicedScalars nPoints nChunks nBuckets j)
      (∑ i ∈ Finset.range nPoints,
        slicedScalars (i * nChunks + j) • B i) := by
  have added :=
    addBuckets_denotes represents
      (@fillBuckets_denotes _ _ _ _ _ _ _ bases B slicedScalars nPoints nChunks
        j represents areBases 0)
      positive
  have weighed :
      ∑ k ∈ Finset.range nBuckets,
          (k + 1) • ∑ i ∈ Finset.range nPoints,
            share (slicedScalars (i * nChunks + j)) (B i) k =
        ∑ i ∈ Finset.range nPoints,
          slicedScalars (i * nChunks + j) • B i := by
    simp only [Finset.smul_sum]
    rw [Finset.sum_comm]
    refine Finset.sum_congr rfl fun i below => ?_
    obtain ⟨lower, upper⟩ := digitsFit i (Finset.mem_range.mp below)
    exact sum_share lower upper (B i)
  rw [weighed] at added
  exact added

/-- Doubling and adding the chunks from the highest on is Horner's rule. -/
theorem combineChunks_denotes
    (represents : g.Represents denotesBase denotes)
    (bitsPerChunk : ℕ)
    {chunks : ℕ → Point}
    {C : ℕ → Group}
    (positive : 0 < nChunks)
    (areChunks : ∀ j < nChunks, denotes (chunks j) (C j)) :
    denotes (combineChunks g bitsPerChunk nChunks chunks)
      (∑ j ∈ Finset.range nChunks, (2 ^ bitsPerChunk) ^ j • C j) := by
  have last : nChunks - 1 + 1 = nChunks := Nat.sub_add_cancel positive
  have combined :=
    @Imperative.foldr_range_invariant _ (nChunks - 1)
      (fun first r => denotes r (horner (2 ^ bitsPerChunk) C first nChunks))
      (fun j r => g.add (g.dbl^[bitsPerChunk] r) (chunks j))
      (chunks (nChunks - 1))
      (by
        have top :
            horner (2 ^ bitsPerChunk) C (nChunks - 1) nChunks =
              C (nChunks - 1) := by
          rw [horner_step _ _ (by omega), last, horner_self, smul_zero,
            zero_add]
        rw [top]
        exact areChunks _ (by omega))
      (by
        intro r j below isPoint
        rw [horner_step _ _ (by omega)]
        exact
          represents.add (represents.iterate_dbl isPoint bitsPerChunk)
            (areChunks j (by omega)))
  rw [← horner_zero]
  exact combined

end Sums

section Scalars

open SignedWindows

variable
    (scalars : ℕ → UInt8)
    {scalarSize bitsPerChunk : ℕ}

/-- The scalar of an index. -/
def scalarAt (scalars : ℕ → UInt8) (scalarSize i : ℕ) : ℕ :=
  ByteMemory.load scalars (i * scalarSize) scalarSize

/-- What the last digit of a scalar leaves over. -/
def lastCarry
    (scalars : ℕ → UInt8)
    (scalarSize bitsPerChunk i : ℕ) : ℕ :=
  carry (calcBucketCount bitsPerChunk)
    (getBucketIndex scalars scalarSize bitsPerChunk i)
    (calcChunkCount scalarSize bitsPerChunk)

/-- There is a bucket for half of the magnitudes. -/
theorem two_mul_calcBucketCount
    (bits : 0 < bitsPerChunk) :
    2 * calcBucketCount bitsPerChunk = 2 ^ bitsPerChunk := by
  unfold calcBucketCount
  rw [Nat.one_shiftLeft, ← pow_succ', Nat.sub_add_cancel bits]

/-- There are buckets. -/
theorem calcBucketCount_pos
    (bitsPerChunk : ℕ) :
    0 < calcBucketCount bitsPerChunk := by
  unfold calcBucketCount
  rw [Nat.one_shiftLeft]
  positivity

/-- The bits of the digits denote the scalar. -/
theorem sum_getBucketIndex
    (size : 8 ≤ scalarSize)
    (positive : 0 < bitsPerChunk)
    (bits : bitsPerChunk ≤ maxChunkSizeBits)
    (i : ℕ) :
    ∑ j ∈ Finset.range (calcChunkCount scalarSize bitsPerChunk),
        (2 ^ bitsPerChunk) ^ j *
          getBucketIndex scalars scalarSize bitsPerChunk i j =
      scalarAt scalars scalarSize i := by
  have windows :=
    sum_windows (2 ^ bitsPerChunk) (scalarAt scalars scalarSize i)
      (calcChunkCount scalarSize bitsPerChunk)
  have fits :
      scalarAt scalars scalarSize i <
        (2 ^ bitsPerChunk) ^ calcChunkCount scalarSize bitsPerChunk := by
    have cover := @chunks_cover scalarSize bitsPerChunk positive
    rw [← pow_mul]
    refine (ByteMemory.load_lt scalars _ scalarSize).trans_le ?_
    have byte : (256 : ℕ) = 2 ^ 8 := by norm_num
    rw [byte, ← pow_mul]
    exact Nat.pow_le_pow_right Nat.two_pos (by linarith)
  rw [Nat.mod_eq_of_lt fits] at windows
  rw [← windows]
  refine Finset.sum_congr rfl fun j isChunk => ?_
  have begins :=
    chunk_begins (show 0 < scalarSize by omega) positive
      (Finset.mem_range.mp isChunk)
  rw [getBucketIndex_eq scalars size bits i begins]
  rfl

/-- The signed digits and what is left over denote the scalar. -/
theorem sum_chunkDigit
    (size : 8 ≤ scalarSize)
    (positive : 0 < bitsPerChunk)
    (bits : bitsPerChunk ≤ maxChunkSizeBits)
    (i : ℕ) :
    (∑ j ∈ Finset.range (calcChunkCount scalarSize bitsPerChunk),
        ((2 ^ bitsPerChunk : ℕ) : ℤ) ^ j *
          chunkDigit scalars scalarSize bitsPerChunk i j) =
      scalarAt scalars scalarSize i -
        ((2 ^ bitsPerChunk : ℕ) : ℤ) ^ calcChunkCount scalarSize bitsPerChunk *
          lastCarry scalars scalarSize bitsPerChunk i := by
  have digits :=
    @sum_signedDigit (calcBucketCount bitsPerChunk)
      (getBucketIndex scalars scalarSize bitsPerChunk i)
      (calcChunkCount scalarSize bitsPerChunk)
  have radix :
      (2 * calcBucketCount bitsPerChunk : ℤ) = (2 ^ bitsPerChunk : ℕ) := by
    rw [← two_mul_calcBucketCount positive]
    push_cast
    rfl
  rw [radix] at digits
  rw [← sum_getBucketIndex scalars size positive bits i]
  push_cast at digits ⊢
  rw [← digits]
  exact (add_sub_cancel_right _ _).symm

/-- The bits of a digit are fewer than twice the buckets. -/
theorem getBucketIndex_lt
    (size : 8 ≤ scalarSize)
    (positive : 0 < bitsPerChunk)
    (bits : bitsPerChunk ≤ maxChunkSizeBits)
    (i : ℕ)
    {j : ℕ}
    (isChunk : j < calcChunkCount scalarSize bitsPerChunk) :
    getBucketIndex scalars scalarSize bitsPerChunk i j <
      2 * calcBucketCount bitsPerChunk := by
  have begins :=
    chunk_begins (show 0 < scalarSize by omega) positive isChunk
  rw [getBucketIndex_eq scalars size bits i begins,
    two_mul_calcBucketCount positive]
  exact Nat.mod_lt _ (by positivity)

/-- Every digit has a bucket. -/
theorem chunkDigit_bounds
    (size : 8 ≤ scalarSize)
    (positive : 0 < bitsPerChunk)
    (bits : bitsPerChunk ≤ maxChunkSizeBits)
    (i : ℕ)
    {j : ℕ}
    (isChunk : j < calcChunkCount scalarSize bitsPerChunk) :
    -(calcBucketCount bitsPerChunk : ℤ) ≤
        chunkDigit scalars scalarSize bitsPerChunk i j ∧
      chunkDigit scalars scalarSize bitsPerChunk i j ≤
        calcBucketCount bitsPerChunk := by
  have bounds :=
    signedDigit_bounds
      (getBucketIndex_lt scalars size positive bits i isChunk)
  exact ⟨bounds.1, bounds.2.trans (by omega)⟩

/-- A scalar below a quarter of its range leaves nothing over. -/
theorem lastCarry_eq_zero
    (size : 8 ≤ scalarSize)
    (least : minChunkSizeBits ≤ bitsPerChunk)
    (bits : bitsPerChunk ≤ maxChunkSizeBits)
    {i : ℕ}
    (small : 4 * scalarAt scalars scalarSize i < 256 ^ scalarSize) :
    lastCarry scalars scalarSize bitsPerChunk i = 0 := by
  unfold minChunkSizeBits at least
  have positive : 0 < bitsPerChunk := by omega
  have radix := two_mul_calcBucketCount positive
  have halfLarge : 4 ≤ calcBucketCount bitsPerChunk := by
    unfold calcBucketCount
    rw [Nat.one_shiftLeft]
    calc
      4 = 2 ^ 2 := by norm_num
      _ ≤ 2 ^ (bitsPerChunk - 1) :=
        Nat.pow_le_pow_right Nat.two_pos (by omega)
  refine (carry_eq_zero_iff (by omega) _ ?_).mpr ?_
  · intro j isChunk
    exact getBucketIndex_lt scalars size positive bits i isChunk
  · have denoted := sum_getBucketIndex scalars size positive bits i
    have allOnes :=
      sub_one_mul_sum_pow (2 * calcBucketCount bitsPerChunk : ℤ)
        (calcChunkCount scalarSize bitsPerChunk)
    have range :
        (256 : ℤ) ^ scalarSize ≤
          (2 * calcBucketCount bitsPerChunk : ℤ) ^
            calcChunkCount scalarSize bitsPerChunk := by
      have cover := @chunks_cover scalarSize bitsPerChunk positive
      have byte : (256 : ℕ) = 2 ^ 8 := by norm_num
      have natural :
          256 ^ scalarSize ≤
            (2 * calcBucketCount bitsPerChunk) ^
              calcChunkCount scalarSize bitsPerChunk := by
        rw [radix, byte, ← pow_mul, ← pow_mul]
        exact Nat.pow_le_pow_right Nat.two_pos (by linarith)
      exact_mod_cast natural
    rw [← radix] at denoted
    have windows :
        (∑ j ∈ Finset.range (calcChunkCount scalarSize bitsPerChunk),
            (2 * calcBucketCount bitsPerChunk : ℤ) ^ j *
              getBucketIndex scalars scalarSize bitsPerChunk i j) =
          scalarAt scalars scalarSize i := by
      exact_mod_cast denoted
    rw [windows]
    have smallInt :
        4 * (scalarAt scalars scalarSize i : ℤ) < 256 ^ scalarSize := by
      exact_mod_cast small
    have halfLargeInt : (4 : ℤ) ≤ calcBucketCount bitsPerChunk := by
      exact_mod_cast halfLarge
    generalize
      (∑ j ∈ Finset.range (calcChunkCount scalarSize bitsPerChunk),
        (2 * calcBucketCount bitsPerChunk : ℤ) ^ j) = ones at allOnes ⊢
    generalize
      (2 * calcBucketCount bitsPerChunk : ℤ) ^
        calcChunkCount scalarSize bitsPerChunk = total at allOnes range
    nlinarith

end Scalars

section Run

variable
    {Base Point Group : Type}
    [AddCommGroup Group]
    {g : Operations Base Point}
    {denotesBase : Base → Group → Prop}
    {denotes : Point → Group → Prop}
    {bases : ℕ → Base}
    {B : ℕ → Group}
    {scalars : ℕ → UInt8}
    {scalarSize n nThreads : ℕ}

omit [AddCommGroup Group] in
/-- More than one base are summed chunk by chunk. -/
theorem run_eq
    (several : 2 ≤ n) :
    run g bases scalars scalarSize n nThreads =
      let bitsPerChunk := calcBitsPerChunk n scalarSize
      let nChunks := calcChunkCount scalarSize bitsPerChunk
      let nBuckets := calcBucketCount bitsPerChunk
      combineChunks g bitsPerChunk nChunks fun j =>
        ThreadPool.parallelFor nThreads 0 (asInt nChunks)
          (JobRange.forLoop
            (sumChunk g bases
              (ThreadPool.parallelFor nThreads 0 (asInt n)
                (JobRange.forLoop
                  (sliceScalar scalars scalarSize bitsPerChunk nChunks
                    nBuckets))
                (fun _ => 0))
              n nChunks nBuckets
              (ThreadPool.curThreadId nThreads 0 (asInt nChunks))))
          (fun _ => g.zero) (.chunks j) := by
  have notZero : ¬ n = 0 := by omega
  have notOne : ¬ n = 1 := by omega
  unfold run
  rw [if_neg notZero, if_neg notOne]

/-- Digits of some bits, sliced, summed and combined, whatever the scalars. -/
theorem combineChunks_slices
    (represents : g.Represents denotesBase denotes)
    (areBases : ∀ i < n, denotesBase (bases i) (B i))
    (size : 8 ≤ scalarSize)
    {bitsPerChunk : ℕ}
    (positive : 0 < bitsPerChunk)
    (most : bitsPerChunk ≤ maxChunkSizeBits)
    {slicedScalars : ℕ → ℤ}
    (digits :
      ∀ i < n, ∀ j < calcChunkCount scalarSize bitsPerChunk,
        slicedScalars (i * calcChunkCount scalarSize bitsPerChunk + j) =
          chunkDigit scalars scalarSize bitsPerChunk i j)
    {chunks : ℕ → Point}
    (sums :
      ∀ j < calcChunkCount scalarSize bitsPerChunk,
        chunks j =
          chunkSum g bases slicedScalars n
            (calcChunkCount scalarSize bitsPerChunk)
            (calcBucketCount bitsPerChunk) j) :
    denotes
      (combineChunks g bitsPerChunk (calcChunkCount scalarSize bitsPerChunk)
        chunks)
      (∑ i ∈ Finset.range n,
        ((scalarAt scalars scalarSize i : ℤ) -
          ((2 ^ bitsPerChunk : ℕ) : ℤ) ^
              calcChunkCount scalarSize bitsPerChunk *
            lastCarry scalars scalarSize bitsPerChunk i) •
          B i) := by
  have someChunk : 0 < calcChunkCount scalarSize bitsPerChunk :=
    Nat.succ_pos _
  have someBucket := calcBucketCount_pos bitsPerChunk
  have digitsFit :
      ∀ i < n, ∀ j < calcChunkCount scalarSize bitsPerChunk,
        -(calcBucketCount bitsPerChunk : ℤ) ≤
            slicedScalars (i * calcChunkCount scalarSize bitsPerChunk + j) ∧
          slicedScalars (i * calcChunkCount scalarSize bitsPerChunk + j) ≤
            calcBucketCount bitsPerChunk := by
    intro i isPoint j isChunk
    rw [digits i isPoint j isChunk]
    exact chunkDigit_bounds scalars size positive most i isChunk
  have areChunks :
      ∀ j < calcChunkCount scalarSize bitsPerChunk,
        denotes (chunks j)
          (∑ i ∈ Finset.range n,
            slicedScalars (i * calcChunkCount scalarSize bitsPerChunk + j) •
              B i) := by
    intro j isChunk
    rw [sums j isChunk]
    exact
      chunkSum_denotes represents areBases someBucket fun i isPoint =>
        digitsFit i isPoint j isChunk
  have combined :=
    combineChunks_denotes represents bitsPerChunk someChunk areChunks
  have value :
      (∑ j ∈ Finset.range (calcChunkCount scalarSize bitsPerChunk),
          (2 ^ bitsPerChunk) ^ j • ∑ i ∈ Finset.range n,
            slicedScalars (i * calcChunkCount scalarSize bitsPerChunk + j) •
              B i) =
        ∑ i ∈ Finset.range n,
          ((scalarAt scalars scalarSize i : ℤ) -
            ((2 ^ bitsPerChunk : ℕ) : ℤ) ^
                calcChunkCount scalarSize bitsPerChunk *
              lastCarry scalars scalarSize bitsPerChunk i) •
            B i := by
    simp only [Finset.smul_sum]
    rw [Finset.sum_comm]
    refine Finset.sum_congr rfl fun i isPoint => ?_
    rw [← sum_chunkDigit scalars size positive most i,
      ← SignedWindows.sum_pow_smul]
    refine Finset.sum_congr rfl fun j isChunk => ?_
    rw [digits i (Finset.mem_range.mp isPoint) j (Finset.mem_range.mp isChunk)]
  rw [value] at combined
  exact combined

/-- Small scalars leave nothing over. -/
theorem sum_sub_lastCarry
    (size : 8 ≤ scalarSize)
    {bitsPerChunk : ℕ}
    (least : minChunkSizeBits ≤ bitsPerChunk)
    (most : bitsPerChunk ≤ maxChunkSizeBits)
    (small : ∀ i < n, 4 * scalarAt scalars scalarSize i < 256 ^ scalarSize) :
    (∑ i ∈ Finset.range n,
        ((scalarAt scalars scalarSize i : ℤ) -
          ((2 ^ bitsPerChunk : ℕ) : ℤ) ^
              calcChunkCount scalarSize bitsPerChunk *
            lastCarry scalars scalarSize bitsPerChunk i) •
          B i) =
      ∑ i ∈ Finset.range n, scalarAt scalars scalarSize i • B i := by
  refine Finset.sum_congr rfl fun i isPoint => ?_
  rw [lastCarry_eq_zero scalars size least most
    (small i (Finset.mem_range.mp isPoint)), Nat.cast_zero, mul_zero,
    sub_zero, natCast_zsmul]

/-- What more than one base sum up to, whatever the scalars. -/
theorem run_of_two_le
    (represents : g.Represents denotesBase denotes)
    (areBases : ∀ i < n, denotesBase (bases i) (B i))
    (size : 8 ≤ scalarSize)
    (sizeFits : scalarSize < 2 ^ 28)
    (several : 2 ≤ n)
    (countFits : n < 2 ^ 31)
    (threads : 0 < nThreads) :
    denotes (run g bases scalars scalarSize n nThreads)
      (∑ i ∈ Finset.range n,
        ((scalarAt scalars scalarSize i : ℤ) -
          ((2 ^ calcBitsPerChunk n scalarSize : ℕ) : ℤ) ^
              calcChunkCount scalarSize (calcBitsPerChunk n scalarSize) *
            lastCarry scalars scalarSize (calcBitsPerChunk n scalarSize) i) •
          B i) := by
  obtain ⟨least, most⟩ := calcBitsPerChunk_bounds n scalarSize
  rw [run_eq several]
  dsimp only
  generalize calcBitsPerChunk n scalarSize = bitsPerChunk at least most
  have positive : 0 < bitsPerChunk := by
    unfold minChunkSizeBits at least
    omega
  have chunksFit : calcChunkCount scalarSize bitsPerChunk < 2 ^ 31 := by
    have most := Nat.div_le_self (scalarSize * 8 - 1) bitsPerChunk
    unfold calcChunkCount
    omega
  rw [asInt_eq countFits, asInt_eq chunksFit]
  exact
    combineChunks_slices represents areBases size positive most
      (fun i isPoint j isChunk =>
        slicedScalars_eq scalars threads n _ isPoint isChunk)
      fun j isChunk =>
        chunks_eq g (calcBucketCount_pos bitsPerChunk) threads _ _ isChunk

/--
The sum of the bases, each times its scalar, as long as every scalar is below
a quarter of the range of its bytes.
-/
theorem run_denotes
    (represents : g.Represents denotesBase denotes)
    (areBases : ∀ i < n, denotesBase (bases i) (B i))
    (size : 8 ≤ scalarSize)
    (sizeFits : scalarSize < 2 ^ 28)
    (countFits : n < 2 ^ 31)
    (threads : 0 < nThreads)
    (small : ∀ i < n, 4 * scalarAt scalars scalarSize i < 256 ^ scalarSize) :
    denotes (run g bases scalars scalarSize n nThreads)
      (∑ i ∈ Finset.range n, scalarAt scalars scalarSize i • B i) := by
  rcases Nat.lt_or_ge n 2 with few | several
  · obtain rfl | rfl : n = 0 ∨ n = 1 := by omega
    · simpa [run] using represents.zero
    · have multiplied :=
        nafMulByScalar_denotes represents (areBases 0 Nat.one_pos) scalars
          (show 0 < scalarSize by omega) sizeFits
      simpa [run, scalarAt] using multiplied
  · have summed :=
      @run_of_two_le _ _ _ _ _ _ _ _ _ scalars _ _ _ represents areBases size
        sizeFits several countFits threads
    obtain ⟨least, most⟩ := calcBitsPerChunk_bounds n scalarSize
    rw [sum_sub_lastCarry size least most small] at summed
    exact summed

end Run

end MSM

end StarkCash.Rapidsnark
