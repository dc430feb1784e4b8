import StarkCash.MultiScalar
import StarkCash.ThreadPoolResults

namespace StarkCash.Rapidsnark

/-!
# Sums of multiples under every schedule

The loops of `MSM::run` as accesses to the memory that the threads share.  A
scalar is sliced into places of its own.  A digit is summed up in the row of
the thread that happens to run it, whatever another digit has left there, so
that whatever the schedules of the threads in both loops, the chunks are the
sums of the digits in the end.
-/

open GroupOperations
open SharedStore
open ThreadPool
  (LoopRun LoopSeparated ParallelCall PoolState Party Run threadLoopCall)

namespace MSM

section Scripts

/-- A digit of a scalar and the carry to the next, in memory. -/
def sliceDigitScript
    (scalars : ℕ → UInt8)
    (scalarSize bitsPerChunk nChunks nBuckets i carry j : ℕ) :
    Script ℕ ℤ ℕ :=
  let bucketIndex := getBucketIndex scalars scalarSize bitsPerChunk i j + carry
  if bucketIndex ≥ nBuckets then do
    Script.write (i * nChunks + j) ((bucketIndex : ℤ) - nBuckets * 2)
    pure 1
  else do
    Script.write (i * nChunks + j) (bucketIndex : ℤ)
    pure 0

/-- The digits of a scalar, in memory. -/
def sliceScript
    (scalars : ℕ → UInt8)
    (scalarSize bitsPerChunk nChunks nBuckets : ℕ)
    (i : ℤ) : Script ℕ ℤ Unit := do
  let _ ←
    (List.range nChunks).foldlM
      (sliceDigitScript scalars scalarSize bitsPerChunk nChunks nBuckets
        i.toNat)
      0
  pure ()

variable {Base Point : Type}

/-- Set the buckets of a row to the identity, in memory. -/
def clearScript
    (g : Operations Base Point)
    (nBuckets row : ℕ) : Script Place Point Unit :=
  (List.range nBuckets).foldlM
    (fun _ i => Script.write (.bucketMatrix (row + i)) g.zero) ()

/-- Put a base into the bucket of its digit, in memory. -/
def fillBucketScript
    (g : Operations Base Point)
    (bases : ℕ → Base)
    (slicedScalars : ℕ → ℤ)
    (nChunks row j i : ℕ) : Script Place Point Unit :=
  let bucketIndex := slicedScalars (i * nChunks + j)
  if bucketIndex > 0 then do
    let place := Place.bucketMatrix (row + (bucketIndex - 1).toNat)
    let bucket ← Script.read place
    Script.change place fun _ =>
      bucket.map fun bucket => g.addBase bucket (bases i)
  else if bucketIndex < 0 then do
    let place := Place.bucketMatrix (row + (-bucketIndex - 1).toNat)
    let bucket ← Script.read place
    Script.change place fun _ =>
      bucket.map fun bucket => g.subBase bucket (bases i)
  else
    pure ()

/-- Put all bases into the buckets of their digits at one place, in memory. -/
def fillScript
    (g : Operations Base Point)
    (bases : ℕ → Base)
    (slicedScalars : ℕ → ℤ)
    (nPoints nChunks row j : ℕ) : Script Place Point Unit :=
  (List.range nPoints).foldlM
    (fun _ i => fillBucketScript g bases slicedScalars nChunks row j i) ()

/-- Add a bucket to what stands above it, in memory. -/
def addBucketScript
    (g : Operations Base Point)
    (row : ℕ)
    (state : Option (Point × Point))
    (i : ℕ) : Script Place Point (Option (Point × Point)) := do
  let bucket ← Script.read (.bucketMatrix (row + i))
  pure <|
    state.bind fun (tmp, t) =>
      bucket.map fun bucket =>
        let tmp := g.add tmp bucket
        (tmp, g.add t tmp)

/-- Add the buckets up twice from the top, in memory. -/
def addScript
    (g : Operations Base Point)
    (nBuckets row : ℕ) : Script Place Point (Option Point) := do
  let top ← Script.read (.bucketMatrix (row + (nBuckets - 1)))
  let state ←
    (List.range (nBuckets - 1)).reverse.foldlM (addBucketScript g row)
      (top.map fun top => (top, top))
  pure (state.map Prod.snd)

/-- The sum of all bases with their digits at one place, in memory. -/
def sumScript
    (g : Operations Base Point)
    (bases : ℕ → Base)
    (slicedScalars : ℕ → ℤ)
    (nPoints nChunks nBuckets numThread : ℕ)
    (j : ℤ) : Script Place Point Unit := do
  let row := numThread * nBuckets
  clearScript g nBuckets row
  fillScript g bases slicedScalars nPoints nChunks row j.toNat
  let t ← addScript g nBuckets row
  Script.change (.chunks j.toNat) fun _ => t

/-- The parallel loop over the digits. -/
def sumCall
    (g : Operations Base Point)
    (bases : ℕ → Base)
    (slicedScalars : ℕ → ℤ)
    (nPoints nChunks nBuckets : ℕ)
    {nThreads : ℕ}
    (threads : 0 < nThreads)
    (nonempty : 0 < asInt nChunks) : ParallelCall Place Point :=
  threadLoopCall threads nonempty
    (sumScript g bases slicedScalars nPoints nChunks nBuckets)

end Scripts

section Rows

/-- The places of a row of some width. -/
def rowPlaces (width index : ℕ) : Set ℕ :=
  {place | index * width ≤ place ∧ place < (index + 1) * width}

/-- The first places of a row are in it. -/
theorem mem_rowPlaces
    {width offset : ℕ}
    (inside : offset < width)
    (index : ℕ) :
    index * width + offset ∈ rowPlaces width index := by
  have next : (index + 1) * width = index * width + width := Nat.succ_mul _ _
  exact ⟨Nat.le_add_right _ _, by omega⟩

/-- No place is in two rows. -/
theorem rowPlaces_disjoint
    (width : ℕ)
    {index other : ℕ}
    (differs : index ≠ other) :
    Disjoint (rowPlaces width index) (rowPlaces width other) := by
  refine Set.disjoint_left.mpr ?_
  rintro place ⟨least, most⟩ ⟨otherLeast, otherMost⟩
  rcases Nat.lt_or_gt_of_ne differs with before | after
  · have rows : (index + 1) * width ≤ other * width :=
      Nat.mul_le_mul_right width before
    omega
  · have rows : (other + 1) * width ≤ index * width :=
      Nat.mul_le_mul_right width after
    omega

end Rows

section Slices

variable
    (scalars : ℕ → UInt8)
    {scalarSize bitsPerChunk nChunks nBuckets : ℕ}

/-- A digit is written at its place. -/
theorem sliceDigitScript_within
    (i carry : ℕ)
    {j : ℕ}
    (isChunk : j < nChunks) :
    (sliceDigitScript scalars scalarSize bitsPerChunk nChunks nBuckets i carry
        j).Within
      (rowPlaces nChunks i) := by
  have inside := mem_rowPlaces isChunk i
  unfold sliceDigitScript
  dsimp only
  split
  · exact ⟨inside, fun _ => trivial⟩
  · exact ⟨inside, fun _ => trivial⟩

/-- The digits of a scalar are written at places of their own. -/
theorem sliceScript_within
    (i : ℤ) :
    (sliceScript scalars scalarSize bitsPerChunk nChunks nBuckets i).Within
      (rowPlaces nChunks i.toNat) := by
  refine Script.Accesses.bind ?_ fun _ => trivial
  refine Script.Accesses.foldlM (fun carry j member => ?_) 0
  exact
    sliceDigitScript_within scalars i.toNat carry (List.mem_range.mp member)

/-- Slicing a scalar makes an access for each of its digits. -/
theorem sliceScript_atMost
    (i : ℤ) :
    (sliceScript scalars scalarSize bitsPerChunk nChunks nBuckets i).AtMost
      (nChunks * 1 + 0) := by
  refine Script.AtMost.bind ?_ fun _ => trivial
  have digits :=
    @Script.AtMost.foldlM _ _ _ _
      (sliceDigitScript scalars scalarSize bitsPerChunk nChunks nBuckets
        i.toNat)
      1
      (by
        intro carry j
        unfold sliceDigitScript
        dsimp only
        split
        · exact fun _ => trivial
        · exact fun _ => trivial)
      (List.range nChunks) 0
  rw [List.length_range] at digits
  exact digits

/-- Slicing a scalar in memory is slicing it. -/
theorem sliceScript_run
    (memory : ℕ → ℤ)
    (i : ℤ) :
    ((sliceScript scalars scalarSize bitsPerChunk nChunks nBuckets i).run
        (Script.held memory)).2 =
      Script.held
        (sliceScalar scalars scalarSize bitsPerChunk nChunks nBuckets memory
          i) := by
  have digits :=
    @Script.run_foldlM_held _ _ _ _
      (sliceDigitScript scalars scalarSize bitsPerChunk nChunks nBuckets
        i.toNat)
      _
      (fun state j =>
        let bucketIndex :=
          getBucketIndex scalars scalarSize bitsPerChunk i.toNat j + state.1
        if bucketIndex ≥ nBuckets then
          (1,
            Function.update state.2 (i.toNat * nChunks + j)
              ((bucketIndex : ℤ) - nBuckets * 2))
        else
          (0, Function.update state.2 (i.toNat * nChunks + j) bucketIndex))
      (by
        intro carry stored j
        unfold sliceDigitScript
        dsimp only
        split
        · rw [Script.run_write_bind]
          rfl
        · rw [Script.run_write_bind]
          rfl)
      (List.range nChunks) 0 memory
  unfold sliceScript
  rw [Script.run_bind, digits]
  rfl

/-- Under every schedule slicing all scalars leaves what it computes. -/
theorem sliceScript_loopRun
    {n nThreads : ℕ}
    (threads : 0 < nThreads)
    {unsliced slicedScalars : ℕ → ℤ} :
    LoopRun nThreads 0 (asInt n)
        (sliceScript scalars scalarSize bitsPerChunk nChunks nBuckets)
        unsliced slicedScalars ↔
      slicedScalars =
        ThreadPool.parallelFor nThreads 0 (asInt n)
          (JobRange.forLoop
            (sliceScalar scalars scalarSize bitsPerChunk nChunks nBuckets))
          unsliced := by
  refine
    ThreadPool.loopRun_iff threads (sliceScript_run scalars)
      (sliceScript_atMost scalars) (sliceScript_within scalars) ?_
  intro i other isIndex isOther differs
  exact rowPlaces_disjoint nChunks (by omega)

/-- Under every schedule the sliced scalars are the digits of all scalars. -/
theorem sliceScript_digits
    {n nThreads : ℕ}
    (threads : 0 < nThreads)
    (countFits : n < 2 ^ 31)
    {unsliced slicedScalars : ℕ → ℤ}
    (slicing :
      LoopRun nThreads 0 (asInt n)
        (sliceScript scalars scalarSize bitsPerChunk nChunks
          (calcBucketCount bitsPerChunk))
        unsliced slicedScalars) :
    ∀ i < n, ∀ j < nChunks,
      slicedScalars (i * nChunks + j) =
        chunkDigit scalars scalarSize bitsPerChunk i j := by
  intro i isPoint j isChunk
  rw [(sliceScript_loopRun scalars threads).mp slicing, asInt_eq countFits]
  exact slicedScalars_eq scalars threads n unsliced isPoint isChunk

end Slices

section Sums

variable
    {Base Point : Type}
    (g : Operations Base Point)
    (bases : ℕ → Base)
    {slicedScalars : ℕ → ℤ}
    {nPoints nChunks nBuckets : ℕ}

/-- The buckets of a thread. -/
def bucketRow (nBuckets numThread : ℕ) : Set Place :=
  {place | ∃ index ∈ rowPlaces nBuckets numThread, place = .bucketMatrix index}

/-- Cleared places hold the identity. -/
theorem run_clear
    (row : ℕ)
    (indices : List ℕ)
    {store : Store Place Point}
    {place : Place}
    (cleared :
      store place = some g.zero ∨
        ∃ i ∈ indices, place = .bucketMatrix (row + i)) :
    ((indices.foldlM
        (fun _ i => Script.write (.bucketMatrix (row + i)) g.zero) ()).run
          store).2 place =
      some g.zero := by
  induction indices generalizing store with
  | nil =>
      rcases cleared with before | ⟨_, impossible, _⟩
      · exact before
      · exact absurd impossible List.not_mem_nil
  | cons first rest inductionHypothesis =>
      rw [Script.run_foldlM_cons]
      refine inductionHypothesis ?_
      by_cases own : place = .bucketMatrix (row + first)
      · exact .inl (by rw [own]; exact Function.update_self _ _ _)
      · rcases cleared with before | ⟨i, member, isPlace⟩
        · exact .inl ((Function.update_of_ne own _ _).trans before)
        · rcases List.mem_cons.mp member with rfl | later
          · exact absurd isPlace own
          · exact .inr ⟨i, later, isPlace⟩

/-- Clearing a row in memory clears it, whatever stands there. -/
theorem clearScript_run
    (numThread : ℕ)
    (store : Store Place Point) :
    ∀ place ∈ bucketRow nBuckets numThread,
      ((clearScript g nBuckets (numThread * nBuckets)).run store).2 place =
        some g.zero := by
  rintro place ⟨index, ⟨least, most⟩, rfl⟩
  refine run_clear g _ _ (.inr ⟨index - numThread * nBuckets, ?_, ?_⟩)
  · rw [List.mem_range]
    rw [Nat.succ_mul] at most
    omega
  · rw [Nat.add_sub_cancel' least]

/-- Clearing a row touches the row only. -/
theorem clearScript_within
    (numThread : ℕ) :
    (clearScript g nBuckets (numThread * nBuckets)).Within
      (bucketRow nBuckets numThread) := by
  refine Script.Accesses.foldlM (fun _ i member => ?_) ()
  have inside := mem_rowPlaces (List.mem_range.mp member) numThread
  exact ⟨⟨_, inside, rfl⟩, fun _ => trivial⟩

/-- A base is put into the row only, if its digit has a bucket. -/
theorem fillBucketScript_within
    {numThread j i : ℕ}
    (digitFits :
      -(nBuckets : ℤ) ≤ slicedScalars (i * nChunks + j) ∧
        slicedScalars (i * nChunks + j) ≤ nBuckets) :
    (fillBucketScript g bases slicedScalars nChunks (numThread * nBuckets) j
        i).Within
      (bucketRow nBuckets numThread) := by
  unfold fillBucketScript
  generalize slicedScalars (i * nChunks + j) = bucketIndex at digitFits
  dsimp only
  split_ifs with positive negative
  · have inside :=
      @mem_rowPlaces nBuckets (bucketIndex - 1).toNat (by omega) numThread
    exact
      ⟨⟨_, inside, rfl⟩, fun _ => ⟨⟨_, inside, rfl⟩, fun _ => trivial⟩⟩
  · have inside :=
      @mem_rowPlaces nBuckets (-bucketIndex - 1).toNat (by omega) numThread
    exact
      ⟨⟨_, inside, rfl⟩, fun _ => ⟨⟨_, inside, rfl⟩, fun _ => trivial⟩⟩
  · exact trivial

/-- So are all bases. -/
theorem fillScript_within
    {numThread j : ℕ}
    (digitsFit :
      ∀ i < nPoints,
        -(nBuckets : ℤ) ≤ slicedScalars (i * nChunks + j) ∧
          slicedScalars (i * nChunks + j) ≤ nBuckets) :
    (fillScript g bases slicedScalars nPoints nChunks (numThread * nBuckets)
        j).Within
      (bucketRow nBuckets numThread) := by
  refine Script.Accesses.foldlM (fun _ i member => ?_) ()
  exact
    fillBucketScript_within g bases (digitsFit i (List.mem_range.mp member))

/-- Adding buckets up reads the row only. -/
theorem addScript_within
    (positive : 0 < nBuckets)
    (numThread : ℕ) :
    (addScript g nBuckets (numThread * nBuckets)).Within
      (bucketRow nBuckets numThread) := by
  have top := mem_rowPlaces (Nat.sub_lt positive Nat.one_pos) numThread
  refine Script.Accesses.bind ⟨⟨_, top, rfl⟩, fun _ => trivial⟩ fun _ => ?_
  refine Script.Accesses.bind ?_ fun _ => trivial
  refine Script.Accesses.foldlM (fun _ i member => ?_) _
  rw [List.mem_reverse, List.mem_range] at member
  have inside := @mem_rowPlaces nBuckets i (by omega) numThread
  exact ⟨⟨_, inside, rfl⟩, fun _ => trivial⟩

/-- Putting a base into its bucket in memory puts it into its bucket. -/
theorem fillBucketScript_run
    (row j i : ℕ)
    (memory : Place → Point) :
    (fillBucketScript g bases slicedScalars nChunks row j i).run
        (Script.held memory) =
      ((),
        Script.held
          (fillBucket g bases slicedScalars nChunks row j memory i)) := by
  unfold fillBucketScript fillBucket
  dsimp only
  split_ifs
  · rw [Script.run_read_bind, ← Script.update_held]
    rfl
  · rw [Script.run_read_bind, ← Script.update_held]
    rfl
  · rfl

/-- Filling buckets in memory fills them. -/
theorem fillScript_run
    (row j : ℕ)
    (memory : Place → Point) :
    ((fillScript g bases slicedScalars nPoints nChunks row j).run
        (Script.held memory)).2 =
      Script.held
        (fillBuckets g bases slicedScalars nPoints nChunks row j memory) := by
  have filled :=
    @Script.run_foldlM_held _ _ _ _
      (fun _ i => fillBucketScript g bases slicedScalars nChunks row j i) _
      (fun state i =>
        ((), fillBucket g bases slicedScalars nChunks row j state.2 i))
      (fun _ memory i => fillBucketScript_run g bases row j i memory)
      (List.range nPoints) () memory
  have buckets :=
    @List.foldl_hom _ _ _ Prod.snd
      (fun (state : Unit × (Place → Point)) i =>
        ((), fillBucket g bases slicedScalars nChunks row j state.2 i))
      (fillBucket g bases slicedScalars nChunks row j) (List.range nPoints)
      ((), memory) fun _ _ => rfl
  unfold fillScript fillBuckets
  rw [filled, ← buckets]

/-- Adding a bucket in memory adds it. -/
theorem addBucketScript_run
    (row : ℕ)
    (memory : Place → Point)
    (state : Point × Point)
    (indices : List ℕ) :
    (indices.foldlM (addBucketScript g row) (some state)).run
        (Script.held memory) =
      (some
          (indices.foldl
            (fun state i =>
              let tmp := g.add state.1 (memory (.bucketMatrix (row + i)))
              (tmp, g.add state.2 tmp))
            state),
        Script.held memory) := by
  induction indices generalizing state with
  | nil =>
      rfl
  | cons i rest inductionHypothesis =>
      have added :
          (addBucketScript g row (some state) i).run (Script.held memory) =
            (some
                (g.add state.1 (memory (.bucketMatrix (row + i))),
                  g.add state.2
                    (g.add state.1 (memory (.bucketMatrix (row + i))))),
              Script.held memory) := by
        unfold addBucketScript
        rw [Script.run_read_bind]
        rfl
      rw [Script.run_foldlM_cons, added, List.foldl_cons]
      exact inductionHypothesis _

/-- Adding buckets up in memory adds them up. -/
theorem addScript_run
    (row : ℕ)
    (memory : Place → Point) :
    ((addScript g nBuckets row).run (Script.held memory)).1 =
      some
        (addBuckets g nBuckets fun i => memory (.bucketMatrix (row + i))) := by
  unfold addScript addBuckets
  rw [Script.run_read_bind, Script.run_bind]
  simp only [Script.held, Option.map_some]
  have added :=
    addBucketScript_run g row memory
      (memory (.bucketMatrix (row + (nBuckets - 1))),
        memory (.bucketMatrix (row + (nBuckets - 1))))
      (List.range (nBuckets - 1)).reverse
  rw [List.foldl_reverse] at added
  rw [added]
  rfl

/--
Whatever stands in the row of the thread, a digit is summed up to the sum of
the digit.
-/
theorem sumScript_chunks
    (positive : 0 < nBuckets)
    {j : ℤ}
    (digitsFit :
      ∀ i < nPoints,
        -(nBuckets : ℤ) ≤ slicedScalars (i * nChunks + j.toNat) ∧
          slicedScalars (i * nChunks + j.toNat) ≤ nBuckets)
    (numThread : ℕ)
    (store : Store Place Point) :
    ((sumScript g bases slicedScalars nPoints nChunks nBuckets numThread j).run
        store).2 (.chunks j.toNat) =
      some (chunkSum g bases slicedScalars nPoints nChunks nBuckets j.toNat) := by
  have within :
      (fillScript g bases slicedScalars nPoints nChunks (numThread * nBuckets)
            j.toNat >>= fun _ =>
          addScript g nBuckets (numThread * nBuckets)).Within
        (bucketRow nBuckets numThread) :=
    Script.Accesses.bind (fillScript_within g bases digitsFit) fun _ =>
      addScript_within g positive numThread
  have sum :
      (addBuckets g nBuckets fun k =>
          fillBuckets g bases slicedScalars nPoints nChunks
            (numThread * nBuckets) j.toNat (fun _ => g.zero)
            (.bucketMatrix (numThread * nBuckets + k))) =
        chunkSum g bases slicedScalars nPoints nChunks nBuckets j.toNat :=
    addBuckets_congr g positive (fillBuckets_congr g fun _ _ => rfl)
  have cleared :=
    @Script.Within.run_congr _ _ _ _ _ _ within _
      (Script.held fun _ => g.zero) (clearScript_run g numThread store)
  rw [Script.run_bind, Script.run_bind, fillScript_run, addScript_run, sum]
    at cleared
  unfold sumScript
  dsimp only
  rw [Script.run_bind, Script.run_bind, Script.run_bind]
  exact (Function.update_self _ _ _).trans cleared

/-- A digit is summed up in the row of the thread, and stored at its place. -/
theorem sumScript_within
    (positive : 0 < nBuckets)
    {j : ℤ}
    (digitsFit :
      ∀ i < nPoints,
        -(nBuckets : ℤ) ≤ slicedScalars (i * nChunks + j.toNat) ∧
          slicedScalars (i * nChunks + j.toNat) ≤ nBuckets)
    (numThread : ℕ) :
    (sumScript g bases slicedScalars nPoints nChunks nBuckets numThread
        j).Within
      ({.chunks j.toNat} ∪ bucketRow nBuckets numThread) := by
  have inRow :
      bucketRow nBuckets numThread ⊆
        {.chunks j.toNat} ∪ bucketRow nBuckets numThread :=
    Set.subset_union_right
  refine
    Script.Accesses.bind ((clearScript_within g numThread).mono inRow)
      fun _ => ?_
  refine
    Script.Accesses.bind ((fillScript_within g bases digitsFit).mono inRow)
      fun _ => ?_
  refine
    Script.Accesses.bind ((addScript_within g positive numThread).mono inRow)
      fun _ => ?_
  exact ⟨.inl rfl, fun _ => trivial⟩

/-- Summing a digit up makes so many accesses at most. -/
theorem sumScript_atMost
    (numThread : ℕ)
    (j : ℤ) :
    (sumScript g bases slicedScalars nPoints nChunks nBuckets numThread
        j).AtMost
      (nBuckets * 1 +
        (nPoints * 2 + ((1 + ((nBuckets - 1) * 1 + 0)) + 1))) := by
  have cleared :=
    @Script.AtMost.foldlM _ _ _ _
      (fun _ i =>
        Script.write (Place.bucketMatrix (numThread * nBuckets + i)) g.zero)
      1 (fun _ _ _ => trivial) (List.range nBuckets) ()
  have filled :=
    @Script.AtMost.foldlM _ _ _ _
      (fun _ i =>
        fillBucketScript g bases slicedScalars nChunks (numThread * nBuckets)
          j.toNat i)
      2
      (by
        intro _ i
        unfold fillBucketScript
        dsimp only
        split_ifs
        · exact fun _ _ => trivial
        · exact fun _ _ => trivial
        · exact trivial)
      (List.range nPoints) ()
  have added := fun top =>
    @Script.AtMost.foldlM _ _ _ _
      (addBucketScript g (numThread * nBuckets)) 1 (fun _ _ _ => trivial)
      (List.range (nBuckets - 1)).reverse
      (Option.map (fun top => (top, top)) top)
  rw [List.length_range] at cleared filled
  simp only [List.length_reverse, List.length_range] at added
  refine Script.AtMost.bind cleared fun _ => ?_
  refine Script.AtMost.bind filled fun _ => ?_
  refine Script.AtMost.bind ?_ fun _ => fun _ => trivial
  refine
    @Script.AtMost.bind _ _ _ _ 1 _ (Script.read _) _ (fun _ => trivial)
      fun top => ?_
  exact Script.AtMost.bind (added top) fun _ => trivial

/-- Digits are summed up apart from each other. -/
theorem sumScript_separated
    (positive : 0 < nBuckets)
    (chunksFit : nChunks < 2 ^ 31)
    (digitsFit :
      ∀ i < nPoints, ∀ j < nChunks,
        -(nBuckets : ℤ) ≤ slicedScalars (i * nChunks + j) ∧
          slicedScalars (i * nChunks + j) ≤ nBuckets) :
    LoopSeparated 0 (asInt nChunks)
      (sumScript g bases slicedScalars nPoints nChunks nBuckets)
      (fun j => {.chunks j.toNat}) (bucketRow nBuckets) := by
  rw [asInt_eq chunksFit]
  have fit :
      ∀ j : ℤ,
        0 ≤ j ∧ j < nChunks →
        ∀ i < nPoints,
          -(nBuckets : ℤ) ≤ slicedScalars (i * nChunks + j.toNat) ∧
            slicedScalars (i * nChunks + j.toNat) ≤ nBuckets :=
    fun j isChunk i isPoint => digitsFit i isPoint j.toNat (by omega)
  refine ⟨?_, ?_, ?_, ?_, ?_⟩
  · intro j isChunk numThread
    exact sumScript_within g bases positive (fit j isChunk) numThread
  · intro j other isChunk isOther differs
    rw [Set.disjoint_singleton, ne_eq, Place.chunks.injEq]
    omega
  · intro numThread other differs
    refine Set.disjoint_left.mpr ?_
    rintro place ⟨index, inRow, rfl⟩ ⟨same, inOther, isSame⟩
    rw [Place.bucketMatrix.injEq] at isSame
    subst isSame
    exact
      Set.disjoint_left.mp (rowPlaces_disjoint nBuckets differs) inRow inOther
  · intro j numThread
    rw [Set.disjoint_singleton_left]
    rintro ⟨index, -, impossible⟩
    cases impossible
  · rintro j isChunk numThread other store later - place rfl
    rw [sumScript_chunks g bases positive (fit j isChunk),
      sumScript_chunks g bases positive (fit j isChunk)]

/-- Under every schedule the chunks are the sums of the digits. -/
theorem sumCall_computes
    (positive : 0 < nBuckets)
    (chunksFit : nChunks < 2 ^ 31)
    (digitsFit :
      ∀ i < nPoints, ∀ j < nChunks,
        -(nBuckets : ℤ) ≤ slicedScalars (i * nChunks + j) ∧
          slicedScalars (i * nChunks + j) ≤ nBuckets)
    {nThreads : ℕ}
    (threads : 0 < nThreads)
    (nonempty : 0 < asInt nChunks)
    {initially : Store Place Point}
    {schedule : List Party}
    {state : PoolState Place Point}
    (run :
      Run
        (sumCall g bases slicedScalars nPoints nChunks nBuckets threads
          nonempty)
        (PoolState.initial
          (sumCall g bases slicedScalars nPoints nChunks nBuckets threads
            nonempty)
          initially)
        schedule state)
    (returned : state.main = .returned)
    {j : ℕ}
    (isChunk : j < nChunks) :
    state.store (.chunks j) =
      some (chunkSum g bases slicedScalars nPoints nChunks nBuckets j) := by
  have separated := sumScript_separated g bases positive chunksFit digitsFit
  have lasting :
      ∀ numThread, Place.chunks j ∉ bucketRow nBuckets numThread := by
    rintro numThread ⟨index, -, impossible⟩
    cases impossible
  rw [ThreadPool.threadLoopCall_computes threads nonempty separated run
    returned lasting]
  generalize
    (threadLoopCall threads nonempty
      (sumScript g bases slicedScalars nPoints nChunks nBuckets)).curThreadId =
        numThread
  simp only [JobRange.indices, asInt_eq chunksFit, sub_zero,
    Int.toNat_natCast, zero_add, List.foldl_map]
  have summed :=
    @Imperative.foldl_range_invariant _ nChunks
      (fun count (store : Store Place Point) =>
        ∀ j < count,
          store (.chunks j) =
            some (chunkSum g bases slicedScalars nPoints nChunks nBuckets j))
      (fun store (j : ℕ) =>
        ((sumScript g bases slicedScalars nPoints nChunks nBuckets numThread
          j).run store).2)
      initially
      (fun j impossible => absurd impossible (Nat.not_lt_zero j))
      (by
        intro store k isChunk earlier j upTo
        have fit := fun i isPoint => digitsFit i isPoint k isChunk
        rcases Nat.lt_succ_iff_lt_or_eq.mp upTo with before | rfl
        · rw [(sumScript_within g bases positive fit numThread).run_frame]
          · exact earlier j before
          · rintro (own | ⟨index, -, impossible⟩)
            · rw [Set.mem_singleton_iff, Place.chunks.injEq,
                Int.toNat_natCast] at own
              omega
            · cases impossible
        · exact sumScript_chunks g bases positive fit numThread store)
  exact summed j isChunk

end Sums

section Runs

variable
    {Base Point : Type}

/-- What the chunks may be, both loops under schedules of their own. -/
inductive ChunksRun
    (g : Operations Base Point)
    (bases : ℕ → Base)
    (scalars : ℕ → UInt8)
    (scalarSize n nThreads bitsPerChunk nChunks nBuckets : ℕ) :
    (ℕ → Point) → Prop where
  | intro
      {unsliced slicedScalars : ℕ → ℤ}
      {initially : Store Place Point}
      {schedule : List Party}
      {state : PoolState Place Point}
      {chunks : ℕ → Point}
      (threads : 0 < nThreads)
      (nonempty : 0 < asInt nChunks)
      (slicing :
        LoopRun nThreads 0 (asInt n)
          (sliceScript scalars scalarSize bitsPerChunk nChunks nBuckets)
          unsliced slicedScalars)
      (summing :
        Run
          (sumCall g bases slicedScalars n nChunks nBuckets threads nonempty)
          (PoolState.initial
            (sumCall g bases slicedScalars n nChunks nBuckets threads nonempty)
            initially)
          schedule state)
      (returned : state.main = .returned)
      (left : ∀ j < nChunks, state.store (.chunks j) = some (chunks j)) :
      ChunksRun g bases scalars scalarSize n nThreads bitsPerChunk nChunks
        nBuckets chunks

/-- What the sum may be, the loops under schedules of their own. -/
inductive SumRun
    (g : Operations Base Point)
    (bases : ℕ → Base)
    (scalars : ℕ → UInt8)
    (scalarSize n nThreads : ℕ) :
    Point → Prop where
  | none
      (isNone : n = 0) :
      SumRun g bases scalars scalarSize n nThreads g.zero
  | one
      (isOne : n = 1) :
      SumRun g bases scalars scalarSize n nThreads
        (nafMulByScalar g (bases 0) scalars scalarSize)
  | several
      {bitsPerChunk : ℕ}
      {chunks : ℕ → Point}
      (several : 2 ≤ n)
      (bits : bitsPerChunk = calcBitsPerChunk n scalarSize)
      (run :
        ChunksRun g bases scalars scalarSize n nThreads bitsPerChunk
          (calcChunkCount scalarSize bitsPerChunk)
          (calcBucketCount bitsPerChunk) chunks) :
      SumRun g bases scalars scalarSize n nThreads
        (combineChunks g bitsPerChunk (calcChunkCount scalarSize bitsPerChunk)
          chunks)

variable
    {g : Operations Base Point}
    {bases : ℕ → Base}
    {scalars : ℕ → UInt8}
    {scalarSize n nThreads : ℕ}

/-- The digits are not too many for the loop. -/
theorem calcChunkCount_lt
    (sizeFits : scalarSize < 2 ^ 28)
    (bitsPerChunk : ℕ) :
    calcChunkCount scalarSize bitsPerChunk < 2 ^ 31 := by
  have most := Nat.div_le_self (scalarSize * 8 - 1) bitsPerChunk
  unfold calcChunkCount
  omega

/-- Under every schedule the chunks are the sums of the digits of scalars. -/
theorem ChunksRun.chunks_eq
    (size : 8 ≤ scalarSize)
    (sizeFits : scalarSize < 2 ^ 28)
    (countFits : n < 2 ^ 31)
    {bitsPerChunk : ℕ}
    (positive : 0 < bitsPerChunk)
    (most : bitsPerChunk ≤ maxChunkSizeBits)
    {chunks : ℕ → Point}
    (run :
      ChunksRun g bases scalars scalarSize n nThreads bitsPerChunk
        (calcChunkCount scalarSize bitsPerChunk)
        (calcBucketCount bitsPerChunk) chunks) :
    ∃ slicedScalars : ℕ → ℤ,
      (∀ i < n, ∀ j < calcChunkCount scalarSize bitsPerChunk,
        slicedScalars (i * calcChunkCount scalarSize bitsPerChunk + j) =
          chunkDigit scalars scalarSize bitsPerChunk i j) ∧
        ∀ j < calcChunkCount scalarSize bitsPerChunk,
          chunks j =
            chunkSum g bases slicedScalars n
              (calcChunkCount scalarSize bitsPerChunk)
              (calcBucketCount bitsPerChunk) j := by
  cases run with
  | @intro unsliced slicedScalars _ _ _ _ threads nonempty slicing summing
      returned left =>
      have digits := sliceScript_digits scalars threads countFits slicing
      refine ⟨slicedScalars, digits, fun j isChunk => ?_⟩
      have computed :=
        sumCall_computes g bases (calcBucketCount_pos bitsPerChunk)
          (calcChunkCount_lt sizeFits bitsPerChunk)
          (fun i isPoint j isChunk => by
            rw [digits i isPoint j isChunk]
            exact chunkDigit_bounds scalars size positive most i isChunk)
          threads nonempty summing returned isChunk
      rw [left j isChunk, Option.some.injEq] at computed
      exact computed

/-- Both loops can return. -/
theorem ChunksRun.exists
    (sizeFits : scalarSize < 2 ^ 28)
    (threads : 0 < nThreads)
    (size : 8 ≤ scalarSize)
    (countFits : n < 2 ^ 31)
    {bitsPerChunk : ℕ}
    (positive : 0 < bitsPerChunk)
    (most : bitsPerChunk ≤ maxChunkSizeBits) :
    ∃ chunks,
      ChunksRun g bases scalars scalarSize n nThreads bitsPerChunk
        (calcChunkCount scalarSize bitsPerChunk)
        (calcBucketCount bitsPerChunk) chunks := by
  have chunksFit := calcChunkCount_lt sizeFits bitsPerChunk
  have nonempty :
      0 < asInt (calcChunkCount scalarSize bitsPerChunk) := by
    rw [asInt_eq chunksFit]
    exact Int.natCast_pos.mpr (Nat.succ_pos _)
  obtain ⟨slicedScalars, slicing⟩ :
      ∃ slicedScalars,
        LoopRun nThreads 0 (asInt n)
          (sliceScript scalars scalarSize bitsPerChunk
            (calcChunkCount scalarSize bitsPerChunk)
            (calcBucketCount bitsPerChunk))
          (fun _ => 0) slicedScalars :=
    ⟨_, (sliceScript_loopRun scalars threads).mpr rfl⟩
  have digits := sliceScript_digits scalars threads countFits slicing
  obtain ⟨schedule, state, summing, returned⟩ :=
    ThreadPool.threadLoopCall_exists_returned threads nonempty
      (@sumScript_atMost _ _ g bases slicedScalars n
        (calcChunkCount scalarSize bitsPerChunk) (calcBucketCount bitsPerChunk))
      fun _ => some g.zero
  have left :=
    fun j (isChunk : j < calcChunkCount scalarSize bitsPerChunk) =>
      sumCall_computes g bases (calcBucketCount_pos bitsPerChunk) chunksFit
        (fun i isPoint j isChunk => by
          rw [digits i isPoint j isChunk]
          exact chunkDigit_bounds scalars size positive most i isChunk)
        threads nonempty summing returned isChunk
  exact ⟨_, .intro threads nonempty slicing summing returned left⟩

/-- The sum can return. -/
theorem SumRun.exists
    (size : 8 ≤ scalarSize)
    (sizeFits : scalarSize < 2 ^ 28)
    (countFits : n < 2 ^ 31)
    (threads : 0 < nThreads) :
    ∃ r, SumRun g bases scalars scalarSize n nThreads r := by
  rcases Nat.lt_or_ge n 2 with few | several
  · obtain rfl | rfl : n = 0 ∨ n = 1 := by omega
    · exact ⟨_, .none rfl⟩
    · exact ⟨_, .one rfl⟩
  · obtain ⟨least, most⟩ := calcBitsPerChunk_bounds n scalarSize
    have positive := least.trans_lt' (show 0 < minChunkSizeBits by decide)
    obtain ⟨chunks, run⟩ :=
      @ChunksRun.exists Base Point g bases scalars scalarSize n nThreads
        sizeFits threads size countFits _ positive most
    exact ⟨_, .several several rfl run⟩

variable
    {Group : Type}
    [AddCommGroup Group]
    {denotesBase : Base → Group → Prop}
    {denotes : Point → Group → Prop}
    {B : ℕ → Group}

/--
Under every schedule of the loops the sum is that of the bases, each times its
scalar, as long as every scalar is below a quarter of the range of its bytes.
-/
theorem SumRun.denotes_sum
    (represents : g.Represents denotesBase denotes)
    (areBases : ∀ i < n, denotesBase (bases i) (B i))
    (size : 8 ≤ scalarSize)
    (sizeFits : scalarSize < 2 ^ 28)
    (countFits : n < 2 ^ 31)
    (small : ∀ i < n, 4 * scalarAt scalars scalarSize i < 256 ^ scalarSize)
    {r : Point}
    (run : SumRun g bases scalars scalarSize n nThreads r) :
    denotes r (∑ i ∈ Finset.range n, scalarAt scalars scalarSize i • B i) := by
  cases run with
  | none isNone =>
      subst isNone
      simpa using represents.zero
  | one isOne =>
      subst isOne
      have multiplied :=
        nafMulByScalar_denotes represents (areBases 0 Nat.one_pos) scalars
          (show 0 < scalarSize by omega) sizeFits
      simpa [scalarAt] using multiplied
  | several several bits run =>
      obtain ⟨least, most⟩ := calcBitsPerChunk_bounds n scalarSize
      rw [← bits] at least most
      have positive := least.trans_lt' (show 0 < minChunkSizeBits by decide)
      obtain ⟨slicedScalars, digits, sums⟩ :=
        run.chunks_eq size sizeFits countFits positive most
      have combined :=
        combineChunks_slices represents areBases size positive most digits sums
      rw [sum_sub_lastCarry size least most small] at combined
      exact combined

end Runs

end MSM

end StarkCash.Rapidsnark
