import StarkCash.Imperative
import Mathlib.Data.Int.Order.Basic
import Mathlib.Order.Monotone.Basic
import Mathlib.Tactic.Linarith
import Mathlib.Tactic.Ring

namespace StarkCash.Rapidsnark

/-!
# Dividing the work of a parallel loop

`ThreadPool` cuts the range of a loop into jobs, about four for each thread,
and lets its threads work them off.  The jobs are consecutive ranges that make
up the range of the loop, so that, one job after another, a parallel loop is
the loop.
-/

/-- A part of the range of a loop (`JobRange`). -/
structure JobRange where
  begin : ℤ
  stop : ℤ
  deriving Repr, DecidableEq

/-- The indices of a job, in their order. -/
def JobRange.indices (job : JobRange) : List ℤ :=
  (List.range (job.stop - job.begin).toNat).map fun offset : ℕ =>
    job.begin + offset

/-- The counted loop that a job runs. -/
def JobRange.forLoop
    {State : Type}
    (body : State → ℤ → State)
    (job : JobRange)
    (state : State) : State :=
  job.indices.foldl body state

/-- A count as the `int` that the loops of the pool take. -/
def asInt (count : ℕ) : ℤ :=
  (BitVec.ofNat 32 count).toInt

/-- Counts below the range of an `int` are kept. -/
theorem asInt_eq
    {count : ℕ}
    (fits : count < 2 ^ 31) :
    asInt count = count := by
  unfold asInt
  have small : count % 2 ^ 32 = count := Nat.mod_eq_of_lt (by omega)
  rw [BitVec.toInt_eq_toNat_of_lt (by rw [BitVec.toNat_ofNat]; omega),
    BitVec.toNat_ofNat, small]

namespace ThreadPool

/-- Jobs for each thread. -/
def chunksPerThread : ℕ := 4

/-- The jobs of a range, the longer ones first (`divideWork`). -/
def divideWork
    (begin stop : ℤ)
    (threadCount : ℕ) : List JobRange :=
  let elementCount := (stop - begin).toNat
  let chunkCount := min (threadCount * chunksPerThread) elementCount
  let minJobSize := elementCount / chunkCount
  let elementRest := elementCount % chunkCount
  ((List.range chunkCount).foldl
    (fun (state : ℤ × List JobRange) i =>
      let jobSize := if i < elementRest then minJobSize + 1 else minJobSize
      (state.1 + jobSize, state.2 ++ [⟨state.1, state.1 + jobSize⟩]))
    (begin, [])).2

/-- The identifier of the calling thread in a loop (`curThreadId`). -/
def curThreadId
    (nThreads : ℕ)
    (begin stop : ℤ) : ℕ :=
  min nThreads (divideWork begin stop nThreads).length - 1

/-- A parallel loop, its jobs one after another (`parallelFor`). -/
def parallelFor
    {State : Type}
    (nThreads : ℕ)
    (begin stop : ℤ)
    (func : JobRange → State → State)
    (state : State) : State :=
  if begin ≥ stop then
    state
  else
    (divideWork begin stop nThreads).foldl (fun state job => func job state)
      state

section Partition

/-- Where the job of an index begins. -/
def jobBegin
    (begin : ℤ)
    (minJobSize elementRest index : ℕ) : ℤ :=
  begin + index * minJobSize + min index elementRest

/-- Jobs begin where the job before them ends. -/
theorem jobBegin_succ
    (begin : ℤ)
    (minJobSize elementRest index : ℕ) :
    jobBegin begin minJobSize elementRest index +
        ((if index < elementRest then minJobSize + 1 else minJobSize : ℕ) : ℤ) =
      jobBegin begin minJobSize elementRest (index + 1) := by
  unfold jobBegin
  split
  next long =>
    rw [min_eq_left (by omega), min_eq_left (by omega)]
    push_cast
    ring
  next short =>
    rw [min_eq_right (by omega), min_eq_right (by omega)]
    push_cast
    ring

/-- The jobs by their indices. -/
theorem divideWork_eq
    (begin stop : ℤ)
    (threadCount : ℕ) :
    divideWork begin stop threadCount =
      let elementCount := (stop - begin).toNat
      let chunkCount := min (threadCount * chunksPerThread) elementCount
      let border :=
        jobBegin begin (elementCount / chunkCount) (elementCount % chunkCount)
      (List.range chunkCount).map fun index =>
        ⟨border index, border (index + 1)⟩ := by
  simp only [divideWork]
  generalize (stop - begin).toNat = elementCount
  generalize min (threadCount * chunksPerThread) elementCount = chunkCount
  generalize elementCount / chunkCount = minJobSize
  generalize elementCount % chunkCount = elementRest
  have processed :=
    @Imperative.foldl_range_invariant _ chunkCount
      (fun index state =>
        state.1 = jobBegin begin minJobSize elementRest index ∧
          state.2 =
            (List.range index).map fun index =>
              ⟨jobBegin begin minJobSize elementRest index,
                jobBegin begin minJobSize elementRest (index + 1)⟩)
      (fun (state : ℤ × List JobRange) i =>
        let jobSize := if i < elementRest then minJobSize + 1 else minJobSize
        (state.1 + jobSize, state.2 ++ [⟨state.1, state.1 + jobSize⟩]))
      (begin, [])
      ⟨by simp [jobBegin], rfl⟩
      (by
        rintro ⟨_, _⟩ index _ ⟨rfl, rfl⟩
        refine ⟨jobBegin_succ begin minJobSize elementRest index, ?_⟩
        rw [List.range_succ, List.map_append]
        simp only [jobBegin_succ]
        rfl)
  exact processed.2

/-- The last job ends where the range ends. -/
theorem jobBegin_last
    {begin stop : ℤ}
    (ordered : begin ≤ stop)
    {chunkCount : ℕ}
    (positive : 0 < chunkCount) :
    jobBegin begin
        ((stop - begin).toNat / chunkCount)
        ((stop - begin).toNat % chunkCount)
        chunkCount =
      stop := by
  have rest := Nat.mod_lt (stop - begin).toNat positive
  have division := Nat.div_add_mod (stop - begin).toNat chunkCount
  have length : ((stop - begin).toNat : ℤ) = stop - begin :=
    Int.toNat_of_nonneg (by omega)
  unfold jobBegin
  rw [min_eq_right rest.le, add_assoc, ← Nat.cast_mul, ← Nat.cast_add,
    division, length]
  ring

/-- Jobs begin no earlier than those before them. -/
theorem jobBegin_mono
    (begin : ℤ)
    (minJobSize elementRest index : ℕ) :
    jobBegin begin minJobSize elementRest index ≤
      jobBegin begin minJobSize elementRest (index + 1) := by
  rw [← jobBegin_succ]
  omega

/-- Adjacent ranges make up the range of both. -/
theorem indices_append
    {first middle last : ℤ}
    (left : first ≤ middle)
    (right : middle ≤ last) :
    JobRange.indices ⟨first, middle⟩ ++ JobRange.indices ⟨middle, last⟩ =
      JobRange.indices ⟨first, last⟩ := by
  have lengths :
      (last - first).toNat = (middle - first).toNat + (last - middle).toNat := by
    omega
  simp only [JobRange.indices]
  rw [lengths, List.range_add, List.map_append, List.map_map]
  congr 1
  refine List.map_congr_left fun offset _ => ?_
  simp only [Function.comp_apply]
  push_cast
  omega

/-- Consecutive ranges make up the range from the first to the last border. -/
theorem flatMap_indices
    (border : ℕ → ℤ)
    (mono : ∀ index, border index ≤ border (index + 1))
    (count : ℕ) :
    ((List.range count).map fun index =>
        (⟨border index, border (index + 1)⟩ : JobRange)).flatMap
        JobRange.indices =
      JobRange.indices ⟨border 0, border count⟩ := by
  induction count with
  | zero =>
      simp [JobRange.indices]
  | succ count inductionHypothesis =>
      rw [List.range_succ, List.map_append, List.flatMap_append,
        inductionHypothesis, List.map_singleton, List.flatMap_singleton]
      refine indices_append ?_ (mono count)
      exact monotone_nat_of_le_succ mono (Nat.zero_le count)

/-- As many jobs are made as fit. -/
theorem length_divideWork
    (begin stop : ℤ)
    (threadCount : ℕ) :
    (divideWork begin stop threadCount).length =
      min (threadCount * chunksPerThread) (stop - begin).toNat := by
  rw [divideWork_eq]
  simp

/--
The jobs of a range are ranges one after another that hold every index of it
once, none is empty, and no job is longer than another by more than one index.
-/
theorem divideWork_partition
    {begin stop : ℤ}
    (nonempty : begin < stop)
    {threadCount : ℕ}
    (threads : 0 < threadCount) :
    (divideWork begin stop threadCount).flatMap JobRange.indices =
        JobRange.indices ⟨begin, stop⟩ ∧
      ∀ job ∈ divideWork begin stop threadCount,
        job.begin < job.stop ∧
          ∀ other ∈ divideWork begin stop threadCount,
            job.stop - job.begin ≤ other.stop - other.begin + 1 := by
  have positive :
      0 < min (threadCount * chunksPerThread) (stop - begin).toNat := by
    rw [lt_min_iff]
    exact ⟨Nat.mul_pos threads (by decide), by omega⟩
  have fits :
      min (threadCount * chunksPerThread) (stop - begin).toNat ≤
        (stop - begin).toNat :=
    min_le_right _ _
  rw [divideWork_eq]
  simp only
  generalize chunkIs :
    min (threadCount * chunksPerThread) (stop - begin).toNat = chunkCount
  rw [chunkIs] at positive fits
  constructor
  · rw [flatMap_indices _ (jobBegin_mono begin _ _),
      jobBegin_last nonempty.le positive]
    simp [jobBegin]
  · have atLeastOne : 0 < (stop - begin).toNat / chunkCount :=
      Nat.div_pos fits positive
    have size :
        ∀ index,
          jobBegin begin ((stop - begin).toNat / chunkCount)
                ((stop - begin).toNat % chunkCount) (index + 1) -
              jobBegin begin ((stop - begin).toNat / chunkCount)
                ((stop - begin).toNat % chunkCount) index =
            ((stop - begin).toNat / chunkCount : ℕ) +
              if index < (stop - begin).toNat % chunkCount then 1 else 0 := by
      intro index
      rw [← jobBegin_succ]
      split
      · push_cast
        ring
      · ring
    simp only [List.forall_mem_map]
    intro index _
    have own := size index
    constructor
    · split at own
      · omega
      · omega
    · intro other _
      have its := size other
      rw [own, its]
      split
      · split
        · omega
        · omega
      · split
        · omega
        · omega

end Partition

section Sequential

variable {State : Type}

/-- Jobs that loop over their ranges loop over the whole range. -/
theorem parallelFor_forLoop
    {nThreads : ℕ}
    (threads : 0 < nThreads)
    (begin stop : ℤ)
    (body : State → ℤ → State)
    (state : State) :
    parallelFor nThreads begin stop (JobRange.forLoop body) state =
      (JobRange.indices ⟨begin, stop⟩).foldl body state := by
  unfold parallelFor
  split
  next empty =>
    have none : (stop - begin).toNat = 0 := by omega
    simp [JobRange.indices, none]
  next nonempty =>
    rw [← (divideWork_partition (not_le.mp nonempty) threads).1,
      List.foldl_flatMap]
    rfl

/-- A parallel loop from zero loops over the numbers below its end. -/
theorem parallelFor_range
    {nThreads : ℕ}
    (threads : 0 < nThreads)
    (count : ℕ)
    (body : State → ℤ → State)
    (state : State) :
    parallelFor nThreads 0 count (JobRange.forLoop body) state =
      (List.range count).foldl (fun state (i : ℕ) => body state i) state := by
  rw [parallelFor_forLoop threads]
  simp only [JobRange.indices, sub_zero, Int.toNat_natCast, zero_add,
    List.foldl_map]

end Sequential

end ThreadPool

end StarkCash.Rapidsnark
