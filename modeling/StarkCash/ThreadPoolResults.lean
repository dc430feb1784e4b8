import Mathlib.Algebra.Order.Ring.Int
import StarkCash.ThreadPoolRuns

namespace StarkCash.Rapidsnark

/-!
# What a parallel loop leaves

The jobs of a parallel loop that keep to regions of their own, and to the
scratch memory of the thread that runs them, leave under every schedule what
they leave one after another.  A loop whose iterations touch different
addresses is an instance, whatever the number of threads.
-/

open SharedStore

namespace ThreadPool

section Results

variable
    {Address Content : Type}
    {call : ParallelCall Address Content}
    {region scratch : ℕ → Set Address}
    {initially : Store Address Content}

variable [DecidableEq Address]

/--
Jobs stay in regions of their own and in the scratch memory of their thread,
and what they leave in their region depends on what stands there only.
-/
structure ParallelCall.Separated
    (call : ParallelCall Address Content)
    (region scratch : ℕ → Set Address) : Prop where
  within :
    ∀ job thread, (call.func job thread).Within (region job ∪ scratch thread)
  regions :
    ∀ job other, job ≠ other → Disjoint (region job) (region other)
  scratches :
    ∀ thread other,
      thread ≠ other → Disjoint (scratch thread) (scratch other)
  apart : ∀ job thread, Disjoint (region job) (scratch thread)
  determined :
    ∀ job thread other (store later : Store Address Content),
      (∀ address ∈ region job, store address = later address) →
      ∀ address ∈ region job,
        ((call.func job thread).run store).2 address =
          ((call.func job other).run later).2 address

/-- What a job leaves at an address if it is the only one. -/
def ParallelCall.leaves
    (call : ParallelCall Address Content)
    (initially : Store Address Content)
    (job : ℕ)
    (address : Address) : Option Content :=
  ((call.func job call.curThreadId).run initially).2 address

/-- Ended jobs have left, and running jobs will leave, what they leave alone. -/
structure PoolState.Computes
    (call : ParallelCall Address Content)
    (region scratch : ℕ → Set Address)
    (initially : Store Address Content)
    (state : PoolState Address Content) : Prop where
  running :
    ∀ party job script,
      state.work party = some (.running job script) →
      script.Within (region job ∪ scratch (call.threadId party)) ∧
        ∀ address ∈ region job,
          (script.run state.store).2 address =
            call.leaves initially job address
  finished :
    ∀ job ∈ state.finished,
      ∀ address ∈ region job,
        state.store address = call.leaves initially job address
  untouched :
    ∀ job ∉ state.finished,
      (∀ party script, state.work party ≠ some (.running job script)) →
      ∀ address ∈ region job, state.store address = initially address
  outside :
    ∀ address,
      (∀ job, address ∉ region job) →
      (∀ thread, address ∉ scratch thread) →
      state.store address = initially address

omit [DecidableEq Address] in
/-- Nothing has begun at first. -/
theorem PoolState.Computes.initial [DecidableEq Address]
    (call : ParallelCall Address Content)
    (region scratch : ℕ → Set Address)
    (initially : Store Address Content) :
    (PoolState.initial call initially).Computes call region scratch
      initially where
  running := fun party _ _ runs => by cases party <;> cases runs
  finished := fun _ ended => absurd ended List.not_mem_nil
  untouched := fun _ _ _ _ _ => rfl
  outside := fun _ _ _ => rfl

omit [DecidableEq Address] in
/-- A region and the scratch memory of a thread miss those of another job. -/
theorem ParallelCall.Separated.disjoint [DecidableEq Address]
    (separated : call.Separated region scratch)
    {job other thread another : ℕ}
    (jobs : other ≠ job)
    (threads : another ≠ thread)
    {address : Address}
    (member : address ∈ region other ∪ scratch another) :
    address ∉ region job ∪ scratch thread := by
  rintro (own | own)
  · rcases member with inRegion | inScratch
    · exact
        Set.disjoint_left.mp (separated.regions other job jobs) inRegion own
    · exact
        Set.disjoint_left.mp (separated.apart job another) own inScratch
  · rcases member with inRegion | inScratch
    · exact
        Set.disjoint_left.mp (separated.apart other thread) inRegion own
    · exact
        Set.disjoint_left.mp (separated.scratches another thread threads)
          inScratch own

/-- A thread that takes up a job computes what the job leaves. -/
theorem PoolState.Computes.take
    (separated : call.Separated region scratch)
    {before after : PoolState Address Content}
    (computes : before.Computes call region scratch initially)
    (accounted : after.Accounted call)
    {party : Party}
    {job : ℕ}
    (store : after.store = before.store)
    (finished : after.finished = before.finished)
    (others :
      ∀ other ≠ party, after.work other = before.work other)
    (resting :
      ∀ own script, before.work party ≠ some (.running own script))
    (works :
      after.work party =
        some (.running job (call.func job (call.threadId party)))) :
    after.Computes call region scratch initially := by
  have fresh :
      ∀ address ∈ region job, before.store address = initially address := by
    refine computes.untouched job ?_ ?_
    · rw [← finished]
      exact accounted.unfinished works
    · intro other script runs
      by_cases same : other = party
      · exact resting job script (same ▸ runs)
      · rw [← others other same] at runs
        exact accounted.apart same works runs rfl
  refine ⟨?_, ?_, ?_, ?_⟩
  · intro other own script runs
    by_cases same : other = party
    · subst same
      rw [works] at runs
      cases runs
      refine ⟨separated.within job _, fun address member => ?_⟩
      exact
        separated.determined job _ _ _ _
          (fun address inside => by rw [store]; exact fresh address inside)
          address member
    · rw [others other same] at runs
      rw [store]
      exact computes.running other own script runs
  · rw [finished, store]
    exact computes.finished
  · rw [finished, store]
    intro own ended still
    refine computes.untouched own ended fun other script runs => ?_
    by_cases same : other = party
    · exact resting own script (same ▸ runs)
    · rw [← others other same] at runs
      exact still other script runs
  · rw [store]
    exact computes.outside

/-- A thread that runs no job computes nothing. -/
theorem PoolState.Computes.rest
    {before after : PoolState Address Content}
    (computes : before.Computes call region scratch initially)
    {party : Party}
    (store : after.store = before.store)
    (finished : after.finished = before.finished)
    (others :
      ∀ other ≠ party, after.work other = before.work other)
    (resting :
      ∀ own script, before.work party ≠ some (.running own script))
    (stillResting :
      ∀ own script, after.work party ≠ some (.running own script)) :
    after.Computes call region scratch initially := by
  refine ⟨?_, ?_, ?_, ?_⟩
  · intro other own script runs
    have differs : other ≠ party := by
      rintro rfl
      exact stillResting own script runs
    rw [others other differs] at runs
    rw [store]
    exact computes.running other own script runs
  · rw [finished, store]
    exact computes.finished
  · rw [finished, store]
    intro own ended still
    refine computes.untouched own ended fun other script runs => ?_
    have differs : other ≠ party := by
      rintro rfl
      exact resting own script runs
    rw [← others other differs] at runs
    exact still other script runs
  · rw [store]
    exact computes.outside

/-- An access changes what its own job and thread may change. -/
theorem PoolState.Computes.access
    (separated : call.Separated region scratch)
    {before : PoolState Address Content}
    (computes : before.Computes call region scratch initially)
    (accounted : before.Accounted call)
    {party : Party}
    {job : ℕ}
    {address : Address}
    {update : Option Content → Option Content}
    {next : Option Content → JobScript Address Content}
    (point :
      before.work party = some (.running job (.access address update next))) :
    PoolState.Computes call region scratch initially
      { before.setWork party (.running job (next (before.store address))) with
        store :=
          Function.update before.store address
            (update (before.store address)) } := by
  obtain ⟨within, leaves⟩ := computes.running party job _ point
  have untouched :
      ∀ other ∉ region job ∪ scratch (call.threadId party),
        Function.update before.store address (update (before.store address))
            other =
          before.store other := by
    intro other outside
    refine Function.update_of_ne ?_ _ _
    rintro rfl
    exact outside within.1
  have otherRegion :
      ∀ other ≠ job,
        ∀ inside ∈ region other,
          inside ∉ region job ∪ scratch (call.threadId party) := by
    rintro other differs inside member (own | own)
    · exact
        Set.disjoint_left.mp (separated.regions other job differs) member own
    · exact Set.disjoint_left.mp (separated.apart other _) member own
  refine ⟨?_, ?_, ?_, ?_⟩
  · intro other otherJob script runs
    rw [PoolState.work_mk] at runs
    by_cases same : other = party
    · subst same
      rw [PoolState.work_setWork_self] at runs
      cases runs
      exact ⟨within.2 _, leaves⟩
    · rw [PoolState.work_setWork_of_ne before same] at runs
      obtain ⟨otherWithin, otherLeaves⟩ :=
        computes.running other otherJob script runs
      have jobs := accounted.apart same point runs
      have threads := accounted.ordered.threadId_ne same point runs
      refine ⟨otherWithin, fun inside member => ?_⟩
      rw [← otherLeaves inside member]
      refine otherWithin.run_store_congr (fun place allowed => ?_) (.inl member)
      exact untouched place (separated.disjoint jobs threads allowed)
  · intro ended isEnded inside member
    rw [PoolState.setWork_finished] at isEnded
    have differs : ended ≠ job := by
      rintro rfl
      exact accounted.unfinished point isEnded
    exact
      (untouched inside (otherRegion ended differs inside member)).trans
        (computes.finished ended isEnded inside member)
  · intro waiting unfinished still inside member
    rw [PoolState.setWork_finished] at unfinished
    have differs : waiting ≠ job := by
      rintro rfl
      refine still party (next (before.store address)) ?_
      rw [PoolState.work_mk]
      exact before.work_setWork_self party _
    refine
      (untouched inside (otherRegion waiting differs inside member)).trans
        (computes.untouched waiting unfinished ?_ inside member)
    intro other script runs
    have others : other ≠ party := by
      rintro rfl
      rw [point] at runs
      cases runs
      exact differs rfl
    refine still other script ?_
    rw [PoolState.work_mk, PoolState.work_setWork_of_ne before others]
    exact runs
  · intro place noRegion noScratch
    refine (untouched place ?_).trans (computes.outside place noRegion noScratch)
    rintro (own | own)
    · exact noRegion job own
    · exact noScratch _ own

/-- A job that ends has left what it leaves. -/
theorem PoolState.Computes.finish
    {before : PoolState Address Content}
    (computes : before.Computes call region scratch initially)
    {party : Party}
    {job : ℕ}
    (point : before.work party = some (.running job (.done ()))) :
    PoolState.Computes call region scratch initially
      { before.setWork party .popping with
        finished := before.finished ++ [job] } := by
  refine ⟨?_, ?_, ?_, ?_⟩
  · intro other otherJob script runs
    rw [PoolState.work_mk] at runs
    have differs : other ≠ party := by
      rintro rfl
      rw [PoolState.work_setWork_self] at runs
      cases runs
    rw [PoolState.work_setWork_of_ne before differs] at runs
    rw [PoolState.setWork_store]
    exact computes.running other otherJob script runs
  · intro ended isEnded inside member
    rw [PoolState.setWork_store]
    rcases List.mem_append.mp isEnded with earlier | own
    · exact computes.finished ended earlier inside member
    · rw [List.mem_singleton] at own
      subst own
      exact (computes.running party ended _ point).2 inside member
  · intro waiting unfinished still inside member
    rw [List.mem_append, List.mem_singleton, not_or] at unfinished
    rw [PoolState.setWork_store]
    refine computes.untouched waiting unfinished.1 ?_ inside member
    intro other script runs
    have differs : other ≠ party := by
      rintro rfl
      rw [point] at runs
      cases runs
      exact unfinished.2 rfl
    refine still other script ?_
    rw [PoolState.work_mk, PoolState.work_setWork_of_ne before differs]
    exact runs
  · rw [PoolState.setWork_store]
    exact computes.outside

/-- Every step computes what the jobs leave alone. -/
theorem Step.computes
    (separated : call.Separated region scratch)
    {before after : PoolState Address Content}
    {party : Party}
    (step : Step call before party after)
    (accounted : before.Accounted call)
    (afterAccounted : after.Accounted call)
    (computes : before.Computes call region scratch initially) :
    after.Computes call region scratch initially := by
  have others : ∀ other ≠ party, after.work other = before.work other :=
    fun other differs => step.work_of_ne differs
  cases step with
  | push point more =>
      refine computes.rest rfl rfl others ?_ ?_
      · simp [PoolState.work, point]
      · simp [PoolState.work]
  | pushed point last =>
      refine computes.rest rfl rfl others ?_ ?_
      · simp [PoolState.work, point]
      · simp [PoolState.work]
  | submit point more free =>
      refine computes.rest rfl rfl others ?_ ?_
      · simp [PoolState.work, point]
      · simp [PoolState.work]
  | own point last =>
      refine
        computes.take separated afterAccounted rfl rfl others ?_
          (before.work_setWork_self .main _)
      simp [PoolState.work, point]
  | wake point =>
      refine
        computes.take separated afterAccounted rfl rfl others ?_
          (before.work_setWork_self _ _)
      simp [PoolState.work, point]
  | access point =>
      exact computes.access separated accounted point
  | finish point =>
      exact computes.finish point
  | pop point queued =>
      refine
        computes.take separated afterAccounted
          (PoolState.setWork_store ..) (PoolState.setWork_finished ..) others ?_
          ((PoolState.work_mk ..).trans (before.work_setWork_self party _))
      simp [point]
  | sleep point empty =>
      refine computes.rest rfl rfl others ?_ ?_
      · simp [PoolState.work, point]
      · simp [PoolState.work]
  | drained point empty =>
      refine computes.rest rfl rfl others ?_ ?_
      · simp [PoolState.work, point]
      · simp [PoolState.work]
  | wait point more free =>
      refine computes.rest rfl rfl others ?_ ?_
      · simp [PoolState.work, point]
      · simp [PoolState.work]
  | leave point last =>
      refine computes.rest rfl rfl others ?_ ?_
      · simp [PoolState.work, point]
      · simp [PoolState.work]

/-- So does every run. -/
theorem Run.computes
    (separated : call.Separated region scratch)
    {before after : PoolState Address Content}
    {schedule : List Party}
    (run : Run call before schedule after)
    (accounted : before.Accounted call)
    (computes : before.Computes call region scratch initially) :
    after.Computes call region scratch initially := by
  induction run with
  | nil state =>
      exact computes
  | cons step rest inductionHypothesis =>
      have later : PoolState.Accounted call _ :=
        ⟨step.ordered accounted.ordered,
          fun job => by
            rw [step.places accounted.ordered]
            exact accounted.once job⟩
      exact
        inductionHypothesis later
          (step.computes separated accounted later computes)

/-- The jobs one after another, on one thread. -/
def ParallelCall.sequentially
    (call : ParallelCall Address Content)
    (initially : Store Address Content) : Store Address Content :=
  (List.range call.jobCount).foldl
    (fun store job => ((call.func job call.curThreadId).run store).2)
    initially

/-- One after another, the jobs leave what they leave alone. -/
theorem ParallelCall.Separated.sequentially_eq
    (separated : call.Separated region scratch)
    (initially : Store Address Content) :
    (∀ job < call.jobCount,
        ∀ address ∈ region job,
          call.sequentially initially address =
            call.leaves initially job address) ∧
      ∀ address,
        (∀ job < call.jobCount, address ∉ region job) →
        (∀ thread, address ∉ scratch thread) →
        call.sequentially initially address = initially address := by
  have processed :=
    @Imperative.foldl_range_invariant _ call.jobCount
      (fun count (store : Store Address Content) =>
        (∀ job < count,
            ∀ address ∈ region job,
              store address = call.leaves initially job address) ∧
          (∀ job ≥ count,
            ∀ address ∈ region job, store address = initially address) ∧
          ∀ address,
            (∀ job < count, address ∉ region job) →
            (∀ thread, address ∉ scratch thread) →
            store address = initially address)
      (fun store job => ((call.func job call.curThreadId).run store).2)
      initially
      ⟨fun _ below => absurd below (Nat.not_lt_zero _), fun _ _ _ _ => rfl,
        fun _ _ _ => rfl⟩
      (by
        rintro store job - ⟨left, untouched, outside⟩
        have frame :
            ∀ other ≠ job,
              ∀ address ∈ region other,
                ((call.func job call.curThreadId).run store).2 address =
                  store address := by
          intro other differs address member
          refine (separated.within job _).run_frame store ?_
          rintro (own | own)
          · exact
              Set.disjoint_left.mp (separated.regions other job differs)
                member own
          · exact Set.disjoint_left.mp (separated.apart other _) member own
        refine ⟨?_, ?_, ?_⟩
        · intro other below address member
          rcases Nat.lt_succ_iff_lt_or_eq.mp below with earlier | own
          · rw [frame other earlier.ne address member]
            exact left other earlier address member
          · subst own
            exact
              separated.determined other _ _ _ _ (untouched other (le_refl _))
                address member
        · intro other above address member
          rw [frame other (by omega) address member]
          exact untouched other (by omega) address member
        · intro address noRegion noScratch
          rw [(separated.within job _).run_frame store ?_]
          · exact
              outside address
                (fun other below => noRegion other (by omega)) noScratch
          · rintro (own | own)
            · exact noRegion job (Nat.lt_succ_self job) own
            · exact noScratch _ own)
  exact ⟨processed.1, processed.2.2⟩

/--
Under every schedule a parallel loop whose jobs stay in regions of their own
leaves what the jobs leave one after another, scratch memory apart.
-/
theorem parallelFor_computes
    (separated : call.Separated region scratch)
    {initially : Store Address Content}
    {schedule : List Party}
    {state : PoolState Address Content}
    (run : Run call (PoolState.initial call initially) schedule state)
    (returned : state.main = .returned)
    {address : Address}
    (lasting : ∀ thread, address ∉ scratch thread) :
    state.store address = call.sequentially initially address := by
  have start := PoolState.Ordered.initial call initially
  have places := PoolState.places_initial call initially
  obtain ⟨ordered, samePlaces⟩ := run.accounts start
  have computes :=
    run.computes separated
      ⟨start, fun job => by rw [places]; split <;> omega⟩
      (.initial call region scratch initially)
  have ended :=
    ordered.finished_perm returned fun job => by rw [samePlaces, places]
  obtain ⟨sequential, sequentialOutside⟩ :=
    separated.sequentially_eq initially
  by_cases owned : ∃ job < call.jobCount, address ∈ region job
  · obtain ⟨job, isJob, member⟩ := owned
    rw [sequential job isJob address member]
    refine computes.finished job ?_ address member
    exact ended.mem_iff.mpr (List.mem_range.mpr isJob)
  · push Not at owned
    rw [sequentialOutside address owned lasting]
    by_cases elsewhere : ∃ job, address ∈ region job
    · obtain ⟨job, member⟩ := elsewhere
      refine computes.untouched job ?_ ?_ address member
      · intro isEnded
        have isJob := List.mem_range.mp (ended.mem_iff.mp isEnded)
        exact owned job isJob member
      · intro party script runs
        have expects := ordered.expects
        rw [returned] at expects
        cases party with
        | main =>
            rw [PoolState.work_main_eq_some, returned] at runs
            cases runs
        | worker index =>
            rw [PoolState.work_worker_eq_some, expects.2 index] at runs
            cases runs
    · push Not at elsewhere
      exact computes.outside address elsewhere lasting

end Results

section Loops

variable
    {Address Content : Type}
    {body : ℤ → JobScript Address Content}
    {threadBody : ℕ → ℤ → JobScript Address Content}
    {region : ℤ → Set Address}
    {scratch : ℕ → Set Address}

/-- The iterations of a job one after another. -/
def loopScript
    (body : ℤ → JobScript Address Content) :
    List ℤ → JobScript Address Content
  | [] => .done ()
  | index :: rest => (body index).bind fun _ => loopScript body rest

/-- The indices of a job. -/
def jobIndices
    (nThreads : ℕ)
    (begin stop : ℤ)
    (job : ℕ) : List ℤ :=
  ((divideWork begin stop nThreads).map JobRange.indices).getD job []

/-- A parallel loop whose iterations are given the thread they run on. -/
def threadLoopCall
    {nThreads : ℕ}
    (threads : 0 < nThreads)
    {begin stop : ℤ}
    (nonempty : begin < stop)
    (threadBody : ℕ → ℤ → JobScript Address Content) :
    ParallelCall Address Content where
  nThreads := nThreads
  jobCount := (divideWork begin stop nThreads).length
  func job thread :=
    loopScript (threadBody thread) (jobIndices nThreads begin stop job)
  threads := threads
  jobs := by
    rw [length_divideWork, lt_min_iff]
    exact ⟨Nat.mul_pos threads (by decide), by omega⟩

/-- A parallel loop over a range, its jobs divided among the threads. -/
def loopCall
    {nThreads : ℕ}
    (threads : 0 < nThreads)
    {begin stop : ℤ}
    (nonempty : begin < stop)
    (body : ℤ → JobScript Address Content) :
    ParallelCall Address Content :=
  threadLoopCall threads nonempty fun _ => body

/-- The iterations access what each of them does. -/
theorem loopScript_within
    {indices : List ℤ}
    (within : ∀ index ∈ indices, (body index).Within (region index)) :
    (loopScript body indices).Within
      {address | ∃ index ∈ indices, address ∈ region index} := by
  induction indices with
  | nil =>
      exact trivial
  | cons index rest inductionHypothesis =>
      rw [List.forall_mem_cons] at within
      refine Script.Accesses.bind ?_ fun _ => ?_
      · exact
          within.1.mono fun address member =>
            ⟨index, List.mem_cons_self, member⟩
      · refine (inductionHypothesis within.2).mono ?_
        rintro address ⟨other, inRest, member⟩
        exact ⟨other, List.mem_cons_of_mem index inRest, member⟩

/-- The iterations of a job make no more accesses than each of them. -/
theorem loopScript_atMost
    {bound : ℕ}
    (bounded : ∀ index, (body index).AtMost bound)
    (indices : List ℤ) :
    (loopScript body indices).AtMost (indices.length * bound) := by
  induction indices with
  | nil =>
      exact (show (Script.done ()).AtMost 0 from trivial).mono (Nat.zero_le _)
  | cons index rest inductionHypothesis =>
      rw [List.length_cons, Nat.succ_mul, add_comm]
      exact (bounded index).bind fun _ => inductionHypothesis

/-- The indices of a job are in the range of the loop. -/
theorem mem_range_of_mem_jobIndices
    {nThreads : ℕ}
    (threads : 0 < nThreads)
    {begin stop : ℤ}
    (nonempty : begin < stop)
    {job : ℕ}
    {index : ℤ}
    (member : index ∈ jobIndices nThreads begin stop job) :
    begin ≤ index ∧ index < stop := by
  have inside : index ∈ JobRange.indices ⟨begin, stop⟩ := by
    rw [← (divideWork_partition nonempty threads).1, List.mem_flatMap]
    unfold jobIndices at member
    rw [List.getD_eq_getElem?_getD, List.getElem?_map] at member
    cases isJob : (divideWork begin stop nThreads)[job]? with
    | none =>
        simp [isJob] at member
    | some own =>
        rw [isJob] at member
        exact ⟨own, List.mem_of_getElem? isJob, member⟩
  simp only [JobRange.indices, List.mem_map, List.mem_range] at inside
  obtain ⟨offset, below, rfl⟩ := inside
  constructor
  · omega
  · omega

/-- No index belongs to two jobs. -/
theorem jobIndices_disjoint
    {nThreads : ℕ}
    (threads : 0 < nThreads)
    {begin stop : ℤ}
    (nonempty : begin < stop)
    {job other : ℕ}
    (differs : job ≠ other)
    {index : ℤ}
    (member : index ∈ jobIndices nThreads begin stop job) :
    index ∉ jobIndices nThreads begin stop other := by
  have distinct : (JobRange.indices ⟨begin, stop⟩).Nodup := by
    refine List.Nodup.map ?_ List.nodup_range
    intro left right same
    exact Int.natCast_inj.mp (add_left_cancel same)
  rw [← (divideWork_partition nonempty threads).1, List.nodup_flatMap]
    at distinct
  intro otherMember
  unfold jobIndices at member otherMember
  rw [List.getD_eq_getElem?_getD, List.getElem?_map] at member otherMember
  cases isJob : (divideWork begin stop nThreads)[job]? with
  | none =>
      simp [isJob] at member
  | some own =>
      cases isOther : (divideWork begin stop nThreads)[other]? with
      | none =>
          simp [isOther] at otherMember
      | some another =>
          rw [isJob] at member
          rw [isOther] at otherMember
          obtain ⟨jobFits, rfl⟩ := List.getElem?_eq_some_iff.mp isJob
          obtain ⟨otherFits, rfl⟩ := List.getElem?_eq_some_iff.mp isOther
          have pairwise := List.pairwise_iff_getElem.mp distinct.2
          rcases Nat.lt_or_gt_of_ne differs with before | after
          · exact
              pairwise job other jobFits otherFits before member otherMember
          · exact
              pairwise other job otherFits jobFits after otherMember member

variable [DecidableEq Address]

/-- The iterations run one after another. -/
theorem loopScript_run
    (indices : List ℤ)
    (store : Store Address Content) :
    ((loopScript body indices).run store).2 =
      indices.foldl (fun store index => ((body index).run store).2) store := by
  induction indices generalizing store with
  | nil =>
      rfl
  | cons index rest inductionHypothesis =>
      have sequence :=
        Script.run_bind (body index) (fun _ => loopScript body rest) store
      rw [List.foldl_cons, ← inductionHypothesis]
      exact congrArg Prod.snd sequence

/-- The jobs of a loop one after another are the loop on one thread. -/
theorem threadLoopCall_sequentially
    {nThreads : ℕ}
    (threads : 0 < nThreads)
    {begin stop : ℤ}
    (nonempty : begin < stop)
    (threadBody : ℕ → ℤ → JobScript Address Content)
    (initially : Store Address Content) :
    (threadLoopCall threads nonempty threadBody).sequentially initially =
      (JobRange.indices ⟨begin, stop⟩).foldl
        (fun store index =>
          ((threadBody (threadLoopCall threads nonempty threadBody).curThreadId
            index).run store).2)
        initially := by
  have jobs :
      (List.range (divideWork begin stop nThreads).length).map
          (jobIndices nThreads begin stop) =
        (divideWork begin stop nThreads).map JobRange.indices := by
    refine List.ext_getElem (by simp) fun position fits other => ?_
    simp only [List.length_map, List.length_range] at fits
    simp [jobIndices, List.getD_eq_getElem?_getD, fits]
  have sequential :
      (threadLoopCall threads nonempty threadBody).sequentially initially =
        (List.range (divideWork begin stop nThreads).length).foldl
          (fun store job =>
            ((loopScript
                (threadBody
                  (threadLoopCall threads nonempty threadBody).curThreadId)
                (jobIndices nThreads begin stop job)).run store).2)
          initially :=
    rfl
  rw [sequential]
  generalize (threadLoopCall threads nonempty threadBody).curThreadId = own
  rw [← (divideWork_partition nonempty threads).1, List.flatMap_def, ← jobs,
    List.foldl_flatten, List.foldl_map]
  simp only [loopScript_run]

/--
Iterations stay in regions of their own and in the scratch memory of their
thread, and what they leave in their region depends on what stands there only.
-/
structure LoopSeparated
    (begin stop : ℤ)
    (threadBody : ℕ → ℤ → JobScript Address Content)
    (region : ℤ → Set Address)
    (scratch : ℕ → Set Address) : Prop where
  within :
    ∀ index,
      begin ≤ index ∧ index < stop →
      ∀ thread,
        (threadBody thread index).Within (region index ∪ scratch thread)
  regions :
    ∀ index other,
      begin ≤ index ∧ index < stop →
      begin ≤ other ∧ other < stop →
      index ≠ other →
      Disjoint (region index) (region other)
  scratches :
    ∀ thread other,
      thread ≠ other → Disjoint (scratch thread) (scratch other)
  apart : ∀ index thread, Disjoint (region index) (scratch thread)
  determined :
    ∀ index,
      begin ≤ index ∧ index < stop →
      ∀ thread other (store later : Store Address Content),
        (∀ address ∈ region index, store address = later address) →
        ∀ address ∈ region index,
          ((threadBody thread index).run store).2 address =
            ((threadBody other index).run later).2 address
/-- What a job leaves in its regions does not depend on its thread. -/
theorem LoopSeparated.loopScript_determined
    {begin stop : ℤ}
    (separated : LoopSeparated begin stop threadBody region scratch)
    {all indices : List ℤ}
    (inRange : ∀ index ∈ all, begin ≤ index ∧ index < stop)
    (subset : indices ⊆ all)
    (thread other : ℕ)
    {store later : Store Address Content}
    (agree :
      ∀ index ∈ all,
        ∀ address ∈ region index, store address = later address) :
    ∀ index ∈ all,
      ∀ address ∈ region index,
        ((loopScript (threadBody thread) indices).run store).2 address =
          ((loopScript (threadBody other) indices).run later).2 address := by
  induction indices generalizing store later with
  | nil =>
      exact agree
  | cons first rest inductionHypothesis =>
      obtain ⟨isFirst, areRest⟩ := List.cons_subset.mp subset
      have firstInRange := inRange first isFirst
      rw [loopScript_run, loopScript_run, List.foldl_cons, List.foldl_cons,
        ← loopScript_run, ← loopScript_run]
      refine inductionHypothesis areRest fun index member address inside => ?_
      by_cases same : index = first
      · subst same
        exact
          separated.determined index firstInRange thread other store later
            (agree index member) address inside
      · have elsewhere :
            ∀ own, address ∉ region first ∪ scratch own := by
          rintro own (inRegion | inScratch)
          · exact
              Set.disjoint_left.mp
                (separated.regions index first (inRange index member)
                  firstInRange same)
                inside inRegion
          · exact
              Set.disjoint_left.mp (separated.apart index own) inside inScratch
        rw [(separated.within first firstInRange thread).run_frame _
            (elsewhere thread),
          (separated.within first firstInRange other).run_frame _
            (elsewhere other)]
        exact agree index member address inside

/-- The jobs of such a loop are separated. -/
theorem LoopSeparated.separated
    {begin stop : ℤ}
    (separated : LoopSeparated begin stop threadBody region scratch)
    {nThreads : ℕ}
    (threads : 0 < nThreads)
    (nonempty : begin < stop) :
    (threadLoopCall threads nonempty threadBody).Separated
      (fun job =>
        {address |
          ∃ index ∈ jobIndices nThreads begin stop job,
            address ∈ region index})
      scratch := by
  have inRange :
      ∀ job, ∀ index ∈ jobIndices nThreads begin stop job,
        begin ≤ index ∧ index < stop :=
    fun job index member =>
      mem_range_of_mem_jobIndices threads nonempty member
  refine ⟨?_, ?_, separated.scratches, ?_, ?_⟩
  · intro job thread
    have accessed :=
      loopScript_within fun index member =>
        separated.within index (inRange job index member) thread
    refine accessed.mono ?_
    rintro address ⟨index, member, inRegion | inScratch⟩
    · exact .inl ⟨index, member, inRegion⟩
    · exact .inr inScratch
  · intro job other differs
    refine Set.disjoint_left.mpr ?_
    rintro address ⟨index, member, touched⟩ ⟨another, otherMember, also⟩
    have apart : index ≠ another := by
      rintro rfl
      exact jobIndices_disjoint threads nonempty differs member otherMember
    exact
      Set.disjoint_left.mp
        (separated.regions index another (inRange job index member)
          (inRange other another otherMember) apart)
        touched also
  · intro job thread
    refine Set.disjoint_left.mpr ?_
    rintro address ⟨index, -, inRegion⟩ inScratch
    exact
      Set.disjoint_left.mp (separated.apart index thread) inRegion inScratch
  · rintro job thread other store later agree address ⟨index, member, inside⟩
    refine
      separated.loopScript_determined (inRange job) (List.Subset.refl _) thread
        other (fun own isOwn place within => ?_) index member address inside
    exact agree place ⟨own, isOwn, within⟩

/--
Under every schedule a parallel loop whose iterations stay in regions of their
own leaves what the loop leaves on one thread, scratch memory apart.
-/
theorem threadLoopCall_computes
    {nThreads : ℕ}
    (threads : 0 < nThreads)
    {begin stop : ℤ}
    (nonempty : begin < stop)
    (separated : LoopSeparated begin stop threadBody region scratch)
    {initially : Store Address Content}
    {schedule : List Party}
    {state : PoolState Address Content}
    (run :
      Run (threadLoopCall threads nonempty threadBody)
        (PoolState.initial (threadLoopCall threads nonempty threadBody)
          initially)
        schedule state)
    (returned : state.main = .returned)
    {address : Address}
    (lasting : ∀ thread, address ∉ scratch thread) :
    state.store address =
      (JobRange.indices ⟨begin, stop⟩).foldl
        (fun store index =>
          ((threadBody (threadLoopCall threads nonempty threadBody).curThreadId
            index).run store).2)
        initially address := by
  rw [← threadLoopCall_sequentially threads nonempty threadBody initially]
  exact
    parallelFor_computes (separated.separated threads nonempty) run returned
      lasting

/--
A parallel loop whose iterations touch different addresses leaves, for every
number of threads and under every schedule, what the loop leaves.
-/
theorem loopCall_computes
    {nThreads : ℕ}
    (threads : 0 < nThreads)
    {begin stop : ℤ}
    (nonempty : begin < stop)
    (within : ∀ index, (body index).Within (region index))
    (disjoint :
      ∀ index other,
        begin ≤ index ∧ index < stop →
        begin ≤ other ∧ other < stop →
        index ≠ other →
        Disjoint (region index) (region other))
    {initially : Store Address Content}
    {schedule : List Party}
    {state : PoolState Address Content}
    (run :
      Run (loopCall threads nonempty body)
        (PoolState.initial (loopCall threads nonempty body) initially)
        schedule state)
    (returned : state.main = .returned) :
    state.store =
      (JobRange.indices ⟨begin, stop⟩).foldl
        (fun store index => ((body index).run store).2) initially := by
  have separated :
      LoopSeparated begin stop (fun _ => body) region fun _ => ∅ := by
    refine ⟨?_, disjoint, ?_, ?_, ?_⟩
    · intro index _ thread
      exact (within index).mono Set.subset_union_left
    · intro thread other _
      exact Set.disjoint_left.mpr fun _ none => absurd none id
    · intro index thread
      exact Set.disjoint_left.mpr fun _ _ none => none
    · intro index _ thread other store later agree address member
      exact (within index).run_store_congr agree member
  funext address
  exact
    threadLoopCall_computes threads nonempty separated run returned
      fun _ => id

/-- A job has no more iterations than the loop. -/
theorem length_jobIndices_le
    {nThreads : ℕ}
    (threads : 0 < nThreads)
    {begin stop : ℤ}
    (nonempty : begin < stop)
    (job : ℕ) :
    (jobIndices nThreads begin stop job).length ≤ (stop - begin).toNat := by
  have whole := (divideWork_partition nonempty threads).1
  unfold jobIndices
  rw [List.getD_eq_getElem?_getD]
  cases isJob :
      ((divideWork begin stop nThreads).map JobRange.indices)[job]? with
  | none =>
      exact Nat.zero_le _
  | some indices =>
      have part :=
        (List.sublist_flatten_of_mem (List.mem_of_getElem? isJob)).length_le
      rw [← List.flatMap_def, whole] at part
      simpa [JobRange.indices] using part

/-- Some schedule lets a parallel loop return. -/
theorem threadLoopCall_exists_returned
    {nThreads : ℕ}
    (threads : 0 < nThreads)
    {begin stop : ℤ}
    (nonempty : begin < stop)
    {bound : ℕ}
    (bounded : ∀ thread index, (threadBody thread index).AtMost bound)
    (initially : Store Address Content) :
    ∃ schedule state,
      Run (threadLoopCall threads nonempty threadBody)
          (PoolState.initial (threadLoopCall threads nonempty threadBody)
            initially)
          schedule state ∧
        state.main = .returned := by
  have jobsBounded :
      (threadLoopCall threads nonempty threadBody).Bounded
        ((stop - begin).toNat * bound) := by
    intro job thread
    refine (loopScript_atMost (bounded thread) _).mono ?_
    exact
      Nat.mul_le_mul_right bound (length_jobIndices_le threads nonempty job)
  exact
    (PoolState.Ordered.initial _ initially).exists_returned jobsBounded
      (PoolState.Bounded.initial _ _ initially)

/--
A parallel loop takes a memory to another: nothing happens in an empty range,
and a call on the pool returns under some schedule.
-/
inductive LoopRun
    (nThreads : ℕ)
    (begin stop : ℤ)
    (body : ℤ → JobScript Address Content) :
    (Address → Content) → (Address → Content) → Prop where
  | empty
      (none : stop ≤ begin)
      (memory : Address → Content) :
      LoopRun nThreads begin stop body memory memory
  | called
      {before after : Address → Content}
      {schedule : List Party}
      {state : PoolState Address Content}
      (threads : 0 < nThreads)
      (nonempty : begin < stop)
      (run :
        Run (loopCall threads nonempty body)
          (PoolState.initial (loopCall threads nonempty body)
            (Script.held before))
          schedule state)
      (returned : state.main = .returned)
      (left : state.store = Script.held after) :
      LoopRun nThreads begin stop body before after

section Memory

variable
    {nThreads : ℕ}
    {begin stop : ℤ}
    {iterate : (Address → Content) → ℤ → Address → Content}

/-- Iterations that fill the memory anew leave what their loop computes. -/
theorem foldl_held
    (computes :
      ∀ memory index,
        ((body index).run (Script.held memory)).2 =
          Script.held (iterate memory index))
    (indices : List ℤ)
    (memory : Address → Content) :
    indices.foldl (fun store index => ((body index).run store).2)
        (Script.held memory) =
      Script.held (indices.foldl iterate memory) := by
  induction indices generalizing memory with
  | nil =>
      rfl
  | cons index rest inductionHypothesis =>
      rw [List.foldl_cons, List.foldl_cons, computes]
      exact inductionHypothesis (iterate memory index)

/--
A parallel loop takes a memory to one other only, under whatever schedule, if
its iterations touch different addresses.
-/
theorem loopRun_iff
    (threads : 0 < nThreads)
    (computes :
      ∀ memory index,
        ((body index).run (Script.held memory)).2 =
          Script.held (iterate memory index))
    {bound : ℕ}
    (bounded : ∀ index, (body index).AtMost bound)
    (within : ∀ index, (body index).Within (region index))
    (disjoint :
      ∀ index other,
        begin ≤ index ∧ index < stop →
        begin ≤ other ∧ other < stop →
        index ≠ other →
        Disjoint (region index) (region other))
    {before after : Address → Content} :
    LoopRun nThreads begin stop body before after ↔
      after =
        parallelFor nThreads begin stop (JobRange.forLoop iterate) before := by
  rw [parallelFor_forLoop threads]
  have filled : ∀ left right : Address → Content,
      Script.held left = Script.held right → left = right := by
    intro left right same
    funext address
    exact Option.some.inj (congrFun same address)
  constructor
  · intro run
    cases run with
    | empty none =>
        have noIndex : (stop - begin).toNat = 0 := by omega
        simp [JobRange.indices, noIndex]
    | called _ nonempty run returned left =>
        have loops :=
          loopCall_computes threads nonempty within disjoint run returned
        rw [left, foldl_held computes] at loops
        exact filled _ _ loops
  · rintro rfl
    rcases Int.lt_or_le begin stop with nonempty | none
    · obtain ⟨schedule, state, run, returned⟩ :=
        threadLoopCall_exists_returned threads nonempty (fun _ => bounded)
          (Script.held before)
      have loops :=
        loopCall_computes threads nonempty within disjoint run returned
      rw [foldl_held computes] at loops
      exact .called threads nonempty run returned loops
    · have noIndex : (stop - begin).toNat = 0 := by omega
      simp only [JobRange.indices, noIndex, List.range_zero, List.map_nil,
        List.foldl_nil]
      exact .empty none before

end Memory

/--
On pools of whatever sizes, and under whatever schedules, a parallel loop whose
iterations touch different addresses leaves the same.
-/
theorem loopCall_agree
    {nThreads others : ℕ}
    (threads : 0 < nThreads)
    (otherThreads : 0 < others)
    {begin stop : ℤ}
    (nonempty : begin < stop)
    (within : ∀ index, (body index).Within (region index))
    (disjoint :
      ∀ index other,
        begin ≤ index ∧ index < stop →
        begin ≤ other ∧ other < stop →
        index ≠ other →
        Disjoint (region index) (region other))
    {initially : Store Address Content}
    {schedule otherSchedule : List Party}
    {state other : PoolState Address Content}
    (run :
      Run (loopCall threads nonempty body)
        (PoolState.initial (loopCall threads nonempty body) initially)
        schedule state)
    (otherRun :
      Run (loopCall otherThreads nonempty body)
        (PoolState.initial (loopCall otherThreads nonempty body) initially)
        otherSchedule other)
    (returned : state.main = .returned)
    (otherReturned : other.main = .returned) :
    state.store = other.store := by
  rw [loopCall_computes threads nonempty within disjoint run returned,
    loopCall_computes otherThreads nonempty within disjoint otherRun
      otherReturned]

/-- A loop of two iterations on some threads, each writing to its index. -/
def twoWrites
    {nThreads : ℕ}
    (threads : 0 < nThreads) : ParallelCall ℤ ℕ :=
  @loopCall ℤ ℕ nThreads threads 0 2 (Int.natCast_pos.mpr Nat.two_pos)
    fun index => Script.write index 7

/-- Two threads that overlap leave what one thread leaves. -/
theorem twoWrites_agree :
    ∃ schedule state other,
      Run (twoWrites Nat.two_pos)
          (PoolState.initial (twoWrites Nat.two_pos) fun _ => none)
          [.main, .main, .main, .worker 0, .main, .worker 0, .worker 0, .main,
            .worker 0, .main, .main, .main] state ∧
        Run (twoWrites Nat.one_pos)
          (PoolState.initial (twoWrites Nat.one_pos) fun _ => none)
          schedule other ∧
        state.main = .returned ∧
        other.main = .returned ∧
        state.store = other.store := by
  obtain ⟨state, run, returned⟩ :
      ∃ state,
        Run (twoWrites Nat.two_pos)
            (PoolState.initial (twoWrites Nat.two_pos) fun _ => none)
            [.main, .main, .main, .worker 0, .main, .worker 0, .worker 0,
              .main, .worker 0, .main, .main, .main] state ∧
          state.main = .returned :=
    ⟨_,
      .cons (.pushed rfl (by decide)) <|
      .cons (.submit rfl (by decide) rfl) <|
      .cons (.own rfl (by decide)) <|
      .cons (.wake rfl) <|
      .cons (.access rfl) <|
      .cons (.access rfl) <|
      .cons (.finish rfl) <|
      .cons (.finish rfl) <|
      .cons (.sleep rfl rfl) <|
      .cons (.drained rfl rfl) <|
      .cons (.wait rfl (by decide) rfl) <|
      .cons (.leave rfl (by decide)) <|
      .nil _,
      rfl⟩
  obtain ⟨schedule, other, otherRun, otherReturned⟩ :=
    @threadLoopCall_exists_returned ℤ ℕ
      (fun _ index => Script.write index 7) _ 1 Nat.one_pos 0 2
      (Int.natCast_pos.mpr Nat.two_pos) 1 (fun _ _ _ => trivial) fun _ => none
  refine ⟨schedule, state, other, run, otherRun, returned, otherReturned, ?_⟩
  exact
    @loopCall_agree ℤ ℕ (fun index => Script.write index 7)
      (fun index => {index}) _ 2 1 Nat.two_pos Nat.one_pos 0 2
      (Int.natCast_pos.mpr Nat.two_pos)
      (fun _ => ⟨rfl, fun _ => trivial⟩)
      (fun _ _ _ _ differs => Set.disjoint_singleton.mpr differs)
      _ _ _ _ _ run otherRun returned otherReturned

end Loops

end ThreadPool

end StarkCash.Rapidsnark
