import Mathlib.Algebra.BigOperators.Group.Finset.Basic
import Mathlib.Algebra.Order.Ring.Nat
import Mathlib.Data.List.Count
import Mathlib.Order.Lattice.Nat
import Mathlib.Logic.Relation
import StarkCash.SharedStore
import StarkCash.ThreadPool

namespace StarkCash.Rapidsnark

/-!
# A parallel loop on the threads of the pool

`parallelFor` leaves the jobs beyond the number of threads in a queue, hands a
job to every worker, works off a job itself and then takes jobs from the
queue, as the workers do, until it is empty.  It returns when it has waited for
every worker.  Taking a job from the queue is one step, since the queue is
locked; the accesses of the running jobs interleave as the scheduler likes.
-/

open SharedStore

namespace ThreadPool

variable {Address Content : Type}

/-- What a job does to the memory. -/
abbrev JobScript (Address Content : Type) : Type :=
  Script Address Content Unit

/-- A call of `parallelFor` with its jobs, each a script for every thread. -/
structure ParallelCall (Address Content : Type) where
  nThreads : ℕ
  jobCount : ℕ
  func : ℕ → ℕ → JobScript Address Content
  threads : 0 < nThreads
  jobs : 0 < jobCount

namespace ParallelCall

/-- Threads that take part (`threadCount`). -/
def threadCount (call : ParallelCall Address Content) : ℕ :=
  min call.nThreads call.jobCount

/-- The identifier of the calling thread (`curThreadId`). -/
def curThreadId (call : ParallelCall Address Content) : ℕ :=
  call.threadCount - 1

/-- Some thread takes part. -/
theorem threadCount_pos
    (call : ParallelCall Address Content) :
    0 < call.threadCount :=
  lt_min call.threads call.jobs

/-- No more threads take part than there are jobs. -/
theorem threadCount_le
    (call : ParallelCall Address Content) :
    call.threadCount ≤ call.jobCount :=
  min_le_right _ _

end ParallelCall

/-- A thread inside a job, or between two jobs at the queue. -/
inductive Work (Address Content : Type) where
  | running (job : ℕ) (script : JobScript Address Content)
  | popping

/-- Where the calling thread is. -/
inductive MainPoint (Address Content : Type) where
  | pushing (k : ℕ)
  | submitting (k : ℕ)
  | working (work : Work Address Content)
  | waiting (k : ℕ)
  | returned

/-- Where a worker is. -/
inductive WorkerPoint (Address Content : Type) where
  | idle
  | submitted (job : ℕ)
  | working (work : Work Address Content)

/-- The calling thread or a worker. -/
inductive Party where
  | main
  | worker (index : ℕ)
  deriving DecidableEq

/-- The threads, the queue, the memory, and the jobs that have ended. -/
structure PoolState (Address Content : Type) where
  main : MainPoint Address Content
  worker : ℕ → WorkerPoint Address Content
  queue : List ℕ
  store : Store Address Content
  finished : List ℕ

namespace PoolState

/-- The state when the pool is called. -/
def initial
    (call : ParallelCall Address Content)
    (store : Store Address Content) : PoolState Address Content where
  main := .pushing call.threadCount
  worker := fun _ => .idle
  queue := []
  store := store
  finished := []

/-- What a thread works on, if it does. -/
def work
    (state : PoolState Address Content) :
    Party → Option (Work Address Content)
  | .main =>
      match state.main with
      | .working work => some work
      | _ => none
  | .worker index =>
      match state.worker index with
      | .working work => some work
      | _ => none

/-- Let a thread go on with other work. -/
def setWork
    (state : PoolState Address Content)
    (party : Party)
    (work : Work Address Content) : PoolState Address Content :=
  match party with
  | .main => { state with main := .working work }
  | .worker index =>
      { state with
        worker := Function.update state.worker index (.working work) }

end PoolState

/-- The identifier a thread passes to its jobs. -/
def ParallelCall.threadId
    (call : ParallelCall Address Content) : Party → ℕ
  | .main => call.curThreadId
  | .worker index => index

section Steps

variable [DecidableEq Address]

/-- One step of one thread. -/
inductive Step
    (call : ParallelCall Address Content) :
    PoolState Address Content →
    Party →
    PoolState Address Content →
    Prop where
  /-- `queue->unsafePush`. -/
  | push
      {state : PoolState Address Content}
      {k : ℕ}
      (point : state.main = .pushing k)
      (more : k < call.jobCount) :
      Step call state .main
        { state with
          main := .pushing (k + 1)
          queue := state.queue ++ [k] }
  /-- All jobs beyond the number of threads are in the queue. -/
  | pushed
      {state : PoolState Address Content}
      {k : ℕ}
      (point : state.main = .pushing k)
      (last : call.jobCount ≤ k) :
      Step call state .main { state with main := .submitting 0 }
  /-- `workers[k].submit`. -/
  | submit
      {state : PoolState Address Content}
      {k : ℕ}
      (point : state.main = .submitting k)
      (more : k < call.curThreadId)
      (free : state.worker k = .idle) :
      Step call state .main
        { state with
          main := .submitting (k + 1)
          worker := Function.update state.worker k (.submitted k) }
  /-- The calling thread begins with a job of its own. -/
  | own
      {state : PoolState Address Content}
      {k : ℕ}
      (point : state.main = .submitting k)
      (last : call.curThreadId ≤ k) :
      Step call state .main
        (state.setWork .main (.running k (call.func k call.curThreadId)))
  /-- A worker finds its job. -/
  | wake
      {state : PoolState Address Content}
      {index job : ℕ}
      (point : state.worker index = .submitted job) :
      Step call state (.worker index)
        (state.setWork (.worker index) (.running job (call.func job index)))
  /-- An access of a running job. -/
  | access
      {state : PoolState Address Content}
      {party : Party}
      {job : ℕ}
      {address : Address}
      {update : Option Content → Option Content}
      {next : Option Content → JobScript Address Content}
      (point :
        state.work party = some (.running job (.access address update next))) :
      Step call state party
        { state.setWork party (.running job (next (state.store address))) with
          store :=
            Function.update state.store address
              (update (state.store address)) }
  /-- A running job ends. -/
  | finish
      {state : PoolState Address Content}
      {party : Party}
      {job : ℕ}
      (point : state.work party = some (.running job (.done ()))) :
      Step call state party
        { state.setWork party .popping with
          finished := state.finished ++ [job] }
  /-- `queue->tryPop` finds a job. -/
  | pop
      {state : PoolState Address Content}
      {party : Party}
      {job : ℕ}
      {rest : List ℕ}
      (point : state.work party = some .popping)
      (queued : state.queue = job :: rest) :
      Step call state party
        { state.setWork party
            (.running job (call.func job (call.threadId party))) with
          queue := rest }
  /-- `queue->tryPop` finds nothing, and the worker sleeps. -/
  | sleep
      {state : PoolState Address Content}
      {index : ℕ}
      (point : state.worker index = .working .popping)
      (empty : state.queue = []) :
      Step call state (.worker index)
        { state with worker := Function.update state.worker index .idle }
  /-- `queue->tryPop` finds nothing, and the calling thread waits. -/
  | drained
      {state : PoolState Address Content}
      (point : state.main = .working .popping)
      (empty : state.queue = []) :
      Step call state .main { state with main := .waiting 0 }
  /-- `workers[k].wait`. -/
  | wait
      {state : PoolState Address Content}
      {k : ℕ}
      (point : state.main = .waiting k)
      (more : k < call.curThreadId)
      (free : state.worker k = .idle) :
      Step call state .main { state with main := .waiting (k + 1) }
  /-- No worker is left to wait for. -/
  | leave
      {state : PoolState Address Content}
      {k : ℕ}
      (point : state.main = .waiting k)
      (last : call.curThreadId ≤ k) :
      Step call state .main { state with main := .returned }

/-- Threads step one after another. -/
inductive Run
    (call : ParallelCall Address Content) :
    PoolState Address Content →
    List Party →
    PoolState Address Content →
    Prop where
  | nil (state : PoolState Address Content) :
      Run call state [] state
  | cons
      {before middle after : PoolState Address Content}
      {party : Party}
      {schedule : List Party}
      (step : Step call before party middle)
      (rest : Run call middle schedule after) :
      Run call before (party :: schedule) after

end Steps

/-- What the threads work on is where they are. -/
theorem PoolState.work_mk
    (state : PoolState Address Content)
    (queue : List ℕ)
    (store : Store Address Content)
    (finished : List ℕ)
    (party : Party) :
    PoolState.work ⟨state.main, state.worker, queue, store, finished⟩ party =
      state.work party := by
  cases party <;> rfl

/-- The thread that is given work has it. -/
@[simp] theorem PoolState.work_setWork_self
    (state : PoolState Address Content)
    (party : Party)
    (work : Work Address Content) :
    (state.setWork party work).work party = some work := by
  cases party with
  | main =>
      rfl
  | worker index =>
      simp [PoolState.setWork, PoolState.work]

@[simp] theorem PoolState.setWork_queue
    (state : PoolState Address Content)
    (party : Party)
    (work : Work Address Content) :
    (state.setWork party work).queue = state.queue := by
  cases party <;> rfl

@[simp] theorem PoolState.setWork_store
    (state : PoolState Address Content)
    (party : Party)
    (work : Work Address Content) :
    (state.setWork party work).store = state.store := by
  cases party <;> rfl

@[simp] theorem PoolState.setWork_finished
    (state : PoolState Address Content)
    (party : Party)
    (work : Work Address Content) :
    (state.setWork party work).finished = state.finished := by
  cases party <;> rfl

/-- The other threads keep theirs. -/
theorem PoolState.work_setWork_of_ne
    (state : PoolState Address Content)
    {party other : Party}
    (differs : other ≠ party)
    (work : Work Address Content) :
    (state.setWork party work).work other = state.work other := by
  cases party with
  | main =>
      cases other with
      | main =>
          exact absurd rfl differs
      | worker index =>
          rfl
  | worker index =>
      cases other with
      | main =>
          rfl
      | worker own =>
          have apart : own ≠ index := fun same => differs (same ▸ rfl)
          simp [PoolState.setWork, PoolState.work,
            Function.update_of_ne apart]

section Points

variable {call : ParallelCall Address Content}

/-- Only the calling thread works where it works. -/
theorem PoolState.work_main_eq_some
    {state : PoolState Address Content}
    {work : Work Address Content} :
    state.work .main = some work ↔ state.main = .working work := by
  rw [PoolState.work]
  cases state.main <;> simp

/-- A worker works where it works. -/
theorem PoolState.work_worker_eq_some
    {state : PoolState Address Content}
    {index : ℕ}
    {work : Work Address Content} :
    state.work (.worker index) = some work ↔
      state.worker index = .working work := by
  rw [PoolState.work]
  cases state.worker index <;> simp

/-- What holds of the workers and the queue where the calling thread is. -/
def MainPoint.Expects
    (call : ParallelCall Address Content)
    (queue : List ℕ)
    (worker : ℕ → WorkerPoint Address Content) :
    MainPoint Address Content → Prop
  | .pushing k =>
      call.threadCount ≤ k ∧
        k ≤ call.jobCount ∧
        ∀ index, worker index = .idle
  | .submitting k =>
      k ≤ call.curThreadId ∧ ∀ index, k ≤ index → worker index = .idle
  | .working _ => True
  | .waiting k =>
      queue = [] ∧
        k ≤ call.curThreadId ∧
        ∀ index < k, worker index = .idle
  | .returned => queue = [] ∧ ∀ index, worker index = .idle

/-- Workers that take no part sleep, and the others do what is expected. -/
structure PoolState.Ordered
    (call : ParallelCall Address Content)
    (state : PoolState Address Content) : Prop where
  absent :
    ∀ index, call.curThreadId ≤ index → state.worker index = .idle
  expects : state.main.Expects call state.queue state.worker

/-- The pool is called while its workers sleep. -/
theorem PoolState.Ordered.initial
    (call : ParallelCall Address Content)
    (store : Store Address Content) :
    (PoolState.initial call store).Ordered call where
  absent := fun _ _ => rfl
  expects := ⟨le_refl _, call.threadCount_le, fun _ => rfl⟩

/-- A worker that is awake takes part. -/
theorem PoolState.Ordered.takes_part
    {state : PoolState Address Content}
    (ordered : state.Ordered call)
    {index : ℕ}
    (awake : state.worker index ≠ .idle) :
    index < call.curThreadId := by
  by_contra outside
  exact awake (ordered.absent index (Nat.not_lt.mp outside))

/-- Whatever a worker that is awake does is expected. -/
theorem PoolState.Ordered.setWorker
    {state : PoolState Address Content}
    (ordered : state.Ordered call)
    {own : ℕ}
    (awake : state.worker own ≠ .idle)
    (point : WorkerPoint Address Content) :
    PoolState.Ordered call
      { state with worker := Function.update state.worker own point } := by
  have asleep :
      ∀ index,
        state.worker index = .idle →
        Function.update state.worker own point index = .idle := by
    intro index idle
    refine (Function.update_of_ne ?_ _ _).trans idle
    rintro rfl
    exact awake idle
  refine ⟨fun index above => asleep index (ordered.absent index above), ?_⟩
  have expects := ordered.expects
  change state.main.Expects call state.queue _
  cases main : state.main with
  | pushing k =>
      rw [main] at expects
      exact absurd (expects.2.2 own) awake
  | submitting k =>
      rw [main] at expects
      exact
        ⟨expects.1, fun index above => asleep index (expects.2 index above)⟩
  | working work =>
      trivial
  | waiting k =>
      rw [main] at expects
      exact
        ⟨expects.1, expects.2.1,
          fun index below => asleep index (expects.2.2 index below)⟩
  | returned =>
      rw [main] at expects
      exact absurd (expects.2 own) awake

/-- A thread that works can go on working. -/
theorem PoolState.Ordered.setWork
    {state : PoolState Address Content}
    (ordered : state.Ordered call)
    {party : Party}
    {before : Work Address Content}
    (point : state.work party = some before)
    (after : Work Address Content) :
    (state.setWork party after).Ordered call := by
  cases party with
  | main =>
      exact ⟨ordered.absent, trivial⟩
  | worker own =>
      refine ordered.setWorker ?_ (.working after)
      rw [PoolState.work_worker_eq_some.mp point]
      exact nofun

/-- A queue with a job in it is expected to be shortened. -/
theorem PoolState.Ordered.setQueue
    {state : PoolState Address Content}
    (ordered : state.Ordered call)
    (queued : state.queue ≠ [])
    (queue : List ℕ) :
    PoolState.Ordered call { state with queue := queue } := by
  refine ⟨ordered.absent, ?_⟩
  have expects := ordered.expects
  change state.main.Expects call queue state.worker
  cases main : state.main with
  | pushing k =>
      rw [main] at expects
      exact expects
  | submitting k =>
      rw [main] at expects
      exact expects
  | working work =>
      trivial
  | waiting k =>
      rw [main] at expects
      exact absurd expects.1 queued
  | returned =>
      rw [main] at expects
      exact absurd expects.1 queued

variable [DecidableEq Address]

/-- A step keeps the pool ordered. -/
theorem Step.ordered
    {before after : PoolState Address Content}
    {party : Party}
    (step : Step call before party after)
    (ordered : before.Ordered call) :
    after.Ordered call := by
  have expects := ordered.expects
  cases step with
  | push point more =>
      rw [point] at expects
      exact ⟨ordered.absent, Nat.le_succ_of_le expects.1, more, expects.2.2⟩
  | pushed point last =>
      rw [point] at expects
      exact ⟨ordered.absent, Nat.zero_le _, fun index _ => expects.2.2 index⟩
  | @submit k point more free =>
      rw [point] at expects
      have others :
          ∀ index,
            k + 1 ≤ index →
            Function.update before.worker k (.submitted k) index = .idle := by
        intro index above
        rw [Function.update_of_ne (by omega)]
        exact expects.2 index (by omega)
      exact
        ⟨fun index above => others index (by omega), more, others⟩
  | own point last =>
      exact ⟨ordered.absent, trivial⟩
  | wake point =>
      exact ordered.setWorker (by rw [point]; exact nofun) _
  | access point =>
      obtain ⟨absent, stillExpects⟩ := ordered.setWork point _
      exact ⟨absent, stillExpects⟩
  | finish point =>
      obtain ⟨absent, stillExpects⟩ := ordered.setWork point _
      exact ⟨absent, stillExpects⟩
  | pop point queued =>
      refine (ordered.setWork point _).setQueue ?_ _
      intro empty
      cases party <;>
        simp [PoolState.setWork, queued] at empty
  | sleep point empty =>
      exact ordered.setWorker (by rw [point]; exact nofun) _
  | drained point empty =>
      exact
        ⟨ordered.absent, empty, Nat.zero_le _,
          fun _ below => absurd below (Nat.not_lt_zero _)⟩
  | @wait k point more free =>
      rw [point] at expects
      refine ⟨ordered.absent, expects.1, more, ?_⟩
      intro index below
      rcases Nat.lt_succ_iff_lt_or_eq.mp below with earlier | own
      · exact expects.2.2 index earlier
      · rw [own]
        exact free
  | @leave k point last =>
      rw [point] at expects
      refine ⟨ordered.absent, expects.1, ?_⟩
      intro index
      rcases Nat.lt_or_ge index k with below | above
      · exact expects.2.2 index below
      · exact ordered.absent index (by omega)

end Points

section Tallies

variable
    {call : ParallelCall Address Content}
    {mainWorth : MainPoint Address Content → ℕ}
    {workerWorth : WorkerPoint Address Content → ℕ}

/-- What all workers that take part are worth together. -/
def workersWorth
    (call : ParallelCall Address Content)
    (workerWorth : WorkerPoint Address Content → ℕ)
    (worker : ℕ → WorkerPoint Address Content) : ℕ :=
  ∑ index ∈ Finset.range call.curThreadId, workerWorth (worker index)

/-- What all threads are worth together. -/
def PoolState.tally
    (call : ParallelCall Address Content)
    (mainWorth : MainPoint Address Content → ℕ)
    (workerWorth : WorkerPoint Address Content → ℕ)
    (state : PoolState Address Content) : ℕ :=
  mainWorth state.main + workersWorth call workerWorth state.worker

/-- Sleeping workers that are worth nothing are worth nothing together. -/
theorem workersWorth_of_idle
    (worthless : workerWorth .idle = 0)
    {worker : ℕ → WorkerPoint Address Content}
    (idle : ∀ index, worker index = .idle) :
    workersWorth call workerWorth worker = 0 := by
  refine Finset.sum_eq_zero fun index _ => ?_
  rw [idle, worthless]

/-- One worker changes what all are worth by its own change. -/
theorem workersWorth_update
    (worker : ℕ → WorkerPoint Address Content)
    {own : ℕ}
    (takesPart : own < call.curThreadId)
    (point : WorkerPoint Address Content) :
    workersWorth call workerWorth (Function.update worker own point) +
        workerWorth (worker own) =
      workersWorth call workerWorth worker + workerWorth point := by
  have member : own ∈ Finset.range call.curThreadId :=
    Finset.mem_range.mpr takesPart
  unfold workersWorth
  rw [← Finset.add_sum_erase _ _ member, ← Finset.add_sum_erase _ _ member,
    Function.update_self]
  have others :
      ∑ index ∈ (Finset.range call.curThreadId).erase own,
          workerWorth (Function.update worker own point index) =
        ∑ index ∈ (Finset.range call.curThreadId).erase own,
          workerWorth (worker index) := by
    refine Finset.sum_congr rfl fun index inside => ?_
    rw [Function.update_of_ne (Finset.ne_of_mem_erase inside)]
  rw [others]
  ring

/-- A thread that goes on changes what all are worth by its own change. -/
theorem PoolState.Ordered.tally_setWork
    {state : PoolState Address Content}
    (ordered : state.Ordered call)
    {workWorth : Work Address Content → ℕ}
    {rest : ℕ}
    (mainWorks : ∀ work, mainWorth (.working work) = workWorth work + rest)
    (workerWorks : ∀ work, workerWorth (.working work) = workWorth work)
    {party : Party}
    {before : Work Address Content}
    (point : state.work party = some before)
    (after : Work Address Content) :
    (state.setWork party after).tally call mainWorth workerWorth +
        workWorth before =
      state.tally call mainWorth workerWorth + workWorth after := by
  cases party with
  | main =>
      have main : state.main = .working before :=
        PoolState.work_main_eq_some.mp point
      unfold PoolState.tally
      rw [main, mainWorks]
      change mainWorth (.working after) + _ + _ = _
      rw [mainWorks]
      change _ + workersWorth call workerWorth state.worker + _ = _
      ring
  | worker own =>
      have worker : state.worker own = .working before :=
        PoolState.work_worker_eq_some.mp point
      have takesPart : own < call.curThreadId := by
        refine ordered.takes_part ?_
        rw [worker]
        exact nofun
      have updated :=
        @workersWorth_update _ _ call workerWorth state.worker own takesPart
          (.working after)
      rw [worker, workerWorks, workerWorks] at updated
      unfold PoolState.tally
      change mainWorth state.main +
        workersWorth call workerWorth
          (Function.update state.worker own (.working after)) + _ = _
      omega

end Tallies

section Accounting

variable {call : ParallelCall Address Content}

/-- How often a job is being run. -/
def Work.holds (job : ℕ) : Work Address Content → ℕ
  | .running own _ => if own = job then 1 else 0
  | .popping => 0

/-- How often the calling thread has a job, before it gives it away. -/
def MainPoint.holds
    (call : ParallelCall Address Content)
    (job : ℕ) :
    MainPoint Address Content → ℕ
  | .pushing k =>
      (if job < call.threadCount then 1 else 0) +
        if k ≤ job ∧ job < call.jobCount then 1 else 0
  | .submitting k => if k ≤ job ∧ job < call.threadCount then 1 else 0
  | .working work => work.holds job
  | .waiting _ => 0
  | .returned => 0

/-- How often a worker has a job. -/
def WorkerPoint.holds (job : ℕ) : WorkerPoint Address Content → ℕ
  | .idle => 0
  | .submitted own => if own = job then 1 else 0
  | .working work => work.holds job

/-- How often a job is somewhere: with a thread, in the queue, or finished. -/
def PoolState.places
    (call : ParallelCall Address Content)
    (state : PoolState Address Content)
    (job : ℕ) : ℕ :=
  state.tally call (MainPoint.holds call job) (WorkerPoint.holds job) +
    state.queue.count job +
    state.finished.count job

/-- A thread that goes on has its new job in place of its old one. -/
theorem PoolState.Ordered.holds_setWork
    {state : PoolState Address Content}
    (ordered : state.Ordered call)
    (job : ℕ)
    {party : Party}
    {before : Work Address Content}
    (point : state.work party = some before)
    (after : Work Address Content) :
    (state.setWork party after).tally call (MainPoint.holds call job)
          (WorkerPoint.holds job) +
        before.holds job =
      state.tally call (MainPoint.holds call job) (WorkerPoint.holds job) +
        after.holds job :=
  ordered.tally_setWork (fun _ => (Nat.add_zero _).symm) (fun _ => rfl)
    point after

/-- At first every job is with the calling thread. -/
theorem PoolState.places_initial
    (call : ParallelCall Address Content)
    (store : Store Address Content)
    (job : ℕ) :
    (PoolState.initial call store).places call job =
      if job < call.jobCount then 1 else 0 := by
  have fits := call.threadCount_le
  have idle :
      workersWorth call (WorkerPoint.holds job)
          (PoolState.initial call store).worker =
        0 :=
    workersWorth_of_idle rfl fun _ => rfl
  unfold PoolState.places PoolState.tally
  rw [idle]
  simp only [PoolState.initial, MainPoint.holds, List.count_nil]
  split_ifs <;> omega

variable [DecidableEq Address]

/-- No step loses a job or runs one again. -/
theorem Step.places
    {before after : PoolState Address Content}
    {party : Party}
    (step : Step call before party after)
    (ordered : before.Ordered call)
    (job : ℕ) :
    after.places call job = before.places call job := by
  have expects := ordered.expects
  have threads : call.threadCount = call.curThreadId + 1 := by
    have positive := call.threadCount_pos
    unfold ParallelCall.curThreadId
    omega
  unfold PoolState.places
  cases step with
  | @push k point more =>
      unfold PoolState.tally
      simp only [point, MainPoint.holds, List.count_append,
        List.count_singleton, beq_iff_eq]
      split_ifs <;> omega
  | pushed point last =>
      rw [point] at expects
      unfold PoolState.tally
      simp only [point, MainPoint.holds]
      split_ifs <;> omega
  | @submit k point more free =>
      have updated :=
        @workersWorth_update _ _ call (WorkerPoint.holds job) before.worker k
          more (.submitted k)
      rw [free] at updated
      simp only [WorkerPoint.holds] at updated
      unfold PoolState.tally
      simp only [point, MainPoint.holds]
      split_ifs at updated ⊢ <;> omega
  | @own k point last =>
      rw [point] at expects
      have only : k = call.curThreadId := Nat.le_antisymm expects.1 last
      unfold PoolState.tally
      simp only [point, PoolState.setWork, MainPoint.holds, Work.holds]
      split_ifs <;> omega
  | @wake index own point =>
      have takesPart : index < call.curThreadId := by
        refine ordered.takes_part ?_
        rw [point]
        exact nofun
      have updated :=
        @workersWorth_update _ _ call (WorkerPoint.holds job) before.worker
          index takesPart (.working (.running own (call.func own index)))
      rw [point] at updated
      simp only [WorkerPoint.holds, Work.holds] at updated
      unfold PoolState.tally
      simp only [PoolState.setWork]
      omega
  | @access _ own address update next point =>
      have changed :=
        ordered.holds_setWork job point
          (.running own (next (before.store address)))
      simp only [PoolState.setWork_queue, PoolState.setWork_finished]
      change (before.setWork party _).tally call _ _ + _ + _ = _
      simp only [Work.holds] at changed
      omega
  | @finish _ own point =>
      have changed := ordered.holds_setWork job point .popping
      simp only [PoolState.setWork_queue, List.count_append,
        List.count_singleton, beq_iff_eq]
      change (before.setWork party _).tally call _ _ + _ + _ = _
      simp only [Work.holds] at changed
      omega
  | @pop _ own rest point queued =>
      have changed :=
        ordered.holds_setWork job point
          (.running own (call.func own (call.threadId party)))
      simp only [PoolState.setWork_finished, queued, List.count_cons,
        beq_iff_eq]
      change (before.setWork party _).tally call _ _ + _ + _ = _
      simp only [Work.holds] at changed
      omega
  | @sleep index point empty =>
      have takesPart : index < call.curThreadId := by
        refine ordered.takes_part ?_
        rw [point]
        exact nofun
      have updated :=
        @workersWorth_update _ _ call (WorkerPoint.holds job) before.worker
          index takesPart .idle
      rw [point] at updated
      simp only [WorkerPoint.holds, Work.holds] at updated
      unfold PoolState.tally
      simp only
      omega
  | drained point empty =>
      unfold PoolState.tally
      simp only [point, MainPoint.holds, Work.holds]
  | wait point more free =>
      unfold PoolState.tally
      simp only [point, MainPoint.holds]
  | leave point last =>
      unfold PoolState.tally
      simp only [point, MainPoint.holds]

/-- So no run does. -/
theorem Run.accounts
    {before after : PoolState Address Content}
    {schedule : List Party}
    (run : Run call before schedule after)
    (ordered : before.Ordered call) :
    after.Ordered call ∧
      ∀ job, after.places call job = before.places call job := by
  induction run with
  | nil state =>
      exact ⟨ordered, fun _ => rfl⟩
  | cons step rest inductionHypothesis =>
      obtain ⟨laterOrdered, places⟩ :=
        inductionHypothesis (step.ordered ordered)
      exact
        ⟨laterOrdered,
          fun job => (places job).trans (step.places ordered job)⟩

omit [DecidableEq Address] in
/-- When the call has returned, every job has ended once. -/
theorem PoolState.Ordered.finished_perm
    {state : PoolState Address Content}
    (ordered : state.Ordered call)
    (returned : state.main = .returned)
    (places :
      ∀ job, state.places call job = if job < call.jobCount then 1 else 0) :
    state.finished.Perm (List.range call.jobCount) := by
  have expects := ordered.expects
  rw [returned] at expects
  refine List.perm_iff_count.mpr fun job => ?_
  have idle :
      workersWorth call (WorkerPoint.holds job) state.worker = 0 :=
    workersWorth_of_idle rfl expects.2
  have counted := places job
  unfold PoolState.places PoolState.tally at counted
  rw [idle, returned, expects.1] at counted
  simp only [MainPoint.holds, List.count_nil] at counted
  rw [List.nodup_range.count]
  simp only [List.mem_range]
  omega

end Accounting

section Termination

variable
    {call : ParallelCall Address Content}
    {bound : ℕ}

/-- The least bound on the accesses of a script. -/
noncomputable def longest (script : JobScript Address Content) : ℕ :=
  sInf {accesses | script.AtMost accesses}

/-- A bounded script makes no more accesses than its least bound. -/
theorem atMost_longest
    {script : JobScript Address Content}
    (bounded : script.AtMost bound) :
    script.AtMost (longest script) :=
  Nat.sInf_mem (s := {accesses | script.AtMost accesses}) ⟨bound, bounded⟩

/-- The least bound is no more than any bound. -/
theorem longest_le
    {script : JobScript Address Content}
    (bounded : script.AtMost bound) :
    longest script ≤ bound :=
  Nat.sInf_le bounded

/-- An access leaves a script that makes fewer. -/
theorem longest_next
    {address : Address}
    {update : Option Content → Option Content}
    {next : Option Content → JobScript Address Content}
    (bounded : (Script.access address update next).AtMost bound)
    (found : Option Content) :
    longest (next found) + 1 ≤ longest (.access address update next) := by
  have least := atMost_longest bounded
  cases length : longest (Script.access address update next) with
  | zero =>
      rw [length] at least
      exact absurd least id
  | succ shorter =>
      rw [length] at least
      exact Nat.succ_le_succ (longest_le (least found))

/-- Steps that a thread's work can take, up to the queue. -/
noncomputable def Work.rank : Work Address Content → ℕ
  | .running _ script => longest script + 2
  | .popping => 1

/-- Steps that a worker can take with the job it has. -/
noncomputable def WorkerPoint.rank
    (bound : ℕ) :
    WorkerPoint Address Content → ℕ
  | .idle => 0
  | .submitted _ => bound + 3
  | .working work => work.rank

/-- Steps for the jobs that the calling thread still has. -/
noncomputable def MainPoint.rank
    (call : ParallelCall Address Content)
    (bound : ℕ) :
    MainPoint Address Content → ℕ
  | .pushing k =>
      (call.jobCount - k) * (bound + 3) + call.curThreadId * (bound + 4) +
        (bound + call.curThreadId + 5)
  | .submitting k =>
      (call.curThreadId - k) * (bound + 4) + (bound + call.curThreadId + 4)
  | .working work => work.rank + (call.curThreadId + 1)
  | .waiting k => call.curThreadId - k + 1
  | .returned => 0

/-- No run takes more steps from a state than its rank. -/
noncomputable def PoolState.rank
    (call : ParallelCall Address Content)
    (bound : ℕ)
    (state : PoolState Address Content) : ℕ :=
  state.tally call (MainPoint.rank call bound) (WorkerPoint.rank bound) +
    state.queue.length * (bound + 2)

/-- The jobs make boundedly many accesses. -/
def ParallelCall.Bounded
    (call : ParallelCall Address Content)
    (bound : ℕ) : Prop :=
  ∀ job thread, (call.func job thread).AtMost bound

/-- So do the scripts that the threads run. -/
def PoolState.Bounded
    (bound : ℕ)
    (state : PoolState Address Content) : Prop :=
  ∀ party job script,
    state.work party = some (.running job script) →
    script.AtMost bound

variable [DecidableEq Address]

/-- A step leaves every other thread the work it has. -/
theorem Step.work_of_ne
    {before after : PoolState Address Content}
    {party other : Party}
    (step : Step call before party after)
    (differs : other ≠ party) :
    after.work other = before.work other := by
  have otherWorker :
      ∀ {index : ℕ} (point : WorkerPoint Address Content),
        party = .worker index →
        PoolState.work
            { before with
              worker := Function.update before.worker index point }
            other =
          before.work other := by
    intro index point own
    cases other with
    | main =>
        rfl
    | worker another =>
        have apart : another ≠ index := by
          rintro rfl
          exact differs own.symm
        simp only [PoolState.work, Function.update_of_ne apart]
  have worker : party = .main → ∃ index, other = .worker index := by
    intro main
    cases other with
    | main =>
        exact absurd main.symm differs
    | worker index =>
        exact ⟨index, rfl⟩
  cases step with
  | @submit k point more free =>
      obtain ⟨index, rfl⟩ := worker rfl
      by_cases same : index = k
      · subst same
        simp [PoolState.work, free]
      · simp only [PoolState.work, Function.update_of_ne same]
  | own point last =>
      exact before.work_setWork_of_ne differs _
  | wake point =>
      exact before.work_setWork_of_ne differs _
  | access point =>
      exact
        (PoolState.work_mk _ _ _ _ _).trans
          (before.work_setWork_of_ne differs _)
  | finish point =>
      exact
        (PoolState.work_mk _ _ _ _ _).trans
          (before.work_setWork_of_ne differs _)
  | pop point queued =>
      exact
        (PoolState.work_mk _ _ _ _ _).trans
          (before.work_setWork_of_ne differs _)
  | sleep point empty =>
      exact otherWorker _ rfl
  | push point more =>
      obtain ⟨index, rfl⟩ := worker rfl
      rfl
  | pushed point last =>
      obtain ⟨index, rfl⟩ := worker rfl
      rfl
  | drained point empty =>
      obtain ⟨index, rfl⟩ := worker rfl
      rfl
  | wait point more free =>
      obtain ⟨index, rfl⟩ := worker rfl
      rfl
  | leave point last =>
      obtain ⟨index, rfl⟩ := worker rfl
      rfl

/-- What a thread runs after its step: a new job, or the rest of its job. -/
theorem Step.running_cases
    {before after : PoolState Address Content}
    {party : Party}
    (step : Step call before party after)
    {job : ℕ}
    {script : JobScript Address Content}
    (runs : after.work party = some (.running job script)) :
    script = call.func job (call.threadId party) ∨
      ∃ address update next,
        before.work party =
            some (.running job (.access address update next)) ∧
          script = next (before.store address) := by
  cases step with
  | push point more =>
      cases runs
  | pushed point last =>
      cases runs
  | submit point more free =>
      cases runs
  | own point last =>
      cases runs
      exact .inl rfl
  | wake point =>
      rw [PoolState.work_setWork_self] at runs
      cases runs
      exact .inl rfl
  | access point =>
      rw [PoolState.work_mk, PoolState.work_setWork_self] at runs
      cases runs
      exact .inr ⟨_, _, _, point, rfl⟩
  | finish point =>
      rw [PoolState.work_mk, PoolState.work_setWork_self] at runs
      cases runs
  | pop point queued =>
      rw [PoolState.work_mk, PoolState.work_setWork_self] at runs
      cases runs
      exact .inl rfl
  | sleep point empty =>
      simp [PoolState.work] at runs
  | drained point empty =>
      cases runs
  | wait point more free =>
      cases runs
  | leave point last =>
      cases runs

/-- A step leaves the threads bounded. -/
theorem Step.bounded
    {before after : PoolState Address Content}
    {party : Party}
    (step : Step call before party after)
    (jobsBounded : call.Bounded bound)
    (bounded : before.Bounded bound) :
    after.Bounded bound := by
  intro other job script runs
  by_cases same : other = party
  · subst same
    rcases step.running_cases runs with fresh | continued
    · rw [fresh]
      exact jobsBounded job _
    · obtain ⟨address, update, next, ran, rfl⟩ := continued
      have earlier := bounded other job _ ran
      cases bound with
      | zero =>
          exact absurd earlier id
      | succ bound =>
          exact (earlier _).mono (Nat.le_succ bound)
  · rw [step.work_of_ne same] at runs
    exact bounded other job script runs

/-- Every step lowers the rank. -/
theorem Step.rank_lt
    {before after : PoolState Address Content}
    {party : Party}
    (step : Step call before party after)
    (ordered : before.Ordered call)
    (jobsBounded : call.Bounded bound)
    (bounded : before.Bounded bound) :
    after.rank call bound < before.rank call bound := by
  have expects := ordered.expects
  have working :
      ∀ {work : Work Address Content},
        before.work party = some work →
        ∀ other : Work Address Content,
          (before.setWork party other).tally call
              (MainPoint.rank call bound) (WorkerPoint.rank bound) +
              work.rank =
            before.tally call (MainPoint.rank call bound)
                (WorkerPoint.rank bound) +
              other.rank :=
    fun point other =>
      ordered.tally_setWork (fun _ => rfl) (fun _ => rfl) point other
  have fresh : ∀ job thread, longest (call.func job thread) ≤ bound :=
    fun job thread => longest_le (jobsBounded job thread)
  unfold PoolState.rank
  cases step with
  | @push k point more =>
      have left : call.jobCount - k = call.jobCount - (k + 1) + 1 := by omega
      unfold PoolState.tally
      simp only [point, MainPoint.rank, List.length_append,
        List.length_singleton, left, add_mul]
      omega
  | @pushed k point last =>
      unfold PoolState.tally
      simp only [point, MainPoint.rank, Nat.sub_zero]
      omega
  | @submit k point more free =>
      have updated :=
        @workersWorth_update _ _ call (WorkerPoint.rank bound) before.worker k
          more (.submitted k)
      rw [free] at updated
      simp only [WorkerPoint.rank] at updated
      have left : call.curThreadId - k = call.curThreadId - (k + 1) + 1 := by
        omega
      unfold PoolState.tally
      simp only [point, MainPoint.rank, left, add_mul]
      omega
  | @own k point last =>
      have shorter := fresh k call.curThreadId
      unfold PoolState.tally
      simp only [point, PoolState.setWork, MainPoint.rank, Work.rank]
      omega
  | @wake index own point =>
      have takesPart : index < call.curThreadId := by
        refine ordered.takes_part ?_
        rw [point]
        exact nofun
      have updated :=
        @workersWorth_update _ _ call (WorkerPoint.rank bound) before.worker
          index takesPart (.working (.running own (call.func own index)))
      rw [point] at updated
      simp only [WorkerPoint.rank, Work.rank] at updated
      have shorter := fresh own index
      unfold PoolState.tally
      simp only [PoolState.setWork]
      omega
  | @access _ own address update next point =>
      have changed := working point (.running own (next (before.store address)))
      have shorter :=
        longest_next (bounded party own _ point) (before.store address)
      simp only [PoolState.setWork_queue]
      change (before.setWork party _).tally call _ _ + _ < _
      simp only [Work.rank] at changed
      omega
  | @finish _ own point =>
      have changed := working point .popping
      simp only [PoolState.setWork_queue]
      change (before.setWork party _).tally call _ _ + _ < _
      simp only [Work.rank] at changed
      omega
  | @pop _ own rest point queued =>
      have changed :=
        working point (.running own (call.func own (call.threadId party)))
      have shorter := fresh own (call.threadId party)
      simp only [queued, List.length_cons, add_mul]
      change (before.setWork party _).tally call _ _ + _ < _
      simp only [Work.rank] at changed
      omega
  | @sleep index point empty =>
      have takesPart : index < call.curThreadId := by
        refine ordered.takes_part ?_
        rw [point]
        exact nofun
      have updated :=
        @workersWorth_update _ _ call (WorkerPoint.rank bound) before.worker
          index takesPart .idle
      rw [point] at updated
      simp only [WorkerPoint.rank, Work.rank] at updated
      unfold PoolState.tally
      simp only
      omega
  | drained point empty =>
      unfold PoolState.tally
      simp only [point, MainPoint.rank, Work.rank]
      omega
  | wait point more free =>
      unfold PoolState.tally
      simp only [point, MainPoint.rank]
      omega
  | leave point last =>
      unfold PoolState.tally
      simp only [point, MainPoint.rank]
      omega

/-- So a run is no longer than the rank it starts from. -/
theorem Run.length_le
    {before after : PoolState Address Content}
    {schedule : List Party}
    (run : Run call before schedule after)
    (ordered : before.Ordered call)
    (jobsBounded : call.Bounded bound)
    (bounded : before.Bounded bound) :
    schedule.length + after.rank call bound ≤ before.rank call bound := by
  induction run with
  | nil state =>
      simp
  | cons step rest inductionHypothesis =>
      have later :=
        inductionHypothesis (step.ordered ordered)
          (step.bounded jobsBounded bounded)
      have lower := step.rank_lt ordered jobsBounded bounded
      rw [List.length_cons]
      omega

omit [DecidableEq Address] in
/-- The rank of a call. -/
theorem PoolState.rank_initial
    (call : ParallelCall Address Content)
    (bound : ℕ)
    (store : Store Address Content) :
    (PoolState.initial call store).rank call bound =
      call.jobCount * (bound + 3) + 2 * call.threadCount := by
  have positive := call.threadCount_pos
  have fits := call.threadCount_le
  have current : call.threadCount = call.curThreadId + 1 := by
    unfold ParallelCall.curThreadId
    omega
  have idle :
      workersWorth call (WorkerPoint.rank bound)
          (PoolState.initial call store).worker =
        0 :=
    workersWorth_of_idle rfl fun _ => rfl
  obtain ⟨rest, jobs⟩ := Nat.exists_eq_add_of_le fits
  unfold PoolState.rank PoolState.tally
  rw [idle]
  simp only [PoolState.initial, MainPoint.rank, List.length_nil]
  rw [jobs, current, Nat.add_sub_cancel_left]
  ring

omit [DecidableEq Address] in
/-- No thread runs a job at first. -/
theorem PoolState.Bounded.initial
    (call : ParallelCall Address Content)
    (bound : ℕ)
    (store : Store Address Content) :
    (PoolState.initial call store).Bounded bound := by
  intro party job script runs
  cases party <;> cases runs

/-- A thread that works can take a step. -/
theorem exists_step_of_work
    {state : PoolState Address Content}
    {party : Party}
    {work : Work Address Content}
    (point : state.work party = some work) :
    ∃ later, Step call state party later := by
  cases work with
  | running job script =>
      cases script with
      | done answer =>
          exact ⟨_, .finish point⟩
      | access address update next =>
          exact ⟨_, .access point⟩
  | popping =>
      cases queued : state.queue with
      | nil =>
          cases party with
          | main =>
              exact
                ⟨_, .drained (PoolState.work_main_eq_some.mp point) queued⟩
          | worker index =>
              exact
                ⟨_, .sleep (PoolState.work_worker_eq_some.mp point) queued⟩
      | cons job rest =>
          exact ⟨_, .pop point queued⟩

/-- A worker that is awake can take a step. -/
theorem exists_step_of_awake
    {state : PoolState Address Content}
    {index : ℕ}
    (awake : state.worker index ≠ .idle) :
    ∃ party later, Step call state party later := by
  cases point : state.worker index with
  | idle =>
      exact absurd point awake
  | submitted job =>
      exact ⟨.worker index, _, .wake point⟩
  | working work =>
      obtain ⟨later, step⟩ :=
        exists_step_of_work (PoolState.work_worker_eq_some.mpr point)
      exact ⟨.worker index, later, step⟩

/-- Some thread can take a step until the call has returned. -/
theorem PoolState.Ordered.exists_step
    {state : PoolState Address Content}
    (ordered : state.Ordered call)
    (unfinished : state.main ≠ .returned) :
    ∃ party later, Step call state party later := by
  have expects := ordered.expects
  cases point : state.main with
  | pushing k =>
      rcases Nat.lt_or_ge k call.jobCount with more | last
      · exact ⟨_, _, .push point more⟩
      · exact ⟨_, _, .pushed point last⟩
  | submitting k =>
      rw [point] at expects
      rcases Nat.lt_or_ge k call.curThreadId with more | last
      · exact ⟨_, _, .submit point more (expects.2 k (le_refl k))⟩
      · exact ⟨_, _, .own point last⟩
  | working work =>
      obtain ⟨later, step⟩ :=
        exists_step_of_work (PoolState.work_main_eq_some.mpr point)
      exact ⟨.main, later, step⟩
  | waiting k =>
      rcases Nat.lt_or_ge k call.curThreadId with more | last
      · by_cases free : state.worker k = .idle
        · exact ⟨_, _, .wait point more free⟩
        · exact exists_step_of_awake free
      · exact ⟨_, _, .leave point last⟩
  | returned =>
      exact absurd point unfinished

/-- So some run goes on until the call has returned. -/
theorem PoolState.Ordered.exists_returned
    {state : PoolState Address Content}
    (ordered : state.Ordered call)
    (jobsBounded : call.Bounded bound)
    (bounded : state.Bounded bound) :
    ∃ schedule later, Run call state schedule later ∧ later.main = .returned := by
  generalize isRank : state.rank call bound = rank
  induction rank using Nat.strong_induction_on generalizing state with
  | _ rank inductionHypothesis =>
      by_cases finished : state.main = .returned
      · exact ⟨[], state, .nil state, finished⟩
      · obtain ⟨party, next, step⟩ := ordered.exists_step finished
        have lower := step.rank_lt ordered jobsBounded bounded
        obtain ⟨schedule, later, run, returned⟩ :=
          inductionHypothesis _ (isRank ▸ lower) (step.ordered ordered)
            (step.bounded jobsBounded bounded) rfl
        exact ⟨party :: schedule, later, .cons step run, returned⟩

/--
A call of `parallelFor` returns under every schedule.  A run takes boundedly
many steps, it can go on until the call has returned, and then every job has
ended exactly once.
-/
theorem parallelFor_returns
    (jobsBounded : call.Bounded bound)
    {store : Store Address Content}
    {schedule : List Party}
    {state : PoolState Address Content}
    (run : Run call (PoolState.initial call store) schedule state) :
    schedule.length ≤
        call.jobCount * (bound + 3) + 2 * call.threadCount ∧
      (state.main = .returned ∨
        ∃ party later, Step call state party later) ∧
      (state.main = .returned →
        state.finished.Perm (List.range call.jobCount)) := by
  have start := PoolState.Ordered.initial call store
  obtain ⟨ordered, places⟩ := run.accounts start
  refine ⟨?_, ?_, ?_⟩
  · have steps :=
      run.length_le start jobsBounded (.initial call bound store)
    rw [PoolState.rank_initial] at steps
    exact Nat.le_of_add_right_le steps
  · by_cases finished : state.main = .returned
    · exact .inl finished
    · exact .inr (ordered.exists_step finished)
  · intro returned
    refine ordered.finished_perm returned fun job => ?_
    rw [places, PoolState.places_initial]

/-- Three jobs of one access each, for two threads. -/
def threeJobs : ParallelCall ℕ ℕ where
  nThreads := 2
  jobCount := 3
  func job _ := Script.write job 7
  threads := by decide
  jobs := by decide

/-- A schedule in which both threads are within a job at once. -/
def overlapping : List Party :=
  [.main, .main, .main, .main, .worker 0, .main, .worker 0, .worker 0, .main,
    .worker 0, .main, .worker 0, .worker 0, .worker 0, .main, .main]

/-- The call returns under this schedule. -/
theorem threeJobs_run :
    ∃ state,
      Run threeJobs (PoolState.initial threeJobs fun _ => none) overlapping
          state ∧
        state.main = .returned :=
  ⟨_,
    .cons (.push rfl (by decide)) <|
    .cons (.pushed rfl (by decide)) <|
    .cons (.submit rfl (by decide) rfl) <|
    .cons (.own rfl (by decide)) <|
    .cons (.wake rfl) <|
    .cons (.access rfl) <|
    .cons (.access rfl) <|
    .cons (.finish rfl) <|
    .cons (.finish rfl) <|
    .cons (.pop rfl rfl) <|
    .cons (.drained rfl rfl) <|
    .cons (.access rfl) <|
    .cons (.finish rfl) <|
    .cons (.sleep rfl rfl) <|
    .cons (.wait rfl (by decide) rfl) <|
    .cons (.leave rfl (by decide)) <|
    .nil _,
    rfl⟩

/-- It ends every job once. -/
theorem threeJobs_returns :
    ∃ state,
      Run threeJobs (PoolState.initial threeJobs fun _ => none) overlapping
          state ∧
        overlapping.length ≤ 3 * (1 + 3) + 2 * 2 ∧
        state.finished.Perm (List.range 3) := by
  obtain ⟨state, run, returned⟩ := threeJobs_run
  have bounded : threeJobs.Bounded 1 := fun _ _ _ => trivial
  obtain ⟨short, -, finished⟩ := parallelFor_returns bounded run
  exact ⟨state, run, short, finished returned⟩

end Termination

section Places

variable {call : ParallelCall Address Content}

/-- A job that a thread runs has that place. -/
theorem PoolState.Ordered.one_le_tally
    {state : PoolState Address Content}
    (ordered : state.Ordered call)
    {party : Party}
    {job : ℕ}
    {script : JobScript Address Content}
    (runs : state.work party = some (.running job script)) :
    1 ≤
      state.tally call (MainPoint.holds call job) (WorkerPoint.holds job) := by
  have changed := ordered.holds_setWork job runs .popping
  simp only [Work.holds, if_pos] at changed
  omega

/-- A job that two threads run has two places. -/
theorem PoolState.Ordered.two_le_tally
    {state : PoolState Address Content}
    (ordered : state.Ordered call)
    {party other : Party}
    (differs : other ≠ party)
    {job : ℕ}
    {script otherScript : JobScript Address Content}
    (runs : state.work party = some (.running job script))
    (otherRuns : state.work other = some (.running job otherScript)) :
    2 ≤
      state.tally call (MainPoint.holds call job) (WorkerPoint.holds job) := by
  have changed := ordered.holds_setWork job runs .popping
  have stillRuns :
      (state.setWork party .popping).work other =
        some (.running job otherScript) := by
    rw [PoolState.work_setWork_of_ne state differs]
    exact otherRuns
  have one := (ordered.setWork runs .popping).one_le_tally stillRuns
  simp only [Work.holds, if_pos] at changed
  omega

/-- Every job is in one place at most. -/
structure PoolState.Accounted
    (call : ParallelCall Address Content)
    (state : PoolState Address Content) : Prop where
  ordered : state.Ordered call
  once : ∀ job, state.places call job ≤ 1

/-- No job is run by two threads. -/
theorem PoolState.Accounted.apart
    {state : PoolState Address Content}
    (accounted : state.Accounted call)
    {party other : Party}
    (differs : other ≠ party)
    {job otherJob : ℕ}
    {script otherScript : JobScript Address Content}
    (runs : state.work party = some (.running job script))
    (otherRuns : state.work other = some (.running otherJob otherScript)) :
    otherJob ≠ job := by
  rintro rfl
  have two := accounted.ordered.two_le_tally differs runs otherRuns
  have once := accounted.once otherJob
  unfold PoolState.places at once
  omega

/-- No job that a thread runs has ended. -/
theorem PoolState.Accounted.unfinished
    {state : PoolState Address Content}
    (accounted : state.Accounted call)
    {party : Party}
    {job : ℕ}
    {script : JobScript Address Content}
    (runs : state.work party = some (.running job script)) :
    job ∉ state.finished := by
  intro ended
  have one := accounted.ordered.one_le_tally runs
  have counted := List.count_pos_iff.mpr ended
  have once := accounted.once job
  unfold PoolState.places at once
  omega

/-- Threads that run jobs have different identifiers. -/
theorem PoolState.Ordered.threadId_ne
    {state : PoolState Address Content}
    (ordered : state.Ordered call)
    {party other : Party}
    (differs : other ≠ party)
    {work otherWork : Work Address Content}
    (works : state.work party = some work)
    (otherWorks : state.work other = some otherWork) :
    call.threadId other ≠ call.threadId party := by
  have worker :
      ∀ {index : ℕ} {work : Work Address Content},
        state.work (.worker index) = some work →
        index < call.curThreadId := by
    intro index work works
    refine ordered.takes_part ?_
    rw [PoolState.work_worker_eq_some.mp works]
    exact nofun
  cases party with
  | main =>
      cases other with
      | main =>
          exact absurd rfl differs
      | worker index =>
          exact (worker otherWorks).ne
  | worker index =>
      cases other with
      | main =>
          exact (worker works).ne'
      | worker another =>
          exact fun same => differs (congrArg Party.worker same)

end Places

end ThreadPool

end StarkCash.Rapidsnark
