import Mathlib.Data.Set.Lattice
import Mathlib.Order.CompletePartialOrder

namespace SharedStore

/-!
# Scripts over a shared store

A script accesses the addresses of a store one after another and ends with an
answer.  An access replaces what it finds at its address, so reading, writing
and removing are accesses, and each of them is one atomic step.  Scripts run
alone, or as callers that share a store and whose steps are interleaved by a
schedule.  A script whose addresses no other caller touches answers as if it
ran alone.
-/

variable {Address Content Answer Result : Type}

/-- What stands at each address, if anything. -/
abbrev Store (Address Content : Type) : Type :=
  Address → Option Content

/-- Atomic accesses one after another, and an answer. -/
inductive Script (Address Content : Type) (Answer : Type) : Type where
  | done (answer : Answer)
  | access
      (address : Address)
      (update : Option Content → Option Content)
      (next : Option Content → Script Address Content Answer)

namespace Script

/-- One script after another. -/
def bind :
    Script Address Content Answer →
    (Answer → Script Address Content Result) →
    Script Address Content Result
  | done answer, rest => rest answer
  | access address update next, rest =>
      access address update fun found => (next found).bind rest

instance : Monad (Script Address Content) where
  pure := done
  bind := bind

/-- What stands at an address. -/
def read (address : Address) : Script Address Content (Option Content) :=
  access address id done

/-- Replace what stands at an address. -/
def change
    (address : Address)
    (update : Option Content → Option Content) :
    Script Address Content Unit :=
  access address update fun _ => done ()

/-- Put a content at an address. -/
def write
    (address : Address)
    (content : Content) : Script Address Content Unit :=
  change address fun _ => some content

/-- Remove what stands at an address. -/
def remove (address : Address) : Script Address Content Unit :=
  change address fun _ => none

section Running

variable [DecidableEq Address]

/-- One step: an ended script stays as it is. -/
def step :
    Script Address Content Answer →
    Store Address Content →
    Script Address Content Answer × Store Address Content
  | done answer, store => (done answer, store)
  | access address update next, store =>
      (next (store address),
        Function.update store address (update (store address)))

/-- All steps, without anyone else. -/
def run :
    Script Address Content Answer →
    Store Address Content →
    Answer × Store Address Content
  | done answer, store => (answer, store)
  | access address update next, store =>
      (next (store address)).run
        (Function.update store address (update (store address)))

/-- A sequence runs its first part and then its rest. -/
theorem run_bind
    (first : Script Address Content Answer)
    (rest : Answer → Script Address Content Result)
    (store : Store Address Content) :
    (first >>= rest).run store =
      (rest (first.run store).1).run (first.run store).2 := by
  induction first generalizing store with
  | done answer =>
      rfl
  | access address update next inductionHypothesis =>
      exact inductionHypothesis (store address) _

/-- A step does not change what the script answers and leaves when run. -/
theorem run_step
    (script : Script Address Content Answer)
    (store : Store Address Content) :
    (script.step store).1.run (script.step store).2 = script.run store := by
  cases script with
  | done answer =>
      rfl
  | access address update next =>
      rfl

end Running

section Regions

/-- Every access is allowed. -/
def Accesses
    (allowed : Address → (Option Content → Option Content) → Prop) :
    Script Address Content Answer → Prop
  | done _ => True
  | access address update next =>
      allowed address update ∧ ∀ found, (next found).Accesses allowed

/-- Only addresses of a region are accessed. -/
def Within
    (region : Set Address)
    (script : Script Address Content Answer) : Prop :=
  script.Accesses fun address _ => address ∈ region

/-- An address is read at most. -/
def Keeps
    (kept : Address)
    (script : Script Address Content Answer) : Prop :=
  script.Accesses fun address update =>
    address = kept → ∀ found, update found = found

/-- A sequence makes the accesses of its parts. -/
theorem Accesses.bind
    {allowed : Address → (Option Content → Option Content) → Prop}
    {first : Script Address Content Answer}
    {rest : Answer → Script Address Content Result}
    (firstAccesses : first.Accesses allowed)
    (restAccesses : ∀ answer, (rest answer).Accesses allowed) :
    (first >>= rest).Accesses allowed := by
  induction first with
  | done answer =>
      exact restAccesses answer
  | access address update next inductionHypothesis =>
      refine ⟨firstAccesses.1, fun found => ?_⟩
      exact inductionHypothesis found (firstAccesses.2 found)

/-- A script within a region is within a larger one. -/
theorem Within.mono
    {small large : Set Address}
    {script : Script Address Content Answer}
    (within : script.Within small)
    (subset : small ⊆ large) :
    script.Within large := by
  induction script with
  | done answer =>
      exact trivial
  | access address update next inductionHypothesis =>
      exact
        ⟨subset within.1, fun found => inductionHypothesis found (within.2 found)⟩

variable [DecidableEq Address]

/-- What is kept is still there when the script has run. -/
theorem Keeps.run_eq
    {kept : Address}
    {script : Script Address Content Answer}
    (keeps : script.Keeps kept)
    (store : Store Address Content) :
    (script.run store).2 kept = store kept := by
  induction script generalizing store with
  | done answer =>
      rfl
  | access address update next inductionHypothesis =>
      rw [run, inductionHypothesis _ (keeps.2 _)]
      by_cases same : address = kept
      · rw [← same, Function.update_self, keeps.1 same]
      · exact Function.update_of_ne (Ne.symm same) _ _

/-- A step stays within the region. -/
theorem Within.step
    {region : Set Address}
    {script : Script Address Content Answer}
    (within : script.Within region)
    (store : Store Address Content) :
    (script.step store).1.Within region := by
  cases script with
  | done answer =>
      exact within
  | access address update next =>
      exact within.2 _

/-- A step changes nothing outside of the region. -/
theorem Within.step_frame
    {region : Set Address}
    {script : Script Address Content Answer}
    (within : script.Within region)
    (store : Store Address Content)
    {address : Address}
    (outside : address ∉ region) :
    (script.step store).2 address = store address := by
  cases script with
  | done answer =>
      rfl
  | access own update next =>
      refine Function.update_of_ne ?_ _ _
      rintro rfl
      exact outside within.1

/-- The answer depends on what stands in the region only. -/
theorem Within.run_congr
    {region : Set Address}
    {script : Script Address Content Answer}
    (within : script.Within region)
    {store other : Store Address Content}
    (agree : ∀ address ∈ region, store address = other address) :
    (script.run store).1 = (script.run other).1 := by
  induction script generalizing store other with
  | done answer =>
      rfl
  | access address update next inductionHypothesis =>
      rw [run, run, agree address within.1]
      refine inductionHypothesis _ (within.2 _) ?_
      intro inside member
      by_cases same : inside = address
      · rw [same, Function.update_self, Function.update_self]
      · rw [Function.update_of_ne same, Function.update_of_ne same,
          agree inside member]

/-- Nothing outside of the region changes. -/
theorem Within.run_frame
    {region : Set Address}
    {script : Script Address Content Answer}
    (within : script.Within region)
    (store : Store Address Content)
    {address : Address}
    (outside : address ∉ region) :
    (script.run store).2 address = store address := by
  induction script generalizing store with
  | done answer =>
      rfl
  | access own update next inductionHypothesis =>
      rw [run, inductionHypothesis _ (within.2 _)]
      refine Function.update_of_ne ?_ _ _
      rintro rfl
      exact outside within.1

/-- What is left in the region depends on what stood there only. -/
theorem Within.run_store_congr
    {region : Set Address}
    {script : Script Address Content Answer}
    (within : script.Within region)
    {store other : Store Address Content}
    (agree : ∀ address ∈ region, store address = other address)
    {address : Address}
    (member : address ∈ region) :
    (script.run store).2 address = (script.run other).2 address := by
  induction script generalizing store other with
  | done answer =>
      exact agree address member
  | access own update next inductionHypothesis =>
      rw [run, run, agree own within.1]
      refine inductionHypothesis _ (within.2 _) ?_
      intro inside insideRegion
      by_cases same : inside = own
      · rw [same, Function.update_self, Function.update_self]
      · rw [Function.update_of_ne same, Function.update_of_ne same,
          agree inside insideRegion]

end Regions

section Length

/-- No run makes more accesses than the bound. -/
def AtMost : ℕ → Script Address Content Answer → Prop
  | _, done _ => True
  | 0, access _ _ _ => False
  | bound + 1, access _ _ next => ∀ found, (next found).AtMost bound

/-- A script that makes few accesses makes no more than a higher bound. -/
theorem AtMost.mono
    {bound higher : ℕ}
    {script : Script Address Content Answer}
    (bounded : script.AtMost bound)
    (le : bound ≤ higher) :
    script.AtMost higher := by
  induction script generalizing bound higher with
  | done answer =>
      cases higher <;> exact trivial
  | access address update next inductionHypothesis =>
      cases bound with
      | zero =>
          exact absurd bounded id
      | succ bound =>
          obtain ⟨higher, rfl⟩ :=
            Nat.exists_eq_succ_of_ne_zero (by omega : higher ≠ 0)
          intro found
          exact inductionHypothesis found (bounded found) (by omega)

/-- One script after another makes no more accesses than both. -/
theorem AtMost.bind
    {bound more : ℕ}
    {first : Script Address Content Answer}
    {rest : Answer → Script Address Content Result}
    (bounded : first.AtMost bound)
    (restBounded : ∀ answer, (rest answer).AtMost more) :
    (first.bind rest).AtMost (bound + more) := by
  induction first generalizing bound with
  | done answer =>
      exact (restBounded answer).mono (Nat.le_add_left more bound)
  | access address update next inductionHypothesis =>
      cases bound with
      | zero =>
          exact absurd bounded id
      | succ bound =>
          rw [Nat.add_right_comm]
          intro found
          exact inductionHypothesis found (bounded found)

end Length

section Memory

variable [DecidableEq Address]

/-- A store in which something stands at every address. -/
def held (memory : Address → Content) : Store Address Content :=
  fun address => some (memory address)

/-- Replacing a content keeps the store filled. -/
theorem update_held
    (memory : Address → Content)
    (address : Address)
    (content : Content) :
    Function.update (held memory) address (some content) =
      held (Function.update memory address content) := by
  funext other
  unfold held
  by_cases same : other = address
  · subst same
    rw [Function.update_self, Function.update_self]
  · rw [Function.update_of_ne same, Function.update_of_ne same]

/-- What is read goes on to the rest. -/
theorem run_read_bind
    (address : Address)
    (rest : Option Content → Script Address Content Answer)
    (store : Store Address Content) :
    (read address >>= rest).run store = (rest (store address)).run store := by
  change (rest (store address)).run (Function.update store address _) = _
  rw [id, Function.update_eq_self]

/-- A written content is there for the rest. -/
theorem run_write_bind
    (address : Address)
    (content : Content)
    (rest : Unit → Script Address Content Answer)
    (memory : Address → Content) :
    (write address content >>= rest).run (held memory) =
      (rest ()).run (held (Function.update memory address content)) := by
  rw [← update_held]
  rfl

end Memory

section Iteration

variable
    {State Index : Type}
    {bodyM : State → Index → Script Address Content State}

/-- A loop makes the accesses of its iterations. -/
theorem Accesses.foldlM
    {allowed : Address → (Option Content → Option Content) → Prop}
    {indices : List Index}
    (accesses :
      ∀ state, ∀ index ∈ indices, (bodyM state index).Accesses allowed)
    (state : State) :
    Accesses allowed (indices.foldlM bodyM state) := by
  induction indices generalizing state with
  | nil =>
      exact trivial
  | cons index rest inductionHypothesis =>
      refine (accesses state index List.mem_cons_self).bind fun next => ?_
      exact
        inductionHypothesis
          (fun later other member =>
            accesses later other (List.mem_cons_of_mem index member))
          next

/-- A loop makes no more accesses than all of its iterations. -/
theorem AtMost.foldlM
    {bound : ℕ}
    (bounded : ∀ state index, (bodyM state index).AtMost bound)
    (indices : List Index)
    (state : State) :
    AtMost (indices.length * bound) (indices.foldlM bodyM state) := by
  induction indices generalizing state with
  | nil =>
      exact (show (done state).AtMost 0 from trivial).mono (Nat.zero_le _)
  | cons index rest inductionHypothesis =>
      rw [List.length_cons, Nat.succ_mul, Nat.add_comm]
      exact (bounded state index).bind inductionHypothesis

variable [DecidableEq Address]

/-- A loop runs its first iteration and then the others. -/
theorem run_foldlM_cons
    (index : Index)
    (rest : List Index)
    (state : State)
    (store : Store Address Content) :
    ((index :: rest).foldlM bodyM state).run store =
      (rest.foldlM bodyM ((bodyM state index).run store).1).run
        ((bodyM state index).run store).2 :=
  run_bind (bodyM state index) (rest.foldlM bodyM) store

/-- Iterations that fill the memory anew compute what their loop computes. -/
theorem run_foldlM_held
    {iterate :
      State × (Address → Content) → Index → State × (Address → Content)}
    (computes :
      ∀ state memory index,
        (bodyM state index).run (held memory) =
          ((iterate (state, memory) index).1,
            held (iterate (state, memory) index).2))
    (indices : List Index)
    (state : State)
    (memory : Address → Content) :
    (indices.foldlM bodyM state).run (held memory) =
      ((indices.foldl iterate (state, memory)).1,
        held (indices.foldl iterate (state, memory)).2) := by
  induction indices generalizing state memory with
  | nil =>
      rfl
  | cons index rest inductionHypothesis =>
      rw [run_foldlM_cons, computes, List.foldl_cons]
      exact inductionHypothesis _ _

end Iteration

end Script

section Attempts

variable
    {Error : Type}
    {first : ExceptT Error (Script Address Content) Answer}
    {rest : Answer → ExceptT Error (Script Address Content) Result}

/-- So does a sequence whose first part may return an error. -/
theorem Script.Accesses.attempt_bind
    {allowed : Address → (Option Content → Option Content) → Prop}
    (firstAccesses : Script.Accesses allowed (ExceptT.run first))
    (restAccesses :
      ∀ answer, Script.Accesses allowed (ExceptT.run (rest answer))) :
    Script.Accesses allowed (ExceptT.run (first >>= rest)) := by
  refine firstAccesses.bind ?_
  intro outcome
  cases outcome with
  | ok answer =>
      exact restAccesses answer
  | error error =>
      exact trivial

variable [DecidableEq Address]

/-- The outcome and the store of a script that may return an error. -/
def attempt
    (script : ExceptT Error (Script Address Content) Answer)
    (store : Store Address Content) :
    Except Error Answer × Store Address Content :=
  (ExceptT.run script).run store

/-- A sequence attempts its rest where its first part succeeds. -/
theorem attempt_bind_of_ok
    {before after : Store Address Content}
    {answer : Answer}
    (succeeded : attempt first before = (.ok answer, after)) :
    attempt (first >>= rest) before = attempt (rest answer) after := by
  have sequence :=
    Script.run_bind (ExceptT.run first) (ExceptT.bindCont rest) before
  have firstRun : (ExceptT.run first).run before = (.ok answer, after) :=
    succeeded
  rw [firstRun] at sequence
  exact sequence

/-- A sequence returns the error of its first part. -/
theorem attempt_bind_of_error
    {before after : Store Address Content}
    {error : Error}
    (refused : attempt first before = (.error error, after)) :
    attempt (first >>= rest) before = (.error error, after) := by
  have sequence :=
    Script.run_bind (ExceptT.run first) (ExceptT.bindCont rest) before
  have firstRun : (ExceptT.run first).run before = (.error error, after) :=
    refused
  rw [firstRun] at sequence
  exact sequence

/-- A sequence succeeds exactly if its parts do, one after another. -/
theorem attempt_bind_eq_ok
    {before after : Store Address Content}
    {result : Result} :
    attempt (first >>= rest) before = (.ok result, after) ↔
      ∃ answer middle,
        attempt first before = (.ok answer, middle) ∧
          attempt (rest answer) middle = (.ok result, after) := by
  constructor
  · intro succeeded
    cases outcome : attempt first before with
    | mk answer middle =>
        cases answer with
        | ok answer =>
            rw [attempt_bind_of_ok outcome] at succeeded
            exact ⟨answer, middle, rfl, succeeded⟩
        | error error =>
            rw [attempt_bind_of_error outcome] at succeeded
            cases succeeded
  · rintro ⟨answer, middle, firstDone, restDone⟩
    rw [attempt_bind_of_ok firstDone, restDone]

end Attempts

section Sharing

variable
    {Caller : Type}
    [DecidableEq Caller]
    [DecidableEq Address]

/-- The scripts that callers have left to run, and the store they share. -/
structure System (Caller Address Content Answer : Type) where
  scripts : Caller → Script Address Content Answer
  store : Store Address Content

/-- One step of a caller. -/
def System.step
    (system : System Caller Address Content Answer)
    (caller : Caller) : System Caller Address Content Answer where
  scripts :=
    Function.update system.scripts caller
      ((system.scripts caller).step system.store).1
  store := ((system.scripts caller).step system.store).2

/-- The steps of the callers in the order of a schedule. -/
def System.exec
    (system : System Caller Address Content Answer)
    (schedule : List Caller) : System Caller Address Content Answer :=
  schedule.foldl System.step system

/-- The caller that steps has a step less left to run. -/
@[simp] theorem System.step_scripts_self
    (system : System Caller Address Content Answer)
    (caller : Caller) :
    (system.step caller).scripts caller =
      ((system.scripts caller).step system.store).1 :=
  Function.update_self ..

/-- The other callers have as much left to run as before. -/
theorem System.step_scripts_of_ne
    (system : System Caller Address Content Answer)
    {caller other : Caller}
    (differs : other ≠ caller) :
    (system.step caller).scripts other = system.scripts other :=
  Function.update_of_ne differs ..

/-- The store changes by the step of the caller. -/
@[simp] theorem System.step_store
    (system : System Caller Address Content Answer)
    (caller : Caller) :
    (system.step caller).store =
      ((system.scripts caller).step system.store).2 := rfl

/-- Every caller stays within a region of its own. -/
structure System.Separated
    (system : System Caller Address Content Answer)
    (regions : Caller → Set Address) : Prop where
  within :
    ∀ caller, (system.scripts caller).Within (regions caller)
  disjoint :
    ∀ caller other,
      caller ≠ other →
      Disjoint (regions caller) (regions other)

/-- A step keeps the callers separated. -/
theorem System.Separated.step
    {system : System Caller Address Content Answer}
    {regions : Caller → Set Address}
    (separated : system.Separated regions)
    (caller : Caller) :
    (system.step caller).Separated regions := by
  refine ⟨fun other => ?_, separated.disjoint⟩
  by_cases same : other = caller
  · subst same
    rw [System.step_scripts_self]
    exact (separated.within other).step _
  · rw [System.step_scripts_of_ne system same]
    exact separated.within other

/-- A step does not change what any caller would answer alone. -/
theorem System.Separated.run_step
    {system : System Caller Address Content Answer}
    {regions : Caller → Set Address}
    (separated : system.Separated regions)
    (caller stepping : Caller) :
    (((system.step stepping).scripts caller).run
        (system.step stepping).store).1 =
      ((system.scripts caller).run system.store).1 := by
  by_cases same : caller = stepping
  · subst same
    rw [System.step_scripts_self, System.step_store, Script.run_step]
  · rw [System.step_scripts_of_ne system same]
    refine (separated.within caller).run_congr ?_
    intro address member
    refine (separated.within stepping).step_frame _ ?_
    exact
      Set.disjoint_left.mp (separated.disjoint caller stepping same) member

/-- Separated callers answer under every schedule as they would alone. -/
theorem System.Separated.run_exec
    {system : System Caller Address Content Answer}
    {regions : Caller → Set Address}
    (separated : system.Separated regions)
    (schedule : List Caller)
    (caller : Caller) :
    (((system.exec schedule).scripts caller).run
        (system.exec schedule).store).1 =
      ((system.scripts caller).run system.store).1 := by
  induction schedule generalizing system with
  | nil =>
      rfl
  | cons stepping schedule inductionHypothesis =>
      rw [← separated.run_step caller stepping]
      exact inductionHypothesis (separated.step stepping)

/-- So does a separated caller that has ended. -/
theorem System.Separated.answer_eq
    {system : System Caller Address Content Answer}
    {regions : Caller → Set Address}
    (separated : system.Separated regions)
    {schedule : List Caller}
    {caller : Caller}
    {answer : Answer}
    (ended : (system.exec schedule).scripts caller = .done answer) :
    ((system.scripts caller).run system.store).1 = answer := by
  rw [← separated.run_exec schedule caller, ended]
  rfl

/-- A caller that is scheduled often enough runs to its end. -/
theorem System.exec_alone
    (system : System Caller Address Content Answer)
    (caller : Caller) :
    ∃ count,
      (system.exec (List.replicate count caller)).scripts caller =
          .done ((system.scripts caller).run system.store).1 ∧
        (system.exec (List.replicate count caller)).store =
          ((system.scripts caller).run system.store).2 := by
  generalize left : system.scripts caller = script
  induction script generalizing system with
  | done answer =>
      exact ⟨0, left, rfl⟩
  | access address update next inductionHypothesis =>
      have stepped :
          (system.step caller).scripts caller = next (system.store address) := by
        rw [System.step_scripts_self, left]
        rfl
      have changed :
          (system.step caller).store =
            Function.update system.store address
              (update (system.store address)) := by
        rw [System.step_store, left]
        rfl
      obtain ⟨count, ended, store⟩ :=
        inductionHypothesis _ (system.step caller) stepped
      refine ⟨count + 1, ?_, ?_⟩
      · rw [changed] at ended
        exact ended
      · rw [changed] at store
        exact store

end Sharing

end SharedStore
