import Mathlib.Init

namespace ReentrantCode

/-!
# Re-entrant external code

A component with entry points calls foreign code, and that code may enter the
component again before it returns.  `Code` describes what foreign code does
during one call; `Code.run` executes it, every nested call inside its own
rollback scope.  A relation between states that is reflexive and transitive,
that foreign writes respect and that every entry point respects as long as its
own external calls do, is respected by all foreign code (`Code.run_respects`)
and by every sequence of transactions (`transactions_respect`).
-/

variable {State Failure Foreign Entry Request Answer Result : Type}

/-- Run a computation; a failure restores the state it started from. -/
def atomically
    (body : EStateM Failure State Result) :
    EStateM Failure State Result :=
  fun before =>
    match body before with
    | .ok result after => .ok result after
    | .error failure _ => .error failure before

/-- Run a computation in a rollback scope and go on, told if it succeeded. -/
def caught
    (body : EStateM Failure State Result)
    (next : Bool → EStateM Failure State Answer) :
    EStateM Failure State Answer :=
  fun before =>
    match atomically body before with
    | .ok _ after => next true after
    | .error _ after => next false after

/--
What foreign code does during one call.

It answers, fails, looks at the state, changes the foreign part of the state,
tries a piece of code in a rollback scope of its own, or enters the component;
a nested entry brings the code that answers the component's external calls.
-/
inductive Code
    (State Foreign Entry Request Answer : Type) where
  | answers
      (answer : Answer) :
      Code State Foreign Entry Request Answer
  | fails :
      Code State Foreign Entry Request Answer
  | looks
      (next : State → Code State Foreign Entry Request Answer) :
      Code State Foreign Entry Request Answer
  | writes
      (foreign : Foreign)
      (next : Code State Foreign Entry Request Answer) :
      Code State Foreign Entry Request Answer
  | tries
      (body : Code State Foreign Entry Request Answer)
      (next : Bool → Code State Foreign Entry Request Answer) :
      Code State Foreign Entry Request Answer
  | enters
      (entry : Entry)
      (callee : Request → Code State Foreign Entry Request Answer)
      (next : Bool → Code State Foreign Entry Request Answer) :
      Code State Foreign Entry Request Answer

/-- Execute foreign code against the entry points of a component. -/
def Code.run
    (write : Foreign → State → State)
    (failure : Failure)
    (component :
      (Request → EStateM Failure State Answer) →
        Entry →
        EStateM Failure State Unit) :
    Code State Foreign Entry Request Answer →
      EStateM Failure State Answer
  | .answers answer =>
      fun state => .ok answer state
  | .fails =>
      fun state => .error failure state
  | .looks next =>
      fun state => (next state).run write failure component state
  | .writes foreign next =>
      fun state =>
        next.run write failure component (write foreign state)
  | .tries body next =>
      caught
        (body.run write failure component)
        (fun succeeded => (next succeeded).run write failure component)
  | .enters entry callee next =>
      caught
        (component
          (fun request =>
            atomically ((callee request).run write failure component))
          entry)
        (fun succeeded => (next succeeded).run write failure component)

/-- Run one transaction; a failed transaction changes nothing. -/
def transact
    (body : EStateM Failure State Result)
    (before : State) : State :=
  match body before with
  | .ok _ after => after
  | .error _ _ => before

/-- A computation whose successful runs relate the first to the last state. -/
def Respects
    (relation : State → State → Prop)
    (body : EStateM Failure State Result) : Prop :=
  ∀ before result after,
    body before = .ok result after →
    relation before after

section Rules

variable {relation : State → State → Prop}

/-- A rollback scope respects what its body respects. -/
theorem Respects.atomically
    {body : EStateM Failure State Result}
    (respects : Respects relation body) :
    Respects relation (ReentrantCode.atomically body) := by
  intro before result after completed
  unfold ReentrantCode.atomically at completed
  cases bodyRun : body before with
  | ok bodyResult bodyAfter =>
      rw [bodyRun] at completed
      cases completed
      exact respects before result after bodyRun
  | error failure bodyAfter =>
      rw [bodyRun] at completed
      cases completed

/-- Where a failure is caught, the state is the one before the scope. -/
theorem atomically_error
    {body : EStateM Failure State Result}
    {before after : State}
    {failure : Failure}
    (failed : atomically body before = .error failure after) :
    after = before := by
  unfold atomically at failed
  cases bodyRun : body before with
  | ok bodyResult bodyAfter =>
      rw [bodyRun] at failed
      cases failed
  | error bodyFailure bodyAfter =>
      rw [bodyRun] at failed
      cases failed
      rfl

variable
    {write : Foreign → State → State}
    {failure : Failure}
    {component :
      (Request → EStateM Failure State Answer) →
        Entry →
        EStateM Failure State Unit}

/-- Going on after a caught scope respects what scope and rest respect. -/
theorem Respects.caught
    {body : EStateM Failure State Result}
    {next : Bool → EStateM Failure State Answer}
    (transitive :
      ∀ first middle last,
        relation first middle →
        relation middle last →
        relation first last)
    (scope : Respects relation body)
    (rest : ∀ succeeded, Respects relation (next succeeded)) :
    Respects relation (ReentrantCode.caught body next) := by
  intro before result last completed
  unfold ReentrantCode.caught at completed
  cases scopeRun : ReentrantCode.atomically body before with
  | ok scopeResult middle =>
      rw [scopeRun] at completed
      exact transitive before middle last
        (scope.atomically before scopeResult middle scopeRun)
        (rest true middle result last completed)
  | error scopeFailure middle =>
      rw [scopeRun] at completed
      obtain rfl := atomically_error scopeRun
      exact rest false middle result last completed

/-- Foreign code respects what foreign writes and entry points respect. -/
theorem Code.run_respects
    (reflexive : ∀ state, relation state state)
    (transitive :
      ∀ first middle last,
        relation first middle →
        relation middle last →
        relation first last)
    (foreignWrites : ∀ foreign state, relation state (write foreign state))
    (entryPoints :
      ∀ external entry,
        (∀ request, Respects relation (external request)) →
        Respects relation (component external entry))
    (code : Code State Foreign Entry Request Answer) :
    Respects relation (code.run write failure component) := by
  induction code with
  | answers answer =>
      intro before result after completed
      cases completed
      exact reflexive before
  | fails =>
      intro before result after completed
      cases completed
  | looks next inductionHypothesis =>
      intro before result after completed
      exact inductionHypothesis before before result after completed
  | writes foreign next inductionHypothesis =>
      intro before result after completed
      exact transitive before (write foreign before) after
        (foreignWrites foreign before)
        (inductionHypothesis (write foreign before) result after completed)
  | tries body next bodyHypothesis nextHypothesis =>
      exact Respects.caught transitive bodyHypothesis nextHypothesis
  | enters entry callee next calleeHypothesis nextHypothesis =>
      exact Respects.caught transitive
        (entryPoints _ entry fun request =>
          (calleeHypothesis request).atomically)
        nextHypothesis

/-- A transaction respects what its body respects. -/
theorem transact_respects
    (reflexive : ∀ state, relation state state)
    {body : EStateM Failure State Result}
    (respects : Respects relation body)
    (before : State) :
    relation before (transact body before) := by
  unfold transact
  cases run : body before with
  | ok result after =>
      exact respects before result after run
  | error failure after =>
      exact reflexive before

/-- A sequence of transactions respects what each of them respects. -/
theorem transactions_respect
    (reflexive : ∀ state, relation state state)
    (transitive :
      ∀ first middle last,
        relation first middle →
        relation middle last →
        relation first last)
    {bodies : List (EStateM Failure State Result)}
    (respects : ∀ body, body ∈ bodies → Respects relation body)
    (before : State) :
    relation before
      (bodies.foldl (fun state body => transact body state) before) := by
  induction bodies generalizing before with
  | nil =>
      exact reflexive before
  | cons body rest inductionHypothesis =>
      exact transitive before (transact body before) _
        (transact_respects reflexive
          (respects body (by simp)) before)
        (inductionHypothesis
          (fun later member => respects later (by simp [member]))
          (transact body before))

end Rules

end ReentrantCode
