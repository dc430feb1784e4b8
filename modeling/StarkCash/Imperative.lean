import Mathlib.Data.List.FinRange

namespace Imperative

/-!
# Rules for counted loops and failing state transformers

Imperative code is read as folds over `List.finRange` and as computations in
`EStateM`, where a failure leaves the state at the point of failure visible.
The rules here reduce a loop to an invariant and a sequence of statements to
its successful runs.  Errors that are returned, beside failures, are a second
layer of outcomes.
-/

section Loops

variable
    {State Failure : Type}
    {count : ℕ}

/-- An invariant of a counted loop holds after the last iteration. -/
theorem foldl_finRange_invariant
    (invariant : ℕ → State → Prop)
    {body : State → Fin count → State}
    {initial : State}
    (start : invariant 0 initial)
    (iteration :
      ∀ state (index : Fin count),
        invariant index state →
        invariant (index + 1) (body state index)) :
    invariant count ((List.finRange count).foldl body initial) := by
  induction count with
  | zero =>
      simpa using start
  | succ count inductionHypothesis =>
      have earlier :
          invariant count
            ((List.finRange count).foldl
              (fun state index => body state index.castSucc) initial) :=
        inductionHypothesis fun state index holds =>
          iteration state index.castSucc holds
      rw [List.finRange_succ_last, List.foldl_append, List.foldl_map]
      exact iteration _ (Fin.last count) earlier

/-- An invariant of a loop counted by naturals holds after the last one. -/
theorem foldl_range_invariant
    (invariant : ℕ → State → Prop)
    {body : State → ℕ → State}
    {initial : State}
    (start : invariant 0 initial)
    (iteration :
      ∀ state index,
        index < count →
        invariant index state →
        invariant (index + 1) (body state index)) :
    invariant count ((List.range count).foldl body initial) := by
  induction count with
  | zero =>
      simpa using start
  | succ count inductionHypothesis =>
      have earlier :
          invariant count ((List.range count).foldl body initial) :=
        inductionHypothesis fun state index below holds =>
          iteration state index (Nat.lt_succ_of_lt below) holds
      rw [List.range_succ, List.foldl_append]
      exact iteration _ count (Nat.lt_succ_self count) earlier

/-- An invariant of a loop that counts down holds after the last iteration. -/
theorem foldr_range_invariant
    (invariant : ℕ → State → Prop)
    {body : ℕ → State → State}
    {initial : State}
    (start : invariant count initial)
    (iteration :
      ∀ state index,
        index < count →
        invariant (index + 1) state →
        invariant index (body index state)) :
    invariant 0 ((List.range count).foldr body initial) := by
  induction count generalizing initial with
  | zero =>
      simpa using start
  | succ count inductionHypothesis =>
      rw [List.range_succ, List.foldr_append]
      exact
        inductionHypothesis
          (iteration initial count (Nat.lt_succ_self count) start)
          fun state index below holds =>
            iteration state index (Nat.lt_succ_of_lt below) holds

/-- A loop that may fail ends where it begins if no iteration leaves there. -/
theorem foldlM_fixed
    {Index : Type}
    {bodyM : State → Index → Except Failure State}
    {fixed : State}
    (indices : List Index)
    (keeps : ∀ index ∈ indices, bodyM fixed index = .ok fixed) :
    indices.foldlM bodyM fixed = .ok fixed := by
  induction indices with
  | nil =>
      rfl
  | cons index rest inductionHypothesis =>
      rw [List.forall_mem_cons] at keeps
      rw [List.foldlM_cons, keeps.1]
      exact inductionHypothesis keeps.2

/-- A loop whose iterations never fail is the loop of their results. -/
theorem foldlM_eq_ok
    {Index : Type}
    {bodyM : State → Index → Except Failure State}
    {body : State → Index → State}
    (succeeds : ∀ state index, bodyM state index = .ok (body state index))
    (indices : List Index)
    (initial : State) :
    indices.foldlM bodyM initial = .ok (indices.foldl body initial) := by
  induction indices generalizing initial with
  | nil =>
      rfl
  | cons index rest inductionHypothesis =>
      rw [List.foldlM_cons, succeeds, List.foldl_cons]
      exact inductionHypothesis (body initial index)

end Loops

section Statements

variable {State Failure Result Answer : Type}

/-- After a computed value a sequence is its rest. -/
theorem ok_bind
    {result : Result}
    {rest : Result → Except Failure Answer} :
    (Except.ok result >>= rest) = rest result := rfl

/-- After a failure nothing is computed. -/
theorem error_bind
    {failure : Failure}
    {rest : Result → Except Failure Answer} :
    (Except.error failure >>= rest) = Except.error failure := rfl

/-- Stop with a failure unless the condition holds. -/
def require
    (condition : Bool)
    (failure : Failure) :
    EStateM Failure State Unit :=
  fun state =>
    if condition then .ok () state else .error failure state

/-- Run a computation that does not touch the state. -/
def liftExcept :
    Except Failure Result → EStateM Failure State Result
  | .ok result => fun state => .ok result state
  | .error failure => fun state => .error failure state

/-- A successful sequence is a successful first part and a successful rest. -/
theorem bind_eq_ok
    {first : EStateM Failure State Result}
    {rest : Result → EStateM Failure State Answer}
    {before after : State}
    {answer : Answer} :
    (first >>= rest) before = .ok answer after ↔
      ∃ result middle,
        first before = .ok result middle ∧
          rest result middle = .ok answer after := by
  change EStateM.bind first rest before = _ ↔ _
  unfold EStateM.bind
  cases run : first before with
  | ok result middle =>
      simp
  | error failure middle =>
      simp

/-- A failure of the first part is a failure of the sequence. -/
theorem bind_of_error
    {first : EStateM Failure State Result}
    {rest : Result → EStateM Failure State Answer}
    {before after : State}
    {failure : Failure}
    (failed : first before = .error failure after) :
    (first >>= rest) before = .error failure after := by
  change EStateM.bind first rest before = _
  simp only [EStateM.bind, failed]

/-- After a successful first part the sequence is its rest. -/
theorem bind_of_ok
    {first : EStateM Failure State Result}
    {rest : Result → EStateM Failure State Answer}
    {before middle : State}
    {result : Result}
    (succeeded : first before = .ok result middle) :
    (first >>= rest) before = rest result middle := by
  change EStateM.bind first rest before = _
  simp only [EStateM.bind, succeeded]

@[simp] theorem pure_eq_ok
    {result answer : Result}
    {before after : State} :
    (pure result : EStateM Failure State Result) before = .ok answer after ↔
      result = answer ∧ before = after := by
  change EStateM.Result.ok result before = _ ↔ _
  simp

@[simp] theorem modify_eq_ok
    {update : State → State}
    {answer : Unit}
    {before after : State} :
    (modify update : EStateM Failure State Unit) before =
        .ok answer after ↔
      update before = after := by
  change EStateM.Result.ok () (update before) = _ ↔ _
  simp

@[simp] theorem require_eq_ok
    {condition : Bool}
    {failure : Failure}
    {answer : Unit}
    {before after : State} :
    (require condition failure : EStateM Failure State Unit) before =
        .ok answer after ↔
      condition = true ∧ before = after := by
  cases condition with
  | false =>
      simp [require]
  | true =>
      simp [require]

/-- A condition that holds stops nothing. -/
theorem require_of_true
    {condition : Bool}
    {failure : Failure}
    {state : State}
    (holds : condition = true) :
    require condition failure state = .ok () state :=
  require_eq_ok.mpr ⟨holds, rfl⟩

@[simp] theorem liftExcept_eq_ok
    {computation : Except Failure Result}
    {result : Result}
    {before after : State} :
    (liftExcept computation : EStateM Failure State Result) before =
        .ok result after ↔
      computation = .ok result ∧ before = after := by
  cases computation with
  | ok computed =>
      simp [liftExcept]
  | error failure =>
      simp [liftExcept]

/-- A failed sequence fails in its first part or in its rest. -/
theorem bind_eq_error
    {first : EStateM Failure State Result}
    {rest : Result → EStateM Failure State Answer}
    {before after : State}
    {failure : Failure} :
    (first >>= rest) before = .error failure after ↔
      first before = .error failure after ∨
        ∃ result middle,
          first before = .ok result middle ∧
            rest result middle = .error failure after := by
  change EStateM.bind first rest before = _ ↔ _
  unfold EStateM.bind
  cases run : first before with
  | ok result middle =>
      simp
  | error failure middle =>
      simp

/-- A failed requirement fails with its own message. -/
theorem require_eq_error
    {condition : Bool}
    {message failure : Failure}
    {before after : State} :
    (require condition message : EStateM Failure State Unit) before =
        .error failure after ↔
      condition = false ∧ message = failure ∧ before = after := by
  cases condition with
  | false =>
      simp [require]
  | true =>
      simp [require]

/-- A failed lifted computation fails with its own failure. -/
theorem liftExcept_eq_error
    {computation : Except Failure Result}
    {failure : Failure}
    {before after : State} :
    (liftExcept computation : EStateM Failure State Result) before =
        .error failure after ↔
      computation = .error failure ∧ before = after := by
  cases computation with
  | ok computed =>
      simp [liftExcept]
  | error computedFailure =>
      simp [liftExcept]

/-- Reading the state hands it to the rest. -/
theorem get_bind
    {rest : State → EStateM Failure State Answer}
    {before : State} :
    (get >>= rest) before = rest before before :=
  rfl

/-- Writing the state runs the rest from the new state. -/
theorem modify_bind
    {update : State → State}
    {rest : Unit → EStateM Failure State Answer}
    {before : State} :
    (modify update >>= rest) before = rest () (update before) :=
  rfl

/-- A sequence passes a requirement exactly if its condition holds. -/
theorem require_bind_eq_ok
    {condition : Bool}
    {message : Failure}
    {rest : Unit → EStateM Failure State Answer}
    {before after : State}
    {answer : Answer} :
    (require condition message >>= rest) before = .ok answer after ↔
      condition = true ∧ rest () before = .ok answer after := by
  rw [bind_eq_ok]
  constructor
  · rintro ⟨_, _, required, completed⟩
    obtain ⟨holds, rfl⟩ := require_eq_ok.mp required
    exact ⟨holds, completed⟩
  · rintro ⟨holds, completed⟩
    exact ⟨(), before, require_of_true holds, completed⟩

/-- A sequence fails at a requirement or after it. -/
theorem require_bind_eq_error
    {condition : Bool}
    {message failure : Failure}
    {rest : Unit → EStateM Failure State Answer}
    {before after : State} :
    (require condition message >>= rest) before = .error failure after ↔
      condition = false ∧ message = failure ∧ before = after ∨
        condition = true ∧ rest () before = .error failure after := by
  cases condition with
  | false =>
      rw [bind_eq_error, require_eq_error]
      simp
  | true =>
      rw [bind_of_ok (require_of_true rfl)]
      simp

/-- A sequence uses the result of a lifted computation. -/
theorem liftExcept_bind_eq_ok
    {computation : Except Failure Result}
    {rest : Result → EStateM Failure State Answer}
    {before after : State}
    {answer : Answer} :
    (liftExcept computation >>= rest) before = .ok answer after ↔
      ∃ result,
        computation = .ok result ∧
          rest result before = .ok answer after := by
  rw [bind_eq_ok]
  constructor
  · rintro ⟨result, _, computed, completed⟩
    obtain ⟨isResult, rfl⟩ := liftExcept_eq_ok.mp computed
    exact ⟨result, isResult, completed⟩
  · rintro ⟨result, isResult, completed⟩
    exact
      ⟨result, before, liftExcept_eq_ok.mpr ⟨isResult, rfl⟩, completed⟩

/-- A sequence fails in a lifted computation or after it. -/
theorem liftExcept_bind_eq_error
    {computation : Except Failure Result}
    {failure : Failure}
    {rest : Result → EStateM Failure State Answer}
    {before after : State} :
    (liftExcept computation >>= rest) before = .error failure after ↔
      computation = .error failure ∧ before = after ∨
        ∃ result,
          computation = .ok result ∧
            rest result before = .error failure after := by
  cases computation with
  | ok computed =>
      rw [bind_of_ok (liftExcept_eq_ok.mpr ⟨rfl, rfl⟩)]
      simp
  | error computedFailure =>
      rw [bind_eq_error, liftExcept_eq_error]
      simp [liftExcept_eq_ok]

/-- Writing the state does not fail. -/
theorem modify_ne_error
    {update : State → State}
    {failure : Failure}
    {before after : State} :
    (modify update : EStateM Failure State Unit) before ≠
      .error failure after := by
  intro failed
  cases failed

end Statements

section Returned

variable
    {Error Failure Result Answer : Type}
    {rest : Result → ExceptT Error (Except Failure) Answer}

/-- After a successful first part the sequence is its rest. -/
theorem returned_bind
    {first : ExceptT Error (Except Failure) Result}
    {result : Result}
    (succeeded : first = .ok (.ok result)) :
    (first >>= rest) = rest result := by
  subst succeeded
  rfl

/-- A returned error of the first part is returned by the sequence. -/
theorem refused_bind
    {first : ExceptT Error (Except Failure) Result}
    {error : Error}
    (refused : first = .ok (.error error)) :
    (first >>= rest) = .ok (.error error) := by
  subst refused
  rfl

/-- A failure of the first part is one of the sequence. -/
theorem failed_bind
    {first : ExceptT Error (Except Failure) Result}
    {failure : Failure}
    (failed : first = .error failure) :
    (first >>= rest) = .error failure := by
  subst failed
  rfl

/-- A lifted computation that does not fail is followed by its rest. -/
theorem lift_bind
    {first : Except Failure Result}
    {result : Result}
    (succeeded : first = .ok result) :
    ((liftM first : ExceptT Error (Except Failure) Result) >>= rest) =
      rest result := by
  subst succeeded
  rfl

end Returned

end Imperative
