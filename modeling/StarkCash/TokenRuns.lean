import StarkCash.ReentrantRuns
import StarkCash.Transfers

namespace StarkCash.Cairo

/-!
# Runs of the pool with a token

The token is a contract of its own: a state, balances, and code that answers
`transfer` and `transfer_from` without calling the pool.  Its state may hold
anything, so that its answers need not depend on the balances alone.  A run is
a sequence of pool calls, each undone if it panics, and of activity elsewhere
that may send tokens to the pool; the pool itself is never the caller, since
it calls nothing but its token.
-/

/-- A token contract: its balances and its two entry points. -/
structure TokenCode (Token : Type) where
  balanceOf : Token → ContractAddress → ℕ
  execute :
    ContractAddress → IERC20Call → EStateM Panic Token Bool

/-- The account a call takes from; `transfer` takes from its caller. -/
def IERC20Call.payer (caller : ContractAddress) :
    IERC20Call → ContractAddress
  | .transfer _ _ => caller
  | .transferFrom sender _ _ => sender

/-- The account a call pays. -/
def IERC20Call.payee : IERC20Call → ContractAddress
  | .transfer recipient _ => recipient
  | .transferFrom _ recipient _ => recipient

/-- The amount of a call. -/
def IERC20Call.amount : IERC20Call → ℕ
  | .transfer _ amount => amount.toNat
  | .transferFrom _ _ amount => amount.toNat

namespace TokenCode

variable {Proof Token : Type}

/-- A call moved exactly its amount. -/
def Moved
    (code : TokenCode Token)
    (caller : ContractAddress)
    (request : IERC20Call)
    (before after : Token) : Prop :=
  Transfers.Moves (request.payer caller) request.payee request.amount
    (code.balanceOf before) (code.balanceOf after)

/-- Every call moves exactly its amount or reverts. -/
def Exact (code : TokenCode Token) : Prop :=
  ∀ caller request before answer after,
    code.execute caller request before = .ok answer after →
    code.Moved caller request before after

/--
The interface as declared: a call that answers true moved exactly its amount,
a call that answers false changed no balance, and any call may revert.
-/
structure Declared (code : TokenCode Token) : Prop where
  paid :
    ∀ caller request before after,
      code.execute caller request before = .ok true after →
      code.Moved caller request before after
  unpaid :
    ∀ caller request before after,
      code.execute caller request before = .ok false after →
      code.balanceOf after = code.balanceOf before

/--
A call reverts only when its payer is short: of balance, or of the allowance
that `transfer_from` draws on.
-/
structure RevertsOnlyShort
    (code : TokenCode Token)
    (allowance : Token → ContractAddress → ContractAddress → ℕ) :
    Prop where
  transfer :
    ∀ caller recipient amount before,
      amount.toNat ≤ code.balanceOf before caller →
      ∃ answer after,
        code.execute caller (.transfer recipient amount) before =
          .ok answer after
  transferFrom :
    ∀ caller sender recipient amount before,
      amount.toNat ≤ code.balanceOf before sender →
      amount.toNat ≤ allowance before sender caller →
      ∃ answer after,
        code.execute caller (.transferFrom sender recipient amount)
            before =
          .ok answer after

/-- The pool's calls of the token, whatever its address. -/
def external
    (code : TokenCode Token)
    (self : ContractAddress) : External Proof Token :=
  fun _ request world =>
    match code.execute self request world.token with
    | .ok answer token => .ok answer (world.setToken token)
    | .error panic token => .error panic (world.setToken token)

/-- A returned call of the token replaces the token's state. -/
theorem external_eq_ok
    {code : TokenCode Token}
    {self address : ContractAddress}
    {request : IERC20Call}
    {answer : Bool}
    {before after : World Proof Token} :
    code.external self address request before = .ok answer after ↔
      ∃ token,
        code.execute self request before.token = .ok answer token ∧
          after = before.setToken token := by
  unfold external
  cases executed : code.execute self request before.token with
  | ok tokenAnswer token =>
      simp only [EStateM.Result.ok.injEq]
      constructor
      · rintro ⟨rfl, rfl⟩
        exact ⟨token, ⟨rfl, rfl⟩, rfl⟩
      · rintro ⟨_, ⟨rfl, rfl⟩, rfl⟩
        exact ⟨rfl, rfl⟩
  | error panic token =>
      simp

/-- A panic of the token is a panic of the call. -/
theorem external_eq_error
    {code : TokenCode Token}
    {self address : ContractAddress}
    {request : IERC20Call}
    {panic : Panic}
    {before after : World Proof Token}
    (failed :
      code.external self address request before = .error panic after) :
    ∃ token,
      code.execute self request before.token = .error panic token := by
  unfold external at failed
  cases executed : code.execute self request before.token with
  | ok tokenAnswer token =>
      rw [executed] at failed
      cases failed
  | error tokenPanic token =>
      rw [executed] at failed
      cases failed
      exact ⟨token, rfl⟩

/-- The token's code makes no progress in the pool. -/
theorem external_progress
    (code : TokenCode Token)
    (hash : U256 → U256 → U256)
    (self address : ContractAddress)
    (request : IERC20Call) :
    ReentrantCode.Respects
      (Progress hash : World Proof Token → World Proof Token → Prop)
      (code.external self address request) := by
  intro before answer after completed
  obtain ⟨token, _, rfl⟩ := external_eq_ok.mp completed
  exact ⟨[], Extends.setToken token before⟩

end TokenCode

section Calls

variable
    {Proof Token : Type}
    {deployment : Deployment Proof}
    {code : TokenCode Token}
    {before after : World Proof Token}

/-- The token's calls of a withdrawal, and the token's states they led to. -/
def TokenCode.Pays
    (code : TokenCode Token)
    (self : ContractAddress)
    (denomination : U256)
    (call : WithdrawCall Proof)
    (before first second : Token) : Prop :=
  (∃ answer,
      code.execute self
          (.transfer call.recipient (denomination - call.fee)) before =
        .ok answer first) ∧
    if 0 < call.fee then
      ∃ answer,
        code.execute self (.transfer call.relayer call.fee) first =
          .ok answer second
    else
      first = second

/-- A completed deposit, with the token's code as the external call. -/
theorem Deployment.call_deposit_eq_ok
    {call : DepositCall} :
    deployment.call (code.external deployment.self) (.deposit call)
        before = .ok () after ↔
      ∃ answer token,
        code.execute deployment.self
            (.transferFrom call.caller deployment.self
              before.pool.denomination) before.token =
          .ok answer token ∧
        before.pool.merkleTree.nextIndex < 2 ^ levels ∧
        after =
          (before.setToken token).completeDeposit deployment.hash
            call := by
  unfold Deployment.call
  rw [enter_deposit_eq_ok]
  constructor
  · rintro ⟨answer, paid, answered, room, rfl⟩
    obtain ⟨token, executed, rfl⟩ :=
      TokenCode.external_eq_ok.mp answered
    exact ⟨answer, token, executed, room, rfl⟩
  · rintro ⟨answer, token, executed, room, rfl⟩
    exact
      ⟨answer, before.setToken token,
        TokenCode.external_eq_ok.mpr ⟨token, executed, rfl⟩, room, rfl⟩

/-- A completed withdrawal, with the token's code as the external calls. -/
theorem Deployment.call_withdraw_eq_ok
    {call : WithdrawCall Proof} :
    deployment.call (code.external deployment.self) (.withdraw call)
        before = .ok () after ↔
      Withdrawable deployment.verdict call before ∧
        ∃ first second,
          code.Pays deployment.self before.pool.denomination call
              before.token first second ∧
            after =
              ((before.markSpent call.nullifierHash).setToken
                second).completeWithdrawal call := by
  unfold Deployment.call
  rw [enter_withdraw_eq_ok]
  constructor
  · rintro ⟨withdrawable, paid, ⟨answer, world, paidFirst, paidFee⟩, rfl⟩
    obtain ⟨first, executed, rfl⟩ :=
      TokenCode.external_eq_ok.mp paidFirst
    refine ⟨withdrawable, first, ?_⟩
    unfold TokenCode.Pays
    by_cases hasFee : 0 < call.fee
    · rw [if_pos hasFee] at paidFee
      obtain ⟨feeAnswer, paidFee⟩ := paidFee
      obtain ⟨second, feeExecuted, rfl⟩ :=
        TokenCode.external_eq_ok.mp paidFee
      refine ⟨second, ⟨⟨answer, executed⟩, ?_⟩, rfl⟩
      rw [if_pos hasFee]
      exact ⟨feeAnswer, feeExecuted⟩
    · rw [if_neg hasFee] at paidFee
      subst paidFee
      refine ⟨first, ⟨⟨answer, executed⟩, ?_⟩, rfl⟩
      rw [if_neg hasFee]
  · rintro ⟨withdrawable, first, second,
      ⟨⟨answer, executed⟩, paidFee⟩, rfl⟩
    let marked := before.markSpent call.nullifierHash
    refine
      ⟨withdrawable, marked.setToken second,
        ⟨answer, marked.setToken first,
          TokenCode.external_eq_ok.mpr ⟨first, executed, rfl⟩, ?_⟩, rfl⟩
    by_cases hasFee : 0 < call.fee
    · rw [if_pos hasFee] at paidFee ⊢
      obtain ⟨feeAnswer, feeExecuted⟩ := paidFee
      exact
        ⟨feeAnswer,
          TokenCode.external_eq_ok.mpr ⟨second, feeExecuted, rfl⟩⟩
    · rw [if_neg hasFee] at paidFee ⊢
      rw [paidFee]

end Calls

section Runs

variable {Proof Token : Type}

/-- A call that does not come from the pool itself. -/
def Entry.Outside (self : ContractAddress) : Entry Proof → Prop
  | .deposit call => call.caller ≠ self
  | .withdraw _ => True

/-- One pool call as a transaction. -/
def Deployment.transaction
    (deployment : Deployment Proof)
    (code : TokenCode Token)
    (entry : Entry Proof) : World Proof Token → World Proof Token :=
  ReentrantCode.transact
    (deployment.call (code.external deployment.self) entry)

/-- A call that completes takes effect. -/
theorem Deployment.transaction_of_ok
    {deployment : Deployment Proof}
    {code : TokenCode Token}
    {entry : Entry Proof}
    {before after : World Proof Token}
    (completed :
      deployment.call (code.external deployment.self) entry before =
        .ok () after) :
    deployment.transaction code entry before = after := by
  unfold Deployment.transaction ReentrantCode.transact
  rw [completed]

/-- A call that panics is undone. -/
theorem Deployment.transaction_of_error
    {deployment : Deployment Proof}
    {code : TokenCode Token}
    {entry : Entry Proof}
    {before failed : World Proof Token}
    {panic : Panic}
    (panicked :
      deployment.call (code.external deployment.self) entry before =
        .error panic failed) :
    deployment.transaction code entry before = before := by
  unfold Deployment.transaction ReentrantCode.transact
  rw [panicked]

/--
The runs of a deployed pool: the calls made, each with the world before it,
the tokens that reached the pool other than through its calls (what it held
before included), and the world at the end.
-/
inductive TokenRun
    (deployment : Deployment Proof)
    (code : TokenCode Token) :
    List (World Proof Token × Entry Proof) →
      ℕ →
      World Proof Token →
      Prop where
  | deployed
      (token : Token) :
      TokenRun deployment code []
        (code.balanceOf token deployment.self)
        (deployment.deployed token)
  | called
      {calls : List (World Proof Token × Entry Proof)}
      {received : ℕ}
      {world : World Proof Token}
      (before : TokenRun deployment code calls received world)
      (entry : Entry Proof)
      (outside : entry.Outside deployment.self) :
      TokenRun deployment code (calls ++ [(world, entry)]) received
        (deployment.transaction code entry world)
  | elsewhere
      {calls : List (World Proof Token × Entry Proof)}
      {received : ℕ}
      {world : World Proof Token}
      (before : TokenRun deployment code calls received world)
      (amount : ℕ)
      (token : Token)
      (sent :
        code.balanceOf token deployment.self =
          code.balanceOf world.token deployment.self + amount) :
      TokenRun deployment code calls (received + amount)
        (world.setToken token)

variable
    {deployment : Deployment Proof}
    {code : TokenCode Token}
    {calls : List (World Proof Token × Entry Proof)}
    {received : ℕ}
    {world : World Proof Token}

/-- A run makes progress from a deployed pool. -/
theorem TokenRun.progress
    (run : TokenRun deployment code calls received world) :
    ∃ token,
      Progress deployment.hash (deployment.deployed token) world := by
  induction run with
  | deployed token =>
      exact ⟨token, Progress.refl _⟩
  | @called calls received world before entry outside earlier =>
      obtain ⟨token, progress⟩ := earlier
      refine ⟨token, progress.trans _ _ _ ?_⟩
      apply ReentrantCode.transact_respects Progress.refl
      exact
        enter_progress
          (code.external_progress deployment.hash deployment.self) entry
  | @elsewhere calls received world before amount token sent earlier =>
      obtain ⟨first, progress⟩ := earlier
      exact
        ⟨first, progress.trans _ _ _ ⟨[], Extends.setToken token world⟩⟩

/-- After a run the pool is the ledger of its completed calls. -/
theorem TokenRun.ledger
    (run : TokenRun deployment code calls received world) :
    Ledger deployment.hash world := by
  obtain ⟨token, progress⟩ := run.progress
  exact (deployment.deployed_ledger token).progress progress

/-- The denomination never changes. -/
theorem TokenRun.denomination
    (run : TokenRun deployment code calls received world) :
    world.pool.denomination = deployment.denomination := by
  obtain ⟨token, new, extends_⟩ := run.progress
  rw [extends_.denomination]
  rfl

/--
What a completed withdrawal leaves behind for good: its proof was accepted,
its fee was below the denomination, and its root is one of the roots so far.
-/
structure Accepted
    (deployment : Deployment Proof)
    (receipts : List (Entry Proof))
    (call : WithdrawCall Proof) : Prop where
  verified :
    deployment.verdict call.proof call.publicInputs = true
  feeBelow :
    call.fee < deployment.denomination
  rootNonzero :
    call.root ≠ 0
  rootTaken :
    ∃ count,
      count ≤ (leavesOf receipts).length ∧
        rootAfter deployment.hash (leavesOf receipts) count = call.root

/-- An accepted withdrawal stays accepted when more calls complete. -/
theorem Accepted.append
    {receipts : List (Entry Proof)}
    {call : WithdrawCall Proof}
    (accepted : Accepted deployment receipts call)
    (new : List (Entry Proof)) :
    Accepted deployment (receipts ++ new) call := by
  obtain ⟨count, reached, rootEq⟩ := accepted.rootTaken
  constructor
  · exact accepted.verified
  · exact accepted.feeBelow
  · exact accepted.rootNonzero
  · refine ⟨count, ?_, ?_⟩
    · rw [leavesOf_append, List.length_append]
      exact reached.trans (Nat.le_add_right _ _)
    · rw [leavesOf_append, rootAfter_append _ reached]
      exact rootEq

/-- A withdrawal that passes its checks in a ledger is accepted. -/
theorem Withdrawable.accepted
    {call : WithdrawCall Proof}
    (withdrawable : Withdrawable deployment.verdict call world)
    (ledger : Ledger deployment.hash world)
    (denomination : world.pool.denomination = deployment.denomination) :
    Accepted deployment world.receipts call := by
  obtain ⟨nonzero, position, inWindow, rootEq⟩ :=
    (ledger.tracks.isKnownRoot_iff call.root).mp withdrawable.knownRoot
  constructor
  · exact withdrawable.verified
  · rw [← denomination]
    exact withdrawable.feeBelow
  · exact nonzero
  · exact ⟨position, inWindow.1, rootEq⟩

/-- Every completed withdrawal of a run was accepted. -/
theorem TokenRun.accepted
    (run : TokenRun deployment code calls received world) :
    ∀ call,
      call ∈ withdrawCalls world.receipts →
      Accepted deployment world.receipts call := by
  induction run with
  | deployed token =>
      intro call member
      cases member
  | @called calls received world earlier entry outside inductionHypothesis =>
      unfold Deployment.transaction ReentrantCode.transact
      cases result :
          deployment.call (code.external deployment.self) entry world with
      | error panic failed =>
          exact inductionHypothesis
      | ok answer after =>
          intro call member
          cases entry with
          | deposit deposit =>
              obtain ⟨_, token, _, _, rfl⟩ :=
                Deployment.call_deposit_eq_ok.mp result
              refine (inductionHypothesis call ?_).append _
              rw [← withdrawCalls_concat_deposit world.receipts deposit]
              exact member
          | withdraw last =>
              obtain ⟨withdrawable, first, second, _, rfl⟩ :=
                Deployment.call_withdraw_eq_ok.mp result
              have inList :
                  call ∈ withdrawCalls world.receipts ++ [last] := by
                rw [← withdrawCalls_concat_withdraw]
                exact member
              rcases List.mem_append.mp inList with inEarlier | isLast
              · exact (inductionHypothesis call inEarlier).append _
              · cases List.mem_singleton.mp isLast
                exact
                  (withdrawable.accepted earlier.ledger
                    earlier.denomination).append _
  | @elsewhere calls received world earlier amount token sent
      inductionHypothesis =>
      exact inductionHypothesis

end Runs

section Ledgers

/-- A token that keeps its balances and reverts when the payer is short. -/
def ledgerToken : TokenCode (ContractAddress → ℕ) where
  balanceOf := id
  execute := fun caller request balances =>
    if request.amount ≤ balances (request.payer caller) then
      .ok true
        (Transfers.moved (request.payer caller) request.payee
          request.amount balances)
    else
      .error ⟨"ERC20: insufficient balance"⟩ balances

/-- Such a token moves exact amounts. -/
theorem ledgerToken_exact :
    ledgerToken.Exact := by
  intro caller request before answer after executed
  by_cases affordable : request.amount ≤ before (request.payer caller)
  · simp only [ledgerToken, affordable, ↓reduceIte,
      EStateM.Result.ok.injEq] at executed
    rw [← executed.2]
    exact Transfers.moved_moves affordable
  · simp only [ledgerToken, affordable, ↓reduceIte] at executed
    cases executed

/-- Such a token returns when the payer's balance covers the amount. -/
theorem ledgerToken_execute
    {caller : ContractAddress}
    {request : IERC20Call}
    {balances : ContractAddress → ℕ}
    (affordable : request.amount ≤ balances (request.payer caller)) :
    ledgerToken.execute caller request balances =
      .ok true
        (Transfers.moved (request.payer caller) request.payee
          request.amount balances) :=
  if_pos affordable

/-- Such a token reverts only when the payer is short of balance. -/
theorem ledgerToken_revertsOnlyShort
    (allowance :
      (ContractAddress → ℕ) → ContractAddress → ContractAddress → ℕ) :
    ledgerToken.RevertsOnlyShort allowance := by
  constructor
  · intro caller recipient amount before affordable
    exact ⟨true, _, ledgerToken_execute affordable⟩
  · intro caller sender recipient amount before affordable _
    exact ⟨true, _, ledgerToken_execute affordable⟩

end Ledgers

end StarkCash.Cairo
