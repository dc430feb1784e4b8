import StarkCash.ValueConservation

namespace StarkCash.Cairo

/-!
# Credit without payment

The pool ignores what the token answers.  Under the interface as declared, a
completed call was paid exactly if no payment that mattered was answered with
false.
-/

section Answers

variable
    {Proof Token : Type}
    {deployment : Deployment Proof}
    {code : TokenCode Token}
    {before after : World Proof Token}

/--
A call that completes was paid: a deposit credited the pool with the
denomination, a withdrawal paid recipient and relayer in full; any other call
left the tree and the nullifiers as they were.
-/
structure Credited
    (deployment : Deployment Proof)
    (code : TokenCode Token)
    (before : World Proof Token)
    (entry : Entry Proof) : Prop where
  deposit :
    ∀ call after,
      entry = .deposit call →
      deployment.call (code.external deployment.self) entry before =
        .ok () after →
      code.balanceOf after.token deployment.self =
        code.balanceOf before.token deployment.self +
          before.pool.denomination.toNat
  withdraw :
    ∀ call after,
      entry = .withdraw call →
      deployment.call (code.external deployment.self) entry before =
        .ok () after →
      code.PaidInFull deployment.self before.pool.denomination call
        before.token after.token
  otherwise :
    ∀ panic failed,
      deployment.call (code.external deployment.self) entry before =
        .error panic failed →
      (deployment.transaction code entry before).pool.merkleTree =
          before.pool.merkleTree ∧
        (deployment.transaction code entry before).pool.nullifiers =
          before.pool.nullifiers

/--
No payment that matters is answered with false: a deposit of a nonzero amount
into a tree with room, a payout to someone other than the pool, or a fee for a
relayer other than the pool, of a withdrawal whose checks pass and whose calls
return.
-/
def Honoured
    (deployment : Deployment Proof)
    (code : TokenCode Token)
    (before : World Proof Token) :
    Entry Proof → Prop
  | .deposit call =>
      before.pool.merkleTree.nextIndex < 2 ^ levels →
      ∀ token,
        code.execute deployment.self
            (.transferFrom call.caller deployment.self
              before.pool.denomination) before.token =
          .ok false token →
        before.pool.denomination.toNat = 0
  | .withdraw call =>
      Withdrawable deployment.verdict call before →
      ∀ answer first,
        code.execute deployment.self
            (.transfer call.recipient
              (before.pool.denomination - call.fee)) before.token =
          .ok answer first →
        if 0 < call.fee then
          ∀ feeAnswer second,
            code.execute deployment.self
                (.transfer call.relayer call.fee) first =
              .ok feeAnswer second →
            (answer = false → call.recipient = deployment.self) ∧
              (feeAnswer = false → call.relayer = deployment.self)
        else
          answer = false → call.recipient = deployment.self

/-- A declared call changes balances exactly if it answers true. -/
theorem TokenCode.Declared.balanceOf
    (declared : code.Declared)
    {caller : ContractAddress}
    {request : IERC20Call}
    {token next : Token}
    {answer : Bool}
    (executed : code.execute caller request token = .ok answer next)
    (account : ContractAddress) :
    (code.balanceOf next account : ℤ) =
      code.balanceOf token account +
        if answer then
          Transfers.change (request.payer caller) request.payee
            request.amount account
        else
          0 := by
  cases answer with
  | true =>
      exact declared.paid _ _ _ _ executed account
  | false =>
      rw [declared.unpaid _ _ _ _ executed]
      simp

/-- A deposit was credited exactly if its payment was honoured. -/
theorem TokenCode.Declared.credited_deposit
    {call : DepositCall}
    (declared : code.Declared)
    (outside : call.caller ≠ deployment.self) :
    Credited deployment code before (.deposit call) ↔
      Honoured deployment code before (.deposit call) := by
  constructor
  · intro credited room token executed
    have completed :
        deployment.call (code.external deployment.self) (.deposit call)
          before = .ok () _ :=
      Deployment.call_deposit_eq_ok.mpr ⟨false, token, executed, room, rfl⟩
    have balance := credited.deposit call _ rfl completed
    change code.balanceOf token deployment.self = _ at balance
    rw [declared.unpaid _ _ _ _ executed] at balance
    omega
  · intro honoured
    constructor
    · intro sameCall after same completed
      obtain ⟨answer, token, executed, room, rfl⟩ :=
        Deployment.call_deposit_eq_ok.mp completed
      have balance := declared.balanceOf executed deployment.self
      change (code.balanceOf token deployment.self : ℤ) = _ at balance
      change code.balanceOf token deployment.self = _
      cases answer with
      | true =>
          have change_ :
              Transfers.change call.caller deployment.self
                  before.pool.denomination.toNat deployment.self =
                before.pool.denomination.toNat :=
            Transfers.change_payee_of_ne outside.symm
          have credited := balance.trans (congrArg _ change_)
          exact_mod_cast credited
      | false =>
          rw [honoured room token executed]
          simpa using balance
    · intro sameCall after same
      cases same
    · intro panic failed panicked
      rw [Deployment.transaction_of_error panicked]
      exact ⟨rfl, rfl⟩

/--
With both calls returned, a withdrawal was paid in full exactly if every
payment to someone other than the pool was answered with true.
-/
theorem paidInFull_iff
    {self : ContractAddress}
    {denomination : U256}
    {call : WithdrawCall Proof}
    {token second : Token}
    {answer feeAnswer : Bool}
    (feeBelow : call.fee < denomination)
    (balances :
      ∀ account,
        (code.balanceOf second account : ℤ) =
          code.balanceOf token account +
            (if answer then
              Transfers.change self call.recipient
                (denomination.toNat - call.fee.toNat) account
            else
              0) +
            (if feeAnswer then
              Transfers.change self call.relayer call.fee.toNat account
            else
              0)) :
    code.PaidInFull self denomination call token second ↔
      (answer = false → call.recipient = self) ∧
        (0 < call.fee → feeAnswer = false → call.relayer = self) := by
  have payoutPositive : 0 < denomination.toNat - call.fee.toNat :=
    Nat.sub_pos_of_lt feeBelow
  have payoutLoss :=
    Transfers.change_payer_nonpos self call.recipient
      (denomination.toNat - call.fee.toNat)
  have feeLoss :=
    Transfers.change_payer_nonpos self call.relayer call.fee.toNat
  constructor
  · intro paid
    have atPool := (balances self).symm.trans (paid self)
    constructor
    · intro refused
      rw [← Transfers.change_payer_eq_zero_iff payoutPositive]
      simp only [refused, Bool.false_eq_true, ↓reduceIte] at atPool
      split at atPool
      · linarith
      · linarith
    · intro feePositive refused
      have amountPositive : 0 < call.fee.toNat := feePositive
      rw [← Transfers.change_payer_eq_zero_iff amountPositive]
      simp only [refused, Bool.false_eq_true, ↓reduceIte] at atPool
      split at atPool
      · linarith
      · linarith
  · rintro ⟨payout, fee⟩ account
    have feeUnpaid :
        feeAnswer = false → call.relayer = self ∨ call.fee.toNat = 0 := by
      intro refused
      by_cases hasFee : 0 < call.fee
      · exact Or.inl (fee hasFee refused)
      · exact Or.inr (Nat.eq_zero_of_not_pos hasFee)
    rw [balances account,
      Transfers.change_of_answer fun refused => Or.inl (payout refused),
      Transfers.change_of_answer feeUnpaid]

/-- The balances after both payments of a withdrawal. -/
theorem TokenCode.Declared.payments
    {self : ContractAddress}
    {denomination : U256}
    {call : WithdrawCall Proof}
    {token first second : Token}
    {answer feeAnswer : Bool}
    (declared : code.Declared)
    (feeBelow : call.fee < denomination)
    (executed :
      code.execute self
          (.transfer call.recipient (denomination - call.fee)) token =
        .ok answer first)
    (feeExecuted :
      code.execute self (.transfer call.relayer call.fee) first =
        .ok feeAnswer second)
    (account : ContractAddress) :
    (code.balanceOf second account : ℤ) =
      code.balanceOf token account +
        (if answer then
          Transfers.change self call.recipient
            (denomination.toNat - call.fee.toNat) account
        else
          0) +
        (if feeAnswer then
          Transfers.change self call.relayer call.fee.toNat account
        else
          0) := by
  rw [declared.balanceOf feeExecuted, declared.balanceOf executed,
    ← toNat_payout feeBelow]
  rfl

/-- Without a fee the payout is the only payment. -/
theorem TokenCode.Declared.payout
    {self : ContractAddress}
    {denomination : U256}
    {call : WithdrawCall Proof}
    {token first : Token}
    {answer : Bool}
    (declared : code.Declared)
    (feeBelow : call.fee < denomination)
    (noFee : ¬ 0 < call.fee)
    (executed :
      code.execute self
          (.transfer call.recipient (denomination - call.fee)) token =
        .ok answer first)
    (account : ContractAddress) :
    (code.balanceOf first account : ℤ) =
      code.balanceOf token account +
        (if answer then
          Transfers.change self call.recipient
            (denomination.toNat - call.fee.toNat) account
        else
          0) +
        (if true then
          Transfers.change self call.relayer call.fee.toNat account
        else
          0) := by
  have feeZero : call.fee.toNat = 0 := Nat.eq_zero_of_not_pos noFee
  rw [declared.balanceOf executed, ← toNat_payout feeBelow, feeZero]
  simp only [Transfers.change_zero, ite_self, add_zero]
  rfl

/-- A withdrawal is credited if it pays in full whenever it completes. -/
theorem credited_withdraw_iff
    {call : WithdrawCall Proof} :
    Credited deployment code before (.withdraw call) ↔
      (Withdrawable deployment.verdict call before →
        ∀ first second,
          code.Pays deployment.self before.pool.denomination call
            before.token first second →
          code.PaidInFull deployment.self before.pool.denomination
            call before.token second) := by
  constructor
  · intro credited withdrawable first second pays
    exact
      credited.withdraw call _ rfl
        (Deployment.call_withdraw_eq_ok.mpr
          ⟨withdrawable, first, second, pays, rfl⟩)
  · intro paidInFull
    constructor
    · intro sameCall after same
      cases same
    · intro sameCall after same completed
      cases same
      obtain ⟨withdrawable, first, second, pays, rfl⟩ :=
        Deployment.call_withdraw_eq_ok.mp completed
      exact paidInFull withdrawable first second pays
    · intro panic failed panicked
      rw [Deployment.transaction_of_error panicked]
      exact ⟨rfl, rfl⟩

/-- A withdrawal was paid exactly if its payments were honoured. -/
theorem TokenCode.Declared.credited_withdraw
    {call : WithdrawCall Proof}
    (declared : code.Declared) :
    Credited deployment code before (.withdraw call) ↔
      Honoured deployment code before (.withdraw call) := by
  rw [credited_withdraw_iff, Honoured]
  refine forall_congr' fun withdrawable => ?_
  have feeBelow := withdrawable.feeBelow
  by_cases hasFee : 0 < call.fee
  · simp only [TokenCode.Pays, hasFee, ↓reduceIte]
    constructor
    · intro paid answer first executed feeAnswer second feeExecuted
      have paidInFull :=
        paid first second ⟨⟨answer, executed⟩, feeAnswer, feeExecuted⟩
      obtain ⟨payout, fee⟩ :=
        (paidInFull_iff feeBelow
          (declared.payments feeBelow executed feeExecuted)).mp paidInFull
      exact ⟨payout, fee hasFee⟩
    · rintro honoured first second
        ⟨⟨answer, executed⟩, feeAnswer, feeExecuted⟩
      obtain ⟨payout, fee⟩ :=
        honoured answer first executed feeAnswer second feeExecuted
      exact
        (paidInFull_iff feeBelow
          (declared.payments feeBelow executed feeExecuted)).mpr
            ⟨payout, fun _ => fee⟩
  · simp only [TokenCode.Pays, hasFee, ↓reduceIte]
    constructor
    · intro paid answer first executed
      have paidInFull := paid first first ⟨⟨answer, executed⟩, rfl⟩
      exact
        ((paidInFull_iff feeBelow
          (declared.payout feeBelow hasFee executed)).mp paidInFull).1
    · rintro honoured first second ⟨⟨answer, executed⟩, rfl⟩
      exact
        (paidInFull_iff feeBelow
          (declared.payout feeBelow hasFee executed)).mpr
            ⟨honoured answer first executed,
              fun positive => absurd positive hasFee⟩

end Answers

section Runs

variable
    {Proof Token : Type}
    {deployment : Deployment Proof}
    {code : TokenCode Token}
    {calls : List (World Proof Token × Entry Proof)}
    {received : ℕ}
    {world : World Proof Token}

/-- A call from outside was paid exactly if its payments were honoured. -/
theorem TokenCode.Declared.credited_iff
    (declared : code.Declared)
    {entry : Entry Proof}
    (outside : entry.Outside deployment.self)
    (before : World Proof Token) :
    Credited deployment code before entry ↔
      Honoured deployment code before entry := by
  cases entry with
  | deposit call =>
      exact declared.credited_deposit outside
  | withdraw call =>
      exact declared.credited_withdraw

/-- Every call of a run comes from outside. -/
theorem TokenRun.outside
    (run : TokenRun deployment code calls received world)
    {before : World Proof Token}
    {entry : Entry Proof}
    (member : (before, entry) ∈ calls) :
    entry.Outside deployment.self := by
  induction run with
  | deployed token =>
      cases member
  | @called calls received world earlier last outside inductionHypothesis =>
      rcases List.mem_append.mp member with inEarlier | isLast
      · exact inductionHypothesis inEarlier
      · cases List.mem_singleton.mp isLast
        exact outside
  | @elsewhere calls received world earlier amount token sent
      inductionHypothesis =>
      exact inductionHypothesis member

/--
Under the interface as declared, every call of a run was credited exactly if
no call of the run had a payment that mattered answered with false.
-/
theorem TokenRun.credited_iff_honoured
    (declared : code.Declared)
    (run : TokenRun deployment code calls received world) :
    (∀ before entry,
        (before, entry) ∈ calls →
        Credited deployment code before entry) ↔
      ∀ before entry,
        (before, entry) ∈ calls →
        Honoured deployment code before entry := by
  constructor
  · intro credited before entry member
    exact
      (declared.credited_iff (run.outside member) before).mp
        (credited before entry member)
  · intro honoured before entry member
    exact
      (declared.credited_iff (run.outside member) before).mpr
        (honoured before entry member)

end Runs

section Refusal

/-- A token that changes nothing and answers false. -/
def refusingToken : TokenCode Unit where
  balanceOf := fun _ _ => 0
  execute := fun _ _ token => .ok false token

/-- Such a token is as declared. -/
theorem refusingToken_declared :
    refusingToken.Declared := by
  constructor
  · intro caller request before after executed
    cases executed
  · intro caller request before after executed
    rfl

/-- A deposit from outside the pool. -/
def refusedDeposit : DepositCall where
  caller := 3
  blockTimestamp := 0
  commitment := 5

variable (hash : U256 → U256 → U256)

/-- A pool of denomination one over any hash. -/
def refusedPool : Deployment Unit where
  hash := hash
  verdict := fun _ _ => true
  self := 1
  tokenAddress := 2
  denomination := 1

/-- The pool right after its deployment over such a token. -/
def refusedStart : World Unit Unit :=
  (refusedPool hash).deployed ()

/-- The deposit completes, unpaid. -/
theorem refusedDeposit_completes :
    (refusedPool hash).call (refusingToken.external 1)
        (.deposit refusedDeposit) (refusedStart hash) =
      .ok ()
        ((refusedStart hash).completeDeposit (refusedPool hash).hash
          refusedDeposit) := by
  have tracks : Tracks hash [] (refusedStart hash).pool.merkleTree :=
    initialized_tracks hash
  have room := tracks.hasRoom (Nat.two_pow_pos levels)
  exact
    Deployment.call_deposit_eq_ok.mpr ⟨false, (), rfl, room, rfl⟩

/-- The run that makes this deposit. -/
theorem refusedDeposit_run :
    TokenRun (refusedPool hash) refusingToken
      [(refusedStart hash, .deposit refusedDeposit)] 0
      ((refusedStart hash).completeDeposit (refusedPool hash).hash
        refusedDeposit) := by
  have outside : (3 : ContractAddress) ≠ 1 := by
    decide
  have start :
      TokenRun (refusedPool hash) refusingToken [] 0 (refusedStart hash) :=
    TokenRun.deployed ()
  have run := TokenRun.called start (.deposit refusedDeposit) outside
  rw [Deployment.transaction_of_ok (refusedDeposit_completes hash)] at run
  exact run

/--
Under that token a deposit adds a leaf without any payment, whatever the hash
of the tree.
-/
theorem refusedDeposit_unpaid :
    refusingToken.Declared ∧
      ∀ hash : U256 → U256 → U256,
        ∃ after,
          TokenRun (refusedPool hash) refusingToken
              [(refusedStart hash, .deposit refusedDeposit)] 0 after ∧
            (refusedPool hash).call (refusingToken.external 1)
                (.deposit refusedDeposit) (refusedStart hash) =
              .ok () after ∧
            leavesOf after.receipts = [5] ∧
            after.pool.merkleTree.nextIndex = 1 ∧
            refusingToken.balanceOf after.token 1 =
              refusingToken.balanceOf (refusedStart hash).token 1 ∧
            (refusedStart hash).pool.denomination.toNat = 1 := by
  refine ⟨refusingToken_declared, ?_⟩
  intro hash
  have run := refusedDeposit_run hash
  exact
    ⟨_, run, refusedDeposit_completes hash, rfl,
      run.ledger.tracks.nextIndex, rfl, rfl⟩

/-- The deposit was not credited, as its payment was not honoured. -/
theorem credited_iff_honoured_refused :
    let pool := refusedPool fun _ _ => 1
    let start := refusedStart fun _ _ => 1
    (∀ before entry,
        (before, entry) ∈ [(start, Entry.deposit refusedDeposit)] →
        Credited pool refusingToken before entry) ↔
      ∀ before entry,
        (before, entry) ∈ [(start, Entry.deposit refusedDeposit)] →
        Honoured pool refusingToken before entry :=
  TokenRun.credited_iff_honoured refusingToken_declared
    (refusedDeposit_run fun _ _ => 1)

end Refusal

end StarkCash.Cairo
