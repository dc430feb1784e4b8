import StarkCash.TokenRuns

namespace StarkCash.Cairo

/-!
# Conservation of value

With a token that moves exact amounts the pool's balance is determined by the
completed calls and by what reached the pool otherwise, over whole runs and
whoever is paid, the pool itself included.
-/

section Payments

variable
    {Proof Token : Type}
    {deployment : Deployment Proof}
    {code : TokenCode Token}
    {before after : World Proof Token}

/-- What a withdrawal pays to an account. -/
def WithdrawCall.paidTo
    (account : ContractAddress)
    (denomination : U256)
    (call : WithdrawCall Proof) : ℕ :=
  (if call.recipient = account then
      denomination.toNat - call.fee.toNat
    else
      0) +
    if call.relayer = account then call.fee.toNat else 0

/-- What the completed withdrawals paid to an account. -/
def paidTo
    (account : ContractAddress)
    (denomination : U256)
    (receipts : List (Entry Proof)) : ℕ :=
  ((withdrawCalls receipts).map
    (WithdrawCall.paidTo account denomination)).sum

/--
A withdrawal was paid in full: the recipient has the denomination less the
fee, the relayer the fee, and both come from the pool.
-/
def TokenCode.PaidInFull
    (code : TokenCode Token)
    (self : ContractAddress)
    (denomination : U256)
    (call : WithdrawCall Proof)
    (before after : Token) : Prop :=
  ∀ account,
    (code.balanceOf after account : ℤ) =
      code.balanceOf before account +
        Transfers.change self call.recipient
          (denomination.toNat - call.fee.toNat) account +
        Transfers.change self call.relayer call.fee.toNat account

/-- Below the denomination the payout is the difference of the numbers. -/
theorem toNat_payout
    {denomination fee : U256}
    (feeBelow : fee < denomination) :
    (denomination - fee).toNat = denomination.toNat - fee.toNat :=
  BitVec.toNat_sub_of_le (BitVec.le_of_lt feeBelow)

/-- An exact token pays withdrawals in full. -/
theorem TokenCode.Exact.paidInFull
    {self : ContractAddress}
    {denomination : U256}
    {call : WithdrawCall Proof}
    {token first second : Token}
    (exact : code.Exact)
    (feeBelow : call.fee < denomination)
    (pays : code.Pays self denomination call token first second) :
    code.PaidInFull self denomination call token second := by
  obtain ⟨⟨answer, executed⟩, paidFee⟩ := pays
  intro account
  have payout := exact _ _ _ _ _ executed account
  change _ = _ + Transfers.change self call.recipient
    (denomination - call.fee).toNat account at payout
  rw [toNat_payout feeBelow] at payout
  by_cases hasFee : 0 < call.fee
  · rw [if_pos hasFee] at paidFee
    obtain ⟨feeAnswer, feeExecuted⟩ := paidFee
    have fee := exact _ _ _ _ _ feeExecuted account
    rw [fee, payout]
    rfl
  · rw [if_neg hasFee] at paidFee
    have noFee : call.fee.toNat = 0 := by
      have atMost : ¬ 0 < call.fee.toNat := hasFee
      omega
    rw [← paidFee, payout, noFee, Transfers.change_zero, add_zero]

/-- A token that reverts only for the short pays out of a full balance. -/
theorem TokenCode.RevertsOnlyShort.exists_pays
    {allowance : Token → ContractAddress → ContractAddress → ℕ}
    {self : ContractAddress}
    {denomination : U256}
    {call : WithdrawCall Proof}
    {token : Token}
    (revertsOnlyShort : code.RevertsOnlyShort allowance)
    (exact : code.Exact)
    (feeBelow : call.fee < denomination)
    (covered : denomination.toNat ≤ code.balanceOf token self) :
    ∃ first second, code.Pays self denomination call token first second := by
  have payoutEq := toNat_payout feeBelow
  have feeInRange : call.fee.toNat < denomination.toNat := feeBelow
  obtain ⟨answer, first, executed⟩ :=
    revertsOnlyShort.transfer self call.recipient
      (denomination - call.fee) token (by omega)
  have moved :
      code.balanceOf token self ≤
        code.balanceOf first self + (denomination - call.fee).toNat :=
    Transfers.Moves.le_add_amount (exact _ _ _ _ _ executed)
  obtain ⟨feeAnswer, second, feeExecuted⟩ :=
    revertsOnlyShort.transfer self call.relayer call.fee first (by omega)
  by_cases hasFee : 0 < call.fee
  · refine ⟨first, second, ⟨answer, executed⟩, ?_⟩
    rw [if_pos hasFee]
    exact ⟨feeAnswer, feeExecuted⟩
  · refine ⟨first, first, ⟨answer, executed⟩, ?_⟩
    rw [if_neg hasFee]

end Payments

section Balance

variable
    {Proof Token : Type}
    {deployment : Deployment Proof}
    {code : TokenCode Token}
    {calls : List (World Proof Token × Entry Proof)}
    {received : ℕ}
    {before after world : World Proof Token}

/-- An exact token credits the pool for a completed deposit. -/
theorem TokenCode.Exact.deposit_balance
    {call : DepositCall}
    (exact : code.Exact)
    (outside : call.caller ≠ deployment.self)
    (completed :
      deployment.call (code.external deployment.self) (.deposit call)
        before = .ok () after) :
    (code.balanceOf after.token deployment.self : ℤ) =
      code.balanceOf before.token deployment.self +
        before.pool.denomination.toNat := by
  obtain ⟨answer, token, executed, _, rfl⟩ :=
    Deployment.call_deposit_eq_ok.mp completed
  have moved := exact _ _ _ _ _ executed deployment.self
  refine moved.trans ?_
  congr 1
  exact Transfers.change_payee_of_ne outside.symm

/-- A withdrawal paid in full costs the pool what it does not pay itself. -/
theorem TokenCode.PaidInFull.balance
    {self : ContractAddress}
    {denomination : U256}
    {call : WithdrawCall Proof}
    {token second : Token}
    (feeBelow : call.fee < denomination)
    (paid : code.PaidInFull self denomination call token second) :
    (code.balanceOf second self : ℤ) =
      code.balanceOf token self - denomination.toNat +
        call.paidTo self denomination := by
  have feeInRange : call.fee.toNat < denomination.toNat := feeBelow
  have atPool := paid self
  rw [Transfers.change_payer, Transfers.change_payer] at atPool
  rw [atPool, WithdrawCall.paidTo]
  push_cast [Nat.cast_sub (Nat.le_of_lt feeInRange)]
  split <;> split <;> ring

/--
The balance that the completed calls and what reached the pool otherwise
account for.
-/
def accounted
    (deployment : Deployment Proof)
    (received : ℕ)
    (receipts : List (Entry Proof)) : ℤ :=
  deployment.denomination.toNat * (depositCalls receipts).length -
    deployment.denomination.toNat * (withdrawCalls receipts).length +
    received +
    paidTo deployment.self deployment.denomination receipts

/-- A completed deposit accounts for one denomination more. -/
theorem accounted_deposit
    (receipts : List (Entry Proof))
    (call : DepositCall) :
    accounted deployment received (receipts ++ [.deposit call]) =
      accounted deployment received receipts +
        deployment.denomination.toNat := by
  simp only [accounted, paidTo, depositCalls_concat_deposit,
    withdrawCalls_concat_deposit, List.length_append,
    List.length_singleton]
  push_cast
  ring

/-- A completed withdrawal accounts for what it paid others. -/
theorem accounted_withdraw
    (receipts : List (Entry Proof))
    (call : WithdrawCall Proof) :
    accounted deployment received (receipts ++ [.withdraw call]) =
      accounted deployment received receipts -
          deployment.denomination.toNat +
        call.paidTo deployment.self deployment.denomination := by
  simp only [accounted, paidTo, depositCalls_concat_withdraw,
    withdrawCalls_concat_withdraw, List.length_append,
    List.length_singleton, List.map_append, List.map_singleton,
    List.sum_append, List.sum_singleton]
  push_cast
  ring

/-- One call keeps the balance accounted for. -/
theorem TokenCode.Exact.transaction_accounted
    {entry : Entry Proof}
    (exact : code.Exact)
    (outside : entry.Outside deployment.self)
    (denomination : before.pool.denomination = deployment.denomination)
    (balance :
      (code.balanceOf before.token deployment.self : ℤ) =
        accounted deployment received before.receipts) :
    (code.balanceOf
        (deployment.transaction code entry before).token
        deployment.self : ℤ) =
      accounted deployment received
        (deployment.transaction code entry before).receipts := by
  unfold Deployment.transaction ReentrantCode.transact
  cases result :
      deployment.call (code.external deployment.self) entry before with
  | error panic failed =>
      exact balance
  | ok answer after =>
      cases entry with
      | deposit call =>
          have credited := exact.deposit_balance outside result
          obtain ⟨_, token, _, _, rfl⟩ :=
            Deployment.call_deposit_eq_ok.mp result
          dsimp only
          rw [credited, balance, denomination]
          exact (accounted_deposit before.receipts call).symm
      | withdraw call =>
          obtain ⟨withdrawable, first, second, pays, rfl⟩ :=
            Deployment.call_withdraw_eq_ok.mp result
          have paid := exact.paidInFull withdrawable.feeBelow pays
          have debited := paid.balance withdrawable.feeBelow
          rw [balance, denomination] at debited
          refine debited.trans ?_
          exact (accounted_withdraw before.receipts call).symm

/--
The pool's balance is what the completed deposits brought, less what the
completed withdrawals took, plus what reached the pool otherwise.
-/
theorem TokenRun.balance
    (exact : code.Exact)
    (run : TokenRun deployment code calls received world) :
    (code.balanceOf world.token deployment.self : ℤ) =
      accounted deployment received world.receipts := by
  induction run with
  | deployed token =>
      simp [accounted, Deployment.deployed, depositCalls, withdrawCalls,
        paidTo]
  | @called calls received world earlier entry outside balance =>
      exact
        exact.transaction_accounted outside earlier.denomination balance
  | @elsewhere calls received world earlier amount token sent balance =>
      change (code.balanceOf token deployment.self : ℤ) = _
      rw [sent]
      push_cast
      rw [balance]
      simp only [accounted, World.setToken]
      push_cast
      ring

end Balance

section Conservation

variable
    {Proof Token : Type}
    {deployment : Deployment Proof}
    {code : TokenCode Token}
    {calls : List (World Proof Token × Entry Proof)}
    {received : ℕ}
    {world : World Proof Token}

/-- A recorded withdrawal panics where the withdrawal does. -/
theorem Deployment.call_withdraw_panic
    {call : WithdrawCall Proof}
    {panic : Panic}
    {failed : World Proof Token}
    (panicked :
      deployment.call (code.external deployment.self) (.withdraw call)
        world = .error panic failed) :
    panic ∈ withdrawPanics ∨
      ∃ request token failedToken,
        code.execute deployment.self request token =
          .error panic failedToken := by
  have inWithdraw :
      withdraw deployment.verdict (code.external deployment.self) call
        world = .error panic failed := by
    rcases Imperative.bind_eq_error.mp panicked with
      inside | ⟨_, _, _, recording⟩
    · exact inside
    · exact absurd recording Imperative.modify_ne_error
  rcases withdraw_panic inWithdraw with
    own | ⟨_, request, failing, _, external⟩
  · exact Or.inl own
  · obtain ⟨failedToken, executed⟩ :=
      TokenCode.external_eq_error external
    exact Or.inr ⟨request, failing.token, failedToken, executed⟩

/-- A withdrawal that passes its checks on a full pool completes, paid. -/
theorem TokenRun.withdraw_completes
    {allowance : Token → ContractAddress → ContractAddress → ℕ}
    {call : WithdrawCall Proof}
    (exact : code.Exact)
    (revertsOnlyShort : code.RevertsOnlyShort allowance)
    (run : TokenRun deployment code calls received world)
    (withdrawable : Withdrawable deployment.verdict call world)
    (full :
      deployment.denomination.toNat ≤
        code.balanceOf world.token deployment.self) :
    ∃ after,
      deployment.call (code.external deployment.self) (.withdraw call)
            world = .ok () after ∧
        code.PaidInFull deployment.self deployment.denomination call
          world.token after.token := by
  rw [← run.denomination] at full ⊢
  obtain ⟨first, second, pays⟩ :=
    revertsOnlyShort.exists_pays exact withdrawable.feeBelow full
  exact
    ⟨_, Deployment.call_withdraw_eq_ok.mpr
      ⟨withdrawable, first, second, pays, rfl⟩,
      exact.paidInFull withdrawable.feeBelow pays⟩

/--
Value is conserved exactly: in every run the balance is accounted for; a
completed withdrawal pays the denomination less the fee to the recipient and
the fee, below the denomination, to the relayer; a withdrawal panics only at
its checks or inside the token, never in its subtraction; and a call that
fails changes nothing.
-/
theorem TokenRun.value_conserved
    (exact : code.Exact)
    (run : TokenRun deployment code calls received world) :
    (code.balanceOf world.token deployment.self : ℤ) =
        deployment.denomination.toNat *
            (depositCalls world.receipts).length -
          deployment.denomination.toNat *
            (withdrawCalls world.receipts).length +
          received +
          paidTo deployment.self deployment.denomination
            world.receipts ∧
      (∀ call after,
        deployment.call (code.external deployment.self)
            (.withdraw call) world = .ok () after →
        call.fee.toNat < deployment.denomination.toNat ∧
          code.PaidInFull deployment.self deployment.denomination call
            world.token after.token) ∧
      (∀ call panic failed,
        deployment.call (code.external deployment.self)
            (.withdraw call) world = .error panic failed →
        panic ∈ withdrawPanics ∨
          ∃ request token failedToken,
            code.execute deployment.self request token =
              .error panic failedToken) ∧
      ∀ entry panic failed,
        deployment.call (code.external deployment.self) entry world =
            .error panic failed →
        deployment.transaction code entry world = world := by
  refine ⟨run.balance exact, ?_, ?_, ?_⟩
  · intro call after completed
    obtain ⟨withdrawable, first, second, pays, rfl⟩ :=
      Deployment.call_withdraw_eq_ok.mp completed
    rw [← run.denomination]
    constructor
    · exact withdrawable.feeBelow
    · exact exact.paidInFull withdrawable.feeBelow pays
  · intro call panic failed panicked
    exact Deployment.call_withdraw_panic panicked
  · intro entry panic failed panicked
    exact Deployment.transaction_of_error panicked

/-- A pool of denomination one that accepts every proof. -/
def acceptingPool : Deployment Unit where
  hash := fun _ _ => 1
  verdict := fun _ _ => true
  self := 1
  tokenAddress := 2
  denomination := 1

/-- A withdrawal that pays the pool itself. -/
def selfCall : WithdrawCall Unit where
  proof := ()
  root := 1
  nullifierHash := 7
  recipient := 1
  relayer := 4
  fee := 0
  refund := 0

/-- The balance is accounted for after the pool has paid itself. -/
theorem value_conserved_selfCall :
    let start := acceptingPool.deployed (Function.update (fun _ => 0) 1 1)
    let world :=
      acceptingPool.transaction ledgerToken (.withdraw selfCall) start
    (ledgerToken.balanceOf world.token 1 : ℤ) =
      (1 : U256).toNat * (depositCalls world.receipts).length -
        (1 : U256).toNat * (withdrawCalls world.receipts).length +
        ledgerToken.balanceOf start.token 1 +
        paidTo 1 1 world.receipts := by
  intro start world
  have run :
      TokenRun acceptingPool ledgerToken [(start, .withdraw selfCall)]
        (ledgerToken.balanceOf start.token 1) world :=
    TokenRun.called (TokenRun.deployed _) (.withdraw selfCall) trivial
  exact (TokenRun.value_conserved ledgerToken_exact run).1

end Conservation

end StarkCash.Cairo
