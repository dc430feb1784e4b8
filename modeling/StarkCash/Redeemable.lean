import StarkCash.Solvency
import StarkCash.StructuralProofs

namespace StarkCash.Cairo

/-!
# Redeeming deposits

`deposit` takes any commitment, repeated or beyond the scalar prime.  What a
sound verifier leaves to redeem are the residues: the completed withdrawals are
no more than the different residues deposited, and every deposited note whose
nullifier hash is unspent is redeemable once, whatever else was deposited.
-/

open PerfectTree

section Deposits

variable {Proof Token : Type}

/-- The same deposit with another commitment. -/
def DepositCall.withCommitment
    (call : DepositCall)
    (commitment : U256) : DepositCall :=
  { call with commitment := commitment }

/--
A deposit completes exactly if its token call returns and leaves room in the
tree.
-/
theorem Deployment.deposit_completes_iff
    (deployment : Deployment Proof)
    (external : External Proof Token)
    (world : World Proof Token)
    (call : DepositCall) :
    (∃ after,
        deployment.call external (.deposit call) world = .ok () after) ↔
      ∃ answer paid,
        external world.pool.token
            (.transferFrom call.caller deployment.self
              world.pool.denomination) world =
            .ok answer paid ∧
          paid.pool.merkleTree.nextIndex < 2 ^ levels := by
  unfold Deployment.call
  simp only [enter_deposit_eq_ok]
  constructor
  · rintro ⟨after, answer, paid, answered, room, _⟩
    exact ⟨answer, paid, answered, room⟩
  · rintro ⟨answer, paid, answered, room⟩
    exact ⟨_, answer, paid, answered, room, rfl⟩

/-- Whether a deposit completes does not depend on its commitment. -/
theorem Deployment.deposit_withCommitment_iff
    (deployment : Deployment Proof)
    (external : External Proof Token)
    (world : World Proof Token)
    (call : DepositCall)
    (commitment : U256) :
    (∃ after,
        deployment.call external (.deposit (call.withCommitment commitment))
          world = .ok () after) ↔
      ∃ after,
        deployment.call external (.deposit call) world =
          .ok () after := by
  rw [deployment.deposit_completes_iff, deployment.deposit_completes_iff]
  rfl

/-- The accepted commitments are the leaves of the pool's tree. -/
theorem Deployment.run_getRoot
    (deployment : Deployment Proof)
    (token : Token)
    (codes : List (ForeignCode Proof Token)) :
    let world := deployment.run codes (deployment.deployed token)
    world.pool.merkleTree.getRoot =
      PerfectTree.root deployment.hash zeroLeaf levels
        ((depositCalls world.receipts).map DepositCall.commitment) :=
  (deployment.run_ledger token codes).tracks.getRoot_eq

end Deposits

section Residues

variable
    {poseidon : List Fr → Fr}
    {receipts : List (Entry (Circuit.Withdraw levels))}

/-- The commitments that the completed withdrawals open. -/
def openedCommitments
    (poseidon : List Fr → Fr)
    (receipts : List (Entry (Circuit.Withdraw levels))) : List Fr :=
  (withdrawCalls receipts).map fun call =>
    call.proof.noteCommitment poseidon

namespace Backed

/-- Different completed withdrawals open different commitments. -/
theorem openedCommitments_nodup
    (backed : Backed poseidon receipts)
    (noCollision : NoCollision poseidon (UsedPair poseidon receipts)) :
    (openedCommitments poseidon receipts).Nodup := by
  refine List.pairwise_map.mpr (backed.notes_pairwise.imp_of_mem ?_)
  intro first second firstMember secondMember different sameCommitment
  apply different
  exact
    Note.pair_injective
      (noCollision.eq (UsedPair.commitment first firstMember)
        (UsedPair.commitment second secondMember) sameCommitment)

/-- Every opened commitment is the residue of a deposited one. -/
theorem openedCommitments_subset
    (backed : Backed poseidon receipts) :
    openedCommitments poseidon receipts ⊆
      ((leavesOf receipts).map U256.toFr).dedup := by
  intro commitment opened
  obtain ⟨call, member, rfl⟩ := List.mem_map.mp opened
  obtain ⟨leaf, present, residue⟩ := backed.deposited call member
  apply List.mem_dedup.mpr
  exact
    List.mem_map.mpr ⟨leaf, List.mem_of_getElem? present, residue⟩

/-- The withdrawals are no more than the different residues deposited. -/
theorem withdrawals_le_residues
    (backed : Backed poseidon receipts)
    (noCollision : NoCollision poseidon (UsedPair poseidon receipts)) :
    (withdrawCalls receipts).length ≤
      ((leavesOf receipts).map U256.toFr).dedup.length := by
  have counted :=
    (backed.openedCommitments_nodup noCollision).length_le_of_subset
      backed.openedCommitments_subset
  rw [openedCommitments, List.length_map] at counted
  exact counted

end Backed

end Residues

section Redemption

variable
    {Proof Token : Type}
    {deployment : Deployment Proof}
    {code : TokenCode Token}
    {call : WithdrawCall Proof}

/--
A withdrawal completes and pays in full, and none with its nullifier hash
completes in any state the pool makes progress to.
-/
def RedeemableOnce
    (deployment : Deployment Proof)
    (code : TokenCode Token)
    (world : World Proof Token)
    (call : WithdrawCall Proof) : Prop :=
  ∃ after,
    deployment.call (code.external deployment.self) (.withdraw call)
          world = .ok () after ∧
      code.PaidInFull deployment.self deployment.denomination call
        world.token after.token ∧
      ∀ (later final : World Proof Token)
        (external : External Proof Token)
        (again : WithdrawCall Proof),
        Progress deployment.hash after later →
        again.nullifierHash = call.nullifierHash →
        deployment.call external (.withdraw again) later ≠ .ok () final

/-- A completed withdrawal marks its nullifier hash. -/
theorem Deployment.call_withdraw_spent
    {before after : World Proof Token}
    (completed :
      deployment.call (code.external deployment.self) (.withdraw call)
        before = .ok () after) :
    after.pool.nullifiers call.nullifierHash = true := by
  obtain ⟨_, first, second, _, rfl⟩ :=
    Deployment.call_withdraw_eq_ok.mp completed
  exact Function.update_self ..

/-- A spent nullifier hash is refused, then and ever after. -/
theorem Progress.withdraw_refused
    {before later final : World Proof Token}
    {external : External Proof Token}
    (progress : Progress deployment.hash before later)
    (spent : before.pool.nullifiers call.nullifierHash = true) :
    deployment.call external (.withdraw call) later ≠ .ok () final := by
  intro completed
  obtain ⟨new, extends_⟩ := progress
  obtain ⟨withdrawable, _⟩ := enter_withdraw_eq_ok.mp completed
  have stillSpent :=
    (extends_.spent call.nullifierHash).mpr (Or.inl spent)
  rw [withdrawable.unspent] at stillSpent
  cases stillSpent

variable
    {allowance : Token → ContractAddress → ContractAddress → ℕ}
    {calls : List (World Proof Token × Entry Proof)}
    {received : ℕ}
    {world : World Proof Token}

/-- A withdrawal that passes its checks on a full pool is redeemable once. -/
theorem TokenRun.redeemableOnce
    (exact : code.Exact)
    (revertsOnlyShort : code.RevertsOnlyShort allowance)
    (run : TokenRun deployment code calls received world)
    (withdrawable : Withdrawable deployment.verdict call world)
    (full :
      deployment.denomination.toNat ≤
        code.balanceOf world.token deployment.self) :
    RedeemableOnce deployment code world call := by
  obtain ⟨after, completed, paid⟩ :=
    run.withdraw_completes exact revertsOnlyShort withdrawable full
  refine ⟨after, completed, paid, ?_⟩
  intro later final external again progress sameHash
  apply progress.withdraw_refused
  rw [sameHash]
  exact Deployment.call_withdraw_spent completed

end Redemption

section Redeemable

/--
A deposit completes exactly if its token call returns and leaves room, whatever
its commitment, and the accepted commitments are the leaves in order.  With a
sound verifier, without collisions among the hash inputs of a run and openings
of the padding leaf, the completed withdrawals are no more than the different
residues deposited, and every deposited note with an unspent nullifier hash is
redeemable once, against any known root taken after its deposit.
-/
theorem deposits_redeemable :
    (∀ {Proof Token : Type}
        (deployment : Deployment Proof)
        (token : Token)
        (codes : List (ForeignCode Proof Token)),
        let world := deployment.run codes (deployment.deployed token)
        world.pool.merkleTree.getRoot =
            PerfectTree.root deployment.hash zeroLeaf levels
              ((depositCalls world.receipts).map
                DepositCall.commitment) ∧
          ∀ (external : External Proof Token) (call : DepositCall),
            ((∃ after,
                deployment.call external (.deposit call) world =
                  .ok () after) ↔
              ∃ answer paid,
                external world.pool.token
                    (.transferFrom call.caller deployment.self
                      world.pool.denomination) world =
                    .ok answer paid ∧
                  paid.pool.merkleTree.nextIndex < 2 ^ levels) ∧
              ∀ commitment : U256,
                (∃ after,
                    deployment.call external
                      (.deposit (call.withCommitment commitment)) world =
                      .ok () after) ↔
                  ∃ after,
                    deployment.call external (.deposit call) world =
                      .ok () after) ∧
      ∀ {Token : Type}
        {code : TokenCode Token}
        {allowance : Token → ContractAddress → ContractAddress → ℕ}
        {poseidon : List Fr → Fr}
        {self tokenAddress : ContractAddress}
        {denomination : U256}
        {calls :
          List
            (World (Circuit.Withdraw levels) Token ×
              Entry (Circuit.Withdraw levels))}
        {received : ℕ}
        {world : World (Circuit.Withdraw levels) Token},
        code.Exact →
        code.RevertsOnlyShort allowance →
        TokenRun (soundPool poseidon self tokenAddress denomination) code
          calls received world →
        (∀ call,
          call ∈ withdrawCalls world.receipts →
          call.proof.noteCommitment poseidon ≠ zeroLeaf.toFr) →
        NoCollision poseidon (UsedPair poseidon world.receipts) →
        (withdrawCalls world.receipts).length ≤
            ((leavesOf world.receipts).map U256.toFr).dedup.length ∧
          ∀ (note : Note) (index count : ℕ),
            NoCollision poseidon
              (fun pair =>
                pair = note.pair ∨
                  UsedPair poseidon world.receipts pair) →
            note.DepositedAt poseidon (leavesOf world.receipts) index →
            index < count →
            world.pool.merkleTree.isKnownRoot
                (rootAfter (sharedHash poseidon)
                  (leavesOf world.receipts) count) =
              true →
            world.pool.nullifiers (note.nullifierHash poseidon) =
              false →
            ∀ (recipient relayer : ContractAddress) (fee refund : U256),
              fee < denomination →
              fee.toNat < bn254Prime →
              refund.toNat < bn254Prime →
              RedeemableOnce
                (soundPool poseidon self tokenAddress denomination) code
                world
                (honestCall poseidon (leavesOf world.receipts) count
                  index note recipient relayer fee refund) := by
  constructor
  · intro Proof Token deployment token codes world
    exact
      ⟨deployment.run_getRoot token codes,
        fun external call =>
          ⟨deployment.deposit_completes_iff external world call,
            deployment.deposit_withCommitment_iff external world call⟩⟩
  · intro Token code allowance poseidon self tokenAddress denomination calls
      received world exact revertsOnlyShort run notZeroLeaf noCollision
    have backed := run.backed notZeroLeaf noCollision
    refine ⟨backed.withdrawals_le_residues noCollision, ?_⟩
    intro note index count noteCollision deposited counted knownRoot unspent
      recipient relayer fee refund feeBelow feeInField refundInField
    apply run.redeemableOnce exact revertsOnlyShort
    · exact
        run.honestCall_withdrawable recipient relayer deposited counted
          knownRoot unspent feeBelow feeInField refundInField
    · exact
        run.denomination_le_balance exact backed noteCollision deposited
          unspent

/-- The first deposit's note is redeemable once. -/
theorem redeemable_firstDeposit :
    RedeemableOnce (soundPool successor 1 2 1) ledgerToken secondWorld
      (honestCall successor [firstDeposit.commitment] 1 0 firstNote 4 5
        0 0) := by
  obtain ⟨calls, run⟩ := secondWorld_run
  have noWithdrawal :
      ∀ call,
        call ∈ withdrawCalls secondWorld.receipts →
        call.proof.noteCommitment successor ≠ zeroLeaf.toFr := by
    intro call member
    cases member
  have redeemable :=
    deposits_redeemable.2 ledgerToken_exact
      (ledgerToken_revertsOnlyShort fun _ _ _ => 0) run noWithdrawal
      (noCollision_first.mono fun pair used => Or.inr used)
  exact
    redeemable.2 firstNote 0 1 noCollision_first firstNote_depositedAt
      Nat.one_pos isKnownRoot_first rfl 4 5 0 0 (by decide) (by decide)
      (by decide)

end Redeemable

section Repeated

/-- The deposit of the scalar prime itself. -/
def primeDeposit : DepositCall where
  caller := 3
  blockTimestamp := 0
  commitment := BitVec.ofNat 256 bn254Prime

/-- The pool as written, of denomination one, over any sponge. -/
def repeatedPool
    (poseidonHashSpan : List Felt252 → Felt252) :
    Deployment Groth16Proof :=
  ghostPool poseidonHashSpan 1 2 1

variable
    {poseidonHashSpan : List Felt252 → Felt252}
    {calls :
      List
        (World Groth16Proof (ContractAddress → ℕ) ×
          Entry Groth16Proof)}
    {received : ℕ}
    {world : World Groth16Proof (ContractAddress → ℕ)}

/-- With room and a token left, the deposit of the prime completes. -/
theorem primeDeposit_run
    (run :
      TokenRun (repeatedPool poseidonHashSpan) ledgerToken calls received
        world)
    (room : (leavesOf world.receipts).length < 2 ^ levels)
    (funded : 1 ≤ world.token 3) :
    TokenRun (repeatedPool poseidonHashSpan) ledgerToken
      (calls ++ [(world, .deposit primeDeposit)]) received
      ((world.setToken
        (Transfers.moved 3 1 1 world.token)).completeDeposit
          (repeatedPool poseidonHashSpan).hash primeDeposit) := by
  have outside : (3 : ContractAddress) ≠ 1 := by
    decide
  have sameDenomination : world.pool.denomination = 1 :=
    run.denomination
  have executed :
      ledgerToken.execute 1
          (.transferFrom 3 1 world.pool.denomination) world.token =
        .ok true (Transfers.moved 3 1 1 world.token) := by
    rw [sameDenomination]
    exact ledgerToken_execute funded
  have completed :
      (repeatedPool poseidonHashSpan).call (ledgerToken.external 1)
          (.deposit primeDeposit) world =
        .ok ()
          ((world.setToken
            (Transfers.moved 3 1 1 world.token)).completeDeposit
              (repeatedPool poseidonHashSpan).hash primeDeposit) :=
    Deployment.call_deposit_eq_ok.mpr
      ⟨true, _, executed, run.ledger.tracks.hasRoom room, rfl⟩
  have extended := TokenRun.called run (.deposit primeDeposit) outside
  rw [Deployment.transaction_of_ok completed] at extended
  exact extended

/--
The prime is deposited twice, whatever the sponge: neither range nor novelty
is checked.
-/
theorem prime_deposited_twice :
    bn254Prime ≤ primeDeposit.commitment.toNat ∧
      ∀ poseidonHashSpan : List Felt252 → Felt252,
        ∃ calls received world,
          TokenRun (repeatedPool poseidonHashSpan) ledgerToken calls
              received world ∧
            leavesOf world.receipts =
              [primeDeposit.commitment, primeDeposit.commitment] ∧
            ¬ (leavesOf world.receipts).Nodup := by
  refine ⟨by decide, ?_⟩
  intro poseidonHashSpan
  let holdings : ContractAddress → ℕ := Function.update (fun _ => 0) 3 2
  have start :
      TokenRun (repeatedPool poseidonHashSpan) ledgerToken []
        (ledgerToken.balanceOf holdings 1)
        ((repeatedPool poseidonHashSpan).deployed holdings) :=
    TokenRun.deployed holdings
  have twoHeld : 1 ≤ holdings 3 := by
    decide
  have oneHeld : 1 ≤ Transfers.moved 3 1 1 holdings 3 := by
    decide
  have once := primeDeposit_run start (Nat.two_pow_pos levels) twoHeld
  have twice :=
    primeDeposit_run once (Nat.one_lt_two_pow (by decide)) oneHeld
  refine ⟨_, _, _, twice, rfl, ?_⟩
  exact fun nodup => (List.nodup_cons.mp nodup).1 (List.mem_singleton_self _)

end Repeated

end StarkCash.Cairo
