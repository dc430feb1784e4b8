import StarkCash.CairoTreeInvariant
import StarkCash.GhostPool

namespace StarkCash.Cairo

/-!
# Outcomes of a pool call

What a completed `deposit` and a completed `withdraw` went through, and when a
call completes, with the external calls left open.
-/

section Outcomes

variable
    {Proof Token : Type}
    {hash : U256 → U256 → U256}
    {verdict : Proof → List U256 → Bool}
    {self : ContractAddress}
    {external : External Proof Token}
    {before after : World Proof Token}

/-- The event of inserting a leaf into a component with room. -/
def insertedEvent
    (hash : U256 → U256 → U256)
    (leaf : U256)
    (tree : TreeStorage) : LeafInserted where
  leaf := leaf
  index := tree.nextIndex
  root := (insertLoop hash leaf tree).currentHash

/-- The world after the tree insert and the two events of a deposit. -/
def World.deposited
    (hash : U256 → U256 → U256)
    (call : DepositCall)
    (world : World Proof Token) : World Proof Token :=
  let tree := world.pool.merkleTree
  { world with
    pool :=
      { world.pool with
        merkleTree := inserted hash call.commitment tree }
    events :=
      world.events ++
        [.merkleTreeEvent (insertedEvent hash call.commitment tree),
          .deposit call.commitment tree.nextIndex call.blockTimestamp] }

/-- An insert inside the pool succeeds exactly if there is room. -/
theorem onMerkleTree_insert_eq_ok
    {leaf root : U256} :
    onMerkleTree (TreeStorage.insert hash leaf) before = .ok root after ↔
      before.pool.merkleTree.nextIndex < 2 ^ levels ∧
        (insertLoop hash leaf before.pool.merkleTree).currentHash =
          root ∧
        before.withTree
            { storage := inserted hash leaf before.pool.merkleTree
              emitted :=
                [insertedEvent hash leaf before.pool.merkleTree] } =
          after := by
  let component : ComponentState :=
    { storage := before.pool.merkleTree, emitted := [] }
  by_cases room : before.pool.merkleTree.nextIndex < 2 ^ levels
  · have inserting :
        TreeStorage.insert hash leaf component = _ :=
      insert_of_room room
    unfold onMerkleTree
    rw [inserting]
    simp only [EStateM.Result.ok.injEq, room, true_and, component,
      List.nil_append, insertedEvent]
  · have failing :
        TreeStorage.insert hash leaf component = _ :=
      insert_of_full (Nat.le_of_not_lt room)
    unfold onMerkleTree
    rw [failing]
    simp [room]

/-- After an insert the index before the next one is the leaf's index. -/
theorem subU32_inserted
    (hash : U256 → U256 → U256)
    (leaf : U256)
    (tree : TreeStorage) :
    subU32 (inserted hash leaf tree).nextIndex 1 = .ok tree.nextIndex := by
  have nextIndex :
      (inserted hash leaf tree).nextIndex = tree.nextIndex + 1 := rfl
  rw [nextIndex, subU32, if_pos (Nat.le_add_left 1 _),
    Nat.add_sub_cancel]

/-- The insert and the event of a deposit, as one update. -/
theorem emit_withTree
    (call : DepositCall)
    (world : World Proof Token) :
    (world.withTree
        { storage :=
            inserted hash call.commitment world.pool.merkleTree
          emitted :=
            [insertedEvent hash call.commitment
              world.pool.merkleTree] }).emit
        (.deposit call.commitment world.pool.merkleTree.nextIndex
          call.blockTimestamp) =
      world.deposited hash call := by
  simp [World.emit, World.withTree, World.deposited]

/--
A deposit completes exactly if its external call returns, whatever it answers,
and leaves room in the tree; it then inserts its commitment.
-/
theorem deposit_eq_ok
    {call : DepositCall} :
    deposit hash self external call before = .ok () after ↔
      ∃ answer paid,
        external before.pool.token
            (.transferFrom call.caller self before.pool.denomination)
            before = .ok answer paid ∧
          paid.pool.merkleTree.nextIndex < 2 ^ levels ∧
          after = paid.deposited hash call := by
  simp only [deposit, Imperative.get_bind, Imperative.bind_eq_ok,
    Imperative.liftExcept_eq_ok, Imperative.modify_eq_ok,
    onMerkleTree_insert_eq_ok]
  constructor
  · rintro ⟨answer, paid, answered, _, _, ⟨room, _, rfl⟩, leafIndex, _,
      ⟨indexEq, rfl⟩, rfl⟩
    refine ⟨answer, paid, answered, room, ?_⟩
    have indexIs : leafIndex = paid.pool.merkleTree.nextIndex := by
      have subtracted :=
        subU32_inserted hash call.commitment
          paid.pool.merkleTree
      exact Except.ok.inj (indexEq.symm.trans subtracted)
    rw [indexIs]
    exact emit_withTree call paid
  · rintro ⟨answer, paid, answered, room, rfl⟩
    exact
      ⟨answer, paid, answered, _, _, ⟨room, rfl, rfl⟩,
        paid.pool.merkleTree.nextIndex, _,
        ⟨subU32_inserted hash call.commitment paid.pool.merkleTree, rfl⟩,
        emit_withTree call paid⟩

/--
The payments of a withdrawal returned, whatever they answered: the payout to
the recipient, and the fee to the relayer if there is one.
-/
def PaysOut
    (external : External Proof Token)
    (call : WithdrawCall Proof)
    (amount : U256)
    (before after : World Proof Token) : Prop :=
  ∃ answer first,
    external before.pool.token
        (.transfer call.recipient (amount - call.fee)) before =
          .ok answer first ∧
      if 0 < call.fee then
        ∃ feeAnswer,
          external first.pool.token (.transfer call.relayer call.fee)
            first = .ok feeAnswer after
      else
        first = after

/-- The checks that precede the payments of a withdrawal. -/
structure Withdrawable
    (verdict : Proof → List U256 → Bool)
    (call : WithdrawCall Proof)
    (world : World Proof Token) : Prop where
  unspent :
    world.pool.nullifiers call.nullifierHash = false
  knownRoot :
    world.pool.merkleTree.isKnownRoot call.root = true
  verified :
    verdict call.proof call.publicInputs = true
  feeBelow :
    call.fee < world.pool.denomination

/-- The event of a completed withdrawal. -/
def WithdrawCall.event (call : WithdrawCall Proof) : Event :=
  .withdraw call.recipient call.nullifierHash call.relayer call.fee

/-- Below the amount the fee is subtracted without overflow. -/
theorem subU256_of_lt
    {amount fee : U256}
    (feeBelow : fee < amount) :
    subU256 amount fee = .ok (amount - fee) := by
  have inRange : fee ≤ amount := BitVec.le_of_lt feeBelow
  rw [subU256, if_pos inRange]

/-- The relayer is paid only if there is a fee. -/
theorem payRelayer_eq_ok
    {call : WithdrawCall Proof}
    {answer : Unit} :
    payRelayer external call before = .ok answer after ↔
      if 0 < call.fee then
        ∃ feeAnswer,
          external before.pool.token (.transfer call.relayer call.fee)
            before = .ok feeAnswer after
      else
        before = after := by
  by_cases hasFee : 0 < call.fee
  · simp only [payRelayer, hasFee, ↓reduceIte, Imperative.get_bind,
      Imperative.bind_eq_ok, Imperative.pure_eq_ok]
    constructor
    · rintro ⟨feeAnswer, _, paid, _, rfl⟩
      exact ⟨feeAnswer, paid⟩
    · rintro ⟨feeAnswer, paid⟩
      exact ⟨feeAnswer, _, paid, trivial, rfl⟩
  · simp only [payRelayer, hasFee, ↓reduceIte, Imperative.pure_eq_ok,
      true_and]

/--
A withdrawal completes exactly if its checks pass and its payments return,
whatever they answer, from the world with the nullifier marked.
-/
theorem withdraw_eq_ok
    {call : WithdrawCall Proof} :
    withdraw verdict external call before = .ok () after ↔
      Withdrawable verdict call before ∧
        ∃ paid,
          PaysOut external call before.pool.denomination
              (before.markSpent call.nullifierHash) paid ∧
            after = paid.emit call.event := by
  simp only [withdraw, verifyZkProof, Imperative.get_bind,
    Imperative.modify_bind, Imperative.require_bind_eq_ok,
    Imperative.liftExcept_bind_eq_ok]
  simp only [Imperative.bind_eq_ok, Imperative.modify_eq_ok,
    payRelayer_eq_ok]
  constructor
  · rintro ⟨unspent, knownRoot, verified, feeBelow, payout, subtracted,
      answer, first, paidFirst, _, paid, paidFee, rfl⟩
    have feeBelowAmount : call.fee < before.pool.denomination :=
      of_decide_eq_true feeBelow
    have payoutEq : payout = before.pool.denomination - call.fee :=
      Except.ok.inj
        (subtracted.symm.trans (subU256_of_lt feeBelowAmount))
    subst payoutEq
    refine
      ⟨⟨?_, knownRoot, verified, feeBelowAmount⟩, paid,
        ⟨answer, first, paidFirst, paidFee⟩, rfl⟩
    simpa using unspent
  · rintro ⟨⟨unspent, knownRoot, verified, feeBelow⟩, paid,
      ⟨answer, first, paidFirst, paidFee⟩, rfl⟩
    have isUnspent :
        (!before.pool.nullifiers call.nullifierHash) = true := by
      simp [unspent]
    exact
      ⟨isUnspent, knownRoot, verified, decide_eq_true feeBelow, _,
        subU256_of_lt feeBelow, answer, first, paidFirst, (), paid,
        paidFee, rfl⟩

/-- Paying the relayer panics only inside the call of the token. -/
theorem payRelayer_panic
    {call : WithdrawCall Proof}
    {panic : Panic}
    (failed : payRelayer external call before = .error panic after) :
    ∃ address request world failedWorld,
      external address request world = .error panic failedWorld := by
  by_cases hasFee : 0 < call.fee
  · simp only [payRelayer, hasFee, ↓reduceIte, Imperative.get_bind,
      Imperative.bind_eq_error] at failed
    rcases failed with tokenFailed | ⟨_, _, _, ended⟩
    · exact ⟨_, _, _, _, tokenFailed⟩
    · cases ended
  · simp only [payRelayer, hasFee, ↓reduceIte] at failed
    cases failed

/-- The panics of a withdrawal's own checks. -/
def withdrawPanics : List Panic :=
  [⟨"Nullifier already spent"⟩, ⟨"Unknown Merkle root"⟩,
    ⟨"Invalid ZK proof"⟩, ⟨"Fee exceeds denomination"⟩]

/--
A withdrawal panics only at one of its checks or inside a call of the token;
its subtraction, after the fee check, never does.
-/
theorem withdraw_panic
    {call : WithdrawCall Proof}
    {panic : Panic}
    (failed :
      withdraw verdict external call before = .error panic after) :
    panic ∈ withdrawPanics ∨
      ∃ address request world failedWorld,
        external address request world = .error panic failedWorld := by
  simp only [withdraw, verifyZkProof, Imperative.get_bind,
    Imperative.modify_bind, Imperative.require_bind_eq_error,
    Imperative.liftExcept_bind_eq_error] at failed
  simp only [Imperative.bind_eq_error, Imperative.modify_ne_error] at failed
  rcases failed with ⟨_, rfl, _⟩ | ⟨_, failed⟩
  · exact Or.inl (by simp [withdrawPanics])
  rcases failed with ⟨_, rfl, _⟩ | ⟨_, failed⟩
  · exact Or.inl (by simp [withdrawPanics])
  rcases failed with ⟨_, rfl, _⟩ | ⟨_, failed⟩
  · exact Or.inl (by simp [withdrawPanics])
  rcases failed with ⟨_, rfl, _⟩ | ⟨feeBelow, failed⟩
  · exact Or.inl (by simp [withdrawPanics])
  right
  have subtracted := subU256_of_lt (of_decide_eq_true feeBelow)
  rcases failed with ⟨overflow, _⟩ | ⟨payout, _, failed⟩
  · exact absurd (subtracted.symm.trans overflow) nofun
  rcases failed with payoutFailed | ⟨_, _, _, feeFailed | ⟨_, _, _, ended⟩⟩
  · exact ⟨_, _, _, _, payoutFailed⟩
  · exact payRelayer_panic feeFailed
  · exact ended.elim

/-- The world after a recorded deposit, from the world with the payment. -/
def World.completeDeposit
    (hash : U256 → U256 → U256)
    (call : DepositCall)
    (world : World Proof Token) : World Proof Token :=
  (world.deposited hash call).record (.deposit call)

/-- The world after a recorded withdrawal, from the world with the payments. -/
def World.completeWithdrawal
    (call : WithdrawCall Proof)
    (world : World Proof Token) : World Proof Token :=
  (world.emit call.event).record (.withdraw call)

/-- A completed deposit entry is a completed deposit, recorded. -/
theorem enter_deposit_eq_ok
    {call : DepositCall} :
    enter hash verdict self external (.deposit call) before = .ok () after ↔
      ∃ answer paid,
        external before.pool.token
            (.transferFrom call.caller self before.pool.denomination)
            before = .ok answer paid ∧
          paid.pool.merkleTree.nextIndex < 2 ^ levels ∧
          after = paid.completeDeposit hash call := by
  simp only [enter, Imperative.bind_eq_ok, Imperative.modify_eq_ok]
  constructor
  · rintro ⟨_, done, completed, rfl⟩
    obtain ⟨answer, paid, answered, room, rfl⟩ :=
      deposit_eq_ok.mp completed
    exact ⟨answer, paid, answered, room, rfl⟩
  · rintro ⟨answer, paid, answered, room, rfl⟩
    exact
      ⟨(), _, deposit_eq_ok.mpr ⟨answer, paid, answered, room, rfl⟩, rfl⟩

/-- A completed withdraw entry is a completed withdrawal, recorded. -/
theorem enter_withdraw_eq_ok
    {call : WithdrawCall Proof} :
    enter hash verdict self external (.withdraw call) before = .ok () after ↔
      Withdrawable verdict call before ∧
        ∃ paid,
          PaysOut external call before.pool.denomination
              (before.markSpent call.nullifierHash) paid ∧
            after = paid.completeWithdrawal call := by
  simp only [enter, Imperative.bind_eq_ok, Imperative.modify_eq_ok]
  constructor
  · rintro ⟨_, done, completed, rfl⟩
    obtain ⟨withdrawable, paid, paysOut, rfl⟩ :=
      withdraw_eq_ok.mp completed
    exact ⟨withdrawable, paid, paysOut, rfl⟩
  · rintro ⟨withdrawable, paid, paysOut, rfl⟩
    exact
      ⟨(), _, withdraw_eq_ok.mpr ⟨withdrawable, paid, paysOut, rfl⟩, rfl⟩

end Outcomes

end StarkCash.Cairo
