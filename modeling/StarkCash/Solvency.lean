import StarkCash.SoundVerifier

namespace StarkCash.Cairo

/-!
# Solvency for honest notes

With a sound verifier the completed withdrawals open different deposited
leaves, so that they are no more than the deposits and the balance covers what
is left.  A deposited note whose nullifier hash is unspent leaves one deposit
over: its withdrawal finds a full denomination and completes.
-/

open PerfectTree

section Notes

variable {poseidon : List Fr → Fr}

/-- Among used pairs, equal hashes have equal arguments. -/
theorem NoCollision.eq
    {used : Fr × Fr → Prop}
    {first second : Fr × Fr}
    (noCollision : NoCollision poseidon used)
    (firstUsed : used first)
    (secondUsed : used second)
    (sameHash :
      Circuit.hashPair poseidon first.1 first.2 =
        Circuit.hashPair poseidon second.1 second.2) :
    first = second := by
  by_contra different
  exact
    noCollision first second firstUsed secondUsed ⟨different, sameHash⟩

/-- Fewer pairs collide less. -/
theorem NoCollision.mono
    {used used' : Fr × Fr → Prop}
    (noCollision : NoCollision poseidon used)
    (fewer : ∀ pair, used' pair → used pair) :
    NoCollision poseidon used' := by
  intro first second firstUsed secondUsed
  exact noCollision first second (fewer _ firstUsed) (fewer _ secondUsed)

/-- An accepted call carries the nullifier hash of its note. -/
theorem SoundlyAccepts.nullifierHash_eq
    {call : WithdrawCall (Circuit.Withdraw levels)}
    (accepts : SoundlyAccepts poseidon call.proof call.publicInputs) :
    call.nullifierHash = (noteOf call.proof).nullifierHash poseidon := by
  apply U256.toFr_injective_of_lt accepts.nullifierHash_lt (U256.ofFr_lt _)
  rw [accepts.nullifierHash, U256.toFr_ofFr]
  rfl

/-- The hashed pair determines its note. -/
theorem Note.pair_injective :
    Function.Injective Note.pair := by
  intro first second samePair
  cases first
  cases second
  cases samePair
  rfl

/-- Two notes deposited at one position are equal, without collisions. -/
theorem Note.DepositedAt.note_eq
    {leaves : List U256}
    {index : ℕ}
    {first second : Note}
    {used : Fr × Fr → Prop}
    (noCollision : NoCollision poseidon used)
    (firstUsed : used first.pair)
    (secondUsed : used second.pair)
    (firstDeposited : first.DepositedAt poseidon leaves index)
    (secondDeposited : second.DepositedAt poseidon leaves index) :
    first = second := by
  obtain ⟨leaf, present, leafEq⟩ := firstDeposited
  obtain ⟨other, otherPresent, otherEq⟩ := secondDeposited
  rw [present] at otherPresent
  obtain rfl := Option.some.inj otherPresent
  exact
    Note.pair_injective
      (noCollision.eq firstUsed secondUsed (leafEq.symm.trans otherEq))

end Notes

section Injection

variable
    {poseidon : List Fr → Fr}
    {receipts : List (Entry (Circuit.Withdraw levels))}

/-- The leaf indices that the completed withdrawals open. -/
def openedIndices
    (receipts : List (Entry (Circuit.Withdraw levels))) : List ℕ :=
  (withdrawCalls receipts).map fun call => call.proof.leafIndex

/-- The completed withdrawals were accepted, and open deposited leaves. -/
structure Backed
    (poseidon : List Fr → Fr)
    (receipts : List (Entry (Circuit.Withdraw levels))) : Prop where
  accepts :
    ∀ call,
      call ∈ withdrawCalls receipts →
      SoundlyAccepts poseidon call.proof call.publicInputs
  deposited :
    ∀ call,
      call ∈ withdrawCalls receipts →
      (noteOf call.proof).DepositedAt poseidon (leavesOf receipts)
        call.proof.leafIndex
  distinct :
    (spentBy receipts).Nodup

namespace Backed

/-- Different completed withdrawals open different notes. -/
theorem notes_pairwise
    (backed : Backed poseidon receipts) :
    (withdrawCalls receipts).Pairwise fun first second =>
      noteOf first.proof ≠ noteOf second.proof := by
  have distinct :
      (withdrawCalls receipts).Pairwise fun first second =>
        first.nullifierHash ≠ second.nullifierHash :=
    List.pairwise_map.mp backed.distinct
  refine distinct.imp_of_mem ?_
  intro first second firstMember secondMember different sameNote
  apply different
  rw [(backed.accepts first firstMember).nullifierHash_eq,
    (backed.accepts second secondMember).nullifierHash_eq, sameNote]

/-- Different completed withdrawals open different leaves. -/
theorem openedIndices_nodup
    (backed : Backed poseidon receipts)
    (noCollision : NoCollision poseidon (UsedPair poseidon receipts)) :
    (openedIndices receipts).Nodup := by
  refine List.pairwise_map.mpr (backed.notes_pairwise.imp_of_mem ?_)
  intro first second firstMember secondMember different sameIndex
  have firstDeposited := backed.deposited first firstMember
  have secondDeposited := backed.deposited second secondMember
  rw [← sameIndex] at secondDeposited
  apply different
  exact
    firstDeposited.note_eq noCollision
      (UsedPair.commitment first firstMember)
      (UsedPair.commitment second secondMember) secondDeposited

/-- Every opened leaf was deposited. -/
theorem openedIndices_subset
    (backed : Backed poseidon receipts) :
    openedIndices receipts ⊆ List.range (leavesOf receipts).length := by
  intro index opened
  obtain ⟨call, member, rfl⟩ := List.mem_map.mp opened
  obtain ⟨leaf, present, _⟩ := backed.deposited call member
  exact List.mem_range.mpr (List.getElem?_eq_some_iff.mp present).1

/-- The withdrawals are no more than the deposits. -/
theorem withdrawals_le
    (backed : Backed poseidon receipts)
    (noCollision : NoCollision poseidon (UsedPair poseidon receipts)) :
    (withdrawCalls receipts).length ≤ (depositCalls receipts).length := by
  have counted :=
    (backed.openedIndices_nodup noCollision).length_le_of_subset
      backed.openedIndices_subset
  simpa [openedIndices, leavesOf] using counted

/-- A deposited note with an unspent nullifier hash was not opened. -/
theorem not_opened
    {note : Note}
    {index : ℕ}
    (backed : Backed poseidon receipts)
    (noCollision :
      NoCollision poseidon fun pair =>
        pair = note.pair ∨ UsedPair poseidon receipts pair)
    (deposited : note.DepositedAt poseidon (leavesOf receipts) index)
    (unspent : note.nullifierHash poseidon ∉ spentBy receipts) :
    index ∉ openedIndices receipts := by
  intro opened
  obtain ⟨call, member, rfl⟩ := List.mem_map.mp opened
  have sameNote : noteOf call.proof = note :=
    (backed.deposited call member).note_eq noCollision
      (Or.inr (UsedPair.commitment call member)) (Or.inl rfl) deposited
  apply unspent
  rw [← sameNote, ← (backed.accepts call member).nullifierHash_eq]
  exact List.mem_map_of_mem member

/-- An unspent deposited note leaves one deposit over. -/
theorem withdrawals_lt
    {note : Note}
    {index : ℕ}
    (backed : Backed poseidon receipts)
    (noCollision :
      NoCollision poseidon fun pair =>
        pair = note.pair ∨ UsedPair poseidon receipts pair)
    (deposited : note.DepositedAt poseidon (leavesOf receipts) index)
    (unspent : note.nullifierHash poseidon ∉ spentBy receipts) :
    (withdrawCalls receipts).length < (depositCalls receipts).length := by
  have notOpened := backed.not_opened noCollision deposited unspent
  have nodup :=
    backed.openedIndices_nodup
      (noCollision.mono fun pair used => Or.inr used)
  obtain ⟨leaf, present, _⟩ := deposited
  have inRange : index ∈ List.range (leavesOf receipts).length :=
    List.mem_range.mpr (List.getElem?_eq_some_iff.mp present).1
  have counted :=
    (List.nodup_cons.mpr ⟨notOpened, nodup⟩).length_le_of_subset
      (List.cons_subset.mpr ⟨inRange, backed.openedIndices_subset⟩)
  simpa [openedIndices, leavesOf] using counted

end Backed

end Injection

section Honest

variable
    {poseidon : List Fr → Fr}
    {leaves : List U256}
    {count index : ℕ}
    {note : Note}

/-- The circuit inputs of a note against the root of a prefix. -/
def honestInputs
    (poseidon : List Fr → Fr)
    (leaves : List U256)
    (count index : ℕ)
    (note : Note)
    (recipient relayer : ContractAddress)
    (fee refund : U256) : Circuit.WithdrawInputs levels where
  root := (rootAfter (sharedHash poseidon) leaves count).toFr
  nullifierHash := poseidon [note.nullifier]
  recipient := (U256.ofAddress recipient).toFr
  relayer := (U256.ofAddress relayer).toFr
  fee := fee.toFr
  refund := refund.toFr
  secret := note.secret
  nullifier := note.nullifier
  pathElements := fun i =>
    node (Circuit.hashPair poseidon) (fieldLeaves leaves count) i
      (siblingIndex index i)
  pathIndices := fun i => ((index / 2 ^ i.val % 2 : ℕ) : Fr)

/-- The withdrawal of a note against the root of a prefix. -/
def honestCall
    (poseidon : List Fr → Fr)
    (leaves : List U256)
    (count index : ℕ)
    (note : Note)
    (recipient relayer : ContractAddress)
    (fee refund : U256) : WithdrawCall (Circuit.Withdraw levels) where
  proof :=
    Circuit.Withdraw.compute poseidon
      (honestInputs poseidon leaves count index note recipient relayer
        fee refund)
  root := rootAfter (sharedHash poseidon) leaves count
  nullifierHash := note.nullifierHash poseidon
  recipient := recipient
  relayer := relayer
  fee := fee
  refund := refund

/-- An address is below the scalar prime. -/
theorem toNat_ofAddress_lt
    (address : ContractAddress) :
    (U256.ofAddress address).toNat < bn254Prime := by
  have inField : 2 ^ 251 ≤ bn254Prime := by
    decide
  rw [U256.ofAddress, BitVec.toNat_ofNat]
  exact
    (Nat.mod_le _ _).trans_lt (address.isLt.trans_le inField)

/-- The honest withdrawal of a deposited note is accepted. -/
theorem honestCall_accepted
    {recipient relayer : ContractAddress}
    {fee refund : U256}
    (inTree : index < 2 ^ levels)
    (deposited : note.DepositedAt poseidon leaves index)
    (counted : index < count)
    (feeBelow : fee.toNat < bn254Prime)
    (refundBelow : refund.toNat < bn254Prime) :
    let call :=
      honestCall poseidon leaves count index note recipient relayer fee
        refund
    SoundlyAccepts poseidon call.proof call.publicInputs := by
  intro call
  obtain ⟨leaf, present, leafEq⟩ := deposited
  constructor
  · intro input member
    simp only [WithdrawCall.publicInputs, List.mem_cons,
      List.not_mem_nil, or_false] at member
    rcases member with rfl | rfl | rfl | rfl | rfl | rfl
    · exact rootAfter_lt poseidon leaves count
    · exact U256.ofFr_lt _
    · exact toNat_ofAddress_lt recipient
    · exact toNat_ofAddress_lt relayer
    · exact feeBelow
    · exact refundBelow
  · have nullifierHash :
        (note.nullifierHash poseidon).toFr =
          poseidon [note.nullifier] :=
      U256.toFr_ofFr _
    change
      [_, (note.nullifierHash poseidon).toFr, _, _, _, _] =
        publicSignals call.proof
    rw [nullifierHash]
    rfl
  · have isLeaf :
        call.proof.noteCommitment poseidon =
          fieldLeaves leaves count index := by
      rw [fieldLeaves_of_lt present counted, leafEq]
      rfl
    have onRoot :
        call.proof.root =
          node (Circuit.hashPair poseidon) (fieldLeaves leaves count)
            levels 0 :=
      toFr_rootAfter poseidon leaves count
    apply Circuit.Withdraw.compute_constraints
    exact
      Circuit.WithdrawInputs.opens_of_siblings inTree rfl isLeaf onRoot
        (fun _ => rfl) (fun _ => rfl)

end Honest

section Runs

variable
    {Token : Type}
    {code : TokenCode Token}
    {allowance : Token → ContractAddress → ContractAddress → ℕ}
    {poseidon : List Fr → Fr}
    {self tokenAddress : ContractAddress}
    {denomination : U256}
    {calls :
      List
        (World (Circuit.Withdraw levels) Token ×
          Entry (Circuit.Withdraw levels))}
    {received : ℕ}
    {world : World (Circuit.Withdraw levels) Token}

/-- Without collisions the withdrawals of a run are backed by deposits. -/
theorem TokenRun.backed
    (run :
      TokenRun (soundPool poseidon self tokenAddress denomination) code
        calls received world)
    (notZeroLeaf :
      ∀ call,
        call ∈ withdrawCalls world.receipts →
        call.proof.noteCommitment poseidon ≠ zeroLeaf.toFr)
    (noCollision :
      NoCollision poseidon (UsedPair poseidon world.receipts)) :
    Backed poseidon world.receipts := by
  constructor
  · intro call member
    exact soundVerdict_eq_true.mp (run.accepted call member).verified
  · intro call member
    exact
      (run.accepted call member).noteDeposited member
        (notZeroLeaf call member) noCollision
  · exact run.ledger.distinct

/-- The balance covers the deposits that were not withdrawn. -/
theorem TokenRun.balance_covers
    {Proof : Type}
    {deployment : Deployment Proof}
    {calls : List (World Proof Token × Entry Proof)}
    {world : World Proof Token}
    (exact : code.Exact)
    (run : TokenRun deployment code calls received world)
    (withdrawalsLe :
      (withdrawCalls world.receipts).length ≤
        (depositCalls world.receipts).length) :
    deployment.denomination.toNat *
        ((depositCalls world.receipts).length -
          (withdrawCalls world.receipts).length) ≤
      code.balanceOf world.token deployment.self := by
  have balance := run.balance exact
  rw [accounted] at balance
  zify [withdrawalsLe]
  rw [balance, mul_sub]
  have notNegative :
      (0 : ℤ) ≤
        (received +
          paidTo deployment.self deployment.denomination
            world.receipts : ℕ) :=
    Int.natCast_nonneg _
  push_cast at notNegative
  linarith

/-- An unspent deposited note finds a full denomination in the pool. -/
theorem TokenRun.denomination_le_balance
    {note : Note}
    {index : ℕ}
    (exact : code.Exact)
    (run :
      TokenRun (soundPool poseidon self tokenAddress denomination) code
        calls received world)
    (backed : Backed poseidon world.receipts)
    (noCollision :
      NoCollision poseidon fun pair =>
        pair = note.pair ∨ UsedPair poseidon world.receipts pair)
    (deposited :
      note.DepositedAt poseidon (leavesOf world.receipts) index)
    (unspent :
      world.pool.nullifiers (note.nullifierHash poseidon) = false) :
    denomination.toNat ≤ code.balanceOf world.token self := by
  have notSpent :
      note.nullifierHash poseidon ∉ spentBy world.receipts := by
    rw [← run.ledger.spent, unspent]
    exact Bool.false_ne_true
  have fewer := backed.withdrawals_lt noCollision deposited notSpent
  have oneLeft :
      1 ≤
        (depositCalls world.receipts).length -
          (withdrawCalls world.receipts).length :=
    Nat.sub_pos_of_lt fewer
  have covered := run.balance_covers exact (Nat.le_of_lt fewer)
  exact (Nat.le_mul_of_pos_right _ oneLeft).trans covered

/-- The honest withdrawal of an unspent deposited note passes its checks. -/
theorem TokenRun.honestCall_withdrawable
    {note : Note}
    {index count : ℕ}
    {fee refund : U256}
    (recipient relayer : ContractAddress)
    (run :
      TokenRun (soundPool poseidon self tokenAddress denomination) code
        calls received world)
    (deposited :
      note.DepositedAt poseidon (leavesOf world.receipts) index)
    (counted : index < count)
    (knownRoot :
      world.pool.merkleTree.isKnownRoot
          (rootAfter (sharedHash poseidon) (leavesOf world.receipts)
            count) = true)
    (unspent :
      world.pool.nullifiers (note.nullifierHash poseidon) = false)
    (feeBelow : fee < denomination)
    (feeInField : fee.toNat < bn254Prime)
    (refundInField : refund.toNat < bn254Prime) :
    Withdrawable
      (soundPool poseidon self tokenAddress denomination).verdict
      (honestCall poseidon (leavesOf world.receipts) count index note
        recipient relayer fee refund) world := by
  have sameDenomination : world.pool.denomination = denomination :=
    run.denomination
  have ⟨leaf, present, _⟩ := deposited
  have inTree : index < 2 ^ levels :=
    (List.getElem?_eq_some_iff.mp present).1.trans_le
      run.ledger.tracks.capacity
  constructor
  · exact unspent
  · exact knownRoot
  · exact
      soundVerdict_eq_true.mpr
        (honestCall_accepted inTree deposited counted feeInField
          refundInField)
  · rw [sameDenomination]
    exact feeBelow

/--
With a sound verifier the pool stays solvent: in every run without collisions
among its hash inputs in which no accepted assignment opens the padding leaf,
the withdrawals are no more than the deposits and the balance covers the rest;
and every deposited note with an unspent nullifier hash can be withdrawn
against any known root taken after its deposit, and is paid in full.
-/
theorem TokenRun.solvent
    (exact : code.Exact)
    (revertsOnlyShort : code.RevertsOnlyShort allowance)
    (run :
      TokenRun (soundPool poseidon self tokenAddress denomination) code
        calls received world)
    (notZeroLeaf :
      ∀ call,
        call ∈ withdrawCalls world.receipts →
        call.proof.noteCommitment poseidon ≠ zeroLeaf.toFr)
    (noCollision :
      NoCollision poseidon (UsedPair poseidon world.receipts)) :
    (withdrawCalls world.receipts).length ≤
        (depositCalls world.receipts).length ∧
      denomination.toNat *
          ((depositCalls world.receipts).length -
            (withdrawCalls world.receipts).length) ≤
        code.balanceOf world.token self ∧
      ∀ (note : Note) (index count : ℕ),
        NoCollision poseidon
          (fun pair =>
            pair = note.pair ∨
              UsedPair poseidon world.receipts pair) →
        note.DepositedAt poseidon (leavesOf world.receipts) index →
        index < count →
        world.pool.merkleTree.isKnownRoot
            (rootAfter (sharedHash poseidon) (leavesOf world.receipts)
              count) = true →
        world.pool.nullifiers (note.nullifierHash poseidon) = false →
        ∀ (recipient relayer : ContractAddress) (fee refund : U256),
          fee < denomination →
          fee.toNat < bn254Prime →
          refund.toNat < bn254Prime →
          let call :=
            honestCall poseidon (leavesOf world.receipts) count index
              note recipient relayer fee refund
          ∃ after,
            (soundPool poseidon self tokenAddress denomination).call
                  (code.external self) (.withdraw call) world =
                .ok () after ∧
              code.PaidInFull self denomination call world.token
                after.token := by
  have backed := run.backed notZeroLeaf noCollision
  have withdrawalsLe := backed.withdrawals_le noCollision
  refine
    ⟨withdrawalsLe, run.balance_covers exact withdrawalsLe, ?_⟩
  intro note index count noteCollision deposited counted knownRoot
    unspent recipient relayer fee refund feeBelow feeInField refundInField
  have withdrawable :=
    run.honestCall_withdrawable recipient relayer deposited counted
      knownRoot unspent feeBelow feeInField refundInField
  have full :=
    run.denomination_le_balance exact backed noteCollision deposited
      unspent
  exact run.withdraw_completes exact revertsOnlyShort withdrawable full

end Runs

section FirstDeposit

/-- A permutation that adds one to its first input. -/
def successor (inputs : List Fr) : Fr :=
  inputs.headD 0 + 1

/-- Its tree counts the levels above the leftmost leaf. -/
theorem node_successor
    (leaves : ℕ → Fr)
    (level index : ℕ) :
    node (Circuit.hashPair successor) leaves level index =
      leaves (2 ^ level * index) + level := by
  induction level generalizing index with
  | zero =>
      simp [node]
  | succ level inductionHypothesis =>
      have left :
          node (Circuit.hashPair successor) leaves (level + 1) index =
            node (Circuit.hashPair successor) leaves level (2 * index) +
              1 := rfl
      rw [left, inductionHypothesis, pow_succ, Nat.mul_assoc]
      push_cast
      ring

/-- A note whose commitment is a hundred above the padding leaf. -/
def firstNote : Note where
  secret := zeroLeaf.toFr + 99
  nullifier := 0

/-- The deposit of that note. -/
def firstDeposit : DepositCall where
  caller := 3
  blockTimestamp := 0
  commitment := U256.ofFr (zeroLeaf.toFr + 100)

/-- The pool of denomination one, before that deposit. -/
noncomputable def firstWorld :
    World (Circuit.Withdraw levels) (ContractAddress → ℕ) :=
  (soundPool successor 1 2 1).deployed (Function.update (fun _ => 0) 3 1)

/-- The pool after that deposit. -/
noncomputable def secondWorld :
    World (Circuit.Withdraw levels) (ContractAddress → ℕ) :=
  (firstWorld.setToken
    (Transfers.moved 3 1 1 firstWorld.token)).completeDeposit
      (sharedHash successor) firstDeposit

/-- The deposit leads there. -/
theorem secondWorld_run :
    ∃ calls,
      TokenRun (soundPool successor 1 2 1) ledgerToken calls 0
        secondWorld := by
  have start :
      TokenRun (soundPool successor 1 2 1) ledgerToken []
        (ledgerToken.balanceOf firstWorld.token 1) firstWorld :=
    TokenRun.deployed _
  have outside : (3 : ContractAddress) ≠ 1 := by
    decide
  have room := start.ledger.tracks.hasRoom (Nat.two_pow_pos levels)
  have executed :
      ledgerToken.execute 1 (.transferFrom 3 1 1) firstWorld.token =
        .ok true (Transfers.moved 3 1 1 firstWorld.token) :=
    ledgerToken_execute le_rfl
  have completed :
      (soundPool successor 1 2 1).call (ledgerToken.external 1)
          (.deposit firstDeposit) firstWorld = .ok () secondWorld :=
    Deployment.call_deposit_eq_ok.mpr ⟨true, _, executed, room, rfl⟩
  have run := TokenRun.called start (.deposit firstDeposit) outside
  rw [Deployment.transaction_of_ok completed] at run
  exact ⟨_, run⟩

/-- The offset of a position's leaf over the padding leaf. -/
theorem fieldLeaves_first
    (count position : ℕ) :
    ∃ offset,
      fieldLeaves [firstDeposit.commitment] count position =
          zeroLeaf.toFr + (offset : ℕ) ∧
        (offset = 0 ∨ offset = 100 ∧ position = 0) := by
  rcases fieldLeaves_cases [firstDeposit.commitment] count position with
    ⟨leaf, present, leafEq⟩ | isZeroLeaf
  · rw [List.getElem?_singleton] at present
    split at present
    · cases present
      refine ⟨100, ?_, Or.inr ⟨rfl, by assumption⟩⟩
      rw [leafEq, firstDeposit, U256.toFr_ofFr]
      rfl
    · cases present
  · refine ⟨0, ?_, Or.inl rfl⟩
    rw [isZeroLeaf, Nat.cast_zero, add_zero]

/-- The second half of the used pair whose first half has an offset. -/
def partner (offset : ℕ) : Fr :=
  if offset = 99 then 0 else zeroLeaf.toFr + (offset % 100 : ℕ)

/-- The pairs used after the first deposit, and the pair of its note. -/
theorem usedPair_first
    {pair : Fr × Fr}
    (used :
      pair = firstNote.pair ∨
        UsedPair successor secondWorld.receipts pair) :
    ∃ offset,
      offset < 120 ∧
        pair = (zeroLeaf.toFr + (offset : ℕ), partner offset) := by
  rcases used with rfl | used
  · exact ⟨99, by decide, rfl⟩
  · cases used with
    | treeNode count level index counted inTree inLevel =>
        have leaves :
            leavesOf secondWorld.receipts = [firstDeposit.commitment] :=
          rfl
        have small : level < 20 := inTree
        obtain ⟨offset, left, offsetIs⟩ :=
          fieldLeaves_first count (2 ^ level * (2 * index))
        obtain ⟨other, right, otherIs⟩ :=
          fieldLeaves_first count (2 ^ level * (2 * index + 1))
        have notFirst : 2 ^ level * (2 * index + 1) ≠ 0 := by
          positivity
        have otherZero : other = 0 := by
          omega
        refine ⟨offset + level, by omega, ?_⟩
        rw [leaves, nodePair, node_successor, node_successor, left, right,
          otherZero]
        have partnerEq :
            partner (offset + level) = zeroLeaf.toFr + (level : ℕ) := by
          have notNote : offset + level ≠ 99 := by
            omega
          have reduced : (offset + level) % 100 = level := by
            omega
          rw [partner, if_neg notNote, reduced]
        rw [partnerEq]
        push_cast
        simp only [add_assoc, zero_add]
    | pathNode call accepted level =>
        cases accepted
    | commitment call accepted =>
        cases accepted

/-- None of these pairs collide. -/
theorem noCollision_first :
    NoCollision successor fun pair =>
      pair = firstNote.pair ∨
        UsedPair successor secondWorld.receipts pair := by
  intro first second firstUsed secondUsed collides
  obtain ⟨offset, small, rfl⟩ := usedPair_first firstUsed
  obtain ⟨other, otherSmall, rfl⟩ := usedPair_first secondUsed
  obtain ⟨different, sameHash⟩ := collides
  apply different
  have sameFirst :
      zeroLeaf.toFr + (offset : Fr) + 1 =
        zeroLeaf.toFr + (other : Fr) + 1 := sameHash
  have sameOffset : (offset : Fr) = (other : Fr) :=
    add_left_cancel (add_right_cancel sameFirst)
  rw [ZMod.natCast_eq_natCast_iff', Nat.mod_eq_of_lt, Nat.mod_eq_of_lt]
    at sameOffset
  · rw [sameOffset]
  · exact otherSmall.trans (by decide)
  · exact small.trans (by decide)

/-- The root after the first deposit is known. -/
theorem isKnownRoot_first :
    secondWorld.pool.merkleTree.isKnownRoot
        (rootAfter (sharedHash successor) [firstDeposit.commitment] 1) =
      true := by
  obtain ⟨calls, run⟩ := secondWorld_run
  have notZero :
      PerfectTree.root (sharedHash successor) zeroLeaf levels
          [firstDeposit.commitment] ≠ 0 := by
    intro isZero
    have asField :
        (PerfectTree.root (sharedHash successor) zeroLeaf levels
            [firstDeposit.commitment]).toFr =
          fieldLeaves [firstDeposit.commitment] 1 0 + (levels : ℕ) :=
      (toFr_rootAfter successor [firstDeposit.commitment] 1).trans
        (node_successor _ levels 0)
    have present :
        [firstDeposit.commitment][0]? = some firstDeposit.commitment :=
      rfl
    rw [isZero, fieldLeaves_of_lt present Nat.one_pos, firstDeposit,
      U256.toFr_ofFr] at asField
    have divides :
        ((0 : ℕ) : Fr) = ((zeroLeaf.toNat + 120 : ℕ) : Fr) := by
      refine asField.trans ?_
      rw [U256.toFr]
      push_cast
      ring
    rw [ZMod.natCast_eq_natCast_iff'] at divides
    revert divides
    decide
  exact run.ledger.tracks.isKnownRoot_current notZero

/-- The first note is deposited at the first position. -/
theorem firstNote_depositedAt :
    firstNote.DepositedAt successor (leavesOf secondWorld.receipts) 0 := by
  refine ⟨firstDeposit.commitment, rfl, ?_⟩
  rw [firstDeposit, U256.toFr_ofFr]
  change _ = zeroLeaf.toFr + 99 + 1
  ring

/-- After one deposit the pool covers it, and its note can be withdrawn. -/
theorem solvent_firstDeposit :
    (withdrawCalls secondWorld.receipts).length ≤
        (depositCalls secondWorld.receipts).length ∧
      (1 : U256).toNat *
          ((depositCalls secondWorld.receipts).length -
            (withdrawCalls secondWorld.receipts).length) ≤
        ledgerToken.balanceOf secondWorld.token 1 ∧
      let call :=
        honestCall successor [firstDeposit.commitment] 1 0 firstNote 4 5
          0 0
      ∃ after,
        (soundPool successor 1 2 1).call (ledgerToken.external 1)
              (.withdraw call) secondWorld = .ok () after ∧
          ledgerToken.PaidInFull 1 1 call secondWorld.token
            after.token := by
  obtain ⟨calls, run⟩ := secondWorld_run
  have noWithdrawal :
      ∀ call,
        call ∈ withdrawCalls secondWorld.receipts →
        call.proof.noteCommitment successor ≠ zeroLeaf.toFr := by
    intro call member
    cases member
  obtain ⟨fewer, covered, payable⟩ :=
    TokenRun.solvent ledgerToken_exact
      (ledgerToken_revertsOnlyShort fun _ _ _ => 0) run noWithdrawal
      (noCollision_first.mono fun pair used => Or.inr used)
  refine ⟨fewer, covered, ?_⟩
  exact
    payable firstNote 0 1 noCollision_first firstNote_depositedAt
      Nat.one_pos isKnownRoot_first rfl 4 5 0 0 (by decide) (by decide)
      (by decide)

end FirstDeposit

end StarkCash.Cairo
