import StarkCash.GhostPoolCalls
import StarkCash.ReentrantCode

namespace StarkCash.Cairo

/-!
# The pool as a ledger of completed calls

The abstract pool is the list of its completed calls in the order of their
completion: leaves, spent nullifier hashes and the event log are functions of
it.  `Extends` says that the contract's state grew by a list of completed
calls, and every computation that only reaches the pool through its entry
points respects it, at whatever depth the entry points were called.
-/

section Ledger

variable {Proof : Type}

/-- The completed deposits of a list of calls. -/
def depositCalls (receipts : List (Entry Proof)) : List DepositCall :=
  receipts.filterMap fun
    | .deposit call => some call
    | .withdraw _ => none

/-- The completed withdrawals of a list of calls. -/
def withdrawCalls
    (receipts : List (Entry Proof)) : List (WithdrawCall Proof) :=
  receipts.filterMap fun
    | .deposit _ => none
    | .withdraw call => some call

/-- The leaves inserted by a list of completed calls. -/
def leavesOf (receipts : List (Entry Proof)) : List U256 :=
  (depositCalls receipts).map DepositCall.commitment

/-- The nullifier hashes spent by a list of completed calls. -/
def spentBy (receipts : List (Entry Proof)) : List U256 :=
  (withdrawCalls receipts).map WithdrawCall.nullifierHash

/-- The events emitted by a list of completed calls after earlier leaves. -/
def eventsOf
    (hash : U256 → U256 → U256) :
    List U256 → List (Entry Proof) → List Event
  | _, [] => []
  | leaves, .deposit call :: rest =>
      .merkleTreeEvent
          { leaf := call.commitment
            index := leaves.length
            root :=
              PerfectTree.root hash zeroLeaf levels
                (leaves ++ [call.commitment]) } ::
        .deposit call.commitment leaves.length call.blockTimestamp ::
          eventsOf hash (leaves ++ [call.commitment]) rest
  | leaves, .withdraw call :: rest =>
      call.event :: eventsOf hash leaves rest

variable (first second : List (Entry Proof))

@[simp] theorem depositCalls_append :
    depositCalls (first ++ second) =
      depositCalls first ++ depositCalls second :=
  List.filterMap_append ..

@[simp] theorem withdrawCalls_append :
    withdrawCalls (first ++ second) =
      withdrawCalls first ++ withdrawCalls second :=
  List.filterMap_append ..

@[simp] theorem leavesOf_append :
    leavesOf (first ++ second) = leavesOf first ++ leavesOf second := by
  simp [leavesOf]

@[simp] theorem spentBy_append :
    spentBy (first ++ second) = spentBy first ++ spentBy second := by
  simp [spentBy]

/-- One more deposit. -/
@[simp] theorem depositCalls_concat_deposit
    (receipts : List (Entry Proof))
    (call : DepositCall) :
    depositCalls (receipts ++ [.deposit call]) =
      depositCalls receipts ++ [call] :=
  depositCalls_append receipts [.deposit call]

/-- A withdrawal is no deposit. -/
@[simp] theorem depositCalls_concat_withdraw
    (receipts : List (Entry Proof))
    (call : WithdrawCall Proof) :
    depositCalls (receipts ++ [.withdraw call]) = depositCalls receipts :=
  (depositCalls_append receipts [.withdraw call]).trans
    (List.append_nil _)

/-- A deposit is no withdrawal. -/
@[simp] theorem withdrawCalls_concat_deposit
    (receipts : List (Entry Proof))
    (call : DepositCall) :
    withdrawCalls (receipts ++ [.deposit call]) = withdrawCalls receipts :=
  (withdrawCalls_append receipts [.deposit call]).trans
    (List.append_nil _)

/-- One more withdrawal. -/
@[simp] theorem withdrawCalls_concat_withdraw
    (receipts : List (Entry Proof))
    (call : WithdrawCall Proof) :
    withdrawCalls (receipts ++ [.withdraw call]) =
      withdrawCalls receipts ++ [call] :=
  withdrawCalls_append receipts [.withdraw call]

/-- The events of a longer list continue from the leaves of its first part. -/
theorem eventsOf_append
    (hash : U256 → U256 → U256)
    (leaves : List U256) :
    eventsOf hash leaves (first ++ second) =
      eventsOf hash leaves first ++
        eventsOf hash (leaves ++ leavesOf first) second := by
  induction first generalizing leaves with
  | nil =>
      simp [eventsOf, leavesOf, depositCalls]
  | cons entry rest inductionHypothesis =>
      cases entry with
      | deposit call =>
          have leavesEq :
              leavesOf (.deposit call :: rest : List (Entry Proof)) =
                call.commitment :: leavesOf rest := rfl
          simp [eventsOf, inductionHypothesis, leavesEq]
      | withdraw call =>
          have leavesEq :
              leavesOf (.withdraw call :: rest : List (Entry Proof)) =
                leavesOf rest := rfl
          simp [eventsOf, inductionHypothesis, leavesEq]

end Ledger

section Extends

variable
    {Proof Token : Type}
    {hash : U256 → U256 → U256}

/-- The pool grew by a list of completed calls. -/
structure Extends
    (hash : U256 → U256 → U256)
    (new : List (Entry Proof))
    (before after : World Proof Token) : Prop where
  receipts :
    after.receipts = before.receipts ++ new
  token :
    after.pool.token = before.pool.token
  denomination :
    after.pool.denomination = before.pool.denomination
  spent :
    ∀ nullifierHash,
      after.pool.nullifiers nullifierHash = true ↔
        before.pool.nullifiers nullifierHash = true ∨
          nullifierHash ∈ spentBy new
  fresh :
    ∀ nullifierHash,
      nullifierHash ∈ spentBy new →
      before.pool.nullifiers nullifierHash = false
  distinct :
    (spentBy new).Nodup
  tree :
    ∀ leaves,
      Tracks hash leaves before.pool.merkleTree →
      Tracks hash (leaves ++ leavesOf new) after.pool.merkleTree
  events :
    ∀ leaves,
      Tracks hash leaves before.pool.merkleTree →
      after.events = before.events ++ eventsOf hash leaves new

/-- The pool grew by some completed calls. -/
def Progress
    (hash : U256 → U256 → U256)
    (before after : World Proof Token) : Prop :=
  ∃ new, Extends hash new before after

variable {before middle after : World Proof Token}

namespace Extends

/-- Whatever happens to the token, the pool stays. -/
theorem setToken
    (token : Token)
    (world : World Proof Token) :
    Extends hash [] world (world.setToken token) := by
  constructor
  · simp [World.setToken]
  · rfl
  · rfl
  · intro nullifierHash
    simp [spentBy, withdrawCalls, World.setToken]
  · intro nullifierHash spent
    simp [spentBy, withdrawCalls] at spent
  · exact List.nodup_nil
  · intro leaves tracks
    simpa [leavesOf, depositCalls, World.setToken] using tracks
  · intro leaves _
    simp [eventsOf, World.setToken]

/-- Nothing happened. -/
theorem refl
    (world : World Proof Token) :
    Extends hash [] world world :=
  setToken world.token world

/-- First some calls and then some more. -/
theorem trans
    {first second : List (Entry Proof)}
    (firstExtends : Extends hash first before middle)
    (secondExtends : Extends hash second middle after) :
    Extends hash (first ++ second) before after := by
  have freshSecond :
      ∀ nullifierHash,
        nullifierHash ∈ spentBy second →
        before.pool.nullifiers nullifierHash = false ∧
          nullifierHash ∉ spentBy first := by
    intro nullifierHash spent
    have unspent := secondExtends.fresh nullifierHash spent
    have notBefore :
        ¬ (before.pool.nullifiers nullifierHash = true ∨
          nullifierHash ∈ spentBy first) := by
      rw [← firstExtends.spent nullifierHash, unspent]
      decide
    constructor
    · exact Bool.eq_false_iff.mpr fun isSpent => notBefore (.inl isSpent)
    · exact fun isSpent => notBefore (.inr isSpent)
  constructor
  · rw [secondExtends.receipts, firstExtends.receipts, List.append_assoc]
  · rw [secondExtends.token, firstExtends.token]
  · rw [secondExtends.denomination, firstExtends.denomination]
  · intro nullifierHash
    rw [secondExtends.spent, firstExtends.spent, spentBy_append,
      List.mem_append, or_assoc]
  · intro nullifierHash spent
    rw [spentBy_append, List.mem_append] at spent
    rcases spent with inFirst | inSecond
    · exact firstExtends.fresh nullifierHash inFirst
    · exact (freshSecond nullifierHash inSecond).1
  · rw [spentBy_append, List.nodup_append']
    refine ⟨firstExtends.distinct, secondExtends.distinct, ?_⟩
    intro nullifierHash inFirst inSecond
    exact (freshSecond nullifierHash inSecond).2 inFirst
  · intro leaves tracks
    rw [leavesOf_append, ← List.append_assoc]
    exact secondExtends.tree _ (firstExtends.tree leaves tracks)
  · intro leaves tracks
    rw [secondExtends.events _ (firstExtends.tree leaves tracks),
      firstExtends.events leaves tracks, eventsOf_append,
      List.append_assoc]

/-- A deposit with room extends the pool by itself. -/
theorem deposited
    {call : DepositCall}
    (room : before.pool.merkleTree.nextIndex < 2 ^ levels) :
    Extends hash [.deposit call] before
      (before.completeDeposit hash call) := by
  have roomFor :
      ∀ leaves,
        Tracks hash leaves before.pool.merkleTree →
        leaves.length < 2 ^ levels := by
    intro leaves tracks
    rw [← tracks.nextIndex]
    exact room
  constructor
  · rfl
  · rfl
  · rfl
  · intro nullifierHash
    simp [spentBy, withdrawCalls, World.completeDeposit, World.record,
      World.deposited]
  · intro nullifierHash spent
    simp [spentBy, withdrawCalls] at spent
  · exact List.nodup_nil
  · intro leaves tracks
    exact tracks.inserted (roomFor leaves tracks)
  · intro leaves tracks
    simp only [World.completeDeposit, World.record, World.deposited,
      eventsOf, insertedEvent, tracks.nextIndex,
      insertLoop_root tracks (roomFor leaves tracks)]

/-- A nullifier hash is spent after marking one if it is that one or was. -/
theorem markSpent_nullifiers_iff
    (spent nullifierHash : U256) :
    (before.markSpent spent).pool.nullifiers nullifierHash = true ↔
      nullifierHash = spent ∨
        before.pool.nullifiers nullifierHash = true := by
  by_cases same : nullifierHash = spent
  · simp [World.markSpent, same]
  · simp [World.markSpent, same]

/-- What is spent after marking a nullifier hash is another and was unspent. -/
theorem fresh_of_markSpent
    {new : List (Entry Proof)}
    {marked nullifierHash : U256}
    (payments : Extends hash new (before.markSpent marked) after)
    (spent : nullifierHash ∈ spentBy new) :
    nullifierHash ≠ marked ∧
      before.pool.nullifiers nullifierHash = false := by
  have unmarked := payments.fresh nullifierHash spent
  have notMarked :
      ¬ (nullifierHash = marked ∨
        before.pool.nullifiers nullifierHash = true) := by
    rw [← markSpent_nullifiers_iff, unmarked]
    decide
  constructor
  · exact fun same => notMarked (.inl same)
  · exact Bool.eq_false_iff.mpr fun isSpent => notMarked (.inr isSpent)

/--
A withdrawal extends the pool by whatever its payments did and then by itself:
the nullifier hash was marked first, so no payment could spend it.
-/
theorem withdrawn
    {new : List (Entry Proof)}
    {call : WithdrawCall Proof}
    (unspent : before.pool.nullifiers call.nullifierHash = false)
    (payments :
      Extends hash new (before.markSpent call.nullifierHash) after) :
    Extends hash (new ++ [.withdraw call]) before
      (after.completeWithdrawal call) := by
  have spentNew :
      spentBy (new ++ [.withdraw call]) =
        spentBy new ++ [call.nullifierHash] := by
    rw [spentBy_append]
    rfl
  have leavesNew :
      leavesOf (new ++ [.withdraw call]) = leavesOf new := by
    rw [leavesOf_append]
    exact List.append_nil _
  constructor
  · simp only [World.completeWithdrawal, World.record, World.emit,
      payments.receipts, List.append_assoc]
    rfl
  · exact payments.token
  · exact payments.denomination
  · intro nullifierHash
    rw [spentNew, List.mem_append, List.mem_singleton]
    change after.pool.nullifiers nullifierHash = true ↔ _
    rw [payments.spent, markSpent_nullifiers_iff]
    constructor
    · rintro ((same | isSpent) | inNew)
      · exact .inr (.inr same)
      · exact .inl isSpent
      · exact .inr (.inl inNew)
    · rintro (isSpent | inNew | same)
      · exact .inl (.inr isSpent)
      · exact .inr inNew
      · exact .inl (.inl same)
  · intro nullifierHash spent
    rw [spentNew, List.mem_append, List.mem_singleton] at spent
    rcases spent with inNew | rfl
    · exact (payments.fresh_of_markSpent inNew).2
    · exact unspent
  · rw [spentNew, List.nodup_append']
    refine ⟨payments.distinct, List.nodup_singleton _, ?_⟩
    intro nullifierHash inNew same
    exact
      (payments.fresh_of_markSpent inNew).1 (List.mem_singleton.mp same)
  · intro leaves tracks
    rw [leavesNew]
    exact payments.tree leaves tracks
  · intro leaves tracks
    rw [eventsOf_append]
    simp only [World.completeWithdrawal, World.record, World.emit,
      eventsOf]
    rw [payments.events leaves tracks, List.append_assoc]
    rfl

end Extends

/-- Doing nothing is progress. -/
theorem Progress.refl
    (world : World Proof Token) :
    Progress hash world world :=
  ⟨[], Extends.refl world⟩

/-- Progress is transitive. -/
theorem Progress.trans
    (before middle after : World Proof Token)
    (firstProgress : Progress hash before middle)
    (secondProgress : Progress hash middle after) :
    Progress hash before after := by
  obtain ⟨first, firstExtends⟩ := firstProgress
  obtain ⟨second, secondExtends⟩ := secondProgress
  exact ⟨first ++ second, firstExtends.trans secondExtends⟩

variable
    {verdict : Proof → List U256 → Bool}
    {self : ContractAddress}
    {external : External Proof Token}

/-- The payments of a withdrawal respect what the external calls respect. -/
theorem PaysOut.respects
    {relation : World Proof Token → World Proof Token → Prop}
    {call : WithdrawCall Proof}
    {amount : U256}
    (transitive :
      ∀ first middle last,
        relation first middle →
        relation middle last →
        relation first last)
    (externalCalls :
      ∀ address request,
        ReentrantCode.Respects relation (external address request))
    (paysOut : PaysOut external call amount before after) :
    relation before after := by
  obtain ⟨answer, first, paidFirst, paidFee⟩ := paysOut
  have firstRespects := externalCalls _ _ _ _ _ paidFirst
  by_cases hasFee : 0 < call.fee
  · rw [if_pos hasFee] at paidFee
    obtain ⟨feeAnswer, paidFee⟩ := paidFee
    exact
      transitive _ _ _ firstRespects (externalCalls _ _ _ _ _ paidFee)
  · rw [if_neg hasFee] at paidFee
    rw [← paidFee]
    exact firstRespects

/--
Every entry point makes progress if its external calls do: re-entrancy from
inside an external call is progress that happened before the call's own.
-/
theorem enter_progress
    (externalCalls :
      ∀ address request,
        ReentrantCode.Respects (Progress hash) (external address request))
    (entry : Entry Proof) :
    ReentrantCode.Respects (Progress hash)
      (enter hash verdict self external entry) := by
  intro before result after completed
  cases entry with
  | deposit call =>
      obtain ⟨answer, paid, answered, room, rfl⟩ :=
        enter_deposit_eq_ok.mp completed
      obtain ⟨new, newExtends⟩ := externalCalls _ _ _ _ _ answered
      exact ⟨_, newExtends.trans (Extends.deposited room)⟩
  | withdraw call =>
      obtain ⟨withdrawable, paid, paysOut, rfl⟩ :=
        enter_withdraw_eq_ok.mp completed
      obtain ⟨new, payments⟩ :=
        paysOut.respects Progress.trans externalCalls
      exact ⟨_, Extends.withdrawn withdrawable.unspent payments⟩

end Extends

end StarkCash.Cairo
