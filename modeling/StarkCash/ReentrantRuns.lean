import StarkCash.PoolLedger
import StarkCash.RustTreeRuns

namespace StarkCash.Cairo

/-!
# Re-entrant runs of the pool

A transaction is arbitrary foreign code, which may enter the pool and bring
the code that answers the pool's own calls, to any depth.  After any sequence
of transactions the pool is the ledger of its completed calls
(`Deployment.run_ledger`).
-/

/-- Foreign code, able to enter the pool and to answer its token calls. -/
abbrev ForeignCode (Proof Token : Type) : Type :=
  ReentrantCode.Code (World Proof Token) Token (Entry Proof)
    (ContractAddress × IERC20Call) Bool

/-- The parts a deployed pool is made of. -/
structure Deployment (Proof : Type) where
  hash : U256 → U256 → U256
  verdict : Proof → List U256 → Bool
  self : ContractAddress
  tokenAddress : ContractAddress
  denomination : U256

namespace Deployment

variable {Proof Token : Type}

/-- The world right after deployment, over a state of the token. -/
def deployed
    (deployment : Deployment Proof)
    (token : Token) : World Proof Token where
  pool :=
    Storage.deployed deployment.hash deployment.tokenAddress
      deployment.denomination
  events := []
  token := token
  receipts := []

/-- Enter the pool with a given answer to its token calls. -/
def call
    (deployment : Deployment Proof)
    (external : External Proof Token)
    (entry : Entry Proof) : Contract Proof Token Unit :=
  enter deployment.hash deployment.verdict deployment.self external entry

/-- Execute foreign code against the pool. -/
def execute
    (deployment : Deployment Proof)
    (code : ForeignCode Proof Token) : Contract Proof Token Bool :=
  code.run World.setToken ⟨"Foreign code panicked"⟩
    (fun external =>
      deployment.call fun address request => external (address, request))

/-- Execute transactions one after another; one that panics is undone. -/
def run
    (deployment : Deployment Proof)
    (codes : List (ForeignCode Proof Token))
    (world : World Proof Token) : World Proof Token :=
  (codes.map deployment.execute).foldl
    (fun current transaction =>
      ReentrantCode.transact transaction current)
    world

variable (deployment : Deployment Proof)

/-- Foreign code makes progress in the pool, however it enters it. -/
theorem execute_progress
    (code : ForeignCode Proof Token) :
    ReentrantCode.Respects (Progress deployment.hash)
      (deployment.execute code) := by
  apply ReentrantCode.Code.run_respects Progress.refl Progress.trans
  · intro token world
    exact ⟨[], Extends.setToken token world⟩
  · intro external entry externalCalls
    exact enter_progress (fun _ _ => externalCalls _) entry

/-- Every sequence of transactions makes progress in the pool. -/
theorem run_progress
    (codes : List (ForeignCode Proof Token))
    (world : World Proof Token) :
    Progress deployment.hash world (deployment.run codes world) := by
  apply
    ReentrantCode.transactions_respect Progress.refl Progress.trans
  intro transaction member
  obtain ⟨code, _, rfl⟩ := List.mem_map.mp member
  exact deployment.execute_progress code

end Deployment

section Ledger

variable
    {Proof Token : Type}
    {hash : U256 → U256 → U256}

/-- The pool's state is that of the list of its completed calls. -/
structure Ledger
    (hash : U256 → U256 → U256)
    (world : World Proof Token) : Prop where
  tracks :
    Tracks hash (leavesOf world.receipts) world.pool.merkleTree
  events :
    world.events = eventsOf hash [] world.receipts
  spent :
    ∀ nullifierHash,
      world.pool.nullifiers nullifierHash = true ↔
        nullifierHash ∈ spentBy world.receipts
  distinct :
    (spentBy world.receipts).Nodup

/-- A deployed pool is the ledger of no calls. -/
theorem Deployment.deployed_ledger
    (deployment : Deployment Proof)
    (token : Token) :
    Ledger deployment.hash (deployment.deployed token) := by
  constructor
  · exact initialized_tracks deployment.hash
  · rfl
  · intro nullifierHash
    simp [Deployment.deployed, Storage.deployed, spentBy, withdrawCalls]
  · exact List.nodup_nil

/-- Progress leads from a ledger to a ledger. -/
theorem Ledger.progress
    {before after : World Proof Token}
    (ledger : Ledger hash before)
    (progress : Progress hash before after) :
    Ledger hash after := by
  obtain ⟨new, extends_⟩ := progress
  constructor
  · rw [extends_.receipts, leavesOf_append]
    exact extends_.tree _ ledger.tracks
  · rw [extends_.events _ ledger.tracks, ledger.events,
      extends_.receipts, eventsOf_append, List.nil_append]
  · intro nullifierHash
    rw [extends_.spent, ledger.spent, extends_.receipts, spentBy_append,
      List.mem_append]
  · rw [extends_.receipts, spentBy_append, List.nodup_append']
    refine ⟨ledger.distinct, extends_.distinct, ?_⟩
    intro nullifierHash inBefore inNew
    have unspent := extends_.fresh nullifierHash inNew
    rw [(ledger.spent nullifierHash).mpr inBefore] at unspent
    cases unspent

/-- After any transactions the pool is the ledger of its completed calls. -/
theorem Deployment.run_ledger
    (deployment : Deployment Proof)
    (token : Token)
    (codes : List (ForeignCode Proof Token)) :
    Ledger deployment.hash
      (deployment.run codes (deployment.deployed token)) :=
  (deployment.deployed_ledger token).progress
    (deployment.run_progress codes _)

end Ledger

section Visits

variable {Proof Token : Type}

/-- A transaction that makes one call, every token call answering true. -/
def visit (entry : Entry Proof) : ForeignCode Proof Token :=
  .enters entry (fun _ => .answers true) (fun _ => .answers true)

/-- An external call that does nothing and answers true. -/
def answering : External Proof Token :=
  fun _ _ world => .ok true world

/-- A visit whose call completes leads where the call leads. -/
theorem Deployment.run_visit
    {deployment : Deployment Proof}
    {entry : Entry Proof}
    {rest : List (ForeignCode Proof Token)}
    {before after : World Proof Token}
    (completed :
      deployment.call answering entry before = .ok () after) :
    deployment.run (visit entry :: rest) before =
      deployment.run rest after := by
  have executed :
      deployment.execute (visit entry) before = .ok true after := by
    have component :
        deployment.call
            (fun _ _ =>
              ReentrantCode.atomically fun world => .ok true world)
            entry before =
          .ok () after := completed
    simp only [Deployment.execute, visit, ReentrantCode.Code.run,
      ReentrantCode.caught, ReentrantCode.atomically] at component ⊢
    rw [component]
  simp only [Deployment.run, List.map_cons, List.foldl_cons,
    ReentrantCode.transact, executed]

/-- With room a deposit completes when its token call does nothing. -/
theorem Deployment.call_deposit_answering
    {deployment : Deployment Proof}
    {call : DepositCall}
    {before : World Proof Token}
    (room : before.pool.merkleTree.nextIndex < 2 ^ levels) :
    deployment.call answering (.deposit call) before =
      .ok () (before.completeDeposit deployment.hash call) :=
  enter_deposit_eq_ok.mpr ⟨true, before, rfl, room, rfl⟩

/-- A withdrawal that passes its checks completes likewise. -/
theorem Deployment.call_withdraw_answering
    {deployment : Deployment Proof}
    {call : WithdrawCall Proof}
    {before : World Proof Token}
    (withdrawable : Withdrawable deployment.verdict call before) :
    deployment.call answering (.withdraw call) before =
      .ok ()
        ((before.markSpent call.nullifierHash).completeWithdrawal
          call) := by
  refine
    enter_withdraw_eq_ok.mpr
      ⟨withdrawable, before.markSpent call.nullifierHash, ?_, rfl⟩
  refine ⟨true, before.markSpent call.nullifierHash, rfl, ?_⟩
  by_cases hasFee : 0 < call.fee
  · rw [if_pos hasFee]
    exact ⟨true, rfl⟩
  · rw [if_neg hasFee]

/-- The deposit of a commitment, by an account outside the pool. -/
def depositOf (commitment : U256) : DepositCall where
  caller := 3
  blockTimestamp := 0
  commitment := commitment

/-- One transaction after another deposits a commitment. -/
def depositing
    (commitments : List U256) : List (ForeignCode Proof Token) :=
  commitments.map fun commitment => visit (.deposit (depositOf commitment))

/-- While there is room all deposits of such a run complete. -/
theorem Deployment.receipts_depositing
    (deployment : Deployment Proof)
    {commitments : List U256}
    {before : World Proof Token}
    (ledger : Ledger deployment.hash before)
    (room :
      (leavesOf before.receipts).length + commitments.length ≤
        2 ^ levels) :
    (deployment.run (depositing commitments) before).receipts =
      before.receipts ++
        commitments.map fun commitment =>
          .deposit (depositOf commitment) := by
  induction commitments generalizing before with
  | nil =>
      exact (List.append_nil _).symm
  | cons commitment rest inductionHypothesis =>
      rw [List.length_cons] at room
      let after :=
        before.completeDeposit deployment.hash (depositOf commitment)
      have completed :
          deployment.call answering (.deposit (depositOf commitment))
              before =
            .ok () after :=
        Deployment.call_deposit_answering
          (ledger.tracks.hasRoom (by omega))
      have progress : Progress deployment.hash before after := by
        refine enter_progress ?_ _ before () after completed
        intro address request world answer same answered
        cases answered
        exact Progress.refl world
      have receipts :
          after.receipts =
            before.receipts ++ [.deposit (depositOf commitment)] := rfl
      have restRoom :
          (leavesOf after.receipts).length + rest.length ≤ 2 ^ levels := by
        rw [receipts, leavesOf_append, List.length_append]
        change _ + 1 + rest.length ≤ _
        omega
      have restRun :=
        inductionHypothesis (ledger.progress progress) restRoom
      rw [receipts, List.append_assoc] at restRun
      unfold depositing at restRun ⊢
      rw [List.map_cons, Deployment.run_visit completed, restRun]
      rfl

/-- From deployment on, such a run fills the tree with its commitments. -/
theorem Deployment.leavesOf_depositing
    (deployment : Deployment Proof)
    (token : Token)
    {commitments : List U256}
    (fits : commitments.length ≤ 2 ^ levels) :
    leavesOf
        (deployment.run (depositing commitments)
          (deployment.deployed token)).receipts =
      commitments := by
  have room :
      (leavesOf (deployment.deployed token).receipts).length +
          commitments.length ≤
        2 ^ levels := by
    change 0 + commitments.length ≤ _
    rw [Nat.zero_add]
    exact fits
  rw [deployment.receipts_depositing (deployment.deployed_ledger token) room]
  change leavesOf (commitments.map _) = commitments
  rw [leavesOf, depositCalls, List.filterMap_map, List.map_filterMap]
  simp [depositOf]

end Visits

section EventLog

variable
    {Proof : Type}
    {hash : U256 → U256 → U256}

/-- The leaf insertions of an event log. -/
def leafInsertions (events : List Event) : List LeafInserted :=
  events.filterMap fun
    | .merkleTreeEvent event => some event
    | _ => none

/-- The `Deposit` events of a log: commitment, leaf index and timestamp. -/
def depositEvents (events : List Event) : List (U256 × ℕ × ℕ) :=
  events.filterMap fun
    | .deposit commitment leafIndex timestamp =>
        some (commitment, leafIndex, timestamp)
    | _ => none

/-- The events of inserting further leaves. -/
def insertionsFrom
    (hash : U256 → U256 → U256) :
    List U256 → List U256 → List LeafInserted
  | _, [] => []
  | earlier, leaf :: rest =>
      { leaf := leaf
        index := earlier.length
        root :=
          PerfectTree.root hash zeroLeaf levels (earlier ++ [leaf]) } ::
        insertionsFrom hash (earlier ++ [leaf]) rest

/-- The log of a ledger contains the insertions of its leaves. -/
theorem leafInsertions_eventsOf
    (earlier : List U256)
    (receipts : List (Entry Proof)) :
    leafInsertions (eventsOf hash earlier receipts) =
      insertionsFrom hash earlier (leavesOf receipts) := by
  induction receipts generalizing earlier with
  | nil =>
      rfl
  | cons entry rest inductionHypothesis =>
      cases entry with
      | deposit call =>
          exact
            congrArg (List.cons _)
              (inductionHypothesis (earlier ++ [call.commitment]))
      | withdraw call =>
          exact inductionHypothesis earlier

/-- The log of a ledger contains one `Deposit` event for every deposit. -/
theorem depositEvents_eventsOf
    (earlier : List U256)
    (receipts : List (Entry Proof)) :
    depositEvents (eventsOf hash earlier receipts) =
      ((depositCalls receipts).zipIdx earlier.length).map
        fun (call, index) =>
          (call.commitment, index, call.blockTimestamp) := by
  induction receipts generalizing earlier with
  | nil =>
      rfl
  | cons entry rest inductionHypothesis =>
      cases entry with
      | deposit call =>
          have tail := inductionHypothesis (earlier ++ [call.commitment])
          rw [List.length_append] at tail
          exact congrArg (List.cons _) tail
      | withdraw call =>
          exact inductionHypothesis earlier

/-- The insertions carry the leaves in order. -/
theorem insertionsFrom_leaf
    (earlier leaves : List U256) :
    (insertionsFrom hash earlier leaves).map LeafInserted.leaf = leaves := by
  induction leaves generalizing earlier with
  | nil =>
      rfl
  | cons leaf rest inductionHypothesis =>
      exact
        congrArg (List.cons leaf)
          (inductionHypothesis (earlier ++ [leaf]))

/-- The insertions carry consecutive indices. -/
theorem insertionsFrom_index
    (earlier leaves : List U256) :
    (insertionsFrom hash earlier leaves).map LeafInserted.index =
      List.range' earlier.length leaves.length := by
  induction leaves generalizing earlier with
  | nil =>
      rfl
  | cons leaf rest inductionHypothesis =>
      have tail := inductionHypothesis (earlier ++ [leaf])
      rw [List.length_append] at tail
      exact congrArg (List.cons earlier.length) tail

/-- The insertions carry the roots of the prefixes. -/
theorem insertionsFrom_root
    (earlier leaves : List U256) :
    (insertionsFrom hash earlier leaves).map LeafInserted.root =
      rootsFrom hash earlier leaves := by
  induction leaves generalizing earlier with
  | nil =>
      rfl
  | cons leaf rest inductionHypothesis =>
      rw [rootsFrom_cons]
      exact congrArg (List.cons _) (inductionHypothesis (earlier ++ [leaf]))

end EventLog

section Replay

variable (hash : U256 → U256 → U256)

/-- The contract's hash on arrays, for the Rust tree. -/
def rustHash (left right : Bytes32) : Bytes32 :=
  (hash left.toU256 right.toU256).toBytes32

/-- The padding leaf of the component is that of the Rust tree. -/
theorem zeroLeaf_toBytes32 :
    zeroLeaf.toBytes32 = Rust.zeroLeaf := by
  decide

/-- The roots of the component are those of the Rust tree. -/
theorem root_toBytes32
    (leaves : List U256) :
    (PerfectTree.root hash zeroLeaf levels leaves).toBytes32 =
      PerfectTree.root (rustHash hash) Rust.zeroLeaf Rust.levels
        (leaves.map U256.toBytes32) := by
  have commutes :
      ∀ left right : U256,
        (hash left right).toBytes32 =
          rustHash hash left.toBytes32 right.toBytes32 := by
    intro left right
    simp [rustHash]
  rw [PerfectTree.root_map commutes, zeroLeaf_toBytes32]

/-- The Rust tree, fed with the logged leaves, returns the logged roots. -/
theorem rootsFrom_toBytes32
    (leaves : List U256) :
    (rootsFrom hash [] leaves).map U256.toBytes32 =
      Rust.rootsFrom (rustHash hash) []
        (leaves.map U256.toBytes32) := by
  rw [Rust.rootsFrom_eq, rootsFrom, List.map_map, List.length_map]
  refine List.map_congr_left ?_
  intro inserts _
  simp only [Function.comp_apply, rootAfter, Rust.rootAfter,
    root_toBytes32, List.nil_append, List.map_take, List.length_nil]

/-- Replaying the leaves of a ledger into the Rust tree gives its roots. -/
theorem replay
    {leaves : List U256}
    (fits : leaves.length ≤ 2 ^ levels) :
    ∃ tree,
      Rust.IncrementalMerkleTree.built (rustHash hash)
          (leaves.map U256.toBytes32) =
        .ok ((rootsFrom hash [] leaves).map U256.toBytes32, tree) := by
  have rustFits :
      (leaves.map U256.toBytes32).length ≤ 2 ^ Rust.levels := by
    rw [List.length_map]
    exact fits
  obtain ⟨tree, built, _⟩ := Rust.built_of_room (rustHash hash) rustFits
  refine ⟨tree, ?_⟩
  rw [rootsFrom_toBytes32]
  exact built

end Replay

section Faithful

variable {Proof Token : Type}

/--
Re-entrancy safety and the event log, for arbitrary foreign code around the
token calls: a nullifier hash belongs to one completed withdrawal and stays
spent; the insertions carry consecutive indices, the deposited commitments and
the roots of the leaves logged so far; every completed deposit has its event
with the index of its own leaf; and the Rust tree, replaying the log, returns
every logged root.
-/
theorem Deployment.reentrant_run_faithful
    (deployment : Deployment Proof)
    (token : Token)
    (codes more : List (ForeignCode Proof Token)) :
    let world := deployment.run codes (deployment.deployed token)
    let inserted := leafInsertions world.events
    (spentBy world.receipts).Nodup ∧
      (∀ nullifierHash,
        world.pool.nullifiers nullifierHash = true ↔
          nullifierHash ∈ spentBy world.receipts) ∧
      (∀ nullifierHash,
        world.pool.nullifiers nullifierHash = true →
        (deployment.run more world).pool.nullifiers nullifierHash =
          true) ∧
      inserted.map LeafInserted.index = List.range inserted.length ∧
      inserted.map LeafInserted.leaf = leavesOf world.receipts ∧
      depositEvents world.events =
        (depositCalls world.receipts).zipIdx.map
          (fun (call, index) =>
            (call.commitment, index, call.blockTimestamp)) ∧
      inserted.map LeafInserted.root =
        (List.range inserted.length).map
          (fun index =>
            PerfectTree.root deployment.hash zeroLeaf levels
              ((inserted.map LeafInserted.leaf).take (index + 1))) ∧
      ∃ tree,
        Rust.IncrementalMerkleTree.built (rustHash deployment.hash)
            (inserted.map fun event => event.leaf.toBytes32) =
          .ok (inserted.map fun event => event.root.toBytes32, tree) := by
  intro world inserted
  have ledger : Ledger deployment.hash world :=
    deployment.run_ledger token codes
  have insertedEq :
      inserted =
        insertionsFrom deployment.hash [] (leavesOf world.receipts) := by
    rw [← leafInsertions_eventsOf, ← ledger.events]
  have leavesEq :
      inserted.map LeafInserted.leaf = leavesOf world.receipts := by
    rw [insertedEq, insertionsFrom_leaf]
  have lengthEq : (leavesOf world.receipts).length = inserted.length := by
    rw [← leavesEq, List.length_map]
  have rootsEq :
      inserted.map LeafInserted.root =
        rootsFrom deployment.hash [] (leavesOf world.receipts) := by
    rw [insertedEq, insertionsFrom_root]
  refine
    ⟨ledger.distinct, ledger.spent, ?_, ?_, leavesEq, ?_, ?_, ?_⟩
  · intro nullifierHash spent
    obtain ⟨new, extends_⟩ := deployment.run_progress more world
    exact (extends_.spent nullifierHash).mpr (.inl spent)
  · rw [← lengthEq, insertedEq, insertionsFrom_index,
      List.range_eq_range']
    rfl
  · rw [ledger.events, depositEvents_eventsOf]
    rfl
  · rw [rootsEq, leavesEq, ← lengthEq]
    simp only [rootsFrom, rootAfter, List.nil_append, List.length_nil,
      Nat.zero_add]
  · obtain ⟨tree, built⟩ :=
      replay deployment.hash ledger.tracks.capacity
    refine ⟨tree, ?_⟩
    rw [← leavesEq, List.map_map] at built
    rw [← leavesEq] at rootsEq
    rw [← rootsEq, List.map_map] at built
    exact built

end Faithful

end StarkCash.Cairo
