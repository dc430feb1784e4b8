import StarkCash.RustPoseidon
import StarkCash.RustTreeRuns
import StarkCash.WithdrawCircuit

namespace StarkCash

/-!
# Notes between the Rust tree and the withdraw circuit

The Rust code hashes 32-byte arrays through field elements, so its tree, read
as field elements, is the tree of the circuit's hash.  A path from `get_proof`
therefore satisfies the circuit, and a satisfied circuit opens a leaf of the
tree unless it exhibits a collision.
-/

open PerfectTree
open Rust (levels zeroLeaf zeroBytes)

/-- `new_circom(n)` of light_poseidon computes circomlib's `Poseidon(n)`. -/
structure ComputesCircomlib
    (lightPoseidon circomlib : List Fr → Fr) : Prop where
  one :
    ∀ input, lightPoseidon [input] = circomlib [input]
  two :
    ∀ left right, lightPoseidon [left, right] = circomlib [left, right]

/-- The circuit inputs of a note, from its path and its secrets. -/
def noteInputs
    (proof : Rust.MerkleProof)
    (nullifierHash secret nullifier : Bytes32)
    (recipient relayer fee refund : Fr) :
    Circuit.WithdrawInputs levels where
  root := proof.root.toFr
  nullifierHash := nullifierHash.toFr
  recipient := recipient
  relayer := relayer
  fee := fee
  refund := refund
  secret := secret.toFr
  nullifier := nullifier.toFr
  pathElements := fun i => (proof.pathElements.getD i zeroBytes).toFr
  pathIndices := fun i => ((proof.pathIndices.getD i 0).toNat : Fr)

/-- The pair a tree hashes at the parent node of a level, as field elements. -/
def fieldPair
    (hash : Bytes32 → Bytes32 → Bytes32)
    (leaves : List Bytes32)
    (level index : ℕ) : Fr × Fr :=
  let pair := nodePair hash (padded zeroLeaf leaves) level index
  (pair.1.toFr, pair.2.toFr)

section Fields

variable
    {lightPoseidon circomlib : List Fr → Fr}

/-- Reading arrays as field elements commutes with the hashes. -/
theorem toFr_hash
    (computes : ComputesCircomlib lightPoseidon circomlib)
    (left right : Bytes32) :
    (Rust.poseidonHash lightPoseidon left right).toFr =
      Circuit.hashPair circomlib left.toFr right.toFr := by
  rw [Rust.toFr_poseidonHash, computes.two]
  rfl

/-- Every node of the Rust tree is a node of the tree of field elements. -/
theorem toFr_node
    (computes : ComputesCircomlib lightPoseidon circomlib)
    (leaves : ℕ → Bytes32)
    (level index : ℕ) :
    (node (Rust.poseidonHash lightPoseidon) leaves level index).toFr =
      node (Circuit.hashPair circomlib) (fun leaf => (leaves leaf).toFr)
        level index :=
  node_map (toFr_hash computes) leaves level index

/-- Every pair of the Rust tree is a pair of the tree of field elements. -/
theorem fieldPair_eq
    (computes : ComputesCircomlib lightPoseidon circomlib)
    (leaves : List Bytes32)
    (level index : ℕ) :
    fieldPair (Rust.poseidonHash lightPoseidon) leaves level index =
      nodePair (Circuit.hashPair circomlib)
        (fun leaf => (padded zeroLeaf leaves leaf).toFr) level index := by
  simp only [fieldPair, nodePair, toFr_node computes]

end Fields

section Paths

variable
    {hash : Bytes32 → Bytes32 → Bytes32}
    {leaves : List Bytes32}
    {index : ℕ}

/-- The elements of a leaf's path are its siblings. -/
theorem pathOf_element
    (i : Fin levels) :
    (Rust.pathOf hash leaves index).pathElements.getD i zeroBytes =
      Rust.siblingOf hash leaves index i := by
  have inside :
      i.val < (Rust.pathOf hash leaves index).pathElements.length := by
    simp [Rust.pathOf, i.isLt]
  rw [List.getD_eq_getElem _ _ inside]
  simp [Rust.pathOf]

/-- The indices of a leaf's path are the bits of its position. -/
theorem pathOf_index
    (i : Fin levels) :
    (((Rust.pathOf hash leaves index).pathIndices.getD i 0).toNat : Fr) =
      ((index / 2 ^ i.val % 2 : ℕ) : Fr) := by
  have inside :
      i.val < (Rust.pathOf hash leaves index).pathIndices.length := by
    simp [Rust.pathOf, i.isLt]
  have bit :
      (Rust.pathOf hash leaves index).pathIndices.getD i 0 =
        UInt8.ofNat (index / 2 ^ i.val % 2) := by
    rw [List.getD_eq_getElem _ _ inside]
    simp [Rust.pathOf]
  rw [bit]
  rcases Nat.mod_two_eq_zero_or_one (index / 2 ^ i.val) with even | odd
  · rw [even]
    rfl
  · rw [odd]
    rfl

end Paths

section Notes

variable
    {lightPoseidon circomlib : List Fr → Fr}
    {leaves : List Bytes32}
    {tree : Rust.IncrementalMerkleTree}
    {index : ℕ}
    {secret nullifier : Bytes32}

/-- The inputs made from a deposited note's path open the note. -/
theorem noteInputs_opens
    (computes : ComputesCircomlib lightPoseidon circomlib)
    (fits : leaves.length ≤ 2 ^ levels)
    (deposited :
      leaves[index]? =
        some (Rust.poseidonHash lightPoseidon secret nullifier))
    (recipient relayer fee refund : Fr) :
    (noteInputs
      (Rust.pathOf (Rust.poseidonHash lightPoseidon) leaves index)
      (Rust.poseidonHashSingle lightPoseidon nullifier) secret nullifier
      recipient relayer fee refund).Opens circomlib := by
  obtain ⟨present, leafEq⟩ := List.getElem?_eq_some_iff.mp deposited
  have onRoot :=
    toFr_node computes (padded zeroLeaf leaves) levels 0
  refine
    Circuit.WithdrawInputs.opens_of_siblings
      (present.trans_le fits) ?_ ?_ onRoot pathOf_index ?_
  · change (Rust.poseidonHashSingle lightPoseidon nullifier).toFr = _
    rw [Rust.toFr_poseidonHashSingle, computes.one]
    rfl
  · rw [padded_of_lt zeroLeaf present, leafEq, toFr_hash computes]
    rfl
  · intro i
    rw [← toFr_node computes]
    exact congrArg Bytes32.toFr (pathOf_element i)

end Notes

section Completeness

/--
Every deposited note can be proved: in every reachable tree the path that
`get_proof` returns for its leaf leads to the current root and satisfies every
constraint of `Withdraw(20)`.
-/
theorem depositedNote_provable
    {lightPoseidon circomlib : List Fr → Fr}
    (computes : ComputesCircomlib lightPoseidon circomlib)
    {leaves roots : List Bytes32}
    {tree : Rust.IncrementalMerkleTree}
    (reachable :
      Rust.Reachable (Rust.poseidonHash lightPoseidon) leaves roots tree)
    {index : ℕ}
    (present : index < tree.nextIndex)
    {secret nullifier commitment : Bytes32}
    (isLeaf : leaves[index]? = some commitment)
    (committed :
      Rust.generateCommitment lightPoseidon secret.toList
        nullifier.toList = .ok commitment) :
    ∃ proof nullifierHash,
      tree.getProof (Rust.poseidonHash lightPoseidon) index = .ok proof ∧
        Rust.generateNullifierHash lightPoseidon nullifier.toList =
          .ok nullifierHash ∧
        proof.root = tree.root ∧
        proof.pathElements.length = levels ∧
        proof.pathIndices.length = levels ∧
        ∀ recipient relayer fee refund : Fr,
          (Circuit.Withdraw.compute circomlib
            (noteInputs proof nullifierHash secret nullifier recipient
              relayer fee refund)).Constraints circomlib := by
  have tracks := reachable.tracks
  have inLeaves : index < leaves.length := by
    rw [← tracks.nextIndex]
    exact present
  rw [Rust.generateCommitment_toList] at committed
  obtain rfl := Except.ok.inj committed
  refine
    ⟨Rust.pathOf (Rust.poseidonHash lightPoseidon) leaves index,
      Rust.poseidonHashSingle lightPoseidon nullifier,
      tracks.getProof_eq_ok inLeaves,
      Rust.generateNullifierHash_toList lightPoseidon nullifier,
      tracks.root_eq.symm, ?_, ?_, ?_⟩
  · simp [Rust.pathOf]
  · simp [Rust.pathOf]
  · intro recipient relayer fee refund
    apply Circuit.Withdraw.compute_constraints
    exact
      noteInputs_opens computes tracks.capacity isLeaf recipient relayer
        fee refund

/-- The first note of a tree can be proved, with the sum as the hash. -/
theorem depositedNote_provable_first :
    let hash := Rust.poseidonHash List.sum
    let leaf := hash zeroLeaf zeroBytes
    ∃ proof nullifierHash,
      (Rust.inserted hash leaf (Rust.fresh hash)).getProof hash 0 =
          .ok proof ∧
        Rust.generateNullifierHash List.sum zeroBytes.toList =
          .ok nullifierHash ∧
        proof.root =
          (Rust.inserted hash leaf (Rust.fresh hash)).root ∧
        proof.pathElements.length = levels ∧
        proof.pathIndices.length = levels ∧
        ∀ recipient relayer fee refund : Fr,
          (Circuit.Withdraw.compute List.sum
            (noteInputs proof nullifierHash zeroLeaf zeroBytes recipient
              relayer fee refund)).Constraints List.sum :=
  depositedNote_provable ⟨fun _ => rfl, fun _ _ => rfl⟩
    (Rust.Reachable.inserted
      (Rust.Reachable.created (Rust.new_eq_ok _))
      (Rust.insert_of_room (Nat.two_pow_pos levels)))
    Nat.one_pos rfl
    (Rust.generateCommitment_toList List.sum zeroLeaf zeroBytes)

end Completeness

section Soundness

variable
    {lightPoseidon circomlib : List Fr → Fr}

/-- A satisfied circuit on a tree's root opens a leaf or shows a collision. -/
theorem satisfied_leaf_or_collision
    (computes : ComputesCircomlib lightPoseidon circomlib)
    {leaves : List Bytes32}
    {tree : Rust.IncrementalMerkleTree}
    (tracks : Rust.Tracks (Rust.poseidonHash lightPoseidon) leaves tree)
    {signals : Circuit.Withdraw levels}
    (satisfied : signals.Constraints circomlib)
    (onRoot : signals.root = tree.root.toFr) :
    circomlib [signals.secret, signals.nullifier] =
        (padded zeroLeaf leaves signals.leafIndex).toFr ∨
      ∃ level : Fin levels,
        Collides (Circuit.hashPair circomlib)
          ((signals.tree.hashers level).left,
            (signals.tree.hashers level).right)
          (fieldPair (Rust.poseidonHash lightPoseidon) leaves level
            (signals.leafIndex / 2 ^ (level.val + 1))) := by
  have opens := satisfied.opens (by decide)
  have fieldRoot :
      signals.root =
        node (Circuit.hashPair circomlib)
          (fun leaf => (padded zeroLeaf leaves leaf).toFr) levels 0 := by
    rw [onRoot, tracks.root_eq]
    exact toFr_node computes _ _ _
  rcases opens.leaf_or_collision fieldRoot with
    isLeaf | ⟨level, inside, collides⟩
  · exact Or.inl isLeaf
  · right
    refine ⟨⟨level, inside⟩, ?_⟩
    rw [satisfied.pair_eq_openingPair, fieldPair_eq computes]
    exact collides

/-- Equal commitments have equal nullifier hashes or show a collision. -/
theorem nullifierHash_eq_or_collision
    {levels' : ℕ}
    {first second : Circuit.Withdraw levels'}
    (firstSatisfied : first.Constraints circomlib)
    (secondSatisfied : second.Constraints circomlib)
    (sameCommitment : first.commitment = second.commitment) :
    first.nullifierHash = second.nullifierHash ∨
      Collides (Circuit.hashPair circomlib)
        (first.secret, first.nullifier)
        (second.secret, second.nullifier) := by
  by_cases same :
      (first.secret, first.nullifier) = (second.secret, second.nullifier)
  · left
    rw [firstSatisfied.nullifierHash_eq,
      secondSatisfied.nullifierHash_eq]
    exact congrArg (fun pair => circomlib [pair.2]) same
  · right
    refine ⟨same, ?_⟩
    rw [firstSatisfied.commitment_eq,
      secondSatisfied.commitment_eq] at sameCommitment
    exact sameCommitment

/--
The circuit opens only leaves that are in the tree: over the root of any leaf
sequence that fits, a satisfying assignment has Boolean path indices and its
commitment is the leaf they spell, unless a pair on its path collides with the
tree's pair at the same node; and equal commitments have equal nullifier
hashes, unless the two secret pairs collide.
-/
theorem satisfied_opens_leaf
    (computes : ComputesCircomlib lightPoseidon circomlib)
    {leaves : List Bytes32}
    (fits : leaves.length ≤ 2 ^ levels) :
    ∃ roots tree,
      Rust.IncrementalMerkleTree.built (Rust.poseidonHash lightPoseidon)
          leaves = .ok (roots, tree) ∧
        (∀ signals : Circuit.Withdraw levels,
          signals.Constraints circomlib →
          signals.root = tree.root.toFr →
          (∀ i,
            signals.pathIndices i = 0 ∨ signals.pathIndices i = 1) ∧
          (circomlib [signals.secret, signals.nullifier] =
              (padded zeroLeaf leaves signals.leafIndex).toFr ∨
            ∃ level : Fin levels,
              Collides (Circuit.hashPair circomlib)
                ((signals.tree.hashers level).left,
                  (signals.tree.hashers level).right)
                (fieldPair (Rust.poseidonHash lightPoseidon) leaves
                  level (signals.leafIndex / 2 ^ (level.val + 1))))) ∧
        ∀ first second : Circuit.Withdraw levels,
          first.Constraints circomlib →
          second.Constraints circomlib →
          first.commitment = second.commitment →
          first.nullifierHash = second.nullifierHash ∨
            Collides (Circuit.hashPair circomlib)
              (first.secret, first.nullifier)
              (second.secret, second.nullifier) := by
  obtain ⟨tree, built, tracks⟩ :=
    Rust.built_of_room (Rust.poseidonHash lightPoseidon) fits
  refine ⟨_, tree, built, ?_, ?_⟩
  · intro signals satisfied onRoot
    constructor
    · exact (satisfied.opens (by decide)).boolean
    · exact satisfied_leaf_or_collision computes tracks satisfied onRoot
  · intro first second firstSatisfied secondSatisfied sameCommitment
    exact
      nullifierHash_eq_or_collision firstSatisfied secondSatisfied
        sameCommitment

/--
In a tree of two leaves, with the sum as the hash, the honest assignment of the
second note is satisfied, and what it opens is the second leaf.
-/
theorem satisfied_opens_leaf_second :
    let hash := Rust.poseidonHash List.sum
    let leaves := [zeroLeaf, hash zeroLeaf zeroBytes]
    ∃ (roots : List Bytes32) (tree : Rust.IncrementalMerkleTree)
        (signals : Circuit.Withdraw levels),
      Rust.IncrementalMerkleTree.built hash leaves = .ok (roots, tree) ∧
        signals.Constraints List.sum ∧
        signals.root = tree.root.toFr ∧
        signals.leafIndex = 1 ∧
        (∀ i,
          signals.pathIndices i = 0 ∨ signals.pathIndices i = 1) ∧
        ([signals.secret, signals.nullifier].sum =
            (padded zeroLeaf leaves 1).toFr ∨
          ∃ level : Fin levels,
            Collides (Circuit.hashPair List.sum)
              ((signals.tree.hashers level).left,
                (signals.tree.hashers level).right)
              (fieldPair hash leaves level (1 / 2 ^ (level.val + 1)))) ∧
        ∀ other : Circuit.Withdraw levels,
          other.Constraints List.sum →
          signals.commitment = other.commitment →
          signals.nullifierHash = other.nullifierHash ∨
            Collides (Circuit.hashPair List.sum)
              (signals.secret, signals.nullifier)
              (other.secret, other.nullifier) := by
  intro hash leaves
  have computes : ComputesCircomlib List.sum List.sum :=
    ⟨fun _ => rfl, fun _ _ => rfl⟩
  have fits : leaves.length ≤ 2 ^ levels := by
    change 2 ≤ 2 ^ 20
    decide
  let inputs :=
    noteInputs (Rust.pathOf hash leaves 1)
      (Rust.poseidonHashSingle List.sum zeroBytes) zeroLeaf zeroBytes
      0 0 0 0
  have opens : inputs.Opens List.sum :=
    noteInputs_opens computes fits rfl 0 0 0 0
  have satisfied :
      (Circuit.Withdraw.compute List.sum inputs).Constraints List.sum :=
    Circuit.Withdraw.compute_constraints List.sum opens
  have isSecond :
      (Circuit.Withdraw.compute List.sum inputs).leafIndex = 1 :=
    Circuit.WithdrawInputs.leafIndex_of_bits (by decide) pathOf_index
  obtain ⟨tree, built, tracks⟩ := Rust.built_of_room hash fits
  have onRoot :
      (Circuit.Withdraw.compute List.sum inputs).root = tree.root.toFr := by
    rw [tracks.root_eq]
    rfl
  obtain ⟨roots, sameTree, sameBuilt, opensLeaf, sameNote⟩ :=
    satisfied_opens_leaf computes fits
  obtain ⟨rfl, rfl⟩ :=
    Prod.mk.inj (Except.ok.inj (built.symm.trans sameBuilt))
  obtain ⟨boolean, isLeaf⟩ := opensLeaf _ satisfied onRoot
  rw [isSecond] at isLeaf
  exact
    ⟨_, tree, Circuit.Withdraw.compute List.sum inputs, built, satisfied,
      onRoot, isSecond, boolean, isLeaf,
      fun other otherSatisfied =>
        sameNote _ other satisfied otherSatisfied⟩

end Soundness

end StarkCash
