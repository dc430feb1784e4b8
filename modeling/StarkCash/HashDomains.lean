import StarkCash.CircomlibPoseidon
import StarkCash.NoteOpening
import StarkCash.StructuralProofs
import StarkCash.TreeBinding

namespace StarkCash

/-!
# The contract's hash and the circuit's hash

The contracts hash with Starknet's Poseidon, the Rust code and the circuits
with circomlib's over another prime.  The trees are built alike over hashes
that differ on the padding already, and a path of the Rust tree leads the
circuit to the root of the Rust tree only.
-/

open PerfectTree
open Rust (levels zeroLeaf zeroBytes)

section Hashes

variable (poseidonHashSpan : List Felt252 → Felt252)

/-- The contract's hash is below the Stark prime. -/
theorem poseidonHash2_lt
    (left right : U256) :
    (Cairo.poseidonHash2 poseidonHashSpan left right).toNat <
      2 ^ 251 + 17 * 2 ^ 192 + 1 := by
  have below :=
    (poseidonHashSpan [left.low, left.high, right.low, right.high]).isLt
  rw [Cairo.poseidonHash2, U256.ofFelt, BitVec.toNat_ofNat,
    Nat.mod_eq_of_lt (below.trans (by decide))]
  exact below

variable {lightPoseidon circomlib : List Fr → Fr}

/-- The bytes of a word denote its residue. -/
theorem toFr_toBytes32
    (word : U256) :
    word.toBytes32.toFr = word.toFr := by
  rw [Bytes32.toFr, U256.toBytes32, Bytes32.toNat_ofNat_of_lt word.isLt,
    U256.toFr]

/-- The Rust hash is circomlib's hash of the residues, written canonically. -/
theorem poseidonHash_toNat
    (computes : ComputesCircomlib lightPoseidon circomlib)
    (isPoseidon : Circuit.IsPoseidonTwo circomlib)
    (left right : U256) :
    (Rust.poseidonHash lightPoseidon left.toBytes32
        right.toBytes32).toNat =
      (Circuit.poseidonTwo left.toFr right.toFr).val := by
  have fits :
      (Circuit.poseidonTwo left.toFr right.toFr).val < 2 ^ 256 :=
    (ZMod.val_lt _).trans (by decide)
  rw [Rust.poseidonHash, computes.two, isPoseidon, toFr_toBytes32,
    toFr_toBytes32, Bytes32.ofFr, Bytes32.toNat_ofNat_of_lt fits]

end Hashes

section Paths

/-- The path elements of a proof as field elements. -/
def Rust.MerkleProof.fieldElements
    (proof : Rust.MerkleProof) : Fin levels → Fr :=
  fun i => (proof.pathElements.getD i zeroBytes).toFr

/-- The path indices of a proof as field elements. -/
def Rust.MerkleProof.fieldIndices
    (proof : Rust.MerkleProof) : Fin levels → Fr :=
  fun i => ((proof.pathIndices.getD i 0).toNat : Fr)

/-- A path satisfies `MerkleTreeChecker` with a leaf and a root. -/
def Rust.MerkleProof.Satisfies
    (circomlib : List Fr → Fr)
    (leaf root : Fr)
    (proof : Rust.MerkleProof) : Prop :=
  ∃ checker : Circuit.MerkleTreeChecker levels,
    checker.Constraints circomlib ∧
      checker.leaf = leaf ∧ checker.root = root ∧
      checker.pathElements = proof.fieldElements ∧
      checker.pathIndices = proof.fieldIndices

variable
    {lightPoseidon circomlib : List Fr → Fr}
    {leaves : List Bytes32}
    {index : ℕ}

/-- The path indices of a leaf are bits. -/
theorem pathOf_boolean
    (hash : Bytes32 → Bytes32 → Bytes32)
    (i : Fin levels) :
    (Rust.pathOf hash leaves index).fieldIndices i = 0 ∨
      (Rust.pathOf hash leaves index).fieldIndices i = 1 := by
  have bit :
      (Rust.pathOf hash leaves index).fieldIndices i =
        ((index / 2 ^ i.val % 2 : ℕ) : Fr) :=
    pathOf_index i
  rw [bit]
  rcases Nat.mod_two_eq_zero_or_one (index / 2 ^ i.val) with even | odd
  · left
    rw [even, Nat.cast_zero]
  · right
    rw [odd, Nat.cast_one]

/-- Opening a leaf along its path recomputes the root of the tree. -/
theorem pathOf_opening
    (computes : ComputesCircomlib lightPoseidon circomlib)
    (fits : leaves.length ≤ 2 ^ levels)
    (present : index < leaves.length) :
    let path := Rust.pathOf (Rust.poseidonHash lightPoseidon) leaves index
    opening (Circuit.hashPair circomlib) leaves[index].toFr
        (Circuit.extended path.fieldElements)
        (Circuit.sides (Circuit.extended path.fieldIndices)) levels =
      (PerfectTree.root (Rust.poseidonHash lightPoseidon) zeroLeaf levels
        leaves).toFr := by
  intro path
  let inputs := noteInputs path zeroBytes zeroBytes zeroBytes 0 0 0 0
  have sidesOf :
      ∀ level,
        level < levels →
        (Circuit.sides (Circuit.extended path.fieldIndices) level).toNat =
          index / 2 ^ level % 2 := by
    intro level inside
    have bits :
        ∀ i : Fin levels,
          inputs.pathIndices i = ((index / 2 ^ i.val % 2 : ℕ) : Fr) :=
      pathOf_index
    exact Circuit.WithdrawInputs.sides_toNat bits inside
  have siblingsOf :
      ∀ level,
        level < levels →
        Circuit.extended path.fieldElements level =
          node (Circuit.hashPair circomlib)
            (fun leaf => (padded zeroLeaf leaves leaf).toFr) level
            (siblingIndex index level) := by
    intro level inside
    rw [← toFr_node computes]
    simp only [Circuit.extended, inside, ↓reduceDIte]
    exact congrArg Bytes32.toFr (pathOf_element ⟨level, inside⟩)
  have reached := opening_of_siblings sidesOf siblingsOf levels le_rfl
  rw [padded_of_lt zeroLeaf present,
    Nat.div_eq_of_lt (present.trans_le fits), ← toFr_node computes]
    at reached
  exact reached

/-- The path of a leaf satisfies the checker with the tree's root alone. -/
theorem pathOf_satisfies_iff
    (computes : ComputesCircomlib lightPoseidon circomlib)
    (fits : leaves.length ≤ 2 ^ levels)
    (present : index < leaves.length)
    (root : Fr) :
    (Rust.pathOf (Rust.poseidonHash lightPoseidon) leaves
          index).Satisfies circomlib leaves[index].toFr root ↔
      root =
        (PerfectTree.root (Rust.poseidonHash lightPoseidon) zeroLeaf levels
          leaves).toFr := by
  have reached := pathOf_opening computes fits present
  constructor
  · rintro ⟨checker, satisfied, isLeaf, isRoot, elements, indices⟩
    rw [← isRoot, satisfied.root_eq (by decide), isLeaf, elements, indices]
    exact reached
  · intro isRoot
    refine
      ⟨Circuit.MerkleTreeChecker.compute circomlib leaves[index].toFr root
        _ _, ?_, rfl, rfl, rfl, rfl⟩
    apply Circuit.MerkleTreeChecker.compute_constraints
    · exact pathOf_boolean _
    · rw [isRoot]
      exact reached.symm

end Paths

section Roots

/-- Circomlib's hash of two padding leaves is beyond the Stark prime. -/
theorem poseidonTwo_padding :
    2 ^ 251 + 17 * 2 ^ 192 + 1 ≤
      (Circuit.poseidonTwo zeroLeaf.toFr zeroLeaf.toFr).val := by
  decide +kernel

/-- A root is the hash of the two nodes below it. -/
theorem root_eq_hash
    (hash : U256 → U256 → U256)
    (leaves : List U256) :
    PerfectTree.root hash Cairo.zeroLeaf Cairo.levels leaves =
      hash
        (nodePair hash (padded Cairo.zeroLeaf leaves) 19 0).1
        (nodePair hash (padded Cairo.zeroLeaf leaves) 19 0).2 :=
  rfl

/-- A root over the contract's hash is below the Stark prime. -/
theorem onChainRoot_lt
    (poseidonHashSpan : List Felt252 → Felt252)
    (leaves : List U256) :
    (PerfectTree.root (Cairo.poseidonHash2 poseidonHashSpan) Cairo.zeroLeaf
        Cairo.levels leaves).toNat <
      2 ^ 251 + 17 * 2 ^ 192 + 1 := by
  rw [root_eq_hash]
  exact poseidonHash2_lt poseidonHashSpan _ _

variable {lightPoseidon circomlib : List Fr → Fr}

/-- Above two padding leaves the nodes of the two trees differ. -/
theorem padding_nodes_differ
    (poseidonHashSpan : List Felt252 → Felt252)
    (computes : ComputesCircomlib lightPoseidon circomlib)
    (isPoseidon : Circuit.IsPoseidonTwo circomlib)
    {leaves : List U256}
    {index : ℕ}
    (isPadding : leaves.length ≤ 2 * index) :
    (node (Cairo.poseidonHash2 poseidonHashSpan)
        (padded Cairo.zeroLeaf leaves) 1 index).toBytes32 ≠
      node (Rust.poseidonHash lightPoseidon)
        (padded zeroLeaf (leaves.map U256.toBytes32)) 1 index := by
  intro same
  have rustPadding :
      (leaves.map U256.toBytes32).length ≤ index * 2 ^ 1 := by
    rw [List.length_map]
    omega
  have cairoPadding : leaves.length ≤ index * 2 ^ 1 := by
    omega
  rw [node_of_length_le _ _ cairoPadding,
    node_of_length_le _ _ rustPadding] at same
  have offChain :=
    poseidonHash_toNat computes isPoseidon Cairo.zeroLeaf Cairo.zeroLeaf
  have onChain :=
    poseidonHash2_lt poseidonHashSpan Cairo.zeroLeaf Cairo.zeroLeaf
  have leafEq : Cairo.zeroLeaf.toFr = zeroLeaf.toFr := by
    rw [← Cairo.zeroLeaf_toBytes32, toFr_toBytes32]
  rw [Cairo.zeroLeaf_toBytes32] at offChain
  have sameNumber := congrArg Bytes32.toNat same
  simp only [zeros] at sameNumber
  rw [offChain, U256.toBytes32,
    Bytes32.toNat_ofNat_of_lt (BitVec.isLt _), leafEq] at sameNumber
  rw [sameNumber] at onChain
  exact absurd poseidonTwo_padding (Nat.not_le_of_lt onChain)

/-- What the deposits of a run make of the two trees. -/
structure TreesCompare
    (poseidonHashSpan : List Felt252 → Felt252)
    (lightPoseidon circomlib : List Fr → Fr)
    (leaves : List U256)
    (onChainRoot : U256)
    (tree : Rust.IncrementalMerkleTree) : Prop where
  onChain :
    onChainRoot =
      PerfectTree.root (Cairo.poseidonHash2 poseidonHashSpan)
        Cairo.zeroLeaf Cairo.levels leaves
  offChain :
    tree.root =
      PerfectTree.root (Rust.poseidonHash lightPoseidon) zeroLeaf levels
        (leaves.map U256.toBytes32)
  belowStarkPrime :
    onChainRoot.toNat < 2 ^ 251 + 17 * 2 ^ 192 + 1
  differ :
    ∀ index,
      leaves.length ≤ 2 * index →
      (node (Cairo.poseidonHash2 poseidonHashSpan)
          (padded Cairo.zeroLeaf leaves) 1 index).toBytes32 ≠
        node (Rust.poseidonHash lightPoseidon)
          (padded zeroLeaf (leaves.map U256.toBytes32)) 1 index
  paths :
    ∀ index (present : index < leaves.length),
      ∃ path,
        tree.getProof (Rust.poseidonHash lightPoseidon) index =
            .ok path ∧
          path.Satisfies circomlib leaves[index].toFr tree.root.toFr ∧
          (path.Satisfies circomlib leaves[index].toFr
              onChainRoot.toFr ↔
            onChainRoot.toFr = tree.root.toFr)

/-- The two trees over any leaves that fit compare. -/
theorem treesCompare_of_room
    (poseidonHashSpan : List Felt252 → Felt252)
    (computes : ComputesCircomlib lightPoseidon circomlib)
    (isPoseidon : Circuit.IsPoseidonTwo circomlib)
    {leaves : List U256}
    (fits : leaves.length ≤ 2 ^ Cairo.levels) :
    ∃ roots tree,
      Rust.IncrementalMerkleTree.built (Rust.poseidonHash lightPoseidon)
            (leaves.map U256.toBytes32) =
          .ok (roots, tree) ∧
        TreesCompare poseidonHashSpan lightPoseidon circomlib leaves
          (PerfectTree.root (Cairo.poseidonHash2 poseidonHashSpan)
            Cairo.zeroLeaf Cairo.levels leaves)
          tree := by
  have rustFits :
      (leaves.map U256.toBytes32).length ≤ 2 ^ levels := by
    rw [List.length_map]
    exact fits
  obtain ⟨tree, built, tracks⟩ :=
    Rust.built_of_room (Rust.poseidonHash lightPoseidon) rustFits
  refine ⟨_, tree, built, ?_⟩
  constructor
  · rfl
  · exact tracks.root_eq
  · exact onChainRoot_lt poseidonHashSpan leaves
  · intro index isPadding
    exact
      padding_nodes_differ poseidonHashSpan computes isPoseidon isPadding
  · intro index present
    have rustPresent : index < (leaves.map U256.toBytes32).length := by
      rw [List.length_map]
      exact present
    have leafEq :
        (leaves.map U256.toBytes32)[index].toFr = leaves[index].toFr := by
      rw [List.getElem_map, toFr_toBytes32]
    have satisfies :=
      pathOf_satisfies_iff computes rustFits rustPresent
    rw [leafEq] at satisfies
    rw [tracks.root_eq]
    exact
      ⟨_, tracks.getProof_eq_ok rustPresent, (satisfies _).mpr rfl,
        satisfies _⟩

/--
The contract's hash is Starknet's, below the Stark prime; the Rust hash is the
one of the circuit.  After every run the on-chain root is that of the deposited
leaves over the contract's hash and the Rust root that over the other, the nodes
above two padding leaves differ, and the paths of the Rust tree satisfy the
circuit with the Rust root, and with the on-chain root exactly if that denotes
the same residue.
-/
theorem trees_compare
    (poseidonHashSpan : List Felt252 → Felt252)
    (computes : ComputesCircomlib lightPoseidon circomlib)
    (isPoseidon : Circuit.IsPoseidonTwo circomlib) :
    (∀ left right : U256,
        (Cairo.poseidonHash2 poseidonHashSpan left right).toNat <
            2 ^ 251 + 17 * 2 ^ 192 + 1 ∧
          (Rust.poseidonHash lightPoseidon left.toBytes32
              right.toBytes32).toNat =
            (Circuit.poseidonTwo left.toFr right.toFr).val ∧
          ∀ component : Circuit.HashLeftRight,
            component.Constraints circomlib →
            component.left = left.toFr →
            component.right = right.toFr →
            component.hash =
              (Rust.poseidonHash lightPoseidon left.toBytes32
                right.toBytes32).toFr) ∧
      ∀ {Token : Type}
        (self tokenAddress : ContractAddress)
        (denomination : U256)
        (token : Token)
        (codes : List (Cairo.ForeignCode Cairo.Groth16Proof Token)),
        let pool :=
          Cairo.ghostPool poseidonHashSpan self tokenAddress denomination
        let world := pool.run codes (pool.deployed token)
        let leaves := Cairo.leavesOf world.receipts
        ∃ roots tree,
          Rust.IncrementalMerkleTree.built
                (Rust.poseidonHash lightPoseidon)
                (leaves.map U256.toBytes32) =
              .ok (roots, tree) ∧
            TreesCompare poseidonHashSpan lightPoseidon circomlib leaves
              world.pool.merkleTree.getRoot tree := by
  constructor
  · intro left right
    refine
      ⟨poseidonHash2_lt poseidonHashSpan left right,
        poseidonHash_toNat computes isPoseidon left right, ?_⟩
    intro component satisfied isLeft isRight
    rw [satisfied.hash_eq_poseidonTwo isPoseidon, isLeft, isRight,
      Bytes32.toFr, poseidonHash_toNat computes isPoseidon,
      ZMod.natCast_zmod_val]
  · intro Token self tokenAddress denomination token codes pool world leaves
    have tracks := (pool.run_ledger token codes).tracks
    have compare :=
      treesCompare_of_room poseidonHashSpan computes isPoseidon
        tracks.capacity
    rw [tracks.getRoot_eq]
    exact compare

/-- Circomlib's permutation of two inputs, and no other number of them. -/
def permutationOfTwo (inputs : List Fr) : Fr :=
  Circuit.poseidonTwo (inputs.getD 0 0) (inputs.getD 1 0)

/-- After the deposits of one and two, over a sponge that adds its input. -/
theorem trees_compare_one_two :
    let pool := Cairo.ghostPool List.sum 1 2 1
    let world := pool.run (Cairo.depositing [1, 2]) (pool.deployed ())
    Cairo.leavesOf world.receipts = [1, 2] ∧
      ∃ roots tree,
        Rust.IncrementalMerkleTree.built
              (Rust.poseidonHash permutationOfTwo)
              [(1 : U256).toBytes32, (2 : U256).toBytes32] =
            .ok (roots, tree) ∧
          TreesCompare List.sum permutationOfTwo permutationOfTwo [1, 2]
            world.pool.merkleTree.getRoot tree := by
  intro pool world
  have leavesEq : Cairo.leavesOf world.receipts = [1, 2] :=
    pool.leavesOf_depositing () (by decide)
  have compared :=
    (trees_compare List.sum
      (⟨fun _ => rfl, fun _ _ => rfl⟩ :
        ComputesCircomlib permutationOfTwo permutationOfTwo)
      (fun _ _ => rfl)).2 1 2 1 () (Cairo.depositing [1, 2])
  obtain ⟨roots, tree, built, compare⟩ := compared
  rw [leavesEq] at built compare
  exact ⟨leavesEq, roots, tree, built, compare⟩

/-- On one and two the hashes differ, whatever Starknet's sponge returns. -/
theorem hashes_differ_one_two :
    ¬ ∃ (poseidonHashSpan : List Felt252 → Felt252)
        (lightPoseidon circomlib : List Fr → Fr),
        ComputesCircomlib lightPoseidon circomlib ∧
          Circuit.IsPoseidonTwo circomlib ∧
          (Cairo.poseidonHash2 poseidonHashSpan 1 2).toBytes32 =
            Rust.poseidonHash lightPoseidon (1 : U256).toBytes32
              (2 : U256).toBytes32 := by
  rintro ⟨poseidonHashSpan, lightPoseidon, circomlib, computes, isPoseidon,
    same⟩
  have offChain := poseidonHash_toNat computes isPoseidon 1 2
  have onChain := poseidonHash2_lt poseidonHashSpan 1 2
  have one : (1 : U256).toFr = 1 := Nat.cast_one
  have two : (2 : U256).toFr = 2 := Nat.cast_ofNat
  rw [← same, U256.toBytes32,
    Bytes32.toNat_ofNat_of_lt (BitVec.isLt _), one, two,
    Circuit.poseidonTwo_one_two] at offChain
  rw [offChain] at onChain
  revert onChain
  decide

end Roots

end StarkCash
