import StarkCash.CairoTreeInvariant
import StarkCash.RustTreeRuns

namespace StarkCash

/-!
# Incremental insertion computes the Merkle root

The two implementations, run from a fresh tree over any leaf sequence that
fits, return the roots of the perfect trees over the padded prefixes.
-/

/-- What inserting leaves into a fresh Rust tree returns and leaves behind. -/
structure Rust.ComputesRoots
    (hash : Bytes32 → Bytes32 → Bytes32)
    (leaves roots : List Bytes32)
    (tree : Rust.IncrementalMerkleTree) : Prop where
  built :
    Rust.IncrementalMerkleTree.built hash leaves = .ok (roots, tree)
  padding :
    Rust.getZero hash 0 = .ok Rust.zeroLeaf
  returned :
    roots =
      (List.range leaves.length).map fun inserts =>
        PerfectTree.root hash Rust.zeroLeaf Rust.levels
          (leaves.take (inserts + 1))
  current :
    tree.root = PerfectTree.root hash Rust.zeroLeaf Rust.levels leaves
  empty :
    leaves = [] → Rust.getZero hash Rust.levels = .ok tree.root
  full :
    leaves.length = 2 ^ Rust.levels →
    ∀ leaf,
      Rust.IncrementalMerkleTree.insert hash leaf tree =
        .error ⟨"Merkle tree is full"⟩ tree

/-- What inserting leaves into a fresh component returns and leaves behind. -/
structure Cairo.ComputesRoots
    (hash : U256 → U256 → U256)
    (leaves roots : List U256)
    (state : Cairo.ComponentState) : Prop where
  built :
    Cairo.TreeStorage.insertAll hash leaves
        (Cairo.TreeStorage.initialized hash) = .ok roots state
  padding :
    Cairo.getZero hash 0 = Cairo.zeroLeaf
  returned :
    roots =
      (List.range leaves.length).map fun inserts =>
        PerfectTree.root hash Cairo.zeroLeaf Cairo.levels
          (leaves.take (inserts + 1))
  current :
    state.storage.getRoot =
      PerfectTree.root hash Cairo.zeroLeaf Cairo.levels leaves
  empty :
    leaves = [] → state.storage.getRoot = Cairo.getZero hash Cairo.levels
  full :
    leaves.length = 2 ^ Cairo.levels →
    ∀ leaf,
      Cairo.TreeStorage.insert hash leaf state =
        .error ⟨"Merkle tree is full"⟩ state

/-- The Rust tree computes the roots of every sequence that fits. -/
theorem Rust.exists_computesRoots
    (hash : Bytes32 → Bytes32 → Bytes32)
    {leaves : List Bytes32}
    (fits : leaves.length ≤ 2 ^ Rust.levels) :
    ∃ roots tree, Rust.ComputesRoots hash leaves roots tree := by
  obtain ⟨tree, built, tracks⟩ := Rust.built_of_room hash fits
  refine ⟨Rust.rootsFrom hash [] leaves, tree, ?_⟩
  constructor
  · exact built
  · exact Rust.getZero_eq_ok hash (Nat.succ_pos _)
  · rw [Rust.rootsFrom_eq]
    simp only [List.nil_append, List.length_nil, Nat.zero_add]
    rfl
  · exact tracks.root_eq
  · rintro rfl
    rw [tracks.root_eq, PerfectTree.root_nil]
    exact Rust.getZero_eq_ok hash (Nat.lt_succ_self _)
  · intro isFull leaf
    apply Rust.insert_of_full
    rw [tracks.nextIndex, isFull]

/-- The component computes the roots of every sequence that fits. -/
theorem Cairo.exists_computesRoots
    (hash : U256 → U256 → U256)
    {leaves : List U256}
    (fits : leaves.length ≤ 2 ^ Cairo.levels) :
    ∃ roots state, Cairo.ComputesRoots hash leaves roots state := by
  have room :
      ([] : List U256).length + leaves.length ≤ 2 ^ Cairo.levels := by
    simpa using fits
  obtain ⟨state, built, tracks⟩ :=
    Cairo.insertAll_of_room (Cairo.initialized_tracks hash) room
  refine ⟨Cairo.rootsFrom hash [] leaves, state, ?_⟩
  constructor
  · exact built
  · rfl
  · simp only [Cairo.rootsFrom, List.nil_append, List.length_nil,
      Nat.zero_add]
    rfl
  · exact tracks.getRoot_eq
  · rintro rfl
    rw [tracks.getRoot_eq, Cairo.getZero_eq]
    exact PerfectTree.root_nil hash Cairo.zeroLeaf Cairo.levels
  · intro isFull leaf
    apply Cairo.insert_of_full
    rw [tracks.nextIndex]
    simp [isFull]

/--
Incremental insertion computes the true Merkle root, in Rust and in Cairo: for
every hash and every sequence of at most `2 ^ 20` leaves, each insert returns
the root of the padded prefix, the current root is the root of all leaves, and
a full tree rejects a further leaf without a change.
-/
theorem insertion_computes_root
    (rustHash : Bytes32 → Bytes32 → Bytes32)
    (cairoHash : U256 → U256 → U256)
    {rustLeaves : List Bytes32}
    {cairoLeaves : List U256}
    (rustFits : rustLeaves.length ≤ 2 ^ Rust.levels)
    (cairoFits : cairoLeaves.length ≤ 2 ^ Cairo.levels) :
    (∃ roots tree, Rust.ComputesRoots rustHash rustLeaves roots tree) ∧
      ∃ roots state,
        Cairo.ComputesRoots cairoHash cairoLeaves roots state := by
  constructor
  · exact Rust.exists_computesRoots rustHash rustFits
  · exact Cairo.exists_computesRoots cairoHash cairoFits

/-- Two leaves hashed by exclusive or, in both implementations. -/
theorem insertion_computes_root_two :
    (∃ roots tree,
        Rust.ComputesRoots
          (fun left right => Vector.zipWith UInt8.xor left right)
          [Rust.zeroBytes, Rust.zeroLeaf] roots tree) ∧
      ∃ roots state,
        Cairo.ComputesRoots BitVec.xor [1#256, 2#256] roots state :=
  insertion_computes_root
    (fun left right => Vector.zipWith UInt8.xor left right) BitVec.xor
    (by decide) (by decide)

end StarkCash
