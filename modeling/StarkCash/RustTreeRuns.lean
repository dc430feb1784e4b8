import StarkCash.RustTreeInvariant
import StarkCash.TreeOpening

namespace StarkCash.Rust

/-!
# Runs of the Rust tree

A fresh tree tracks the empty sequence, so a tree built from any sequence that
fits tracks that sequence.  From there the results of `root`, `is_known_root`
and `get_proof` are read off the perfect tree over the padded leaves.
-/

open PerfectTree

section Runs

variable (hash : Bytes32 → Bytes32 → Bytes32)

/-- The frontier row of a fresh tree (`filled_subtrees` in `new`). -/
def freshSubtrees : Vector Bytes32 levels :=
  (List.finRange levels).foldl
    (fun filled (i : Fin levels) =>
      filled.set i (zeros hash zeroLeaf i) i.isLt)
    (Vector.replicate levels zeroBytes)

/-- A fresh tree. -/
def fresh : IncrementalMerkleTree where
  nextIndex := 0
  filledSubtrees := freshSubtrees hash
  roots :=
    (Vector.replicate rootHistorySize zeroBytes).set 0
      (zeros hash zeroLeaf levels) rootHistorySize_pos
  currentRootIndex := ⟨0, rootHistorySize_pos⟩
  storage := MerkleStorage.new

/-- `empty_tree_root` is the padding root of the whole tree. -/
theorem emptyTreeRoot_eq_ok :
    emptyTreeRoot hash = .ok (zeros hash zeroLeaf levels) :=
  getZero_eq_ok hash (Nat.lt_succ_self levels)

/-- `new` does not panic. -/
theorem new_eq_ok :
    IncrementalMerkleTree.new hash = .ok (fresh hash) := by
  have filled :
      (List.finRange levels).foldlM
          (fun filled (i : Fin levels) => do
            return filled.set i (← getZero hash i) i.isLt)
          (Vector.replicate levels zeroBytes) =
        (.ok (freshSubtrees hash) :
          Except Panic (Vector Bytes32 levels)) := by
    refine Imperative.foldlM_eq_ok ?_ _ _
    intro filled i
    rw [getZero_eq_ok hash (Nat.lt_succ_of_lt i.isLt)]
    rfl
  simp only [IncrementalMerkleTree.new, filled, emptyTreeRoot_eq_ok]
  rfl

/-- A fresh tree tracks the empty sequence. -/
theorem fresh_tracks :
    Tracks hash [] (fresh hash) := by
  constructor
  · simp
  · rfl
  · exact FrontierFor.empty _
  · rfl
  · refine HistoryRing.Holds.start ?_ ?_
    · rw [rootAfter, List.take_nil, root_nil]
      rfl
    · intro slot written inRing
      simp [fresh, row, inRing, Nat.ne_of_lt written]
  · intro level index _
    simp [fresh]

variable {hash}

/-- The roots returned by inserting further leaves, in order. -/
def rootsFrom
    (hash : Bytes32 → Bytes32 → Bytes32)
    (earlier : List Bytes32) :
    List Bytes32 → List Bytes32
  | [] => []
  | leaf :: rest =>
      PerfectTree.root hash zeroLeaf levels (earlier ++ [leaf]) ::
        rootsFrom hash (earlier ++ [leaf]) rest

/-- While there is room, inserting leaves tracks them one after another. -/
theorem insertAll_of_room
    {earlier : List Bytes32}
    {tree : IncrementalMerkleTree}
    (tracks : Tracks hash earlier tree)
    {leaves : List Bytes32}
    (room : earlier.length + leaves.length ≤ 2 ^ levels) :
    ∃ after,
      IncrementalMerkleTree.insertAll hash leaves tree =
          .ok (rootsFrom hash earlier leaves) after ∧
        Tracks hash (earlier ++ leaves) after := by
  induction leaves generalizing earlier tree with
  | nil =>
      refine ⟨tree, rfl, ?_⟩
      simpa using tracks
  | cons leaf rest inductionHypothesis =>
      have roomForOne : earlier.length < 2 ^ levels := by
        simp only [List.length_cons] at room
        omega
      obtain ⟨after, restRun, restTracks⟩ :=
        inductionHypothesis
          (tracks.inserted roomForOne)
          (by
            simp only [List.length_append, List.length_cons,
              List.length_nil] at room ⊢
            omega)
      refine ⟨after, ?_, ?_⟩
      · unfold IncrementalMerkleTree.insertAll
        rw [Imperative.bind_of_ok (insert_of_room (tracks.hasRoom roomForOne)),
          Imperative.bind_of_ok restRun, insertLoop_root tracks roomForOne]
        rfl
      · simpa using restTracks

/-- The roots returned are those of the prefixes. -/
theorem rootsFrom_eq
    (earlier leaves : List Bytes32) :
    rootsFrom hash earlier leaves =
      (List.range leaves.length).map fun inserts =>
        rootAfter hash (earlier ++ leaves)
          (earlier.length + inserts + 1) := by
  induction leaves generalizing earlier with
  | nil =>
      rfl
  | cons leaf rest inductionHypothesis =>
      have first :
          rootAfter hash (earlier ++ leaf :: rest) (earlier.length + 0 + 1) =
            PerfectTree.root hash zeroLeaf levels (earlier ++ [leaf]) := by
        have prefixEq :
            earlier ++ leaf :: rest = (earlier ++ [leaf]) ++ rest := by
          simp
        rw [prefixEq, rootAfter,
          List.take_left' (by simp)]
      rw [rootsFrom, inductionHypothesis, List.length_cons,
        List.range_succ_eq_map, List.map_cons, List.map_map, first]
      congr 1
      refine List.map_congr_left ?_
      intro inserts _
      have sameCount :
          (earlier ++ [leaf]).length + inserts + 1 =
            earlier.length + inserts.succ + 1 := by
        simp only [List.length_append, List.length_cons, List.length_nil]
        omega
      rw [sameCount, List.append_assoc]
      rfl

/-- Building a tree inserts the leaves into the fresh tree. -/
theorem built_eq
    (leaves : List Bytes32) :
    IncrementalMerkleTree.built hash leaves =
      match IncrementalMerkleTree.insertAll hash leaves (fresh hash) with
      | .ok roots tree => .ok (roots, tree)
      | .error panic _ => .error panic := by
  unfold IncrementalMerkleTree.built
  rw [new_eq_ok]
  rfl

/-- Every sequence that fits can be inserted into a fresh tree. -/
theorem built_of_room
    (hash : Bytes32 → Bytes32 → Bytes32)
    {leaves : List Bytes32}
    (room : leaves.length ≤ 2 ^ levels) :
    ∃ tree,
      IncrementalMerkleTree.built hash leaves =
          .ok (rootsFrom hash [] leaves, tree) ∧
        Tracks hash leaves tree := by
  have fits : ([] : List Bytes32).length + leaves.length ≤ 2 ^ levels := by
    simpa using room
  obtain ⟨tree, run, tracks⟩ :=
    insertAll_of_room (fresh_tracks hash) fits
  refine ⟨tree, ?_, tracks⟩
  rw [built_eq, run]

/--
The trees reached from a fresh one by calls of `insert`, with the leaves that
were inserted and the roots that were returned; a call that panics leaves the
tree as it returns it.
-/
inductive Reachable
    (hash : Bytes32 → Bytes32 → Bytes32) :
    List Bytes32 → List Bytes32 → IncrementalMerkleTree → Prop where
  | created
      {tree : IncrementalMerkleTree}
      (created : IncrementalMerkleTree.new hash = .ok tree) :
      Reachable hash [] [] tree
  | inserted
      {leaves roots : List Bytes32}
      {tree after : IncrementalMerkleTree}
      {leaf root : Bytes32}
      (before : Reachable hash leaves roots tree)
      (completed :
        IncrementalMerkleTree.insert hash leaf tree = .ok root after) :
      Reachable hash (leaves ++ [leaf]) (roots ++ [root]) after
  | panicked
      {leaves roots : List Bytes32}
      {tree after : IncrementalMerkleTree}
      {leaf : Bytes32}
      {panic : Panic}
      (before : Reachable hash leaves roots tree)
      (failed :
        IncrementalMerkleTree.insert hash leaf tree = .error panic after) :
      Reachable hash leaves roots after

/-- A tree that tracks leaves panics on insert exactly if it is full. -/
theorem Tracks.insert_cases
    {leaves : List Bytes32}
    {tree : IncrementalMerkleTree}
    (tracks : Tracks hash leaves tree)
    (leaf : Bytes32) :
    leaves.length < 2 ^ levels ∧
        IncrementalMerkleTree.insert hash leaf tree =
          .ok (PerfectTree.root hash zeroLeaf levels (leaves ++ [leaf]))
            (Rust.inserted hash leaf tree) ∨
      leaves.length = 2 ^ levels ∧
        IncrementalMerkleTree.insert hash leaf tree =
          .error ⟨"Merkle tree is full"⟩ tree := by
  rcases Nat.lt_or_eq_of_le tracks.capacity with room | full
  · left
    refine ⟨room, ?_⟩
    rw [insert_of_room (tracks.hasRoom room), insertLoop_root tracks room]
  · right
    refine ⟨full, insert_of_full ?_⟩
    rw [tracks.nextIndex]
    exact full.ge

/-- Every reachable tree tracks the leaves that were inserted. -/
theorem Reachable.tracks
    {leaves roots : List Bytes32}
    {tree : IncrementalMerkleTree}
    (reachable : Reachable hash leaves roots tree) :
    Tracks hash leaves tree := by
  induction reachable with
  | created created =>
      rw [new_eq_ok] at created
      cases created
      exact fresh_tracks hash
  | @inserted leaves roots tree after leaf root before completed tracks =>
      rcases tracks.insert_cases leaf with ⟨room, result⟩ | ⟨_, result⟩
      · rw [result] at completed
        cases completed
        exact tracks.inserted room
      · rw [result] at completed
        cases completed
  | @panicked leaves roots tree after leaf panic before failed tracks =>
      rcases tracks.insert_cases leaf with ⟨_, result⟩ | ⟨_, result⟩
      · rw [result] at failed
        cases failed
      · rw [result] at failed
        cases failed
        exact tracks

/-- Inserting leaves one after another reaches what it returns. -/
theorem Reachable.insertAll
    {leaves roots newLeaves newRoots : List Bytes32}
    {tree after : IncrementalMerkleTree}
    (reachable : Reachable hash leaves roots tree)
    (completed :
      IncrementalMerkleTree.insertAll hash newLeaves tree =
        .ok newRoots after) :
    Reachable hash (leaves ++ newLeaves) (roots ++ newRoots) after := by
  induction newLeaves generalizing leaves roots newRoots tree with
  | nil =>
      cases completed
      rw [List.append_nil, List.append_nil]
      exact reachable
  | cons leaf rest inductionHypothesis =>
      obtain ⟨root, middle, first, completed⟩ :=
        Imperative.bind_eq_ok.mp completed
      obtain ⟨restRoots, last, restRun, completed⟩ :=
        Imperative.bind_eq_ok.mp completed
      cases completed
      have reached :=
        inductionHypothesis (Reachable.inserted reachable first) restRun
      rw [List.append_assoc, List.append_assoc] at reached
      exact reached

/-- A tree built from leaves is reachable. -/
theorem Reachable.built
    {leaves roots : List Bytes32}
    {tree : IncrementalMerkleTree}
    (completed :
      IncrementalMerkleTree.built hash leaves = .ok (roots, tree)) :
    Reachable hash leaves roots tree := by
  rw [built_eq] at completed
  cases inserted :
      IncrementalMerkleTree.insertAll hash leaves (fresh hash) with
  | ok newRoots after =>
      rw [inserted] at completed
      cases completed
      exact (Reachable.created (new_eq_ok hash)).insertAll inserted
  | error panic after =>
      rw [inserted] at completed
      cases completed

end Runs

section Queries

variable
    {hash : Bytes32 → Bytes32 → Bytes32}
    {leaves : List Bytes32}
    {tree : IncrementalMerkleTree}

/-- The current root is the root of all leaves. -/
theorem Tracks.root_eq
    (tracks : Tracks hash leaves tree) :
    tree.root = PerfectTree.root hash zeroLeaf levels leaves := by
  have newest :=
    tracks.history.recent leaves.length le_rfl
      (Nat.lt_add_of_pos_right (by decide))
  rw [← tracks.position, rootAfter_length,
    row_of_lt _ tree.currentRootIndex.isLt] at newest
  exact newest

/-- A root is known exactly if it is nonzero and one of the last roots. -/
theorem Tracks.isKnownRoot_iff
    (tracks : Tracks hash leaves tree)
    (root : Bytes32) :
    tree.isKnownRoot root = true ↔
      root ≠ zeroBytes ∧
        ∃ position,
          HistoryRing.InWindow rootHistorySize leaves.length position ∧
            rootAfter hash leaves position = root := by
  by_cases isZero : root = zeroBytes
  · simp [IncrementalMerkleTree.isKnownRoot, isZero]
  · have inRing :
        tree.isKnownRoot root = true ↔
          ∃ slot, slot < rootHistorySize ∧ row tree.roots slot = root := by
      simp only [IncrementalMerkleTree.isKnownRoot, isZero, ↓reduceIte,
        Vector.contains_iff_mem, Vector.mem_iff_getElem]
      constructor
      · rintro ⟨slot, inside, found⟩
        exact ⟨slot, inside, by rw [row_of_lt _ inside, found]⟩
      · rintro ⟨slot, inside, found⟩
        exact ⟨slot, inside, by rw [← found, row_of_lt _ inside]⟩
    rw [inRing, tracks.history.exists_slot_iff isZero]
    exact (and_iff_right isZero).symm

/-- The sibling of the ancestor of a leaf at a level. -/
def siblingOf
    (hash : Bytes32 → Bytes32 → Bytes32)
    (leaves : List Bytes32)
    (index level : ℕ) : Bytes32 :=
  node hash (padded zeroLeaf leaves) level (siblingIndex index level)

/-- The path of a leaf, as `get_proof` returns it. -/
def pathOf
    (hash : Bytes32 → Bytes32 → Bytes32)
    (leaves : List Bytes32)
    (index : ℕ) : MerkleProof where
  root := PerfectTree.root hash zeroLeaf levels leaves
  pathElements := (List.range levels).map (siblingOf hash leaves index)
  pathIndices :=
    (List.range levels).map fun level =>
      UInt8.ofNat (index / 2 ^ level % 2)

/-- A stored sibling, or the padding in place of an absent one. -/
theorem StoresTree.sibling
    {storage : MerkleStorage}
    (stores : StoresTree hash leaves storage)
    (index : ℕ)
    (i : Fin levels) :
    (storage.get i ((index / 2 ^ i.val) ^^^ 1)).getD
        (zeros hash zeroLeaf i) =
      siblingOf hash leaves index i := by
  have position :
      (index / 2 ^ i.val) ^^^ 1 = siblingIndex index i := by
    rw [xor_one, siblingIndex, div_pow_succ]
  rw [position, stores i _ (Nat.le_of_lt i.isLt), siblingOf]
  split
  · rfl
  · next absent =>
      rw [node_of_length_le hash zeroLeaf (Nat.le_of_not_lt absent)]
      rfl

/-- One iteration of `get_proof` extends the path by one level. -/
theorem proofLevel_eq_ok
    (tree : IncrementalMerkleTree)
    (path : List Bytes32 × List UInt8 × ℕ)
    (i : Fin levels) :
    IncrementalMerkleTree.proofLevel hash tree path i =
      .ok (path.1 ++
          [(tree.storage.get i (path.2.2 ^^^ 1)).getD
            (zeros hash zeroLeaf i)],
        path.2.1 ++ [UInt8.ofNat (path.2.2 % 2)],
        path.2.2 / 2) := by
  obtain ⟨pathElements, pathIndices, curr⟩ := path
  cases stored : tree.storage.get i (curr ^^^ 1) with
  | some sibling =>
      simp only [IncrementalMerkleTree.proofLevel, stored]
      rfl
  | none =>
      simp only [IncrementalMerkleTree.proofLevel, stored,
        getZero_eq_ok hash (Nat.lt_succ_of_lt i.isLt)]
      rfl

/-- For every leaf present `get_proof` returns the leaf's path. -/
theorem Tracks.getProof_eq_ok
    (tracks : Tracks hash leaves tree)
    {index : ℕ}
    (present : index < leaves.length) :
    tree.getProof hash index = .ok (pathOf hash leaves index) := by
  have walked :
      (List.finRange levels).foldl
          (fun (path : List Bytes32 × List UInt8 × ℕ) (i : Fin levels) =>
            (path.1 ++
                [(tree.storage.get i (path.2.2 ^^^ 1)).getD
                  (zeros hash zeroLeaf i)],
              path.2.1 ++ [UInt8.ofNat (path.2.2 % 2)],
              path.2.2 / 2))
          ([], [], index) =
        ((List.range levels).map (siblingOf hash leaves index),
          (List.range levels).map
            (fun level => UInt8.ofNat (index / 2 ^ level % 2)),
          index / 2 ^ levels) := by
    refine
      Imperative.foldl_finRange_invariant
        (fun level path =>
          path =
            ((List.range level).map (siblingOf hash leaves index),
              (List.range level).map
                (fun lower => UInt8.ofNat (index / 2 ^ lower % 2)),
              index / 2 ^ level))
        ?_ ?_
    · simp
    · rintro path i rfl
      dsimp only
      rw [tracks.stores.sibling index i, div_pow_succ,
        List.range_succ, List.map_append, List.map_append]
      rfl
  have inBounds : ¬ index ≥ tree.nextIndex := by
    rw [tracks.nextIndex]
    exact Nat.not_le_of_lt present
  simp only [IncrementalMerkleTree.getProof, inBounds, ↓reduceIte,
    Imperative.foldlM_eq_ok (proofLevel_eq_ok tree), walked, tracks.root_eq]
  rfl

/--
The node store is exact: a node of the tree is stored exactly if its block
contains an inserted leaf, a stored value is that of the tree over the padded
leaves, and for the other nodes that value is `get_zero` of the level.
-/
theorem storage_exact
    {roots : List Bytes32}
    (reachable : Reachable hash leaves roots tree)
    (level index : ℕ)
    (inTree : level ≤ levels) :
    ((tree.storage.get level index).isSome = true ↔
        index * 2 ^ level < leaves.length) ∧
      (∀ stored,
        tree.storage.get level index = some stored →
        stored = node hash (padded zeroLeaf leaves) level index) ∧
      (tree.storage.get level index = none →
        getZero hash level =
          .ok (node hash (padded zeroLeaf leaves) level index)) := by
  rw [reachable.tracks.stores level index inTree]
  by_cases inside : index * 2 ^ level < leaves.length
  · rw [if_pos inside]
    refine ⟨iff_of_true rfl inside, ?_, ?_⟩
    · intro stored found
      exact (Option.some.inj found).symm
    · intro absent
      cases absent
  · rw [if_neg inside]
    refine ⟨iff_of_false Bool.false_ne_true inside, ?_, ?_⟩
    · intro stored found
      cases found
    · intro _
      rw [node_of_length_le hash zeroLeaf (Nat.le_of_not_lt inside)]
      exact getZero_eq_ok hash (Nat.lt_succ_of_le inTree)

/-- Exclusive or of two arrays. -/
def xorBytes (left right : Bytes32) : Bytes32 :=
  Vector.zipWith (fun first second => first ^^^ second) left right

/-- Three leaves. -/
def threeLeaves : List Bytes32 :=
  [Vector.replicate 32 1, Vector.replicate 32 2, Vector.replicate 32 3]

/--
With three leaves inserted, the node over the third and its padding is stored
with their hash; the next node of that level is absent, and `get_zero` returns
its value, that of two padding leaves.
-/
theorem storage_exact_three :
    ∃ roots tree,
      IncrementalMerkleTree.built xorBytes threeLeaves =
          .ok (roots, tree) ∧
        tree.storage.get 1 1 =
          some (xorBytes (Vector.replicate 32 3) zeroLeaf) ∧
        tree.storage.get 1 2 = none ∧
        getZero xorBytes 1 = .ok (xorBytes zeroLeaf zeroLeaf) := by
  obtain ⟨tree, built, _⟩ :=
    built_of_room xorBytes
      (show threeLeaves.length ≤ 2 ^ levels by decide)
  have reachable := Reachable.built built
  obtain ⟨present, exact, _⟩ :=
    storage_exact reachable 1 1 (by decide)
  obtain ⟨stored, found⟩ :=
    Option.isSome_iff_exists.mp (present.mpr (by decide))
  have storedEq := exact stored found
  obtain ⟨beyond, _, default⟩ :=
    storage_exact reachable 1 2 (by decide)
  have absent : tree.storage.get 1 2 = none := by
    rw [← Option.not_isSome_iff_eq_none, beyond]
    decide
  refine ⟨_, tree, built, ?_, absent, default absent⟩
  rw [found, storedEq]
  rfl

end Queries

end StarkCash.Rust
