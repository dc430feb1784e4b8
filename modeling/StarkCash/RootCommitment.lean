import StarkCash.ReentrantRuns
import StarkCash.TreeBinding

namespace StarkCash

/-!
# A root commits to the deposit history

Inserting leaves into a fresh tree of either implementation ends with the root
of the padded sequence, so equal roots mean equal histories up to trailing
padding, or a node at which the two trees hash different pairs to one value.
-/

open PerfectTree

/-- The two implementations of the incremental tree. -/
inductive Implementation where
  | rust
  | cairo

/-- The roots returned and the current root after inserting into a fresh tree. -/
def Implementation.insertAll
    (hash : U256 → U256 → U256)
    (leaves : List U256) :
    Implementation → Except Panic (List U256 × U256)
  | .rust => do
      let (roots, tree) ←
        Rust.IncrementalMerkleTree.built (Cairo.rustHash hash)
          (leaves.map U256.toBytes32)
      return (roots.map Bytes32.toU256, tree.root.toU256)
  | .cairo =>
      match
        Cairo.TreeStorage.insertAll hash leaves
          (Cairo.TreeStorage.initialized hash) with
      | .ok roots state => .ok (roots, state.storage.getRoot)
      | .error panic _ => .error panic

section Commitment

variable
    {hash : U256 → U256 → U256}
    {leaves : List U256}

/-- Every sequence that fits is inserted, with the roots of its prefixes. -/
theorem Implementation.insertAll_of_room
    (implementation : Implementation)
    (fits : leaves.length ≤ 2 ^ Cairo.levels) :
    implementation.insertAll hash leaves =
      .ok
        (Cairo.rootsFrom hash [] leaves,
          PerfectTree.root hash Cairo.zeroLeaf Cairo.levels leaves) := by
  cases implementation with
  | rust =>
      have rustFits :
          (leaves.map U256.toBytes32).length ≤ 2 ^ Rust.levels := by
        rw [List.length_map]
        exact fits
      obtain ⟨tree, built, tracks⟩ :=
        Rust.built_of_room (Cairo.rustHash hash) rustFits
      have current :
          tree.root.toU256 =
            PerfectTree.root hash Cairo.zeroLeaf Cairo.levels leaves := by
        rw [tracks.root_eq, ← Cairo.root_toBytes32,
          U256.toU256_toBytes32]
      have returned :
          (Rust.rootsFrom (Cairo.rustHash hash) []
                (leaves.map U256.toBytes32)).map
              Bytes32.toU256 =
            Cairo.rootsFrom hash [] leaves := by
        rw [← Cairo.rootsFrom_toBytes32, List.map_map]
        exact List.map_id'' U256.toU256_toBytes32 _
      simp only [Implementation.insertAll, built, Imperative.ok_bind,
        current, returned]
      rfl
  | cairo =>
      have room :
          ([] : List U256).length + leaves.length ≤ 2 ^ Cairo.levels := by
        rw [List.length_nil, Nat.zero_add]
        exact fits
      obtain ⟨state, built, tracks⟩ :=
        Cairo.insertAll_of_room (Cairo.initialized_tracks hash) room
      simp only [Implementation.insertAll, built, tracks.getRoot_eq]
      rfl

/-- Inserting one more leaf returns one more root. -/
theorem rootsFrom_concat
    (leaf : U256) :
    Cairo.rootsFrom hash [] (leaves ++ [leaf]) =
      Cairo.rootsFrom hash [] leaves ++
        [PerfectTree.root hash Cairo.zeroLeaf Cairo.levels
          (leaves ++ [leaf])] := by
  have lengthEq : (leaves ++ [leaf]).length = leaves.length + 1 := by
    rw [List.length_append, List.length_singleton]
  have newest :
      Cairo.rootAfter hash (leaves ++ [leaf]) (leaves.length + 1) =
        PerfectTree.root hash Cairo.zeroLeaf Cairo.levels
          (leaves ++ [leaf]) := by
    rw [← lengthEq, Cairo.rootAfter_length]
  rw [Cairo.rootsFrom, Cairo.rootsFrom, lengthEq, List.range_succ,
    List.map_append, List.map_singleton, List.length_nil,
    Nat.zero_add, List.nil_append, List.nil_append, newest]
  congr 1
  refine List.map_congr_left ?_
  intro inserts member
  rw [Nat.zero_add]
  exact
    Cairo.rootAfter_append [leaf]
      (Nat.succ_le_of_lt (List.mem_range.mp member))

/-- The empty root and the returned roots are those of all prefixes. -/
theorem emptyRoot_cons_rootsFrom :
    PerfectTree.root hash Cairo.zeroLeaf Cairo.levels [] ::
        Cairo.rootsFrom hash [] leaves =
      (List.range (leaves.length + 1)).map fun inserts =>
        PerfectTree.root hash Cairo.zeroLeaf Cairo.levels
          (leaves.take inserts) := by
  rw [List.range_succ_eq_map, List.map_cons, List.map_map, List.take_zero,
    Cairo.rootsFrom]
  congr 1
  refine List.map_congr_left ?_
  intro inserts _
  rw [List.nil_append, List.length_nil, Nat.zero_add]
  rfl

/-- The trees of two sequences hash different pairs to one value at a node. -/
def HistoriesCollide
    (hash : U256 → U256 → U256)
    (first second : List U256) : Prop :=
  CollidingNode hash Cairo.levels
    (padded Cairo.zeroLeaf first)
    (padded Cairo.zeroLeaf second)

/--
A root commits to the deposit history, in either implementation: equal current
roots mean equal padded sequences, a further leaf other than the zero leaf
changes the root, and without zero leaves the empty root and all returned roots
are pairwise different, unless two of the trees have a colliding node.
-/
theorem root_commits
    (hash : U256 → U256 → U256)
    (firstTree secondTree : Implementation)
    {first second : List U256}
    (firstFits : first.length ≤ 2 ^ Cairo.levels)
    (secondFits : second.length ≤ 2 ^ Cairo.levels) :
    ∃ emptyRoot firstRoots firstRoot secondRoots secondRoot,
      firstTree.insertAll hash [] = .ok ([], emptyRoot) ∧
        firstTree.insertAll hash first = .ok (firstRoots, firstRoot) ∧
        secondTree.insertAll hash second =
          .ok (secondRoots, secondRoot) ∧
        (firstRoot = secondRoot →
          (∀ position,
            position < 2 ^ Cairo.levels →
            padded Cairo.zeroLeaf first position =
              padded Cairo.zeroLeaf second position) ∨
            HistoriesCollide hash first second) ∧
        (∀ leaf,
          leaf ≠ Cairo.zeroLeaf →
          first.length < 2 ^ Cairo.levels →
          ∃ changed,
            firstTree.insertAll hash (first ++ [leaf]) =
                .ok (firstRoots ++ [changed], changed) ∧
              (changed ≠ firstRoot ∨
                HistoriesCollide hash first (first ++ [leaf]))) ∧
        (Cairo.zeroLeaf ∉ first →
          (emptyRoot :: firstRoots).Nodup ∨
            ∃ earlier later,
              earlier < later ∧ later ≤ first.length ∧
                HistoriesCollide hash
                  (first.take earlier) (first.take later)) := by
  refine
    ⟨_, _, _, _, _,
      firstTree.insertAll_of_room (Nat.zero_le _),
      firstTree.insertAll_of_room firstFits,
      secondTree.insertAll_of_room secondFits, ?_, ?_, ?_⟩
  · intro same
    exact leaves_or_collision same
  · intro leaf notZero room
    have appendedFits :
        (first ++ [leaf]).length ≤ 2 ^ Cairo.levels := by
      rw [List.length_append]
      exact Nat.succ_le_of_lt room
    refine ⟨_, ?_, root_concat_ne_or_collision notZero room⟩
    rw [firstTree.insertAll_of_room appendedFits, rootsFrom_concat]
  · intro noZeroLeaf
    rw [emptyRoot_cons_rootsFrom]
    exact roots_nodup noZeroLeaf firstFits

/--
Under exclusive or, a leaf in a Rust tree and the leaf with a zero leaf after it
in a component have one root, and so have two leaves in either order, of which
the trees have a colliding node.
-/
theorem root_commits_padding :
    (∃ emptyRoot firstRoots root secondRoots,
      Implementation.rust.insertAll BitVec.xor [] = .ok ([], emptyRoot) ∧
        Implementation.rust.insertAll BitVec.xor [1#256] =
          .ok (firstRoots, root) ∧
        Implementation.cairo.insertAll BitVec.xor [1#256, Cairo.zeroLeaf] =
          .ok (secondRoots, root) ∧
        ((∀ position,
          position < 2 ^ Cairo.levels →
          padded Cairo.zeroLeaf [1#256] position =
            padded Cairo.zeroLeaf [1#256, Cairo.zeroLeaf] position) ∨
          HistoriesCollide BitVec.xor [1#256] [1#256, Cairo.zeroLeaf]) ∧
        (∃ changed,
          Implementation.rust.insertAll BitVec.xor ([1#256] ++ [2#256]) =
              .ok (firstRoots ++ [changed], changed) ∧
            (changed ≠ root ∨
              HistoriesCollide BitVec.xor [1#256] ([1#256] ++ [2#256]))) ∧
        ((emptyRoot :: firstRoots).Nodup ∨
          ∃ earlier later,
            earlier < later ∧ later ≤ [1#256].length ∧
              HistoriesCollide BitVec.xor
                ([1#256].take earlier) ([1#256].take later))) ∧
      HistoriesCollide BitVec.xor [1#256, 2#256] [2#256, 1#256] := by
  constructor
  · obtain ⟨emptyRoot, firstRoots, firstRoot, secondRoots, secondRoot,
        emptyRun, firstRun, secondRun, binds, changes, differ⟩ :=
      root_commits BitVec.xor .rust .cairo
        (show [1#256].length ≤ 2 ^ Cairo.levels by decide)
        (show [1#256, Cairo.zeroLeaf].length ≤ 2 ^ Cairo.levels by decide)
    have same :
        (Implementation.rust.insertAll BitVec.xor [1#256]).map Prod.snd =
          (Implementation.cairo.insertAll BitVec.xor
            [1#256, Cairo.zeroLeaf]).map Prod.snd := by
      decide +kernel
    rw [firstRun, secondRun] at same
    obtain rfl : firstRoot = secondRoot := Except.ok.inj same
    exact
      ⟨emptyRoot, firstRoots, firstRoot, secondRoots, emptyRun, firstRun,
        secondRun, binds rfl, changes 2#256 (by decide) (by decide),
        differ (by decide)⟩
  · obtain ⟨emptyRoot, firstRoots, firstRoot, secondRoots, secondRoot,
        emptyRun, firstRun, secondRun, binds, -, -⟩ :=
      root_commits BitVec.xor .rust .cairo
        (show [1#256, 2#256].length ≤ 2 ^ Cairo.levels by decide)
        (show [2#256, 1#256].length ≤ 2 ^ Cairo.levels by decide)
    have same :
        (Implementation.rust.insertAll BitVec.xor [1#256, 2#256]).map
            Prod.snd =
          (Implementation.cairo.insertAll BitVec.xor [2#256, 1#256]).map
            Prod.snd := by
      decide +kernel
    rw [firstRun, secondRun] at same
    rcases binds (Except.ok.inj same) with equal | collide
    · have first := equal 0 (by decide)
      exact absurd first (by decide)
    · exact collide

end Commitment

end StarkCash
