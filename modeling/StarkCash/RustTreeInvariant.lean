import StarkCash.FrontierClimb
import StarkCash.HistoryRing
import StarkCash.RustMerkleTree

namespace StarkCash.Rust

/-!
# Invariant of the Rust tree

`Tracks hash leaves tree` says that a tree was filled with exactly the given
leaves: its next index is their number, its frontier row, its root ring and
its node store are those of the perfect tree over the padded leaves.  An insert
into a tree with room tracks the longer sequence and returns its root.
-/

open PerfectTree

section Indices

/-- Clearing the lowest bit of a `u32` gives the even index of the pair. -/
theorem and_not_one
    {index : ℕ}
    (fits : index < 2 ^ 32) :
    index &&& 0xFFFFFFFE = 2 * (index / 2) := by
  have upper : (index &&& 0xFFFFFFFE) / 2 = index / 2 := by
    have mask : 0xFFFFFFFE / 2 = 2 ^ 31 - 1 := rfl
    rw [Nat.and_div_two, mask, Nat.and_two_pow_sub_one_eq_mod]
    omega
  have lower : ¬ (index &&& 0xFFFFFFFE) % 2 = 1 := by
    rw [Nat.and_mod_two_eq_one]
    simp
  omega

/-- Setting the lowest bit gives the odd index of the pair. -/
theorem or_one
    (index : ℕ) :
    index ||| 1 = 2 * (index / 2) + 1 := by
  have upper : (index ||| 1) / 2 = index / 2 := by
    simp [Nat.or_div_two]
  have lower : (index ||| 1) % 2 = 1 := by
    simp
  omega

/-- Flipping the lowest bit gives the other index of the pair. -/
theorem xor_one
    (index : ℕ) :
    index ^^^ 1 = 2 * (index / 2) + (1 - index % 2) := by
  have upper : (index ^^^ 1) / 2 = index / 2 := by
    simp [Nat.xor_div_two]
  have lower :
      (index ^^^ 1) % 2 = 1 ↔ ¬ (index % 2 = 1 ↔ 1 % 2 = 1) :=
    Nat.xor_mod_two_eq_one
  omega

end Indices

section Zeros

variable (hash : Bytes32 → Bytes32 → Bytes32)

/-- The table holds the padding root of every level. -/
theorem zeroTable_getElem?
    {level : ℕ}
    (inTable : level < levels + 1) :
    (zeroTable hash)[level]? = some (zeros hash zeroLeaf level) := by
  let filledUpTo
      (count : ℕ)
      (state : Vector Bytes32 (levels + 1) × Bytes32) : Prop :=
    state.2 = zeros hash zeroLeaf count ∧
      ∀ lower,
        lower ≤ count →
        lower < levels + 1 →
        state.1[lower]? = some (zeros hash zeroLeaf lower)
  have filled :
      filledUpTo levels
        ((List.finRange levels).foldl (zeroTableLevel hash)
          ((Vector.replicate (levels + 1) zeroBytes).set 0 zeroLeaf,
            zeroLeaf)) := by
    refine
      Imperative.foldl_finRange_invariant filledUpTo ⟨rfl, ?_⟩ ?_
    · intro lower atMost _
      obtain rfl : lower = 0 := Nat.le_zero.mp atMost
      rfl
    · rintro ⟨table, current⟩ i ⟨currentEq, tableEq⟩
      dsimp only at currentEq tableEq
      subst currentEq
      refine ⟨rfl, ?_⟩
      intro lower atMost below
      dsimp only [zeroTableLevel]
      rcases Nat.le_succ_iff.mp atMost with earlier | rfl
      · rw [Vector.getElem?_set_ne _ (by omega)]
        exact tableEq lower earlier below
      · rw [Vector.getElem?_set_self]
        rfl
  exact filled.2 level (Nat.le_of_lt_succ inTable) inTable

/-- Up to the root level `get_zero` returns the padding root. -/
theorem getZero_eq_ok
    {level : ℕ}
    (inTable : level < levels + 1) :
    getZero hash level = .ok (zeros hash zeroLeaf level) := by
  have stored := zeroTable_getElem? hash inTable
  rw [Vector.getElem?_eq_getElem inTable] at stored
  simp only [getZero, inTable, ↓reduceDIte, Option.some.inj stored]

end Zeros

/-- A vector of arrays as a row over all naturals. -/
def row
    {length : ℕ}
    (vector : Vector Bytes32 length) : ℕ → Bytes32 :=
  fun index => vector[index]?.getD zeroBytes

/-- Inside its length the row is the vector. -/
theorem row_of_lt
    {length index : ℕ}
    (vector : Vector Bytes32 length)
    (inside : index < length) :
    row vector index = vector[index] := by
  simp [row, inside]

/-- Inside its length the row is read by `get`. -/
theorem row_fin
    {length : ℕ}
    (vector : Vector Bytes32 length)
    (index : Fin length) :
    row vector index = vector.get index :=
  row_of_lt vector index.isLt

/-- Writing an entry updates the row. -/
theorem row_set
    {length index : ℕ}
    (vector : Vector Bytes32 length)
    (value : Bytes32)
    (inside : index < length) :
    row (vector.set index value) =
      Function.update (row vector) index value := by
  funext position
  by_cases same : position = index
  · subst same
    simp [row, inside]
  · rw [Function.update_of_ne same]
    simp [row, Vector.getElem?_set_ne _ (Ne.symm same)]

section Levels

variable (hash : Bytes32 → Bytes32 → Bytes32)

/-- The iteration of `insert` with `get_zero` replaced by its value. -/
def levelResult
    (nextIndex : ℕ)
    (loop : InsertLoop)
    (i : Fin levels) : InsertLoop :=
  let left :=
    if loop.currentIndex % 2 = 0 then
      loop.currentHash
    else
      loop.filledSubtrees.get i
  let right :=
    if loop.currentIndex % 2 = 0 then
      zeros hash zeroLeaf i
    else
      loop.currentHash
  let storage :=
    loop.storage.insert i ((nextIndex >>> i.val) &&& 0xFFFFFFFE) left
  let storage :=
    if loop.currentIndex % 2 = 0 then
      storage
    else
      storage.insert i ((nextIndex >>> i.val) ||| 1) right
  { filledSubtrees :=
      if loop.currentIndex % 2 = 0 then
        loop.filledSubtrees.set i loop.currentHash i.isLt
      else
        loop.filledSubtrees
    storage :=
      storage.insert (i + 1) (nextIndex >>> (i.val + 1)) (hash left right)
    currentIndex := loop.currentIndex / 2
    currentHash := hash left right }

/-- No iteration of `insert` panics. -/
theorem insertLevel_eq_ok
    (nextIndex : ℕ)
    (loop : InsertLoop)
    (i : Fin levels) :
    IncrementalMerkleTree.insertLevel hash nextIndex loop i =
      .ok (levelResult hash nextIndex loop i) := by
  have zeroOk : getZero hash i = .ok (zeros hash zeroLeaf i) :=
    getZero_eq_ok hash (Nat.lt_succ_of_lt i.isLt)
  by_cases even : loop.currentIndex % 2 = 0
  · simp only [IncrementalMerkleTree.insertLevel, levelResult, even,
      ↓reduceIte, zeroOk]
    rfl
  · simp only [IncrementalMerkleTree.insertLevel, levelResult, even,
      ↓reduceIte]
    rfl

/-- The loop state as the state of an abstract climb. -/
def InsertLoop.climb (loop : InsertLoop) : Climb Bytes32 where
  index := loop.currentIndex
  current := loop.currentHash
  filled := row loop.filledSubtrees

/-- An iteration of `insert` is one level of the abstract climb. -/
theorem climb_levelResult
    (nextIndex : ℕ)
    (loop : InsertLoop)
    (i : Fin levels) :
    (levelResult hash nextIndex loop i).climb =
      loop.climb.level hash zeroLeaf i := by
  by_cases even : loop.currentIndex % 2 = 0
  · simp only [levelResult, InsertLoop.climb, Climb.level, even,
      ↓reduceIte, row_set _ _ i.isLt]
  · simp only [levelResult, InsertLoop.climb, Climb.level, even,
      ↓reduceIte, row_fin]

end Levels

section Storage

variable
    {hash : Bytes32 → Bytes32 → Bytes32}
    {leaves : List Bytes32}
    {leaf : Bytes32}

/--
The node store of a leaf sequence: a node is stored exactly if its block
contains a leaf, and then with its value in the tree over the padded leaves.
-/
def StoresTree
    (hash : Bytes32 → Bytes32 → Bytes32)
    (leaves : List Bytes32)
    (storage : MerkleStorage) : Prop :=
  ∀ level index,
    level ≤ levels →
    storage.get level index =
      if index * 2 ^ level < leaves.length then
        some (node hash (padded zeroLeaf leaves) level index)
      else
        none

/--
The node store during an insert, after some number of levels: the ancestors of
the new leaf up to that level have their new values, everything else is as it
was before.
-/
structure StoreClimbed
    (hash : Bytes32 → Bytes32 → Bytes32)
    (leaves : List Bytes32)
    (leaf : Bytes32)
    (before : MerkleStorage)
    (level : ℕ)
    (storage : MerkleStorage) : Prop where
  ancestors :
    ∀ lower,
      lower ≤ level →
      storage.get lower (leaves.length / 2 ^ lower) =
        some
          (node hash (padded zeroLeaf (leaves ++ [leaf])) lower
            (leaves.length / 2 ^ lower))
  others :
    ∀ upper index,
      level < upper ∨ index ≠ leaves.length / 2 ^ upper →
      storage.get upper index = before.get upper index

/-- Storing the leaf starts the climb of the node store. -/
theorem StoreClimbed.start
    (before : MerkleStorage) :
    StoreClimbed hash leaves leaf before 0
      (before.insert 0 leaves.length leaf) := by
  constructor
  · intro lower atMost
    obtain rfl : lower = 0 := Nat.le_zero.mp atMost
    simp [node, padded_concat_self]
  · intro upper index other
    have differs : ¬ (upper = 0 ∧ index = leaves.length) := by
      rintro ⟨rfl, rfl⟩
      simp at other
    simp [differs]

/-- Beside a right child the stored left sibling is the frontier's. -/
theorem leftSibling_get
    {before : MerkleStorage}
    {filledBefore : ℕ → Bytes32}
    {loop : InsertLoop}
    (i : Fin levels)
    (stores : StoresTree hash leaves before)
    (frontier : FrontierFor hash zeroLeaf levels leaves filledBefore)
    (climbed :
      Climbed hash zeroLeaf leaves leaf filledBefore i loop.climb)
    (storeClimbed :
      StoreClimbed hash leaves leaf before i loop.storage)
    (odd : loop.currentIndex % 2 = 1) :
    loop.storage.get i (loop.currentIndex - 1) =
      some (loop.filledSubtrees.get i) := by
  have indexEq : loop.currentIndex = leaves.length / 2 ^ i.val :=
    climbed.index
  have own : loop.currentIndex - 1 + 1 = loop.currentIndex := by
    omega
  have leftIndexNe :
      loop.currentIndex - 1 ≠ leaves.length / 2 ^ i.val := by
    omega
  have leftInside :
      (loop.currentIndex - 1) * 2 ^ i.val < leaves.length := by
    have below :=
      Nat.div_mul_le_self leaves.length (2 ^ i.val)
    rw [← indexEq, ← own, Nat.add_mul, Nat.one_mul] at below
    have positive := Nat.two_pow_pos i.val
    omega
  have rowEq :
      loop.filledSubtrees.get i = filledBefore i := by
    rw [← climbed.untouched i le_rfl]
    exact (row_fin loop.filledSubtrees i).symm
  rw [storeClimbed.others i _ (Or.inr leftIndexNe),
    stores i _ (Nat.le_of_lt i.isLt), rowEq,
    frontier.leftSibling i i.isLt (indexEq ▸ odd), ← indexEq]
  simp only [leftInside, ↓reduceIte]

/--
Storing the two siblings of a level changes nothing: the climbed node is
already there, and a left sibling is stored with its own value.
-/
theorem siblings_get
    {before : MerkleStorage}
    {filledBefore : ℕ → Bytes32}
    {loop : InsertLoop}
    (i : Fin levels)
    (room : leaves.length < 2 ^ levels)
    (stores : StoresTree hash leaves before)
    (frontier : FrontierFor hash zeroLeaf levels leaves filledBefore)
    (climbed :
      Climbed hash zeroLeaf leaves leaf filledBefore i loop.climb)
    (storeClimbed :
      StoreClimbed hash leaves leaf before i loop.storage)
    (level index : ℕ) :
    (if loop.currentIndex % 2 = 0 then
        loop.storage.insert i
          ((leaves.length >>> i.val) &&& 0xFFFFFFFE) loop.currentHash
      else
        (loop.storage.insert i
          ((leaves.length >>> i.val) &&& 0xFFFFFFFE)
          (loop.filledSubtrees.get i)).insert i
            ((leaves.length >>> i.val) ||| 1) loop.currentHash).get
        level index =
      loop.storage.get level index := by
  have indexEq : loop.currentIndex = leaves.length / 2 ^ i.val :=
    climbed.index
  have hashEq :
      loop.storage.get i (leaves.length / 2 ^ i.val) =
        some loop.currentHash := by
    rw [storeClimbed.ancestors i le_rfl]
    exact congrArg some climbed.current.symm
  have fits : leaves.length / 2 ^ i.val < 2 ^ 32 :=
    (Nat.div_le_self leaves.length (2 ^ i.val)).trans_lt
      (room.trans (by decide))
  rw [Nat.shiftRight_eq_div_pow, and_not_one fits, or_one, ← indexEq]
  rcases Nat.mod_two_eq_zero_or_one loop.currentIndex with even | odd
  · have own : 2 * (loop.currentIndex / 2) = loop.currentIndex := by
      omega
    simp only [even, ↓reduceIte, own, MerkleStorage.get_insert]
    split
    · next position =>
        rw [position.1, position.2, indexEq, hashEq]
    · rfl
  · have left : 2 * (loop.currentIndex / 2) = loop.currentIndex - 1 := by
      omega
    have own : loop.currentIndex - 1 + 1 = loop.currentIndex := by
      omega
    have leftValue :=
      leftSibling_get i stores frontier climbed storeClimbed odd
    simp only [odd, Nat.one_ne_zero, ↓reduceIte, left, own,
      MerkleStorage.get_insert]
    split
    · next position =>
        rw [position.1, position.2, indexEq, hashEq]
    · split
      · next position =>
          rw [position.1, position.2, leftValue]
      · rfl

/-- One iteration of `insert` keeps the node store climbing. -/
theorem StoreClimbed.level
    {before : MerkleStorage}
    {filledBefore : ℕ → Bytes32}
    {loop : InsertLoop}
    (i : Fin levels)
    (room : leaves.length < 2 ^ levels)
    (stores : StoresTree hash leaves before)
    (frontier : FrontierFor hash zeroLeaf levels leaves filledBefore)
    (climbed :
      Climbed hash zeroLeaf leaves leaf filledBefore i loop.climb)
    (storeClimbed :
      StoreClimbed hash leaves leaf before i loop.storage) :
    StoreClimbed hash leaves leaf before (i + 1)
      (levelResult hash leaves.length loop i).storage := by
  have parent :
      (levelResult hash leaves.length loop i).currentHash =
        node hash (padded zeroLeaf (leaves ++ [leaf])) (i + 1)
          (leaves.length / 2 ^ (i.val + 1)) := by
    have next := climbed.level frontier i.isLt
    rw [← climb_levelResult hash leaves.length] at next
    exact next.current
  have stored :
      ∀ level index,
        (levelResult hash leaves.length loop i).storage.get level index =
          if level = i + 1 ∧ index = leaves.length / 2 ^ (i.val + 1) then
            some (levelResult hash leaves.length loop i).currentHash
          else
            loop.storage.get level index := by
    intro level index
    rw [← siblings_get i room stores frontier climbed storeClimbed level
      index]
    by_cases even : loop.currentIndex % 2 = 0
    · simp only [levelResult, even, ↓reduceIte, MerkleStorage.get_insert,
        Nat.shiftRight_eq_div_pow]
    · simp only [levelResult, even, ↓reduceIte, MerkleStorage.get_insert,
        Nat.shiftRight_eq_div_pow]
  constructor
  · intro lower atMost
    rw [stored]
    rcases Nat.le_succ_iff.mp atMost with earlier | rfl
    · have below : lower ≠ i + 1 := by
        omega
      simp only [below, false_and, ↓reduceIte]
      exact storeClimbed.ancestors lower earlier
    · simp only [Nat.succ_eq_add_one, true_and, ↓reduceIte, parent]
  · intro upper index other
    rw [stored]
    have differs :
        ¬ (upper = i + 1 ∧ index = leaves.length / 2 ^ (i.val + 1)) := by
      rintro ⟨rfl, rfl⟩
      simp at other
    simp only [differs, ↓reduceIte]
    exact storeClimbed.others upper index (other.imp_left Nat.lt_of_succ_lt)

/-- A completed climb stores the tree of the longer sequence. -/
theorem StoreClimbed.storesTree
    {before storage : MerkleStorage}
    (stores : StoresTree hash leaves before)
    (storeClimbed :
      StoreClimbed hash leaves leaf before levels storage) :
    StoresTree hash (leaves ++ [leaf]) storage := by
  intro level index inTree
  have lengthEq : (leaves ++ [leaf]).length = leaves.length + 1 := by
    simp
  by_cases ancestor : index = leaves.length / 2 ^ level
  · subst ancestor
    have inside :
        leaves.length / 2 ^ level * 2 ^ level <
          (leaves ++ [leaf]).length := by
      rw [lengthEq]
      exact Nat.lt_succ_of_le (Nat.div_mul_le_self _ _)
    simp only [inside, ↓reduceIte]
    exact storeClimbed.ancestors level inTree
  · have sameSide :
        index * 2 ^ level < leaves.length ↔
          index * 2 ^ level < (leaves ++ [leaf]).length := by
      have notStart : index * 2 ^ level ≠ leaves.length := by
        intro start
        rw [← start, Nat.mul_div_cancel _ (Nat.two_pow_pos level)] at ancestor
        exact ancestor rfl
      rw [lengthEq]
      omega
    rw [storeClimbed.others level index (Or.inr ancestor),
      stores level index inTree,
      node_concat_of_ne hash zeroLeaf leaf ancestor]
    simp only [sameSide]

end Storage

/-- The root after the first `count` leaves. -/
def rootAfter
    (hash : Bytes32 → Bytes32 → Bytes32)
    (leaves : List Bytes32)
    (count : ℕ) : Bytes32 :=
  PerfectTree.root hash zeroLeaf levels (leaves.take count)

/-- A tree that was filled with exactly the given leaves. -/
structure Tracks
    (hash : Bytes32 → Bytes32 → Bytes32)
    (leaves : List Bytes32)
    (tree : IncrementalMerkleTree) : Prop where
  capacity :
    leaves.length ≤ 2 ^ levels
  nextIndex :
    tree.nextIndex = leaves.length
  frontier :
    FrontierFor hash zeroLeaf levels leaves (row tree.filledSubtrees)
  position :
    tree.currentRootIndex.val = leaves.length % rootHistorySize
  history :
    HistoryRing.Holds rootHistorySize zeroBytes (rootAfter hash leaves)
      leaves.length (row tree.roots)
  stores :
    StoresTree hash leaves tree.storage

section Insert

variable
    {hash : Bytes32 → Bytes32 → Bytes32}
    {leaves : List Bytes32}
    {leaf : Bytes32}
    {tree : IncrementalMerkleTree}

/-- Earlier roots do not depend on the leaves appended later. -/
theorem rootAfter_append
    (more : List Bytes32)
    {count : ℕ}
    (reached : count ≤ leaves.length) :
    rootAfter hash (leaves ++ more) count = rootAfter hash leaves count := by
  rw [rootAfter, rootAfter, List.take_append_of_le_length reached]

/-- The last root is the root of all leaves. -/
theorem rootAfter_length :
    rootAfter hash leaves leaves.length =
      PerfectTree.root hash zeroLeaf levels leaves := by
  rw [rootAfter, List.take_length]

/-- The loop of `insert`, without its panics. -/
def insertLoop
    (hash : Bytes32 → Bytes32 → Bytes32)
    (leaf : Bytes32)
    (tree : IncrementalMerkleTree) : InsertLoop :=
  (List.finRange levels).foldl (levelResult hash tree.nextIndex)
    { filledSubtrees := tree.filledSubtrees
      storage := tree.storage.insert 0 tree.nextIndex leaf
      currentIndex := tree.nextIndex
      currentHash := leaf }

/-- The tree after an insert with room. -/
def inserted
    (hash : Bytes32 → Bytes32 → Bytes32)
    (leaf : Bytes32)
    (tree : IncrementalMerkleTree) : IncrementalMerkleTree :=
  let loop := insertLoop hash leaf tree
  let currentRootIndex := nextRootIndex tree.currentRootIndex
  { nextIndex := tree.nextIndex + 1
    filledSubtrees := loop.filledSubtrees
    roots :=
      tree.roots.set currentRootIndex loop.currentHash
        currentRootIndex.isLt
    currentRootIndex := currentRootIndex
    storage := loop.storage }

/-- With room, `insert` runs its loop and stores the new root. -/
theorem insert_of_room
    (room : tree.nextIndex < 2 ^ levels) :
    IncrementalMerkleTree.insert hash leaf tree =
      .ok (insertLoop hash leaf tree).currentHash
        (inserted hash leaf tree) := by
  have hasRoom : decide (tree.nextIndex < 1 <<< levels) = true :=
    decide_eq_true room
  refine (Imperative.bind_of_ok rfl).trans ?_
  refine (Imperative.bind_of_ok
    (Imperative.require_of_true hasRoom)).trans ?_
  refine (Imperative.bind_of_ok rfl).trans ?_
  refine (Imperative.bind_of_ok rfl).trans ?_
  refine (Imperative.bind_of_ok
    (Imperative.liftExcept_eq_ok.mpr
      ⟨Imperative.foldlM_eq_ok (insertLevel_eq_ok hash _) _ _, rfl⟩)).trans ?_
  rfl

/-- Without room, `insert` panics before it changes anything. -/
theorem insert_of_full
    (full : 2 ^ levels ≤ tree.nextIndex) :
    IncrementalMerkleTree.insert hash leaf tree =
      .error ⟨"Merkle tree is full"⟩ tree := by
  have noRoom : decide (tree.nextIndex < 1 <<< levels) = false :=
    decide_eq_false (Nat.not_lt.mpr full)
  refine (Imperative.bind_of_ok rfl).trans ?_
  refine Imperative.bind_of_error ?_
  simp only [Imperative.require, noRoom, Bool.false_eq_true, ↓reduceIte]

/-- The loop of `insert` climbs the tree and its node store. -/
theorem insertLoop_climbed
    (leaf : Bytes32)
    (tracks : Tracks hash leaves tree)
    (room : leaves.length < 2 ^ levels) :
    Climbed hash zeroLeaf leaves leaf (row tree.filledSubtrees) levels
        (insertLoop hash leaf tree).climb ∧
      StoreClimbed hash leaves leaf tree.storage levels
        (insertLoop hash leaf tree).storage := by
  unfold insertLoop
  rw [tracks.nextIndex]
  refine
    Imperative.foldl_finRange_invariant
      (fun level (loop : InsertLoop) =>
        Climbed hash zeroLeaf leaves leaf (row tree.filledSubtrees) level
            loop.climb ∧
          StoreClimbed hash leaves leaf tree.storage level loop.storage)
      ?_ ?_
  · exact ⟨Climbed.start, StoreClimbed.start tree.storage⟩
  · rintro loop i ⟨climbed, storeClimbed⟩
    constructor
    · rw [climb_levelResult]
      exact climbed.level tracks.frontier i.isLt
    · exact storeClimbed.level i room tracks.stores tracks.frontier climbed

/-- With room, `insert` returns the root of the longer sequence. -/
theorem insertLoop_root
    (tracks : Tracks hash leaves tree)
    (room : leaves.length < 2 ^ levels) :
    (insertLoop hash leaf tree).currentHash =
      PerfectTree.root hash zeroLeaf levels (leaves ++ [leaf]) :=
  (insertLoop_climbed leaf tracks room).1.root room

/-- A tree that tracks fewer leaves than fit has room. -/
theorem Tracks.hasRoom
    (tracks : Tracks hash leaves tree)
    (room : leaves.length < 2 ^ levels) :
    tree.nextIndex < 2 ^ levels := by
  rw [tracks.nextIndex]
  exact room

/-- An insert keeps the invariant, for the longer sequence. -/
theorem Tracks.inserted
    (tracks : Tracks hash leaves tree)
    (room : leaves.length < 2 ^ levels) :
    Tracks hash (leaves ++ [leaf]) (inserted hash leaf tree) := by
  have climb := insertLoop_climbed leaf tracks room
  have lengthEq : (leaves ++ [leaf]).length = leaves.length + 1 := by
    simp
  have positionEq :
      (tree.currentRootIndex.val + 1) % rootHistorySize =
        (leaves.length + 1) % rootHistorySize := by
    rw [tracks.position, Nat.mod_add_mod]
  constructor
  · rw [lengthEq]
    exact room
  · rw [lengthEq]
    exact congrArg Nat.succ tracks.nextIndex
  · exact climb.1.frontier tracks.frontier
  · rw [lengthEq]
    exact positionEq
  · have newRoot :
        (insertLoop hash leaf tree).currentHash =
          rootAfter hash (leaves ++ [leaf]) (leaves.length + 1) := by
      rw [insertLoop_root tracks room, ← rootAfter_length, lengthEq]
    have earlier :=
      tracks.history.congr fun count reached =>
        (rootAfter_append [leaf] reached).symm
    have pushed := earlier.push
    rw [lengthEq]
    simp only [Rust.inserted, nextRootIndex, row_set, positionEq, newRoot]
    exact pushed
  · exact climb.2.storesTree tracks.stores

end Insert

end StarkCash.Rust
