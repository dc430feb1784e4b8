import StarkCash.CairoMerkleTree
import StarkCash.FrontierClimb
import StarkCash.HistoryRing

namespace StarkCash.Cairo

/-!
# Invariant of the Merkle tree component

`Tracks hash leaves storage` says that a component was filled with exactly the
given leaves: its next index is their number, its frontier row and its root
ring are those of the perfect tree over the padded leaves.  An initialized
component tracks the empty sequence, and an insert with room tracks the longer
sequence and emits its leaf, index and root.
-/

open PerfectTree

/-- The root after the first `count` leaves. -/
def rootAfter
    (hash : U256 → U256 → U256)
    (leaves : List U256)
    (count : ℕ) : U256 :=
  PerfectTree.root hash zeroLeaf levels (leaves.take count)

/-- A component that was filled with exactly the given leaves. -/
structure Tracks
    (hash : U256 → U256 → U256)
    (leaves : List U256)
    (storage : TreeStorage) : Prop where
  capacity :
    leaves.length ≤ 2 ^ levels
  nextIndex :
    storage.nextIndex = leaves.length
  frontier :
    FrontierFor hash zeroLeaf levels leaves storage.filledSubtrees
  position :
    storage.currentRootIndex = leaves.length % rootHistorySize
  history :
    HistoryRing.Holds rootHistorySize 0 (rootAfter hash leaves)
      leaves.length storage.roots

section Initialize

variable (hash : U256 → U256 → U256)

/-- `get_zero` is the padding root of its level. -/
theorem getZero_eq
    (level : ℕ) :
    getZero hash level = zeros hash zeroLeaf level := by
  unfold getZero
  refine
    Imperative.foldl_range_invariant
      (fun count current => current = zeros hash zeroLeaf count) rfl ?_
  rintro current index _ rfl
  rfl

/-- The root before every insertion is `get_zero` of the whole tree. -/
theorem rootAfter_zero
    (leaves : List U256) :
    rootAfter hash leaves 0 = getZero hash levels := by
  rw [rootAfter, List.take_zero, root_nil, ← getZero_eq]

/-- An initialized component tracks the empty sequence. -/
theorem initialized_tracks :
    Tracks hash [] (TreeStorage.initialized hash).storage := by
  constructor
  · simp
  · rfl
  · exact FrontierFor.empty _
  · rfl
  · refine HistoryRing.Holds.start ?_ ?_
    · rw [rootAfter_zero]
      simp [TreeStorage.initialized, TreeStorage.initializeTree]
    · intro slot written _
      simp [TreeStorage.initialized, TreeStorage.initializeTree,
        Nat.ne_of_gt written, TreeStorage.empty]

end Initialize

section Insert

variable
    {hash : U256 → U256 → U256}
    {leaves : List U256}
    {leaf : U256}
    {state : ComponentState}

/-- Earlier roots do not depend on the leaves appended later. -/
theorem rootAfter_append
    (more : List U256)
    {count : ℕ}
    (reached : count ≤ leaves.length) :
    rootAfter hash (leaves ++ more) count = rootAfter hash leaves count := by
  rw [rootAfter, rootAfter, List.take_append_of_le_length reached]

/-- The last root is the root of all leaves. -/
theorem rootAfter_length :
    rootAfter hash leaves leaves.length =
      PerfectTree.root hash zeroLeaf levels leaves := by
  rw [rootAfter, List.take_length]

/-- The loop state as the state of an abstract climb. -/
def InsertLoop.climb (loop : InsertLoop) : Climb U256 where
  index := loop.currIdx
  current := loop.currentHash
  filled := loop.filledSubtrees

/-- An iteration of `insert` is one level of the abstract climb. -/
theorem climb_insertLevel
    (loop : InsertLoop)
    (i : ℕ) :
    (TreeStorage.insertLevel hash loop i).climb =
      loop.climb.level hash zeroLeaf i := by
  by_cases even : loop.currIdx % 2 = 0
  · simp only [TreeStorage.insertLevel, InsertLoop.climb, Climb.level,
      even, ↓reduceIte, getZero_eq]
  · simp only [TreeStorage.insertLevel, InsertLoop.climb, Climb.level,
      even, ↓reduceIte]

/-- The loop of `insert`. -/
@[irreducible] def insertLoop
    (hash : U256 → U256 → U256)
    (leaf : U256)
    (storage : TreeStorage) : InsertLoop :=
  (List.range levels).foldl (TreeStorage.insertLevel hash)
    { filledSubtrees := storage.filledSubtrees
      currentHash := leaf
      currIdx := storage.nextIndex }

/-- The storage after an insert with room. -/
def inserted
    (hash : U256 → U256 → U256)
    (leaf : U256)
    (storage : TreeStorage) : TreeStorage :=
  let loop := insertLoop hash leaf storage
  let newRootIndex := (storage.currentRootIndex + 1) % rootHistorySize
  { nextIndex := storage.nextIndex + 1
    filledSubtrees := loop.filledSubtrees
    roots := Function.update storage.roots newRootIndex loop.currentHash
    currentRootIndex := newRootIndex }

/-- With room, `insert` runs its loop, stores and emits the new root. -/
theorem insert_of_room
    (room : state.storage.nextIndex < 2 ^ levels) :
    TreeStorage.insert hash leaf state =
      .ok (insertLoop hash leaf state.storage).currentHash
        { storage := inserted hash leaf state.storage
          emitted :=
            state.emitted ++
              [{ leaf := leaf
                 index := state.storage.nextIndex
                 root :=
                  (insertLoop hash leaf state.storage).currentHash }] } := by
  have hasRoom : decide (state.storage.nextIndex < 0x100000) = true :=
    decide_eq_true room
  refine (Imperative.bind_of_ok rfl).trans ?_
  refine (Imperative.bind_of_ok
    (Imperative.require_of_true hasRoom)).trans ?_
  unfold inserted insertLoop
  rfl

/-- Without room, `insert` panics before it changes anything. -/
theorem insert_of_full
    (full : 2 ^ levels ≤ state.storage.nextIndex) :
    TreeStorage.insert hash leaf state =
      .error ⟨"Merkle tree is full"⟩ state := by
  have noRoom : decide (state.storage.nextIndex < 0x100000) = false :=
    decide_eq_false (Nat.not_lt.mpr full)
  refine (Imperative.bind_of_ok rfl).trans ?_
  refine Imperative.bind_of_error ?_
  simp only [Imperative.require, noRoom, Bool.false_eq_true, ↓reduceIte]

/-- The loop of `insert` climbs the tree. -/
theorem insertLoop_climbed
    {storage : TreeStorage}
    (leaf : U256)
    (tracks : Tracks hash leaves storage) :
    Climbed hash zeroLeaf leaves leaf storage.filledSubtrees levels
      (insertLoop hash leaf storage).climb := by
  unfold insertLoop
  rw [tracks.nextIndex]
  refine
    Imperative.foldl_range_invariant
      (fun level (loop : InsertLoop) =>
        Climbed hash zeroLeaf leaves leaf storage.filledSubtrees level
          loop.climb)
      Climbed.start ?_
  intro loop i inDepth climbed
  rw [climb_insertLevel]
  exact climbed.level tracks.frontier inDepth

/-- With room, `insert` returns the root of the longer sequence. -/
theorem insertLoop_root
    {storage : TreeStorage}
    (tracks : Tracks hash leaves storage)
    (room : leaves.length < 2 ^ levels) :
    (insertLoop hash leaf storage).currentHash =
      PerfectTree.root hash zeroLeaf levels (leaves ++ [leaf]) := by
  have climbed := insertLoop_climbed leaf tracks
  simpa only [InsertLoop.climb] using climbed.root room

/-- An insert keeps the invariant, for the longer sequence. -/
theorem Tracks.inserted
    {storage : TreeStorage}
    (tracks : Tracks hash leaves storage)
    (room : leaves.length < 2 ^ levels) :
    Tracks hash (leaves ++ [leaf]) (inserted hash leaf storage) := by
  have lengthEq : (leaves ++ [leaf]).length = leaves.length + 1 := by
    simp
  have positionEq :
      (storage.currentRootIndex + 1) % rootHistorySize =
        (leaves.length + 1) % rootHistorySize := by
    rw [tracks.position, Nat.mod_add_mod]
  constructor
  · rw [lengthEq]
    exact room
  · rw [lengthEq]
    exact congrArg Nat.succ tracks.nextIndex
  · have climbed := insertLoop_climbed leaf tracks
    simpa only [InsertLoop.climb, Cairo.inserted] using
      climbed.frontier tracks.frontier
  · rw [lengthEq]
    exact positionEq
  · have newRoot :
        (insertLoop hash leaf storage).currentHash =
          rootAfter hash (leaves ++ [leaf]) (leaves.length + 1) := by
      rw [insertLoop_root tracks room, ← rootAfter_length, lengthEq]
    have earlier :=
      tracks.history.congr fun count reached =>
        (rootAfter_append [leaf] reached).symm
    have pushed := earlier.push
    rw [lengthEq]
    simp only [Cairo.inserted, positionEq, newRoot]
    exact pushed

/-- A component that tracks fewer leaves than fit has room. -/
theorem Tracks.hasRoom
    {storage : TreeStorage}
    (tracks : Tracks hash leaves storage)
    (room : leaves.length < 2 ^ levels) :
    storage.nextIndex < 2 ^ levels := by
  rw [tracks.nextIndex]
  exact room

/-- A component that tracks leaves panics on insert exactly if it is full. -/
theorem Tracks.insert_cases
    (tracks : Tracks hash leaves state.storage)
    (leaf : U256) :
    leaves.length < 2 ^ levels ∧
        TreeStorage.insert hash leaf state =
          .ok (PerfectTree.root hash zeroLeaf levels (leaves ++ [leaf]))
            { storage := Cairo.inserted hash leaf state.storage
              emitted :=
                state.emitted ++
                  [{ leaf := leaf
                     index := leaves.length
                     root :=
                      PerfectTree.root hash zeroLeaf levels
                        (leaves ++ [leaf]) }] } ∨
      leaves.length = 2 ^ levels ∧
        TreeStorage.insert hash leaf state =
          .error ⟨"Merkle tree is full"⟩ state := by
  rcases Nat.lt_or_eq_of_le tracks.capacity with room | full
  · left
    refine ⟨room, ?_⟩
    rw [insert_of_room (tracks.hasRoom room), insertLoop_root tracks room,
      tracks.nextIndex]
  · right
    refine ⟨full, insert_of_full ?_⟩
    rw [tracks.nextIndex]
    exact full.ge

/-- With room, `insert` succeeds and tracks the longer sequence. -/
theorem Tracks.exists_insert
    (tracks : Tracks hash leaves state.storage)
    (room : leaves.length < 2 ^ levels)
    (leaf : U256) :
    ∃ root after,
      TreeStorage.insert hash leaf state = .ok root after ∧
        root = PerfectTree.root hash zeroLeaf levels (leaves ++ [leaf]) ∧
        Tracks hash (leaves ++ [leaf]) after.storage := by
  rcases tracks.insert_cases leaf with ⟨_, result⟩ | ⟨full, _⟩
  · exact ⟨_, _, result, rfl, tracks.inserted room⟩
  · omega

end Insert

section Queries

variable
    {hash : U256 → U256 → U256}
    {leaves : List U256}
    {storage : TreeStorage}

/-- The current root is the root of all leaves. -/
theorem Tracks.getRoot_eq
    (tracks : Tracks hash leaves storage) :
    storage.getRoot = PerfectTree.root hash zeroLeaf levels leaves := by
  have newest :=
    tracks.history.recent leaves.length le_rfl
      (Nat.lt_add_of_pos_right (by decide))
  rw [← tracks.position, rootAfter_length] at newest
  exact newest

/-- A root is known exactly if it is nonzero and one of the last roots. -/
theorem Tracks.isKnownRoot_iff
    (tracks : Tracks hash leaves storage)
    (root : U256) :
    storage.isKnownRoot root = true ↔
      root ≠ 0 ∧
        ∃ position,
          HistoryRing.InWindow rootHistorySize leaves.length position ∧
            rootAfter hash leaves position = root := by
  by_cases isZero : root = 0
  · simp [TreeStorage.isKnownRoot, isZero]
  · have inRing :
        storage.isKnownRoot root = true ↔
          ∃ slot, slot < rootHistorySize ∧ storage.roots slot = root := by
      simp only [TreeStorage.isKnownRoot, isZero, ↓reduceIte,
        List.any_eq_true, List.mem_range, decide_eq_true_eq]
    rw [inRing, tracks.history.exists_slot_iff isZero]
    exact (and_iff_right isZero).symm

/-- The current root is known, unless it is zero. -/
theorem Tracks.isKnownRoot_current
    (tracks : Tracks hash leaves storage)
    (notZero : PerfectTree.root hash zeroLeaf levels leaves ≠ 0) :
    storage.isKnownRoot (PerfectTree.root hash zeroLeaf levels leaves) =
      true := by
  rw [tracks.isKnownRoot_iff]
  refine
    ⟨notZero, leaves.length,
      ⟨le_rfl, Nat.lt_add_of_pos_right (by decide)⟩, ?_⟩
  exact rootAfter_length

end Queries

section Runs

variable {hash : U256 → U256 → U256}

/-- The roots returned by inserting further leaves, in order. -/
def rootsFrom
    (hash : U256 → U256 → U256)
    (earlier leaves : List U256) : List U256 :=
  (List.range leaves.length).map fun inserts =>
    rootAfter hash (earlier ++ leaves) (earlier.length + inserts + 1)

/-- The roots of a longer sequence start with the root of its first leaf. -/
theorem rootsFrom_cons
    (earlier rest : List U256)
    (leaf : U256) :
    rootsFrom hash earlier (leaf :: rest) =
      PerfectTree.root hash zeroLeaf levels (earlier ++ [leaf]) ::
        rootsFrom hash (earlier ++ [leaf]) rest := by
  have sameLeaves :
      earlier ++ leaf :: rest = (earlier ++ [leaf]) ++ rest := by
    simp
  have first :
      rootAfter hash (earlier ++ leaf :: rest) (earlier.length + 0 + 1) =
        PerfectTree.root hash zeroLeaf levels (earlier ++ [leaf]) := by
    rw [sameLeaves, rootAfter, List.take_left' (by simp)]
  rw [rootsFrom, List.length_cons, List.range_succ_eq_map, List.map_cons,
    List.map_map, first, sameLeaves]
  congr 1
  refine List.map_congr_left ?_
  intro inserts _
  have sameCount :
      earlier.length + inserts.succ + 1 =
        (earlier ++ [leaf]).length + inserts + 1 := by
    simp only [List.length_append, List.length_cons, List.length_nil]
    omega
  exact congrArg _ sameCount

/-- While there is room, inserting leaves tracks them one after another. -/
theorem insertAll_of_room
    {earlier : List U256}
    {state : ComponentState}
    (tracks : Tracks hash earlier state.storage)
    {leaves : List U256}
    (room : earlier.length + leaves.length ≤ 2 ^ levels) :
    ∃ after,
      TreeStorage.insertAll hash leaves state =
          .ok (rootsFrom hash earlier leaves) after ∧
        Tracks hash (earlier ++ leaves) after.storage := by
  induction leaves generalizing earlier state with
  | nil =>
      refine ⟨state, rfl, ?_⟩
      simpa using tracks
  | cons leaf rest inductionHypothesis =>
      simp only [List.length_cons] at room
      have roomForOne : earlier.length < 2 ^ levels := by
        omega
      have restRoom :
          (earlier ++ [leaf]).length + rest.length ≤ 2 ^ levels := by
        simp only [List.length_append, List.length_cons, List.length_nil]
        omega
      obtain ⟨root, next, inserting, rootEq, nextTracks⟩ :=
        tracks.exists_insert roomForOne leaf
      obtain ⟨after, restRun, restTracks⟩ :=
        inductionHypothesis nextTracks restRoom
      refine ⟨after, ?_, ?_⟩
      · unfold TreeStorage.insertAll
        rw [Imperative.bind_of_ok inserting,
          Imperative.bind_of_ok restRun, rootsFrom_cons, rootEq]
        rfl
      · simpa using restTracks

end Runs

end StarkCash.Cairo
