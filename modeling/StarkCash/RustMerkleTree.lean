import StarkCash.Imperative
import StarkCash.Words

namespace StarkCash.Rust

/-!
# The Rust incremental Merkle tree

Embedding of `src/module/merkle_tree`: the zero values, the sparse node store,
`IncrementalMerkleTree::new`, `insert`, `root`, `is_known_root` and
`get_proof`.  The hash is a parameter, so that `poseidon_hash` can be put in
or any other function of two arrays.  Vectors keep the length they are created
with as a type index; `u32` and `usize` values are natural numbers, since every
index stays below `2 ^ 21`.
-/

/-- Tree depth (`LEVELS`). -/
abbrev levels : ℕ := 20

/-- Number of roots to keep in history (`ROOT_HISTORY_SIZE`). -/
abbrev rootHistorySize : ℕ := 30

section Constants

variable (hash : Bytes32 → Bytes32 → Bytes32)

/-- The array of zero bytes, `[0u8; 32]`. -/
def zeroBytes : Bytes32 :=
  Vector.replicate 32 0

/-- The value of an empty leaf, Keccak256("tornado"). -/
def zeroLeaf : Bytes32 :=
  #v[0x2f, 0xe5, 0x4c, 0x60, 0xd3, 0xac, 0xab, 0xf3,
    0x34, 0x3a, 0x35, 0xb6, 0xeb, 0xa7, 0x5f, 0xdc,
    0x3c, 0x44, 0x64, 0x83, 0x16, 0x82, 0x33, 0xf2,
    0xc5, 0xf7, 0x43, 0x58, 0xa9, 0xe6, 0x4e, 0x52]

/-- One iteration of the loop that fills `ZEROS`. -/
def zeroTableLevel
    (state : Vector Bytes32 (levels + 1) × Bytes32)
    (i : Fin levels) : Vector Bytes32 (levels + 1) × Bytes32 :=
  let (table, current) := state
  let next := hash current current
  (table.set (i.val + 1) next, next)

/-- The cached zero values for all levels (`ZEROS`). -/
def zeroTable : Vector Bytes32 (levels + 1) :=
  ((List.finRange levels).foldl (zeroTableLevel hash)
    ((Vector.replicate (levels + 1) zeroBytes).set 0 zeroLeaf,
      zeroLeaf)).1

/-- The zero value for a level; level 20 is the root level (`get_zero`). -/
def getZero (level : ℕ) : Except Panic Bytes32 :=
  if inTable : level < levels + 1 then
    .ok (zeroTable hash)[level]
  else
    .error ⟨s!"Level {level} out of bounds"⟩

/-- The hash of an empty tree (`empty_tree_root`). -/
def emptyTreeRoot : Except Panic Bytes32 :=
  getZero hash levels

end Constants

/-- Node store: maps (level, index) to a hash (`MerkleStorage`). -/
structure MerkleStorage where
  nodes : ℕ × ℕ → Option Bytes32

namespace MerkleStorage

/-- `MerkleStorage::new`. -/
def new : MerkleStorage where
  nodes := fun _ => none

/-- Insert a node hash at a position (`MerkleStorage::insert`). -/
def insert
    (storage : MerkleStorage)
    (level index : ℕ)
    (hash : Bytes32) : MerkleStorage where
  nodes := Function.update storage.nodes (level, index) (some hash)

/-- Get a node hash if it exists (`MerkleStorage::get`). -/
def get
    (storage : MerkleStorage)
    (level index : ℕ) : Option Bytes32 :=
  storage.nodes (level, index)

@[simp] theorem get_new
    (level index : ℕ) :
    new.get level index = none := rfl

/-- Reading after a write sees the write at its own position only. -/
@[simp] theorem get_insert
    (storage : MerkleStorage)
    (level index level' index' : ℕ)
    (hash : Bytes32) :
    (storage.insert level index hash).get level' index' =
      if level' = level ∧ index' = index then
        some hash
      else
        storage.get level' index' := by
  simp only [get, insert, Function.update_apply, Prod.mk.injEq]

end MerkleStorage

/-- The history has room for a root. -/
theorem rootHistorySize_pos :
    0 < rootHistorySize := by
  decide

/-- `(self.current_root_index + 1) % ROOT_HISTORY_SIZE`. -/
def nextRootIndex
    (currentRootIndex : Fin rootHistorySize) : Fin rootHistorySize :=
  ⟨(currentRootIndex + 1) % rootHistorySize,
    Nat.mod_lt _ rootHistorySize_pos⟩

/-- The incremental Merkle tree (`IncrementalMerkleTree`). -/
structure IncrementalMerkleTree where
  nextIndex : ℕ
  filledSubtrees : Vector Bytes32 levels
  roots : Vector Bytes32 rootHistorySize
  currentRootIndex : Fin rootHistorySize
  storage : MerkleStorage

/-- A Merkle proof for a leaf inclusion (`MerkleProof`). -/
structure MerkleProof where
  root : Bytes32
  pathElements : List Bytes32
  pathIndices : List UInt8

/-- The local variables and the fields written by the loop of `insert`. -/
structure InsertLoop where
  filledSubtrees : Vector Bytes32 levels
  storage : MerkleStorage
  currentIndex : ℕ
  currentHash : Bytes32

namespace IncrementalMerkleTree

variable (hash : Bytes32 → Bytes32 → Bytes32)

/-- Create a new empty tree (`IncrementalMerkleTree::new`). -/
def new : Except Panic IncrementalMerkleTree := do
  let filledSubtrees ←
    (List.finRange levels).foldlM
      (fun filled (i : Fin levels) => do
        return filled.set i (← getZero hash i) i.isLt)
      (Vector.replicate levels zeroBytes)
  let root ← emptyTreeRoot hash
  return {
    nextIndex := 0
    filledSubtrees := filledSubtrees
    roots :=
      (Vector.replicate rootHistorySize zeroBytes).set 0 root
        rootHistorySize_pos
    currentRootIndex := ⟨0, rootHistorySize_pos⟩
    storage := MerkleStorage.new }

/--
One iteration of the loop of `insert`.

`0xFFFFFFFE` is the `u32` value of `!1`.
-/
def insertLevel
    (nextIndex : ℕ)
    (loop : InsertLoop)
    (i : Fin levels) : Except Panic InsertLoop := do
  let (left, right, filledSubtrees) ←
    if loop.currentIndex % 2 = 0 then do
      let right ← getZero hash i
      pure
        (loop.currentHash, right,
          loop.filledSubtrees.set i loop.currentHash i.isLt)
    else
      pure
        (loop.filledSubtrees.get i, loop.currentHash,
          loop.filledSubtrees)
  let storage :=
    loop.storage.insert i ((nextIndex >>> i.val) &&& 0xFFFFFFFE) left
  let storage :=
    if loop.currentIndex % 2 = 0 then
      storage
    else
      storage.insert i ((nextIndex >>> i.val) ||| 1) right
  let currentHash := hash left right
  return {
    filledSubtrees := filledSubtrees
    storage :=
      storage.insert (i + 1) (nextIndex >>> (i.val + 1)) currentHash
    currentIndex := loop.currentIndex / 2
    currentHash := currentHash }

/-- Insert a leaf commitment into the tree (`insert`). -/
def insert
    (leaf : Bytes32) :
    EStateM Panic IncrementalMerkleTree Bytes32 := do
  let tree ← get
  Imperative.require (tree.nextIndex < 1 <<< levels)
    ⟨"Merkle tree is full"⟩
  modify fun tree =>
    { tree with storage := tree.storage.insert 0 tree.nextIndex leaf }
  let tree ← get
  let loop ←
    Imperative.liftExcept
      ((List.finRange levels).foldlM
        (insertLevel hash tree.nextIndex)
        { filledSubtrees := tree.filledSubtrees
          storage := tree.storage
          currentIndex := tree.nextIndex
          currentHash := leaf })
  let newRoot := loop.currentHash
  let currentRootIndex := nextRootIndex tree.currentRootIndex
  modify fun _ =>
    { nextIndex := tree.nextIndex + 1
      filledSubtrees := loop.filledSubtrees
      roots :=
        tree.roots.set currentRootIndex newRoot currentRootIndex.isLt
      currentRootIndex := currentRootIndex
      storage := loop.storage }
  return newRoot

/-- Get the current root (`root`). -/
def root (tree : IncrementalMerkleTree) : Bytes32 :=
  tree.roots[tree.currentRootIndex]

/-- Check if a root exists in history (`is_known_root`). -/
def isKnownRoot
    (tree : IncrementalMerkleTree)
    (root : Bytes32) : Bool :=
  if root = zeroBytes then
    false
  else
    tree.roots.contains root

/-- One iteration of the loop of `get_proof`. -/
def proofLevel
    (tree : IncrementalMerkleTree)
    (path : List Bytes32 × List UInt8 × ℕ)
    (i : Fin levels) :
    Except Panic (List Bytes32 × List UInt8 × ℕ) := do
  let (pathElements, pathIndices, curr) := path
  let siblingIndex := curr ^^^ 1
  let sibling ←
    match tree.storage.get i siblingIndex with
    | some stored => pure stored
    | none => getZero hash i
  return (pathElements ++ [sibling],
    pathIndices ++ [UInt8.ofNat (curr % 2)],
    curr / 2)

/-- Generate a Merkle proof for the leaf at an index (`get_proof`). -/
def getProof
    (tree : IncrementalMerkleTree)
    (index : ℕ) : Except Panic MerkleProof := do
  if index ≥ tree.nextIndex then
    throw ⟨"Leaf index out of bounds"⟩
  let (pathElements, pathIndices, _) ←
    (List.finRange levels).foldlM (proofLevel hash tree) ([], [], index)
  return {
    root := tree.root
    pathElements := pathElements
    pathIndices := pathIndices }

/-- Insert leaves one after another, returning the roots in order. -/
def insertAll :
    List Bytes32 →
      EStateM Panic IncrementalMerkleTree (List Bytes32)
  | [] => pure []
  | leaf :: rest => do
      let root ← insert hash leaf
      let roots ← insertAll rest
      return root :: roots

/-- Insert leaves one after another into a fresh tree. -/
def built
    (leaves : List Bytes32) :
    Except Panic (List Bytes32 × IncrementalMerkleTree) := do
  let tree ← new hash
  match insertAll hash leaves tree with
  | .ok roots tree => return (roots, tree)
  | .error panic _ => throw panic

end IncrementalMerkleTree

end StarkCash.Rust
