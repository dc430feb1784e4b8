import Mathlib.Logic.Function.Basic
import StarkCash.Imperative
import StarkCash.Words

namespace StarkCash.Cairo

/-!
# The Merkle tree component

Embedding of `contracts/src/merkle_tree.cairo` and of `poseidon_hash_2`.  A
storage map is a function that starts at zero everywhere.  The hash is a
parameter, so that `poseidonHash2` can be put in or any other function of two
words.  `u32` values are natural numbers, since every index stays below
`2 ^ 21`.
-/

/-- Tree depth (`LEVELS`). -/
abbrev levels : ℕ := 20

/-- Number of roots to keep in history (`ROOT_HISTORY_SIZE`). -/
abbrev rootHistorySize : ℕ := 30

/--
Hash of two words (`poseidon_hash_2`); the sponge of the core library,
`poseidon_hash_span`, is a parameter.
-/
def poseidonHash2
    (poseidonHashSpan : List Felt252 → Felt252)
    (left right : U256) : U256 :=
  U256.ofFelt
    (poseidonHashSpan [left.low, left.high, right.low, right.high])

/-- The value of an empty leaf, Keccak256("tornado"). -/
def zeroLeaf : U256 :=
  0x2fe54c60d3acabf3343a35b6eba75fdc3c446483168233f2c5f74358a9e64e52#256

/-- The zero value for a level (`get_zero`). -/
def getZero
    (hash : U256 → U256 → U256)
    (level : ℕ) : U256 :=
  (List.range level).foldl (fun current _ => hash current current) zeroLeaf

/-- Storage of the component. -/
structure TreeStorage where
  nextIndex : ℕ
  filledSubtrees : ℕ → U256
  roots : ℕ → U256
  currentRootIndex : ℕ

/-- The event of a leaf insertion. -/
structure LeafInserted where
  leaf : U256
  index : ℕ
  root : U256
  deriving Repr, DecidableEq

/-- The component's storage and the events it has emitted. -/
structure ComponentState where
  storage : TreeStorage
  emitted : List LeafInserted

/-- The local variables and the map written by the loop of `insert`. -/
structure InsertLoop where
  filledSubtrees : ℕ → U256
  currentHash : U256
  currIdx : ℕ

namespace TreeStorage

/-- Storage before any write. -/
def empty : TreeStorage where
  nextIndex := 0
  filledSubtrees := fun _ => 0
  roots := fun _ => 0
  currentRootIndex := 0

variable (hash : U256 → U256 → U256)

/-- Write the zero values and the empty root (`initialize`). -/
def initializeTree (storage : TreeStorage) : TreeStorage :=
  { storage with
    filledSubtrees :=
      (List.range levels).foldl
        (fun filled i => Function.update filled i (getZero hash i))
        storage.filledSubtrees
    roots := Function.update storage.roots 0 (getZero hash levels) }

/-- One iteration of the loop of `insert`. -/
def insertLevel (loop : InsertLoop) (i : ℕ) : InsertLoop :=
  if loop.currIdx % 2 = 0 then
    { filledSubtrees :=
        Function.update loop.filledSubtrees i loop.currentHash
      currentHash := hash loop.currentHash (getZero hash i)
      currIdx := loop.currIdx / 2 }
  else
    { filledSubtrees := loop.filledSubtrees
      currentHash := hash (loop.filledSubtrees i) loop.currentHash
      currIdx := loop.currIdx / 2 }

/-- Insert a leaf, emit its event and return the new root (`insert`). -/
def insert (leaf : U256) : EStateM Panic ComponentState U256 := do
  let index := (← get).storage.nextIndex
  Imperative.require (index < 0x100000) ⟨"Merkle tree is full"⟩
  let loop :=
    (List.range levels).foldl (insertLevel hash)
      { filledSubtrees := (← get).storage.filledSubtrees
        currentHash := leaf
        currIdx := index }
  let newRootIndex :=
    ((← get).storage.currentRootIndex + 1) % rootHistorySize
  modify fun state =>
    { storage :=
        { nextIndex := index + 1
          filledSubtrees := loop.filledSubtrees
          roots :=
            Function.update state.storage.roots newRootIndex
              loop.currentHash
          currentRootIndex := newRootIndex }
      emitted :=
        state.emitted ++
          [{ leaf := leaf, index := index, root := loop.currentHash }] }
  return loop.currentHash

/-- Check if a root exists in history (`is_known_root`). -/
def isKnownRoot (storage : TreeStorage) (root : U256) : Bool :=
  if root = 0 then
    false
  else
    (List.range rootHistorySize).any fun i => storage.roots i = root

/-- Get the current root (`get_root`). -/
def getRoot (storage : TreeStorage) : U256 :=
  storage.roots storage.currentRootIndex

/-- Insert leaves one after another, returning the roots in order. -/
def insertAll :
    List U256 → EStateM Panic ComponentState (List U256)
  | [] => pure []
  | leaf :: rest => do
      let root ← insert hash leaf
      let roots ← insertAll rest
      return root :: roots

/-- A component that was initialized and has emitted nothing. -/
def initialized : ComponentState where
  storage := empty.initializeTree hash
  emitted := []

end TreeStorage

end StarkCash.Cairo
