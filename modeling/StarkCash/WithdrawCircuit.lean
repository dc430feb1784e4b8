import StarkCash.ScalarField
import StarkCash.TreeOpening

namespace StarkCash.Circuit

/-!
# The withdraw circuit

Embedding of `circuits/merkleTree.circom` and `circuits/withdraw.circom`.  A
template is the structure of its signals, with its components nested in it,
and `Constraints` lists the equations that `===` and `<==` add.  `compute` is
the assignment that the `<==` statements calculate from the inputs.

The permutation of circomlib is a parameter: `poseidon inputs` is the output of
the template `Poseidon(n)` on `n` inputs.  What the circuit says about its
inputs is `WithdrawInputs.Opens`; the constraints enforce it
(`Withdraw.Constraints.opens`) and it suffices for the computed assignment
(`Withdraw.compute_constraints`).
-/

open PerfectTree

/-- Signals of the template `Poseidon(nInputs)`. -/
structure Poseidon (nInputs : ℕ) where
  inputs : Fin nInputs → Fr
  out : Fr

/-- Signals of the template `DualMux`. -/
structure DualMux where
  input : Fin 2 → Fr
  s : Fr
  out : Fin 2 → Fr

/-- Signals of the template `HashLeftRight`. -/
structure HashLeftRight where
  left : Fr
  right : Fr
  hasher : Poseidon 2
  hash : Fr

/-- Signals of the template `MerkleTreeChecker(levels)`. -/
structure MerkleTreeChecker (levels : ℕ) where
  leaf : Fr
  root : Fr
  pathElements : Fin levels → Fr
  pathIndices : Fin levels → Fr
  selectors : Fin levels → DualMux
  hashers : Fin levels → HashLeftRight

/-- Input signals of the template `Withdraw(levels)`. -/
structure WithdrawInputs (levels : ℕ) where
  root : Fr
  nullifierHash : Fr
  recipient : Fr
  relayer : Fr
  fee : Fr
  refund : Fr
  secret : Fr
  nullifier : Fr
  pathElements : Fin levels → Fr
  pathIndices : Fin levels → Fr

/-- Signals of the template `Withdraw(levels)`. -/
structure Withdraw (levels : ℕ) extends WithdrawInputs levels where
  nullifierHasher : Poseidon 1
  commitmentHasher : Poseidon 2
  commitment : Fr
  tree : MerkleTreeChecker levels
  recipientSquare : Fr
  feeSquare : Fr
  relayerSquare : Fr
  refundSquare : Fr

section Constraints

/-- The output of `Poseidon(n)` is the permutation of its inputs. -/
def Poseidon.Constraints
    (poseidon : List Fr → Fr)
    {nInputs : ℕ}
    (component : Poseidon nInputs) : Prop :=
  component.out = poseidon (List.ofFn component.inputs)

/-- Constraints of `DualMux`. -/
structure DualMux.Constraints (mux : DualMux) : Prop where
  boolean :
    mux.s * (1 - mux.s) = 0
  out0 :
    mux.out 0 = (mux.input 1 - mux.input 0) * mux.s + mux.input 0
  out1 :
    mux.out 1 = (mux.input 0 - mux.input 1) * mux.s + mux.input 1

variable (poseidon : List Fr → Fr)

/-- Constraints of `HashLeftRight`. -/
structure HashLeftRight.Constraints
    (component : HashLeftRight) : Prop where
  hasher :
    component.hasher.Constraints poseidon
  input0 :
    component.hasher.inputs 0 = component.left
  input1 :
    component.hasher.inputs 1 = component.right
  hash :
    component.hash = component.hasher.out

/-- `i == 0 ? leaf : hashers[i - 1].hash`. -/
def MerkleTreeChecker.hashBefore
    {levels : ℕ}
    (checker : MerkleTreeChecker levels)
    (i : Fin levels) : Fr :=
  if i.val = 0 then
    checker.leaf
  else
    (checker.hashers ⟨i.val - 1, by omega⟩).hash

/-- Constraints of `MerkleTreeChecker(levels)`. -/
structure MerkleTreeChecker.Constraints
    {levels : ℕ}
    (checker : MerkleTreeChecker levels) : Prop where
  selector :
    ∀ i, (checker.selectors i).Constraints
  selectorIn0 :
    ∀ i, (checker.selectors i).input 0 = checker.hashBefore i
  selectorIn1 :
    ∀ i, (checker.selectors i).input 1 = checker.pathElements i
  selectorS :
    ∀ i, (checker.selectors i).s = checker.pathIndices i
  hasher :
    ∀ i, (checker.hashers i).Constraints poseidon
  hasherLeft :
    ∀ i, (checker.hashers i).left = (checker.selectors i).out 0
  hasherRight :
    ∀ i, (checker.hashers i).right = (checker.selectors i).out 1
  root :
    ∀ last : Fin levels,
      last.val = levels - 1 →
      checker.root = (checker.hashers last).hash

/-- Constraints of `Withdraw(levels)`. -/
structure Withdraw.Constraints
    {levels : ℕ}
    (signals : Withdraw levels) : Prop where
  nullifierHasher :
    signals.nullifierHasher.Constraints poseidon
  nullifierInput :
    signals.nullifierHasher.inputs 0 = signals.nullifier
  nullifierHash :
    signals.nullifierHasher.out = signals.nullifierHash
  commitmentHasher :
    signals.commitmentHasher.Constraints poseidon
  commitmentInput0 :
    signals.commitmentHasher.inputs 0 = signals.secret
  commitmentInput1 :
    signals.commitmentHasher.inputs 1 = signals.nullifier
  commitment :
    signals.commitment = signals.commitmentHasher.out
  tree :
    signals.tree.Constraints poseidon
  treeLeaf :
    signals.tree.leaf = signals.commitment
  treeRoot :
    signals.tree.root = signals.root
  treePathElements :
    ∀ i, signals.tree.pathElements i = signals.pathElements i
  treePathIndices :
    ∀ i, signals.tree.pathIndices i = signals.pathIndices i
  recipientSquare :
    signals.recipientSquare = signals.recipient * signals.recipient
  feeSquare :
    signals.feeSquare = signals.fee * signals.fee
  relayerSquare :
    signals.relayerSquare = signals.relayer * signals.relayer
  refundSquare :
    signals.refundSquare = signals.refund * signals.refund

end Constraints

section Compute

variable (poseidon : List Fr → Fr)

/-- The signals of `Poseidon(n)` on given inputs. -/
def Poseidon.compute
    {nInputs : ℕ}
    (inputs : Fin nInputs → Fr) : Poseidon nInputs where
  inputs := inputs
  out := poseidon (List.ofFn inputs)

/-- The signals of `DualMux` on given inputs. -/
def DualMux.compute (in0 in1 s : Fr) : DualMux where
  input := ![in0, in1]
  s := s
  out := ![(in1 - in0) * s + in0, (in0 - in1) * s + in1]

/-- The signals of `HashLeftRight` on given inputs. -/
def HashLeftRight.compute (left right : Fr) : HashLeftRight where
  left := left
  right := right
  hasher := Poseidon.compute poseidon ![left, right]
  hash := (Poseidon.compute poseidon ![left, right]).out

/-- A row of signals continued by zero. -/
def extended
    {levels : ℕ}
    (signals : Fin levels → Fr) : ℕ → Fr :=
  fun level =>
    if inside : level < levels then signals ⟨level, inside⟩ else 0

/-- The hash that `MerkleTreeChecker` carries into a level. -/
def runningHash
    (leaf : Fr)
    (pathElements pathIndices : ℕ → Fr) :
    ℕ → Fr
  | 0 => leaf
  | level + 1 =>
      let selector :=
        DualMux.compute
          (runningHash leaf pathElements pathIndices level)
          (pathElements level) (pathIndices level)
      (HashLeftRight.compute poseidon (selector.out 0) (selector.out 1)).hash

/-- The signals of `MerkleTreeChecker(levels)` on given inputs. -/
def MerkleTreeChecker.compute
    {levels : ℕ}
    (leaf root : Fr)
    (pathElements pathIndices : Fin levels → Fr) :
    MerkleTreeChecker levels :=
  let selectors := fun i : Fin levels =>
    DualMux.compute
      (runningHash poseidon leaf (extended pathElements)
        (extended pathIndices) i)
      (pathElements i) (pathIndices i)
  { leaf := leaf
    root := root
    pathElements := pathElements
    pathIndices := pathIndices
    selectors := selectors
    hashers := fun i =>
      HashLeftRight.compute poseidon
        ((selectors i).out 0) ((selectors i).out 1) }

/-- The signals of `Withdraw(levels)` on given inputs. -/
def Withdraw.compute
    {levels : ℕ}
    (inputs : WithdrawInputs levels) : Withdraw levels where
  toWithdrawInputs := inputs
  nullifierHasher := Poseidon.compute poseidon ![inputs.nullifier]
  commitmentHasher :=
    Poseidon.compute poseidon ![inputs.secret, inputs.nullifier]
  commitment := poseidon [inputs.secret, inputs.nullifier]
  tree :=
    MerkleTreeChecker.compute poseidon
      (poseidon [inputs.secret, inputs.nullifier]) inputs.root
      inputs.pathElements inputs.pathIndices
  recipientSquare := inputs.recipient * inputs.recipient
  feeSquare := inputs.fee * inputs.fee
  relayerSquare := inputs.relayer * inputs.relayer
  refundSquare := inputs.refund * inputs.refund

end Compute

/-- The hash of two field elements, `Poseidon(2)`. -/
def hashPair
    (poseidon : List Fr → Fr)
    (left right : Fr) : Fr :=
  poseidon [left, right]

/-- A selector that is one puts the running hash on the right. -/
def sides (pathIndices : ℕ → Fr) : ℕ → Bool :=
  fun level => pathIndices level = 1

namespace WithdrawInputs

variable {levels : ℕ}

/-- The commitment `Poseidon(secret, nullifier)`. -/
def noteCommitment
    (poseidon : List Fr → Fr)
    (inputs : WithdrawInputs levels) : Fr :=
  hashPair poseidon inputs.secret inputs.nullifier

/-- The siblings of the path. -/
def siblings (inputs : WithdrawInputs levels) : ℕ → Fr :=
  extended inputs.pathElements

/-- The sides of the path. -/
def sides (inputs : WithdrawInputs levels) : ℕ → Bool :=
  Circuit.sides (extended inputs.pathIndices)

/-- What `Withdraw` says: the note's commitment opens in the tree. -/
structure Opens
    (poseidon : List Fr → Fr)
    (inputs : WithdrawInputs levels) : Prop where
  nullifierHash :
    inputs.nullifierHash = poseidon [inputs.nullifier]
  boolean :
    ∀ i, inputs.pathIndices i = 0 ∨ inputs.pathIndices i = 1
  root :
    inputs.root =
      opening (hashPair poseidon) (inputs.noteCommitment poseidon)
        inputs.siblings inputs.sides levels

end WithdrawInputs

section Gadgets

variable {poseidon : List Fr → Fr}

/-- Inside its length the continued row is the row. -/
theorem extended_of_fin
    {levels : ℕ}
    (signals : Fin levels → Fr)
    (i : Fin levels) :
    extended signals i = signals i := by
  simp [extended, i.isLt]

/-- A boolean constraint admits exactly zero and one. -/
theorem boolean_iff
    (s : Fr) :
    s * (1 - s) = 0 ↔ s = 0 ∨ s = 1 := by
  rw [mul_eq_zero, sub_eq_zero, @eq_comm Fr 1 s]

/-- The multiplexer orders its inputs by its selector. -/
theorem orderedPair_of_boolean
    (in0 in1 : Fr)
    {s : Fr}
    (boolean : s = 0 ∨ s = 1) :
    ((in1 - in0) * s + in0, (in0 - in1) * s + in1) =
      orderedPair (decide (s = 1)) in0 in1 := by
  rcases boolean with isZero | isOne
  · have left : decide (s = 1) = false := by
      simp [isZero]
    rw [left, isZero]
    simp [orderedPair]
  · have right : decide (s = 1) = true := by
      simp [isOne]
    rw [right, isOne]
    simp [orderedPair]

/-- The outputs of a satisfied multiplexer are its inputs in order. -/
theorem DualMux.Constraints.outputs
    {mux : DualMux}
    (satisfied : mux.Constraints) :
    (mux.out 0, mux.out 1) =
      orderedPair (decide (mux.s = 1)) (mux.input 0) (mux.input 1) := by
  rw [satisfied.out0, satisfied.out1]
  exact orderedPair_of_boolean _ _ ((boolean_iff mux.s).mp satisfied.boolean)

/-- The output of a satisfied hasher is the hash of its two sides. -/
theorem HashLeftRight.Constraints.hash_eq
    {component : HashLeftRight}
    (satisfied : component.Constraints poseidon) :
    component.hash =
      hashPair poseidon component.left component.right := by
  rw [satisfied.hash, satisfied.hasher, ← satisfied.input0,
    ← satisfied.input1]
  rfl

end Gadgets

section Soundness

variable
    {poseidon : List Fr → Fr}
    {levels : ℕ}

namespace MerkleTreeChecker.Constraints

variable
    {checker : MerkleTreeChecker levels}

/-- Every path index of a satisfied checker is zero or one. -/
theorem boolean
    (satisfied : checker.Constraints poseidon)
    (i : Fin levels) :
    checker.pathIndices i = 0 ∨ checker.pathIndices i = 1 := by
  rw [← satisfied.selectorS i]
  exact (boolean_iff _).mp (satisfied.selector i).boolean

/-- A level hashes the running hash and the path element, in order. -/
theorem pair_eq
    (satisfied : checker.Constraints poseidon)
    (i : Fin levels) :
    ((checker.hashers i).left, (checker.hashers i).right) =
      orderedPair (decide (checker.pathIndices i = 1))
        (checker.hashBefore i) (checker.pathElements i) := by
  rw [satisfied.hasherLeft i, satisfied.hasherRight i,
    (satisfied.selector i).outputs, satisfied.selectorIn0 i,
    satisfied.selectorIn1 i, satisfied.selectorS i]

/-- The running hash of a satisfied checker is that of its opening. -/
theorem hashBefore_eq
    (satisfied : checker.Constraints poseidon)
    (i : Fin levels) :
    checker.hashBefore i =
      opening (hashPair poseidon) checker.leaf
        (extended checker.pathElements)
        (sides (extended checker.pathIndices)) i := by
  obtain ⟨level, inside⟩ := i
  induction level with
  | zero =>
      rfl
  | succ level inductionHypothesis =>
      have earlier : level < levels := Nat.lt_of_succ_lt inside
      have pairEq := satisfied.pair_eq ⟨level, earlier⟩
      rw [inductionHypothesis earlier] at pairEq
      have hashEq :
          checker.hashBefore ⟨level + 1, inside⟩ =
            (checker.hashers ⟨level, earlier⟩).hash := rfl
      have sideEq :
          sides (extended checker.pathIndices) level =
            decide (checker.pathIndices ⟨level, earlier⟩ = 1) := by
        simp only [sides, extended, earlier, ↓reduceDIte]
      have siblingEq :
          extended checker.pathElements level =
            checker.pathElements ⟨level, earlier⟩ := by
        simp only [extended, earlier, ↓reduceDIte]
      rw [hashEq, (satisfied.hasher ⟨level, earlier⟩).hash_eq, opening,
        sideEq, siblingEq, ← pairEq]

/-- The pair hashed at a level is the pair of the opening. -/
theorem pair_eq_openingPair
    (satisfied : checker.Constraints poseidon)
    (i : Fin levels) :
    ((checker.hashers i).left, (checker.hashers i).right) =
      openingPair (hashPair poseidon) checker.leaf
        (extended checker.pathElements)
        (sides (extended checker.pathIndices)) i := by
  rw [satisfied.pair_eq i, satisfied.hashBefore_eq i, openingPair,
    extended_of_fin]
  simp only [sides, extended_of_fin]

/-- The root of a satisfied checker is the end of its opening. -/
theorem root_eq
    (satisfied : checker.Constraints poseidon)
    (positive : 0 < levels) :
    checker.root =
      opening (hashPair poseidon) checker.leaf
        (extended checker.pathElements)
        (sides (extended checker.pathIndices)) levels := by
  obtain ⟨last, rfl⟩ : ∃ last, levels = last + 1 :=
    ⟨levels - 1, by omega⟩
  have pairEq := satisfied.pair_eq_openingPair (Fin.last last)
  rw [satisfied.root (Fin.last last) rfl,
    (satisfied.hasher (Fin.last last)).hash_eq]
  change _ = hashPair poseidon _ _
  rw [openingPair, Fin.val_last] at pairEq
  rw [← pairEq]

end MerkleTreeChecker.Constraints

namespace Withdraw.Constraints

variable {signals : Withdraw levels}

/-- The commitment signal is the hash of secret and nullifier. -/
theorem commitment_eq
    (satisfied : signals.Constraints poseidon) :
    signals.commitment = signals.noteCommitment poseidon := by
  rw [satisfied.commitment, satisfied.commitmentHasher,
    WithdrawInputs.noteCommitment, ← satisfied.commitmentInput0,
    ← satisfied.commitmentInput1]
  rfl

/-- The nullifier hash is the hash of the nullifier. -/
theorem nullifierHash_eq
    (satisfied : signals.Constraints poseidon) :
    signals.nullifierHash = poseidon [signals.nullifier] := by
  rw [← satisfied.nullifierHash, satisfied.nullifierHasher,
    ← satisfied.nullifierInput]
  rfl

/-- The pair hashed at a level is the pair of the note's opening. -/
theorem pair_eq_openingPair
    (satisfied : signals.Constraints poseidon)
    (i : Fin levels) :
    ((signals.tree.hashers i).left, (signals.tree.hashers i).right) =
      openingPair (hashPair poseidon) (signals.noteCommitment poseidon)
        signals.siblings signals.sides i := by
  rw [satisfied.tree.pair_eq_openingPair i, satisfied.treeLeaf,
    satisfied.commitment_eq, funext satisfied.treePathElements,
    funext satisfied.treePathIndices]
  rfl

/-- Every satisfying assignment opens its commitment in the tree. -/
theorem opens
    (satisfied : signals.Constraints poseidon)
    (positive : 0 < levels) :
    signals.Opens poseidon := by
  constructor
  · exact satisfied.nullifierHash_eq
  · intro i
    rw [← satisfied.treePathIndices i]
    exact satisfied.tree.boolean i
  · rw [← satisfied.treeRoot, satisfied.tree.root_eq positive,
      satisfied.treeLeaf, satisfied.commitment_eq,
      funext satisfied.treePathElements,
      funext satisfied.treePathIndices]
    rfl

end Withdraw.Constraints

end Soundness

section Completeness

variable
    (poseidon : List Fr → Fr)
    {levels : ℕ}

/-- The computed multiplexer satisfies its constraints on a bit. -/
theorem DualMux.compute_constraints
    (in0 in1 : Fr)
    {s : Fr}
    (boolean : s = 0 ∨ s = 1) :
    (DualMux.compute in0 in1 s).Constraints := by
  constructor
  · exact (boolean_iff s).mpr boolean
  · rfl
  · rfl

/-- The computed hasher satisfies its constraints. -/
theorem HashLeftRight.compute_constraints
    (left right : Fr) :
    (HashLeftRight.compute poseidon left right).Constraints poseidon := by
  constructor <;> rfl

/-- The computed running hash is that of the opening. -/
theorem runningHash_eq
    (leaf : Fr)
    {pathElements pathIndices : ℕ → Fr}
    {depth : ℕ}
    (boolean :
      ∀ level,
        level < depth →
        pathIndices level = 0 ∨ pathIndices level = 1) :
    runningHash poseidon leaf pathElements pathIndices depth =
      opening (hashPair poseidon) leaf pathElements
        (sides pathIndices) depth := by
  induction depth with
  | zero =>
      rfl
  | succ level inductionHypothesis =>
      have lower :=
        inductionHypothesis fun earlier below =>
          boolean earlier (Nat.lt_succ_of_lt below)
      have pairEq :=
        orderedPair_of_boolean
          (runningHash poseidon leaf pathElements pathIndices level)
          (pathElements level)
          (boolean level (Nat.lt_succ_self level))
      rw [lower] at pairEq
      rw [opening, sides, ← pairEq, ← lower]
      rfl

/-- The computed checker satisfies its constraints on an opening. -/
theorem MerkleTreeChecker.compute_constraints
    {leaf root : Fr}
    {pathElements pathIndices : Fin levels → Fr}
    (boolean : ∀ i, pathIndices i = 0 ∨ pathIndices i = 1)
    (reaches :
      root =
        opening (hashPair poseidon) leaf (extended pathElements)
          (sides (extended pathIndices)) levels) :
    (MerkleTreeChecker.compute poseidon leaf root pathElements
      pathIndices).Constraints poseidon := by
  have levelHash :
      ∀ i : Fin levels,
        ((MerkleTreeChecker.compute poseidon leaf root pathElements
            pathIndices).hashers i).hash =
          runningHash poseidon leaf (extended pathElements)
            (extended pathIndices) (i + 1) := by
    intro i
    simp only [MerkleTreeChecker.compute, runningHash, extended_of_fin]
  constructor
  · intro i
    exact DualMux.compute_constraints _ _ (boolean i)
  · rintro ⟨level, inside⟩
    cases level with
    | zero =>
        rfl
    | succ level =>
        exact (levelHash ⟨level, Nat.lt_of_succ_lt inside⟩).symm
  · intro i
    rfl
  · intro i
    rfl
  · intro i
    exact HashLeftRight.compute_constraints poseidon _ _
  · intro i
    rfl
  · intro i
    rfl
  · intro last isLast
    have depthEq : last.val + 1 = levels := by
      omega
    rw [levelHash, depthEq,
      runningHash_eq poseidon leaf, ← reaches]
    · rfl
    · intro level inside
      simpa only [extended, inside, ↓reduceDIte] using
        boolean ⟨level, inside⟩

/-- On inputs that open a note the computed assignment satisfies everything. -/
theorem Withdraw.compute_constraints
    {inputs : WithdrawInputs levels}
    (opens : inputs.Opens poseidon) :
    (Withdraw.compute poseidon inputs).Constraints poseidon := by
  constructor
  · rfl
  · rfl
  · exact opens.nullifierHash.symm
  · rfl
  · rfl
  · rfl
  · rfl
  · exact
      MerkleTreeChecker.compute_constraints poseidon opens.boolean
        opens.root
  all_goals
    first
    | rfl
    | exact fun _ => rfl

end Completeness

section Trees

variable
    {poseidon : List Fr → Fr}
    {levels : ℕ}

/-- The leaf index spelled by the path indices. -/
def WithdrawInputs.leafIndex (inputs : WithdrawInputs levels) : ℕ :=
  ∑ i : Fin levels, (inputs.pathIndices i).val * 2 ^ i.val

/-- On bits the spelled index is the index of the sides. -/
theorem WithdrawInputs.leafIndex_eq
    {inputs : WithdrawInputs levels}
    (boolean : ∀ i, inputs.pathIndices i = 0 ∨ inputs.pathIndices i = 1) :
    inputs.leafIndex = sideIndex inputs.sides levels := by
  unfold WithdrawInputs.leafIndex sideIndex
  rw [Finset.sum_range]
  refine Finset.sum_congr rfl ?_
  intro i _
  have sideEq : (inputs.sides i).toNat = (inputs.pathIndices i).val := by
    simp only [WithdrawInputs.sides, Circuit.sides, extended_of_fin]
    rcases boolean i with isZero | isOne
    · simp [isZero]
    · simp [isOne, ZMod.val_one]
  rw [sideEq]

/-- A spelled index stays inside the tree. -/
theorem WithdrawInputs.leafIndex_lt
    {inputs : WithdrawInputs levels}
    (boolean : ∀ i, inputs.pathIndices i = 0 ∨ inputs.pathIndices i = 1) :
    inputs.leafIndex < 2 ^ levels := by
  rw [WithdrawInputs.leafIndex_eq boolean]
  exact sideIndex_lt inputs.sides levels

/--
A note that opens on the root of a tree is the leaf its path spells, or one of
the pairs on its path collides with the tree's pair at that node.
-/
theorem WithdrawInputs.Opens.leaf_or_collision
    {inputs : WithdrawInputs levels}
    {leaves : ℕ → Fr}
    (opens : inputs.Opens poseidon)
    (onRoot : inputs.root = node (hashPair poseidon) leaves levels 0) :
    inputs.noteCommitment poseidon = leaves inputs.leafIndex ∨
      ∃ level,
        level < levels ∧
          Collides (hashPair poseidon)
            (openingPair (hashPair poseidon)
              (inputs.noteCommitment poseidon) inputs.siblings
              inputs.sides level)
            (nodePair (hashPair poseidon) leaves level
              (inputs.leafIndex / 2 ^ (level + 1))) := by
  rw [WithdrawInputs.leafIndex_eq opens.boolean]
  refine opening_leaf_or_collision ?_
  rw [← opens.root, onRoot]

/-- Path indices that are the bits of a position, as sides. -/
theorem WithdrawInputs.sides_toNat
    {inputs : WithdrawInputs levels}
    {position level : ℕ}
    (bits :
      ∀ i : Fin levels,
        inputs.pathIndices i = ((position / 2 ^ i.val % 2 : ℕ) : Fr))
    (inside : level < levels) :
    (inputs.sides level).toNat = position / 2 ^ level % 2 := by
  simp only [WithdrawInputs.sides, Circuit.sides, extended, inside,
    ↓reduceDIte, bits]
  rcases Nat.mod_two_eq_zero_or_one (position / 2 ^ level) with even | odd
  · simp [even]
  · simp [odd]

/-- The bits of a position are zero or one. -/
theorem WithdrawInputs.boolean_of_bits
    {inputs : WithdrawInputs levels}
    {position : ℕ}
    (bits :
      ∀ i : Fin levels,
        inputs.pathIndices i = ((position / 2 ^ i.val % 2 : ℕ) : Fr))
    (i : Fin levels) :
    inputs.pathIndices i = 0 ∨ inputs.pathIndices i = 1 := by
  rw [bits i]
  rcases Nat.mod_two_eq_zero_or_one (position / 2 ^ i.val) with even | odd
  · left
    simp [even]
  · right
    simp [odd]

/-- Path indices that are the bits of a position spell the position. -/
theorem WithdrawInputs.leafIndex_of_bits
    {inputs : WithdrawInputs levels}
    {position : ℕ}
    (inTree : position < 2 ^ levels)
    (bits :
      ∀ i : Fin levels,
        inputs.pathIndices i = ((position / 2 ^ i.val % 2 : ℕ) : Fr)) :
    inputs.leafIndex = position := by
  rw [WithdrawInputs.leafIndex_eq (WithdrawInputs.boolean_of_bits bits),
    sideIndex_of_bits _ fun level inside =>
      WithdrawInputs.sides_toNat bits inside,
    Nat.mod_eq_of_lt inTree]

/-- The note at a position opens along the tree's own siblings. -/
theorem WithdrawInputs.opens_of_siblings
    {inputs : WithdrawInputs levels}
    {leaves : ℕ → Fr}
    {position : ℕ}
    (inTree : position < 2 ^ levels)
    (nullifierHash : inputs.nullifierHash = poseidon [inputs.nullifier])
    (isLeaf : inputs.noteCommitment poseidon = leaves position)
    (onRoot : inputs.root = node (hashPair poseidon) leaves levels 0)
    (bits :
      ∀ i : Fin levels,
        inputs.pathIndices i = ((position / 2 ^ i.val % 2 : ℕ) : Fr))
    (siblings :
      ∀ i : Fin levels,
        inputs.pathElements i =
          node (hashPair poseidon) leaves i (siblingIndex position i)) :
    inputs.Opens poseidon := by
  constructor
  · exact nullifierHash
  · exact WithdrawInputs.boolean_of_bits bits
  · have siblingsOf :
        ∀ level,
          level < levels →
          inputs.siblings level =
            node (hashPair poseidon) leaves level
              (siblingIndex position level) := by
      intro level inside
      simpa only [WithdrawInputs.siblings, extended, inside,
        ↓reduceDIte] using siblings ⟨level, inside⟩
    have reached :=
      opening_of_siblings
        (fun level inside => WithdrawInputs.sides_toNat bits inside)
        siblingsOf levels le_rfl
    rw [isLeaf, onRoot, reached, Nat.div_eq_of_lt inTree]

end Trees

end StarkCash.Circuit
