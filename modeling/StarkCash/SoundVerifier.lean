import StarkCash.ValueConservation
import StarkCash.WithdrawCircuit

namespace StarkCash.Cairo

/-!
# The pool with a sound verifier

The proof check is handed a full assignment of the withdraw circuit and
accepts exactly if it satisfies the constraints for public inputs below the
scalar prime, and the contract hashes as the circuit does.  Every accepted
withdrawal then opens a deposited leaf, unless hash inputs used in the run
collide or the padding leaf is opened (`Accepted.noteDeposited`).
-/

open PerfectTree

section SharedHash

/-- The contract's hash, computed on field elements as in the circuit. -/
def sharedHash
    (poseidon : List Fr → Fr)
    (left right : U256) : U256 :=
  U256.ofFr (poseidon [left.toFr, right.toFr])

/-- The leaves of a prefix, padded and read as field elements. -/
def fieldLeaves
    (leaves : List U256)
    (count position : ℕ) : Fr :=
  (padded zeroLeaf (leaves.take count) position).toFr

variable (poseidon : List Fr → Fr)

/-- The shared hash, read as a field element, is the circuit's hash. -/
theorem toFr_sharedHash
    (left right : U256) :
    (sharedHash poseidon left right).toFr =
      Circuit.hashPair poseidon left.toFr right.toFr := by
  rw [sharedHash, U256.toFr_ofFr]
  rfl

/-- The contract's roots are those of the tree of field elements. -/
theorem toFr_rootAfter
    (leaves : List U256)
    (count : ℕ) :
    (rootAfter (sharedHash poseidon) leaves count).toFr =
      node (Circuit.hashPair poseidon) (fieldLeaves leaves count) levels
        0 :=
  node_map (toFr_sharedHash poseidon) _ levels 0

/-- The contract's roots are below the scalar prime. -/
theorem rootAfter_lt
    (leaves : List U256)
    (count : ℕ) :
    (rootAfter (sharedHash poseidon) leaves count).toNat < bn254Prime :=
  U256.ofFr_lt _

/-- Inside its prefix a leaf is the inserted one. -/
theorem fieldLeaves_of_lt
    {leaves : List U256}
    {count position : ℕ}
    {leaf : U256}
    (present : leaves[position]? = some leaf)
    (counted : position < count) :
    fieldLeaves leaves count position = leaf.toFr := by
  obtain ⟨inLeaves, leafEq⟩ := List.getElem?_eq_some_iff.mp present
  have inPrefix : position < (leaves.take count).length := by
    rw [List.length_take]
    exact Nat.lt_min.mpr ⟨counted, inLeaves⟩
  rw [fieldLeaves, padded_of_lt zeroLeaf inPrefix, List.getElem_take,
    leafEq]

/-- A position holds an inserted leaf or the padding leaf. -/
theorem fieldLeaves_cases
    (leaves : List U256)
    (count position : ℕ) :
    (∃ leaf,
        leaves[position]? = some leaf ∧
          fieldLeaves leaves count position = leaf.toFr) ∨
      fieldLeaves leaves count position = zeroLeaf.toFr := by
  rcases Nat.lt_or_ge position (leaves.take count).length with
    inPrefix | beyond
  · left
    rw [List.length_take, Nat.lt_min] at inPrefix
    obtain ⟨counted, inLeaves⟩ := inPrefix
    have present := List.getElem?_eq_getElem inLeaves
    exact ⟨_, present, fieldLeaves_of_lt present counted⟩
  · right
    rw [fieldLeaves, padded_of_length_le zeroLeaf beyond]

end SharedHash

section Notes

/-- A note: its secret and its nullifier. -/
structure Note where
  secret : Fr
  nullifier : Fr

namespace Note

/-- The pair hashed to the note's commitment. -/
def pair (note : Note) : Fr × Fr :=
  (note.secret, note.nullifier)

/-- The nullifier hash of the note, as the circuit computes it. -/
def nullifierHash
    (poseidon : List Fr → Fr)
    (note : Note) : U256 :=
  U256.ofFr (poseidon [note.nullifier])

/-- The leaf at a position is the note's commitment modulo the prime. -/
def DepositedAt
    (poseidon : List Fr → Fr)
    (leaves : List U256)
    (index : ℕ)
    (note : Note) : Prop :=
  ∃ leaf,
    leaves[index]? = some leaf ∧
      leaf.toFr = Circuit.hashPair poseidon note.secret note.nullifier

end Note

/-- The note an assignment is about. -/
def noteOf (signals : Circuit.Withdraw levels) : Note where
  secret := signals.secret
  nullifier := signals.nullifier

end Notes

section Verdict

/-- The public signals of an assignment, in the order of the contract. -/
def publicSignals (signals : Circuit.Withdraw levels) : List Fr :=
  [signals.root, signals.nullifierHash, signals.recipient,
    signals.relayer, signals.fee, signals.refund]

/--
A sound check of a full assignment: public inputs below the prime, equal to
the public signals of an assignment that satisfies the circuit.
-/
structure SoundlyAccepts
    (poseidon : List Fr → Fr)
    (signals : Circuit.Withdraw levels)
    (inputs : List U256) : Prop where
  below :
    ∀ input,
      input ∈ inputs →
      input.toNat < bn254Prime
  publicEq :
    inputs.map U256.toFr = publicSignals signals
  satisfied :
    signals.Constraints poseidon

open Classical in
/-- The verdict of a sound check. -/
noncomputable def soundVerdict
    (poseidon : List Fr → Fr)
    (signals : Circuit.Withdraw levels)
    (inputs : List U256) : Bool :=
  decide (SoundlyAccepts poseidon signals inputs)

/-- The pool with the shared hash and a sound check. -/
noncomputable def soundPool
    (poseidon : List Fr → Fr)
    (self tokenAddress : ContractAddress)
    (denomination : U256) : Deployment (Circuit.Withdraw levels) where
  hash := sharedHash poseidon
  verdict := soundVerdict poseidon
  self := self
  tokenAddress := tokenAddress
  denomination := denomination

variable
    {poseidon : List Fr → Fr}
    {call : WithdrawCall (Circuit.Withdraw levels)}

/-- The verdict is that of the sound check. -/
theorem soundVerdict_eq_true
    {signals : Circuit.Withdraw levels}
    {inputs : List U256} :
    soundVerdict poseidon signals inputs = true ↔
      SoundlyAccepts poseidon signals inputs := by
  simp only [soundVerdict, decide_eq_true_eq]

/-- An accepted assignment is about the root of the call. -/
theorem SoundlyAccepts.root
    (accepts : SoundlyAccepts poseidon call.proof call.publicInputs) :
    call.root.toFr = call.proof.root :=
  (List.cons.inj accepts.publicEq).1

/-- An accepted assignment is about the nullifier hash of the call. -/
theorem SoundlyAccepts.nullifierHash
    (accepts : SoundlyAccepts poseidon call.proof call.publicInputs) :
    call.nullifierHash.toFr = poseidon [call.proof.nullifier] := by
  have inputs := (List.cons.inj accepts.publicEq).2
  rw [← accepts.satisfied.nullifierHash_eq]
  exact (List.cons.inj inputs).1

/-- The nullifier hash of an accepted call is below the prime. -/
theorem SoundlyAccepts.nullifierHash_lt
    (accepts : SoundlyAccepts poseidon call.proof call.publicInputs) :
    call.nullifierHash.toNat < bn254Prime :=
  accepts.below _ (by simp [WithdrawCall.publicInputs])

end Verdict

section Openings

variable {poseidon : List Fr → Fr}

/--
The pairs hashed in a run: at the nodes of the tree of every prefix of the
leaves, on the paths of the accepted assignments, and in their commitments.
-/
inductive UsedPair
    (poseidon : List Fr → Fr)
    (receipts : List (Entry (Circuit.Withdraw levels))) :
    Fr × Fr → Prop where
  | treeNode
      (count level index : ℕ)
      (counted : count ≤ (leavesOf receipts).length)
      (inTree : level < levels)
      (inLevel : index < 2 ^ (levels - (level + 1))) :
      UsedPair poseidon receipts
        (nodePair (Circuit.hashPair poseidon)
          (fieldLeaves (leavesOf receipts) count) level index)
  | pathNode
      (call : WithdrawCall (Circuit.Withdraw levels))
      (accepted : call ∈ withdrawCalls receipts)
      (level : Fin levels) :
      UsedPair poseidon receipts
        ((call.proof.tree.hashers level).left,
          (call.proof.tree.hashers level).right)
  | commitment
      (call : WithdrawCall (Circuit.Withdraw levels))
      (accepted : call ∈ withdrawCalls receipts) :
      UsedPair poseidon receipts
        (call.proof.secret, call.proof.nullifier)

/-- No two different pairs of a set have one hash. -/
def NoCollision
    (poseidon : List Fr → Fr)
    (used : Fr × Fr → Prop) : Prop :=
  ∀ first second,
    used first →
    used second →
    ¬ Collides (Circuit.hashPair poseidon) first second

/-- Without collisions an accepted call is about a deposited note. -/
theorem Accepted.noteDeposited
    {self tokenAddress : ContractAddress}
    {denomination : U256}
    {receipts : List (Entry (Circuit.Withdraw levels))}
    {call : WithdrawCall (Circuit.Withdraw levels)}
    (accepted :
      Accepted (soundPool poseidon self tokenAddress denomination)
        receipts call)
    (member : call ∈ withdrawCalls receipts)
    (notZeroLeaf : call.proof.noteCommitment poseidon ≠ zeroLeaf.toFr)
    (noCollision : NoCollision poseidon (UsedPair poseidon receipts)) :
    (noteOf call.proof).DepositedAt poseidon (leavesOf receipts)
      call.proof.leafIndex := by
  obtain ⟨count, counted, rootEq⟩ := accepted.rootTaken
  have accepts := soundVerdict_eq_true.mp accepted.verified
  have opens := accepts.satisfied.opens (by decide)
  have onRoot :
      call.proof.root =
        node (Circuit.hashPair poseidon)
          (fieldLeaves (leavesOf receipts) count) levels 0 := by
    rw [← accepts.root, ← rootEq]
    exact toFr_rootAfter poseidon _ count
  rcases opens.leaf_or_collision onRoot with
    isLeaf | ⟨level, inTree, collides⟩
  · rcases fieldLeaves_cases (leavesOf receipts) count
        call.proof.leafIndex with ⟨leaf, present, leafEq⟩ | isZeroLeaf
    · exact ⟨leaf, present, leafEq.symm.trans isLeaf.symm⟩
    · rw [isZeroLeaf] at isLeaf
      exact absurd isLeaf notZeroLeaf
  · have inLevel :
        call.proof.leafIndex / 2 ^ (level + 1) <
          2 ^ (levels - (level + 1)) := by
      apply Nat.div_lt_of_lt_mul
      rw [← pow_add, Nat.add_sub_of_le inTree]
      exact Circuit.WithdrawInputs.leafIndex_lt opens.boolean
    have onPath : UsedPair poseidon receipts _ :=
      UsedPair.pathNode call member ⟨level, inTree⟩
    rw [accepts.satisfied.pair_eq_openingPair] at onPath
    exact
      absurd collides
        (noCollision _ _ onPath
          (UsedPair.treeNode count level _ counted inTree inLevel))

end Openings

end StarkCash.Cairo
