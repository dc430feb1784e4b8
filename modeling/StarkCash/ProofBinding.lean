import StarkCash.RustProof
import StarkCash.StructuralProofs

namespace StarkCash

/-!
# What a proof is bound to

Neither proof check of the source is cryptographic.  In the pool the verdict
reads the proof, the root and the nullifier hash, so that a withdrawal can be
redirected as far as its fee stays below the denomination; in Rust it reads
the lengths of the components and three public inputs.
-/

namespace Cairo

section Redirection

variable {Proof Token : Type}

/-- The same proof, root and nullifier hash with other payment arguments. -/
def WithdrawCall.redirected
    (call : WithdrawCall Proof)
    (recipient relayer : ContractAddress)
    (fee refund : U256) : WithdrawCall Proof :=
  { call with
    recipient := recipient
    relayer := relayer
    fee := fee
    refund := refund }

/-- The structural check does not read the payment arguments. -/
theorem structuralVerdict_redirected
    (call : WithdrawCall Groth16Proof)
    (recipient relayer : ContractAddress)
    (fee refund : U256) :
    let redirected := call.redirected recipient relayer fee refund
    structuralVerdict redirected.proof redirected.publicInputs =
      structuralVerdict call.proof call.publicInputs := by
  apply Bool.eq_iff_iff.mpr
  rw [structuralVerdict_eq_true, structuralVerdict_eq_true]
  rfl

/-- Redirected, a withdrawal that passes its checks is left with the fee's. -/
theorem Withdrawable.redirected_iff
    {call : WithdrawCall Groth16Proof}
    {world : World Groth16Proof Token}
    (withdrawable : Withdrawable structuralVerdict call world)
    (recipient relayer : ContractAddress)
    (fee refund : U256) :
    Withdrawable structuralVerdict
        (call.redirected recipient relayer fee refund) world ↔
      fee < world.pool.denomination := by
  constructor
  · intro redirected
    exact redirected.feeBelow
  · intro feeBelow
    constructor
    · exact withdrawable.unspent
    · exact withdrawable.knownRoot
    · rw [structuralVerdict_redirected]
      exact withdrawable.verified
    · exact feeBelow

/-- The refund of a withdrawal has no effect. -/
theorem withdraw_refund
    (external : External Groth16Proof Token)
    (call : WithdrawCall Groth16Proof)
    (refund : U256) :
    withdraw structuralVerdict external
        (call.redirected call.recipient call.relayer call.fee refund) =
      withdraw structuralVerdict external call := by
  have sameCheck :
      (verifyZkProof structuralVerdict
          (call.redirected call.recipient call.relayer call.fee refund) :
        Contract Groth16Proof Token Unit) =
        verifyZkProof structuralVerdict call := by
    unfold verifyZkProof
    rw [structuralVerdict_redirected]
  unfold withdraw
  rw [sameCheck]
  rfl

end Redirection

end Cairo

namespace Rust

section Verification

variable
    {poseidon : List Fr → Fr}
    {proof : Proof}
    {witness : Witness}
    {publicInputs : PublicInputs}

/-- No public input that must not be zero is zero. -/
structure PublicInputs.NonZero (publicInputs : PublicInputs) : Prop where
  root :
    publicInputs.root ≠ zeroBytes
  nullifierHash :
    publicInputs.nullifierHash ≠ zeroBytes
  recipient :
    publicInputs.recipient ≠ zeroBytes

/-- The public inputs are valid exactly if none of the three is zero. -/
theorem validatePublicInputs_eq_ok :
    validatePublicInputs publicInputs = .ok () ↔ publicInputs.NonZero := by
  unfold validatePublicInputs
  constructor
  · intro valid
    split_ifs at valid with root nullifierHash recipient
    exact ⟨root, nullifierHash, recipient⟩
  · intro nonZero
    rw [if_neg nonZero.root, if_neg nonZero.nullifierHash,
      if_neg nonZero.recipient]

/-- The check accepts nonempty components and valid public inputs. -/
theorem verifyProof_eq_true :
    verifyProof proof publicInputs = true ↔
      proof.isValid = true ∧ publicInputs.NonZero := by
  rw [← validatePublicInputs_eq_ok]
  unfold verifyProof
  cases proof.isValid with
  | false =>
      simp
  | true =>
      cases validatePublicInputs publicInputs with
      | error error =>
          simp [Except.toBool]
      | ok accepted =>
          simp [Except.toBool]

/-- It refuses emptied components and invalid public inputs. -/
theorem verifyProof_eq_false :
    verifyProof proof publicInputs = false ↔
      (proof.a = [] ∨ proof.b = [] ∨ proof.c = []) ∨
        ¬ publicInputs.NonZero := by
  have emptied :
      ¬ proof.isValid = true ↔ proof.a = [] ∨ proof.b = [] ∨ proof.c = [] := by
    simp only [Proof.isValid, Bool.and_eq_true, Bool.not_eq_true',
      List.isEmpty_eq_false_iff, not_and_or, not_not, or_assoc]
  rw [← emptied, ← not_and_or, ← verifyProof_eq_true, Bool.not_eq_true]

/-- The components of a development proof are three hashes. -/
theorem generateTestProof_isValid :
    (generateTestProof poseidon witness publicInputs).isValid = true := by
  have nonempty (hash : Bytes32) : hash.toList.isEmpty = false := by
    apply List.isEmpty_eq_false_iff.mpr
    apply List.ne_nil_of_length_pos
    rw [Vector.length_toList]
    decide
  simp only [Proof.isValid, generateTestProof, nonempty, Bool.not_false,
    Bool.and_self]

/-- Proofs are generated for valid public inputs only. -/
theorem generateProof_eq_ok
    (generated : generateProof poseidon witness publicInputs = .ok proof) :
    publicInputs.NonZero ∧
      proof = generateTestProof poseidon witness publicInputs := by
  unfold generateProof at generated
  cases witnessValid : validateWitness witness with
  | error error =>
      rw [witnessValid] at generated
      cases generated
  | ok accepted =>
      cases inputsValid : validatePublicInputs publicInputs with
      | error error =>
          rw [witnessValid, inputsValid] at generated
          cases generated
      | ok accepted =>
          rw [witnessValid, inputsValid] at generated
          exact
            ⟨validatePublicInputs_eq_ok.mp inputsValid,
              (Except.ok.inj generated).symm⟩

end Verification

end Rust

section Binding

/--
What a proof is bound to.  In the pool, in every state: redirected to any
recipient, relayer, fee and refund, a withdrawal that completes still completes
exactly if the new fee is below the denomination and the new payments return,
and the refund alone has no effect at all.  In Rust: a generated proof verifies
with its own public inputs, and no proof verifies with public inputs of which
the root, the nullifier hash or the recipient is zero, or with a component
emptied.
-/
theorem proof_binding :
    (∀ {Token : Type}
        (poseidonHashSpan : List Felt252 → Felt252)
        (self tokenAddress : ContractAddress)
        (denomination : U256)
        (external : Cairo.External Cairo.Groth16Proof Token)
        (world after : Cairo.World Cairo.Groth16Proof Token)
        (call : Cairo.WithdrawCall Cairo.Groth16Proof),
        let pool :=
          Cairo.ghostPool poseidonHashSpan self tokenAddress denomination
        pool.call external (.withdraw call) world = .ok () after →
        ∀ (recipient relayer : ContractAddress) (fee refund : U256),
          let redirected := call.redirected recipient relayer fee refund
          ((∃ redirectedAfter,
              pool.call external (.withdraw redirected) world =
                .ok () redirectedAfter) ↔
            fee < world.pool.denomination ∧
              ∃ paid,
                Cairo.PaysOut external redirected world.pool.denomination
                  (world.markSpent call.nullifierHash) paid) ∧
            Cairo.withdraw pool.verdict external
                (call.redirected call.recipient call.relayer call.fee
                  refund) world =
              Cairo.withdraw pool.verdict external call world) ∧
      ∀ (poseidon : List Fr → Fr)
        (witness : Rust.Witness)
        (publicInputs : Rust.PublicInputs)
        (proof : Rust.Proof),
        Rust.generateProof poseidon witness publicInputs = .ok proof →
        Rust.verifyProof proof publicInputs = true ∧
          (∀ other : Rust.PublicInputs,
            ¬ other.NonZero →
            Rust.verifyProof proof other = false) ∧
          ∀ emptied : Rust.Proof,
            emptied.a = [] ∨ emptied.b = [] ∨ emptied.c = [] →
            Rust.verifyProof emptied publicInputs = false := by
  constructor
  · intro Token poseidonHashSpan self tokenAddress denomination external
      world after call pool completed recipient relayer fee refund
      redirected
    obtain ⟨withdrawable, _⟩ := Cairo.enter_withdraw_eq_ok.mp completed
    constructor
    · rw [← withdrawable.redirected_iff recipient relayer fee refund]
      constructor
      · rintro ⟨redirectedAfter, redirectedCompleted⟩
        obtain ⟨passes, paid, paysOut, _⟩ :=
          Cairo.enter_withdraw_eq_ok.mp redirectedCompleted
        exact ⟨passes, paid, paysOut⟩
      · rintro ⟨passes, paid, paysOut⟩
        exact
          ⟨_, Cairo.enter_withdraw_eq_ok.mpr ⟨passes, paid, paysOut, rfl⟩⟩
    · exact congrFun (Cairo.withdraw_refund external call refund) world
  · intro poseidon witness publicInputs proof generated
    obtain ⟨nonZero, rfl⟩ := Rust.generateProof_eq_ok generated
    refine
      ⟨Rust.verifyProof_eq_true.mpr
        ⟨Rust.generateTestProof_isValid, nonZero⟩, ?_, ?_⟩
    · intro other zero
      exact Rust.verifyProof_eq_false.mpr (Or.inr zero)
    · intro emptied isEmptied
      exact Rust.verifyProof_eq_false.mpr (Or.inl isEmptied)

/-- The witness of the repository's tests. -/
def testWitness : Rust.Witness where
  secret := Vector.replicate 32 1
  nullifier := Vector.replicate 32 2
  pathElements := List.replicate 20 (Vector.replicate 32 3)
  pathIndices := List.replicate 20 0

/-- The public inputs of the repository's tests. -/
def testInputs : Rust.PublicInputs where
  root := Vector.replicate 32 4
  nullifierHash := Vector.replicate 32 5
  recipient := Vector.replicate 32 6
  relayer := none
  fee := 0
  refund := 0

/-- The proof generated from them, with the sum as the permutation. -/
def testProof : Rust.Proof :=
  Rust.generateTestProof List.sum testWitness testInputs

/-- The public inputs of the tests are valid. -/
theorem testInputs_nonZero :
    testInputs.NonZero := by
  constructor <;> decide

/-- That proof is what `generate_proof` returns. -/
theorem generateProof_testInputs :
    Rust.generateProof List.sum testWitness testInputs = .ok testProof := by
  have witnessValid : Rust.validateWitness testWitness = .ok () := rfl
  have inputsValid :=
    Rust.validatePublicInputs_eq_ok.mpr testInputs_nonZero
  unfold Rust.generateProof
  rw [witnessValid, inputsValid]
  rfl

/-- The unbacked withdrawal, sent to other accounts with another refund. -/
theorem unbackedCall_redirected_admissible
    {poseidonHashSpan : List Felt252 → Felt252}
    (notZero :
      Cairo.getZero (Cairo.poseidonHash2 poseidonHashSpan)
        Cairo.levels ≠ 0) :
    Cairo.Admissible (Cairo.unbackedPool poseidonHashSpan).hash
      (Cairo.unbackedPool poseidonHashSpan).denomination
      (Cairo.unbackedStart poseidonHashSpan).receipts
      ((Cairo.unbackedCall poseidonHashSpan).redirected 5 6 0 7) := by
  have admissible := Cairo.unbackedCall_admissible notZero
  exact
    ⟨admissible.unspent, admissible.rootNonzero, admissible.rootRecent,
      admissible.wellFormed, admissible.nullifierHashNonzero,
      admissible.feeBelow⟩

/--
A withdrawal that completes in a reachable state completes there for another
recipient too, whatever the sponge of the pool; and the proof of the tests
verifies with another recipient and with one byte changed.
-/
theorem redirected_and_tampered :
    Cairo.getZero (Cairo.poseidonHash2 fun _ => 1) Cairo.levels ≠ 0 ∧
      (∀ poseidonHashSpan : List Felt252 → Felt252,
        Cairo.getZero (Cairo.poseidonHash2 poseidonHashSpan)
            Cairo.levels ≠ 0 →
        ∃ calls received world,
          Cairo.TokenRun (Cairo.unbackedPool poseidonHashSpan)
              Cairo.ledgerToken calls received world ∧
            (∃ after,
              (Cairo.unbackedPool poseidonHashSpan).call
                  (Cairo.ledgerToken.external 1)
                  (.withdraw (Cairo.unbackedCall poseidonHashSpan))
                  world =
                .ok () after) ∧
            ∃ after,
              (Cairo.unbackedPool poseidonHashSpan).call
                  (Cairo.ledgerToken.external 1)
                  (.withdraw
                    ((Cairo.unbackedCall poseidonHashSpan).redirected 5
                      6 0 7))
                  world =
                .ok () after) ∧
      Rust.generateProof List.sum testWitness testInputs =
          .ok testProof ∧
        (∃ other,
          other ≠ testInputs ∧
            Rust.verifyProof testProof other = true) ∧
        ∃ first rest byte,
          testProof.a = first :: rest ∧
            byte ≠ first ∧
            Rust.verifyProof { testProof with a := byte :: rest }
                testInputs =
              true := by
  refine ⟨by decide, ?_, generateProof_testInputs, ?_, ?_⟩
  · intro poseidonHashSpan notZero
    obtain ⟨paid, completed⟩ :=
      Cairo.unbackedStart_completes
        (Cairo.unbackedCall_admissible notZero)
    obtain ⟨redirectedPaid, redirected⟩ :=
      Cairo.unbackedStart_completes
        (unbackedCall_redirected_admissible notZero)
    exact
      ⟨_, _, _, Cairo.unbackedStart_run poseidonHashSpan,
        ⟨_, completed⟩, ⟨_, redirected⟩⟩
  · let other : Rust.PublicInputs :=
      { testInputs with recipient := Vector.replicate 32 0xff }
    have otherNonZero : other.NonZero := by
      constructor <;> decide
    have different : other ≠ testInputs := by
      decide
    exact
      ⟨other, different,
        Rust.verifyProof_eq_true.mpr
          ⟨Rust.generateTestProof_isValid, otherNonZero⟩⟩
  · have valid : testProof.isValid = true :=
      Rust.generateTestProof_isValid
    cases bytes : testProof.a with
    | nil =>
        simp [Rust.Proof.isValid, bytes] at valid
    | cons first rest =>
        simp only [Rust.Proof.isValid, bytes, List.isEmpty_cons,
          Bool.not_false, Bool.true_and] at valid
        refine ⟨first, rest, first + 1, rfl, ?_, ?_⟩
        · simp
        · apply Rust.verifyProof_eq_true.mpr
          refine ⟨?_, testInputs_nonZero⟩
          simp only [Rust.Proof.isValid, List.isEmpty_cons,
            Bool.not_false, Bool.true_and]
          exact valid

/-- The binding at the unbacked withdrawal and at the proof of the tests. -/
theorem proof_binding_unbacked :
    (∀ (recipient relayer : ContractAddress) (fee refund : U256),
        (∃ after,
            (Cairo.unbackedPool fun _ => 1).call
                (Cairo.ledgerToken.external 1)
                (.withdraw
                  ((Cairo.unbackedCall fun _ => 1).redirected recipient
                    relayer fee refund))
                (Cairo.unbackedStart fun _ => 1) =
              .ok () after) ↔
          fee < 1 ∧
            ∃ paid,
              Cairo.PaysOut (Cairo.ledgerToken.external 1)
                ((Cairo.unbackedCall fun _ => 1).redirected recipient
                  relayer fee refund)
                1
                ((Cairo.unbackedStart fun _ => 1).markSpent 1) paid) ∧
      Rust.verifyProof testProof testInputs = true := by
  have notZero :
      Cairo.getZero (Cairo.poseidonHash2 fun _ => 1) Cairo.levels ≠ 0 := by
    decide
  obtain ⟨second, completed⟩ :=
    Cairo.unbackedStart_completes (Cairo.unbackedCall_admissible notZero)
  constructor
  · intro recipient relayer fee refund
    exact
      (proof_binding.1 (fun _ => 1) 1 2 1 (Cairo.ledgerToken.external 1)
        (Cairo.unbackedStart fun _ => 1) _
        (Cairo.unbackedCall fun _ => 1) completed recipient relayer fee
        refund).1
  · exact
      (proof_binding.2 List.sum testWitness testInputs testProof
        generateProof_testInputs).1

end Binding

end StarkCash
