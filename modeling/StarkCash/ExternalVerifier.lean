import StarkCash.GhostPool

namespace StarkCash.Cairo

/-!
# The external verifier

Embedding of `contracts/src/groth16_verifier_external.cairo`.  The class hash
of the callee and the outcome of `library_call_syscall` are parameters: the
call may fail or return any list of field elements.  The callee answers with
the Serde encoding of an `Option<Span<u256>>`.
-/

/-- `starknet::ClassHash`: the numbers below `2 ^ 251`. -/
abbrev ClassHash : Type :=
  Fin (2 ^ 251)

/-- `felt.try_into().unwrap()` to a class hash. -/
def toClassHash (felt : Felt252) : Except Panic ClassHash :=
  if fits : felt.val < 2 ^ 251 then
    .ok ⟨felt.val, fits⟩
  else
    .error ⟨"Option::unwrap failed."⟩

/-- The outcome of calling a function of a class with calldata. -/
abbrev LibraryCallSyscall : Type :=
  ClassHash → String → List Felt252 →
    Except (List Felt252) (List Felt252)

section Serde

/-- The two halves of a `u256`. -/
def serializeU256 (word : U256) : List Felt252 :=
  [word.low, word.high]

/-- A `Span<u256>`: its length and the halves of its elements. -/
def serializeSpan (words : List U256) : List Felt252 :=
  Fin.ofNat _ words.length :: words.flatMap serializeU256

/-- An `Option<Span<u256>>`: the index of its variant and the span. -/
def serializeOption : Option (List U256) → List Felt252
  | some words => 0 :: serializeSpan words
  | none => [1]

end Serde

namespace ExternalVerifier

/-- Append the halves of a first-group point (`serialize_g1_point`). -/
def serializeG1Point
    (point : G1Point)
    (calldata : List Felt252) : List Felt252 :=
  calldata ++ [point.x.low, point.x.high, point.y.low, point.y.high]

/-- Append the halves of a second-group point (`serialize_g2_point`). -/
def serializeG2Point
    (point : G2Point)
    (calldata : List Felt252) : List Felt252 :=
  calldata ++
    [point.x0.low, point.x0.high, point.x1.low, point.x1.high,
      point.y0.low, point.y0.high, point.y1.low, point.y1.high]

/-- The loop that appends the halves of the public inputs. -/
def serializePublicInputs
    (publicInputs : List U256)
    (calldata : List Felt252) : List Felt252 :=
  publicInputs.foldl
    (fun calldata input => calldata ++ [input.low, input.high])
    calldata

/-- The array `calldata`. -/
def calldata
    (proof : Groth16Proof)
    (publicInputs : List U256) : List Felt252 :=
  serializePublicInputs publicInputs
    (serializeG1Point proof.c
      (serializeG2Point proof.b (serializeG1Point proof.a [])))

/-- The name behind `selector!("verify_groth16_proof_bn254")`. -/
def selector : String :=
  "verify_groth16_proof_bn254"

/-- The check without a deployed verifier (`verify_groth16_fallback`). -/
def verifyGroth16Fallback
    (proof : Groth16Proof)
    (publicInputs : List U256) : Except Panic Bool :=
  if bn254PrimeWord ≤ proof.a.x ∨ bn254PrimeWord ≤ proof.a.y then
    .ok false
  else if bn254PrimeWord ≤ proof.c.x ∨ bn254PrimeWord ≤ proof.c.y then
    .ok false
  else if bn254PrimeWord ≤ proof.b.x0 ∨ bn254PrimeWord ≤ proof.b.x1 then
    .ok false
  else if bn254PrimeWord ≤ proof.b.y0 ∨ bn254PrimeWord ≤ proof.b.y1 then
    .ok false
  else if proof.a.x = 0 ∧ proof.a.y = 1 then
    .ok false
  else if proof.c.x = 0 ∧ proof.c.y = 1 then
    .ok false
  else if publicInputs.length ≠ 6 then
    .ok false
  else do
    let root ← arrayAt publicInputs 0
    let nullifierHash ← arrayAt publicInputs 1
    let fee ← arrayAt publicInputs 4
    let refund ← arrayAt publicInputs 5
    if root = 0 ∨ nullifierHash = 0 then
      return false
    else if 0xffffffffffffffff < fee ∨ 0xffffffffffffffff < refund then
      return false
    else
      return true

/-- Call the external verifier (`verify_groth16_external`). -/
def verifyGroth16External
    (groth16VerifierClassHash : Felt252)
    (libraryCall : LibraryCallSyscall)
    (proof : Groth16Proof)
    (publicInputs : List U256) : Except Panic Bool :=
  if groth16VerifierClassHash = 0 then
    verifyGroth16Fallback proof publicInputs
  else do
    let classHash ← toClassHash groth16VerifierClassHash
    match libraryCall classHash selector (calldata proof publicInputs) with
    | .ok _returnData => return true
    | .error _ => return false

section Answers

variable
    {groth16VerifierClassHash : Felt252}
    {libraryCall : LibraryCallSyscall}
    {proof : Groth16Proof}
    {publicInputs : List U256}

/-- The call succeeded and returned this data. -/
def Returned
    (groth16VerifierClassHash : Felt252)
    (libraryCall : LibraryCallSyscall)
    (proof : Groth16Proof)
    (publicInputs : List U256)
    (returnData : List Felt252) : Prop :=
  ∃ classHash,
    toClassHash groth16VerifierClassHash = .ok classHash ∧
      libraryCall classHash selector (calldata proof publicInputs) =
        .ok returnData

/--
The verifier answers, and with yes exactly if the call returned the encoding
of the public inputs.
-/
def HonoursAnswer
    (groth16VerifierClassHash : Felt252)
    (libraryCall : LibraryCallSyscall)
    (proof : Groth16Proof)
    (publicInputs : List U256) : Prop :=
  ∃ verdict,
    verifyGroth16External groth16VerifierClassHash libraryCall proof
          publicInputs =
        .ok verdict ∧
      (verdict = true ↔
        Returned groth16VerifierClassHash libraryCall proof publicInputs
          (serializeOption (some publicInputs)))

/-- A call returns one thing. -/
theorem Returned.unique
    {first second : List Felt252}
    (firstReturned :
      Returned groth16VerifierClassHash libraryCall proof publicInputs
        first)
    (secondReturned :
      Returned groth16VerifierClassHash libraryCall proof publicInputs
        second) :
    first = second := by
  obtain ⟨firstClass, firstConverted, firstOutcome⟩ := firstReturned
  obtain ⟨secondClass, secondConverted, secondOutcome⟩ := secondReturned
  obtain rfl := Except.ok.inj (firstConverted.symm.trans secondConverted)
  exact Except.ok.inj (firstOutcome.symm.trans secondOutcome)

/-- With a deployed class the answer is whether the call succeeded. -/
theorem verifyGroth16External_eq
    (libraryCall : LibraryCallSyscall)
    (proof : Groth16Proof)
    (publicInputs : List U256)
    (deployed : groth16VerifierClassHash ≠ 0)
    (fits : groth16VerifierClassHash.val < 2 ^ 251) :
    ∃ verdict,
      verifyGroth16External groth16VerifierClassHash libraryCall proof
            publicInputs =
          .ok verdict ∧
        (verdict = true ↔
          ∃ returnData,
            Returned groth16VerifierClassHash libraryCall proof
              publicInputs returnData) := by
  have converted :
      toClassHash groth16VerifierClassHash =
        .ok ⟨groth16VerifierClassHash.val, fits⟩ :=
    dif_pos fits
  unfold verifyGroth16External
  rw [if_neg deployed, converted, Imperative.ok_bind]
  cases outcome :
      libraryCall ⟨groth16VerifierClassHash.val, fits⟩ selector
        (calldata proof publicInputs) with
  | ok returnData =>
      refine ⟨true, rfl, ?_⟩
      exact ⟨fun _ => ⟨returnData, _, converted, outcome⟩, fun _ => rfl⟩
  | error reason =>
      refine ⟨false, rfl, ?_⟩
      constructor
      · intro accepted
        exact Bool.noConfusion accepted
      · rintro ⟨returnData, classHash, sameClass, returned⟩
        rw [← Except.ok.inj (converted.symm.trans sameClass), outcome]
          at returned
        cases returned

/-- A class hash that does not fit aborts the verifier. -/
theorem verifyGroth16External_of_large
    (deployed : groth16VerifierClassHash ≠ 0)
    (large : ¬ groth16VerifierClassHash.val < 2 ^ 251) :
    verifyGroth16External groth16VerifierClassHash libraryCall proof
        publicInputs =
      .error ⟨"Option::unwrap failed."⟩ := by
  have refused :
      toClassHash groth16VerifierClassHash =
        .error ⟨"Option::unwrap failed."⟩ :=
    dif_neg large
  unfold verifyGroth16External
  rw [if_neg deployed, refused]
  rfl

/--
A deployed verifier's answer is honoured exactly if the class hash is one and
the call returns nothing but the encoding of the public inputs.
-/
theorem honoursAnswer_iff
    (groth16VerifierClassHash : Felt252)
    (libraryCall : LibraryCallSyscall)
    (proof : Groth16Proof)
    (publicInputs : List U256)
    (deployed : groth16VerifierClassHash ≠ 0) :
    HonoursAnswer groth16VerifierClassHash libraryCall proof
        publicInputs ↔
      groth16VerifierClassHash.val < 2 ^ 251 ∧
        ∀ returnData,
          Returned groth16VerifierClassHash libraryCall proof publicInputs
              returnData →
            returnData = serializeOption (some publicInputs) := by
  by_cases fits : groth16VerifierClassHash.val < 2 ^ 251
  · obtain ⟨verdict, answered, means⟩ :=
      verifyGroth16External_eq libraryCall proof publicInputs deployed fits
    constructor
    · rintro ⟨honoured, sameAnswer, honours⟩
      obtain rfl := Except.ok.inj (answered.symm.trans sameAnswer)
      refine ⟨fits, ?_⟩
      intro returnData returned
      have accepted := means.mpr ⟨returnData, returned⟩
      exact returned.unique (honours.mp accepted)
    · rintro ⟨_, onlyInputs⟩
      refine ⟨verdict, answered, means.trans ?_⟩
      constructor
      · rintro ⟨returnData, returned⟩
        rw [← onlyInputs returnData returned]
        exact returned
      · intro returned
        exact ⟨_, returned⟩
  · constructor
    · rintro ⟨verdict, answered, _⟩
      rw [verifyGroth16External_of_large deployed fits] at answered
      cases answered
    · rintro ⟨below, _⟩
      exact absurd below fits

/-- A callee that returns the public inputs is honoured. -/
theorem honoursAnswer_inputs :
    HonoursAnswer 1
      (fun _ _ _ => .ok (serializeOption (some [1, 1, 1, 1, 0, 0])))
      ⟨⟨1, 2⟩, ⟨1, 1, 1, 1⟩, ⟨1, 2⟩⟩ [1, 1, 1, 1, 0, 0] := by
  apply (honoursAnswer_iff 1 _ ⟨⟨1, 2⟩, ⟨1, 1, 1, 1⟩, ⟨1, 2⟩⟩
    [1, 1, 1, 1, 0, 0] (by decide)).mpr
  refine ⟨by decide, ?_⟩
  rintro returnData ⟨classHash, _, returned⟩
  exact (Except.ok.inj returned).symm

/-- A callee that reports an invalid proof by `None` is taken to accept it. -/
theorem none_is_accepted :
    verifyGroth16External 1 (fun _ _ _ => .ok (serializeOption none))
          ⟨⟨1, 2⟩, ⟨1, 1, 1, 1⟩, ⟨1, 2⟩⟩ [1, 1, 1, 1, 0, 0] =
        .ok true ∧
      ¬ HonoursAnswer 1 (fun _ _ _ => .ok (serializeOption none))
        ⟨⟨1, 2⟩, ⟨1, 1, 1, 1⟩, ⟨1, 2⟩⟩ [1, 1, 1, 1, 0, 0] := by
  have accepted :
      verifyGroth16External 1 (fun _ _ _ => .ok (serializeOption none))
          ⟨⟨1, 2⟩, ⟨1, 1, 1, 1⟩, ⟨1, 2⟩⟩ [1, 1, 1, 1, 0, 0] =
        .ok true := by
    rfl
  refine ⟨accepted, ?_⟩
  rintro ⟨verdict, answered, honours⟩
  rw [accepted] at answered
  obtain ⟨classHash, _, returned⟩ := honours.mp (Except.ok.inj answered).symm
  have lengths := congrArg List.length (Except.ok.inj returned)
  revert lengths
  decide

end Answers

end ExternalVerifier

end StarkCash.Cairo
