import StarkCash.ExternalVerifier

namespace StarkCash.Garaga

/-!
# The calldata of the external verifier

Embedding of what the deployed verifier does to its calldata before it checks
anything: the arguments of `verify_groth16_proof_bn254` are one span behind its
length, and `deserialize_full_proof_with_hints_bn254` reads from it the proof
in limbs of 96 bits, the public inputs and the hints of the pairing check.  The
calldata of the external verifier is too short for any of it.
-/

open Cairo

section Values

/-- `u96`, the limb of the wide integers. -/
abbrev U96 : Type :=
  BitVec 96

/-- Integer of four limbs (`u384`). -/
structure U384 where
  limb0 : U96
  limb1 : U96
  limb2 : U96
  limb3 : U96

/-- The number of a `u384`. -/
def U384.toNat (integer : U384) : ℕ :=
  integer.limb0.toNat + 2 ^ 96 * integer.limb1.toNat +
    2 ^ 192 * integer.limb2.toNat + 2 ^ 288 * integer.limb3.toNat

/-- Integer of three limbs (`u288`). -/
structure U288 where
  limb0 : U96
  limb1 : U96
  limb2 : U96

/-- Point of the first group (`G1Point`). -/
structure G1Point where
  x : U384
  y : U384

/-- Point of the second group (`G2Point`). -/
structure G2Point where
  x0 : U384
  x1 : U384
  y0 : U384
  y1 : U384

/-- The points of a proof (`Groth16ProofRaw`). -/
structure Groth16ProofRaw where
  a : G1Point
  b : G2Point
  c : G1Point

/-- A proof with its public inputs (`Groth16Proof`). -/
structure Groth16Proof where
  raw : Groth16ProofRaw
  publicInputs : List U256

/-- Element of the extension of degree twelve (`E12D<u288>`). -/
structure E12D where
  w0 : U288
  w1 : U288
  w2 : U288
  w3 : U288
  w4 : U288
  w5 : U288
  w6 : U288
  w7 : U288
  w8 : U288
  w9 : U288
  w10 : U288
  w11 : U288

/-- Scaling factor of the Miller loop (`MillerLoopResultScalingFactor<u288>`). -/
structure MillerLoopResultScalingFactor where
  w0 : U288
  w2 : U288
  w4 : U288
  w6 : U288
  w8 : U288
  w10 : U288

/-- Hints of the pairing check (`MPCheckHintBN254`). -/
structure MPCheckHintBN254 where
  lambdaRoot : E12D
  lambdaRootInverse : E12D
  w : MillerLoopResultScalingFactor
  ris : List E12D
  bigQ : List U288
  z : Felt252

/-- A proof with all its hints (`FullProofWithHintsBN254`). -/
structure FullProofWithHintsBN254 where
  groth16Proof : Groth16Proof
  mpcheckHint : MPCheckHintBN254
  msmHint : List Felt252

end Values

section Reading

/-- `option.unwrap()`. -/
def unwrap
    {Value : Type}
    (option : Option Value) : Except Panic Value :=
  match option with
  | some value => .ok value
  | none => .error ⟨"Option::unwrap failed."⟩

/-- `serialized.pop_front()`. -/
def popFront : List Felt252 → Option (Felt252 × List Felt252)
  | [] => none
  | felt :: rest => some (felt, rest)

/-- `serialized.multi_pop_front::<size>()`. -/
def multiPopFront
    (size : ℕ)
    (serialized : List Felt252) :
    Option ((Fin size → Felt252) × List Felt252) :=
  if serialized.length < size then
    none
  else
    some (fun index => serialized.getD index 0, serialized.drop size)

/-- `serialized.slice(start, length)`. -/
def slice
    (start length : ℕ)
    (serialized : List Felt252) : Except Panic (List Felt252) :=
  if serialized.length < start + length then
    .error ⟨"Index out of bounds"⟩
  else
    .ok ((serialized.drop start).take length)

/-- Conversion of a felt to a word of a width, `None` beyond it. -/
def tryInto
    (width : ℕ)
    (felt : Felt252) : Option (BitVec width) :=
  if felt.val < 2 ^ width then
    some (BitVec.ofNat width felt.val)
  else
    none

/-- Three limbs (`downcast_u288`). -/
def downcastU288 (l0 l1 l2 : Felt252) : Except Panic U288 := do
  return {
    limb0 := ← unwrap (tryInto 96 l0)
    limb1 := ← unwrap (tryInto 96 l1)
    limb2 := ← unwrap (tryInto 96 l2) }

/-- Four limbs (`downcast_u384`). -/
def downcastU384 (l0 l1 l2 l3 : Felt252) : Except Panic U384 := do
  return {
    limb0 := ← unwrap (tryInto 96 l0)
    limb1 := ← unwrap (tryInto 96 l1)
    limb2 := ← unwrap (tryInto 96 l2)
    limb3 := ← unwrap (tryInto 96 l3) }

/-- The points of a proof (`_deserialize_groth16_proof_points`). -/
def deserializeGroth16ProofPoints
    (serialized : List Felt252) :
    Except Panic (Groth16ProofRaw × List Felt252) := do
  let (l, serialized) ← unwrap (multiPopFront 32 serialized)
  let a : G1Point := {
    x := ← downcastU384 (l 0) (l 1) (l 2) (l 3)
    y := ← downcastU384 (l 4) (l 5) (l 6) (l 7) }
  let b : G2Point := {
    x0 := ← downcastU384 (l 8) (l 9) (l 10) (l 11)
    x1 := ← downcastU384 (l 12) (l 13) (l 14) (l 15)
    y0 := ← downcastU384 (l 16) (l 17) (l 18) (l 19)
    y1 := ← downcastU384 (l 20) (l 21) (l 22) (l 23) }
  let c : G1Point := {
    x := ← downcastU384 (l 24) (l 25) (l 26) (l 27)
    y := ← downcastU384 (l 28) (l 29) (l 30) (l 31) }
  return ({ a := a, b := b, c := c }, serialized)

/-- An extension element from its 36 limbs. -/
def downcastE12D (l : Fin 36 → Felt252) : Except Panic E12D := do
  return {
    w0 := ← downcastU288 (l 0) (l 1) (l 2)
    w1 := ← downcastU288 (l 3) (l 4) (l 5)
    w2 := ← downcastU288 (l 6) (l 7) (l 8)
    w3 := ← downcastU288 (l 9) (l 10) (l 11)
    w4 := ← downcastU288 (l 12) (l 13) (l 14)
    w5 := ← downcastU288 (l 15) (l 16) (l 17)
    w6 := ← downcastU288 (l 18) (l 19) (l 20)
    w7 := ← downcastU288 (l 21) (l 22) (l 23)
    w8 := ← downcastU288 (l 24) (l 25) (l 26)
    w9 := ← downcastU288 (l 27) (l 28) (l 29)
    w10 := ← downcastU288 (l 30) (l 31) (l 32)
    w11 := ← downcastU288 (l 33) (l 34) (l 35) }

/-- An extension element from the front (`_deserialize_E12D_u288`). -/
def deserializeE12D
    (serialized : List Felt252) : Except Panic (E12D × List Felt252) := do
  let (l, serialized) ← unwrap (multiPopFront 36 serialized)
  return (← downcastE12D l, serialized)

/-- The loop that takes values from a slice while it is long enough. -/
def popWhile
    {Value : Type}
    (size : ℕ)
    (read : (Fin size → Felt252) → Except Panic Value) :
    ℕ → List Felt252 → Except Panic (List Value)
  | 0, _ => .ok []
  | fuel + 1, remaining =>
      match multiPopFront size remaining with
      | none => .ok []
      | some (limbs, remaining) => do
          let value ← read limbs
          return value :: (← popWhile size read fuel remaining)

/-- The hints of the pairing check (`_deserialize_mpcheck_hint_bn254`). -/
def deserializeMpcheckHintBn254
    (serialized : List Felt252) :
    Except Panic (MPCheckHintBN254 × List Felt252) := do
  let (lambdaRoot, serialized) ← deserializeE12D serialized
  let (lambdaRootInverse, serialized) ← deserializeE12D serialized
  let (l, serialized) ← unwrap (multiPopFront 18 serialized)
  let w : MillerLoopResultScalingFactor := {
    w0 := ← downcastU288 (l 0) (l 1) (l 2)
    w2 := ← downcastU288 (l 3) (l 4) (l 5)
    w4 := ← downcastU288 (l 6) (l 7) (l 8)
    w6 := ← downcastU288 (l 9) (l 10) (l 11)
    w8 := ← downcastU288 (l 12) (l 13) (l 14)
    w10 := ← downcastU288 (l 15) (l 16) (l 17) }
  let risSlice ← slice 1 1224 serialized
  let risEnd ← subU32 (← subU32 serialized.length 1224) 1
  let serialized ← slice 1225 risEnd serialized
  let ris ← popWhile 36 downcastE12D risSlice.length risSlice
  let bigQSlice ← slice 1 (190 * 3) serialized
  let bigQEnd ← subU32 (← subU32 serialized.length (190 * 3)) 1
  let serialized ← slice (190 * 3 + 1) bigQEnd serialized
  let bigQ ←
    popWhile 3 (fun l => downcastU288 (l 0) (l 1) (l 2)) bigQSlice.length
      bigQSlice
  let (z, serialized) ← unwrap (popFront serialized)
  return (
    { lambdaRoot := lambdaRoot
      lambdaRootInverse := lambdaRootInverse
      w := w
      ris := ris
      bigQ := bigQ
      z := z },
    serialized)

/-- The loop that reads the public inputs. -/
def readPublicInputs :
    ℕ → List Felt252 → Except Panic (List U256 × List Felt252)
  | 0, serialized => .ok ([], serialized)
  | remaining + 1, serialized => do
      let (lowFelt, serialized) ← unwrap (popFront serialized)
      let low ← unwrap (tryInto 128 lowFelt)
      let (highFelt, serialized) ← unwrap (popFront serialized)
      let high ← unwrap (tryInto 128 highFelt)
      let (publicInputs, serialized) ←
        readPublicInputs remaining serialized
      let input : U256 :=
        BitVec.ofNat 256 (low.toNat + 2 ^ 128 * high.toNat)
      return (input :: publicInputs, serialized)

/-- Proof and hints (`deserialize_full_proof_with_hints_bn254`). -/
def deserializeFullProofWithHintsBn254
    (serialized : List Felt252) :
    Except Panic FullProofWithHintsBN254 := do
  let (groth16ProofRaw, serialized) ←
    deserializeGroth16ProofPoints serialized
  let (countFelt, serialized) ← unwrap (popFront serialized)
  let nPublicInputs ← unwrap (tryInto 32 countFelt)
  let (publicInputs, serialized) ←
    readPublicInputs nPublicInputs.toNat serialized
  let (mpcheckHint, serialized) ← deserializeMpcheckHintBn254 serialized
  return {
    groth16Proof := { raw := groth16ProofRaw, publicInputs := publicInputs }
    mpcheckHint := mpcheckHint
    msmHint := serialized }

/-- A `Span<felt252>` behind its length. -/
def deserializeSpan :
    List Felt252 → Option (List Felt252 × List Felt252)
  | [] => none
  | length :: rest =>
      if rest.length < length.val then
        none
      else
        some (rest.take length.val, rest.drop length.val)

/-- The arguments of `verify_groth16_proof_bn254`: one span and nothing else. -/
def decodeArguments
    (calldata : List Felt252) : Except Panic (List Felt252) :=
  match deserializeSpan calldata with
  | none => .error ⟨"Failed to deserialize param #1"⟩
  | some (fullProofWithHints, []) => .ok fullProofWithHints
  | some (_, _ :: _) => .error ⟨"Input too long for arguments"⟩

/-- What the callee reads from its calldata. -/
def decodeCalldata
    (calldata : List Felt252) : Except Panic FullProofWithHintsBN254 := do
  let fullProofWithHints ← decodeArguments calldata
  deserializeFullProofWithHintsBn254 fullProofWithHints

end Reading

section Refusal

/-- A span is shorter than the list it is read from. -/
theorem deserializeSpan_shorter
    {calldata span rest : List Felt252}
    (read : deserializeSpan calldata = some (span, rest)) :
    span.length < calldata.length := by
  cases calldata with
  | nil =>
      cases read
  | cons length behind =>
      by_cases short : behind.length < length.val
      · simp only [deserializeSpan, if_pos short] at read
        cases read
      · simp only [deserializeSpan, if_neg short, Option.some.injEq,
          Prod.mk.injEq] at read
        rw [← read.1, List.length_cons]
        exact Nat.lt_succ_of_le (List.length_take_le' _ _)

/-- The arguments are shorter than the calldata they are read from. -/
theorem decodeArguments_shorter
    {calldata fullProofWithHints : List Felt252}
    (decoded : decodeArguments calldata = .ok fullProofWithHints) :
    fullProofWithHints.length < calldata.length := by
  unfold decodeArguments at decoded
  split at decoded
  · cases decoded
  · rename_i span read
    obtain rfl := Except.ok.inj decoded
    exact deserializeSpan_shorter read
  · cases decoded

/-- Fewer than 32 limbs are no proof. -/
theorem deserializeFullProof_of_short
    {serialized : List Felt252}
    (short : serialized.length < 32) :
    deserializeFullProofWithHintsBn254 serialized =
      .error ⟨"Option::unwrap failed."⟩ := by
  have refused : multiPopFront 32 serialized = none :=
    if_pos short
  unfold deserializeFullProofWithHintsBn254 deserializeGroth16ProofPoints
  rw [refused]
  rfl

/-- Calldata of at most 32 felts is not decoded. -/
theorem decodeCalldata_of_short
    {calldata : List Felt252}
    (short : calldata.length ≤ 32) :
    ∃ panic, decodeCalldata calldata = .error panic := by
  unfold decodeCalldata
  cases decoded : decodeArguments calldata with
  | error panic =>
      exact ⟨panic, rfl⟩
  | ok fullProofWithHints =>
      refine ⟨_, deserializeFullProof_of_short ?_⟩
      exact (decodeArguments_shorter decoded).trans_le short

/-- The calldata has four felts for each pair of coordinates and two an input. -/
theorem length_calldata
    (proof : Cairo.Groth16Proof)
    (publicInputs : List U256) :
    (ExternalVerifier.calldata proof publicInputs).length =
      16 + 2 * publicInputs.length := by
  have appended :
      ∀ calldata : List Felt252,
        (ExternalVerifier.serializePublicInputs publicInputs
            calldata).length =
          calldata.length + 2 * publicInputs.length := by
    induction publicInputs with
    | nil =>
        intro calldata
        rfl
    | cons input rest inductionHypothesis =>
        intro calldata
        simp only [ExternalVerifier.serializePublicInputs, List.foldl_cons]
          at inductionHypothesis ⊢
        rw [inductionHypothesis, List.length_append, List.length_cons]
        simp only [List.length_cons, List.length_nil]
        omega
  exact appended _

end Refusal

section Agreement

/-- The point decoded is the point encoded. -/
def G1Point.Encodes
    (decoded : G1Point)
    (point : Cairo.G1Point) : Prop :=
  decoded.x.toNat = point.x.toNat ∧ decoded.y.toNat = point.y.toNat

/-- The point of the second group decoded is the one encoded. -/
def G2Point.Encodes
    (decoded : G2Point)
    (point : Cairo.G2Point) : Prop :=
  decoded.x0.toNat = point.x0.toNat ∧ decoded.x1.toNat = point.x1.toNat ∧
    decoded.y0.toNat = point.y0.toNat ∧ decoded.y1.toNat = point.y1.toNat

/-- The callee reads the proof and the public inputs that were encoded. -/
def DecodesBack
    (proof : Cairo.Groth16Proof)
    (publicInputs : List U256) : Prop :=
  ∃ full,
    decodeCalldata (ExternalVerifier.calldata proof publicInputs) =
        .ok full ∧
      full.groth16Proof.raw.a.Encodes proof.a ∧
      full.groth16Proof.raw.b.Encodes proof.b ∧
      full.groth16Proof.raw.c.Encodes proof.c ∧
      full.groth16Proof.publicInputs = publicInputs

/-- The callee aborts on the calldata of every proof and six inputs. -/
theorem calldata_refused
    (proof : Cairo.Groth16Proof)
    (root nullifierHash recipient relayer fee refund : U256) :
    ∃ panic,
      decodeCalldata
          (ExternalVerifier.calldata proof
            [root, nullifierHash, recipient, relayer, fee, refund]) =
        .error panic := by
  apply decodeCalldata_of_short
  rw [length_calldata]
  show 16 + 2 * 6 ≤ 32
  decide

/-- No proof and six inputs are decoded back from their calldata. -/
theorem calldata_not_decoded_back
    (proof : Cairo.Groth16Proof)
    (root nullifierHash recipient relayer fee refund : U256) :
    ¬ DecodesBack proof
      [root, nullifierHash, recipient, relayer, fee, refund] := by
  rintro ⟨full, decoded, _⟩
  obtain ⟨panic, refused⟩ :=
    calldata_refused proof root nullifierHash recipient relayer fee refund
  rw [refused] at decoded
  cases decoded

/-- The first half of a coordinate is taken to be the length of the span. -/
theorem generator_calldata_refused :
    decodeCalldata
          (ExternalVerifier.calldata ⟨⟨1, 2⟩, ⟨1, 1, 1, 1⟩, ⟨1, 2⟩⟩
            [1, 1, 1, 1, 0, 0]) =
        .error ⟨"Input too long for arguments"⟩ ∧
      ¬ DecodesBack ⟨⟨1, 2⟩, ⟨1, 1, 1, 1⟩, ⟨1, 2⟩⟩ [1, 1, 1, 1, 0, 0] := by
  have refused :
      decodeCalldata
          (ExternalVerifier.calldata ⟨⟨1, 2⟩, ⟨1, 1, 1, 1⟩, ⟨1, 2⟩⟩
            [1, 1, 1, 1, 0, 0]) =
        .error ⟨"Input too long for arguments"⟩ := by
    rfl
  refine ⟨refused, ?_⟩
  rintro ⟨full, decoded, _⟩
  rw [refused] at decoded
  cases decoded

end Agreement

end StarkCash.Garaga
