import StarkCash.Framing
import StarkCash.RustMerkleTree
import StarkCash.RustPoseidon

namespace StarkCash.Rust

/-!
# Proofs in Rust

Embedding of `src/module/cryptography/proof.rs`.  A byte vector is a list; the
width of `usize` and what overflow does are those of a `Target`, and
`Proof.fromBytes` is that of 64 bits with overflow checks.  A computation that
can both panic and return a `ProofError` keeps the two apart: the panic is the
outer failure.
-/

/-- Errors of proof generation and of decoding (`ProofError`). -/
inductive ProofError where
  | invalidWitness (message : String)
  | invalidPublicInputs (message : String)
  | serializationError (message : String)
  deriving DecidableEq

/-- Witness data for proof generation (`Witness`). -/
structure Witness where
  secret : Bytes32
  nullifier : Bytes32
  pathElements : List Bytes32
  pathIndices : List UInt8

/-- Public inputs for proof verification (`PublicInputs`). -/
structure PublicInputs where
  root : Bytes32
  nullifierHash : Bytes32
  recipient : Bytes32
  relayer : Option Bytes32
  fee : UInt64
  refund : UInt64
  deriving DecidableEq

/-- The three points of a proof (`Proof`). -/
structure Proof where
  a : List UInt8
  b : List UInt8
  c : List UInt8
  deriving DecidableEq

/-- A computation that may panic or return a `ProofError`. -/
abbrev Fallible (Result : Type) : Type :=
  ExceptT ProofError (Except Panic) Result

section Slices

/-- `bytes[index]`. -/
def indexAt (bytes : List UInt8) (index : ℕ) : Except Panic UInt8 :=
  match bytes[index]? with
  | some byte => .ok byte
  | none => .error ⟨"index out of bounds"⟩

/-- `bytes[start..stop].to_vec()`. -/
def slice
    (bytes : List UInt8)
    (start stop : ℕ) : Except Panic (List UInt8) :=
  if start ≤ stop ∧ stop ≤ bytes.length then
    .ok ((bytes.drop start).take (stop - start))
  else
    .error ⟨"slice index out of range"⟩

end Slices

namespace Proof

/-- No component is empty (`is_valid`). -/
def isValid (proof : Proof) : Bool :=
  !proof.a.isEmpty && !proof.b.isEmpty && !proof.c.isEmpty

/-- `(component.len() as u32).to_le_bytes()`, then the component. -/
def componentBytes (component : List UInt8) : List UInt8 :=
  Framing.littleEndian 4 component.length ++ component

/-- Serialize a proof (`to_bytes`). -/
def toBytes (proof : Proof) : List UInt8 :=
  componentBytes proof.a ++ componentBytes proof.b ++
    componentBytes proof.c

end Proof

section Targets

/-- The width of `usize` on a target. -/
inductive UsizeWidth where
  | bits32
  | bits64
  deriving DecidableEq

/-- The number of bits of that width. -/
def UsizeWidth.bits : UsizeWidth → ℕ
  | .bits32 => 32
  | .bits64 => 64

/-- A compilation target: the width of `usize`, and what overflow does. -/
structure Target where
  width : UsizeWidth
  overflowChecks : Bool
  deriving DecidableEq

/-- A byte slice on a target: at most `isize::MAX` bytes. -/
structure Target.Slice (target : Target) where
  bytes : List UInt8
  inMemory : bytes.length < 2 ^ (target.width.bits - 1)

variable (target : Target)

/-- Addition of `usize` values: panics or wraps, as the target is compiled. -/
def Target.addUsize (left right : ℕ) : Except Panic ℕ :=
  if left + right < 2 ^ target.width.bits then
    .ok (left + right)
  else if target.overflowChecks then
    .error ⟨"attempt to add with overflow"⟩
  else
    .ok ((left + right) % 2 ^ target.width.bits)

/-- `u32::from_le_bytes` of the four bytes from a position, as `usize`. -/
def Target.readU32 (bytes : List UInt8) (pos : ℕ) : Except Panic ℕ := do
  let byte0 ← indexAt bytes pos
  let byte1 ← indexAt bytes (← target.addUsize pos 1)
  let byte2 ← indexAt bytes (← target.addUsize pos 2)
  let byte3 ← indexAt bytes (← target.addUsize pos 3)
  return Framing.littleEndianValue [byte0, byte1, byte2, byte3]

/-- The sections that read one component and advance the position. -/
def Target.readComponent
    (bytes : List UInt8)
    (message : String)
    (pos : ℕ) : Fallible (List UInt8 × ℕ) := do
  let length ← target.readU32 bytes pos
  let pos ← target.addUsize pos 4
  let stop ← target.addUsize pos length
  if bytes.length < stop then
    throw (.serializationError message)
  else
    let component ← slice bytes pos stop
    return (component, stop)

/-- The checks that a length is present (`pos + 4 > bytes.len()`). -/
def Target.requireLength
    (bytes : List UInt8)
    (message : String)
    (pos : ℕ) : Fallible Unit := do
  let stop ← target.addUsize pos 4
  if bytes.length < stop then
    throw (.serializationError message)

/-- Deserialize a proof on a target (`from_bytes`). -/
def Target.fromBytes (bytes : List UInt8) : Fallible Proof := do
  if bytes.length < 12 then
    throw (.serializationError "Insufficient bytes for proof")
  else
    let (a, pos) ← target.readComponent bytes "Invalid a length" 0
    target.requireLength bytes "Missing b length" pos
    let (b, pos) ← target.readComponent bytes "Invalid b length" pos
    target.requireLength bytes "Missing c length" pos
    let (c, _) ← target.readComponent bytes "Invalid c length" pos
    return { a := a, b := b, c := c }

/-- The target of 64 bits with overflow checks. -/
def Target.checked64 : Target where
  width := .bits64
  overflowChecks := true

/-- Deserialize a proof on that target. -/
def Proof.fromBytes (bytes : List UInt8) : Fallible Proof :=
  Target.checked64.fromBytes bytes

end Targets

section Generation

variable (poseidon : List Fr → Fr)

/-- Validate witness data (`validate_witness`). -/
def validateWitness (witness : Witness) : Except ProofError Unit :=
  if witness.pathElements.length ≠ witness.pathIndices.length then
    .error (.invalidWitness
      "path_elements and path_indices must have same length")
  else if witness.pathElements.isEmpty then
    .error (.invalidWitness "path_elements cannot be empty")
  else if 32 < witness.pathElements.length then
    .error (.invalidWitness "path_elements too long (max 32 levels)")
  else
    .ok ()

/-- Validate public inputs (`validate_public_inputs`). -/
def validatePublicInputs
    (publicInputs : PublicInputs) : Except ProofError Unit :=
  if publicInputs.root = zeroBytes then
    .error (.invalidPublicInputs "root cannot be zero")
  else if publicInputs.nullifierHash = zeroBytes then
    .error (.invalidPublicInputs "nullifier_hash cannot be zero")
  else if publicInputs.recipient = zeroBytes then
    .error (.invalidPublicInputs "recipient cannot be zero")
  else
    .ok ()

/-- The deterministic development proof (`generate_test_proof`). -/
def generateTestProof
    (witness : Witness)
    (publicInputs : PublicInputs) : Proof :=
  let aHash := poseidonHash poseidon witness.secret publicInputs.root
  let bHash :=
    poseidonHash poseidon witness.nullifier publicInputs.nullifierHash
  let cHash := poseidonHash poseidon aHash bHash
  { a := aHash.toList
    b := bHash.toList
    c := cHash.toList }

/-- Generate a proof (`generate_proof`). -/
def generateProof
    (witness : Witness)
    (publicInputs : PublicInputs) : Except ProofError Proof := do
  validateWitness witness
  validatePublicInputs publicInputs
  return generateTestProof poseidon witness publicInputs

/-- Verify a proof (`verify_proof`). -/
def verifyProof (proof : Proof) (publicInputs : PublicInputs) : Bool :=
  if !proof.isValid then
    false
  else if (validatePublicInputs publicInputs).toBool then
    true
  else
    false

end Generation

end StarkCash.Rust
