import StarkCash.Words

namespace StarkCash.Rust

/-!
# Poseidon, commitments and nullifier hashes in Rust

Embedding of `src/module/cryptography/{poseidon,commitment,nullifier}.rs`.  The
permutation is a parameter: `poseidon inputs` stands for
`Poseidon::<Fr>::new_circom(n)` applied to `n` field elements, for the two
arities the code uses.
-/

variable (poseidon : List Fr → Fr)

/-- Poseidon hash for two inputs (`poseidon_hash`). -/
def poseidonHash (left right : Bytes32) : Bytes32 :=
  Bytes32.ofFr (poseidon [left.toFr, right.toFr])

/-- Poseidon hash for a single input (`poseidon_hash_single`). -/
def poseidonHashSingle (input : Bytes32) : Bytes32 :=
  Bytes32.ofFr (poseidon [input.toFr])

/-- A slice copied into a 32-byte array (`copy_from_slice`). -/
def copyFromSlice
    (slice : List UInt8)
    (message : String) : Except Panic Bytes32 :=
  if fits : slice.length = 32 then
    .ok ⟨slice.toArray, by simpa using fits⟩
  else
    .error ⟨message⟩

/-- Commitment of a secret and a nullifier (`generate_commitment`). -/
def generateCommitment
    (secret nullifier : List UInt8) : Except Panic Bytes32 := do
  let s ← copyFromSlice secret "Secret must be 32 bytes"
  let n ← copyFromSlice nullifier "Nullifier must be 32 bytes"
  return poseidonHash poseidon s n

/-- Hash of a nullifier (`generate_nullifier_hash`). -/
def generateNullifierHash
    (nullifier : List UInt8) : Except Panic Bytes32 := do
  let n ← copyFromSlice nullifier "Nullifier must be 32 bytes"
  return poseidonHashSingle poseidon n

/-- Copying the bytes of an array gives the array. -/
theorem copyFromSlice_toList
    (bytes : Bytes32)
    (message : String) :
    copyFromSlice bytes.toList message = .ok bytes := by
  have fits : bytes.toList.length = 32 := by
    simp
  simp only [copyFromSlice, fits, ↓reduceDIte, Except.ok.injEq]
  exact Vector.toList_inj.mp rfl

/-- On 32-byte inputs the commitment is the hash of both. -/
theorem generateCommitment_toList
    (secret nullifier : Bytes32) :
    generateCommitment poseidon secret.toList nullifier.toList =
      .ok (poseidonHash poseidon secret nullifier) := by
  unfold generateCommitment
  rw [copyFromSlice_toList, copyFromSlice_toList]
  rfl

/-- On a 32-byte nullifier the nullifier hash is its hash. -/
theorem generateNullifierHash_toList
    (nullifier : Bytes32) :
    generateNullifierHash poseidon nullifier.toList =
      .ok (poseidonHashSingle poseidon nullifier) := by
  unfold generateNullifierHash
  rw [copyFromSlice_toList]
  rfl

/-- As a field element the hash of two arrays is the hash of their values. -/
@[simp] theorem toFr_poseidonHash
    (left right : Bytes32) :
    (poseidonHash poseidon left right).toFr =
      poseidon [left.toFr, right.toFr] :=
  Bytes32.toFr_ofFr _

/-- As a field element the hash of an array is the hash of its value. -/
@[simp] theorem toFr_poseidonHashSingle
    (input : Bytes32) :
    (poseidonHashSingle poseidon input).toFr = poseidon [input.toFr] :=
  Bytes32.toFr_ofFr _

end StarkCash.Rust
