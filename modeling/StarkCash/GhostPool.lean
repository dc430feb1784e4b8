import StarkCash.CairoMerkleTree

namespace StarkCash.Cairo

/-!
# The pool contract

Embedding of `contracts/src/ghost_pool.cairo`.  A call runs in `EStateM` over
the pool's storage and events, the state of the token, and a ghost list of the
calls that completed.  The token contract is the parameter `external`: what
happens when the pool calls `transfer` or `transfer_from`, which may change the
state in any way that code allows.  The proof check is the parameter
`verdict`, of which `structuralVerdict` is the one in the source.
-/

/-- Point of the first group (`G1Point`). -/
structure G1Point where
  x : U256
  y : U256

/-- Point of the second group (`G2Point`). -/
structure G2Point where
  x0 : U256
  x1 : U256
  y0 : U256
  y1 : U256

/-- Proof of the pairing check (`Groth16Proof`). -/
structure Groth16Proof where
  a : G1Point
  b : G2Point
  c : G1Point

/-- A call of the token interface (`IERC20`). -/
inductive IERC20Call where
  | transfer
      (recipient : ContractAddress)
      (amount : U256)
  | transferFrom
      (sender recipient : ContractAddress)
      (amount : U256)

/-- Storage of the pool (`Storage`). -/
structure Storage where
  token : ContractAddress
  denomination : U256
  nullifiers : U256 → Bool
  contractVersion : Felt252
  merkleTree : TreeStorage

/-- Events of the pool (`Event`). -/
inductive Event where
  | deposit
      (commitment : U256)
      (leafIndex timestamp : ℕ)
  | withdraw
      (recipient : ContractAddress)
      (nullifierHash : U256)
      (relayer : ContractAddress)
      (fee : U256)
  | merkleTreeEvent
      (event : LeafInserted)
  deriving DecidableEq

/-- Arguments of `withdraw`. -/
structure WithdrawCall (Proof : Type) where
  proof : Proof
  root : U256
  nullifierHash : U256
  recipient : ContractAddress
  relayer : ContractAddress
  fee : U256
  refund : U256

/-- Arguments of `deposit`, with the caller and the block's timestamp. -/
structure DepositCall where
  caller : ContractAddress
  blockTimestamp : ℕ
  commitment : U256

/-- A call of the interface (`IGhostPool`). -/
inductive Entry (Proof : Type) where
  | deposit
      (call : DepositCall)
  | withdraw
      (call : WithdrawCall Proof)

/-- The pool, its events, the token's state and the completed calls. -/
structure World (Proof Token : Type) where
  pool : Storage
  events : List Event
  token : Token
  receipts : List (Entry Proof)

/-- A computation of the pool contract. -/
abbrev Contract (Proof Token Result : Type) : Type :=
  EStateM Panic (World Proof Token) Result

/-- What happens when the pool calls the token at an address. -/
abbrev External (Proof Token : Type) : Type :=
  ContractAddress → IERC20Call → Contract Proof Token Bool

/-- `VERSION`, the short string `v1.0.0`. -/
def version : Felt252 :=
  ⟨0x76312e302e30, by decide⟩

/-- `BN254_PRIME`. -/
def bn254PrimeWord : U256 :=
  0x30644e72e131a029b85045b68181585d2833e84879b9709143e1f593f0000001#256

/-- `GROTH16_VERIFIER_CLASS_HASH`. -/
def groth16VerifierClassHash : Felt252 :=
  0

/-- Storage after deployment (`constructor`). -/
def Storage.deployed
    (hash : U256 → U256 → U256)
    (tokenAddress : ContractAddress)
    (denomination : U256) : Storage where
  token := tokenAddress
  denomination := denomination
  nullifiers := fun _ => false
  contractVersion := version
  merkleTree := TreeStorage.empty.initializeTree hash

/-- Subtraction of `u32` values. -/
def subU32 (left right : ℕ) : Except Panic ℕ :=
  if right ≤ left then
    .ok (left - right)
  else
    .error ⟨"u32_sub Overflow"⟩

/-- Subtraction of `u256` values. -/
def subU256 (left right : U256) : Except Panic U256 :=
  if right ≤ left then
    .ok (left - right)
  else
    .error ⟨"u256_sub Overflow"⟩

/-- `*array.at(index)`. -/
def arrayAt
    {Element : Type}
    (array : List Element)
    (index : ℕ) : Except Panic Element :=
  match array[index]? with
  | some element => .ok element
  | none => .error ⟨"Index out of bounds"⟩

/-- The structural check of a proof (`verify_proof_internal`). -/
def verifyProofInternal
    (proof : Groth16Proof)
    (publicInputs : List U256)
    (_verifierClassHash : Felt252) : Except Panic Bool :=
  if bn254PrimeWord ≤ proof.a.x ∨ bn254PrimeWord ≤ proof.a.y then
    .ok false
  else if bn254PrimeWord ≤ proof.c.x ∨ bn254PrimeWord ≤ proof.c.y then
    .ok false
  else if bn254PrimeWord ≤ proof.b.x0 ∨ bn254PrimeWord ≤ proof.b.x1 then
    .ok false
  else if bn254PrimeWord ≤ proof.b.y0 ∨ bn254PrimeWord ≤ proof.b.y1 then
    .ok false
  else if proof.a.x = 0 ∧ proof.a.y = 1 then
    .ok false
  else if proof.c.x = 0 ∧ proof.c.y = 1 then
    .ok false
  else if publicInputs.length ≠ 6 then
    .ok false
  else do
    let root ← arrayAt publicInputs 0
    let nullifierHash ← arrayAt publicInputs 1
    if root = 0 ∨ nullifierHash = 0 then
      return false
    else
      return true

namespace WithdrawCall

variable {Proof : Type}

/-- The array `public_inputs`. -/
def publicInputs (call : WithdrawCall Proof) : List U256 :=
  [call.root, call.nullifierHash, U256.ofAddress call.recipient,
    U256.ofAddress call.relayer, call.fee, call.refund]

end WithdrawCall

/--
Whether the proof check of the source answers yes.  It never panics
(`verifyProofInternal_eq`).
-/
def structuralVerdict
    (proof : Groth16Proof)
    (publicInputs : List U256) : Bool :=
  match verifyProofInternal proof publicInputs groth16VerifierClassHash with
  | .ok isValid => isValid
  | .error _ => false

namespace World

variable {Proof Token : Type}

/-- Replace the token's state. -/
def setToken
    (token : Token)
    (world : World Proof Token) : World Proof Token :=
  { world with token := token }

/-- Append an event (`emit`). -/
def emit
    (event : Event)
    (world : World Proof Token) : World Proof Token :=
  { world with events := world.events ++ [event] }

/-- Mark a nullifier hash as spent. -/
def markSpent
    (nullifierHash : U256)
    (world : World Proof Token) : World Proof Token :=
  { world with
    pool :=
      { world.pool with
        nullifiers :=
          Function.update world.pool.nullifiers nullifierHash true } }

/-- Record a completed call in the ghost list. -/
def record
    (entry : Entry Proof)
    (world : World Proof Token) : World Proof Token :=
  { world with receipts := world.receipts ++ [entry] }

/-- Replace the component's storage and append its events. -/
def withTree
    (state : ComponentState)
    (world : World Proof Token) : World Proof Token :=
  { world with
    pool := { world.pool with merkleTree := state.storage }
    events := world.events ++ state.emitted.map .merkleTreeEvent }

end World

section Contract

variable {Proof Token : Type}

/-- Run a computation of the Merkle tree component inside the pool. -/
def onMerkleTree
    {Result : Type}
    (body : EStateM Panic ComponentState Result) :
    Contract Proof Token Result :=
  fun world =>
    match body { storage := world.pool.merkleTree, emitted := [] } with
    | .ok result state => .ok result (world.withTree state)
    | .error panic state => .error panic (world.withTree state)

variable
    (hash : U256 → U256 → U256)
    (verdict : Proof → List U256 → Bool)
    (self : ContractAddress)
    (external : External Proof Token)

/-- Take the denomination from the caller and insert its leaf (`deposit`). -/
def deposit (call : DepositCall) : Contract Proof Token Unit := do
  let amount := (← get).pool.denomination
  let _answer ←
    external (← get).pool.token (.transferFrom call.caller self amount)
  let _root ← onMerkleTree (TreeStorage.insert hash call.commitment)
  let leafIndex ←
    Imperative.liftExcept (subU32 (← get).pool.merkleTree.nextIndex 1)
  modify (World.emit
    (.deposit call.commitment leafIndex call.blockTimestamp))

/-- Check the proof against the public inputs (`verify_zk_proof`). -/
def verifyZkProof (call : WithdrawCall Proof) : Contract Proof Token Unit :=
  Imperative.require (verdict call.proof call.publicInputs)
    ⟨"Invalid ZK proof"⟩

/-- `if fee > 0 { self.token.read().transfer(relayer, fee); }`. -/
def payRelayer (call : WithdrawCall Proof) : Contract Proof Token Unit :=
  if 0 < call.fee then do
    let _answer ←
      external (← get).pool.token (.transfer call.relayer call.fee)
  else
    pure ()

/-- Check, mark the nullifier and pay out (`withdraw`). -/
def withdraw (call : WithdrawCall Proof) : Contract Proof Token Unit := do
  Imperative.require (!(← get).pool.nullifiers call.nullifierHash)
    ⟨"Nullifier already spent"⟩
  Imperative.require ((← get).pool.merkleTree.isKnownRoot call.root)
    ⟨"Unknown Merkle root"⟩
  verifyZkProof verdict call
  modify (World.markSpent call.nullifierHash)
  let amount := (← get).pool.denomination
  Imperative.require (call.fee < amount) ⟨"Fee exceeds denomination"⟩
  let payout ← Imperative.liftExcept (subU256 amount call.fee)
  let _answer ←
    external (← get).pool.token (.transfer call.recipient payout)
  payRelayer external call
  modify (World.emit
    (.withdraw call.recipient call.nullifierHash call.relayer call.fee))

/-- Run a call and record it when it completes. -/
def enter (entry : Entry Proof) : Contract Proof Token Unit := do
  match entry with
  | .deposit call => deposit hash self external call
  | .withdraw call => withdraw verdict external call
  modify (World.record entry)

end Contract

end StarkCash.Cairo
