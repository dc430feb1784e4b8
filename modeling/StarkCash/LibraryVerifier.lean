import StarkCash.PoolValidators

namespace StarkCash.Cairo

/-!
# The library verifier

Embedding of `contracts/src/groth16_verifier.cairo` and of the constants it
loads from `verifier_constants.cairo`.  Arithmetic on `u256` panics on
overflow.  Point addition and scalar multiplication are the placeholders of
the source, and the pairing check is missing there.
-/

/-- Multiplication of `u256` values. -/
def mulU256 (left right : U256) : Except Panic U256 :=
  if left.toNat * right.toNat < 2 ^ 256 then
    .ok (left * right)
  else
    .error ⟨"u256_mul Overflow"⟩

/-- Addition of `u256` values. -/
def addU256 (left right : U256) : Except Panic U256 :=
  if left.toNat + right.toNat < 2 ^ 256 then
    .ok (left + right)
  else
    .error ⟨"u256_add Overflow"⟩

namespace LibraryVerifier

/-- Verification key (`VerificationKey`). -/
structure VerificationKey where
  alpha : G1Point
  beta : G2Point
  gamma : G2Point
  delta : G2Point
  ic : List G1Point

section Constants

/-- Number of public inputs (`N_PUBLIC_INPUTS`). -/
def nPublicInputs : ℕ := 6

/-- Points of the public input combination (`get_ic_points`). -/
def getIcPoints : List G1Point :=
  [{ x := 21803256708793184875915394099088435322996943370739436017959331997775036765951#256
     y := 13647890256252499749812228062672553318846411051181216722727008301643553437494#256 },
    { x := 2009934341112793095764594823491986239856509637518659516635558628307350063775#256
      y := 12149379174212154032583232597209041268638364834489306241546503607512082163945#256 },
    { x := 7179781757762587689133114594632184076769766905515655032206962666934287132958#256
      y := 15820187703529410892666503811404730865086339520114299358720918594137507724417#256 },
    { x := 6183200594619529372088993853048223001612655938100189116029513939296624736373#256
      y := 20721233541169543282179943263309945900523956509348453742772756176788776026231#256 },
    { x := 9558022545254198238792872316387236723943288530294155395116127577825025083130#256
      y := 9740150083809343577254841444839505644006033416279496134006206849978212156914#256 },
    { x := 11905915001598690402834243232715223195472871260791679305716661031329846759884#256
      y := 3738015848405418656109433637740768083627747197425855794776842797333948336479#256 },
    { x := 4903395639294173023547076095439653634282702843114330336704477514533709395706#256
      y := 18375995408670108040464510900903549735386626441775179533051472821374733814367#256 }]

/-- First point of the key (`get_vk_alpha`). -/
def getVkAlpha : G1Point where
  x := 9873223873726350425022909227236943185941635882882137898945085329692507246347#256
  y := 14400989089508411354579567501966667992652098469551231400372250190680615121165#256

/-- Second point of the key (`get_vk_beta`). -/
def getVkBeta : G2Point where
  x0 := 1818920428496212928558199576772610302811223138999431319266746789121731967407#256
  x1 := 21363530611459668362679584310412721801429066456716667648850738477987495694383#256
  y0 := 18973012550465269410208430357471440546402095227488389000479316731281709866366#256
  y1 := 3528268463689480237668154096173739673318331497633732643275067802032356569982#256

/-- Third point of the key (`get_vk_gamma`). -/
def getVkGamma : G2Point where
  x0 := 10857046999023057135944570762232829481370756359578518086990519993285655852781#256
  x1 := 11559732032986387107991004021392285783925812861821192530917403151452391805634#256
  y0 := 8495653923123431417604973247489272438418190587263600148770280649306958101930#256
  y1 := 4082367875863433681332203403145435568316851327593401208105741076214120093531#256

/-- Fourth point of the key (`get_vk_delta`). -/
def getVkDelta : G2Point where
  x0 := 8923608123576019303335884652815462187007124683193881042161937295119478014662#256
  x1 := 8480170951904186236052675190628217420638888672263478777584565650679406832869#256
  y0 := 262437838918265155876247947200813488383447216507494260715771249400038828145#256
  y1 := 6476174677430425468986501894367810544154415552605481207693288369550817342214#256

/-- The key of the trusted setup (`get_verification_key`). -/
def getVerificationKey : VerificationKey where
  alpha := getVkAlpha
  beta := getVkBeta
  gamma := getVkGamma
  delta := getVkDelta
  ic := getIcPoints

end Constants

section Points

/-- Check the curve equation of a first-group point (`validate_g1_point`). -/
def validateG1Point (point : G1Point) : Except Panic Bool :=
  if point.x = 0 ∧ point.y = 0 then
    .ok false
  else if bn254PrimeWord ≤ point.x ∨ bn254PrimeWord ≤ point.y then
    .ok false
  else do
    let ySquared := (← mulU256 point.y point.y) % bn254PrimeWord
    let xCubed :=
      (← mulU256 (← mulU256 point.x point.x) point.x) % bn254PrimeWord
    let rhs := (← addU256 xCubed 3) % bn254PrimeWord
    return decide (ySquared = rhs)

/-- Check the coordinates of a second-group point (`validate_g2_point`). -/
def validateG2Point (point : G2Point) : Bool :=
  if point.x0 = 0 ∧ point.x1 = 0 ∧ point.y0 = 0 ∧ point.y1 = 0 then
    false
  else if bn254PrimeWord ≤ point.x0 ∨ bn254PrimeWord ≤ point.x1 then
    false
  else if bn254PrimeWord ≤ point.y0 ∨ bn254PrimeWord ≤ point.y1 then
    false
  else
    true

/-- Placeholder of point addition (`ec_add_simple`). -/
def ecAddSimple (p1 p2 : G1Point) : G1Point :=
  if p1.x = 0 ∧ p1.y = 0 then
    p2
  else if p2.x = 0 ∧ p2.y = 0 then
    p1
  else
    p1

/-- Placeholder of scalar multiplication (`ec_mul_simple`). -/
def ecMulSimple (point : G1Point) (_scalar : U256) : G1Point :=
  point

/-- The combination of the public inputs (`compute_vk_x`). -/
def computeVkX
    (ic : List G1Point)
    (publicInputs : List U256) : Except Panic G1Point := do
  let base ← arrayAt ic 0
  (List.range nPublicInputs).foldlM
    (fun vkX i => do
      let publicInput ← arrayAt publicInputs i
      let icPoint ← arrayAt ic (i + 1)
      return ecAddSimple vkX (ecMulSimple icPoint publicInput))
    base

end Points

section Verification

/-- Validate the points of a proof (`validate_proof`). -/
def validateProof (proof : Groth16Proof) : Except Panic Bool := do
  if !(← validateG1Point proof.a) then
    return false
  else if !validateG2Point proof.b then
    return false
  else if !(← validateG1Point proof.c) then
    return false
  else
    return true

/-- Validate the arguments, as the pool does (`validate_public_inputs`). -/
def validatePublicInputs
    (root nullifierHash : U256)
    (recipient relayer : ContractAddress)
    (fee refund : U256) : Bool :=
  Cairo.validatePublicInputs root nullifierHash recipient relayer fee refund

/-- Verify a proof without the pairing check (`verify_groth16_proof`). -/
def verifyGroth16Proof
    (proof : Groth16Proof)
    (root nullifierHash : U256)
    (recipient relayer : ContractAddress)
    (fee refund : U256) : Except Panic Bool := do
  if !(← validateProof proof) then
    return false
  else if
      !validatePublicInputs root nullifierHash recipient relayer fee
        refund then
    return false
  else
    let vk := getVerificationKey
    let publicInputs :=
      [root, nullifierHash, U256.ofAddress recipient,
        U256.ofAddress relayer, fee, refund]
    let _vkX ← computeVkX vk.ic publicInputs
    if proof.a.x = 0 ∧ proof.a.y = 1 then
      return false
    else if proof.c.x = 0 ∧ proof.c.y = 1 then
      return false
    else
      return true

end Verification

end LibraryVerifier

end StarkCash.Cairo
