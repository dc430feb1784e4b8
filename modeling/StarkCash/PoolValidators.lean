import StarkCash.SpentOnce
import StarkCash.StructuralProofs

namespace StarkCash.Cairo

/-!
# The pool's own validators

`ghost_pool.cairo` declares `validate_proof` and `validate_public_inputs` and
calls neither.  What `withdraw` executes instead implies a part of them; the
rest is `MeetsOmittedGuards`, and over every run the completed withdrawals
respect the validators exactly as far as they meet it.
-/

section Validators

/-- Validate the points of a proof (`validate_proof`). -/
def validateProof (proof : Groth16Proof) : Bool :=
  if proof.a.x = 0 ∧ proof.a.y = 0 then
    false
  else if bn254PrimeWord ≤ proof.a.x ∨ bn254PrimeWord ≤ proof.a.y then
    false
  else if proof.c.x = 0 ∧ proof.c.y = 0 then
    false
  else if bn254PrimeWord ≤ proof.c.x ∨ bn254PrimeWord ≤ proof.c.y then
    false
  else if
      proof.b.x0 = 0 ∧ proof.b.x1 = 0 ∧ proof.b.y0 = 0 ∧
        proof.b.y1 = 0 then
    false
  else if bn254PrimeWord ≤ proof.b.x0 ∨ bn254PrimeWord ≤ proof.b.x1 then
    false
  else if bn254PrimeWord ≤ proof.b.y0 ∨ bn254PrimeWord ≤ proof.b.y1 then
    false
  else
    true

/-- Validate the arguments of a withdrawal (`validate_public_inputs`). -/
def validatePublicInputs
    (root nullifierHash : U256)
    (recipient relayer : ContractAddress)
    (fee refund : U256) : Bool :=
  let zeroAddress : ContractAddress := 0
  if root = 0 then
    false
  else if nullifierHash = 0 then
    false
  else if recipient = zeroAddress then
    false
  else if 0xffffffffffffffff < fee then
    false
  else if 0xffffffffffffffff < refund then
    false
  else if relayer = zeroAddress ∧ fee ≠ 0 then
    false
  else
    true

/-- Both validators accept a withdrawal. -/
def WithdrawCall.RespectsValidators
    (call : WithdrawCall Groth16Proof) : Prop :=
  validateProof call.proof = true ∧
    validatePublicInputs call.root call.nullifierHash call.recipient
        call.relayer call.fee call.refund =
      true

/-- No point of a proof is all zeros. -/
structure Groth16Proof.NoZeroPoint (proof : Groth16Proof) : Prop where
  a :
    ¬ (proof.a.x = 0 ∧ proof.a.y = 0)
  b :
    ¬ (proof.b.x0 = 0 ∧ proof.b.x1 = 0 ∧ proof.b.y0 = 0 ∧
      proof.b.y1 = 0)
  c :
    ¬ (proof.c.x = 0 ∧ proof.c.y = 0)

/-- The guards of the validators that `withdraw` does not check. -/
structure WithdrawCall.MeetsOmittedGuards
    (call : WithdrawCall Groth16Proof) : Prop where
  points :
    call.proof.NoZeroPoint
  recipient :
    call.recipient ≠ 0
  fee :
    call.fee ≤ 0xffffffffffffffff
  refund :
    call.refund ≤ 0xffffffffffffffff
  relayer :
    ¬ (call.relayer = 0 ∧ call.fee ≠ 0)

/-- On a well-formed proof the validator looks for zero points only. -/
theorem Groth16Proof.WellFormed.validateProof_iff
    {proof : Groth16Proof}
    (wellFormed : proof.WellFormed) :
    validateProof proof = true ↔ proof.NoZeroPoint := by
  have a := wellFormed.a
  have c := wellFormed.c
  have bX := wellFormed.bX
  have bY := wellFormed.bY
  simp only [← BitVec.not_le, ← not_or] at a c bX bY
  unfold validateProof
  simp only [if_neg a, if_neg c, if_neg bX, if_neg bY]
  constructor
  · intro accepted
    split_ifs at accepted with zeroA zeroC zeroB
    exact ⟨zeroA, zeroB, zeroC⟩
  · intro noZeroPoint
    rw [if_neg noZeroPoint.a, if_neg noZeroPoint.c,
      if_neg noZeroPoint.b]

/-- What the validator of the arguments accepts. -/
theorem validatePublicInputs_eq_true
    {root nullifierHash : U256}
    {recipient relayer : ContractAddress}
    {fee refund : U256} :
    validatePublicInputs root nullifierHash recipient relayer fee refund =
        true ↔
      (root ≠ 0 ∧ nullifierHash ≠ 0) ∧ recipient ≠ 0 ∧
        (fee ≤ 0xffffffffffffffff ∧ refund ≤ 0xffffffffffffffff) ∧
        ¬ (relayer = 0 ∧ fee ≠ 0) := by
  unfold validatePublicInputs
  dsimp only
  constructor
  · intro accepted
    split_ifs at accepted with noRoot noNullifierHash noRecipient feeAbove
      refundAbove noRelayer
    exact
      ⟨⟨noRoot, noNullifierHash⟩, noRecipient,
        ⟨BitVec.not_lt.mp feeAbove, BitVec.not_lt.mp refundAbove⟩,
        noRelayer⟩
  · rintro ⟨⟨noRoot, noNullifierHash⟩, noRecipient, ⟨feeFits, refundFits⟩,
      noRelayer⟩
    rw [if_neg noRoot, if_neg noNullifierHash, if_neg noRecipient,
      if_neg (BitVec.not_lt.mpr feeFits),
      if_neg (BitVec.not_lt.mpr refundFits), if_neg noRelayer]

/--
Past the structural check the validators accept exactly the withdrawals that
meet the omitted guards.
-/
theorem respectsValidators_iff
    {call : WithdrawCall Groth16Proof}
    (verified :
      structuralVerdict call.proof call.publicInputs = true) :
    call.RespectsValidators ↔ call.MeetsOmittedGuards := by
  obtain ⟨wellFormed, notZero⟩ := structuralVerdict_eq_true.mp verified
  unfold WithdrawCall.RespectsValidators
  rw [wellFormed.validateProof_iff, validatePublicInputs_eq_true]
  constructor
  · rintro ⟨points, _, recipient, ⟨fee, refund⟩, relayer⟩
    exact ⟨points, recipient, fee, refund, relayer⟩
  · intro guards
    exact
      ⟨guards.points, notZero, guards.recipient,
        ⟨guards.fee, guards.refund⟩, guards.relayer⟩

end Validators

section Screening

variable
    {Proof Token : Type}
    {hash : U256 → U256 → U256}
    {verdict : Proof → List U256 → Bool}
    {self : ContractAddress}
    {external : External Proof Token}

/-- What every completed withdrawal has passed. -/
structure WithdrawCall.Screened
    (verdict : Proof → List U256 → Bool)
    (denomination : U256)
    (call : WithdrawCall Proof) : Prop where
  verified :
    verdict call.proof call.publicInputs = true
  feeBelow :
    call.fee < denomination

/-- The pool grew by calls whose withdrawals were screened. -/
def ScreenedGrowth
    (verdict : Proof → List U256 → Bool)
    (before after : World Proof Token) : Prop :=
  after.pool.denomination = before.pool.denomination ∧
    ∃ new,
      after.receipts = before.receipts ++ new ∧
        ∀ call,
          call ∈ withdrawCalls new →
          call.Screened verdict before.pool.denomination

/-- A state that stays has grown by nothing. -/
theorem ScreenedGrowth.refl
    (world : World Proof Token) :
    ScreenedGrowth verdict world world := by
  refine ⟨rfl, [], (List.append_nil _).symm, ?_⟩
  intro call member
  cases member

/-- Growth after growth is growth. -/
theorem ScreenedGrowth.trans
    (first middle last : World Proof Token)
    (firstGrowth : ScreenedGrowth verdict first middle)
    (secondGrowth : ScreenedGrowth verdict middle last) :
    ScreenedGrowth verdict first last := by
  obtain ⟨firstDenomination, new, firstReceipts, firstScreened⟩ :=
    firstGrowth
  obtain ⟨secondDenomination, newer, secondReceipts, secondScreened⟩ :=
    secondGrowth
  refine ⟨secondDenomination.trans firstDenomination, new ++ newer, ?_, ?_⟩
  · rw [secondReceipts, firstReceipts, List.append_assoc]
  · intro call member
    rw [withdrawCalls_append] at member
    rcases List.mem_append.mp member with inFirst | inSecond
    · exact firstScreened call inFirst
    · rw [← firstDenomination]
      exact secondScreened call inSecond

/-- Entry points screen their withdrawals if their external calls do. -/
theorem enter_screened
    (externalCalls :
      ∀ address request,
        ReentrantCode.Respects (ScreenedGrowth verdict)
          (external address request))
    (entry : Entry Proof) :
    ReentrantCode.Respects (ScreenedGrowth verdict)
      (enter hash verdict self external entry) := by
  intro before result after completed
  cases entry with
  | deposit call =>
      obtain ⟨answer, paid, answered, room, rfl⟩ :=
        enter_deposit_eq_ok.mp completed
      obtain ⟨denomination, new, receipts, screened⟩ :=
        externalCalls _ _ _ _ _ answered
      refine ⟨denomination, new ++ [.deposit call], ?_, ?_⟩
      · simp only [World.completeDeposit, World.record, World.deposited,
          receipts, List.append_assoc]
      · rw [withdrawCalls_concat_deposit]
        exact screened
  | withdraw call =>
      obtain ⟨withdrawable, paid, paysOut, rfl⟩ :=
        enter_withdraw_eq_ok.mp completed
      obtain ⟨denomination, new, receipts, screened⟩ :=
        paysOut.respects ScreenedGrowth.trans externalCalls
      refine ⟨denomination, new ++ [.withdraw call], ?_, ?_⟩
      · simp only [World.completeWithdrawal, World.record, World.emit,
          receipts, World.markSpent, List.append_assoc]
      · intro other member
        rw [withdrawCalls_concat_withdraw] at member
        rcases List.mem_append.mp member with inNew | isCall
        · exact screened other inNew
        · obtain rfl := List.mem_singleton.mp isCall
          exact ⟨withdrawable.verified, withdrawable.feeBelow⟩

/-- In every run the completed withdrawals were screened. -/
theorem Deployment.run_screened
    (deployment : Deployment Proof)
    (token : Token)
    (codes : List (ForeignCode Proof Token))
    {call : WithdrawCall Proof}
    (member :
      call ∈
        withdrawCalls
          (deployment.run codes (deployment.deployed token)).receipts) :
    call.Screened deployment.verdict deployment.denomination := by
  have growth :
      ScreenedGrowth deployment.verdict (deployment.deployed token)
        (deployment.run codes (deployment.deployed token)) := by
    apply
      ReentrantCode.transactions_respect ScreenedGrowth.refl
        ScreenedGrowth.trans
    intro transaction isTransaction
    obtain ⟨code, _, rfl⟩ := List.mem_map.mp isTransaction
    apply
      ReentrantCode.Code.run_respects ScreenedGrowth.refl
        ScreenedGrowth.trans
    · intro foreign world
      exact ScreenedGrowth.refl world
    · intro external entry externalCalls
      exact enter_screened (fun _ _ => externalCalls _) entry
  obtain ⟨_, new, receipts, screened⟩ := growth
  rw [receipts] at member
  exact screened call member

end Screening

section Exactness

variable {Token : Type}

/--
In every run of the pool as written, re-entrant transactions included, a
completed withdrawal respects the contract's validators exactly if it meets
the guards that `withdraw` omits; the bound on its fee is among those that can
fail only for a denomination above `2 ^ 64`.
-/
theorem respectsValidators_iff_omittedGuards
    (poseidonHashSpan : List Felt252 → Felt252)
    (self tokenAddress : ContractAddress)
    (denomination : U256)
    (token : Token)
    (codes : List (ForeignCode Groth16Proof Token)) :
    let pool := ghostPool poseidonHashSpan self tokenAddress denomination
    let world := pool.run codes (pool.deployed token)
    ∀ call,
      call ∈ withdrawCalls world.receipts →
      (call.RespectsValidators ↔ call.MeetsOmittedGuards) ∧
        (denomination.toNat ≤ 2 ^ 64 →
          call.fee ≤ 0xffffffffffffffff) := by
  intro pool world call member
  have screened := pool.run_screened token codes member
  constructor
  · exact respectsValidators_iff screened.verified
  · intro small
    have below : call.fee.toNat < denomination.toNat := screened.feeBelow
    have atMost : call.fee.toNat ≤ 0xffffffffffffffff := by
      omega
    exact atMost

/-- The proof whose coordinates are all zero. -/
def zerosProof : Groth16Proof where
  a := { x := 0, y := 0 }
  b := { x0 := 0, x1 := 0, y0 := 0, y1 := 0 }
  c := { x := 0, y := 0 }

/-- That proof passes the check of the pool. -/
theorem zerosProof_wellFormed :
    zerosProof.WellFormed := by
  constructor <;> decide

/-- A withdrawal of zeros against a root, with a fee for the zero address. -/
def zeroCall (root : U256) : WithdrawCall Groth16Proof where
  proof := zerosProof
  root := root
  nullifierHash := 1
  recipient := 0
  relayer := 0
  fee := 1
  refund := 0x10000000000000000

/-- A pool of denomination two, over any sponge. -/
def zeroPool
    (poseidonHashSpan : List Felt252 → Felt252) :
    Deployment Groth16Proof :=
  ghostPool poseidonHashSpan 1 2 2

/-- The run of that withdrawal from the fresh pool, against its empty root. -/
theorem run_zeroCall
    {poseidonHashSpan : List Felt252 → Felt252}
    (notZero : getZero (poseidonHash2 poseidonHashSpan) levels ≠ 0) :
    let call := zeroCall (getZero (poseidonHash2 poseidonHashSpan) levels)
    ((zeroPool poseidonHashSpan).run [visit (.withdraw call)]
        ((zeroPool poseidonHashSpan).deployed ())).receipts =
      [.withdraw call] := by
  intro call
  have tracks := ((zeroPool poseidonHashSpan).deployed_ledger ()).tracks
  have known :
      ((zeroPool poseidonHashSpan).deployed
        ()).pool.merkleTree.isKnownRoot call.root = true := by
    rw [tracks.isKnownRoot_iff]
    refine ⟨notZero, 0, ⟨le_rfl, ?_⟩, ?_⟩
    · change 0 < 0 + 30
      decide
    · exact rootAfter_zero _ _
  have nullifierNotZero : call.nullifierHash ≠ 0 := by
    change (1 : U256) ≠ 0
    decide
  have verified :
      structuralVerdict call.proof call.publicInputs = true :=
    structuralVerdict_eq_true.mpr
      ⟨zerosProof_wellFormed, notZero, nullifierNotZero⟩
  have feeBelow : call.fee < (zeroPool poseidonHashSpan).denomination := by
    change (1 : U256) < 2
    decide
  have withdrawable :
      Withdrawable (zeroPool poseidonHashSpan).verdict call
        ((zeroPool poseidonHashSpan).deployed ()) :=
    ⟨rfl, known, verified, feeBelow⟩
  rw [Deployment.run_visit
    (Deployment.call_withdraw_answering withdrawable)]
  rfl

/--
The withdrawal of zeros completes, whatever the sponge, and both validators
refuse it.
-/
theorem zeroCall_refused :
    getZero (poseidonHash2 fun _ => 1) levels ≠ 0 ∧
      ∀ poseidonHashSpan : List Felt252 → Felt252,
        getZero (poseidonHash2 poseidonHashSpan) levels ≠ 0 →
        let call :=
          zeroCall (getZero (poseidonHash2 poseidonHashSpan) levels)
        call ∈
            withdrawCalls
              ((zeroPool poseidonHashSpan).run [visit (.withdraw call)]
                ((zeroPool poseidonHashSpan).deployed ())).receipts ∧
          validateProof call.proof = false ∧
          validatePublicInputs call.root call.nullifierHash
              call.recipient call.relayer call.fee call.refund =
            false := by
  refine ⟨by decide, ?_⟩
  intro poseidonHashSpan notZero call
  refine ⟨?_, rfl, ?_⟩
  · rw [run_zeroCall notZero]
    exact List.mem_singleton_self _
  · have rootNotZero : call.root ≠ 0 := notZero
    rw [validatePublicInputs, if_neg rootNotZero]
    rfl

/-- The equivalence at the withdrawal of zeros. -/
theorem respectsValidators_iff_zeroCall :
    let call := zeroCall (getZero (poseidonHash2 fun _ => 1) levels)
    (call.RespectsValidators ↔ call.MeetsOmittedGuards) ∧
      call.fee ≤ 0xffffffffffffffff := by
  intro call
  have member :
      call ∈
        withdrawCalls
          ((zeroPool fun _ => 1).run [visit (.withdraw call)]
            ((zeroPool fun _ => 1).deployed ())).receipts := by
    rw [run_zeroCall (by decide)]
    exact List.mem_singleton_self _
  obtain ⟨equivalent, small⟩ :=
    respectsValidators_iff_omittedGuards (fun _ => 1) 1 2 2 ()
      [visit (.withdraw call)] call member
  exact ⟨equivalent, small (by decide)⟩

end Exactness

end StarkCash.Cairo
