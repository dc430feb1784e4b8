import StarkCash.ValueConservation

namespace StarkCash.Cairo

/-!
# Withdrawals under the structural proof check

The proof check of the source looks at the form of a proof and at two public
inputs, never at the tree.  Withdrawals are therefore limited by the pool's
tokens alone: they exceed the deposits exactly as far as tokens that reached
the pool otherwise allow.
-/

section Check

/-- Coordinates below the prime, and no identity among the first points. -/
structure Groth16Proof.WellFormed (proof : Groth16Proof) : Prop where
  a :
    proof.a.x < bn254PrimeWord ∧ proof.a.y < bn254PrimeWord
  c :
    proof.c.x < bn254PrimeWord ∧ proof.c.y < bn254PrimeWord
  bX :
    proof.b.x0 < bn254PrimeWord ∧ proof.b.x1 < bn254PrimeWord
  bY :
    proof.b.y0 < bn254PrimeWord ∧ proof.b.y1 < bn254PrimeWord
  aNotIdentity :
    ¬ (proof.a.x = 0 ∧ proof.a.y = 1)
  cNotIdentity :
    ¬ (proof.c.x = 0 ∧ proof.c.y = 1)

instance Groth16Proof.decidableWellFormed
    (proof : Groth16Proof) :
    Decidable proof.WellFormed :=
  decidable_of_iff
    ((proof.a.x < bn254PrimeWord ∧ proof.a.y < bn254PrimeWord) ∧
      (proof.c.x < bn254PrimeWord ∧ proof.c.y < bn254PrimeWord) ∧
      (proof.b.x0 < bn254PrimeWord ∧ proof.b.x1 < bn254PrimeWord) ∧
      (proof.b.y0 < bn254PrimeWord ∧ proof.b.y1 < bn254PrimeWord) ∧
      ¬ (proof.a.x = 0 ∧ proof.a.y = 1) ∧
      ¬ (proof.c.x = 0 ∧ proof.c.y = 1))
    ⟨fun ⟨a, c, bX, bY, aNotIdentity, cNotIdentity⟩ =>
        ⟨a, c, bX, bY, aNotIdentity, cNotIdentity⟩,
      fun ⟨a, c, bX, bY, aNotIdentity, cNotIdentity⟩ =>
        ⟨a, c, bX, bY, aNotIdentity, cNotIdentity⟩⟩

/-- Behind the screening of a proof's points stands what follows it. -/
theorem Groth16Proof.screening_eq
    (proof : Groth16Proof)
    (rest : Except Panic Bool) :
    (if bn254PrimeWord ≤ proof.a.x ∨ bn254PrimeWord ≤ proof.a.y then
        .ok false
      else if bn254PrimeWord ≤ proof.c.x ∨ bn254PrimeWord ≤ proof.c.y then
        .ok false
      else if
          bn254PrimeWord ≤ proof.b.x0 ∨ bn254PrimeWord ≤ proof.b.x1 then
        .ok false
      else if
          bn254PrimeWord ≤ proof.b.y0 ∨ bn254PrimeWord ≤ proof.b.y1 then
        .ok false
      else if proof.a.x = 0 ∧ proof.a.y = 1 then
        .ok false
      else if proof.c.x = 0 ∧ proof.c.y = 1 then
        .ok false
      else
        rest) =
      if proof.WellFormed then rest else .ok false := by
  by_cases wellFormed : proof.WellFormed
  · have a := wellFormed.a
    have c := wellFormed.c
    have bX := wellFormed.bX
    have bY := wellFormed.bY
    simp only [← BitVec.not_le, ← not_or] at a c bX bY
    rw [if_neg a, if_neg c, if_neg bX, if_neg bY,
      if_neg wellFormed.aNotIdentity, if_neg wellFormed.cNotIdentity,
      if_pos wellFormed]
  · rw [if_neg wellFormed]
    split_ifs with a c bX bY aIdentity cIdentity
    all_goals try rfl
    simp only [not_or, BitVec.not_le] at a c bX bY
    exact absurd ⟨a, c, bX, bY, aIdentity, cIdentity⟩ wellFormed

/-- The structural check of a withdrawal never panics, and what it answers. -/
theorem verifyProofInternal_eq
    (call : WithdrawCall Groth16Proof)
    (verifierClassHash : Felt252) :
    verifyProofInternal call.proof call.publicInputs verifierClassHash =
      .ok
        (decide
          (call.proof.WellFormed ∧ call.root ≠ 0 ∧
            call.nullifierHash ≠ 0)) := by
  unfold verifyProofInternal
  have six : ¬ call.publicInputs.length ≠ 6 :=
    not_not.mpr rfl
  rw [Groth16Proof.screening_eq, if_neg six]
  by_cases wellFormed : call.proof.WellFormed
  · rw [if_pos wellFormed]
    simp only [wellFormed, true_and, ← not_or]
    by_cases isZero : call.root = 0 ∨ call.nullifierHash = 0
    · rw [decide_eq_false (not_not.mpr isZero)]
      exact if_pos isZero
    · rw [decide_eq_true isZero]
      exact if_neg isZero
  · rw [if_neg wellFormed]
    simp only [wellFormed, false_and, decide_false]

/-- The structural verdict is what the check of the source answers. -/
theorem structuralVerdict_spec
    (call : WithdrawCall Groth16Proof) :
    verifyProofInternal call.proof call.publicInputs
        groth16VerifierClassHash =
      .ok (structuralVerdict call.proof call.publicInputs) := by
  unfold structuralVerdict
  rw [verifyProofInternal_eq]

/-- The structural check of the public inputs of a withdrawal. -/
theorem structuralVerdict_eq_true
    {call : WithdrawCall Groth16Proof} :
    structuralVerdict call.proof call.publicInputs = true ↔
      call.proof.WellFormed ∧ call.root ≠ 0 ∧ call.nullifierHash ≠ 0 := by
  unfold structuralVerdict
  rw [verifyProofInternal_eq]
  exact decide_eq_true_iff

/--
The pool as written: the contract's hash, over the sponge of the core library,
and its structural check.
-/
def ghostPool
    (poseidonHashSpan : List Felt252 → Felt252)
    (self tokenAddress : ContractAddress)
    (denomination : U256) : Deployment Groth16Proof where
  hash := poseidonHash2 poseidonHashSpan
  verdict := structuralVerdict
  self := self
  tokenAddress := tokenAddress
  denomination := denomination

end Check

section Bound

variable
    {Proof Token : Type}
    {deployment : Deployment Proof}
    {code : TokenCode Token}
    {calls : List (World Proof Token × Entry Proof)}
    {received : ℕ}
    {world : World Proof Token}

/-- Withdrawals are covered by the deposits and what came in otherwise. -/
theorem TokenRun.withdrawals_covered
    (exact : code.Exact)
    (run : TokenRun deployment code calls received world) :
    deployment.denomination.toNat * (withdrawCalls world.receipts).length ≤
      deployment.denomination.toNat * (depositCalls world.receipts).length +
        (received +
          paidTo deployment.self deployment.denomination
            world.receipts) := by
  have balance := run.balance exact
  have notNegative :
      (0 : ℤ) ≤ code.balanceOf world.token deployment.self :=
    Int.natCast_nonneg _
  rw [balance, accounted] at notNegative
  zify
  linarith

/-- Less than one denomination from elsewhere covers no withdrawal more. -/
theorem TokenRun.withdrawals_le_deposits
    (exact : code.Exact)
    (run : TokenRun deployment code calls received world)
    (small :
      received +
          paidTo deployment.self deployment.denomination world.receipts <
        deployment.denomination.toNat) :
    (withdrawCalls world.receipts).length ≤
      (depositCalls world.receipts).length := by
  have covered := run.withdrawals_covered exact
  by_contra more
  have oneMore :
      (depositCalls world.receipts).length + 1 ≤
        (withdrawCalls world.receipts).length :=
    Nat.lt_of_not_le more
  have needed := Nat.mul_le_mul_left deployment.denomination.toNat oneMore
  rw [Nat.mul_succ] at needed
  omega

end Bound

section Structural

variable
    {Token : Type}
    {code : TokenCode Token}
    {poseidonHashSpan : List Felt252 → Felt252}
    {self tokenAddress : ContractAddress}
    {denomination : U256}
    {calls : List (World Groth16Proof Token × Entry Groth16Proof)}
    {received : ℕ}
    {world : World Groth16Proof Token}

/--
What the pool as written asks of a withdrawal: an unspent nullifier hash, a
nonzero root among the last thirty, the empty root included, a well-formed
proof, a nonzero nullifier hash and a fee below the denomination.
-/
structure Admissible
    (hash : U256 → U256 → U256)
    (denomination : U256)
    (receipts : List (Entry Groth16Proof))
    (call : WithdrawCall Groth16Proof) : Prop where
  unspent :
    call.nullifierHash ∉ spentBy receipts
  rootNonzero :
    call.root ≠ 0
  rootRecent :
    ∃ count,
      count ≤ (leavesOf receipts).length ∧
        (leavesOf receipts).length < count + 30 ∧
        rootAfter hash (leavesOf receipts) count = call.root
  wellFormed :
    call.proof.WellFormed
  nullifierHashNonzero :
    call.nullifierHash ≠ 0
  feeBelow :
    call.fee < denomination

/-- In a run, the checks of the pool as written are these conditions. -/
theorem TokenRun.withdrawable_iff
    (run :
      TokenRun
        (ghostPool poseidonHashSpan self tokenAddress denomination) code
        calls received world)
    {call : WithdrawCall Groth16Proof} :
    Withdrawable structuralVerdict call world ↔
      Admissible (poseidonHash2 poseidonHashSpan) denomination
        world.receipts call := by
  have ledger := run.ledger
  have known := ledger.tracks.isKnownRoot_iff call.root
  have sameDenomination : world.pool.denomination = denomination :=
    run.denomination
  constructor
  · intro withdrawable
    obtain ⟨rootNonzero, count, ⟨reached, near⟩, rootEq⟩ :=
      known.mp withdrawable.knownRoot
    obtain ⟨wellFormed, _, nullifierHashNonzero⟩ :=
      structuralVerdict_eq_true.mp withdrawable.verified
    refine
      ⟨?_, rootNonzero, ⟨count, reached, near, rootEq⟩, wellFormed,
        nullifierHashNonzero, ?_⟩
    · rw [← ledger.spent, withdrawable.unspent]
      exact Bool.false_ne_true
    · rw [← sameDenomination]
      exact withdrawable.feeBelow
  · intro admissible
    obtain ⟨count, reached, near, rootEq⟩ := admissible.rootRecent
    constructor
    · have unspent := admissible.unspent
      rw [← ledger.spent] at unspent
      exact Bool.eq_false_iff.mpr unspent
    · exact
        known.mpr
          ⟨admissible.rootNonzero, count, ⟨reached, near⟩, rootEq⟩
    · exact
        structuralVerdict_eq_true.mpr
          ⟨admissible.wellFormed, admissible.rootNonzero,
            admissible.nullifierHashNonzero⟩
    · rw [sameDenomination]
      exact admissible.feeBelow

/--
Under the structural check withdrawals are bounded by the deposits and by what
reached the pool otherwise, so that they exceed the deposits only when at
least one denomination did; no nullifier hash is withdrawn twice; and a
withdrawal completes exactly if it is admissible and its payments return.
-/
theorem TokenRun.structural_withdrawals
    (exact : code.Exact)
    (run :
      TokenRun
        (ghostPool poseidonHashSpan self tokenAddress denomination) code
        calls received world) :
    denomination.toNat * (withdrawCalls world.receipts).length ≤
        denomination.toNat * (depositCalls world.receipts).length +
          (received + paidTo self denomination world.receipts) ∧
      (received + paidTo self denomination world.receipts <
          denomination.toNat →
        (withdrawCalls world.receipts).length ≤
          (depositCalls world.receipts).length) ∧
      (spentBy world.receipts).Nodup ∧
      ∀ call,
        (∃ after,
          (ghostPool poseidonHashSpan self tokenAddress
              denomination).call
            (code.external self) (.withdraw call) world =
              .ok () after) ↔
          Admissible (poseidonHash2 poseidonHashSpan) denomination
              world.receipts call ∧
            ∃ first second,
              code.Pays self denomination call world.token first
                second := by
  refine
    ⟨run.withdrawals_covered exact, run.withdrawals_le_deposits exact,
      run.ledger.distinct, ?_⟩
  intro call
  rw [← run.withdrawable_iff]
  have sameDenomination : world.pool.denomination = denomination :=
    run.denomination
  constructor
  · rintro ⟨after, completed⟩
    obtain ⟨withdrawable, first, second, pays, _⟩ :=
      Deployment.call_withdraw_eq_ok.mp completed
    rw [sameDenomination] at pays
    exact ⟨withdrawable, first, second, pays⟩
  · rintro ⟨withdrawable, first, second, pays⟩
    rw [← sameDenomination] at pays
    exact
      ⟨_, Deployment.call_withdraw_eq_ok.mpr
        ⟨withdrawable, first, second, pays, rfl⟩⟩

end Structural

section Unbacked

/-- The proof whose coordinates are all one. -/
def onesProof : Groth16Proof where
  a := { x := 1, y := 1 }
  b := { x0 := 1, x1 := 1, y0 := 1, y1 := 1 }
  c := { x := 1, y := 1 }

/-- That proof passes the structural check. -/
theorem onesProof_wellFormed :
    onesProof.WellFormed := by
  constructor <;> decide

variable (poseidonHashSpan : List Felt252 → Felt252)

/-- A withdrawal against the empty root, without any deposit. -/
def unbackedCall : WithdrawCall Groth16Proof where
  proof := onesProof
  root := getZero (poseidonHash2 poseidonHashSpan) levels
  nullifierHash := 1
  recipient := 3
  relayer := 4
  fee := 0
  refund := 0

/-- The pool of denomination one, over any sponge. -/
def unbackedPool : Deployment Groth16Proof :=
  ghostPool poseidonHashSpan 1 2 1

/-- The pool that holds nothing but one token sent to it directly. -/
def unbackedStart : World Groth16Proof (ContractAddress → ℕ) :=
  ((unbackedPool poseidonHashSpan).deployed fun _ => 0).setToken
    (Function.update (fun _ => 0) 1 1)

/-- The pool after the withdrawal was sent to it. -/
def unbackedWorld : World Groth16Proof (ContractAddress → ℕ) :=
  (unbackedPool poseidonHashSpan).transaction ledgerToken
    (.withdraw (unbackedCall poseidonHashSpan))
    (unbackedStart poseidonHashSpan)

/-- A run of deployment and one direct transfer leads to the start. -/
theorem unbackedStart_run :
    TokenRun (unbackedPool poseidonHashSpan) ledgerToken [] 1
      (unbackedStart poseidonHashSpan) :=
  TokenRun.elsewhere
    (TokenRun.deployed fun _ => 0) 1 _ rfl

/-- With the withdrawal that run leads on. -/
theorem unbackedWorld_run :
    TokenRun (unbackedPool poseidonHashSpan) ledgerToken
      [(unbackedStart poseidonHashSpan,
        .withdraw (unbackedCall poseidonHashSpan))]
      1 (unbackedWorld poseidonHashSpan) :=
  TokenRun.called (unbackedStart_run poseidonHashSpan)
    (.withdraw (unbackedCall poseidonHashSpan)) trivial

variable {poseidonHashSpan}

/-- The withdrawal is admissible: the empty root is known, unless zero. -/
theorem unbackedCall_admissible
    (notZero : getZero (poseidonHash2 poseidonHashSpan) levels ≠ 0) :
    Admissible (unbackedPool poseidonHashSpan).hash
      (unbackedPool poseidonHashSpan).denomination
      (unbackedStart poseidonHashSpan).receipts
      (unbackedCall poseidonHashSpan) := by
  constructor
  · exact List.not_mem_nil
  · exact notZero
  · refine ⟨0, le_rfl, ?_, ?_⟩
    · change 0 < 0 + 30
      decide
    · exact rootAfter_zero _ _
  · exact onesProof_wellFormed
  · change (1 : U256) ≠ 0
    decide
  · change (0 : U256) < 1
    decide

/-- Every admissible withdrawal from that pool completes. -/
theorem unbackedStart_completes
    {call : WithdrawCall Groth16Proof}
    (admissible :
      Admissible (unbackedPool poseidonHashSpan).hash
        (unbackedPool poseidonHashSpan).denomination
        (unbackedStart poseidonHashSpan).receipts call) :
    ∃ second,
      (unbackedPool poseidonHashSpan).call
          (ledgerToken.external (unbackedPool poseidonHashSpan).self)
          (.withdraw call) (unbackedStart poseidonHashSpan) =
        .ok ()
          ((((unbackedStart poseidonHashSpan).markSpent
            call.nullifierHash).setToken second).completeWithdrawal
              call) := by
  have withdrawable :=
    (unbackedStart_run poseidonHashSpan).withdrawable_iff.mpr admissible
  have covered :
      (unbackedPool poseidonHashSpan).denomination.toNat ≤
        ledgerToken.balanceOf (unbackedStart poseidonHashSpan).token
          (unbackedPool poseidonHashSpan).self :=
    le_rfl
  obtain ⟨first, second, pays⟩ :=
    (ledgerToken_revertsOnlyShort fun _ _ _ => 0).exists_pays
      ledgerToken_exact admissible.feeBelow covered
  exact
    ⟨second,
      Deployment.call_withdraw_eq_ok.mpr
        ⟨withdrawable, first, second, pays, rfl⟩⟩

/-- After it the withdrawal is the only completed call. -/
theorem unbackedWorld_receipts
    (notZero : getZero (poseidonHash2 poseidonHashSpan) levels ≠ 0) :
    (unbackedWorld poseidonHashSpan).receipts =
      [.withdraw (unbackedCall poseidonHashSpan)] := by
  obtain ⟨second, completed⟩ :=
    unbackedStart_completes (unbackedCall_admissible notZero)
  have after := Deployment.transaction_of_ok completed
  unfold unbackedWorld
  rw [after]
  rfl

/--
A pool without deposits pays a withdrawal against its empty root, whatever the
sponge that makes that root, unless it is zero.
-/
theorem unbackedCall_completes :
    ledgerToken.Exact ∧
      getZero (poseidonHash2 fun _ => 1) levels ≠ 0 ∧
      ∀ poseidonHashSpan : List Felt252 → Felt252,
        getZero (poseidonHash2 poseidonHashSpan) levels ≠ 0 →
        ∃ calls received world,
          TokenRun (unbackedPool poseidonHashSpan) ledgerToken calls
              received world ∧
            depositCalls world.receipts = [] ∧
            withdrawCalls world.receipts =
              [unbackedCall poseidonHashSpan] ∧
            (unbackedCall poseidonHashSpan).root =
              getZero (unbackedPool poseidonHashSpan).hash levels := by
  refine ⟨ledgerToken_exact, by decide, ?_⟩
  intro poseidonHashSpan notZero
  refine ⟨_, _, _, unbackedWorld_run poseidonHashSpan, ?_, ?_, rfl⟩
  · rw [unbackedWorld_receipts notZero]
    rfl
  · rw [unbackedWorld_receipts notZero]
    rfl

/--
The bound and the completing withdrawals after that withdrawal, which the one
token sent to the pool covers.
-/
theorem structural_withdrawals_unbacked :
    let world := unbackedWorld fun _ => 1
    withdrawCalls world.receipts = [unbackedCall fun _ => 1] ∧
      (1 : U256).toNat * (withdrawCalls world.receipts).length ≤
        (1 : U256).toNat * (depositCalls world.receipts).length +
          (1 + paidTo 1 1 world.receipts) ∧
      (1 + paidTo 1 1 world.receipts < (1 : U256).toNat →
        (withdrawCalls world.receipts).length ≤
          (depositCalls world.receipts).length) ∧
      (spentBy world.receipts).Nodup ∧
      ∀ call,
        (∃ after,
          (unbackedPool fun _ => 1).call (ledgerToken.external 1)
            (.withdraw call) world = .ok () after) ↔
          Admissible (poseidonHash2 fun _ => 1) 1 world.receipts call ∧
            ∃ first second,
              ledgerToken.Pays 1 1 call world.token first second := by
  intro world
  have receipts : world.receipts = [.withdraw (unbackedCall fun _ => 1)] :=
    unbackedWorld_receipts (by decide)
  refine ⟨?_, ?_⟩
  · rw [receipts]
    rfl
  · exact
      TokenRun.structural_withdrawals ledgerToken_exact
        (unbackedWorld_run fun _ => 1)

end Unbacked

end StarkCash.Cairo
