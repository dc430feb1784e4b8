import StarkCash.CurveCheck
import StarkCash.ExternalVerifier

namespace StarkCash.Cairo

/-!
# The three verification paths

The pool's structural check, the fallback of the external verifier and the
library verifier accept fewer and fewer withdrawals.  The fallback adds a bound
on the two amounts, and the library verifier adds the checks of
`PassesLibraryOnly` and may abort on a point.  The three give one verdict
exactly on the withdrawals of `Unanimous`.
-/

namespace G1Point

/-- The powers fit, and the equation holds modulo the scalar prime. -/
structure PassesCheck (point : G1Point) : Prop where
  fits :
    point.Fits
  equation :
    point.x.toNat ^ 3 + 3 ≡ point.y.toNat ^ 2 [MOD bn254Prime]

/-- Below the scalar prime, the square or the cube exceeds 256 bits. -/
structure Overflows (point : G1Point) : Prop where
  below :
    point.x.toNat < bn254Prime ∧ point.y.toNat < bn254Prime
  power :
    2 ^ 256 ≤ point.y.toNat ^ 2 ∨ 2 ^ 256 ≤ point.x.toNat ^ 3

variable {point : G1Point}

/-- The check of a point aborts on an overflow, and accepts what passes it. -/
theorem validateG1Point_cases
    (point : G1Point) :
    (point.Overflows ∧
        LibraryVerifier.validateG1Point point =
          .error ⟨"u256_mul Overflow"⟩) ∨
      (¬ point.Overflows ∧ point.PassesCheck ∧
        LibraryVerifier.validateG1Point point = .ok true) ∨
      ¬ point.Overflows ∧ ¬ point.PassesCheck ∧
        LibraryVerifier.validateG1Point point = .ok false := by
  rcases point.beyond_or_overflows_or_fits with
    isBeyond | ⟨below, power⟩ | fits
  · right
    right
    refine ⟨?_, ?_, LibraryVerifier.validateG1Point_of_beyond isBeyond⟩
    · intro overflows
      rcases isBeyond with xBeyond | yBeyond
      · exact Nat.not_lt.mpr xBeyond overflows.below.1
      · exact Nat.not_lt.mpr yBeyond overflows.below.2
    · intro passes
      exact passes.fits.not_beyond isBeyond
  · left
    exact
      ⟨⟨below, power⟩,
        LibraryVerifier.validateG1Point_of_overflow below.1 below.2 power⟩
  · have noOverflow : ¬ point.Overflows := by
      rintro ⟨_, square | cube⟩
      · exact Nat.not_lt.mpr square fits.ySquare
      · exact Nat.not_lt.mpr cube fits.xCube
    have computed := LibraryVerifier.validateG1Point_of_fits fits
    right
    by_cases equation :
        point.x.toNat ^ 3 + 3 ≡ point.y.toNat ^ 2 [MOD bn254Prime]
    · left
      rw [decide_eq_true equation] at computed
      exact ⟨noOverflow, ⟨fits, equation⟩, computed⟩
    · right
      rw [decide_eq_false equation] at computed
      exact ⟨noOverflow, fun passes => equation passes.equation, computed⟩

/-- The check accepts exactly the points that pass. -/
theorem validateG1Point_eq_ok_true :
    LibraryVerifier.validateG1Point point = .ok true ↔
      point.PassesCheck := by
  rcases validateG1Point_cases point with
    ⟨overflows, computed⟩ | ⟨_, passes, computed⟩ | ⟨_, fails, computed⟩
  · rw [computed]
    constructor
    · intro accepted
      cases accepted
    · intro passes
      rcases overflows.power with square | cube
      · exact absurd passes.fits.ySquare (Nat.not_lt.mpr square)
      · exact absurd passes.fits.xCube (Nat.not_lt.mpr cube)
  · exact iff_of_true computed passes
  · rw [computed]
    exact iff_of_false (fun accepted => by cases accepted) fails

/-- The check answers unless the point overflows. -/
theorem validateG1Point_answers_iff :
    (∃ answer, LibraryVerifier.validateG1Point point = .ok answer) ↔
      ¬ point.Overflows := by
  rcases validateG1Point_cases point with
    ⟨overflows, computed⟩ | ⟨noOverflow, _, computed⟩ |
      ⟨noOverflow, _, computed⟩
  · rw [computed]
    refine iff_of_false ?_ (not_not.mpr overflows)
    rintro ⟨answer, answered⟩
    cases answered
  · exact iff_of_true ⟨_, computed⟩ noOverflow
  · exact iff_of_true ⟨_, computed⟩ noOverflow

end G1Point

namespace WithdrawCall

variable {Proof : Type}

/-- Neither the fee nor the refund exceeds 64 bits. -/
structure SmallAmounts (call : WithdrawCall Proof) : Prop where
  fee :
    call.fee ≤ 0xffffffffffffffff
  refund :
    call.refund ≤ 0xffffffffffffffff

/-- What only the library verifier asks of a withdrawal. -/
structure PassesLibraryOnly (call : WithdrawCall Groth16Proof) : Prop where
  a :
    call.proof.a.PassesCheck
  b :
    ¬ (call.proof.b.x0 = 0 ∧ call.proof.b.x1 = 0 ∧ call.proof.b.y0 = 0 ∧
      call.proof.b.y1 = 0)
  c :
    call.proof.c.PassesCheck
  recipient :
    call.recipient ≠ 0
  relayer :
    ¬ (call.relayer = 0 ∧ call.fee ≠ 0)

/-- The library verifier on the arguments of a withdrawal. -/
def libraryVerdict (call : WithdrawCall Groth16Proof) : Except Panic Bool :=
  LibraryVerifier.verifyGroth16Proof call.proof call.root
    call.nullifierHash call.recipient call.relayer call.fee call.refund

/-- The fallback of the external verifier on a withdrawal. -/
def fallbackVerdict (call : WithdrawCall Groth16Proof) : Except Panic Bool :=
  ExternalVerifier.verifyGroth16Fallback call.proof call.publicInputs

/-- The structural check of the pool on a withdrawal. -/
def internalVerdict (call : WithdrawCall Groth16Proof) : Except Panic Bool :=
  verifyProofInternal call.proof call.publicInputs groth16VerifierClassHash

/-- No point that the library verifier checks overflows. -/
structure NoOverflow (call : WithdrawCall Groth16Proof) : Prop where
  a :
    ¬ call.proof.a.Overflows
  c :
    call.proof.a.PassesCheck →
    LibraryVerifier.validateG2Point call.proof.b = true →
    ¬ call.proof.c.Overflows

/--
The three paths answer alike, and with that answer in place of the check of
the source every withdrawal ends as it does.
-/
def OneVerdict (call : WithdrawCall Groth16Proof) : Prop :=
  ∃ answer,
    call.internalVerdict = .ok answer ∧
      call.fallbackVerdict = .ok answer ∧
      call.libraryVerdict = .ok answer ∧
      ∀ {Token : Type}
        (external : External Groth16Proof Token)
        (world : World Groth16Proof Token),
        withdraw (fun _ _ => answer) external call world =
          withdraw structuralVerdict external call world

/-- The withdrawals on which the three paths give one verdict. -/
inductive Unanimous (call : WithdrawCall Groth16Proof) : Prop where
  | accepted
      (wellFormed : call.proof.WellFormed)
      (root : call.root ≠ 0)
      (nullifierHash : call.nullifierHash ≠ 0)
      (small : call.SmallAmounts)
      (passes : call.PassesLibraryOnly)
  | refused
      (notScreened :
        ¬ (call.proof.WellFormed ∧ call.root ≠ 0 ∧
          call.nullifierHash ≠ 0))
      (noOverflow : call.NoOverflow)

end WithdrawCall

section Acceptance

variable {call : WithdrawCall Groth16Proof}

/-- The structural check answers with the structural verdict. -/
theorem internalVerdict_eq :
    call.internalVerdict =
      .ok (structuralVerdict call.proof call.publicInputs) :=
  structuralVerdict_spec call

/-- The structural check accepts well-formed proofs and nonzero inputs. -/
theorem internalVerdict_iff :
    call.internalVerdict = .ok true ↔
      call.proof.WellFormed ∧ call.root ≠ 0 ∧ call.nullifierHash ≠ 0 := by
  rw [internalVerdict_eq, Except.ok.injEq, structuralVerdict_eq_true]

/-- Past the screening the fallback looks at four of its inputs. -/
theorem fallbackVerdict_eq :
    call.fallbackVerdict =
      if call.proof.WellFormed then
        if call.root = 0 ∨ call.nullifierHash = 0 then
          .ok false
        else if
            0xffffffffffffffff < call.fee ∨
              0xffffffffffffffff < call.refund then
          .ok false
        else
          .ok true
      else
        .ok false := by
  have six : ¬ call.publicInputs.length ≠ 6 :=
    not_not.mpr rfl
  unfold WithdrawCall.fallbackVerdict ExternalVerifier.verifyGroth16Fallback
  rw [Groth16Proof.screening_eq, if_neg six]
  rfl

/-- The fallback never panics. -/
theorem fallbackVerdict_answers :
    ∃ answer, call.fallbackVerdict = .ok answer := by
  rw [fallbackVerdict_eq]
  split_ifs <;> exact ⟨_, rfl⟩

/-- The fallback is the structural check with a bound on the amounts. -/
theorem fallbackVerdict_iff :
    call.fallbackVerdict = .ok true ↔
      call.internalVerdict = .ok true ∧ call.SmallAmounts := by
  rw [fallbackVerdict_eq, internalVerdict_iff]
  constructor
  · intro accepted
    split_ifs at accepted with wellFormed isZero large
    · cases accepted
    · cases accepted
    · obtain ⟨fee, refund⟩ := not_or.mp large
      exact
        ⟨⟨wellFormed, not_or.mp isZero⟩, BitVec.not_lt.mp fee,
          BitVec.not_lt.mp refund⟩
    · cases accepted
  · rintro ⟨⟨wellFormed, notZero⟩, small⟩
    have amounts := And.intro small.fee small.refund
    simp only [← BitVec.not_lt, ← not_or] at amounts
    rw [if_pos wellFormed, if_neg (not_or.mpr notZero), if_neg amounts]

/-- The library verifier accepts what the fallback and its own checks do. -/
theorem libraryVerdict_iff :
    call.libraryVerdict = .ok true ↔
      call.fallbackVerdict = .ok true ∧ call.PassesLibraryOnly := by
  rw [fallbackVerdict_iff, internalVerdict_iff,
    WithdrawCall.libraryVerdict, LibraryVerifier.verifyGroth16Proof_iff,
    LibraryVerifier.validateProof_iff, LibraryVerifier.validateG2Point_iff,
    LibraryVerifier.validatePublicInputs, validatePublicInputs_eq_true,
    G1Point.validateG1Point_eq_ok_true, G1Point.validateG1Point_eq_ok_true]
  constructor
  · rintro ⟨⟨a, ⟨b, x0, x1, y0, y1⟩, c⟩, ⟨notZero, recipient,
      ⟨fee, refund⟩, relayer⟩, aNotIdentity, cNotIdentity⟩
    have wellFormed : call.proof.WellFormed :=
      { a := ⟨a.fits.x, a.fits.y⟩
        c := ⟨c.fits.x, c.fits.y⟩
        bX := ⟨x0, x1⟩
        bY := ⟨y0, y1⟩
        aNotIdentity := aNotIdentity
        cNotIdentity := cNotIdentity }
    exact
      ⟨⟨⟨wellFormed, notZero⟩, fee, refund⟩, a, b, c, recipient, relayer⟩
  · rintro ⟨⟨⟨wellFormed, notZero⟩, small⟩, passes⟩
    have inField := And.intro wellFormed.bX wellFormed.bY
    refine ⟨⟨passes.a, ⟨passes.b, ?_⟩, passes.c⟩, ?_, ?_⟩
    · exact
        ⟨inField.1.1, inField.1.2, inField.2.1, inField.2.2⟩
    · exact
        ⟨notZero, passes.recipient, ⟨small.fee, small.refund⟩,
          passes.relayer⟩
    · exact ⟨wellFormed.aNotIdentity, wellFormed.cNotIdentity⟩

/-- The library's check of a proof answers unless a checked point overflows. -/
theorem validateProof_answers_iff
    (proof : Groth16Proof) :
    (∃ answer, LibraryVerifier.validateProof proof = .ok answer) ↔
      ¬ proof.a.Overflows ∧
        (proof.a.PassesCheck →
          LibraryVerifier.validateG2Point proof.b = true →
          ¬ proof.c.Overflows) := by
  unfold LibraryVerifier.validateProof
  rcases G1Point.validateG1Point_cases proof.a with
    ⟨overflows, computed⟩ | ⟨noOverflow, passes, computed⟩ |
      ⟨noOverflow, fails, computed⟩
  · rw [computed]
    refine iff_of_false ?_ fun answers => answers.1 overflows
    rintro ⟨answer, answered⟩
    cases answered
  · rw [computed]
    simp only [Imperative.ok_bind, noOverflow, passes, Bool.not_true,
      Bool.false_eq_true, if_false, not_false_eq_true, true_and,
      forall_const]
    rw [← G1Point.validateG1Point_answers_iff]
    by_cases inField : LibraryVerifier.validateG2Point proof.b = true
    · simp only [inField, Bool.not_true, Bool.false_eq_true, if_false,
        forall_const]
      constructor
      · rintro ⟨answer, answered⟩
        cases checked : LibraryVerifier.validateG1Point proof.c with
        | ok accepted =>
            exact ⟨accepted, rfl⟩
        | error panic =>
            rw [checked] at answered
            cases answered
      · rintro ⟨accepted, checked⟩
        rw [checked]
        cases accepted <;> exact ⟨_, rfl⟩
    · refine iff_of_true ?_ fun holds => absurd holds inField
      simp only [Bool.eq_false_iff.mpr inField, Bool.not_false, if_true]
      exact ⟨_, rfl⟩
  · rw [computed]
    refine iff_of_true ⟨false, rfl⟩ ⟨noOverflow, ?_⟩
    intro passes
    exact absurd passes fails

/-- The library verifier answers unless a checked point overflows. -/
theorem libraryVerdict_answers_iff :
    (∃ answer, call.libraryVerdict = .ok answer) ↔ call.NoOverflow := by
  obtain ⟨vkX, combined⟩ :=
    LibraryVerifier.computeVkX_completes call.root call.nullifierHash
      (U256.ofAddress call.recipient) (U256.ofAddress call.relayer)
      call.fee call.refund
  have answers :
      (∃ answer, call.libraryVerdict = .ok answer) ↔
        ∃ answer,
          LibraryVerifier.validateProof call.proof = .ok answer := by
    unfold WithdrawCall.libraryVerdict LibraryVerifier.verifyGroth16Proof
    cases checked : LibraryVerifier.validateProof call.proof with
    | ok accepted =>
        refine iff_of_true ?_ ⟨accepted, rfl⟩
        simp only [combined, Imperative.ok_bind]
        split_ifs <;> exact ⟨_, rfl⟩
    | error panic =>
        refine iff_of_false ?_ ?_
        · rintro ⟨answer, answered⟩
          cases answered
        · rintro ⟨answer, answered⟩
          cases answered
  rw [answers, validateProof_answers_iff]
  exact ⟨fun ⟨a, c⟩ => ⟨a, c⟩, fun noOverflow => ⟨noOverflow.a, noOverflow.c⟩⟩

end Acceptance

section Replacement

variable
    {Proof Token : Type}
    {verdict replacement : Proof → List U256 → Bool}

/-- A withdrawal depends on the proof check through its own verdict alone. -/
theorem withdraw_congr
    {call : WithdrawCall Proof}
    (external : External Proof Token)
    (sameVerdict :
      replacement call.proof call.publicInputs =
        verdict call.proof call.publicInputs) :
    withdraw replacement external call = withdraw verdict external call := by
  have sameCheck :
      (verifyZkProof replacement call : Contract Proof Token Unit) =
        verifyZkProof verdict call := by
    unfold verifyZkProof
    rw [sameVerdict]
  unfold withdraw
  rw [sameCheck]

/-- A weaker check keeps the withdrawals that complete. -/
theorem withdraw_of_weaker
    {external : External Proof Token}
    {call : WithdrawCall Proof}
    {before after : World Proof Token}
    (weaker :
      replacement call.proof call.publicInputs = true →
        verdict call.proof call.publicInputs = true)
    (completed : withdraw replacement external call before = .ok () after) :
    withdraw verdict external call before = .ok () after := by
  obtain ⟨withdrawable, _⟩ := withdraw_eq_ok.mp completed
  have sameVerdict :
      verdict call.proof call.publicInputs =
        replacement call.proof call.publicInputs :=
    (weaker withdrawable.verified).trans withdrawable.verified.symm
  rw [withdraw_congr external sameVerdict]
  exact completed

/--
The fallback is the structural check with a bound on the amounts and the
library verifier the fallback with its own checks.  With an answer of either in
place of the structural check every withdrawal that completes is one of the
source.
-/
theorem verdicts_nested
    (call : WithdrawCall Groth16Proof) :
    (call.fallbackVerdict = .ok true ↔
        call.internalVerdict = .ok true ∧ call.SmallAmounts) ∧
      (call.libraryVerdict = .ok true ↔
        call.fallbackVerdict = .ok true ∧ call.PassesLibraryOnly) ∧
      ∀ {Token : Type}
        (external : External Groth16Proof Token)
        (before after : World Groth16Proof Token)
        (answer : Bool),
        call.fallbackVerdict = .ok answer ∨
          call.libraryVerdict = .ok answer →
        withdraw (fun _ _ => answer) external call before =
          .ok () after →
        withdraw structuralVerdict external call before =
          .ok () after := by
  refine ⟨fallbackVerdict_iff, libraryVerdict_iff, ?_⟩
  intro Token external before after answer answered completed
  apply withdraw_of_weaker _ completed
  rintro rfl
  have fallback : call.fallbackVerdict = .ok true :=
    answered.elim id fun library => (libraryVerdict_iff.mp library).1
  have internal := (fallbackVerdict_iff.mp fallback).1
  rw [internalVerdict_eq] at internal
  exact Except.ok.inj internal

variable {call : WithdrawCall Groth16Proof}

/-- Answers alike in the three paths are one verdict. -/
theorem WithdrawCall.OneVerdict.of_answers
    {answer : Bool}
    (internal : call.internalVerdict = .ok answer)
    (fallback : call.fallbackVerdict = .ok answer)
    (library : call.libraryVerdict = .ok answer) :
    call.OneVerdict := by
  refine ⟨answer, internal, fallback, library, ?_⟩
  intro Token external world
  rw [internalVerdict_eq] at internal
  rw [withdraw_congr external (Except.ok.inj internal).symm]

/--
The three verification paths give one verdict exactly on the withdrawals of
`Unanimous`: those of small amounts that pass every check, and those that the
screening refuses without an overflow in the library verifier.
-/
theorem oneVerdict_iff
    (call : WithdrawCall Groth16Proof) :
    call.OneVerdict ↔ call.Unanimous := by
  obtain ⟨fallbackIff, libraryIff, _⟩ := verdicts_nested call
  constructor
  · rintro ⟨answer, internal, fallback, library, _⟩
    cases answer with
    | true =>
        obtain ⟨wellFormed, root, nullifierHash⟩ :=
          internalVerdict_iff.mp internal
        exact
          WithdrawCall.Unanimous.accepted wellFormed root nullifierHash
            (fallbackIff.mp fallback).2
            (libraryIff.mp library).2
    | false =>
        refine
          WithdrawCall.Unanimous.refused ?_
            (libraryVerdict_answers_iff.mp ⟨_, library⟩)
        intro screened
        rw [internalVerdict_iff.mpr screened] at internal
        cases internal
  · intro unanimous
    cases unanimous with
    | accepted wellFormed root nullifierHash small passes =>
        have internal :=
          internalVerdict_iff.mpr ⟨wellFormed, root, nullifierHash⟩
        have fallback := fallbackIff.mpr ⟨internal, small⟩
        have library := libraryIff.mpr ⟨fallback, passes⟩
        exact WithdrawCall.OneVerdict.of_answers internal fallback library
    | refused notScreened noOverflow =>
        obtain ⟨fallbackAnswer, fallback⟩ :=
          @fallbackVerdict_answers call
        obtain ⟨libraryAnswer, library⟩ :=
          libraryVerdict_answers_iff.mpr noOverflow
        have internalNot : ¬ call.internalVerdict = .ok true :=
          fun accepted => notScreened (internalVerdict_iff.mp accepted)
        have fallbackNot : ¬ call.fallbackVerdict = .ok true :=
          fun accepted => internalNot (fallbackIff.mp accepted).1
        have libraryNot : ¬ call.libraryVerdict = .ok true :=
          fun accepted => fallbackNot (libraryIff.mp accepted).1
        rw [fallback, Except.ok.injEq, Bool.not_eq_true] at fallbackNot
        rw [library, Except.ok.injEq, Bool.not_eq_true] at libraryNot
        rw [internalVerdict_eq, Except.ok.injEq, Bool.not_eq_true]
          at internalNot
        rw [fallbackNot] at fallback
        rw [libraryNot] at library
        refine WithdrawCall.OneVerdict.of_answers ?_ fallback library
        rw [internalVerdict_eq, internalNot]

/-- A withdrawal with coordinates of the generator, and a refund. -/
def generatorCall (refund : U256) : WithdrawCall Groth16Proof where
  proof := ⟨generator, ⟨1, 1, 1, 1⟩, generator⟩
  root := 1
  nullifierHash := 1
  recipient := 1
  relayer := 1
  fee := 0
  refund := refund

/--
With a refund of `2 ^ 64` only the structural check accepts, so the three
paths do not give one verdict.
-/
theorem generatorCall_refund_differs :
    (generatorCall 0x10000000000000000).internalVerdict = .ok true ∧
      (generatorCall 0x10000000000000000).fallbackVerdict = .ok false ∧
      (generatorCall 0x10000000000000000).libraryVerdict = .ok false ∧
      ¬ ∀ call : WithdrawCall Groth16Proof, call.OneVerdict := by
  have internal :
      (generatorCall 0x10000000000000000).internalVerdict = .ok true := by
    rfl
  have fallback :
      (generatorCall 0x10000000000000000).fallbackVerdict = .ok false := by
    rfl
  refine ⟨internal, fallback, by rfl, ?_⟩
  intro always
  obtain ⟨answer, accepted, refused, _⟩ :=
    always (generatorCall 0x10000000000000000)
  rw [internal] at accepted
  rw [fallback, ← accepted] at refused
  cases refused

end Replacement

end StarkCash.Cairo
