import StarkCash.ReentrantRuns

namespace StarkCash.Cairo

/-!
# Nullifier hashes as words and as field elements

The pool compares nullifier hashes as 256-bit words, the proof fixes them as
field elements.  Completed withdrawals have different words; they have
different field elements as long as every word is below the scalar prime, and
every word from the prime on can be spent beside its residue.
-/

/-- A verdict that depends on the residues of the public inputs only. -/
def ResidueVerdict
    {Proof : Type}
    (verdict : Proof → List U256 → Bool) : Prop :=
  ∀ proof inputs inputs',
    inputs.map U256.toFr = inputs'.map U256.toFr →
    verdict proof inputs = verdict proof inputs'

/-- No two completed withdrawals have congruent nullifier hashes. -/
def SpentOnce
    {Proof Token : Type}
    (world : World Proof Token) : Prop :=
  (withdrawCalls world.receipts).Pairwise fun first second =>
    first.nullifierHash.toFr ≠ second.nullifierHash.toFr

section Canonical

variable {Proof Token : Type}

/-- In a ledger of canonical nullifier hashes every note is spent once. -/
theorem Ledger.spentOnce
    {hash : U256 → U256 → U256}
    {world : World Proof Token}
    (ledger : Ledger hash world)
    (canonical :
      ∀ call,
        call ∈ withdrawCalls world.receipts →
        call.nullifierHash.toNat < bn254Prime) :
    SpentOnce world := by
  have distinct :
      (withdrawCalls world.receipts).Pairwise fun first second =>
        first.nullifierHash ≠ second.nullifierHash :=
    List.pairwise_map.mp ledger.distinct
  refine distinct.imp_of_mem ?_
  intro first second firstMember secondMember different congruent
  exact
    different
      (U256.toFr_injective_of_lt (canonical first firstMember)
        (canonical second secondMember) congruent)

end Canonical

section Spellings

/-- The one deposit into such a pool. -/
def spelledDeposit : DepositCall where
  caller := 3
  blockTimestamp := 0
  commitment := 5

variable
    (hash : U256 → U256 → U256)
    (word : U256)

/-- A pool whose verdict accepts one residue of the nullifier hash. -/
def spellingPool : Deployment Unit where
  hash := hash
  verdict := fun _ inputs =>
    (inputs.map U256.toFr)[1]? = some word.toFr
  self := 1
  tokenAddress := 2
  denomination := 1

/-- The root after that deposit. -/
def spelledRoot : U256 :=
  PerfectTree.root hash zeroLeaf levels [spelledDeposit.commitment]

/-- A withdrawal of a nullifier hash from such a pool. -/
def spelling (nullifierHash : U256) : WithdrawCall Unit where
  proof := ()
  root := spelledRoot hash
  nullifierHash := nullifierHash
  recipient := 3
  relayer := 4
  fee := 0
  refund := 0

/-- A deposit, and a withdrawal of the residue and of the word itself. -/
def spellings : List (ForeignCode Unit Unit) :=
  [visit (.deposit spelledDeposit),
    visit (.withdraw (spelling hash (U256.ofFr word.toFr))),
    visit (.withdraw (spelling hash word))]

variable
    {hash}
    {word}

/-- The check of such a pool accepts every spelling of its residue. -/
theorem spellingPool_verified
    {nullifierHash : U256}
    (congruent : nullifierHash.toFr = word.toFr) :
    (spellingPool hash word).verdict ()
        (spelling hash nullifierHash).publicInputs =
      true := by
  simp [spellingPool, spelling, WithdrawCall.publicInputs, congruent]

/-- From the prime on, a word differs from its canonical spelling. -/
theorem ofFr_toFr_ne
    (beyond : bn254Prime ≤ word.toNat) :
    U256.ofFr word.toFr ≠ word := by
  intro same
  have below := U256.ofFr_lt word.toFr
  rw [same] at below
  exact absurd beyond (Nat.not_le_of_lt below)

/-- All three calls complete: both spellings are spent. -/
theorem run_spellings
    (notZero : spelledRoot hash ≠ 0)
    (beyond : bn254Prime ≤ word.toNat) :
    ((spellingPool hash word).run (spellings hash word)
        ((spellingPool hash word).deployed ())).receipts =
      [.deposit spelledDeposit,
        .withdraw (spelling hash (U256.ofFr word.toFr)),
        .withdraw (spelling hash word)] := by
  let start : World Unit Unit := (spellingPool hash word).deployed ()
  let first :=
    start.completeDeposit (spellingPool hash word).hash spelledDeposit
  let second :=
    (first.markSpent
      (spelling hash
        (U256.ofFr word.toFr)).nullifierHash).completeWithdrawal
          (spelling hash (U256.ofFr word.toFr))
  have startTracks : Tracks hash [] start.pool.merkleTree :=
    initialized_tracks hash
  have firstTracks :
      Tracks hash [spelledDeposit.commitment] first.pool.merkleTree :=
    startTracks.inserted (Nat.two_pow_pos levels)
  have room := startTracks.hasRoom (Nat.two_pow_pos levels)
  have known : first.pool.merkleTree.isKnownRoot (spelledRoot hash) = true :=
    firstTracks.isKnownRoot_current notZero
  have residueWithdrawable :
      Withdrawable (spellingPool hash word).verdict
        (spelling hash (U256.ofFr word.toFr)) first := by
    constructor
    · rfl
    · exact known
    · exact spellingPool_verified (U256.toFr_ofFr word.toFr)
    · change (0 : U256) < 1
      decide
  have wordWithdrawable :
      Withdrawable (spellingPool hash word).verdict (spelling hash word)
        second := by
    constructor
    · exact Function.update_of_ne (ofFr_toFr_ne beyond).symm ..
    · exact known
    · exact spellingPool_verified rfl
    · change (0 : U256) < 1
      decide
  rw [spellings,
    Deployment.run_visit (Deployment.call_deposit_answering room),
    Deployment.run_visit
      (Deployment.call_withdraw_answering residueWithdrawable),
    Deployment.run_visit
      (Deployment.call_withdraw_answering wordWithdrawable)]
  rfl

/-- The completed withdrawals are the two spellings. -/
theorem withdrawCalls_spellings
    (notZero : spelledRoot hash ≠ 0)
    (beyond : bn254Prime ≤ word.toNat) :
    withdrawCalls
        ((spellingPool hash word).run (spellings hash word)
          ((spellingPool hash word).deployed ())).receipts =
      [spelling hash (U256.ofFr word.toFr), spelling hash word] := by
  rw [run_spellings notZero beyond]
  rfl

/-- The check of such a pool depends on the residues only. -/
theorem spellingPool_residueVerdict :
    ResidueVerdict (spellingPool hash word).verdict := by
  intro proof inputs inputs' same
  simp only [spellingPool, same]

/-- Both spellings are spent, so the note was spent twice. -/
theorem not_spentOnce_spellings
    (notZero : spelledRoot hash ≠ 0)
    (beyond : bn254Prime ≤ word.toNat) :
    ¬ SpentOnce
      ((spellingPool hash word).run (spellings hash word)
        ((spellingPool hash word).deployed ())) := by
  intro spentOnce
  rw [SpentOnce, withdrawCalls_spellings notZero beyond,
    List.pairwise_pair] at spentOnce
  exact spentOnce (U256.toFr_ofFr word.toFr)

/-- Under a constant nonzero hash that root is not zero. -/
theorem spelledRoot_one :
    spelledRoot (fun _ _ => 1) ≠ 0 := by
  have isOne : spelledRoot (fun _ _ => 1) = 1 := rfl
  rw [isOne]
  decide

end Spellings

section Exactness

/--
A note is spent once when every completed nullifier hash is below the scalar
prime, and the bound is exact: for every word from the prime on some run under
a residue verdict completes it beside its canonical spelling.
-/
theorem spentOnce_of_canonical
    {Proof Token : Type}
    (deployment : Deployment Proof)
    (token : Token)
    (codes : List (ForeignCode Proof Token)) :
    ((∀ call,
        call ∈
            withdrawCalls
              (deployment.run codes
                (deployment.deployed token)).receipts →
        call.nullifierHash.toNat < bn254Prime) →
      SpentOnce
        (deployment.run codes (deployment.deployed token))) ∧
      ∀ word : U256,
        bn254Prime ≤ word.toNat →
        ∃ (deployment : Deployment Unit)
            (codes : List (ForeignCode Unit Unit)),
          ResidueVerdict deployment.verdict ∧
            (∀ call,
              call ∈
                  withdrawCalls
                    (deployment.run codes
                      (deployment.deployed ())).receipts →
              call.nullifierHash = word ∨
                call.nullifierHash.toNat < bn254Prime) ∧
            ¬ SpentOnce
              (deployment.run codes (deployment.deployed ())) := by
  constructor
  · intro canonical
    exact (deployment.run_ledger token codes).spentOnce canonical
  · intro word beyond
    refine
      ⟨spellingPool (fun _ _ => 1) word, spellings (fun _ _ => 1) word,
        spellingPool_residueVerdict, ?_,
        not_spentOnce_spellings spelledRoot_one beyond⟩
    intro call member
    rw [withdrawCalls_spellings spelledRoot_one beyond] at member
    rcases List.mem_pair.mp member with rfl | rfl
    · exact Or.inr (U256.ofFr_lt word.toFr)
    · exact Or.inl rfl

/--
The word one above the prime is spent beside the word one, after one deposit
and under a check of residues, whatever the hash of the tree.
-/
theorem spentTwice_succ_prime :
    let word : U256 := BitVec.ofNat 256 (bn254Prime + 1)
    U256.toFr 1 = U256.toFr word ∧
      spelledRoot (fun _ _ => 1) ≠ 0 ∧
      ∀ hash : U256 → U256 → U256,
        spelledRoot hash ≠ 0 →
        let pool := spellingPool hash word
        let world := pool.run (spellings hash word) (pool.deployed ())
        ResidueVerdict pool.verdict ∧
          leavesOf world.receipts = [5] ∧
          spentBy world.receipts = [1, word] := by
  intro word
  have beyond : bn254Prime ≤ word.toNat := by
    decide
  have canonical : U256.ofFr (U256.toFr word) = 1 := by
    apply BitVec.eq_of_toNat_eq
    rw [U256.toNat_ofFr, U256.toFr, ZMod.val_natCast]
    decide
  have congruent := U256.toFr_ofFr (U256.toFr word)
  rw [canonical] at congruent
  refine ⟨congruent, spelledRoot_one, ?_⟩
  intro hash notZero pool world
  have completed := run_spellings notZero beyond
  rw [canonical] at completed
  refine ⟨spellingPool_residueVerdict, ?_, ?_⟩
  · exact congrArg leavesOf completed
  · exact congrArg spentBy completed

end Exactness

end StarkCash.Cairo
