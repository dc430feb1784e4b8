import Mathlib.NumberTheory.LegendreSymbol.Basic
import StarkCash.ByteMemory
import StarkCash.Fft
import StarkCash.ScalarField

namespace StarkCash.Rapidsnark

/-!
# The tables of a transform

The constructor of `FFT` looks for a number that is no square, takes it to the
odd part of the order of the field as the root of unity, and has the threads
of the pool fill in a part of its powers each.  It refuses a length of which
the field has no root of unity.
-/

/-- A power by the bytes of a scalar, the highest bit first (`RawFr::exp`). -/
def expLoop
    {K : Type}
    [Field K]
    (copyBase : K)
    (scalar : ℕ → UInt8) :
    ℕ → Option K → Option K
  | 0, r => r
  | i + 1, r =>
      let isSet := (scalar (i / 8)).toNat.testBit (i % 8)
      match r with
      | none => expLoop copyBase scalar i (if isSet then some copyBase else none)
      | some r =>
          let squared := r * r
          expLoop copyBase scalar i
            (some (if isSet then squared * copyBase else squared))

/-- A power by the bytes of a scalar (`RawFr::exp`). -/
def exp
    {K : Type}
    [Field K]
    (base : K)
    (scalar : ℕ → UInt8)
    (scalarSize : ℕ) : K :=
  (expLoop base scalar (scalarSize * 8) none).getD 1

namespace ThreadPool

/-- A block that all threads run, in the order given (`parallelBlock`). -/
def parallelBlock
    {State : Type}
    (nThreads : ℕ)
    (order : List ℕ)
    (func : ℕ → ℕ → State → State)
    (state : State) : State :=
  order.foldl (fun state idThread => func nThreads idThread state) state

end ThreadPool

open FourierTransform

namespace FFT

/-- The first number from one on that is no square, in some number of steps. -/
def findNqr (q : ℕ) : ℕ → ℕ → ℕ
  | 0, m_nqr => m_nqr
  | steps + 1, m_nqr =>
      if m_nqr ^ ((q - 1) / 2) % q = 1 then
        findNqr q steps (m_nqr + 1)
      else
        m_nqr

/-- Halve the order as long as it is even and the domain is larger. -/
def splitOrder
    (domainPow s m_aux : ℕ) : ℕ × ℕ :=
  if m_aux.testBit 0 = false ∧ s < domainPow then
    splitOrder domainPow (s + 1) (m_aux / 2)
  else
    (s, m_aux)
termination_by domainPow - s

section Field

variable
    {K : Type}
    [Field K]

/-- The first index of the part of a thread. -/
def partStart (nRoots nThreads idThread : ℕ) : ℕ :=
  if idThread = 0 then 2 else idThread * (nRoots / nThreads)

/-- The index past the part of a thread. -/
def partEnd (nRoots nThreads idThread : ℕ) : ℕ :=
  if idThread = nThreads - 1 then
    nRoots
  else
    (idThread + 1) * (nRoots / nThreads)

/-- A thread fills in its part of the powers. -/
def fillRoots
    (nRoots nThreads idThread : ℕ)
    (roots : ℕ → K) : ℕ → K :=
  let start := partStart nRoots nThreads idThread
  let stop := partEnd nRoots nThreads idThread
  let roots :=
    if stop > start then
      Function.update roots start (exp (roots 1) (ByteMemory.bytes start) 8)
    else
      roots
  (List.range (stop - (start + 1))).foldl
    (fun roots offset =>
      let i := start + 1 + offset
      Function.update roots i (roots (i - 1) * roots 1))
    roots

/-- The inverses of the powers of two, from that of two on. -/
def fillPowTwoInv
    (s : ℕ)
    (powTwoInv : ℕ → K) : ℕ → K :=
  (List.range (s - 1)).foldl
    (fun powTwoInv offset =>
      let i := 2 + offset
      Function.update powTwoInv i (powTwoInv (i - 1) * powTwoInv 1))
    powTwoInv

end Field

/-- How the constructor of `FFT` fails. -/
inductive Failure where
  | assertion
  | rangeError (what : String)

/-- The tables for domains up to a size (`FFT`). -/
def construct
    (q : ℕ)
    [Fact q.Prime]
    (maxDomainSize nThreads : ℕ)
    (order : List ℕ) : Except Failure (FFT (ZMod q)) :=
  if maxDomainSize = 0 then
    .error .assertion
  else
    let domainPow := log2 maxDomainSize
    let m_nqr := findNqr q q 2
    let (s, m_aux) := splitOrder domainPow 1 ((q - 1) / 2)
    if s < domainPow then
      .error (.rangeError "Domain size too big for the curve")
    else
      let nRoots := 1 <<< s
      let roots : ℕ → ZMod q :=
        Function.update (fun i => if i = 0 then 1 else 0) 1
          ((m_nqr ^ m_aux % q : ℕ) : ZMod q)
      let powTwoInv : ℕ → ZMod q :=
        Function.update (fun i => if i = 0 then 1 else 0) 1 2⁻¹
      let roots :=
        ThreadPool.parallelBlock nThreads order (fillRoots nRoots) roots
      if roots (nRoots - 1) * roots 1 = 1 then
        .ok { s, roots, powTwoInv := fillPowTwoInv s powTwoInv }
      else
        .error .assertion

section Powers

variable
    {K : Type}
    [Field K]

/-- Squaring and multiplying along the bits below an index. -/
theorem expLoop_eq
    (copyBase : K)
    (scalar : ℕ → UInt8)
    {scalarSize : ℕ}
    {i : ℕ}
    (inside : i ≤ scalarSize * 8) :
    expLoop copyBase scalar i
        (if ByteMemory.load scalar 0 scalarSize / 2 ^ i = 0 then
          none
        else
          some (copyBase ^ (ByteMemory.load scalar 0 scalarSize / 2 ^ i))) =
      if ByteMemory.load scalar 0 scalarSize = 0 then
        none
      else
        some (copyBase ^ ByteMemory.load scalar 0 scalarSize) := by
  induction i with
  | zero =>
      simp [expLoop]
  | succ i inductionHypothesis =>
      rw [← inductionHypothesis (by omega)]
      have bit := ByteMemory.testBit_load scalar 0 (show i < scalarSize * 8 by omega)
      have split :
          ByteMemory.load scalar 0 scalarSize / 2 ^ i =
            2 * (ByteMemory.load scalar 0 scalarSize / 2 ^ (i + 1)) +
              ((scalar (i / 8)).toNat.testBit (i % 8)).toNat := by
        rw [zero_add] at bit
        rw [← bit, Nat.testBit_eq_decide_div_mod_eq, pow_succ,
          ← Nat.div_div_eq_div_mul]
        generalize ByteMemory.load scalar 0 scalarSize / 2 ^ i = number
        by_cases odd : number % 2 = 1
        · simp [odd]
          omega
        · simp [odd]
          omega
      rw [split]
      generalize ByteMemory.load scalar 0 scalarSize / 2 ^ (i + 1) = number
      cases isSet : (scalar (i / 8)).toNat.testBit (i % 8) with
      | false =>
          by_cases zero : number = 0
          · simp [zero, expLoop, isSet]
          · simp [zero, expLoop, isSet, two_mul, pow_add]
      | true =>
          by_cases zero : number = 0
          · simp [zero, expLoop, isSet]
          · simp [zero, expLoop, isSet, two_mul, pow_add]

/-- The power is the one by the number of the bytes. -/
theorem exp_eq
    (base : K)
    (scalar : ℕ → UInt8)
    (scalarSize : ℕ) :
    exp base scalar scalarSize =
      base ^ ByteMemory.load scalar 0 scalarSize := by
  have loops :=
    @expLoop_eq K _ base scalar scalarSize (scalarSize * 8) le_rfl
  have none : ByteMemory.load scalar 0 scalarSize / 2 ^ (scalarSize * 8) = 0 := by
    refine Nat.div_eq_of_lt ?_
    have below := ByteMemory.load_lt scalar 0 scalarSize
    rw [mul_comm, pow_mul]
    norm_num
    exact below
  rw [none, if_pos rfl] at loops
  unfold exp
  rw [loops]
  split_ifs with zero
  · rw [zero, pow_zero]
    rfl
  · rfl

end Powers

section Parts

variable
    {K : Type}
    [Field K]
    {nRoots nThreads : ℕ}

/-- A thread fills in the powers of its part, and nothing else. -/
theorem fillRoots_spec
    {idThread : ℕ}
    (fits : partEnd nRoots nThreads idThread < 2 ^ 64)
    (roots : ℕ → K)
    (i : ℕ) :
    fillRoots nRoots nThreads idThread roots i =
      if partStart nRoots nThreads idThread ≤ i ∧
          i < partEnd nRoots nThreads idThread then
        roots 1 ^ i
      else
        roots i := by
  unfold fillRoots
  generalize partStart nRoots nThreads idThread = start
  generalize partEnd nRoots nThreads idThread = stop at fits
  simp only
  split
  next some =>
    have power : exp (roots 1) (ByteMemory.bytes start) 8 = roots 1 ^ start := by
      have word : (256 : ℕ) ^ 8 = 2 ^ 64 := by norm_num
      rw [exp_eq, ByteMemory.load_bytes, word, Nat.mod_eq_of_lt (by omega)]
    rw [power]
    have filled :=
      @Imperative.foldl_range_invariant _ (stop - (start + 1))
        (fun count (current : ℕ → K) =>
          ∀ i,
            current i =
              if start ≤ i ∧ i < start + 1 + count then
                roots 1 ^ i
              else
                roots i)
        (fun roots offset =>
          Function.update roots (start + 1 + offset)
            (roots (start + 1 + offset - 1) * roots 1))
        (Function.update roots start (roots 1 ^ start))
        (by
          intro i
          rcases eq_or_ne i start with rfl | differs
          · rw [Function.update_self, if_pos (by omega)]
          · rw [Function.update_of_ne differs, if_neg (by omega)])
        (by
          intro current count below correct i
          have one : current 1 = roots 1 := by
            rw [correct 1]
            split
            · exact pow_one _
            · rfl
          rcases eq_or_ne i (start + 1 + count) with rfl | differs
          · rw [Function.update_self, one, correct, if_pos (by omega),
              if_pos (by omega), ← pow_succ]
            congr 1
            omega
          · rw [Function.update_of_ne differs, correct]
            congr 1
            apply propext
            omega)
    rw [filled i]
    congr 1
    apply propext
    omega
  next none =>
    have empty : stop - (start + 1) = 0 := by omega
    rw [empty, if_neg (by omega)]
    rfl

/-- Every part ends within the table. -/
theorem partEnd_le
    {idThread : ℕ}
    (isThread : idThread < nThreads) :
    partEnd nRoots nThreads idThread ≤ nRoots := by
  unfold partEnd
  split
  · exact le_rfl
  · calc
      (idThread + 1) * (nRoots / nThreads) ≤
          nThreads * (nRoots / nThreads) :=
        Nat.mul_le_mul_right _ isThread
      _ ≤ nRoots := Nat.mul_div_le nRoots nThreads

/-- Every power past the first two is in the part of some thread. -/
theorem exists_part
    (threads : 0 < nThreads)
    {i : ℕ}
    (later : 2 ≤ i)
    (inside : i < nRoots) :
    ∃ idThread < nThreads,
      partStart nRoots nThreads idThread ≤ i ∧
        i < partEnd nRoots nThreads idThread := by
  unfold partStart partEnd
  rcases Nat.lt_or_ge i ((nThreads - 1) * (nRoots / nThreads)) with early | late
  · have positive : 0 < nRoots / nThreads := by
      by_contra none
      rw [Nat.eq_zero_of_not_pos none, mul_zero] at early
      exact Nat.not_lt_zero i early
    have own : i / (nRoots / nThreads) < nThreads - 1 :=
      (Nat.div_lt_iff_lt_mul positive).mpr early
    have next : i < (i / (nRoots / nThreads) + 1) * (nRoots / nThreads) :=
      (Nat.div_lt_iff_lt_mul positive).mp (Nat.lt_succ_self _)
    refine ⟨i / (nRoots / nThreads), by omega, ?_, ?_⟩
    · split
      · exact later
      · exact Nat.div_mul_le_self i _
    · rw [if_neg own.ne]
      exact next
  · refine ⟨nThreads - 1, by omega, ?_, ?_⟩
    · split
      · exact later
      · exact late
    · rw [if_pos rfl]
      exact inside

/-- The threads fill in all powers, in whatever order they come. -/
theorem parallelBlock_fillRoots
    {order : List ℕ}
    (areThreads : ∀ idThread ∈ order, idThread < nThreads)
    (fits : nRoots < 2 ^ 64)
    {roots : ℕ → K}
    {w : K}
    (one : roots 1 = w)
    {i : ℕ}
    (filled :
      roots i = w ^ i ∨
        ∃ idThread ∈ order,
          partStart nRoots nThreads idThread ≤ i ∧
            i < partEnd nRoots nThreads idThread) :
    ThreadPool.parallelBlock nThreads order (fillRoots nRoots) roots i =
      w ^ i := by
  induction order generalizing roots with
  | nil =>
      rcases filled with already | ⟨_, impossible, _⟩
      · exact already
      · exact absurd impossible List.not_mem_nil
  | cons idThread rest inductionHypothesis =>
      rw [List.forall_mem_cons] at areThreads
      have spec :=
        @fillRoots_spec K _ nRoots nThreads idThread
          ((partEnd_le areThreads.1).trans_lt fits) roots
      have kept : fillRoots nRoots nThreads idThread roots 1 = w := by
        rw [spec 1, one]
        split
        · exact pow_one _
        · rfl
      refine inductionHypothesis areThreads.2 kept ?_
      beta_reduce
      rw [spec i, one]
      split
      next own =>
        exact .inl rfl
      next other =>
        rcases filled with already | ⟨thread, member, within⟩
        · exact .inl already
        · rcases List.mem_cons.mp member with rfl | later
          · exact absurd within other
          · exact .inr ⟨thread, later, within⟩

/-- The inverses of the powers of two are the powers of that of two. -/
theorem fillPowTwoInv_eq
    {s : ℕ}
    {powTwoInv : ℕ → K}
    (zero : powTwoInv 0 = 1)
    {i : ℕ}
    (inside : i ≤ s)
    (positive : 0 < s) :
    fillPowTwoInv s powTwoInv i = powTwoInv 1 ^ i := by
  have filled :=
    @Imperative.foldl_range_invariant _ (s - 1)
      (fun count (current : ℕ → K) =>
        ∀ i < 2 + count, current i = powTwoInv 1 ^ i)
      (fun powTwoInv offset =>
        Function.update powTwoInv (2 + offset)
          (powTwoInv (2 + offset - 1) * powTwoInv 1))
      powTwoInv
      (by
        intro i first
        obtain rfl | rfl : i = 0 ∨ i = 1 := by omega
        · rw [zero, pow_zero]
        · rw [pow_one])
      (by
        intro current count _ correct i below
        rcases eq_or_ne i (2 + count) with rfl | differs
        · rw [Function.update_self, correct _ (by omega),
            correct 1 (by omega), pow_one, ← pow_succ]
          congr 1
          omega
        · rw [Function.update_of_ne differs]
          exact correct i (by omega))
  exact filled i (by omega)

/-- When every thread has filled its part, all powers are there. -/
theorem parallelBlock_fillRoots_eq
    (threads : 0 < nThreads)
    {order : List ℕ}
    (everyThread : order.Perm (List.range nThreads))
    (fits : nRoots < 2 ^ 64)
    (w : K) :
    ∀ i < nRoots,
      ThreadPool.parallelBlock nThreads order (fillRoots nRoots)
          (Function.update (fun i => if i = 0 then 1 else 0) 1 w) i =
        w ^ i := by
  intro i inside
  refine
    parallelBlock_fillRoots
      (fun idThread member =>
        List.mem_range.mp (everyThread.mem_iff.mp member))
      fits (Function.update_self _ _ _) ?_
  rcases Nat.lt_or_ge i 2 with first | later
  · obtain rfl | rfl : i = 0 ∨ i = 1 := by omega
    · exact .inl (by simp)
    · exact .inl (by simp)
  · obtain ⟨idThread, isThread, within⟩ := exists_part threads later inside
    exact
      .inr
        ⟨idThread, everyThread.mem_iff.mpr (List.mem_range.mpr isThread),
          within⟩

end Parts

section Root

/-- The order is split into a power of two and what is left. -/
theorem splitOrder_spec
    {total : ℕ}
    (domainPow s m_aux : ℕ)
    (product : 2 ^ s * m_aux = total) :
    let (s', rest) := splitOrder domainPow s m_aux
    2 ^ s' * rest = total ∧
      s ≤ s' ∧
      s' ≤ max s domainPow ∧
      (s' < domainPow → rest % 2 = 1) := by
  induction s, m_aux using splitOrder.induct domainPow with
  | case1 s m_aux even inductionHypothesis =>
      rw [splitOrder, if_pos even]
      have isEven : m_aux % 2 = 0 := by
        have low := even.1
        rw [Nat.testBit_zero, decide_eq_false_iff_not] at low
        omega
      have halved : 2 ^ (s + 1) * (m_aux / 2) = total := by
        rw [← product, pow_succ, mul_assoc, Nat.mul_div_cancel' (by omega)]
      have split := inductionHypothesis halved
      generalize splitOrder domainPow (s + 1) (m_aux / 2) = result at split
      obtain ⟨whole, above, most, odd⟩ := split
      exact ⟨whole, by omega, by omega, odd⟩
  | case2 s m_aux stop =>
      rw [splitOrder, if_neg stop]
      refine ⟨product, le_rfl, le_max_left _ _, fun below => ?_⟩
      have isOdd : ¬ m_aux.testBit 0 = false := fun even => stop ⟨even, below⟩
      rw [Nat.testBit_zero, decide_eq_false_iff_not, not_not] at isOdd
      exact isOdd

variable {q : ℕ}

/-- The search ends at a number that is no square if one is in reach. -/
theorem findNqr_spec
    {steps m_nqr found : ℕ}
    (reach : m_nqr ≤ found ∧ found < m_nqr + steps)
    (isFound : ¬ found ^ ((q - 1) / 2) % q = 1) :
    ¬ findNqr q steps m_nqr ^ ((q - 1) / 2) % q = 1 ∧
      m_nqr ≤ findNqr q steps m_nqr ∧
      findNqr q steps m_nqr ≤ found := by
  induction steps generalizing m_nqr with
  | zero =>
      omega
  | succ steps inductionHypothesis =>
      rw [findNqr]
      split
      next isSquare =>
        have further : m_nqr ≠ found := by
          rintro rfl
          exact isFound isSquare
        obtain ⟨notSquare, least, most⟩ :=
          @inductionHypothesis (m_nqr + 1) ⟨by omega, by omega⟩
        exact ⟨notSquare, by omega, most⟩
      next notSquare =>
        exact ⟨notSquare, le_rfl, reach.1⟩

variable [Fact q.Prime]

/-- The remainder of a number is one exactly if it is one in the field. -/
theorem mod_eq_one_iff
    (number : ℕ) :
    number % q = 1 ↔ (number : ZMod q) = 1 := by
  have one : 1 % q = 1 := Nat.mod_eq_of_lt (Fact.out : q.Prime).one_lt
  rw [← Nat.cast_one (R := ZMod q), ZMod.natCast_eq_natCast_iff', one]

/-- The number found is not zero and no square of the field. -/
theorem findNqr_pow
    (odd : q ≠ 2) :
    (findNqr q q 2 : ZMod q) ≠ 0 ∧
      (findNqr q q 2 : ZMod q) ^ ((q - 1) / 2) ≠ 1 := by
  have prime := (Fact.out : q.Prime)
  have isOdd := prime.odd_of_ne_two odd
  have half : q / 2 = (q - 1) / 2 := by
    obtain ⟨k, rfl⟩ := isOdd
    omega
  have characteristic : ringChar (ZMod q) ≠ 2 := by
    rw [ZMod.ringChar_zmod_n]
    exact odd
  obtain ⟨a, notSquare⟩ := FiniteField.exists_nonsquare characteristic
  have nonzero : a ≠ 0 := by
    rintro rfl
    exact notSquare (IsSquare.zero)
  have power : a ^ ((q - 1) / 2) ≠ 1 := by
    rw [← half]
    exact mt (ZMod.euler_criterion q nonzero).mpr notSquare
  have isFound : ¬ a.val ^ ((q - 1) / 2) % q = 1 := by
    rw [mod_eq_one_iff]
    push_cast
    rw [ZMod.natCast_zmod_val]
    exact power
  have large : 2 ≤ a.val := by
    have notZero : a.val ≠ 0 := by
      rwa [ne_eq, ZMod.val_eq_zero]
    have notOne : a.val ≠ 1 := by
      intro one
      rw [one, one_pow] at isFound
      exact isFound (Nat.mod_eq_of_lt prime.one_lt)
    omega
  obtain ⟨found, least, most⟩ :=
    @findNqr_spec q q 2 a.val ⟨large, by have := a.val_lt; omega⟩ isFound
  rw [mod_eq_one_iff] at found
  push_cast at found
  refine ⟨?_, found⟩
  rw [ne_eq, ZMod.natCast_eq_zero_iff]
  intro divides
  have below := a.val_lt
  exact absurd (Nat.le_of_dvd (by omega) divides) (by omega)

/-- The odd part of the order takes what is no square to a root of unity. -/
theorem isPrimitiveRoot_pow
    {z : ZMod q}
    (nonzero : z ≠ 0)
    (notSquare : z ^ ((q - 1) / 2) ≠ 1)
    {s m_aux : ℕ}
    (positive : 1 ≤ s)
    (product : 2 ^ s * m_aux = q - 1) :
    IsPrimitiveRoot (z ^ m_aux) (2 ^ s) := by
  obtain ⟨rest, rfl⟩ := Nat.exists_eq_add_of_le' positive
  have half : m_aux * 2 ^ rest = (q - 1) / 2 := by
    have twice : 2 ^ rest * 2 * m_aux = m_aux * 2 ^ rest * 2 := by ring
    rw [← product, pow_succ, twice, Nat.mul_div_cancel _ Nat.two_pos]
  have order : orderOf (z ^ m_aux) = 2 ^ (rest + 1) := by
    refine orderOf_eq_prime_pow ?_ ?_
    · rw [← pow_mul, half]
      exact notSquare
    · rw [← pow_mul, mul_comm, product]
      exact ZMod.pow_card_sub_one_eq_one nonzero
  rw [← order]
  exact IsPrimitiveRoot.orderOf _

/-- In a field of odd order two is not zero. -/
theorem two_ne_zero_of_ne
    (odd : q ≠ 2) :
    (2 : ZMod q) ≠ 0 := by
  have notZero : ((2 : ℕ) : ZMod q) ≠ 0 := by
    rw [ne_eq, ZMod.natCast_eq_zero_iff]
    intro factor
    exact odd ((Nat.prime_dvd_prime_iff_eq Fact.out Nat.prime_two).mp factor)
  exact_mod_cast notZero

/-- The constructor asserts that the size is not zero. -/
theorem construct_zero
    (nThreads : ℕ)
    (order : List ℕ) :
    construct q 0 nThreads order = .error .assertion :=
  rfl

/--
The constructor refuses a size exactly if the field has no root of unity for
it; else its tables are those of a root of unity, for every number of threads
and in whatever order these fill them in.
-/
theorem construct_cases
    (odd : q ≠ 2)
    {maxDomainSize nThreads : ℕ}
    (nonempty : maxDomainSize ≠ 0)
    (fits : log2 maxDomainSize < 63)
    (threads : 0 < nThreads)
    {order : List ℕ}
    (everyThread : order.Perm (List.range nThreads)) :
    if 2 ^ log2 maxDomainSize ∣ q - 1 then
      ∃ F,
        construct q maxDomainSize nThreads order = .ok F ∧
          F.Valid ∧
          log2 maxDomainSize ≤ F.s
    else
      construct q maxDomainSize nThreads order =
        .error (.rangeError "Domain size too big for the curve") := by
  have prime := (Fact.out : q.Prime)
  obtain ⟨k, isOdd⟩ := prime.odd_of_ne_two odd
  obtain ⟨nonzero, notSquare⟩ := @findNqr_pow q _ odd
  have split :=
    @splitOrder_spec (q - 1) (log2 maxDomainSize) 1 ((q - 1) / 2) (by omega)
  unfold construct
  rw [if_neg nonempty]
  simp only at split ⊢
  generalize findNqr q q 2 = m_nqr at nonzero notSquare ⊢
  generalize
    splitOrder (log2 maxDomainSize) 1 ((q - 1) / 2) = result at split ⊢
  obtain ⟨s, m_aux⟩ := result
  obtain ⟨product, positive, most, oddRest⟩ := split
  simp only at product positive most oddRest ⊢
  by_cases short : s < log2 maxDomainSize
  · rw [if_pos short, if_neg]
    intro divides
    have further : 2 ^ (s + 1) ∣ 2 ^ s * m_aux := by
      rw [product]
      exact (pow_dvd_pow 2 short).trans divides
    rw [pow_succ] at further
    have even := Nat.dvd_of_mul_dvd_mul_left (by positivity) further
    have rest := oddRest short
    omega
  · have known : log2 maxDomainSize ≤ s := Nat.not_lt.mp short
    have divides : 2 ^ log2 maxDomainSize ∣ q - 1 := by
      rw [← product]
      exact (pow_dvd_pow 2 known).mul_right m_aux
    rw [if_neg short, if_pos divides]
    have root :
        ((m_nqr ^ m_aux % q : ℕ) : ZMod q) = (m_nqr : ZMod q) ^ m_aux := by
      rw [ZMod.natCast_mod]
      push_cast
      rfl
    have two := two_ne_zero_of_ne odd
    rw [root]
    generalize isRoot : (m_nqr : ZMod q) ^ m_aux = w
    have primitive : IsPrimitiveRoot w (2 ^ s) := by
      rw [← isRoot]
      exact isPrimitiveRoot_pow nonzero notSquare positive product
    have size : 1 < 2 ^ s := Nat.one_lt_two_pow (by omega)
    have small : 2 ^ s < 2 ^ 64 :=
      Nat.pow_lt_pow_right Nat.one_lt_two (by omega)
    have filled :
        ∀ i < 2 ^ s,
          ThreadPool.parallelBlock nThreads order (fillRoots (1 <<< s))
              (Function.update (fun i => if i = 0 then 1 else 0) 1 w) i =
            w ^ i := by
      rw [Nat.one_shiftLeft]
      exact parallelBlock_fillRoots_eq threads everyThread small w
    generalize
      ThreadPool.parallelBlock nThreads order (fillRoots (1 <<< s))
        (Function.update (fun i => if i = 0 then 1 else 0) 1 w) = roots
      at filled ⊢
    have one := filled 1 size
    rw [pow_one] at one
    have closes : roots (1 <<< s - 1) * roots 1 = 1 := by
      rw [Nat.one_shiftLeft, filled _ (by omega), one, ← pow_succ,
        Nat.sub_add_cancel size.le]
      exact primitive.pow_eq_one
    rw [if_pos closes]
    refine ⟨_, rfl, ⟨?_, ?_, ?_⟩, known⟩
    · simp only [one]
      exact primitive
    · simp only [one]
      exact filled
    · intro i known
      simp only at known ⊢
      rw [fillPowTwoInv_eq (by simp) known positive, Function.update_self,
        ← mul_pow, inv_mul_cancel₀ two, one_pow]

/-- What the constructor returns are valid tables for the size. -/
theorem construct_valid
    (odd : q ≠ 2)
    {maxDomainSize nThreads : ℕ}
    (fits : log2 maxDomainSize < 63)
    (threads : 0 < nThreads)
    {order : List ℕ}
    (everyThread : order.Perm (List.range nThreads))
    {F : FFT (ZMod q)}
    (constructed : construct q maxDomainSize nThreads order = .ok F) :
    maxDomainSize ≠ 0 ∧
      2 ^ log2 maxDomainSize ∣ q - 1 ∧
      F.Valid ∧
      log2 maxDomainSize ≤ F.s := by
  have nonempty : maxDomainSize ≠ 0 := by
    rintro rfl
    rw [construct_zero] at constructed
    cases constructed
  have spec :=
    @construct_cases q _ odd maxDomainSize nThreads nonempty fits threads order
      everyThread
  split at spec
  next divides =>
    obtain ⟨G, isG, valid, above⟩ := spec
    rw [constructed, Except.ok.injEq] at isG
    subst isG
    exact ⟨nonempty, divides, valid, above⟩
  next indivisible =>
    rw [constructed] at spec
    cases spec

/--
The constructor returns tables exactly if the size is not zero and the field
has a root of unity for it, and those that it returns are valid, for every
number of threads, in whatever order these come; it refuses a size for which
the field has no root, and aborts only on zero.
-/
theorem construct_valid_iff
    (odd : q ≠ 2)
    {maxDomainSize nThreads : ℕ}
    (fits : log2 maxDomainSize < 63)
    (threads : 0 < nThreads)
    {order : List ℕ}
    (everyThread : order.Perm (List.range nThreads)) :
    ((∃ F, construct q maxDomainSize nThreads order = .ok F) ↔
        maxDomainSize ≠ 0 ∧ 2 ^ log2 maxDomainSize ∣ q - 1) ∧
      (∀ F,
        construct q maxDomainSize nThreads order = .ok F →
          F.Valid ∧ log2 maxDomainSize ≤ F.s) ∧
      (construct q maxDomainSize nThreads order =
          .error (.rangeError "Domain size too big for the curve") ↔
        maxDomainSize ≠ 0 ∧ ¬ 2 ^ log2 maxDomainSize ∣ q - 1) ∧
      (construct q maxDomainSize nThreads order = .error .assertion ↔
        maxDomainSize = 0) := by
  have valid :=
    @construct_valid q _ odd maxDomainSize nThreads fits threads order
      everyThread
  rcases eq_or_ne maxDomainSize 0 with rfl | nonempty
  · rw [construct_zero]
    simp
  · have spec :=
      @construct_cases q _ odd maxDomainSize nThreads nonempty fits threads
        order everyThread
    split at spec
    next divides =>
      obtain ⟨F, constructed, -⟩ := spec
      refine ⟨by simp [constructed, nonempty, divides], ?_, ?_, ?_⟩
      · intro G returned
        exact (valid returned).2.2
      · simp [constructed, divides]
      · simp [constructed, nonempty]
    next indivisible =>
      simp [spec, nonempty, indivisible]

/--
Two threads construct tables for a million elements of the field of the
circuits, and refuse a size past its last root of unity.
-/
theorem construct_fr_valid :
    (∃ F,
      construct bn254Prime (2 ^ 20) 2 [1, 0] = .ok F ∧
        F.Valid ∧
        log2 (2 ^ 20) ≤ F.s) ∧
      construct bn254Prime (2 ^ 29) 2 [1, 0] =
        .error (.rangeError "Domain size too big for the curve") := by
  have million :=
    @construct_valid_iff bn254Prime _ (by decide) (2 ^ 20) 2
      (by rw [log2_two_pow]; decide) Nat.two_pos [1, 0] (List.Perm.swap 0 1 [])
  have beyond :=
    @construct_valid_iff bn254Prime _ (by decide) (2 ^ 29) 2
      (by rw [log2_two_pow]; decide) Nat.two_pos [1, 0] (List.Perm.swap 0 1 [])
  rw [log2_two_pow] at million beyond
  obtain ⟨F, constructed⟩ :=
    million.1.mpr
      ⟨by decide, Nat.dvd_of_mod_eq_zero (by decide)⟩
  rw [log2_two_pow]
  refine ⟨⟨F, constructed, million.2.1 F constructed⟩, ?_⟩
  refine beyond.2.2.1.mpr ⟨by decide, fun divides => ?_⟩
  exact absurd (Nat.mod_eq_zero_of_dvd divides) (by decide)

/--
With the tables constructed, every array whose length is a power of two up to
the size is evaluated at the powers of a root of unity, and nothing beyond it
changes; the inverse undoes this, and is undone by it.
-/
theorem construct_transforms
    (odd : q ≠ 2)
    {maxDomainSize nThreads : ℕ}
    (fits : log2 maxDomainSize < 63)
    (threads : 0 < nThreads)
    {order : List ℕ}
    (everyThread : order.Perm (List.range nThreads))
    {F : FFT (ZMod q)}
    (constructed : construct q maxDomainSize nThreads order = .ok F)
    {bits : ℕ}
    (known : bits ≤ log2 maxDomainSize)
    (most : bits < 31) :
    ∃ w : ZMod q,
      IsPrimitiveRoot w (2 ^ bits) ∧
        ∀ (others : ℕ) (a : ℕ → ZMod q),
          0 < others →
          ∀ j,
            F.fft others a (2 ^ bits) j =
                (if j < 2 ^ bits then transform w (2 ^ bits) a j else a j) ∧
              F.ifft others (F.fft others a (2 ^ bits)) (2 ^ bits) j = a j ∧
              F.fft others (F.ifft others a (2 ^ bits)) (2 ^ bits) j = a j := by
  obtain ⟨-, -, valid, above⟩ :=
    construct_valid odd fits threads everyThread constructed
  have inTable : bits ≤ F.s := known.trans above
  refine ⟨F.unity bits, valid.isPrimitiveRoot inTable, ?_⟩
  intro others a someThread j
  obtain ⟨inside, outside⟩ := valid.fft_eq someThread inTable most a
  by_cases isIndex : j < 2 ^ bits
  · rw [if_pos isIndex]
    exact
      ⟨inside j isIndex, valid.ifft_fft someThread inTable most a isIndex⟩
  · have past : j ≥ 2 ^ bits := Nat.not_lt.mp isIndex
    have back := (valid.ifft_eq someThread inTable most a).2 j past
    rw [if_neg isIndex, (valid.ifft_eq someThread inTable most _).2 j past,
      outside j past, (valid.fft_eq someThread inTable most _).2 j past]
    exact ⟨rfl, rfl, back⟩

/-- Two threads construct tables for a million elements of that field. -/
theorem fr_tables :
    ∃ F,
      construct bn254Prime (2 ^ 20) 2 [1, 0] = .ok F ∧ F.Valid ∧ 20 ≤ F.s := by
  have spec :=
    @construct_cases bn254Prime _ (by decide) (2 ^ 20) 2 (by decide)
      (by rw [log2_two_pow]; decide) Nat.two_pos [1, 0] (List.Perm.swap 0 1 [])
  have divides : 2 ^ log2 (2 ^ 20) ∣ bn254Prime - 1 := by
    rw [log2_two_pow]
    exact Nat.dvd_of_mod_eq_zero (by decide)
  rw [if_pos divides, log2_two_pow] at spec
  exact spec

/-- Eight elements of the field of the circuits and back. -/
theorem construct_fr_transforms :
    ∃ F : FFT Fr,
      construct bn254Prime (2 ^ 20) 2 [1, 0] = .ok F ∧
        F.ifft 3 (F.fft 3 (fun i => (i : Fr)) (2 ^ 3)) (2 ^ 3) 5 = (5 : ℕ) := by
  obtain ⟨F, constructed, -⟩ := fr_tables
  obtain ⟨w, -, transforms⟩ :=
    construct_transforms (by decide) (by rw [log2_two_pow]; decide)
      Nat.two_pos (List.Perm.swap 0 1 []) constructed
      (show 3 ≤ log2 (2 ^ 20) by rw [log2_two_pow]; decide) (by decide)
  exact ⟨F, constructed, (transforms 3 _ (by decide) 5).2.1⟩

end Root

end FFT

end StarkCash.Rapidsnark
