import StarkCash.FftTables
import StarkCash.ThreadPoolResults

namespace StarkCash.Rapidsnark

/-!
# Transforms under every schedule

The iterations of the loops of a transform as accesses to the array they share.
No two iterations of a loop touch the same element, so that whatever the
schedules of the threads in all of the loops, the array is the transform in
the end.
-/

open FourierTransform
open SharedStore
open ThreadPool (LoopRun)

namespace FFT

section Scripts

variable
    {K : Type}

/-- Exchange an element with the one at its reversed index, in memory. -/
def exchangeScript
    (domainPow : ℕ)
    (i : ℤ) : Script ℕ K Unit :=
  let r := BR i.toNat domainPow
  if i.toNat > r then do
    let tmp ← Script.read i.toNat
    let other ← Script.read r
    Script.change i.toNat fun _ => other
    Script.change r fun _ => tmp
  else
    pure ()

variable [Field K]

/-- Join a pair of elements at a stage, in memory. -/
def butterflyScript
    (F : FFT K)
    (s : ℕ)
    (i : ℤ) : Script ℕ K Unit :=
  let m := 1 <<< s
  let mdiv2 := m >>> 1
  let k := i.toNat / mdiv2 * m
  let j := i.toNat % mdiv2
  do
    let high ← Script.read (k + j + mdiv2)
    let u ← Script.read (k + j)
    let t := high.map fun high => F.root s j * high
    Script.change (k + j) fun _ => t.bind fun t => u.map fun u => t + u
    Script.change (k + j + mdiv2) fun _ =>
      t.bind fun t => u.map fun u => u - t

/-- Exchange an element with the one as far from the end, in memory. -/
def turnAroundScript
    (F : FFT K)
    (n : ℕ)
    (i : ℤ) : Script ℕ K Unit :=
  let r := n - i.toNat
  do
    let tmp ← Script.read i.toNat
    let other ← Script.read r
    Script.change i.toNat fun _ =>
      other.map fun other => other * F.powTwoInv (log2 n)
    Script.change r fun _ => tmp.map fun tmp => tmp * F.powTwoInv (log2 n)

end Scripts

section Iterations

variable
    {K : Type}

/-- Writing twice leaves both contents. -/
theorem run_writes
    (memory : ℕ → K)
    (first second : ℕ)
    (content other : K) :
    ((do
        Script.write first content
        Script.write second other : Script ℕ K Unit).run
          (Script.held memory)).2 =
      Script.held
        (Function.update (Function.update memory first content) second
          other) := by
  rw [Script.run_write_bind]
  exact Script.update_held _ _ _

/-- An exchange in memory is the exchange. -/
theorem exchangeScript_run
    (domainPow : ℕ)
    (a : ℕ → K)
    (i : ℤ) :
    ((exchangeScript domainPow i).run (Script.held a)).2 =
      Script.held (exchangeReversed domainPow a i.toNat) := by
  simp only [exchangeScript, exchangeReversed]
  split
  · rw [Script.run_read_bind, Script.run_read_bind]
    exact run_writes a _ _ _ _
  · rfl

/-- An exchange touches the two elements, if any. -/
theorem exchangeScript_within
    (domainPow : ℕ)
    (i : ℤ) :
    (exchangeScript domainPow i : Script ℕ K Unit).Within
      {place |
        i.toNat > BR i.toNat domainPow ∧
          (place = i.toNat ∨ place = BR i.toNat domainPow)} := by
  simp only [exchangeScript]
  split
  next larger =>
    exact
      ⟨⟨larger, .inl rfl⟩, fun _ => ⟨⟨larger, .inr rfl⟩, fun _ =>
        ⟨⟨larger, .inl rfl⟩, fun _ => ⟨⟨larger, .inr rfl⟩, fun _ => trivial⟩⟩⟩⟩
  next smaller =>
    exact trivial

/-- An exchange makes four accesses. -/
theorem exchangeScript_atMost
    (domainPow : ℕ)
    (i : ℤ) :
    (exchangeScript domainPow i : Script ℕ K Unit).AtMost 4 := by
  simp only [exchangeScript]
  split
  · exact fun _ _ _ _ => trivial
  · exact trivial

variable [Field K]

/-- A butterfly in memory is the butterfly. -/
theorem butterflyScript_run
    (F : FFT K)
    (s : ℕ)
    (a : ℕ → K)
    (i : ℤ) :
    ((F.butterflyScript s i).run (Script.held a)).2 =
      Script.held (F.butterfly s a i.toNat) := by
  simp only [butterflyScript, butterfly]
  rw [Script.run_read_bind, Script.run_read_bind]
  exact run_writes a _ _ _ _

/-- A butterfly touches its pair. -/
theorem butterflyScript_within
    (F : FFT K)
    (done : ℕ)
    (i : ℤ) :
    (F.butterflyScript (done + 1) i).Within
      {lower done i.toNat, lower done i.toNat + 2 ^ done} := by
  have half : 2 ^ (done + 1) / 2 = 2 ^ done := by
    rw [pow_succ, Nat.mul_div_cancel _ Nat.two_pos]
  simp only [butterflyScript, Nat.one_shiftLeft, Nat.shiftRight_one, half]
  exact
    ⟨.inr rfl, fun _ => ⟨.inl rfl, fun _ => ⟨.inl rfl, fun _ =>
      ⟨.inr rfl, fun _ => trivial⟩⟩⟩⟩

/-- Turning around in memory is turning around. -/
theorem turnAroundScript_run
    (F : FFT K)
    (n : ℕ)
    (a : ℕ → K)
    (i : ℤ) :
    ((F.turnAroundScript n i).run (Script.held a)).2 =
      Script.held (F.turnAround n a i.toNat) := by
  simp only [turnAroundScript, turnAround]
  rw [Script.run_read_bind, Script.run_read_bind]
  exact run_writes a _ _ _ _

/-- Turning around touches the element and its mirror. -/
theorem turnAroundScript_within
    (F : FFT K)
    (n : ℕ)
    (i : ℤ) :
    (F.turnAroundScript n i).Within {i.toNat, n - i.toNat} :=
  ⟨.inl rfl, fun _ => ⟨.inr rfl, fun _ => ⟨.inl rfl, fun _ =>
    ⟨.inr rfl, fun _ => trivial⟩⟩⟩⟩

end Iterations

section Loops

variable
    {K : Type}
    {nThreads bits : ℕ}

/-- The exchanges of a permutation leave the permutation. -/
theorem exchangeScript_loopRun
    (threads : 0 < nThreads)
    (most : bits < 31)
    {before after : ℕ → K} :
    LoopRun nThreads 0 (asInt (2 ^ bits)) (exchangeScript bits) before after ↔
      after = reversePermutation nThreads before (2 ^ bits) := by
  have fits : 2 ^ bits < 2 ^ 31 := Nat.pow_lt_pow_right Nat.one_lt_two most
  have permutation :
      reversePermutation nThreads before (2 ^ bits) =
        ThreadPool.parallelFor nThreads 0 (asInt (2 ^ bits))
          (JobRange.forLoop fun a i => exchangeReversed bits a i.toNat)
          before := by
    simp only [reversePermutation, log2_two_pow]
  rw [permutation]
  refine
    ThreadPool.loopRun_iff threads (exchangeScript_run bits)
      (exchangeScript_atMost bits) (exchangeScript_within bits) ?_
  intro i other isIndex isOther differs
  rw [asInt_eq fits] at isIndex isOther
  have back := @BR_eq i.toNat bits (by omega) (by omega)
  have otherBack := @BR_eq other.toNat bits (by omega) (by omega)
  have mirrored := @reverse_reverse bits i.toNat (by omega)
  have otherMirrored := @reverse_reverse bits other.toNat (by omega)
  rw [back, otherBack]
  refine Set.disjoint_left.mpr ?_
  rintro place ⟨larger, touched⟩ ⟨otherLarger, also⟩
  rcases touched with rfl | rfl
  · rcases also with same | same
    · omega
    · rw [same] at larger mirrored
      rw [otherMirrored] at larger
      omega
  · rcases also with same | same
    · rw [same] at mirrored
      omega
    · rw [same, otherMirrored] at mirrored
      omega

variable [Field K]

/-- The butterflies of a stage leave the stage. -/
theorem butterflyScript_loopRun
    (F : FFT K)
    (threads : 0 < nThreads)
    (stop : ℤ)
    (done : ℕ)
    {before after : ℕ → K} :
    LoopRun nThreads 0 stop (F.butterflyScript (done + 1)) before after ↔
      after =
        ThreadPool.parallelFor nThreads 0 stop
          (JobRange.forLoop fun a i => F.butterfly (done + 1) a i.toNat)
          before := by
  refine
    @ThreadPool.loopRun_iff _ _ _ _ _ _ _ _ _ threads
      (F.butterflyScript_run (done + 1)) 4 (fun _ _ _ _ _ => trivial)
      (F.butterflyScript_within done) ?_ _ _
  intro i other isIndex isOther differs
  obtain ⟨apart, own⟩ := lower_apart done i.toNat other.toNat
  obtain ⟨otherApart, -⟩ := lower_apart done other.toNat i.toNat
  have distinct : lower done i.toNat ≠ lower done other.toNat := by
    intro same
    have index := own same
    omega
  refine Set.disjoint_left.mpr ?_
  rintro place (rfl | rfl) (same | same)
  · exact distinct same
  · exact apart same
  · exact otherApart same.symm
  · exact distinct (Nat.add_right_cancel same)

/-- The loop that turns around leaves the array turned around. -/
theorem turnAroundScript_loopRun
    (F : FFT K)
    (threads : 0 < nThreads)
    (most : bits < 31)
    {before after : ℕ → K} :
    LoopRun nThreads 1 (asInt (2 ^ bits >>> 1)) (F.turnAroundScript (2 ^ bits))
        before after ↔
      after =
        ThreadPool.parallelFor nThreads 1 (asInt (2 ^ bits >>> 1))
          (JobRange.forLoop fun a i => F.turnAround (2 ^ bits) a i.toNat)
          before := by
  have fits : 2 ^ bits >>> 1 < 2 ^ 31 := by
    have small : 2 ^ bits < 2 ^ 31 := Nat.pow_lt_pow_right Nat.one_lt_two most
    rw [Nat.shiftRight_one]
    omega
  refine
    @ThreadPool.loopRun_iff _ _ _ _ _ _ _ _ _ threads
      (F.turnAroundScript_run (2 ^ bits)) 4 (fun _ _ _ _ _ => trivial)
      (F.turnAroundScript_within (2 ^ bits)) ?_ _ _
  intro i other isIndex isOther differs
  rw [asInt_eq fits, Nat.shiftRight_one] at isIndex isOther
  refine Set.disjoint_left.mpr ?_
  rintro place (rfl | rfl) (same | same)
  · omega
  · rw [Set.mem_singleton_iff] at same
    omega
  · omega
  · rw [Set.mem_singleton_iff] at same
    omega

/-- Stages one after another, each under a schedule of its own. -/
inductive Stages
    (F : FFT K)
    (nThreads n : ℕ) :
    ℕ → (ℕ → K) → (ℕ → K) → Prop where
  | none (a : ℕ → K) :
      Stages F nThreads n 0 a a
  | next
      {count : ℕ}
      {before middle after : ℕ → K}
      (stages : Stages F nThreads n count before middle)
      (stage :
        LoopRun nThreads 0 (asInt (n >>> 1)) (F.butterflyScript (count + 1))
          middle after) :
      Stages F nThreads n (count + 1) before after

/-- What a transform may leave, the loops under schedules of their own. -/
inductive FftRun
    (F : FFT K)
    (nThreads n : ℕ) :
    (ℕ → K) → (ℕ → K) → Prop where
  | intro
      {before permuted after : ℕ → K}
      (permutation :
        LoopRun nThreads 0 (asInt n) (exchangeScript (log2 n)) before permuted)
      (stages : Stages F nThreads n (log2 n) permuted after) :
      FftRun F nThreads n before after

/-- What an inverse may leave, the loops under schedules of their own. -/
inductive IfftRun
    (F : FFT K)
    (nThreads n : ℕ) :
    (ℕ → K) → (ℕ → K) → Prop where
  | intro
      {before transformed turned : ℕ → K}
      (transform : FftRun F nThreads n before transformed)
      (turning :
        LoopRun nThreads 1 (asInt (n >>> 1)) (F.turnAroundScript n) transformed
          turned) :
      IfftRun F nThreads n before
        (F.divideBy n (F.divideBy n turned 0) (n >>> 1))

/-- The stages leave what they compute. -/
theorem stages_iff
    {F : FFT K}
    (threads : 0 < nThreads)
    {n count : ℕ}
    {before after : ℕ → K} :
    Stages F nThreads n count before after ↔
      after =
        (List.range count).foldl
          (fun a index =>
            ThreadPool.parallelFor nThreads 0 (asInt (n >>> 1))
              (JobRange.forLoop fun a i =>
                F.butterfly (index + 1) a i.toNat) a)
          before := by
  induction count generalizing after with
  | zero =>
      constructor
      · intro stages
        cases stages
        rfl
      · rintro rfl
        exact .none _
  | succ count inductionHypothesis =>
      rw [List.range_succ, List.foldl_append]
      constructor
      · intro stages
        cases stages with
        | next earlier stage =>
            rw [inductionHypothesis.mp earlier] at stage
            exact (butterflyScript_loopRun F threads _ count).mp stage
      · intro isAfter
        refine .next (inductionHypothesis.mpr rfl) ?_
        exact (butterflyScript_loopRun F threads _ count).mpr isAfter

/-- A transform under schedules leaves the transform. -/
theorem fftRun_iff
    {F : FFT K}
    (threads : 0 < nThreads)
    (most : bits < 31)
    {before after : ℕ → K} :
    FftRun F nThreads (2 ^ bits) before after ↔
      after = F.fft nThreads before (2 ^ bits) := by
  constructor
  · rintro ⟨permutation, stages⟩
    rw [log2_two_pow] at permutation
    rw [(exchangeScript_loopRun threads most).mp permutation] at stages
    exact (stages_iff threads).mp stages
  · intro isAfter
    refine .intro ?_ ((stages_iff threads).mpr isAfter)
    rw [log2_two_pow]
    exact (exchangeScript_loopRun threads most).mpr rfl

/-- An inverse under schedules leaves the inverse. -/
theorem ifftRun_iff
    {F : FFT K}
    (threads : 0 < nThreads)
    (most : bits < 31)
    {before after : ℕ → K} :
    IfftRun F nThreads (2 ^ bits) before after ↔
      after = F.ifft nThreads before (2 ^ bits) := by
  constructor
  · rintro ⟨transform, turning⟩
    rw [(fftRun_iff threads most).mp transform] at turning
    rw [(turnAroundScript_loopRun F threads most).mp turning]
    rfl
  · rintro rfl
    exact
      .intro ((fftRun_iff threads most).mpr rfl)
        ((turnAroundScript_loopRun F threads most).mpr rfl)

/--
Whatever the schedules of the threads in all of the loops, a transform can
return and leaves the values at the powers of the root of unity, and an inverse
of what it leaves can return and leaves the array.
-/
theorem fftRun_transforms
    {F : FFT K}
    (valid : F.Valid)
    (threads : 0 < nThreads)
    (known : bits ≤ F.s)
    (most : bits < 31)
    (a : ℕ → K) :
    (∃ values result,
      FftRun F nThreads (2 ^ bits) a values ∧
        IfftRun F nThreads (2 ^ bits) values result) ∧
      ∀ values,
        FftRun F nThreads (2 ^ bits) a values →
        (∀ j < 2 ^ bits,
            values j = transform (F.unity bits) (2 ^ bits) a j) ∧
          ∀ result,
            IfftRun F nThreads (2 ^ bits) values result →
            ∀ j < 2 ^ bits, result j = a j := by
  refine
    ⟨⟨_, _, (fftRun_iff threads most).mpr rfl,
      (ifftRun_iff threads most).mpr rfl⟩, fun values run => ?_⟩
  rw [fftRun_iff threads most] at run
  subst run
  refine
    ⟨(valid.fft_eq threads known most a).1, fun result back j inside => ?_⟩
  rw [(ifftRun_iff threads most).mp back]
  exact (valid.ifft_fft threads known most a inside).1

/-- Eight elements and back, on two threads. -/
theorem fftRun_fr_transforms :
    ∃ (F : FFT Fr) (values result : ℕ → Fr),
      FftRun F 2 (2 ^ 3) (fun i => (i : Fr)) values ∧
        IfftRun F 2 (2 ^ 3) values result ∧
        result 5 = (5 : ℕ) := by
  obtain ⟨F, -, valid, large⟩ := fr_tables
  obtain ⟨⟨values, result, run, back⟩, transforms⟩ :=
    fftRun_transforms valid Nat.two_pos (show 3 ≤ F.s by omega) (by decide)
      fun i => (i : Fr)
  exact
    ⟨F, values, result, run, back,
      (transforms values run).2 result back 5 (by decide)⟩

end Loops

end FFT

end StarkCash.Rapidsnark
