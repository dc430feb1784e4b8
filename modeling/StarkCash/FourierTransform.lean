import Mathlib.Algebra.BigOperators.Intervals
import Mathlib.Algebra.BigOperators.Ring.Finset
import Mathlib.Algebra.Order.Field.Basic
import Mathlib.Data.Nat.Bitwise
import Mathlib.RingTheory.RootsOfUnity.PrimitiveRoots
import Mathlib.Tactic.LinearCombination
import StarkCash.Imperative

namespace FourierTransform

/-!
# Fourier transforms of length a power of two

The transform of a sequence evaluates it, as a polynomial, at the powers of a
root of unity.  In the arrangement of the inputs by their reversed indices it
is computed in place: a stage joins the transforms of two sequences into that
of the sequence they alternate in.  Reversing the order of the outputs, and
dividing by the length, inverts the transform.
-/

open Finset

section Reversal

/-- The lowest bits of an index in the reversed order. -/
def reverse : ℕ → ℕ → ℕ
  | 0, _ => 0
  | bits + 1, index => 2 ^ bits * (index % 2) + reverse bits (index / 2)

/-- A reversed index is below the length. -/
theorem reverse_lt
    (bits index : ℕ) :
    reverse bits index < 2 ^ bits := by
  induction bits generalizing index with
  | zero =>
      exact Nat.one_pos
  | succ bits inductionHypothesis =>
      have lower := inductionHypothesis (index / 2)
      have upper : 2 ^ bits * (index % 2) ≤ 2 ^ bits * 1 :=
        Nat.mul_le_mul_left _ (by omega)
      rw [reverse, pow_succ]
      omega

/-- Reversal mirrors the bits. -/
theorem testBit_reverse
    (bits index : ℕ)
    {bit : ℕ}
    (inside : bit < bits) :
    (reverse bits index).testBit bit = index.testBit (bits - 1 - bit) := by
  induction bits generalizing index bit with
  | zero =>
      exact absurd inside (Nat.not_lt_zero bit)
  | succ bits inductionHypothesis =>
      rw [reverse, Nat.testBit_two_pow_mul_add _ (reverse_lt _ _)]
      split
      next lower =>
        have mirrored : bits + 1 - 1 - bit = bits - 1 - bit + 1 := by omega
        rw [inductionHypothesis _ lower, mirrored, Nat.testBit_succ]
      next upper =>
        have top : bit = bits := by omega
        rw [top, Nat.sub_self, Nat.add_sub_cancel, Nat.sub_self,
          Nat.testBit_zero, Nat.testBit_zero, Nat.mod_mod]

/-- Reversing twice changes nothing. -/
theorem reverse_reverse
    {bits index : ℕ}
    (fits : index < 2 ^ bits) :
    reverse bits (reverse bits index) = index := by
  refine Nat.eq_of_testBit_eq fun bit => ?_
  rcases Nat.lt_or_ge bit bits with inside | outside
  · rw [testBit_reverse _ _ inside, testBit_reverse _ _ (by omega)]
    congr 1
    omega
  · have large : 2 ^ bits ≤ 2 ^ bit := Nat.pow_le_pow_right Nat.two_pos outside
    rw [Nat.testBit_lt_two_pow ((reverse_lt _ _).trans_le large),
      Nat.testBit_lt_two_pow (fits.trans_le large)]

/-- The reversal of an even index. -/
theorem reverse_even
    (bits index : ℕ) :
    reverse (bits + 1) (2 * index) = reverse bits index := by
  rw [reverse, Nat.mul_mod_right, mul_zero, zero_add,
    Nat.mul_div_cancel_left _ Nat.two_pos]

/-- The reversal of an odd index. -/
theorem reverse_odd
    (bits index : ℕ) :
    reverse (bits + 1) (2 * index + 1) = reverse bits index + 2 ^ bits := by
  have half : (2 * index + 1) / 2 = index := by omega
  have odd : (2 * index + 1) % 2 = 1 := by omega
  rw [reverse, half, odd, mul_one, add_comm]

end Reversal

section Swaps

variable {Content : Type}

/-- Exchange an index with its partner if the partner is smaller. -/
def exchange
    (partner : ℕ → ℕ)
    (contents : ℕ → Content)
    (index : ℕ) : ℕ → Content :=
  if index > partner index then
    Function.update
      (Function.update contents index (contents (partner index)))
      (partner index) (contents index)
  else
    contents

/-- Exchanging all partners takes every content from the partner. -/
theorem foldl_exchange
    {partner : ℕ → ℕ}
    {count : ℕ}
    (inside : ∀ index < count, partner index < count)
    (involutive : ∀ index < count, partner (partner index) = index)
    (contents : ℕ → Content) :
    let exchanged := (List.range count).foldl (exchange partner) contents
    (∀ index < count, exchanged index = contents (partner index)) ∧
      ∀ index ≥ count, exchanged index = contents index := by
  have processed :=
    @Imperative.foldl_range_invariant _ count
      (fun done (current : ℕ → Content) =>
        (∀ index < count,
          current index =
            if max index (partner index) < done then
              contents (partner index)
            else
              contents index) ∧
          ∀ index ≥ count, current index = contents index)
      (exchange partner) contents
      ⟨fun _ _ => rfl, fun _ _ => rfl⟩
      (by
        rintro current done below ⟨within, outside⟩
        have partnerInside := inside done below
        have back := involutive done below
        have own := within done below
        have other := within (partner done) partnerInside
        rw [back] at other
        unfold exchange
        constructor
        · intro index isIndex
          have found := within index isIndex
          have isPartner : partner index = done ↔ index = partner done := by
            constructor
            · intro same
              rw [← same, involutive index isIndex]
            · intro same
              rw [same, back]
          split_ifs with larger now now
          · rcases eq_or_ne index (partner done) with rfl | notPartner
            · rw [Function.update_self, own, if_neg (by omega), back]
            · rw [Function.update_of_ne notPartner]
              rcases eq_or_ne index done with rfl | notDone
              · rw [Function.update_self, other, if_neg (by omega)]
              · rw [Function.update_of_ne notDone, found, if_pos]
                have apart := mt isPartner.mp notPartner
                omega
          · rcases eq_or_ne index (partner done) with rfl | notPartner
            · rw [back] at now
              omega
            · rw [Function.update_of_ne notPartner]
              rcases eq_or_ne index done with rfl | notDone
              · omega
              · rw [Function.update_of_ne notDone, found, if_neg (by omega)]
          · rw [found]
            split_ifs with before
            · rfl
            · rcases eq_or_ne index done with rfl | notDone
              · have self : partner index = index := by omega
                rw [self]
              · have same : partner index = done := by omega
                have mirrored := isPartner.mp same
                omega
          · rw [found, if_neg (by omega)]
        · intro index past
          have notDone : index ≠ done := by omega
          have notPartner : index ≠ partner done := by omega
          split_ifs
          · rw [Function.update_of_ne notPartner,
              Function.update_of_ne notDone, outside index past]
          · exact outside index past)
  refine ⟨fun index isIndex => ?_, processed.2⟩
  have partnerInside := inside index isIndex
  rw [processed.1 index isIndex, if_pos (by omega)]

/-- Replace the contents of a pair of places by what both give. -/
def replacePair
    (lower upper : ℕ → ℕ)
    (first second : ℕ → Content → Content → Content)
    (contents : ℕ → Content)
    (index : ℕ) : ℕ → Content :=
  Function.update
    (Function.update contents (lower index)
      (first index (contents (lower index)) (contents (upper index))))
    (upper index)
    (second index (contents (lower index)) (contents (upper index)))

/-- Replacing pairs that have no place in common replaces each of them. -/
theorem foldl_replacePair
    {lower upper : ℕ → ℕ}
    {count : ℕ}
    (first second : ℕ → Content → Content → Content)
    (apart : ∀ index < count, ∀ other < count, lower index ≠ upper other)
    (lowers :
      ∀ index < count, ∀ other < count,
        lower index = lower other → index = other)
    (uppers :
      ∀ index < count, ∀ other < count,
        upper index = upper other → index = other)
    (contents : ℕ → Content) :
    let replaced :=
      (List.range count).foldl (replacePair lower upper first second) contents
    (∀ index < count,
        replaced (lower index) =
            first index (contents (lower index)) (contents (upper index)) ∧
          replaced (upper index) =
            second index (contents (lower index)) (contents (upper index))) ∧
      ∀ place,
        (∀ index < count, place ≠ lower index ∧ place ≠ upper index) →
        replaced place = contents place := by
  have processed :=
    @Imperative.foldl_range_invariant _ count
      (fun done (current : ℕ → Content) =>
        (∀ index < done,
          current (lower index) =
              first index (contents (lower index)) (contents (upper index)) ∧
            current (upper index) =
              second index (contents (lower index)) (contents (upper index))) ∧
          ∀ place,
            (∀ index < done, place ≠ lower index ∧ place ≠ upper index) →
            current place = contents place)
      (replacePair lower upper first second) contents
      ⟨fun _ impossible => absurd impossible (Nat.not_lt_zero _),
        fun _ _ => rfl⟩
      (by
        rintro current done below ⟨replaced, kept⟩
        have fresh :
            current (lower done) = contents (lower done) ∧
              current (upper done) = contents (upper done) := by
          constructor
          · refine kept _ fun index before => ⟨?_, ?_⟩
            · intro same
              exact
                before.ne' (lowers done below index (before.trans below) same)
            · exact apart done below index (before.trans below)
          · refine kept _ fun index before => ⟨?_, ?_⟩
            · exact (apart index (before.trans below) done below).symm
            · intro same
              exact
                before.ne' (uppers done below index (before.trans below) same)
        unfold replacePair
        rw [fresh.1, fresh.2]
        constructor
        · intro index upTo
          rcases Nat.lt_succ_iff_lt_or_eq.mp upTo with before | rfl
          · have inside := before.trans below
            rw [Function.update_of_ne (apart index inside done below),
              Function.update_of_ne
                (fun same => before.ne (lowers _ inside _ below same)),
              Function.update_of_ne
                (fun same => before.ne (uppers _ inside _ below same)),
              Function.update_of_ne (apart done below index inside).symm]
            exact replaced index before
          · rw [Function.update_of_ne (apart index below index below),
              Function.update_self, Function.update_self]
            exact ⟨rfl, rfl⟩
        · intro place untouched
          obtain ⟨notLower, notUpper⟩ := untouched done (Nat.lt_succ_self done)
          rw [Function.update_of_ne notUpper, Function.update_of_ne notLower]
          exact
            kept place fun index before =>
              untouched index (Nat.lt_succ_of_lt before))
  exact processed

end Swaps

section Transform

variable
    {K : Type}
    [Field K]

/-- The value at an index of the transform of a sequence. -/
def transform
    (root : K)
    (length : ℕ)
    (sequence : ℕ → K)
    (index : ℕ) : K :=
  ∑ position ∈ range length, root ^ (index * position) * sequence position

/-- Roots of unity for each power of two. -/
structure Roots (root : ℕ → K) (most : ℕ) : Prop where
  square : ∀ bits < most, root (bits + 1) ^ 2 = root bits
  half : ∀ bits < most, root (bits + 1) ^ 2 ^ bits = -1

/--
The transform of the inputs whose reversed indices begin a block of the
indices at a stage.
-/
def stage
    (root : ℕ → K)
    (bits : ℕ)
    (sequence : ℕ → K)
    (done block index : ℕ) : K :=
  transform (root done) (2 ^ done)
    (fun position =>
      sequence (position * 2 ^ (bits - done) + reverse (bits - done) block))
    index

/-- At first every block is a single input. -/
theorem stage_zero
    (root : ℕ → K)
    (bits : ℕ)
    (sequence : ℕ → K)
    (block : ℕ) :
    stage root bits sequence 0 block 0 = sequence (reverse bits block) := by
  simp [stage, transform]

/-- In the end the only block is the transform. -/
theorem stage_self
    (root : ℕ → K)
    (bits : ℕ)
    (sequence : ℕ → K)
    (index : ℕ) :
    stage root bits sequence bits 0 index =
      transform (root bits) (2 ^ bits) sequence index := by
  simp [stage, reverse]

variable
    {root : ℕ → K}
    {most : ℕ}

/-- A root to the power of its order is one. -/
theorem Roots.pow_order
    (roots : Roots root most)
    {bits : ℕ}
    (below : bits < most) :
    root (bits + 1) ^ 2 ^ (bits + 1) = 1 := by
  rw [pow_succ, pow_mul, roots.half bits below]
  ring

/-- A sequence of even length is summed by its even and odd positions. -/
theorem sum_range_two_mul
    (term : ℕ → K)
    (count : ℕ) :
    ∑ position ∈ range (2 * count), term position =
      ∑ position ∈ range count, term (2 * position) +
        ∑ position ∈ range count, term (2 * position + 1) := by
  induction count with
  | zero =>
      simp
  | succ count inductionHypothesis =>
      rw [Nat.mul_succ, sum_range_succ, sum_range_succ, inductionHypothesis,
        sum_range_succ, sum_range_succ]
      ring

/-- A block is the join of the blocks of its even and odd positions. -/
theorem stage_succ
    (roots : Roots root most)
    {bits : ℕ}
    (sequence : ℕ → K)
    {done : ℕ}
    (below : done < bits)
    (rooted : done < most)
    (block index : ℕ) :
    stage root bits sequence (done + 1) block index =
      stage root bits sequence done (2 * block) index +
        root (done + 1) ^ index *
          stage root bits sequence done (2 * block + 1) index := by
  obtain ⟨rest, isRest⟩ : ∃ rest, bits - done = rest + 1 :=
    ⟨bits - done - 1, by omega⟩
  have next : bits - (done + 1) = rest := by omega
  unfold stage transform
  rw [next, isRest, reverse_even, reverse_odd, pow_succ' 2 done,
    sum_range_two_mul, mul_sum]
  congr 1
  · refine sum_congr rfl fun position _ => ?_
    rw [← roots.square done rooted, ← pow_mul]
    beta_reduce
    congr 2
    · ring
    · ring
  · refine sum_congr rfl fun position _ => ?_
    rw [← roots.square done rooted, ← pow_mul, ← mul_assoc, ← pow_add]
    beta_reduce
    congr 2
    · ring
    · ring

/-- Half a block further on a transform repeats. -/
theorem stage_add
    (roots : Roots root most)
    {bits : ℕ}
    (sequence : ℕ → K)
    {done : ℕ}
    (rooted : done ≤ most)
    (block index : ℕ) :
    stage root bits sequence done block (index + 2 ^ done) =
      stage root bits sequence done block index := by
  have order : root done ^ 2 ^ done = 1 ∨ done = 0 := by
    cases done with
    | zero =>
        exact .inr rfl
    | succ done =>
        exact .inl (roots.pow_order rooted)
  unfold stage transform
  refine sum_congr rfl fun position member => ?_
  rcases order with order | rfl
  · rw [add_mul, pow_add, pow_mul (root done) (2 ^ done), order, one_pow,
      mul_one]
  · have first : position = 0 := by simpa using member
    rw [first, mul_zero, mul_zero]

/-- The values of a block that a pair of values of its parts gives. -/
theorem stage_pair
    (roots : Roots root most)
    {bits : ℕ}
    (sequence : ℕ → K)
    {done : ℕ}
    (below : done < bits)
    (rooted : done < most)
    (block index : ℕ) :
    stage root bits sequence (done + 1) block index =
        root (done + 1) ^ index *
            stage root bits sequence done (2 * block + 1) index +
          stage root bits sequence done (2 * block) index ∧
      stage root bits sequence (done + 1) block (index + 2 ^ done) =
        stage root bits sequence done (2 * block) index -
          root (done + 1) ^ index *
            stage root bits sequence done (2 * block + 1) index := by
  constructor
  · rw [stage_succ roots sequence below rooted, add_comm]
  · rw [stage_succ roots sequence below rooted,
      stage_add roots sequence rooted.le, stage_add roots sequence rooted.le,
      pow_add, roots.half done rooted]
    ring

end Transform

section Inverse

variable
    {K : Type}
    [Field K]

/-- The powers of a root of unity that is not one add up to zero. -/
theorem sum_pow_eq_zero
    {root : K}
    {length : ℕ}
    (order : root ^ length = 1)
    (differs : root ≠ 1) :
    ∑ position ∈ range length, root ^ position = 0 := by
  have product := geom_sum_mul root length
  rw [order, sub_self] at product
  exact (mul_eq_zero.mp product).resolve_right (sub_ne_zero.mpr differs)

/-- The index as far from the end of a turned sequence. -/
def mirror (length index : ℕ) : ℕ :=
  (length - index) % length

/-- An index and its mirror make up full turns. -/
theorem mirror_add
    {length index : ℕ}
    (inside : index < length) :
    ∃ turns, mirror length index + index = turns * length := by
  unfold mirror
  rcases Nat.eq_zero_or_pos index with rfl | positive
  · exact ⟨0, by simp⟩
  · refine ⟨1, ?_⟩
    rw [Nat.mod_eq_of_lt (by omega)]
    omega

/-- A mirror is inside the sequence. -/
theorem mirror_lt
    {length index : ℕ}
    (inside : index < length) :
    mirror length index < length :=
  Nat.mod_lt _ (by omega)

/-- The mirror of a mirror. -/
theorem mirror_mirror
    {length index : ℕ}
    (inside : index < length) :
    mirror length (mirror length index) = index := by
  unfold mirror
  rcases Nat.eq_zero_or_pos index with rfl | positive
  · simp
  · have smaller : length - index < length := by omega
    have back : length - (length - index) = index := by omega
    rw [Nat.mod_eq_of_lt smaller, back, Nat.mod_eq_of_lt inside]

/-- Turning around the inputs turns around the transform. -/
theorem transform_mirror
    {root : K}
    {length : ℕ}
    (order : root ^ length = 1)
    (sequence : ℕ → K)
    {index : ℕ}
    (inside : index < length) :
    transform root length (fun position => sequence (mirror length position))
        index =
      transform root length sequence (mirror length index) := by
  unfold transform
  refine
    sum_nbij' (mirror length) (mirror length)
      (fun position member => mem_range.mpr (mirror_lt (mem_range.mp member)))
      (fun position member => mem_range.mpr (mirror_lt (mem_range.mp member)))
      (fun position member => mirror_mirror (mem_range.mp member))
      (fun position member => mirror_mirror (mem_range.mp member))
      fun position member => ?_
  have isPosition := mem_range.mp member
  obtain ⟨turns, full⟩ := mirror_add inside
  obtain ⟨otherTurns, otherFull⟩ := mirror_add (mirror_lt isPosition)
  rw [mirror_mirror isPosition] at otherFull
  congr 1
  have place :
      index * position + index * mirror length position =
        length * (index * otherTurns) := by
    rw [← mul_add, otherFull]
    ring
  have otherPlace :
      mirror length index * mirror length position +
          index * mirror length position =
        length * (turns * mirror length position) := by
    rw [← add_mul, full]
    ring
  have nonzero : root ^ (index * mirror length position) ≠ 0 := by
    refine pow_ne_zero _ fun zero => ?_
    rw [zero, zero_pow (by omega)] at order
    exact zero_ne_one order
  refine mul_right_cancel₀ nonzero ?_
  rw [← pow_add, ← pow_add, place, otherPlace, pow_mul root length,
    pow_mul root length, order, one_pow, one_pow]

/-- A transform is determined by the sequence up to its length. -/
theorem transform_congr
    (root : K)
    {length : ℕ}
    {sequence other : ℕ → K}
    (same : ∀ position < length, sequence position = other position)
    (index : ℕ) :
    transform root length sequence index =
      transform root length other index := by
  refine sum_congr rfl fun position member => ?_
  rw [same position (mem_range.mp member)]

/-- A factor of the sequence is one of the transform. -/
theorem transform_mul
    (root : K)
    (length : ℕ)
    (sequence : ℕ → K)
    (factor : K)
    (index : ℕ) :
    transform root length (fun position => sequence position * factor) index =
      transform root length sequence index * factor := by
  unfold transform
  rw [sum_mul]
  exact sum_congr rfl fun position _ => (mul_assoc _ _ _).symm

/-- Transforming twice reverses the sequence and multiplies it by its length. -/
theorem transform_transform
    {root : K}
    {length : ℕ}
    (primitive : IsPrimitiveRoot root length)
    (sequence : ℕ → K)
    {index : ℕ}
    (inside : index < length) :
    transform root length (transform root length sequence)
        (mirror length index) =
      length * sequence index := by
  obtain ⟨turns, isOpposite⟩ := mirror_add inside
  generalize mirror length index = mirrored at isOpposite
  unfold transform
  simp only [mul_sum]
  rw [sum_comm]
  have inner :
      ∀ position ∈ range length,
        ∑ other ∈ range length,
            root ^ (mirrored * other) *
              (root ^ (other * position) * sequence position) =
          if position = index then length * sequence index else 0 := by
    intro position member
    have powers :
        ∑ other ∈ range length,
            root ^ (mirrored * other) *
              (root ^ (other * position) * sequence position) =
          (∑ other ∈ range length, (root ^ (mirrored + position)) ^ other) *
            sequence position := by
      rw [sum_mul]
      refine sum_congr rfl fun other _ => ?_
      rw [← mul_assoc, ← pow_add, ← pow_mul]
      congr 2
      ring
    rw [powers]
    split_ifs with same
    · rw [same, isOpposite, mul_comm turns, pow_mul, primitive.pow_eq_one,
        one_pow]
      simp
    · rw [sum_pow_eq_zero, zero_mul]
      · rw [← pow_mul, mul_comm, pow_mul, primitive.pow_eq_one, one_pow]
      · intro one
        apply same
        have dividing := (primitive.pow_eq_one_iff_dvd _).mp one
        have turned : length ∣ mirrored + index :=
          isOpposite ▸ dvd_mul_left length turns
        have congruent : position ≡ index [MOD length] :=
          Nat.ModEq.add_left_cancel' mirrored
            ((Nat.modEq_zero_iff_dvd.mpr dividing).trans
              (Nat.modEq_zero_iff_dvd.mpr turned).symm)
        exact
          Nat.ModEq.eq_of_lt_of_lt congruent (mem_range.mp member) inside
  rw [sum_congr rfl inner, sum_ite_eq' _ _ _, if_pos (mem_range.mpr inside)]

end Inverse

end FourierTransform
