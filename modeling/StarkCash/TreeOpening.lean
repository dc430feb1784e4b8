import Mathlib.Algebra.BigOperators.Intervals
import Mathlib.Algebra.BigOperators.Ring.Finset
import StarkCash.PerfectTree

namespace PerfectTree

/-!
# Authentication paths and collision extraction

An opening recomputes a root from one leaf, a sibling for every level and a
side for every level.  An opening built from the tree's own siblings reaches
the root (`opening_of_siblings`).  Conversely, an opening that reaches the
root starts at the leaf of the index its sides spell, or one of its levels
hashes a pair other than the tree's pair at that node to the same value
(`opening_leaf_or_collision`).
-/

variable {α : Type*}

/-- The ordered pair hashed when a node meets its sibling. -/
def orderedPair
    (isRight : Bool)
    (current sibling : α) : α × α :=
  if isRight then (sibling, current) else (current, sibling)

/-- Hash of the opening after a number of levels. -/
def opening
    (hash : α → α → α)
    (leaf : α)
    (siblings : ℕ → α)
    (sides : ℕ → Bool) :
    ℕ → α
  | 0 => leaf
  | level + 1 =>
      let pair :=
        orderedPair (sides level)
          (opening hash leaf siblings sides level) (siblings level)
      hash pair.1 pair.2

/-- The pair an opening hashes at a level. -/
def openingPair
    (hash : α → α → α)
    (leaf : α)
    (siblings : ℕ → α)
    (sides : ℕ → Bool)
    (level : ℕ) : α × α :=
  orderedPair (sides level)
    (opening hash leaf siblings sides level) (siblings level)

/-- The pair a tree hashes at the parent node `(level + 1, index)`. -/
def nodePair
    (hash : α → α → α)
    (leaves : ℕ → α)
    (level index : ℕ) : α × α :=
  (node hash leaves level (2 * index),
    node hash leaves level (2 * index + 1))

/-- The index spelled by the sides, least significant level first. -/
def sideIndex
    (sides : ℕ → Bool)
    (depth : ℕ) : ℕ :=
  ∑ level ∈ Finset.range depth, (sides level).toNat * 2 ^ level

/-- Index of the sibling of the ancestor of a position at a level. -/
def siblingIndex (position level : ℕ) : ℕ :=
  2 * (position / 2 ^ (level + 1)) + (1 - position / 2 ^ level % 2)

/-- Two different pairs with one hash. -/
def Collides
    (hash : α → α → α)
    (first second : α × α) : Prop :=
  first ≠ second ∧ hash first.1 first.2 = hash second.1 second.2

section Index

variable (sides : ℕ → Bool)

/-- Fewer sides spell a smaller index. -/
theorem sideIndex_lt
    (depth : ℕ) :
    sideIndex sides depth < 2 ^ depth := by
  induction depth with
  | zero =>
      simp [sideIndex]
  | succ depth inductionHypothesis =>
      have topSide : (sides depth).toNat ≤ 1 :=
        Bool.toNat_le (sides depth)
      have topWeight :
          (sides depth).toNat * 2 ^ depth ≤ 1 * 2 ^ depth :=
        Nat.mul_le_mul_right (2 ^ depth) topSide
      have split :
          sideIndex sides (depth + 1) =
            sideIndex sides depth +
              (sides depth).toNat * 2 ^ depth :=
        Finset.sum_range_succ _ depth
      rw [split, pow_succ]
      omega

/-- Dropping the lowest side halves the index. -/
theorem sideIndex_succ
    (depth : ℕ) :
    sideIndex sides (depth + 1) =
      2 * sideIndex (fun level => sides (level + 1)) depth +
        (sides 0).toNat := by
  simp only [sideIndex, Finset.sum_range_succ', Finset.mul_sum,
    pow_succ, pow_zero, Nat.mul_one]
  congr 1
  refine Finset.sum_congr rfl ?_
  intro level _
  ring

/-- Sides that are the bits of a number spell the number. -/
theorem sideIndex_of_bits
    {depth position : ℕ}
    (bits :
      ∀ level,
        level < depth →
        (sides level).toNat = position / 2 ^ level % 2) :
    sideIndex sides depth = position % 2 ^ depth := by
  induction depth with
  | zero =>
      simp [sideIndex, Nat.mod_one]
  | succ depth inductionHypothesis =>
      have lower :=
        inductionHypothesis fun level inside =>
          bits level (Nat.lt_succ_of_lt inside)
      unfold sideIndex at lower ⊢
      rw [Finset.sum_range_succ, lower, bits depth (Nat.lt_succ_self depth),
        pow_succ, Nat.mod_mul, Nat.mul_comm (2 ^ depth)]

/-- Dividing by a power drops the lower sides. -/
theorem sideIndex_div
    (level rest : ℕ) :
    sideIndex sides (level + rest) / 2 ^ level =
      sideIndex (fun upper => sides (level + upper)) rest := by
  induction level generalizing sides with
  | zero =>
      simp
  | succ level inductionHypothesis =>
      have depthEq : level + 1 + rest = level + rest + 1 := by
        omega
      have topSide : (sides 0).toNat < 2 :=
        Nat.lt_succ_of_le (Bool.toNat_le (sides 0))
      have halved :
          sideIndex sides (level + rest + 1) / 2 =
            sideIndex (fun upper => sides (upper + 1)) (level + rest) := by
        rw [sideIndex_succ]
        omega
      rw [depthEq, pow_succ', ← Nat.div_div_eq_div_mul, halved,
        inductionHypothesis]
      simp only [Nat.add_right_comm level]

/-- The index above a level extends the index above the next one by a side. -/
theorem sideIndex_div_step
    {level depth : ℕ}
    (inDepth : level < depth) :
    sideIndex sides depth / 2 ^ level =
      2 * (sideIndex sides depth / 2 ^ (level + 1)) +
        (sides level).toNat := by
  obtain ⟨rest, rfl⟩ : ∃ rest, depth = level + (rest + 1) :=
    ⟨depth - level - 1, by omega⟩
  have upper :
      sideIndex sides (level + (rest + 1)) / 2 ^ (level + 1) =
        sideIndex (fun upper => sides (level + 1 + upper)) rest := by
    rw [← Nat.add_assoc, Nat.add_right_comm level rest 1]
    exact sideIndex_div sides (level + 1) rest
  rw [sideIndex_div, sideIndex_succ, upper, Nat.add_zero]
  simp only [Nat.add_assoc, Nat.add_comm 1]

end Index

section Opening

variable
    {hash : α → α → α}
    {leaves : ℕ → α}

/-- The pair of a parent node, read from one child and the other. -/
theorem nodePair_eq_orderedPair
    (level index : ℕ)
    (isRight : Bool) :
    nodePair hash leaves level index =
      orderedPair isRight
        (node hash leaves level (2 * index + isRight.toNat))
        (node hash leaves level (2 * index + (!isRight).toNat)) := by
  cases isRight <;> rfl

/-- An opening along the tree's own siblings recomputes the ancestors. -/
theorem opening_of_siblings
    {siblings : ℕ → α}
    {sides : ℕ → Bool}
    {position depth : ℕ}
    (sidesOf :
      ∀ level,
        level < depth →
        (sides level).toNat = position / 2 ^ level % 2)
    (siblingsOf :
      ∀ level,
        level < depth →
        siblings level =
          node hash leaves level (siblingIndex position level)) :
    ∀ level,
      level ≤ depth →
      opening hash (leaves position) siblings sides level =
        node hash leaves level (position / 2 ^ level) := by
  intro level inDepth
  induction level with
  | zero =>
      simp [opening, node]
  | succ level inductionHypothesis =>
      have lower := inductionHypothesis (Nat.le_of_succ_le inDepth)
      have ownIndex :
          position / 2 ^ level =
            2 * (position / 2 ^ (level + 1)) +
              (sides level).toNat := by
        rw [sidesOf level inDepth, pow_succ,
          ← Nat.div_div_eq_div_mul]
        omega
      have otherIndex :
          siblingIndex position level =
            2 * (position / 2 ^ (level + 1)) +
              (!sides level).toNat := by
        rw [siblingIndex, ← sidesOf level inDepth]
        cases sides level <;> rfl
      have pairEq :
          orderedPair (sides level)
              (opening hash (leaves position) siblings sides level)
              (siblings level) =
            nodePair hash leaves level
              (position / 2 ^ (level + 1)) := by
        rw [nodePair_eq_orderedPair _ _ (sides level), lower, ownIndex,
          siblingsOf level inDepth, otherIndex]
      simp only [opening, pairEq]
      rfl

/-- One step down: the children agree, or the parent's two pairs collide. -/
theorem opening_step
    {leaf : α}
    {siblings : ℕ → α}
    {sides : ℕ → Bool}
    {level depth : ℕ}
    (inDepth : level < depth)
    (agree :
      opening hash leaf siblings sides (level + 1) =
        node hash leaves (level + 1)
          (sideIndex sides depth / 2 ^ (level + 1))) :
    opening hash leaf siblings sides level =
        node hash leaves level (sideIndex sides depth / 2 ^ level) ∨
      Collides hash
        (openingPair hash leaf siblings sides level)
        (nodePair hash leaves level
          (sideIndex sides depth / 2 ^ (level + 1))) := by
  by_cases same :
      openingPair hash leaf siblings sides level =
        nodePair hash leaves level
          (sideIndex sides depth / 2 ^ (level + 1))
  · left
    rw [nodePair_eq_orderedPair _ _ (sides level),
      ← sideIndex_div_step sides inDepth] at same
    cases isRight : sides level with
    | false =>
        simp only [openingPair, orderedPair, isRight] at same
        exact congrArg Prod.fst same
    | true =>
        simp only [openingPair, orderedPair, isRight] at same
        exact congrArg Prod.snd same
  · exact Or.inr ⟨same, agree⟩

/--
An opening that reaches the root starts at the leaf its sides spell, or some
level hashes a pair other than the tree's pair to the same value.
-/
theorem opening_leaf_or_collision
    {leaf : α}
    {siblings : ℕ → α}
    {sides : ℕ → Bool}
    {depth : ℕ}
    (reaches :
      opening hash leaf siblings sides depth =
        node hash leaves depth 0) :
    leaf = leaves (sideIndex sides depth) ∨
      ∃ level,
        level < depth ∧
        Collides hash
          (openingPair hash leaf siblings sides level)
          (nodePair hash leaves level
            (sideIndex sides depth / 2 ^ (level + 1))) := by
  have descend :
      ∀ steps,
        steps ≤ depth →
        opening hash leaf siblings sides (depth - steps) =
            node hash leaves (depth - steps)
              (sideIndex sides depth / 2 ^ (depth - steps)) ∨
          ∃ level,
            level < depth ∧
            Collides hash
              (openingPair hash leaf siblings sides level)
              (nodePair hash leaves level
                (sideIndex sides depth / 2 ^ (level + 1))) := by
    intro steps
    induction steps with
    | zero =>
        intro _
        left
        rw [Nat.sub_zero, reaches,
          Nat.div_eq_of_lt (sideIndex_lt sides depth)]
    | succ steps inductionHypothesis =>
        intro inDepth
        rcases inductionHypothesis (Nat.le_of_succ_le inDepth) with
          agree | collision
        · have levelEq : depth - steps = depth - (steps + 1) + 1 := by
            omega
          rw [levelEq] at agree
          rcases opening_step (by omega) agree with lower | collides
          · exact Or.inl lower
          · exact Or.inr ⟨depth - (steps + 1), by omega, collides⟩
        · exact Or.inr collision
  rcases descend depth le_rfl with agree | collision
  · left
    simpa [opening, node] using agree
  · exact Or.inr collision

end Opening

end PerfectTree
