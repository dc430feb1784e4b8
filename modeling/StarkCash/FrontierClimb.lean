import Mathlib.Algebra.Order.Ring.Nat
import Mathlib.Data.List.Basic
import Mathlib.Logic.Function.Basic
import StarkCash.PerfectTree

namespace PerfectTree

/-!
# Appending a leaf through a frontier

An append-only tree may keep, for every level, one node: the last left child
that was hashed there.  Appending a leaf climbs from the leaf to the root.  At
a level where the climbed node is a left child the row entry is overwritten
and the missing sibling is padding; where it is a right child the row entry is
read back as the left sibling.

The invariant of one climb is `Climbed`, the invariant between two climbs is
`FrontierFor`.  Entries at levels where the length is even may be stale, and
the invariant says nothing about them.
-/

variable {α : Type*}

/-- Loop state of one climb: shifted position, running hash, frontier row. -/
structure Climb (α : Type*) where
  index : ℕ
  current : α
  filled : ℕ → α

/-- One level of the climb. -/
def Climb.level
    (hash : α → α → α)
    (zero : α)
    (climb : Climb α)
    (level : ℕ) : Climb α :=
  if climb.index % 2 = 0 then
    { index := climb.index / 2
      current := hash climb.current (zeros hash zero level)
      filled := Function.update climb.filled level climb.current }
  else
    { index := climb.index / 2
      current := hash (climb.filled level) climb.current
      filled := climb.filled }

/--
The frontier row of a leaf sequence: where the number of blocks of a level is
odd, the row holds the last complete block of that level.
-/
structure FrontierFor
    (hash : α → α → α)
    (zero : α)
    (depth : ℕ)
    (leaves : List α)
    (filled : ℕ → α) : Prop where
  leftSibling :
    ∀ level,
      level < depth →
      leaves.length / 2 ^ level % 2 = 1 →
      filled level =
        node hash (padded zero leaves) level
          (leaves.length / 2 ^ level - 1)

/--
Invariant of the climb that appends one leaf, after some number of levels: the
running hash is the appended leaf's ancestor in the new tree, and the row has
been overwritten below exactly where that ancestor is a left child.
-/
structure Climbed
    (hash : α → α → α)
    (zero : α)
    (leaves : List α)
    (leaf : α)
    (before : ℕ → α)
    (level : ℕ)
    (climb : Climb α) : Prop where
  index :
    climb.index = leaves.length / 2 ^ level
  current :
    climb.current =
      node hash (padded zero (leaves ++ [leaf])) level
        (leaves.length / 2 ^ level)
  overwritten :
    ∀ lower,
      lower < level →
      leaves.length / 2 ^ lower % 2 = 0 →
      climb.filled lower =
        node hash (padded zero (leaves ++ [leaf])) lower
          (leaves.length / 2 ^ lower)
  kept :
    ∀ lower,
      lower < level →
      leaves.length / 2 ^ lower % 2 = 1 →
      climb.filled lower = before lower
  untouched :
    ∀ upper,
      level ≤ upper →
      climb.filled upper = before upper

section Climb

variable
    {hash : α → α → α}
    {zero : α}
    {depth : ℕ}
    {leaves : List α}
    {leaf : α}
    {before : ℕ → α}

/-- Dividing by the next power halves the quotient. -/
theorem div_pow_succ
    (count level : ℕ) :
    count / 2 ^ (level + 1) = count / 2 ^ level / 2 := by
  rw [pow_succ, Nat.div_div_eq_div_mul]

/-- Every row is a frontier of the empty sequence. -/
theorem FrontierFor.empty
    (filled : ℕ → α) :
    FrontierFor hash zero depth [] filled := by
  constructor
  intro level _ odd
  simp at odd

namespace Climbed

/-- The climb starts at the appended leaf with the old row. -/
theorem start :
    Climbed hash zero leaves leaf before 0
      { index := leaves.length
        current := leaf
        filled := before } := by
  constructor
  · simp
  · simpa [node] using (padded_concat_self zero leaves leaf).symm
  · intro lower below
    exact absurd below (Nat.not_lt_zero lower)
  · intro lower below
    exact absurd below (Nat.not_lt_zero lower)
  · intro upper _
    rfl

/-- A left child hashes with padding: nothing was appended to its right. -/
theorem current_of_even
    {level : ℕ}
    {climb : Climb α}
    (climbed : Climbed hash zero leaves leaf before level climb)
    (even : leaves.length / 2 ^ level % 2 = 0) :
    hash climb.current (zeros hash zero level) =
      node hash (padded zero (leaves ++ [leaf])) (level + 1)
        (leaves.length / 2 ^ (level + 1)) := by
  have leftChild :
      2 * (leaves.length / 2 ^ (level + 1)) =
        leaves.length / 2 ^ level := by
    rw [div_pow_succ]
    omega
  have rightEmpty :
      (leaves ++ [leaf]).length ≤
        (leaves.length / 2 ^ level + 1) * 2 ^ level := by
    have bound :
        leaves.length <
          leaves.length / 2 ^ level * 2 ^ level + 2 ^ level :=
      Nat.lt_div_mul_add (Nat.two_pow_pos level)
    rw [Nat.add_mul, Nat.one_mul, List.length_append]
    exact bound
  rw [node, leftChild, climbed.current,
    node_of_length_le hash zero rightEmpty]

/-- A right child hashes with the row entry, its complete left sibling. -/
theorem current_of_odd
    {level : ℕ}
    {climb : Climb α}
    (climbed : Climbed hash zero leaves leaf before level climb)
    (frontier : FrontierFor hash zero depth leaves before)
    (inDepth : level < depth)
    (odd : leaves.length / 2 ^ level % 2 = 1) :
    hash (climb.filled level) climb.current =
      node hash (padded zero (leaves ++ [leaf])) (level + 1)
        (leaves.length / 2 ^ (level + 1)) := by
  have rightChild :
      2 * (leaves.length / 2 ^ (level + 1)) + 1 =
        leaves.length / 2 ^ level := by
    rw [div_pow_succ]
    omega
  have leftChild :
      2 * (leaves.length / 2 ^ (level + 1)) =
        leaves.length / 2 ^ level - 1 := by
    omega
  have leftSibling :
      climb.filled level =
        node hash (padded zero (leaves ++ [leaf])) level
          (leaves.length / 2 ^ level - 1) := by
    rw [climbed.untouched level le_rfl,
      frontier.leftSibling level inDepth odd]
    exact
      (node_concat_of_ne hash zero leaf (by omega)).symm
  rw [node, rightChild, leftChild, leftSibling, climbed.current]

/-- One level of the climb preserves its invariant. -/
theorem level
    {level : ℕ}
    {climb : Climb α}
    (frontier : FrontierFor hash zero depth leaves before)
    (inDepth : level < depth)
    (climbed : Climbed hash zero leaves leaf before level climb) :
    Climbed hash zero leaves leaf before (level + 1)
      (climb.level hash zero level) := by
  have nextIndex :
      climb.index / 2 = leaves.length / 2 ^ (level + 1) := by
    rw [climbed.index, div_pow_succ]
  rcases Nat.mod_two_eq_zero_or_one
      (leaves.length / 2 ^ level) with even | odd
  · have indexEven : climb.index % 2 = 0 := by
      rw [climbed.index, even]
    simp only [Climb.level, indexEven, ↓reduceIte]
    constructor
    · exact nextIndex
    · exact climbed.current_of_even even
    · intro lower below lowerEven
      rcases Nat.lt_succ_iff_lt_or_eq.mp below with earlier | rfl
      · simp only [Function.update_of_ne (Nat.ne_of_lt earlier)]
        exact climbed.overwritten lower earlier lowerEven
      · simp only [Function.update_self, climbed.current]
    · intro lower below lowerOdd
      have earlier : lower < level := by
        rcases Nat.lt_succ_iff_lt_or_eq.mp below with earlier | rfl
        · exact earlier
        · omega
      simp only [Function.update_of_ne (Nat.ne_of_lt earlier)]
      exact climbed.kept lower earlier lowerOdd
    · intro upper above
      simp only [Function.update_of_ne (Nat.ne_of_gt above)]
      exact climbed.untouched upper (Nat.le_of_succ_le above)
  · have indexOdd : ¬ climb.index % 2 = 0 := by
      rw [climbed.index, odd]
      decide
    simp only [Climb.level, indexOdd, ↓reduceIte]
    constructor
    · exact nextIndex
    · exact climbed.current_of_odd frontier inDepth odd
    · intro lower below lowerEven
      have earlier : lower < level := by
        rcases Nat.lt_succ_iff_lt_or_eq.mp below with earlier | rfl
        · exact earlier
        · omega
      exact climbed.overwritten lower earlier lowerEven
    · intro lower below lowerOdd
      rcases Nat.lt_succ_iff_lt_or_eq.mp below with earlier | rfl
      · exact climbed.kept lower earlier lowerOdd
      · exact climbed.untouched lower le_rfl
    · intro upper above
      exact climbed.untouched upper (by omega)

/-- A completed climb leaves a frontier row of the longer sequence. -/
theorem frontier
    {climb : Climb α}
    (frontier : FrontierFor hash zero depth leaves before)
    (climbed : Climbed hash zero leaves leaf before depth climb) :
    FrontierFor hash zero depth (leaves ++ [leaf]) climb.filled := by
  constructor
  intro level inDepth
  have lengthEq :
      (leaves ++ [leaf]).length = leaves.length + 1 := by
    simp
  rw [lengthEq, Nat.succ_div]
  by_cases carries : 2 ^ level ∣ leaves.length + 1
  · intro odd
    simp only [carries, ↓reduceIte] at odd ⊢
    rw [climbed.overwritten level inDepth (by omega)]
    simp
  · intro odd
    simp only [carries, ↓reduceIte, Nat.add_zero] at odd ⊢
    rw [climbed.kept level inDepth odd,
      frontier.leftSibling level inDepth odd]
    exact
      (node_concat_of_ne hash zero leaf (by omega)).symm

/-- A completed climb ends at the root of the longer sequence. -/
theorem root
    {climb : Climb α}
    (room : leaves.length < 2 ^ depth)
    (climbed : Climbed hash zero leaves leaf before depth climb) :
    climb.current = root hash zero depth (leaves ++ [leaf]) := by
  rw [climbed.current, Nat.div_eq_of_lt room, PerfectTree.root]

end Climbed

end Climb

end PerfectTree
