import Mathlib.Data.List.Nodup
import StarkCash.TreeOpening

namespace PerfectTree

/-!
# A root binds its leaves

Two trees with one root have the same leaves, or some node of theirs hashes two
different pairs to the same value (`leaves_or_collision`).  Among padded
sequences the padding is the only ambiguity, so the roots of the prefixes of a
sequence without padding leaves are pairwise different (`roots_nodup`).
-/

variable
    {α : Type*}
    {hash : α → α → α}

/-- A node of the trees of a depth hashes two different pairs to one value. -/
def CollidingNode
    (hash : α → α → α)
    (depth : ℕ)
    (first second : ℕ → α) : Prop :=
  ∃ level index,
    level < depth ∧ index < 2 ^ (depth - (level + 1)) ∧
      Collides hash
        (nodePair hash first level index)
        (nodePair hash second level index)

section Nodes

variable {first second : ℕ → α}

/-- The blocks of the two children make up the block of their parent. -/
theorem child_of_div_pow_succ
    {leaf level index : ℕ}
    (below : leaf / 2 ^ (level + 1) = index) :
    leaf / 2 ^ level = 2 * index ∨ leaf / 2 ^ level = 2 * index + 1 := by
  rw [pow_succ, ← Nat.div_div_eq_div_mul] at below
  omega

/-- A node below a child is below its parent. -/
theorem below_parent
    {position lower level child index : ℕ}
    (inSubtree : lower < level)
    (below : position / 2 ^ (level - (lower + 1)) = child)
    (isChild : child / 2 = index) :
    position / 2 ^ (level + 1 - (lower + 1)) = index := by
  have heights : level + 1 - (lower + 1) = level - (lower + 1) + 1 := by
    omega
  rw [heights]
  exact div_pow_succ_of_child below isChild

/--
Equal nodes have the same leaves below them, or a node below hashes two
different pairs to the same value.
-/
theorem node_leaves_or_collision
    (level index : ℕ)
    (same :
      node hash first level index = node hash second level index) :
    (∀ leaf, leaf / 2 ^ level = index → first leaf = second leaf) ∨
      ∃ lower position,
        lower < level ∧ position / 2 ^ (level - (lower + 1)) = index ∧
          Collides hash
            (nodePair hash first lower position)
            (nodePair hash second lower position) := by
  induction level generalizing index with
  | zero =>
      left
      intro leaf below
      rw [pow_zero, Nat.div_one] at below
      rw [below]
      exact same
  | succ level inductionHypothesis =>
      by_cases samePair :
          nodePair hash first level index =
            nodePair hash second level index
      · have lifted :
            ∀ child,
              child / 2 = index →
              (∃ lower position,
                lower < level ∧
                  position / 2 ^ (level - (lower + 1)) = child ∧
                  Collides hash
                    (nodePair hash first lower position)
                    (nodePair hash second lower position)) →
              ∃ lower position,
                lower < level + 1 ∧
                  position / 2 ^ (level + 1 - (lower + 1)) = index ∧
                  Collides hash
                    (nodePair hash first lower position)
                    (nodePair hash second lower position) := by
          rintro child isChild ⟨lower, position, inSubtree, below, collides⟩
          exact
            ⟨lower, position, Nat.lt_succ_of_lt inSubtree,
              below_parent inSubtree below isChild, collides⟩
        rcases inductionHypothesis (2 * index)
            (congrArg Prod.fst samePair) with left | collision
        · rcases inductionHypothesis (2 * index + 1)
              (congrArg Prod.snd samePair) with right | collision
          · left
            intro leaf below
            rcases child_of_div_pow_succ below with isLeft | isRight
            · exact left leaf isLeft
            · exact right leaf isRight
          · exact Or.inr (lifted (2 * index + 1) (by omega) collision)
        · exact Or.inr (lifted (2 * index) (by omega) collision)
      · right
        refine ⟨level, index, Nat.lt_succ_self level, ?_, samePair, same⟩
        simp

/-- Two leaf rows with one root agree below it, or have a colliding node. -/
theorem leaves_or_collision
    {depth : ℕ}
    (same : node hash first depth 0 = node hash second depth 0) :
    (∀ leaf, leaf < 2 ^ depth → first leaf = second leaf) ∨
      CollidingNode hash depth first second := by
  rcases node_leaves_or_collision depth 0 same with
    leaves | ⟨lower, position, inTree, below, collides⟩
  · left
    intro leaf inside
    exact leaves leaf (Nat.div_eq_of_lt inside)
  · right
    refine ⟨lower, position, inTree, ?_, collides⟩
    exact (Nat.div_eq_zero_iff_lt (Nat.two_pow_pos _)).mp below

end Nodes

section Sequences

variable
    {zero : α}
    {depth : ℕ}

/-- Padded prefixes of different lengths differ at a leaf that is no padding. -/
theorem padded_take_ne
    {leaves : List α}
    {earlier later : ℕ}
    (noPadding : zero ∉ leaves)
    (ordered : earlier < later)
    (inside : later ≤ leaves.length) :
    padded zero (leaves.take earlier) earlier ≠
      padded zero (leaves.take later) earlier := by
  have present : earlier < leaves.length := ordered.trans_le inside
  have beyond : (leaves.take earlier).length ≤ earlier := by
    rw [List.length_take]
    exact Nat.min_le_left _ _
  have within : earlier < (leaves.take later).length := by
    rw [List.length_take]
    exact lt_min ordered present
  rw [padded_of_length_le zero beyond, padded_of_lt zero within,
    List.getElem_take]
  intro isPadding
  apply noPadding
  rw [isPadding]
  exact List.getElem_mem present

/-- Appending a leaf other than the padding changes the root, or collides. -/
theorem root_concat_ne_or_collision
    {leaves : List α}
    {leaf : α}
    (notPadding : leaf ≠ zero)
    (room : leaves.length < 2 ^ depth) :
    root hash zero depth (leaves ++ [leaf]) ≠
        root hash zero depth leaves ∨
      CollidingNode hash depth
        (padded zero leaves)
        (padded zero (leaves ++ [leaf])) := by
  by_cases same :
      root hash zero depth leaves =
        root hash zero depth (leaves ++ [leaf])
  · right
    apply (leaves_or_collision same).resolve_left
    intro agree
    have atEnd := agree leaves.length room
    rw [padded_of_length_le zero le_rfl, padded_concat_self] at atEnd
    exact notPadding atEnd.symm
  · exact Or.inl (Ne.symm same)

/--
The roots of all prefixes of a sequence without padding leaves are pairwise
different, or the trees of two prefixes have a colliding node.
-/
theorem roots_nodup
    {leaves : List α}
    (noPadding : zero ∉ leaves)
    (fits : leaves.length ≤ 2 ^ depth) :
    ((List.range (leaves.length + 1)).map fun inserts =>
        root hash zero depth (leaves.take inserts)).Nodup ∨
      ∃ earlier later,
        earlier < later ∧ later ≤ leaves.length ∧
          CollidingNode hash depth
            (padded zero (leaves.take earlier))
            (padded zero (leaves.take later)) := by
  by_cases collision :
      ∃ earlier later,
        earlier < later ∧ later ≤ leaves.length ∧
          CollidingNode hash depth
            (padded zero (leaves.take earlier))
            (padded zero (leaves.take later))
  · exact Or.inr collision
  · left
    have different :
        ∀ earlier later,
          earlier < later →
          later ≤ leaves.length →
          root hash zero depth (leaves.take earlier) ≠
            root hash zero depth (leaves.take later) := by
      intro earlier later ordered inside same
      rcases leaves_or_collision same with agree | collides
      · have inTree : earlier < 2 ^ depth :=
          ordered.trans_le (inside.trans fits)
        exact padded_take_ne noPadding ordered inside (agree earlier inTree)
      · exact collision ⟨earlier, later, ordered, inside, collides⟩
    rw [List.nodup_map_iff_inj_on List.nodup_range]
    intro first firstMember second secondMember same
    have firstInside := Nat.le_of_lt_succ (List.mem_range.mp firstMember)
    have secondInside := Nat.le_of_lt_succ (List.mem_range.mp secondMember)
    rcases Nat.lt_trichotomy first second with before | equal | after
    · exact absurd same (different first second before secondInside)
    · exact equal
    · exact absurd same.symm (different second first after firstInside)

end Sequences

end PerfectTree
