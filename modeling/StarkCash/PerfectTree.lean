import Mathlib.Data.List.GetD
import Mathlib.Tactic.Ring

namespace PerfectTree

/-!
# Perfect binary hash trees over padded leaf sequences

A node is addressed by its level and its index inside that level.  The leaves
of a finite sequence are followed by a constant padding leaf, so the tree of a
shorter sequence is the tree of every sequence that only adds padding.  The
module develops which leaves a node depends on; nothing here knows how a tree
is stored or updated.
-/

variable {α β : Type*}

/-- Value of the node at a level and an index, over an unbounded leaf row. -/
def node
    (hash : α → α → α)
    (leaves : ℕ → α) :
    ℕ → ℕ → α
  | 0, index => leaves index
  | level + 1, index =>
      hash
        (node hash leaves level (2 * index))
        (node hash leaves level (2 * index + 1))

/-- Root of the subtree of a given height whose leaves are all padding. -/
def zeros
    (hash : α → α → α)
    (zero : α) :
    ℕ → α
  | 0 => zero
  | level + 1 =>
      hash (zeros hash zero level) (zeros hash zero level)

/-- A finite leaf sequence continued by the padding leaf. -/
def padded
    (zero : α)
    (leaves : List α) : ℕ → α :=
  fun index => leaves.getD index zero

/-- Root of the tree of a given depth over a padded leaf sequence. -/
def root
    (hash : α → α → α)
    (zero : α)
    (depth : ℕ)
    (leaves : List α) : α :=
  node hash (padded zero leaves) depth 0

section Blocks

variable
    (hash : α → α → α)
    (zero : α)

/-- The block of leaves below a child lies in the block below its parent. -/
theorem div_pow_succ_of_child
    {leaf level index child : ℕ}
    (below : leaf / 2 ^ level = child)
    (isChild : child / 2 = index) :
    leaf / 2 ^ (level + 1) = index := by
  rw [pow_succ, ← Nat.div_div_eq_div_mul, below, isChild]

/-- A node depends only on the leaves of its own block. -/
theorem node_congr
    {first second : ℕ → α}
    (level index : ℕ)
    (same :
      ∀ leaf,
        leaf / 2 ^ level = index →
        first leaf = second leaf) :
    node hash first level index = node hash second level index := by
  induction level generalizing index with
  | zero =>
      exact same index (by simp)
  | succ level inductionHypothesis =>
      have left :=
        inductionHypothesis (2 * index) fun leaf below =>
          same leaf (div_pow_succ_of_child below (by omega))
      have right :=
        inductionHypothesis (2 * index + 1) fun leaf below =>
          same leaf (div_pow_succ_of_child below (by omega))
      simp only [node, left, right]

/-- Over a constant leaf row every node is the padding root of its level. -/
theorem node_const
    (level index : ℕ) :
    node hash (fun _ => zero) level index = zeros hash zero level := by
  induction level generalizing index with
  | zero =>
      rfl
  | succ level inductionHypothesis =>
      simp only [node, zeros, inductionHypothesis]

/-- Beyond the sequence the padded row is the padding leaf. -/
theorem padded_of_length_le
    {leaves : List α}
    {index : ℕ}
    (beyond : leaves.length ≤ index) :
    padded zero leaves index = zero :=
  List.getD_eq_default leaves zero beyond

/-- Inside the sequence the padded row is the sequence. -/
theorem padded_of_lt
    {leaves : List α}
    {index : ℕ}
    (inside : index < leaves.length) :
    padded zero leaves index = leaves[index] :=
  List.getD_eq_getElem leaves zero inside

/-- Appending one leaf changes the padded row at one position only. -/
theorem padded_concat_of_ne
    {leaves : List α}
    {index : ℕ}
    (leaf : α)
    (other : index ≠ leaves.length) :
    padded zero (leaves ++ [leaf]) index = padded zero leaves index := by
  rcases Nat.lt_or_gt_of_ne other with before | after
  · exact List.getD_append leaves [leaf] zero index before
  · have beyondAppended : (leaves ++ [leaf]).length ≤ index := by
      simpa using Nat.succ_le_of_lt after
    rw [padded_of_length_le zero beyondAppended,
      padded_of_length_le zero (Nat.le_of_lt after)]

/-- The appended leaf stands at the old length. -/
theorem padded_concat_self
    (leaves : List α)
    (leaf : α) :
    padded zero (leaves ++ [leaf]) leaves.length = leaf := by
  rw [padded_of_lt zero (by simp)]
  simp

/-- A node whose block starts at or after the sequence is a padding root. -/
theorem node_of_length_le
    {leaves : List α}
    {level index : ℕ}
    (empty : leaves.length ≤ index * 2 ^ level) :
    node hash (padded zero leaves) level index =
      zeros hash zero level := by
  rw [← node_const hash zero level index]
  refine node_congr hash level index ?_
  intro leaf below
  have blockStart : index * 2 ^ level ≤ leaf := by
    rw [← below]
    exact Nat.div_mul_le_self leaf (2 ^ level)
  exact padded_of_length_le zero (empty.trans blockStart)

/-- Appending one leaf changes one node a level only. -/
theorem node_concat_of_ne
    {leaves : List α}
    {level index : ℕ}
    (leaf : α)
    (other : index ≠ leaves.length / 2 ^ level) :
    node hash (padded zero (leaves ++ [leaf])) level index =
      node hash (padded zero leaves) level index := by
  refine node_congr hash level index ?_
  intro position below
  refine padded_concat_of_ne zero leaf ?_
  rintro rfl
  exact other below.symm

/-- The empty sequence has the padding root. -/
theorem root_nil
    (depth : ℕ) :
    root hash zero depth [] = zeros hash zero depth :=
  node_of_length_le hash zero (by simp)

end Blocks

section Sums

variable
    [AddCommMonoid α]
    {zero step : α}
    {leaves : List α}

end Sums

section Maps

variable
    {hash : α → α → α}
    {hash' : β → β → β}
    {translate : α → β}

/-- A translation that commutes with the hashes commutes with every node. -/
theorem node_map
    (commutes :
      ∀ left right,
        translate (hash left right) =
          hash' (translate left) (translate right))
    (leaves : ℕ → α)
    (level index : ℕ) :
    translate (node hash leaves level index) =
      node hash' (fun leaf => translate (leaves leaf)) level index := by
  induction level generalizing index with
  | zero =>
      rfl
  | succ level inductionHypothesis =>
      simp only [node, commutes, inductionHypothesis]

/-- Translating a padded row translates the sequence and the padding leaf. -/
theorem padded_map
    (zero : α)
    (leaves : List α)
    (index : ℕ) :
    translate (padded zero leaves index) =
      padded (translate zero) (leaves.map translate) index :=
  (List.getD_map leaves zero translate).symm

/-- A translation that commutes with the hashes commutes with the root. -/
theorem root_map
    (commutes :
      ∀ left right,
        translate (hash left right) =
          hash' (translate left) (translate right))
    (zero : α)
    (depth : ℕ)
    (leaves : List α) :
    translate (root hash zero depth leaves) =
      root hash' (translate zero) depth (leaves.map translate) := by
  simp only [root, node_map commutes, padded_map]

end Maps

end PerfectTree
