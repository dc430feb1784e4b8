import Mathlib.Algebra.BigOperators.Group.List.Basic
import Mathlib.Algebra.Order.Ring.Nat

namespace Utf8Text

/-!
# Texts addressed by byte offsets

A text is a list of characters and its positions are offsets into its UTF-8
encoding.  An offset inside of a character is no boundary, and a text can be
cut at boundaries only.
-/

/-- The number of bytes of a text. -/
def byteLength (text : List Char) : ℕ :=
  (text.map Char.utf8Size).sum

/-- The text before an offset and the text behind it, at a boundary. -/
def splitAt : ℕ → List Char → Option (List Char × List Char)
  | 0, text => some ([], text)
  | _ + 1, [] => none
  | offset + 1, char :: text =>
      if char.utf8Size ≤ offset + 1 then
        match splitAt (offset + 1 - char.utf8Size) text with
        | none => none
        | some (before, behind) => some (char :: before, behind)
      else
        none

/-- The text between two offsets, if both are boundaries. -/
def slice
    (text : List Char)
    (start stop : ℕ) : Option (List Char) :=
  match splitAt start text with
  | none => none
  | some (_, behind) =>
      match splitAt (stop - start) behind with
      | none => none
      | some (between, _) => some between

@[simp] theorem byteLength_nil :
    byteLength [] = 0 := rfl

@[simp] theorem byteLength_cons
    (char : Char)
    (text : List Char) :
    byteLength (char :: text) = char.utf8Size + byteLength text :=
  List.sum_cons

/-- Byte lengths add up. -/
@[simp] theorem byteLength_append
    (first second : List Char) :
    byteLength (first ++ second) = byteLength first + byteLength second := by
  rw [byteLength, List.map_append, List.sum_append]
  rfl

/-- Only the empty text has no bytes. -/
theorem eq_nil_of_byteLength_eq_zero
    {text : List Char}
    (empty : byteLength text = 0) :
    text = [] := by
  cases text with
  | nil =>
      rfl
  | cons char text =>
      have positive := char.utf8Size_pos
      rw [byteLength_cons] at empty
      omega

/-- A cut happens behind the first character or further on. -/
theorem splitAt_cons
    {offset : ℕ}
    {char : Char}
    {text : List Char}
    (reached : char.utf8Size ≤ offset) :
    splitAt offset (char :: text) =
      match splitAt (offset - char.utf8Size) text with
      | none => none
      | some (before, behind) => some (char :: before, behind) := by
  have positive := char.utf8Size_pos
  cases offset with
  | zero =>
      omega
  | succ offset =>
      rw [splitAt, if_pos reached]

/-- The end of a part is a boundary. -/
theorem splitAt_append
    (before behind : List Char) :
    splitAt (byteLength before) (before ++ behind) =
      some (before, behind) := by
  induction before with
  | nil =>
      rw [byteLength_nil, List.nil_append, splitAt]
  | cons char before inductionHypothesis =>
      rw [byteLength_cons, List.cons_append,
        splitAt_cons (Nat.le_add_right _ _), Nat.add_sub_cancel_left,
        inductionHypothesis]

/-- A cut divides the text, at the offset. -/
theorem splitAt_sound
    {offset : ℕ}
    {text before behind : List Char}
    (cut : splitAt offset text = some (before, behind)) :
    text = before ++ behind ∧ byteLength before = offset := by
  induction text generalizing offset before with
  | nil =>
      cases offset with
      | zero =>
          cases cut
          exact ⟨rfl, rfl⟩
      | succ offset =>
          cases cut
  | cons char text inductionHypothesis =>
      cases offset with
      | zero =>
          cases cut
          exact ⟨rfl, rfl⟩
      | succ offset =>
          rw [splitAt] at cut
          split at cut
          · next reached =>
              split at cut
              · cases cut
              · next rest others later =>
                  cases cut
                  obtain ⟨rfl, size⟩ := inductionHypothesis later
                  refine ⟨rfl, ?_⟩
                  rw [byteLength_cons, size]
                  omega
          · cases cut

/-- A slice from the end of a part on is a cut of what is behind it. -/
theorem slice_append
    (before behind : List Char)
    (length : ℕ) :
    slice (before ++ behind) (byteLength before)
        (byteLength before + length) =
      match splitAt length behind with
      | none => none
      | some (between, _) => some between := by
  rw [slice, splitAt_append, Nat.add_sub_cancel_left]

end Utf8Text
