import Mathlib.Data.Nat.ModEq
import Mathlib.Logic.Function.Basic
import Mathlib.Tactic.Linarith

namespace HistoryRing

/-!
# Ring buffers as windows over a sequence

A ring of a fixed size receives the values of a sequence in order, each at its
position modulo the size.  Its slots then hold exactly the last values of the
sequence, and the slots not reached yet still hold the blank value.
-/

variable {α : Type*}

/-- The slots after the values at positions `0` to `count` were written. -/
structure Holds
    (size : ℕ)
    (blank : α)
    (values : ℕ → α)
    (count : ℕ)
    (slots : ℕ → α) : Prop where
  recent :
    ∀ position,
      position ≤ count →
      count < position + size →
      slots (position % size) = values position
  unwritten :
    ∀ slot,
      count < slot →
      slot < size →
      slots slot = blank

/-- A position lies in the window of the last `size` values up to `count`. -/
def InWindow
    (size count position : ℕ) : Prop :=
  position ≤ count ∧ count < position + size

/-- Positions less than one turn apart do not share a slot. -/
theorem mod_ne_of_lt_add
    {size first second : ℕ}
    (before : first < second)
    (near : second < first + size) :
    first % size ≠ second % size := by
  intro same
  have divides : size ∣ second - first :=
    (Nat.modEq_iff_dvd' (Nat.le_of_lt before)).mp same
  have atLeast : size ≤ second - first :=
    Nat.le_of_dvd (Nat.sub_pos_of_lt before) divides
  omega

namespace Holds

variable
    {size : ℕ}
    {blank : α}
    {values : ℕ → α}
    {count : ℕ}
    {slots : ℕ → α}

/-- A blank ring whose first slot was written holds one value. -/
theorem start
    (first : slots 0 = values 0)
    (rest : ∀ slot, 0 < slot → slot < size → slots slot = blank) :
    Holds size blank values 0 slots := by
  constructor
  · intro position reached _
    obtain rfl : position = 0 := Nat.le_zero.mp reached
    simpa using first
  · exact rest

/-- Writing the next value at its slot moves the window by one. -/
theorem push
    (holds : Holds size blank values count slots) :
    Holds size blank values (count + 1)
      (Function.update slots ((count + 1) % size)
        (values (count + 1))) := by
  constructor
  · intro position reached near
    rcases Nat.le_succ_iff.mp reached with earlier | rfl
    · have otherSlot :
          position % size ≠ (count + 1) % size :=
        mod_ne_of_lt_add (Nat.lt_succ_of_le earlier) near
      rw [Function.update_of_ne otherSlot]
      exact holds.recent position earlier (by omega)
    · rw [Function.update_self]
  · intro slot beyond inRing
    have otherSlot : slot ≠ (count + 1) % size := by
      rw [Nat.mod_eq_of_lt (by omega)]
      omega
    rw [Function.update_of_ne otherSlot]
    exact holds.unwritten slot (by omega) inRing

/-- The ring depends on the written part of the sequence only. -/
theorem congr
    {values' : ℕ → α}
    (same : ∀ position, position ≤ count → values position = values' position)
    (holds : Holds size blank values count slots) :
    Holds size blank values' count slots := by
  constructor
  · intro position reached near
    rw [← same position reached]
    exact holds.recent position reached near
  · exact holds.unwritten

/-- Every written slot belongs to one position of the window. -/
theorem exists_position
    {slot : ℕ}
    (inRing : slot < size)
    (written : slot ≤ count) :
    ∃ position,
      InWindow size count position ∧ position % size = slot := by
  have turn := Nat.mod_lt (count - slot) (Nat.zero_lt_of_lt inRing)
  refine
    ⟨count - (count - slot) % size, ⟨Nat.sub_le _ _, ?_⟩, ?_⟩
  · omega
  · have split := Nat.div_add_mod (count - slot) size
    have shape :
        count - (count - slot) % size =
          slot + size * ((count - slot) / size) := by
      omega
    rw [shape, Nat.add_mul_mod_self_left, Nat.mod_eq_of_lt inRing]

/-- A value other than the blank is found exactly if it is in the window. -/
theorem exists_slot_iff
    (holds : Holds size blank values count slots)
    {value : α}
    (notBlank : value ≠ blank) :
    (∃ slot, slot < size ∧ slots slot = value) ↔
      ∃ position,
        InWindow size count position ∧ values position = value := by
  constructor
  · rintro ⟨slot, inRing, found⟩
    have written : slot ≤ count := by
      by_contra beyond
      rw [holds.unwritten slot (by omega) inRing] at found
      exact notBlank found.symm
    obtain ⟨position, inWindow, rfl⟩ :=
      exists_position inRing written
    refine ⟨position, inWindow, ?_⟩
    rw [← holds.recent position inWindow.1 inWindow.2]
    exact found
  · rintro ⟨position, ⟨reached, near⟩, found⟩
    have inRing : position % size < size :=
      Nat.mod_lt position (by omega)
    refine ⟨position % size, inRing, ?_⟩
    rw [holds.recent position reached near, found]

end Holds

section Sequences

variable
    {size count : ℕ}
    {blank : α}
    {values : ℕ → α}

/-- The values at positions `0` to `count`. -/
def sequence (values : ℕ → α) (count : ℕ) : List α :=
  (List.range (count + 1)).map values

/--
A bounded history of a sequence: the known values are those of the last `size`
positions other than the blank, the current value is the last one, and the
write position is the last position modulo the size.
-/
structure Exact
    (size : ℕ)
    (blank : α)
    (history : List α)
    (known : α → Prop)
    (current : α)
    (position count : ℕ) : Prop where
  length :
    history.length = count + 1
  known_iff :
    ∀ value,
      known value ↔
        value ≠ blank ∧
          ∃ index,
            index ≤ count ∧
              count < index + size ∧
              history[index]? = some value
  current :
    history[count]? = some current
  position :
    position = count % size

end Sequences

end HistoryRing
