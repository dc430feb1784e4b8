import Mathlib.Algebra.Field.ZMod
import StarkCash.ByteMemory

namespace StarkCash.Rapidsnark

/-!
# Field elements in memory

`RawFr` holds an element as the number of its product with `2 ^ 256`, in
thirty-two bytes.  Its multiplication is that of the elements, and converting
an element changes the number to that of another element.  Scalars are read
from the bytes, so what they are is the number and not the element.
-/

open Finset

namespace RawFr

variable
    {q : ℕ}
    [Fact q.Prime]

/-- Bytes of an element. -/
def sizeOfElement : ℕ := 32

/-- The factor between an element and its number. -/
def montgomeryFactor (q : ℕ) : ZMod q :=
  (2 ^ 256 : ℕ)

/-- The number that an element is held as. -/
def raw (element : ZMod q) : ℕ :=
  (element * montgomeryFactor q).val

/-- The element whose number is the product of the number with the factor. -/
def toMontgomery (a : ZMod q) : ZMod q :=
  a * montgomeryFactor q

/-- The element whose number is the element. -/
def fromMontgomery (a : ZMod q) : ZMod q :=
  a / montgomeryFactor q

/-- The element at an index of an array in memory. -/
def elementAt (memory : ℕ → UInt8) (index : ℕ) : ZMod q :=
  (ByteMemory.load memory (index * sizeOfElement) sizeOfElement : ℕ) /
    montgomeryFactor q

/-- The memory of an array of elements. -/
def arrayBytes (a : ℕ → ZMod q) (address : ℕ) : UInt8 :=
  ByteMemory.bytes (raw (a (address / sizeOfElement))) (address % sizeOfElement)

/-- The number of a converted element is the element. -/
theorem raw_fromMontgomery
    (factor : montgomeryFactor q ≠ 0)
    (a : ZMod q) :
    raw (fromMontgomery a) = a.val := by
  rw [raw, fromMontgomery, div_mul_cancel₀ _ factor]

/-- The bytes of an element are those of its number. -/
theorem load_arrayBytes
    (range : q ≤ 2 ^ 256)
    (a : ℕ → ZMod q)
    (index : ℕ) :
    ByteMemory.load (arrayBytes a) (index * sizeOfElement) sizeOfElement =
      raw (a index) := by
  have number :
      ByteMemory.load (arrayBytes a) (index * sizeOfElement) sizeOfElement =
        ByteMemory.load (ByteMemory.bytes (raw (a index))) 0 sizeOfElement := by
    unfold ByteMemory.load
    refine sum_congr rfl fun offset member => ?_
    have inside := mem_range.mp member
    unfold sizeOfElement at inside ⊢
    have element : (index * 32 + offset) / 32 = index := by omega
    have byte : (index * 32 + offset) % 32 = offset := by omega
    unfold arrayBytes sizeOfElement
    rw [element, byte, zero_add]
  have below : raw (a index) < 256 ^ sizeOfElement := by
    have size : (256 : ℕ) ^ sizeOfElement = 2 ^ 256 := by
      unfold sizeOfElement
      norm_num
    rw [size]
    exact (ZMod.val_lt _).trans_le range
  rw [number, ByteMemory.load_bytes, Nat.mod_eq_of_lt below]

end RawFr

end StarkCash.Rapidsnark
