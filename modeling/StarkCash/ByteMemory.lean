import Mathlib.Algebra.BigOperators.Intervals
import Mathlib.Algebra.BigOperators.Ring.Finset
import Mathlib.Algebra.Order.Ring.Nat
import Mathlib.Data.Nat.Bitwise
import Mathlib.Tactic.Ring

namespace ByteMemory

/-!
# Little-endian numbers in memory

The number that consecutive bytes denote, least significant byte first.  A part
of the bytes denotes the digits of the number at its place, so a word read in
the middle of a number is a window of it.
-/

open Finset

/-- The number of `count` bytes from an address on. -/
def load
    (memory : ℕ → UInt8)
    (address count : ℕ) : ℕ :=
  ∑ index ∈ range count, 256 ^ index * (memory (address + index)).toNat

/-- No bytes denote zero. -/
@[simp] theorem load_zero
    (memory : ℕ → UInt8)
    (address : ℕ) :
    load memory address 0 = 0 :=
  rfl

/-- Bytes that follow others denote multiples of their range. -/
theorem load_add
    (memory : ℕ → UInt8)
    (address first count : ℕ) :
    load memory address (first + count) =
      load memory address first +
        256 ^ first * load memory (address + first) count := by
  unfold load
  rw [sum_range_add, mul_sum]
  congr 1
  refine sum_congr rfl fun index _ => ?_
  rw [pow_add, mul_assoc, add_assoc]

/-- A single byte denotes itself. -/
theorem load_one
    (memory : ℕ → UInt8)
    (address : ℕ) :
    load memory address 1 = (memory address).toNat := by
  simp [load]

/-- The bytes denote less than their range. -/
theorem load_lt
    (memory : ℕ → UInt8)
    (address count : ℕ) :
    load memory address count < 256 ^ count := by
  induction count with
  | zero =>
      simp
  | succ count inductionHypothesis =>
      have byte : (memory (address + count)).toNat < 256 :=
        (memory (address + count)).toNat_lt
      rw [load_add, load_one, pow_succ]
      have scaled :
          256 ^ count * (memory (address + count)).toNat ≤
            256 ^ count * 255 :=
        Nat.mul_le_mul_left _ (by omega)
      omega

/-- The bytes from an offset on denote the number without those before. -/
theorem load_div
    (memory : ℕ → UInt8)
    (address : ℕ)
    {offset total : ℕ}
    (fits : offset ≤ total) :
    load memory address total / 256 ^ offset =
      load memory (address + offset) (total - offset) := by
  obtain ⟨rest, rfl⟩ := Nat.exists_eq_add_of_le fits
  rw [load_add, Nat.add_sub_cancel_left,
    Nat.add_mul_div_left _ _ (Nat.pow_pos (by decide)),
    Nat.div_eq_of_lt (load_lt memory address offset), zero_add]

/-- The first bytes denote the number modulo their range. -/
theorem load_mod
    (memory : ℕ → UInt8)
    (address : ℕ)
    {count total : ℕ}
    (fits : count ≤ total) :
    load memory address total % 256 ^ count = load memory address count := by
  obtain ⟨rest, rfl⟩ := Nat.exists_eq_add_of_le fits
  rw [load_add, Nat.add_mul_mod_self_left,
    Nat.mod_eq_of_lt (load_lt memory address count)]

/-- A word in the middle of a number is a window of it. -/
theorem load_window
    (memory : ℕ → UInt8)
    (address : ℕ)
    {offset count total : ℕ}
    (fits : offset + count ≤ total) :
    load memory (address + offset) count =
      load memory address total / 256 ^ offset % 256 ^ count := by
  rw [load_div memory address (by omega),
    load_mod memory (address + offset) (by omega)]

/-- Past its bytes a number has no digits. -/
theorem load_div_of_le
    (memory : ℕ → UInt8)
    (address : ℕ)
    {offset total : ℕ}
    (past : total ≤ offset) :
    load memory address total / 256 ^ offset = 0 := by
  refine Nat.div_eq_of_lt ((load_lt memory address total).trans_le ?_)
  exact Nat.pow_le_pow_right (by decide) past

/-- Reading further on is reading from a memory that begins there. -/
theorem load_shift
    (memory : ℕ → UInt8)
    (distance address count : ℕ) :
    load (fun place => memory (place + distance)) address count =
      load memory (address + distance) count := by
  refine sum_congr rfl fun index _ => ?_
  rw [Nat.add_right_comm]

/-- A byte of the memory is a digit of the number, past which it has none. -/
theorem load_byte
    (memory : ℕ → UInt8)
    (address total offset : ℕ) :
    load memory address total / 256 ^ offset % 256 =
      if offset < total then (memory (address + offset)).toNat else 0 := by
  split_ifs with inside
  · have window :=
      @load_window memory address offset 1 total (by omega)
    rw [load_one, pow_one] at window
    exact window.symm
  · rw [load_div_of_le memory address (by omega)]

/-- A bit of a byte of the memory is a bit of the number. -/
theorem testBit_load
    (memory : ℕ → UInt8)
    (address : ℕ)
    {total bit : ℕ}
    (inside : bit < total * 8) :
    (load memory address total).testBit bit =
      (memory (address + bit / 8)).toNat.testBit (bit % 8) := by
  have byte := load_byte memory address total (bit / 8)
  have place : 8 * (bit / 8) + bit % 8 = bit := Nat.div_add_mod bit 8
  have range : (256 : ℕ) ^ (bit / 8) = 2 ^ (8 * (bit / 8)) := by
    rw [pow_mul]
    norm_num
  have small : (256 : ℕ) = 2 ^ 8 := by norm_num
  have low : bit % 8 < 8 := Nat.mod_lt _ (by decide)
  rw [if_pos (by omega), range] at byte
  rw [← byte, small, Nat.testBit_mod_two_pow, Nat.testBit_div_two_pow, add_comm,
    place, decide_eq_true low, Bool.true_and]

/-- The bytes of a number in memory, least significant byte first. -/
def bytes (number : ℕ) (address : ℕ) : UInt8 :=
  UInt8.ofNat (number / 256 ^ address)

/-- The bytes of a number denote it as far as they reach. -/
theorem load_bytes
    (number count : ℕ) :
    load (bytes number) 0 count = number % 256 ^ count := by
  induction count with
  | zero =>
      simp [Nat.mod_one]
  | succ count inductionHypothesis =>
      have byte : (bytes number count).toNat = number / 256 ^ count % 256 := by
        rw [bytes, UInt8.toNat_ofNat']
      rw [load_add, load_one, inductionHypothesis, zero_add, byte, pow_succ,
        Nat.mod_mul]

end ByteMemory
