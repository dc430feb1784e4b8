import Mathlib.Algebra.Order.Ring.Int
import Mathlib.Tactic.LinearCombination
import Mathlib.Tactic.Module
import Mathlib.Data.Nat.Bitwise
import StarkCash.ByteMemory
import StarkCash.GroupOperations
import StarkCash.Imperative
import StarkCash.SignedWindows
import StarkCash.ThreadPool

namespace StarkCash.Rapidsnark

/-!
# Multiplication by a scalar

`buildNaf` recodes a scalar byte by byte into digits `0`, `1` and `-1` with a
table that holds eight digits for every way of entering a byte, and
`nafMulByScalar` doubles and adds along the digits.  No two digits that follow
each other are nonzero, and the result is the multiple by the scalar.
-/

/-- What is carried from one bit of the scalar to the next. -/
structure NafState where
  last : Bool
  carry : Bool
  deriving Repr, DecidableEq

/-- The digit of a bit, given the next bit (`buildNafTable`, loop body). -/
def nafStep
    (state : NafState)
    (cur : Bool) : NafState × ℕ :=
  if state.last then
    if cur then
      if state.carry then
        ({ last := false, carry := true }, 1)
      else
        ({ last := false, carry := true }, 2)
    else
      if state.carry then
        ({ last := false, carry := true }, 2)
      else
        ({ last := false, carry := false }, 1)
  else
    if cur then
      if state.carry then
        ({ last := false, carry := true }, 0)
      else
        ({ last := true, carry := false }, 0)
    else
      if state.carry then
        ({ last := true, carry := false }, 0)
      else
        ({ last := false, carry := false }, 0)

/-- The state and the digits so far, least significant first. -/
def nafLoop
    (input : ℕ)
    (progress : NafState × ℕ)
    (i : ℕ) : NafState × ℕ :=
  let (next, digit) := nafStep progress.1 (input.testBit (i + 1))
  (next, progress.2 + 256 ^ i * digit)

/-- An entry of the table, its digits as the bytes of a word. -/
def nafEntry (input : ℕ) : ℕ :=
  let (state, r64) :=
    (List.range 8).foldl (nafLoop input)
      ({ last := input.testBit 0, carry := input.testBit 9 }, 0)
  (r64 ||| if state.carry then 4 else 0) ||| if state.last then 8 else 0

/-- The table (`NAFTable`, filled by `buildNafTable`). -/
def nafTable : List ℕ :=
  (List.range 1024).map nafEntry

/-- The table index of a byte of the scalar. -/
def nafIndex
    (scalar : ℕ → UInt8)
    (scalarSize i : ℕ)
    (state : NafState) : ℕ :=
  (if state.last then 1 else 0) +
    (if i < scalarSize then (scalar i).toNat &&& 0xFE else 0) +
    (if i < (scalarSize + 2 ^ 32 - 1) % 2 ^ 32 then
      ((scalar (i + 1)).toNat &&& 1) <<< 8
    else
      0) +
    (if state.carry then 0x200 else 0)

/-- The words of the digits and the state after some bytes of the scalar. -/
def buildNafLoop
    (scalar : ℕ → UInt8)
    (scalarSize : ℕ)
    (progress : NafState × List ℕ)
    (i : ℕ) : NafState × List ℕ :=
  let rs := nafTable.getD (nafIndex scalar scalarSize i progress.1) 0
  ({ last := decide (rs &&& 8 ≠ 0), carry := decide (rs &&& 4 ≠ 0) },
    progress.2 ++ [rs &&& 0x0303030303030303])

/-- The words of the digits of a scalar (`buildNaf`). -/
def buildNaf
    (scalar : ℕ → UInt8)
    (scalarSize : ℕ) : List ℕ :=
  ((List.range ((scalarSize + 2) % 2 ^ 32)).foldl
    (buildNafLoop scalar scalarSize)
    ({ last := decide ((scalar 0).toNat &&& 1 ≠ 0), carry := false }, [])).2

/-- A digit, as a byte of the words. -/
def nafDigit
    (words : List ℕ)
    (i : ℕ) : ℕ :=
  words.getD (i / 8) 0 / 256 ^ (i % 8) % 256

/-- The number of digits without the leading zeros. -/
def skipZeros (naf : ℕ → ℕ) : ℕ → ℕ
  | 0 => 0
  | i + 1 => if naf i = 0 then skipZeros naf i else i + 1

section Multiplication

open GroupOperations

variable {Base Point : Type}

/-- Double and add along the digits below an index. -/
def mulLoop
    (G : Operations Base Point)
    (naf : ℕ → ℕ)
    (base : Base) :
    ℕ → Point → Point
  | 0, r => r
  | i + 1, r =>
      let doubled := G.dbl r
      let added :=
        if naf i = 1 then
          G.addBase doubled base
        else if naf i = 2 then
          G.subBase doubled base
        else
          doubled
      mulLoop G naf base i added

/-- Multiply a base by a scalar (`nafMulByScalar`). -/
def nafMulByScalar
    (G : Operations Base Point)
    (base : Base)
    (scalar : ℕ → UInt8)
    (scalarSize : ℕ) : Point :=
  let nBits := asInt (scalarSize * 8 + 2)
  let naf := nafDigit (buildNaf scalar scalarSize)
  mulLoop G naf base (skipZeros naf nBits.toNat) G.zero

end Multiplication

section Bits

/-- The value of a digit. -/
def nafValue (digit : ℕ) : ℤ :=
  if digit = 1 then 1 else if digit = 2 then -1 else 0

/-- The state before a bit of the table index. -/
def nafStateAt (input : ℕ) : ℕ → NafState
  | 0 => { last := input.testBit 0, carry := input.testBit 9 }
  | i + 1 => (nafStep (nafStateAt input i) (input.testBit (i + 1))).1

/-- The digit of a bit of the table index. -/
def nafDigitAt (input i : ℕ) : ℕ :=
  (nafStep (nafStateAt input i) (input.testBit (i + 1))).2

/-- The digits of a table index as the bytes of a word. -/
def nafWord (input : ℕ) : ℕ :=
  ∑ i ∈ Finset.range 8, 256 ^ i * nafDigitAt input i

/-- A step keeps the value of the state, the bit and the digit. -/
theorem nafStep_value
    (state : NafState)
    (cur : Bool) :
    (state.last.toNat : ℤ) + 2 * (state.carry.toNat + cur.toNat) =
      nafValue (nafStep state cur).2 +
        2 * ((nafStep state cur).1.last.toNat +
          2 * (nafStep state cur).1.carry.toNat) := by
  cases state with
  | mk last carry =>
      cases last <;> cases carry <;> cases cur <;> decide

/-- A step leaves at most one of the two bits set. -/
theorem nafStep_apart
    (state : NafState)
    (cur : Bool) :
    ¬ ((nafStep state cur).1.last = true ∧
      (nafStep state cur).1.carry = true) := by
  cases state with
  | mk last carry =>
      cases last <;> cases carry <;> cases cur <;> decide

/-- A digit is nonzero exactly if its bit is left over. -/
theorem nafStep_digit_ne_zero
    (state : NafState)
    (cur : Bool) :
    (nafStep state cur).2 ≠ 0 ↔ state.last = true := by
  cases state with
  | mk last carry =>
      cases last <;> cases carry <;> cases cur <;> decide

/-- After a nonzero digit nothing is left over. -/
theorem nafStep_last
    (state : NafState)
    (cur : Bool)
    (nonzero : (nafStep state cur).2 ≠ 0) :
    (nafStep state cur).1.last = false := by
  cases state with
  | mk last carry =>
      revert nonzero
      cases last <;> cases carry <;> cases cur <;> decide

/-- Digits are `0`, `1` or `2`. -/
theorem nafStep_digit_lt
    (state : NafState)
    (cur : Bool) :
    (nafStep state cur).2 < 3 := by
  cases state with
  | mk last carry =>
      cases last <;> cases carry <;> cases cur <;> decide

/-- The digits of some bits denote what the bits and the states denote. -/
theorem sum_nafDigitAt
    (input count : ℕ) :
    ((nafStateAt input 0).last.toNat : ℤ) +
        2 * ((nafStateAt input 0).carry.toNat +
          ∑ i ∈ Finset.range count,
            2 ^ i * ((input.testBit (i + 1)).toNat : ℤ)) =
      (∑ i ∈ Finset.range count, 2 ^ i * nafValue (nafDigitAt input i)) +
        2 ^ count *
          ((nafStateAt input count).last.toNat +
            2 * (nafStateAt input count).carry.toNat) := by
  induction count with
  | zero =>
      simp
  | succ count inductionHypothesis =>
      have step :=
        nafStep_value (nafStateAt input count) (input.testBit (count + 1))
      rw [Finset.sum_range_succ, Finset.sum_range_succ]
      simp only [nafStateAt, nafDigitAt] at inductionHypothesis step ⊢
      rw [pow_succ]
      linear_combination
        inductionHypothesis + 2 ^ count * step

/--
The entries of the table hold the digits, and the state that is left in the
two bits above the first digit.
-/
theorem nafEntry_decodes :
    ∀ input < 1024,
      nafEntry input &&& 0x0303030303030303 = nafWord input ∧
        NafState.mk
            (decide (nafEntry input &&& 8 ≠ 0))
            (decide (nafEntry input &&& 4 ≠ 0)) =
          nafStateAt input 8 := by
  decide +kernel

end Bits

section Bytes

variable
    (scalar : ℕ → UInt8)
    (scalarSize : ℕ)

/-- The state before a byte of the scalar. -/
def nafByteState : ℕ → NafState
  | 0 => { last := decide ((scalar 0).toNat &&& 1 ≠ 0), carry := false }
  | i + 1 => nafStateAt (nafIndex scalar scalarSize i (nafByteState i)) 8

/-- The table index of a byte with the state before it. -/
def nafByteIndex (i : ℕ) : ℕ :=
  nafIndex scalar scalarSize i (nafByteState scalar scalarSize i)

/-- The bits of the scalar that enter with a byte. -/
def nafByteBits (i : ℕ) : ℕ :=
  ByteMemory.load scalar 0 scalarSize / 256 ^ i / 2 % 256

variable
    {scalar scalarSize}

/-- The state after a byte is that after its eight bits. -/
theorem nafByteState_succ
    (i : ℕ) :
    nafByteState scalar scalarSize (i + 1) =
      nafStateAt (nafByteIndex scalar scalarSize i) 8 :=
  rfl

/-- A byte of the scalar, or nothing past its end. -/
theorem load_digit
    (i : ℕ) :
    ByteMemory.load scalar 0 scalarSize / 256 ^ i % 256 =
      if i < scalarSize then (scalar i).toNat else 0 := by
  rw [ByteMemory.load_byte, zero_add]

/-- The upper bits of a byte, in their places. -/
theorem and_upper
    (byte : UInt8) :
    byte.toNat &&& 0xFE = 2 * (byte.toNat / 2) := by
  have upper : ∀ number < 256, number &&& 0xFE = 2 * (number / 2) := by
    decide +kernel
  exact upper byte.toNat byte.toNat_lt

/-- The table index holds the state around the bits of the byte. -/
theorem nafIndex_eq
    (positive : 0 < scalarSize)
    (fits : scalarSize < 2 ^ 28)
    (i : ℕ)
    (state : NafState) :
    nafIndex scalar scalarSize i state =
      state.last.toNat + 2 * nafByteBits scalar scalarSize i +
        512 * state.carry.toNat := by
  have wrapped : (scalarSize + 2 ^ 32 - 1) % 2 ^ 32 = scalarSize - 1 := by
    omega
  have own := @load_digit scalar scalarSize i
  have next := @load_digit scalar scalarSize (i + 1)
  have shifted :
      ByteMemory.load scalar 0 scalarSize / 256 ^ (i + 1) =
        ByteMemory.load scalar 0 scalarSize / 256 ^ i / 256 := by
    rw [pow_succ, Nat.div_div_eq_div_mul]
  rw [shifted] at next
  have upper :
      (if i < scalarSize then (scalar i).toNat &&& 0xFE else 0) =
        2 * ((if i < scalarSize then (scalar i).toNat else 0) / 2) := by
    split_ifs
    · exact and_upper (scalar i)
    · rfl
  have lower :
      (if i < scalarSize - 1 then
          ((scalar (i + 1)).toNat &&& 1) <<< 8
        else
          0) =
        256 *
          ((if i + 1 < scalarSize then (scalar (i + 1)).toNat else 0) % 2) := by
    split_ifs with inside also also
    · rw [Nat.and_one_is_mod, Nat.shiftLeft_eq]
      ring
    · omega
    · omega
    · rfl
  have lastBit : (if state.last then 1 else 0) = state.last.toNat := by
    cases state.last <;> rfl
  have carryBit :
      (if state.carry then 0x200 else 0) = 512 * state.carry.toNat := by
    cases state.carry <;> rfl
  unfold nafIndex nafByteBits
  rw [wrapped, upper, lower, lastBit, carryBit, ← own, ← next]
  omega

/-- What a table index holds can be read off it. -/
theorem nafIndex_bits
    {input bits : ℕ}
    {state : NafState}
    (isInput :
      input = state.last.toNat + 2 * bits + 512 * state.carry.toNat)
    (bitsFit : bits < 256) :
    input < 1024 ∧
      nafStateAt input 0 = state ∧
      ∑ i ∈ Finset.range 8, 2 ^ i * (input.testBit (i + 1)).toNat = bits := by
  have lastFits := Bool.toNat_lt state.last
  have carryFits := Bool.toNat_lt state.carry
  have testBit :
      ∀ {position : ℕ} {bit : Bool},
        input / 2 ^ position % 2 = bit.toNat → input.testBit position = bit := by
    intro position bit isBit
    rw [Nat.testBit_eq_decide_div_mod_eq, isBit]
    cases bit <;> rfl
  refine ⟨by omega, ?_, ?_⟩
  · unfold nafStateAt
    rw [@testBit 0 state.last (by omega), @testBit 9 state.carry (by omega)]
  · have windows := SignedWindows.sum_windows 2 (input / 2) 8
    have half : input / 2 % 2 ^ 8 = bits := by omega
    rw [half] at windows
    rw [← windows]
    refine Finset.sum_congr rfl fun i _ => ?_
    rw [Nat.testBit_eq_decide_div_mod_eq, Nat.div_div_eq_div_mul,
      ← Nat.pow_succ']
    rcases Nat.mod_two_eq_zero_or_one (input / 2 ^ (i + 1)) with zero | one
    · simp [zero]
    · simp [one]

/-- Past the end of the scalar no bits enter. -/
theorem nafByteBits_of_le
    {i : ℕ}
    (past : scalarSize ≤ i) :
    nafByteBits scalar scalarSize i = 0 := by
  unfold nafByteBits
  rw [ByteMemory.load_div_of_le scalar 0 past]

/-- What the index of a byte holds. -/
theorem nafByteIndex_bits
    (positive : 0 < scalarSize)
    (fits : scalarSize < 2 ^ 28)
    (i : ℕ) :
    nafByteIndex scalar scalarSize i < 1024 ∧
      nafStateAt (nafByteIndex scalar scalarSize i) 0 =
        nafByteState scalar scalarSize i ∧
      ∑ j ∈ Finset.range 8,
          2 ^ j *
            ((nafByteIndex scalar scalarSize i).testBit (j + 1)).toNat =
        nafByteBits scalar scalarSize i :=
  nafIndex_bits (nafIndex_eq positive fits i _)
    (Nat.mod_lt _ (by decide))

/-- Eight digits denote the bits of a byte and the states around it. -/
theorem nafByte_value
    (positive : 0 < scalarSize)
    (fits : scalarSize < 2 ^ 28)
    (i : ℕ) :
    ((nafByteState scalar scalarSize i).last.toNat : ℤ) +
        2 * ((nafByteState scalar scalarSize i).carry.toNat +
          nafByteBits scalar scalarSize i) =
      (∑ j ∈ Finset.range 8,
          2 ^ j *
            nafValue (nafDigitAt (nafByteIndex scalar scalarSize i) j)) +
        256 *
          ((nafByteState scalar scalarSize (i + 1)).last.toNat +
            2 * (nafByteState scalar scalarSize (i + 1)).carry.toNat) := by
  obtain ⟨-, state, bits⟩ := @nafByteIndex_bits scalar scalarSize positive fits i
  have digits := sum_nafDigitAt (nafByteIndex scalar scalarSize i) 8
  have bits' :
      ∑ j ∈ Finset.range 8,
          (2 : ℤ) ^ j *
            ((nafByteIndex scalar scalarSize i).testBit (j + 1)).toNat =
        nafByteBits scalar scalarSize i := by
    exact_mod_cast bits
  rw [state, bits'] at digits
  exact digits

/-- The digits of all bytes so far, and what is left of the scalar. -/
theorem sum_nafBytes
    (positive : 0 < scalarSize)
    (fits : scalarSize < 2 ^ 28)
    (count : ℕ) :
    (∑ i ∈ Finset.range count,
        (256 : ℤ) ^ i *
          ∑ j ∈ Finset.range 8,
            2 ^ j *
              nafValue (nafDigitAt (nafByteIndex scalar scalarSize i) j)) +
        256 ^ count *
          ((nafByteState scalar scalarSize count).last.toNat +
            2 * ((nafByteState scalar scalarSize count).carry.toNat +
              (ByteMemory.load scalar 0 scalarSize / 256 ^ count / 2 : ℕ))) =
      ByteMemory.load scalar 0 scalarSize := by
  induction count with
  | zero =>
      have low := @load_digit scalar scalarSize 0
      rw [if_pos positive, pow_zero, Nat.div_one] at low
      have lowBit :
          (decide ((scalar 0).toNat &&& 1 ≠ 0)).toNat =
            ByteMemory.load scalar 0 scalarSize % 2 := by
        rw [Nat.and_one_is_mod, ← low]
        rcases Nat.mod_two_eq_zero_or_one
            (ByteMemory.load scalar 0 scalarSize) with zero | one
        · have zero' : ByteMemory.load scalar 0 scalarSize % 256 % 2 = 0 := by
            omega
          simp [zero', zero]
        · have one' : ByteMemory.load scalar 0 scalarSize % 256 % 2 = 1 := by
            omega
          simp [one', one]
      simp only [Finset.sum_range_zero, pow_zero, Nat.div_one, zero_add,
        one_mul, nafByteState, lowBit, Bool.toNat_false]
      omega
  | succ count inductionHypothesis =>
      have byte := @nafByte_value scalar scalarSize positive fits count
      have split :
          (ByteMemory.load scalar 0 scalarSize / 256 ^ count / 2 : ℕ) =
            nafByteBits scalar scalarSize count +
              256 *
                (ByteMemory.load scalar 0 scalarSize / 256 ^ (count + 1) /
                  2) := by
        unfold nafByteBits
        rw [pow_succ, ← Nat.div_div_eq_div_mul]
        omega
      rw [split] at inductionHypothesis
      rw [Finset.sum_range_succ]
      generalize
        ByteMemory.load scalar 0 scalarSize / 256 ^ (count + 1) / 2 = rest
        at inductionHypothesis ⊢
      push_cast at inductionHypothesis ⊢
      rw [pow_succ]
      linear_combination inductionHypothesis - 256 ^ count * byte

/-- A table is read at an index. -/
theorem getD_map_range
    (entry : ℕ → ℕ)
    {index count : ℕ}
    (inside : index < count) :
    ((List.range count).map entry).getD index 0 = entry index := by
  rw [List.getD_eq_getElem _ _ (by simpa using inside), List.getElem_map,
    List.getElem_range]

/-- A byte is recoded by the entry of its index. -/
theorem buildNafLoop_eq
    (positive : 0 < scalarSize)
    (fits : scalarSize < 2 ^ 28)
    (words : List ℕ)
    (i : ℕ) :
    buildNafLoop scalar scalarSize
        (nafByteState scalar scalarSize i, words) i =
      (nafByteState scalar scalarSize (i + 1),
        words ++ [nafWord (nafByteIndex scalar scalarSize i)]) := by
  obtain ⟨inTable, -, -⟩ :=
    @nafByteIndex_bits scalar scalarSize positive fits i
  obtain ⟨word, state⟩ := nafEntry_decodes _ inTable
  have found :
      nafTable.getD (nafByteIndex scalar scalarSize i) 0 =
        nafEntry (nafByteIndex scalar scalarSize i) :=
    getD_map_range nafEntry inTable
  rw [nafByteState_succ, ← state, ← word, ← found]
  rfl

/-- The loop over the bytes stores these words. -/
theorem buildNaf_eq
    (positive : 0 < scalarSize)
    (fits : scalarSize < 2 ^ 28) :
    buildNaf scalar scalarSize =
      (List.range (scalarSize + 2)).map fun i =>
        nafWord (nafByteIndex scalar scalarSize i) := by
  have processed :
      ∀ count,
        (List.range count).foldl (buildNafLoop scalar scalarSize)
            (nafByteState scalar scalarSize 0, []) =
          (nafByteState scalar scalarSize count,
            (List.range count).map fun i =>
              nafWord (nafByteIndex scalar scalarSize i)) := by
    intro count
    induction count with
    | zero =>
        rfl
    | succ count inductionHypothesis =>
        rw [List.range_succ, List.foldl_append, inductionHypothesis,
          List.foldl_cons, List.foldl_nil, buildNafLoop_eq positive fits,
          List.map_append, List.map_singleton]
  unfold buildNaf
  rw [Nat.mod_eq_of_lt (by omega : scalarSize + 2 < 2 ^ 32)]
  exact congrArg Prod.snd (processed (scalarSize + 2))

/-- A digit fits a byte. -/
theorem toNat_nafDigitAt
    (input i : ℕ) :
    (UInt8.ofNat (nafDigitAt input i)).toNat = nafDigitAt input i := by
  have small : nafDigitAt input i < 3 := nafStep_digit_lt _ _
  rw [UInt8.toNat_ofNat', Nat.mod_eq_of_lt (by omega)]

/-- The bytes of a word are its digits. -/
theorem nafWord_div
    (input : ℕ)
    {j : ℕ}
    (inside : j < 8) :
    nafWord input / 256 ^ j % 256 = nafDigitAt input j := by
  have bytes :
      nafWord input =
        ByteMemory.load
          (fun i => UInt8.ofNat (nafDigitAt input i)) 0 8 := by
    unfold nafWord ByteMemory.load
    refine Finset.sum_congr rfl fun i _ => ?_
    rw [zero_add, toNat_nafDigitAt]
  rw [bytes, load_digit, if_pos inside, toNat_nafDigitAt]

/-- The digits of a scalar, byte by byte. -/
theorem nafDigit_buildNaf
    (positive : 0 < scalarSize)
    (fits : scalarSize < 2 ^ 28)
    {i j : ℕ}
    (stored : i < scalarSize + 2)
    (inside : j < 8) :
    nafDigit (buildNaf scalar scalarSize) (8 * i + j) =
      nafDigitAt (nafByteIndex scalar scalarSize i) j := by
  have byte : (8 * i + j) / 8 = i := by omega
  have bit : (8 * i + j) % 8 = j := by omega
  unfold nafDigit
  rw [byte, bit, buildNaf_eq positive fits,
    List.getD_eq_getElem _ _ (by simpa using stored)]
  simp only [List.getElem_map, List.getElem_range]
  exact nafWord_div _ inside

/-- Digits are summed byte by byte. -/
theorem sum_range_eight_mul
    (term : ℕ → ℤ)
    (count : ℕ) :
    ∑ k ∈ Finset.range (8 * count), 2 ^ k * term k =
      ∑ i ∈ Finset.range count,
        (256 : ℤ) ^ i * ∑ j ∈ Finset.range 8, 2 ^ j * term (8 * i + j) := by
  induction count with
  | zero =>
      rfl
  | succ count inductionHypothesis =>
      rw [Nat.mul_succ, Finset.sum_range_add, inductionHypothesis,
        Finset.sum_range_succ _ count]
      congr 1
      rw [Finset.mul_sum]
      refine Finset.sum_congr rfl fun j _ => ?_
      rw [pow_add, pow_mul]
      norm_num
      ring

/-- At most one of the two bits is left over. -/
theorem nafStateAt_apart
    (input i : ℕ) :
    ¬ ((nafStateAt input (i + 1)).last = true ∧
      (nafStateAt input (i + 1)).carry = true) :=
  nafStep_apart _ _

/-- What is left over is worked off within two digits. -/
theorem nafIndex_rest :
    (nafStateAt 0 8 = ⟨false, false⟩ ∧
        nafStateAt 1 8 = ⟨false, false⟩ ∧
        nafStateAt 512 8 = ⟨false, false⟩) ∧
      ∀ j < 8,
        nafDigitAt 0 j = 0 ∧
          (2 ≤ j → nafDigitAt 1 j = 0 ∧ nafDigitAt 512 j = 0) := by
  decide +kernel

/-- The last carry is worked off within the two bits past the scalar. -/
theorem nafByte_past
    (positive : 0 < scalarSize)
    (fits : scalarSize < 2 ^ 28) :
    nafByteState scalar scalarSize (scalarSize + 2) = ⟨false, false⟩ ∧
      (∀ j < 8,
        2 ≤ j → nafDigitAt (nafByteIndex scalar scalarSize scalarSize) j = 0) ∧
      ∀ j < 8,
        nafDigitAt (nafByteIndex scalar scalarSize (scalarSize + 1)) j = 0 := by
  have index :
      ∀ past ≥ scalarSize,
        nafByteIndex scalar scalarSize past =
          (nafByteState scalar scalarSize past).last.toNat +
            512 * (nafByteState scalar scalarSize past).carry.toNat := by
    intro past above
    have isIndex :=
      @nafIndex_eq scalar scalarSize positive fits past
        (nafByteState scalar scalarSize past)
    rw [nafByteBits_of_le above, mul_zero, add_zero] at isIndex
    exact isIndex
  have apart :
      ¬ ((nafByteState scalar scalarSize scalarSize).last = true ∧
        (nafByteState scalar scalarSize scalarSize).carry = true) := by
    obtain ⟨size, isSize⟩ := Nat.exists_eq_succ_of_ne_zero positive.ne'
    generalize index : nafByteIndex scalar scalarSize size = input
    have state :
        nafByteState scalar scalarSize scalarSize = nafStateAt input 8 := by
      rw [← index, ← nafByteState_succ, ← Nat.succ_eq_add_one, ← isSize]
    rw [state]
    exact nafStateAt_apart input 7
  obtain ⟨⟨done, lastDone, carryDone⟩, digits⟩ := nafIndex_rest
  have first : nafByteIndex scalar scalarSize scalarSize ∈ [0, 1, 512] := by
    rw [index scalarSize (le_refl _)]
    generalize nafByteState scalar scalarSize scalarSize = state at apart
    cases state with
    | mk last carry =>
        revert apart
        cases last <;> cases carry <;> decide
  simp only [List.mem_cons, List.not_mem_nil, or_false] at first
  have worked :
      nafByteState scalar scalarSize (scalarSize + 1) = ⟨false, false⟩ := by
    rw [nafByteState_succ]
    rcases first with zero | one | carried
    · rw [zero]
      exact done
    · rw [one]
      exact lastDone
    · rw [carried]
      exact carryDone
  have second : nafByteIndex scalar scalarSize (scalarSize + 1) = 0 := by
    rw [index (scalarSize + 1) (Nat.le_succ _), worked]
    rfl
  refine ⟨?_, ?_, ?_⟩
  · rw [nafByteState_succ, second]
    exact done
  · intro j inside high
    rcases first with zero | one | carried
    · rw [zero]
      exact (digits j inside).1
    · rw [one]
      exact ((digits j inside).2 high).1
    · rw [carried]
      exact ((digits j inside).2 high).2
  · intro j inside
    rw [second]
    exact (digits j inside).1

/-- The digits denote the scalar. -/
theorem sum_nafDigit
    (positive : 0 < scalarSize)
    (fits : scalarSize < 2 ^ 28) :
    ∑ k ∈ Finset.range (scalarSize * 8 + 2),
        2 ^ k * nafValue (nafDigit (buildNaf scalar scalarSize) k) =
      (ByteMemory.load scalar 0 scalarSize : ℤ) := by
  obtain ⟨final, high, higher⟩ :=
    @nafByte_past scalar scalarSize positive fits
  have all := @sum_nafBytes scalar scalarSize positive fits (scalarSize + 2)
  rw [final, ByteMemory.load_div_of_le scalar 0 (Nat.le_add_right _ 2)] at all
  simp only [Bool.toNat_false, Nat.zero_div, Nat.cast_zero, mul_zero,
    add_zero] at all
  have digits :
      ∑ k ∈ Finset.range (8 * (scalarSize + 2)),
          2 ^ k * nafValue (nafDigit (buildNaf scalar scalarSize) k) =
        (ByteMemory.load scalar 0 scalarSize : ℤ) := by
    rw [← all, sum_range_eight_mul]
    refine Finset.sum_congr rfl fun i stored => ?_
    congr 1
    refine Finset.sum_congr rfl fun j inside => ?_
    rw [nafDigit_buildNaf positive fits (Finset.mem_range.mp stored)
      (Finset.mem_range.mp inside)]
  rw [← digits]
  refine
    Finset.sum_subset (Finset.range_mono (by omega)) fun k below above => ?_
  rw [Finset.mem_range] at below above
  have isDigit : k = 8 * (k / 8) + k % 8 := by omega
  have none : nafDigit (buildNaf scalar scalarSize) k = 0 := by
    rw [isDigit, nafDigit_buildNaf positive fits (by omega) (by omega)]
    rcases Nat.lt_or_ge (k / 8) (scalarSize + 1) with early | late
    · have own : k / 8 = scalarSize := by omega
      rw [own]
      exact high _ (by omega) (by omega)
    · have own : k / 8 = scalarSize + 1 := by omega
      rw [own]
      exact higher _ (by omega)
  rw [none]
  exact mul_zero _

/-- After a nonzero digit of a table index comes a zero, or a state of zero. -/
theorem nafDigitAt_last
    {input j : ℕ}
    (nonzero : nafDigitAt input j ≠ 0) :
    (nafStateAt input (j + 1)).last = false :=
  nafStep_last _ _ nonzero

/-- Without a bit left over the digit is zero. -/
theorem nafDigitAt_eq_zero
    {input j : ℕ}
    (none : (nafStateAt input j).last = false) :
    nafDigitAt input j = 0 := by
  by_contra nonzero
  have leftOver := (nafStep_digit_ne_zero _ _).mp nonzero
  rw [none] at leftOver
  cases leftOver

/-- No two digits that follow each other are nonzero. -/
theorem nafDigit_nonadjacent
    (positive : 0 < scalarSize)
    (fits : scalarSize < 2 ^ 28)
    {k : ℕ}
    (nonzero : nafDigit (buildNaf scalar scalarSize) k ≠ 0) :
    nafDigit (buildNaf scalar scalarSize) (k + 1) = 0 := by
  have length : (buildNaf scalar scalarSize).length = scalarSize + 2 := by
    rw [buildNaf_eq positive fits]
    simp
  have past :
      ∀ position,
        8 * (scalarSize + 2) ≤ position →
        nafDigit (buildNaf scalar scalarSize) position = 0 := by
    intro position above
    unfold nafDigit
    rw [List.getD_eq_default _ _ (by omega), Nat.zero_div]
  rcases Nat.lt_or_ge k (8 * (scalarSize + 2)) with stored | above
  · have isDigit : k = 8 * (k / 8) + k % 8 := by omega
    rw [isDigit, nafDigit_buildNaf positive fits (by omega) (by omega)]
      at nonzero
    have last := nafDigitAt_last nonzero
    rcases Nat.lt_or_ge (k % 8) 7 with inside | final
    · have next : k + 1 = 8 * (k / 8) + (k % 8 + 1) := by omega
      rw [next, nafDigit_buildNaf positive fits (by omega) (by omega)]
      exact nafDigitAt_eq_zero last
    · have byte : k % 8 = 7 := by omega
      have next : k + 1 = 8 * (k / 8 + 1) + 0 := by omega
      rcases Nat.lt_or_ge (k / 8 + 1) (scalarSize + 2) with more | done
      · rw [next, nafDigit_buildNaf positive fits more (by omega)]
        refine nafDigitAt_eq_zero ?_
        obtain ⟨-, state, -⟩ :=
          @nafByteIndex_bits scalar scalarSize positive fits (k / 8 + 1)
        rw [state, nafByteState_succ]
        rw [byte] at last
        exact last
      · exact past (k + 1) (by omega)
  · exact absurd (past k above) nonzero

end Bytes

section Multiples

open GroupOperations

variable
    {Base Point Group : Type}
    [AddCommGroup Group]
    {G : Operations Base Point}
    {denotesBase : Base → Group → Prop}
    {denotes : Point → Group → Prop}

/-- Leading zeros denote nothing. -/
theorem sum_skipZeros
    (naf : ℕ → ℕ)
    (count : ℕ) :
    ∑ k ∈ Finset.range (skipZeros naf count), 2 ^ k * nafValue (naf k) =
      ∑ k ∈ Finset.range count, 2 ^ k * nafValue (naf k) := by
  induction count with
  | zero =>
      rfl
  | succ count inductionHypothesis =>
      rw [skipZeros]
      split_ifs with zero
      · rw [inductionHypothesis, Finset.sum_range_succ, zero]
        simp [nafValue]
      · rfl

/-- Doubling and adding along the digits multiplies by what they denote. -/
theorem mulLoop_denotes
    (represents : G.Represents denotesBase denotes)
    {base : Base}
    {B : Group}
    (isBase : denotesBase base B)
    (naf : ℕ → ℕ)
    (count : ℕ)
    {r : Point}
    {R : Group}
    (isPoint : denotes r R) :
    denotes (mulLoop G naf base count r)
      ((2 : ℤ) ^ count • R +
        (∑ k ∈ Finset.range count, 2 ^ k * nafValue (naf k)) • B) := by
  induction count generalizing r R with
  | zero =>
      simpa [mulLoop] using isPoint
  | succ count inductionHypothesis =>
      have doubled := represents.dbl isPoint
      have digit :
          denotes
            (if naf count = 1 then
              G.addBase (G.dbl r) base
            else if naf count = 2 then
              G.subBase (G.dbl r) base
            else
              G.dbl r)
            (R + R + nafValue (naf count) • B) := by
        unfold nafValue
        split_ifs with one two
        · rw [one_smul]
          exact represents.addBase doubled isBase
        · rw [neg_smul, one_smul, ← sub_eq_add_neg]
          exact represents.subBase doubled isBase
        · rw [zero_smul, add_zero]
          exact doubled
      have rest := inductionHypothesis digit
      have value :
          (2 : ℤ) ^ count • (R + R + nafValue (naf count) • B) +
              (∑ k ∈ Finset.range count, 2 ^ k * nafValue (naf k)) • B =
            (2 : ℤ) ^ (count + 1) • R +
              (∑ k ∈ Finset.range (count + 1), 2 ^ k * nafValue (naf k)) •
                B := by
        rw [Finset.sum_range_succ]
        module
      rw [value] at rest
      exact rest

/-- A base times a scalar is the multiple by the number of its bytes. -/
theorem nafMulByScalar_denotes
    (represents : G.Represents denotesBase denotes)
    {base : Base}
    {B : Group}
    (isBase : denotesBase base B)
    (scalar : ℕ → UInt8)
    {scalarSize : ℕ}
    (positive : 0 < scalarSize)
    (fits : scalarSize < 2 ^ 28) :
    denotes (nafMulByScalar G base scalar scalarSize)
      (ByteMemory.load scalar 0 scalarSize • B) := by
  have multiplied :=
    mulLoop_denotes represents isBase
      (nafDigit (buildNaf scalar scalarSize))
      (skipZeros (nafDigit (buildNaf scalar scalarSize)) (scalarSize * 8 + 2))
      represents.zero
  rw [smul_zero, zero_add, sum_skipZeros, sum_nafDigit positive fits,
    natCast_zsmul] at multiplied
  unfold nafMulByScalar
  simp only [asInt_eq (show scalarSize * 8 + 2 < 2 ^ 31 by omega),
    Int.toNat_natCast]
  exact multiplied

end Multiples

end StarkCash.Rapidsnark
