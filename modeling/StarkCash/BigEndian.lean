import Mathlib.Data.List.Induction
import Mathlib.Algebra.Order.Ring.Nat

namespace BigEndian

/-!
# Big-endian byte strings

The number of a byte string, most significant byte first, and the byte string
of a fixed length of a number.  On numbers that fit the length the two are
inverse to each other, and every byte string is the encoding of its number.
-/

/-- The number a byte string denotes, most significant byte first. -/
def value (bytes : List UInt8) : ℕ :=
  bytes.foldl (fun prior byte => prior * 256 + byte.toNat) 0

/-- The last `length` base-256 digits of a number, most significant first. -/
def encode : ℕ → ℕ → List UInt8
  | 0, _ => []
  | length + 1, number =>
      encode length (number / 256) ++ [UInt8.ofNat (number % 256)]

@[simp] theorem value_nil :
    value [] = 0 := rfl

/-- Appending a byte shifts the number by one digit. -/
@[simp] theorem value_concat
    (bytes : List UInt8)
    (byte : UInt8) :
    value (bytes ++ [byte]) = value bytes * 256 + byte.toNat := by
  simp [value]

/-- An encoding has the requested length. -/
@[simp] theorem length_encode
    (length number : ℕ) :
    (encode length number).length = length := by
  induction length generalizing number with
  | zero =>
      rfl
  | succ length inductionHypothesis =>
      simp [encode, inductionHypothesis]

/-- A byte string denotes a number below the power of its length. -/
theorem value_lt
    (bytes : List UInt8) :
    value bytes < 256 ^ bytes.length := by
  induction bytes using List.reverseRecOn with
  | nil =>
      simp
  | append_singleton bytes byte inductionHypothesis =>
      have digit : byte.toNat < 256 := byte.toNat_lt
      simp only [value_concat, List.length_append, List.length_singleton,
        pow_succ]
      omega

/-- Encoding keeps the digits that fit the length. -/
theorem value_encode
    (length number : ℕ) :
    value (encode length number) = number % 256 ^ length := by
  induction length generalizing number with
  | zero =>
      simp [encode, Nat.mod_one]
  | succ length inductionHypothesis =>
      have digit :
          (UInt8.ofNat (number % 256)).toNat = number % 256 := by
        simp
      rw [encode, value_concat, inductionHypothesis, digit, pow_succ',
        Nat.mod_mul]
      omega

/-- Every byte string is the encoding of its number. -/
theorem encode_value
    (bytes : List UInt8) :
    encode bytes.length (value bytes) = bytes := by
  induction bytes using List.reverseRecOn with
  | nil =>
      rfl
  | append_singleton bytes byte inductionHypothesis =>
      have digit : byte.toNat < 256 := byte.toNat_lt
      have lower : (value bytes * 256 + byte.toNat) % 256 = byte.toNat := by
        omega
      have upper : (value bytes * 256 + byte.toNat) / 256 = value bytes := by
        omega
      simp only [List.length_append, List.length_singleton, encode,
        value_concat, lower, upper, inductionHypothesis, UInt8.ofNat_toNat]

end BigEndian
