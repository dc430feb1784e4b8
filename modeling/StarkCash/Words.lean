import Mathlib.Data.ZMod.Basic
import StarkCash.BigEndian
import StarkCash.ScalarField

namespace StarkCash

/-!
# Machine words, byte arrays and panics

`Bytes32` is the `[u8; 32]` of the Rust code and `U256` the `u256` of the
contracts; both denote the numbers below `2 ^ 256` and `Bytes32.toU256` is the
identification.  A panic carries the text of the assertion that failed.
-/

/-- A Rust panic or a Cairo panic, with its message. -/
structure Panic where
  message : String
  deriving Repr, DecidableEq

/-- `[u8; 32]`. -/
abbrev Bytes32 : Type :=
  Vector UInt8 32

/-- `u256`. -/
abbrev U256 : Type :=
  BitVec 256

/-- `felt252`: the numbers below the Stark prime. -/
abbrev Felt252 : Type :=
  Fin (2 ^ 251 + 17 * 2 ^ 192 + 1)

/-- `starknet::ContractAddress`: the numbers below `2 ^ 251`. -/
abbrev ContractAddress : Type :=
  Fin (2 ^ 251)

/-- Zero is a field element, so that literals denote field elements. -/
instance (priority := 2000) felt252NeZero :
    NeZero (2 ^ 251 + 17 * 2 ^ 192 + 1) :=
  ⟨by decide⟩

/-- Zero is an address, so that literals denote addresses. -/
instance (priority := 2000) contractAddressNeZero : NeZero (2 ^ 251) :=
  ⟨by decide⟩

namespace Bytes32

/-- The array read as a big-endian number. -/
def toNat (bytes : Bytes32) : ℕ :=
  BigEndian.value bytes.toList

/-- The array of the low 32 base-256 digits of a number. -/
def ofNat (number : ℕ) : Bytes32 :=
  ⟨(BigEndian.encode 32 number).toArray, by simp⟩

/-- Writing keeps the number modulo `2 ^ 256`. -/
theorem toNat_ofNat
    (number : ℕ) :
    (ofNat number).toNat = number % 2 ^ 256 := by
  have written := BigEndian.value_encode 32 number
  simpa [toNat, ofNat, Vector.toList] using written

/-- Writing a number that fits and reading it back gives the number. -/
theorem toNat_ofNat_of_lt
    {number : ℕ}
    (fits : number < 2 ^ 256) :
    (ofNat number).toNat = number := by
  rw [toNat_ofNat, Nat.mod_eq_of_lt fits]

/-- The array as a `u256`. -/
def toU256 (bytes : Bytes32) : U256 :=
  BitVec.ofNat 256 bytes.toNat

end Bytes32

namespace U256

/-- The 32 big-endian bytes of a `u256`. -/
def toBytes32 (word : U256) : Bytes32 :=
  Bytes32.ofNat word.toNat

/-- `word.low` as a `felt252`. -/
def low (word : U256) : Felt252 :=
  ⟨word.toNat % 2 ^ 128, by omega⟩

/-- `word.high` as a `felt252`. -/
def high (word : U256) : Felt252 :=
  ⟨word.toNat / 2 ^ 128, by omega⟩

/-- `felt.into()`: every field element fits a `u256`. -/
def ofFelt (felt : Felt252) : U256 :=
  BitVec.ofNat 256 felt.val

/-- An address converted to a `felt252` and then to a `u256`. -/
def ofAddress (address : ContractAddress) : U256 :=
  BitVec.ofNat 256 address.val

/-- Reading the bytes of a word gives the word. -/
@[simp] theorem toU256_toBytes32
    (word : U256) :
    word.toBytes32.toU256 = word := by
  rw [Bytes32.toU256, toBytes32,
    Bytes32.toNat_ofNat_of_lt word.isLt, BitVec.ofNat_toNat,
    BitVec.setWidth_eq]

end U256

namespace Bytes32

/-- `Fr::from_be_bytes_mod_order`. -/
def toFr (bytes : Bytes32) : Fr :=
  (bytes.toNat : Fr)

/-- `into_bigint().to_bytes_be()` of a field element. -/
def ofFr (element : Fr) : Bytes32 :=
  ofNat element.val

/-- Writing a field element and reading it back gives the element. -/
@[simp] theorem toFr_ofFr
    (element : Fr) :
    (ofFr element).toFr = element := by
  have fits : element.val < 2 ^ 256 :=
    (ZMod.val_lt element).trans (by decide)
  rw [toFr, ofFr, toNat_ofNat_of_lt fits, ZMod.natCast_zmod_val]

end Bytes32

/-- A `u256` read as a field element. -/
def U256.toFr (word : U256) : Fr :=
  (word.toNat : Fr)

/-- The canonical representative of a field element. -/
def U256.ofFr (element : Fr) : U256 :=
  BitVec.ofNat 256 element.val

namespace U256

/-- The canonical representative is below the prime. -/
theorem toNat_ofFr
    (element : Fr) :
    (ofFr element).toNat = element.val := by
  have fits : element.val < 2 ^ 256 :=
    (ZMod.val_lt element).trans (by decide)
  rw [ofFr, BitVec.toNat_ofNat, Nat.mod_eq_of_lt fits]

/-- The representative of a field element reads back as the element. -/
@[simp] theorem toFr_ofFr
    (element : Fr) :
    (ofFr element).toFr = element := by
  rw [toFr, toNat_ofFr, ZMod.natCast_zmod_val]

/-- Below the prime, words that are congruent are equal. -/
theorem toFr_injective_of_lt
    {first second : U256}
    (firstBelow : first.toNat < bn254Prime)
    (secondBelow : second.toNat < bn254Prime)
    (congruent : first.toFr = second.toFr) :
    first = second := by
  have values := congrArg ZMod.val congruent
  rw [U256.toFr, U256.toFr, ZMod.val_natCast, ZMod.val_natCast,
    Nat.mod_eq_of_lt firstBelow, Nat.mod_eq_of_lt secondBelow] at values
  exact BitVec.eq_of_toNat_eq values

/-- A representative is below the prime. -/
theorem ofFr_lt
    (element : Fr) :
    (ofFr element).toNat < bn254Prime := by
  rw [toNat_ofFr]
  exact ZMod.val_lt element

end U256

end StarkCash
