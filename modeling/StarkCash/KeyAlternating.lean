import Mathlib.FieldTheory.Finite.Basic
import Mathlib.GroupTheory.OrderOfElement

namespace KeyAlternating

/-!
# Key-alternating ciphers over a power map

A round adds the key and a round constant and raises to a power; the key is
added once more behind the last round.  Over a finite field whose number of
units is prime to the exponent every round is a permutation, and so is the
cipher under every key.  Chaining the cipher over a list of blocks gives a
keyed compression, the key of each block being the result before it.
-/

section Definitions

variable
    {F : Type*}
    [Semiring F]

/-- What a round raises to its power. -/
def roundInput
    (constants : ℕ → F)
    (key : F)
    (round : ℕ)
    (state : F) : F :=
  state + key + constants round

/-- The state behind a number of rounds. -/
def rounds
    (exponent : ℕ)
    (constants : ℕ → F)
    (key : F) : ℕ → F → F
  | 0, block => block
  | count + 1, block =>
      roundInput constants key count
        (rounds exponent constants key count block) ^ exponent

/-- The rounds, and the key added behind them. -/
def encrypt
    (exponent : ℕ)
    (constants : ℕ → F)
    (count : ℕ)
    (key block : F) : F :=
  rounds exponent constants key count block + key

/-- One step of the chaining over a list of blocks. -/
def absorb
    (exponent : ℕ)
    (constants : ℕ → F)
    (count : ℕ)
    (key block : F) : F :=
  key + block + encrypt exponent constants count key block

/-- The chaining over a list of blocks. -/
def compress
    (exponent : ℕ)
    (constants : ℕ → F)
    (count : ℕ)
    (key : F)
    (blocks : List F) : F :=
  blocks.foldl (absorb exponent constants count) key

end Definitions

section Permutation

variable
    {F : Type*}
    [Field F]
    {exponent : ℕ}

/-- A power prime to the number of units is injective. -/
theorem power_injective
    (nonzero : exponent ≠ 0)
    (coprime : (Nat.card Fˣ).Coprime exponent) :
    Function.Injective fun base : F => base ^ exponent := by
  intro first second same
  have samePower : first ^ exponent = second ^ exponent := same
  by_cases isZero : first = 0
  · rw [isZero, zero_pow nonzero] at samePower
    rw [isZero, eq_zero_of_pow_eq_zero samePower.symm]
  · have otherNonzero : second ≠ 0 := by
      rintro rfl
      rw [zero_pow nonzero] at samePower
      exact isZero (eq_zero_of_pow_eq_zero samePower)
    have sameUnits :
        Units.mk0 first isZero ^ exponent =
          Units.mk0 second otherNonzero ^ exponent :=
      Units.ext samePower
    exact congrArg Units.val (coprime.pow_left_bijective.injective sameUnits)

/-- The rounds are injective under every key. -/
theorem rounds_injective
    (nonzero : exponent ≠ 0)
    (coprime : (Nat.card Fˣ).Coprime exponent)
    (constants : ℕ → F)
    (key : F)
    (count : ℕ) :
    Function.Injective (rounds exponent constants key count) := by
  induction count with
  | zero =>
      intro first second same
      exact same
  | succ count inductionHypothesis =>
      intro first second same
      have sameInput := power_injective nonzero coprime same
      have sameState := add_right_cancel (add_right_cancel sameInput)
      exact inductionHypothesis sameState

/-- The cipher permutes the field under every key. -/
theorem encrypt_bijective
    [Finite F]
    (nonzero : exponent ≠ 0)
    (coprime : (Nat.card Fˣ).Coprime exponent)
    (constants : ℕ → F)
    (count : ℕ)
    (key : F) :
    Function.Bijective (encrypt exponent constants count key) := by
  refine Finite.injective_iff_bijective.mp ?_
  intro first second same
  exact
    rounds_injective nonzero coprime constants key count
      (add_right_cancel same)

end Permutation

section Chaining

variable
    {F : Type*}
    [Semiring F]
    (exponent : ℕ)
    (constants : ℕ → F)
    (count : ℕ)
    (key : F)

/-- A block behind a list of blocks is absorbed into their compression. -/
theorem compress_concat
    (blocks : List F)
    (block : F) :
    compress exponent constants count key (blocks ++ [block]) =
      absorb exponent constants count
        (compress exponent constants count key blocks) block := by
  rw [compress, List.foldl_append]
  rfl

end Chaining

end KeyAlternating
