import Mathlib.Algebra.BigOperators.Group.List.Basic
import Mathlib.Data.List.Prime
import Mathlib.NumberTheory.LucasPrimality

namespace LucasCertificate

/-!
# Primality certificates for large moduli

Lucas' criterion asks for one power equal to one and, for each prime divisor
of the predecessor, one power different from one.  The powers are computed by
squaring with a reduction in every step, so the kernel can evaluate the check
of a 254-bit number.  The prime divisors are certified separately.
-/

/-- Square-and-multiply, consuming the exponent's bits from the lowest. -/
def powMod
    (modulus : ℕ) :
    ℕ → ℕ → ℕ → ℕ → ℕ
  | 0, product, _, _ => product
  | bits + 1, product, base, exponent =>
      powMod modulus bits
        (if exponent % 2 = 1 then product * base % modulus else product)
        (base * base % modulus)
        (exponent / 2)

/-- Square-and-multiply computes the power up to the modulus. -/
theorem powMod_modEq
    {modulus bits product base exponent : ℕ}
    (fits : exponent < 2 ^ bits) :
    powMod modulus bits product base exponent ≡
      product * base ^ exponent [MOD modulus] := by
  induction bits generalizing product base exponent with
  | zero =>
      obtain rfl : exponent = 0 := by
        simpa using fits
      simp [powMod, Nat.ModEq]
  | succ bits inductionHypothesis =>
      have halfFits : exponent / 2 < 2 ^ bits := by
        rw [pow_succ] at fits
        omega
      have square : base * base % modulus ≡ base ^ 2 [MOD modulus] := by
        rw [sq]
        exact Nat.mod_modEq (base * base) modulus
      have halfPower :
          (base * base % modulus) ^ (exponent / 2) ≡
            base ^ (2 * (exponent / 2)) [MOD modulus] := by
        rw [pow_mul]
        exact square.pow (exponent / 2)
      have split := Nat.div_add_mod exponent 2
      rcases Nat.mod_two_eq_zero_or_one exponent with even | odd
      · have exponentEq : 2 * (exponent / 2) = exponent := by
          omega
        rw [exponentEq] at halfPower
        simp only [powMod, even, Nat.zero_ne_one, ↓reduceIte]
        exact (inductionHypothesis halfFits).trans
          (halfPower.mul_left product)
      · have powerEq :
            product * base ^ exponent =
              product * base * base ^ (2 * (exponent / 2)) := by
          rw [← split, odd]
          ring_nf
          congr 2
          omega
        simp only [powMod, odd, ↓reduceIte]
        rw [powerEq]
        exact (inductionHypothesis halfFits).trans
          ((Nat.mod_modEq (product * base) modulus).mul halfPower)

/-- The power of a base, reduced; exponents of up to 256 bits. -/
def power (modulus base exponent : ℕ) : ℕ :=
  powMod modulus 256 1 base exponent % modulus

/--
Executable form of Lucas' criterion for a candidate, a base and the factors of
its predecessor, given as pairs of a prime and an exponent.
-/
def check
    (candidate base : ℕ)
    (factors : List (ℕ × ℕ)) : Bool :=
  decide (1 < candidate) &&
    decide (candidate ≤ 2 ^ 256) &&
    decide
      ((factors.map fun factor => factor.1 ^ factor.2).prod + 1 =
        candidate) &&
    decide (power candidate base (candidate - 1) = 1) &&
    factors.all fun factor =>
      decide (power candidate base ((candidate - 1) / factor.1) ≠ 1)

/-- A reduced power is one exactly if the power is one in the residue ring. -/
theorem power_eq_one_iff
    {candidate base exponent : ℕ}
    (large : 1 < candidate)
    (fits : exponent < 2 ^ 256) :
    power candidate base exponent = 1 ↔
      (base : ZMod candidate) ^ exponent = 1 := by
  have computed :
      power candidate base exponent = base ^ exponent % candidate := by
    have congruent :
        powMod candidate 256 1 base exponent ≡
          1 * base ^ exponent [MOD candidate] :=
      powMod_modEq fits
    rw [Nat.one_mul] at congruent
    exact congruent
  have oneReduced : 1 % candidate = 1 :=
    Nat.mod_eq_of_lt large
  have castOne : ((1 : ℕ) : ZMod candidate) = 1 :=
    Nat.cast_one
  rw [computed, ← Nat.cast_pow, ← castOne,
    ZMod.natCast_eq_natCast_iff', oneReduced]

/-- A candidate that passes the check over prime factors is prime. -/
theorem prime_of_check
    {candidate : ℕ}
    (base : ℕ)
    (factors : List (ℕ × ℕ))
    (primes : ∀ factor, factor ∈ factors → factor.1.Prime)
    (accepted : check candidate base factors = true) :
    candidate.Prime := by
  simp only [check, Bool.and_eq_true, decide_eq_true_eq,
    List.all_eq_true] at accepted
  obtain ⟨⟨⟨⟨large, bounded⟩, product⟩, whole⟩, parts⟩ := accepted
  have predecessor :
      (factors.map fun factor => factor.1 ^ factor.2).prod =
        candidate - 1 := by
    omega
  refine lucas_primality candidate (base : ZMod candidate) ?_ ?_
  · exact (power_eq_one_iff large (by omega)).mp whole
  · intro divisor isPrime divides
    rw [← predecessor] at divides
    obtain ⟨term, termMember, dividesTerm⟩ :=
      (Prime.dvd_prod_iff isPrime.prime).mp divides
    obtain ⟨factor, factorMember, rfl⟩ :=
      List.mem_map.mp termMember
    have divisorEq : divisor = factor.1 :=
      (Nat.prime_dvd_prime_iff_eq isPrime
        (primes factor factorMember)).mp
          (isPrime.dvd_of_dvd_pow dividesTerm)
    subst divisorEq
    have quotientFits : (candidate - 1) / factor.1 < 2 ^ 256 := by
      have below := Nat.div_le_self (candidate - 1) factor.1
      omega
    intro isOne
    exact parts factor factorMember
      ((power_eq_one_iff large quotientFits).mpr isOne)

end LucasCertificate
