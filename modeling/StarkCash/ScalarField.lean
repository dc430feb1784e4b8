import Mathlib.Tactic.NormNum.Prime
import StarkCash.LucasCertificate

namespace StarkCash

/-!
# The BN254 scalar field

The circuits work over the field with `bn254Prime` elements.  Its primality is
certified by Lucas' criterion, one divisor of a predecessor after the other.
-/

/-- The BN254 scalar prime (`BN254_PRIME` in the contracts). -/
def bn254Prime : ℕ :=
  0x30644e72e131a029b85045b68181585d2833e84879b9709143e1f593f0000001

section Divisors

/-- Certified divisor `405928799`. -/
theorem prime_405928799 :
    Nat.Prime 405928799 :=
  LucasCertificate.prime_of_check 22
    [(2, 1), (11, 1), (3691, 1), (4999, 1)]
    (by norm_num)
    (by decide +kernel)

/-- Certified divisor `12048837557`. -/
private theorem prime_12048837557 :
    Nat.Prime 12048837557 :=
  LucasCertificate.prime_of_check 2
    [(2, 2), (7, 2), (661, 1), (93001, 1)]
    (by norm_num)
    (by decide +kernel)

/-- Certified divisor `5156902474397`. -/
private theorem prime_5156902474397 :
    Nat.Prime 5156902474397 :=
  LucasCertificate.prime_of_check 2
    [(2, 2), (107, 1), (12048837557, 1)]
    (by simp only [List.forall_mem_cons, prime_12048837557]; norm_num)
    (by decide +kernel)

/-- Certified divisor `1670836401704629`. -/
private theorem prime_1670836401704629 :
    Nat.Prime 1670836401704629 :=
  LucasCertificate.prime_of_check 2
    [(2, 2), (3, 4), (5156902474397, 1)]
    (by simp only [List.forall_mem_cons, prime_5156902474397]; norm_num)
    (by decide +kernel)

/-- Certified divisor `639533339`. -/
private theorem prime_639533339 :
    Nat.Prime 639533339 :=
  LucasCertificate.prime_of_check 2
    [(2, 1), (229, 1), (853, 1), (1637, 1)]
    (by norm_num)
    (by decide +kernel)

/-- Certified divisor `65865678001877903`. -/
private theorem prime_65865678001877903 :
    Nat.Prime 65865678001877903 :=
  LucasCertificate.prime_of_check 5
    [(2, 1), (83, 1), (379, 1), (1637, 1), (639533339, 1)]
    (by simp only [List.forall_mem_cons, prime_639533339]; norm_num)
    (by decide +kernel)

/-- Certified divisor `13818364434197438864469338081`. -/
private theorem prime_13818364434197438864469338081 :
    Nat.Prime 13818364434197438864469338081 :=
  LucasCertificate.prime_of_check 3
    [(2, 5), (5, 1), (823, 1), (1593227, 1), (65865678001877903, 1)]
    (by simp only [List.forall_mem_cons, prime_65865678001877903]; norm_num)
    (by decide +kernel)

end Divisors

/-- The order of the circuits' field is prime. -/
theorem bn254Prime_prime :
    Nat.Prime bn254Prime :=
  LucasCertificate.prime_of_check 5
    [(2, 28), (3, 2), (13, 1), (29, 1), (983, 1), (11003, 1), (237073, 1),
      (405928799, 1), (1670836401704629, 1),
      (13818364434197438864469338081, 1)]
    (by
      simp only [List.forall_mem_cons, prime_405928799,
        prime_1670836401704629, prime_13818364434197438864469338081]
      norm_num)
    (by decide +kernel)

instance : Fact (Nat.Prime bn254Prime) :=
  ⟨bn254Prime_prime⟩

/-- The field of the circuits (`ark_bn254::Fr`). -/
abbrev Fr : Type :=
  ZMod bn254Prime

end StarkCash
