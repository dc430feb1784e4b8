import Mathlib.Algebra.Group.Basic
import Mathlib.Algebra.Module.NatInt

namespace GroupOperations

/-!
# Programs over the operations of a group

The operations that a program has on points of a group, which it may hold in
several ways, and on bases, which it holds in another.  What a point stands
for is a relation, so that computations are about group elements without a
choice of representatives.
-/

/-- Operations on points, and with bases. -/
structure Operations (Base Point : Type) where
  zero : Point
  add : Point → Point → Point
  addBase : Point → Base → Point
  subBase : Point → Base → Point
  dbl : Point → Point

/-- The operations are those of a group. -/
structure Operations.Represents
    {Base Point Group : Type}
    [AddCommGroup Group]
    (operations : Operations Base Point)
    (base : Base → Group → Prop)
    (point : Point → Group → Prop) : Prop where
  zero : point operations.zero 0
  add :
    ∀ {p q P Q},
      point p P → point q Q → point (operations.add p q) (P + Q)
  addBase :
    ∀ {p q P Q},
      point p P → base q Q → point (operations.addBase p q) (P + Q)
  subBase :
    ∀ {p q P Q},
      point p P → base q Q → point (operations.subBase p q) (P - Q)
  dbl : ∀ {p P}, point p P → point (operations.dbl p) (P + P)

variable
    {Base Point Group : Type}
    [AddCommGroup Group]
    {operations : Operations Base Point}
    {base : Base → Group → Prop}
    {point : Point → Group → Prop}

/-- Doubling repeatedly multiplies by a power of two. -/
theorem Operations.Represents.iterate_dbl
    (represents : operations.Represents base point)
    {p : Point}
    {P : Group}
    (denotes : point p P)
    (count : ℕ) :
    point (operations.dbl^[count] p) (2 ^ count • P) := by
  induction count with
  | zero =>
      simpa using denotes
  | succ count inductionHypothesis =>
      rw [Function.iterate_succ_apply', pow_succ, mul_smul, smul_comm,
        two_nsmul]
      exact represents.dbl inductionHypothesis

end GroupOperations
