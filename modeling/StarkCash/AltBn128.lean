import StarkCash.CurveMultiples
import StarkCash.TowerFields

namespace StarkCash.Rapidsnark

/-!
# The groups of the engine

The second group of BN254 lies on a curve over the first extension.  The
generators of both groups have the order that the circuits compute modulo, so
the multiples of a generator are a homomorphism from the field of the circuits.
-/

open Cairo

namespace Curve

section Coordinates

variable
    {K : Type}
    [Field K]
    [DecidableEq K]
    {E : Curve K}

/-- The affine coordinates of a point of the group. -/
def coordinates (E : Curve K) : E.Group → PointAffine K
  | .zero => zeroAffine
  | .some x y _ => ⟨x, y⟩

end Coordinates

/-- The second group of the engine (`g2`). -/
def g2 : Curve (F2Element Fq (-1)) :=
  initCurve 0
    { a :=
        (19485874751759354771024239261021720505790618469301721065564631296452457478373 :
          ℕ)
      b :=
        (266929791119991161246907387137283842545076965332900288569378510910307636690 :
          ℕ) }
    { a :=
        (10857046999023057135944570762232829481370756359578518086990519993285655852781 :
          ℕ)
      b :=
        (11559732032986387107991004021392285783925812861821192530917403151452391805634 :
          ℕ) }
    { a :=
        (8495653923123431417604973247489272438418190587263600148770280649306958101930 :
          ℕ)
      b :=
        (4082367875863433681332203403145435568316851327593401208105741076214120093531 :
          ℕ) }

end Curve

end StarkCash.Rapidsnark
