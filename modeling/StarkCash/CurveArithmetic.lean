import Mathlib.Algebra.Order.Field.Basic
import Mathlib.Tactic.LinearCombination

namespace StarkCash.Rapidsnark

/-!
# Points in extended coordinates

The points of `y² = x³ + a x + b` as `Curve` computes with them: a point holds
`x`, `y`, `zz` and `zzz` for the affine coordinates `x / zz` and `y / zzz`, and
stands for the identity if `zz` is zero.  An affine point stands for the
identity if both of its coordinates are zero.
-/

/-- A point in extended coordinates (`Curve::Point`). -/
structure Point (K : Type) where
  x : K
  y : K
  zz : K
  zzz : K
  deriving Repr, DecidableEq

/-- A point in affine coordinates (`Curve::PointAffine`). -/
structure PointAffine (K : Type) where
  x : K
  y : K
  deriving Repr, DecidableEq

/-- The coefficients for which a multiplication can be left out (`TypeOfA`). -/
inductive TypeOfA where
  | isZero
  | isOne
  | isNegone
  | isLong
  deriving Repr, DecidableEq

section Coefficients

variable
    {K : Type}
    [Field K]
    [DecidableEq K]

/-- The kind of a coefficient, as `initCurve` finds it. -/
def TypeOfA.of (fa : K) : TypeOfA :=
  if fa = 0 then
    .isZero
  else if fa = 1 then
    .isOne
  else if fa = -1 then
    .isNegone
  else
    .isLong

end Coefficients

/-- A curve with the kind of its first coefficient. -/
structure Curve (K : Type) [Field K] [DecidableEq K] where
  fa : K
  fb : K
  foneAffine : PointAffine K
  typeOfA : TypeOfA
  typeOfA_eq : typeOfA = TypeOfA.of fa

namespace Curve

variable
    {K : Type}
    [Field K]
    [DecidableEq K]

/-- A curve from its coefficients and its generator. -/
def initCurve (aa ab agx agy : K) : Curve K where
  fa := aa
  fb := ab
  foneAffine := ⟨agx, agy⟩
  typeOfA := TypeOfA.of aa
  typeOfA_eq := rfl

/-- The identity in extended coordinates (`fzero`). -/
def zero : Point K where
  x := 1
  y := 1
  zz := 0
  zzz := 0

/-- The identity in affine coordinates (`fzeroAffine`). -/
def zeroAffine : PointAffine K where
  x := 0
  y := 0

/-- The generator in extended coordinates (`fone`). -/
def one (E : Curve K) : Point K where
  x := E.foneAffine.x
  y := E.foneAffine.y
  zz := 1
  zzz := 1

/-- Multiply by the first coefficient. -/
def mulByA
    (E : Curve K)
    (ab : K) : K :=
  match E.typeOfA with
  | .isZero => 0
  | .isOne => ab
  | .isNegone => -ab
  | .isLong => E.fa * ab

/-- Whether an affine point stands for the identity (`isZero`). -/
def isZeroAffine (p1 : PointAffine K) : Bool :=
  decide (p1.x = 0) && decide (p1.y = 0)

/-- Whether a point stands for the identity (`isZero`). -/
def isZero (p1 : Point K) : Bool :=
  decide (p1.zz = 0)

/-- An affine point in extended coordinates (`copy`). -/
def copyMixed (a : PointAffine K) : Point K :=
  if isZeroAffine a then
    { x := 1, y := 1, zz := 0, zzz := 0 }
  else
    { x := a.x, y := a.y, zz := 1, zzz := 1 }

/-- A point in affine coordinates (`copy`). -/
def toAffine (a : Point K) : PointAffine K :=
  if isZero a then
    { x := 0, y := 0 }
  else
    { x := a.x / a.zz, y := a.y / a.zzz }

/-- Double a point (`dbl`). -/
def dbl
    (E : Curve K)
    (p1 : Point K) : Point K :=
  if isZero p1 then
    p1
  else
    let U := p1.y + p1.y
    let V := U ^ 2
    let W := U * V
    let S := p1.x * V
    let square := p1.x ^ 2
    let triple := square + (square + square)
    let M :=
      if E.typeOfA ≠ .isZero then
        triple + E.mulByA (p1.zz ^ 2)
      else
        triple
    let x := M ^ 2 - S - S
    { x := x
      y := M * (S - x) - W * p1.y
      zz := V * p1.zz
      zzz := W * p1.zzz }

/-- Double an affine point (`dbl`, counted as `cntDblMixed`). -/
def dblMixed
    (E : Curve K)
    (p1 : PointAffine K) : Point K :=
  if isZeroAffine p1 then
    copyMixed p1
  else
    let U := p1.y + p1.y
    let V := U ^ 2
    let W := U * V
    let S := p1.x * V
    let square := p1.x ^ 2
    let M := square + square + square + E.fa
    let x := M ^ 2 - S - S
    { x := x
      y := M * (S - x) - W * p1.y
      zz := V
      zzz := W }

/-- Add two points (`add`). -/
def add
    (E : Curve K)
    (p1 p2 : Point K) : Point K :=
  if isZero p1 then
    p2
  else if isZero p2 then
    p1
  else
    let U1 := p1.x * p2.zz
    let U2 := p2.x * p1.zz
    let S1 := p1.y * p2.zzz
    let S2 := p2.y * p1.zzz
    let P := U2 - U1
    let R := S2 - S1
    if P = 0 ∧ R = 0 then
      E.dbl p1
    else
      let PP := P ^ 2
      let PPP := P * PP
      let Q := U1 * PP
      let x := R ^ 2 - PPP - Q - Q
      { x := x
        y := (Q - x) * R - S1 * PPP
        zz := p1.zz * p2.zz * PP
        zzz := p1.zzz * p2.zzz * PPP }

/-- Add an affine point to a point (`add`, counted as `cntAddMixed`). -/
def addMixed
    (E : Curve K)
    (p1 : Point K)
    (p2 : PointAffine K) : Point K :=
  if isZero p1 then
    copyMixed p2
  else if isZeroAffine p2 then
    p1
  else
    let U2 := p2.x * p1.zz
    let S2 := p2.y * p1.zzz
    let P := U2 - p1.x
    let R := S2 - p1.y
    if P = 0 ∧ R = 0 then
      E.dblMixed p2
    else
      let PP := P ^ 2
      let PPP := P * PP
      let Q := p1.x * PP
      let x := R ^ 2 - PPP - Q - Q
      { x := x
        y := (Q - x) * R - p1.y * PPP
        zz := p1.zz * PP
        zzz := p1.zzz * PPP }

/-- Add two affine points (`add`, counted as `cntAddAffine`). -/
def addAffine
    (E : Curve K)
    (p1 p2 : PointAffine K) : Point K :=
  if isZeroAffine p1 then
    copyMixed p2
  else if isZeroAffine p2 then
    copyMixed p1
  else
    let P := p2.x - p1.x
    let R := p2.y - p1.y
    if P = 0 ∧ R = 0 then
      E.dblMixed p2
    else
      let PP := P ^ 2
      let PPP := P * PP
      let Q := p1.x * PP
      let x := R ^ 2 - PPP - Q - Q
      { x := x
        y := (Q - x) * R - p1.y * PPP
        zz := PP
        zzz := PPP }

/-- Negate a point (`neg`). -/
def neg (a : Point K) : Point K where
  x := a.x
  y := -a.y
  zz := a.zz
  zzz := a.zzz

/-- Negate an affine point (`neg`). -/
def negAffine (a : PointAffine K) : PointAffine K where
  x := a.x
  y := -a.y

/-- Negate an affine point into extended coordinates (`neg`). -/
def negMixed (a : PointAffine K) : Point K where
  x := a.x
  y := -a.y
  zz := 1
  zzz := 1

/-- Negate a point into affine coordinates (`neg`). -/
def negToAffine (a : Point K) : PointAffine K :=
  if isZero a then
    { x := 0, y := 0 }
  else
    { x := a.x / a.zz, y := -(a.y / a.zzz) }

/-- Subtract a point (`sub`). -/
def sub
    (E : Curve K)
    (p1 p2 : Point K) : Point K :=
  E.add p1 (neg p2)

/-- Subtract an affine point from a point (`sub`). -/
def subMixed
    (E : Curve K)
    (p1 : Point K)
    (p2 : PointAffine K) : Point K :=
  E.addMixed p1 (negAffine p2)

/-- Subtract an affine point from another (`sub`). -/
def subAffine
    (E : Curve K)
    (p1 p2 : PointAffine K) : Point K :=
  E.addAffine p1 (negAffine p2)

/-- Subtract a point from an affine point (`sub`). -/
def subFromAffine
    (E : Curve K)
    (p1 : PointAffine K)
    (p2 : Point K) : Point K :=
  E.addMixed (neg p2) p1

/-- Whether two points are the same (`eq`). -/
def eq (p1 p2 : Point K) : Bool :=
  if isZero p1 then
    isZero p2
  else
    let U1 := p1.x * p2.zz
    let U2 := p2.x * p1.zz
    let S1 := p1.y * p2.zzz
    let S2 := p2.y * p1.zzz
    decide (U2 - U1 = 0) && decide (S2 - S1 = 0)

/-- Whether a point is the same as an affine one (`eq`). -/
def eqMixed
    (p1 : Point K)
    (p2 : PointAffine K) : Bool :=
  if isZero p1 then
    isZeroAffine p2
  else
    let U2 := p2.x * p1.zz
    let S2 := p2.y * p1.zzz
    decide (U2 - p1.x = 0) && decide (S2 - p1.y = 0)

/-- Whether two affine points are the same (`eq`). -/
def eqAffine (p1 p2 : PointAffine K) : Bool :=
  decide (p1.x = p2.x) && decide (p1.y = p2.y)

end Curve

end StarkCash.Rapidsnark
