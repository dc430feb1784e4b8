import Mathlib.Algebra.Field.Basic
import StarkCash.ByteMemory

namespace StarkCash.Rapidsnark

/-!
# The tower of extension fields

The elements over a base field as `F2Field`, `F6Field` and `F12Field` compute
with them: `a + b u` with the square of `u` a number `nr`, `x τ² + y τ + z`
with the cube of `τ` the element `9 + u`, and `x ω + y` with the square of `ω`
the element `τ`.
-/

/-- An element of the first extension (`F2Field::Element`). -/
@[ext]
structure F2Element (K : Type) (nr : K) where
  a : K
  b : K
  deriving Repr, DecidableEq

/-- The numbers for which a multiplication can be left out (`TypeOfNr`). -/
inductive TypeOfNr where
  | isZero
  | isOne
  | isNegone
  | isLong
  deriving Repr, DecidableEq

namespace F2Field

variable
    {K : Type}
    [Field K]
    [DecidableEq K]
    {nr : K}

/-- The kind of a number, as `initField` finds it. -/
def typeOfNr (nr : K) : TypeOfNr :=
  if nr = 0 then
    .isZero
  else if nr = 1 then
    .isOne
  else if nr = -1 then
    .isNegone
  else
    .isLong

/-- Multiply by the number. -/
def mulByNr (nr a : K) : K :=
  match typeOfNr nr with
  | .isZero => 0
  | .isOne => a
  | .isNegone => -a
  | .isLong => nr * a

/-- The element zero (`fZero`). -/
def zero : F2Element K nr where
  a := 0
  b := 0

/-- The element one (`fOne`). -/
def one : F2Element K nr where
  a := 1
  b := 0

/-- Add two elements. -/
def add (a b : F2Element K nr) : F2Element K nr where
  a := a.a + b.a
  b := a.b + b.b

/-- Subtract two elements. -/
def sub (a b : F2Element K nr) : F2Element K nr where
  a := a.a - b.a
  b := a.b - b.b

/-- Negate an element. -/
def neg (a : F2Element K nr) : F2Element K nr where
  a := -a.a
  b := -a.b

/-- Double an element. -/
def dbl (a : F2Element K nr) : F2Element K nr where
  a := a.a + a.a
  b := a.b + a.b

/-- Negate the part with the root. -/
def conjugate (a : F2Element K nr) : F2Element K nr where
  a := a.a
  b := -a.b

/-- Multiply two elements with three multiplications. -/
def mul (e1 e2 : F2Element K nr) : F2Element K nr :=
  let aa := e1.a * e2.a
  let bb := e1.b * e2.b
  let bbr := mulByNr nr bb
  let sum1 := e1.a + e1.b
  let sum2 := e2.a + e2.b
  { a := aa + bbr
    b := sum1 * sum2 - aa - bb }

/-- Multiply by an element of the base field. -/
def mulScalar (a : F2Element K nr) (b : K) : F2Element K nr where
  a := a.a * b
  b := a.b * b

/-- Multiply by `9 + u`. -/
def mulXi (a : F2Element K nr) : F2Element K nr :=
  let t := add (dbl (dbl (dbl a))) a
  { a := t.a - a.b
    b := t.b + a.a }

/-- Square an element. -/
def square (e1 : F2Element K nr) : F2Element K nr :=
  let ab := e1.a * e1.b
  let tmp1 := e1.a + e1.b
  if typeOfNr nr = .isNegone then
    let tmp2 := e1.a - e1.b
    { a := tmp1 * tmp2
      b := ab + ab }
  else
    let tmp2 := e1.a + tmp1
    let tmp1 := tmp1 * tmp2
    let tmp2 := ab + mulByNr nr ab
    { a := tmp1 - tmp2
      b := ab + ab }

/-- Invert an element. -/
def inv (e1 : F2Element K nr) : F2Element K nr :=
  let t0 := e1.a * e1.a
  let t1 := e1.b * e1.b
  let t2 := t0 - mulByNr nr t1
  let t3 := t2⁻¹
  { a := e1.a * t3
    b := -(e1.b * t3) }

end F2Field

/-- An element of the second extension (`F6Field::Element`). -/
@[ext]
structure F6Element (K : Type) (nr : K) where
  x : F2Element K nr
  y : F2Element K nr
  z : F2Element K nr
  deriving Repr, DecidableEq

/-- An element of the third extension (`F12Field::Element`). -/
@[ext]
structure F12Element (K : Type) (nr : K) where
  x : F6Element K nr
  y : F6Element K nr
  deriving Repr, DecidableEq

/-- The second extension with the constants of its Frobenius maps. -/
structure F6Field (K : Type) (nr : K) where
  xiTo2PMinus2Over3 : F2Element K nr
  xiToPMinus1Over3 : F2Element K nr
  xiTo2PSquaredMinus2Over3 : K
  xiToPSquaredMinus1Over3 : K

/-- The third extension with the constants of its Frobenius maps. -/
structure F12Field (K : Type) (nr : K) where
  F : F6Field K nr
  xiToPMinus1Over6 : F2Element K nr
  xiToPSquaredMinus1Over6 : K

section Extensions

variable
    {K : Type}
    [Field K]
    [DecidableEq K]
    {nr : K}

namespace F6Field

/-- The element zero (`fZero`). -/
def zero : F6Element K nr where
  x := F2Field.zero
  y := F2Field.zero
  z := F2Field.zero

/-- The element one (`fOne`). -/
def one : F6Element K nr where
  x := F2Field.zero
  y := F2Field.zero
  z := F2Field.one

/-- Add two elements. -/
def add (a b : F6Element K nr) : F6Element K nr where
  x := F2Field.add a.x b.x
  y := F2Field.add a.y b.y
  z := F2Field.add a.z b.z

/-- Subtract two elements. -/
def sub (a b : F6Element K nr) : F6Element K nr where
  x := F2Field.sub a.x b.x
  y := F2Field.sub a.y b.y
  z := F2Field.sub a.z b.z

/-- Negate an element. -/
def neg (a : F6Element K nr) : F6Element K nr where
  x := F2Field.neg a.x
  y := F2Field.neg a.y
  z := F2Field.neg a.z

/-- Double an element. -/
def dbl (a : F6Element K nr) : F6Element K nr where
  x := F2Field.dbl a.x
  y := F2Field.dbl a.y
  z := F2Field.dbl a.z

/-- Multiply two elements with six multiplications. -/
def mul (a b : F6Element K nr) : F6Element K nr :=
  let v0 := F2Field.mul a.z b.z
  let v1 := F2Field.mul a.y b.y
  let v2 := F2Field.mul a.x b.x
  let tz := F2Field.mul (F2Field.add a.x a.y) (F2Field.add b.x b.y)
  let tz := F2Field.sub (F2Field.sub tz v1) v2
  let tz := F2Field.add (F2Field.mulXi tz) v0
  let ty := F2Field.mul (F2Field.add a.y a.z) (F2Field.add b.y b.z)
  let ty := F2Field.sub (F2Field.sub ty v0) v1
  let ty := F2Field.add ty (F2Field.mulXi v2)
  let tx := F2Field.mul (F2Field.add a.x a.z) (F2Field.add b.x b.z)
  let tx := F2Field.sub (F2Field.add (F2Field.sub tx v0) v1) v2
  { x := tx
    y := ty
    z := tz }

/-- Multiply by an element of the first extension. -/
def mulScalar
    (a : F6Element K nr)
    (b : F2Element K nr) : F6Element K nr where
  x := F2Field.mul a.x b
  y := F2Field.mul a.y b
  z := F2Field.mul a.z b

/-- Multiply by the root. -/
def mulTau (a : F6Element K nr) : F6Element K nr where
  x := a.y
  y := a.z
  z := F2Field.mulXi a.x

/-- Multiply by an element of the base field. -/
def mulGFP (a : F6Element K nr) (b : K) : F6Element K nr where
  x := F2Field.mulScalar a.x b
  y := F2Field.mulScalar a.y b
  z := F2Field.mulScalar a.z b

/-- Square an element. -/
def square (a : F6Element K nr) : F6Element K nr :=
  let v0 := F2Field.square a.z
  let v1 := F2Field.square a.y
  let v2 := F2Field.square a.x
  let c0 := F2Field.square (F2Field.add a.x a.y)
  let c0 := F2Field.sub (F2Field.sub c0 v1) v2
  let c0 := F2Field.add (F2Field.mulXi c0) v0
  let c1 := F2Field.square (F2Field.add a.y a.z)
  let c1 := F2Field.sub (F2Field.sub c1 v0) v1
  let c1 := F2Field.add c1 (F2Field.mulXi v2)
  let c2 := F2Field.square (F2Field.add a.x a.z)
  let c2 := F2Field.sub (F2Field.add (F2Field.sub c2 v0) v1) v2
  { x := c2
    y := c1
    z := c0 }

/-- The power by the order of the base field. -/
def Frobenius
    (F : F6Field K nr)
    (a : F6Element K nr) : F6Element K nr where
  x := F2Field.mul (F2Field.conjugate a.x) F.xiTo2PMinus2Over3
  y := F2Field.mul (F2Field.conjugate a.y) F.xiToPMinus1Over3
  z := F2Field.conjugate a.z

/-- The power by the square of the order of the base field. -/
def FrobeniusP2
    (F : F6Field K nr)
    (a : F6Element K nr) : F6Element K nr where
  x := F2Field.mulScalar a.x F.xiTo2PSquaredMinus2Over3
  y := F2Field.mulScalar a.y F.xiToPSquaredMinus1Over3
  z := a.z

/-- Invert an element. -/
def inv (a : F6Element K nr) : F6Element K nr :=
  let A :=
    F2Field.sub (F2Field.square a.z) (F2Field.mulXi (F2Field.mul a.x a.y))
  let B :=
    F2Field.sub (F2Field.mulXi (F2Field.square a.x)) (F2Field.mul a.y a.z)
  let C_ := F2Field.sub (F2Field.square a.y) (F2Field.mul a.x a.z)
  let F_ := F2Field.mulXi (F2Field.mul C_ a.y)
  let F_ := F2Field.add F_ (F2Field.mul A a.z)
  let F_ := F2Field.add F_ (F2Field.mulXi (F2Field.mul B a.x))
  let F_ := F2Field.inv F_
  { x := F2Field.mul C_ F_
    y := F2Field.mul B F_
    z := F2Field.mul A F_ }

end F6Field

namespace F12Field

/-- The element zero (`fZero`). -/
def zero : F12Element K nr where
  x := F6Field.zero
  y := F6Field.zero

/-- The element one (`fOne`). -/
def one : F12Element K nr where
  x := F6Field.zero
  y := F6Field.one

/-- Negate the part with the root. -/
def conjugate (a : F12Element K nr) : F12Element K nr where
  x := F6Field.neg a.x
  y := a.y

/-- Multiply two elements. -/
def mul (a b : F12Element K nr) : F12Element K nr :=
  let tx := F6Field.add (F6Field.mul a.x b.y) (F6Field.mul b.x a.y)
  let ty := F6Field.mul a.y b.y
  let t := F6Field.mulTau (F6Field.mul a.x b.x)
  { x := tx
    y := F6Field.add ty t }

/-- Multiply by an element of the second extension. -/
def mulScalar
    (a : F12Element K nr)
    (b : F6Element K nr) : F12Element K nr where
  x := F6Field.mul a.x b
  y := F6Field.mul a.y b

/-- Square an element with two multiplications. -/
def square (a : F12Element K nr) : F12Element K nr :=
  let v0 := F6Field.mul a.x a.y
  let t := F6Field.add a.y (F6Field.mulTau a.x)
  let ty := F6Field.mul (F6Field.add a.x a.y) t
  let ty := F6Field.sub ty v0
  let ty := F6Field.sub ty (F6Field.mulTau v0)
  { x := F6Field.dbl v0
    y := ty }

/-- A power by the bytes of a scalar. -/
def exp
    (a : F12Element K nr)
    (scalar : ℕ → UInt8)
    (scalarSize : ℕ) : F12Element K nr :=
  (List.range (scalarSize * 8)).foldr
    (fun i r =>
      let t := square r
      if (scalar (i / 8)).toNat.testBit (i % 8) then mul t a else t)
    one

/-- The power by the order of the base field. -/
def Frobenius
    (F : F12Field K nr)
    (a : F12Element K nr) : F12Element K nr where
  x := F6Field.mulScalar (F.F.Frobenius a.x) F.xiToPMinus1Over6
  y := F.F.Frobenius a.y

/-- The power by the square of the order of the base field. -/
def FrobeniusP2
    (F : F12Field K nr)
    (a : F12Element K nr) : F12Element K nr where
  x := F6Field.mulGFP (F.F.FrobeniusP2 a.x) F.xiToPSquaredMinus1Over6
  y := F.F.FrobeniusP2 a.y

/-- Invert an element. -/
def inv (a : F12Element K nr) : F12Element K nr :=
  let t1 :=
    F6Field.sub (F6Field.square a.y) (F6Field.mulTau (F6Field.square a.x))
  let t2 := F6Field.inv t1
  mulScalar (conjugate a) t2

end F12Field

end Extensions

end StarkCash.Rapidsnark
