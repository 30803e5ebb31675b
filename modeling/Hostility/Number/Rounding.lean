import Hostility.Number.Saturating

/-!
From floating point to whole amounts and back. A finite float is a sign, a mantissa and a power of
two; every rounding here is one exact division of natural numbers, followed by `saturate`. What is
not a number becomes zero and an infinity becomes the end of the range it points to.
-/
namespace Hostility

open Float.Model (UnpackedFloat)

/-- Where a value that lies between two whole numbers goes. -/
inductive Rounding where
  | down
  | up
  /-- To the nearer neighbour, and from the middle away from zero. -/
  | nearest
  | towardZero
  deriving DecidableEq

/-- Whether the magnitude `whole + rest / unit` moves up to `whole + 1`. -/
def Rounding.lifts (mode : Rounding) (negative : Bool) (rest unit : Nat) : Bool :=
  match mode with
  | .down => negative && decide (0 < rest)
  | .up => !negative && decide (0 < rest)
  | .nearest => decide (unit ≤ 2 * rest)
  | .towardZero => false

/-- The whole number that `±mantissa · 2 ^ exponent` rounds to. -/
def Rounding.scaled (mode : Rounding) (negative : Bool) (mantissa : Nat) (exponent : Int) : Int :=
  let unit := Nat.pow 2 (-exponent).toNat
  let magnitude := mantissa * Nat.pow 2 exponent.toNat
  let whole := magnitude / unit
  let rounded := if mode.lifts negative (magnitude % unit) unit then whole + 1 else whole
  if negative then -(rounded : Int) else rounded

def Rounding.unpacked (mode : Rounding) : UnpackedFloat → Int64
  | .notANumber => 0
  | .zero _ => 0
  | .infinity .positive => Int64.maxValue
  | .infinity .negative => Int64.minValue
  | .finite .positive m e _ => saturate (mode.scaled false m e)
  | .finite .negative m e _ => saturate (mode.scaled true m e)

def floorAmount (x : Float) : Int64 := Rounding.down.unpacked x.toModel.unpack

def ceilAmount (x : Float) : Int64 := Rounding.up.unpacked x.toModel.unpack

/-- The whole amount nearest to a float, halves away from zero. -/
def roundAmount (x : Float) : Int64 := Rounding.nearest.unpacked x.toModel.unpack

def truncAmount (x : Float) : Int64 := Rounding.towardZero.unpacked x.toModel.unpack

def truncAmount32 (x : Float32) : Int64 := Rounding.towardZero.unpacked x.toModel.unpack

/-- The float nearest to an amount, ties to the even mantissa. -/
def floatOfAmount (n : Int64) : Float := Float.ofInt n.toInt

/-- The larger of two floats; the other one where one is not a number. -/
def larger (x y : Float) : Float :=
  if x.isNaN then y else if y.isNaN then x else if x < y then y else x

/-- A float brought into `[0, 1]`. What is not a number stays so. -/
def clampUnit (x : Float) : Float :=
  if x < 0.0 then 0.0 else if 1.0 < x then 1.0 else x

end Hostility
