/-!
Decimal texts of floats: the fewest digits that read back as the same float, in full or with a point
and perhaps an exponent, and the value rounded to some decimal places with ties to even. All are
exact computations on the mantissa and the power of two.
-/
namespace Hostility

open Float.Model (UnpackedFloat)

/-- A positive decimal `coefficient · 10 ^ exponent`. -/
structure Decimal where
  coefficient : Nat
  exponent : Int
  deriving DecidableEq

namespace Decimal

/-- The reals that read back as the float `mantissa · 2 ^ exponent`, as fractions over `unit`: they
run from `value - below` to `value + above`, and hold their ends when the mantissa is even. -/
structure Span where
  value : Nat
  below : Nat
  above : Nat
  unit : Nat
  closed : Bool

/-- The least mantissa of a float that is not subnormal: two to the power 52. -/
def leastNormal : Nat := 4503599627370496

/-- Below a power of two the neighbour is half as far away as above it, unless the spacing is
already the least there is. -/
def Span.ofBinary (mantissa : Nat) (exponent : Int) : Span :=
  let scale := Nat.pow 2 exponent.toNat
  let narrow := mantissa == leastNormal && decide (-1074 < exponent)
  { value := 4 * mantissa * scale
    below := if narrow then scale else 2 * scale
    above := 2 * scale
    unit := 4 * Nat.pow 2 (-exponent).toNat
    closed := mantissa % 2 == 0 }

/-- The span measured in units of `10 ^ place`. -/
def Span.atPlace (s : Span) (place : Int) : Span :=
  let up := Nat.pow 10 (-place).toNat
  { s with
    value := s.value * up
    below := s.below * up
    above := s.above * up
    unit := s.unit * Nat.pow 10 place.toNat }

/-- Whether the whole number `n` of units lies in the span. -/
def Span.holds (s : Span) (n : Nat) : Bool :=
  let point := n * s.unit
  if s.closed then
    decide (s.value ≤ point + s.below) && decide (point ≤ s.value + s.above)
  else
    decide (s.value < point + s.below) && decide (point < s.value + s.above)

/-- Which of two neighbours a value takes that lies in the middle between them. -/
inductive Tie where
  | up
  | even
  deriving DecidableEq, Repr

/-- The whole number of units in the span that is nearest to its value, if either neighbour of the
value lies in the span. -/
def Span.nearest? (tie : Tie) (s : Span) : Option Nat :=
  let low := s.value / s.unit
  let rest := s.value % s.unit
  match s.holds low, s.holds (low + 1) with
  | true, true =>
    if 2 * rest < s.unit ∨ (2 * rest = s.unit ∧ tie = .even ∧ low % 2 = 0) then some low
    else some (low + 1)
  | true, false => some low
  | false, true => some (low + 1)
  | false, false => none

/-- The coarsest place, counting down from `place`, at which the span has a whole number. -/
def search (tie : Tie) (s : Span) (place : Int) : Nat → Decimal
  | 0 => ⟨s.value, place⟩
  | fuel + 1 =>
    match (s.atPlace place).nearest? tie with
    | some n => if n = 0 then search tie s (place - 1) fuel else ⟨n, place⟩
    | none => search tie s (place - 1) fuel

/-- The decimal with the fewest digits that reads back as `mantissa · 2 ^ exponent`. Places run from
above the largest float down to below the smallest one. -/
def shortest (tie : Tie) (mantissa : Nat) (exponent : Int) : Decimal :=
  let s := Span.ofBinary mantissa exponent
  let top := ((Nat.toDigits 10 (s.value / s.unit)).length : Int)
  search tie s top (top.toNat + 350)

def text (d : Decimal) : String :=
  let digits := Nat.toDigits 10 d.coefficient
  if 0 ≤ d.exponent then
    String.ofList (digits ++ List.replicate d.exponent.toNat '0')
  else
    let places := (-d.exponent).toNat
    let padded := List.replicate (places + 1 - digits.length) '0' ++ digits
    let whole := padded.take (padded.length - places)
    String.ofList (whole ++ '.' :: padded.drop (padded.length - places))

/-- The decimal with a point in it, or with one digit before the point and a signed exponent where
the point would stand more than four zeros before the digits or behind the sixteenth. -/
def pointed (d : Decimal) : String :=
  let digits := Nat.toDigits 10 d.coefficient
  let point := (digits.length : Int) + d.exponent
  if -5 < point ∧ point ≤ 16 then
    if d.exponent < 0 then d.text else d.text ++ ".0"
  else
    let fraction := match digits.drop 1 with | [] => [] | rest => '.' :: rest
    let sign := if 0 < point then "+" else ""
    String.ofList (digits.take 1 ++ fraction) ++ "e" ++ sign ++ toString (point - 1)

end Decimal

/-- The magnitude rounded to a number of decimal places, ties to even, in units of the last one. -/
def roundHalfEven (places mantissa : Nat) (exponent : Int) : Nat :=
  let unit := Nat.pow 2 (-exponent).toNat
  let magnitude := mantissa * Nat.pow 10 places * Nat.pow 2 exponent.toNat
  let whole := magnitude / unit
  let rest := magnitude % unit
  if unit < 2 * rest ∨ (unit = 2 * rest ∧ whole % 2 = 1) then whole + 1 else whole

private def signed : Float.Model.UnpackedFloat.Sign → String → String
  | .positive, s => s
  | .negative, s => "-" ++ s

/-- A float in full, with the fewest digits that read back; a tie between digits goes up. -/
def shortestText (x : Float) : String :=
  match x.toModel.unpack with
  | .notANumber => "NaN"
  | .infinity sign => signed sign "inf"
  | .zero sign => signed sign "0"
  | .finite sign m e _ => signed sign (Decimal.shortest .up m e).text

/-- A float with the fewest digits that read back, and with a point or an exponent; a tie between
digits goes to the even one. -/
def pointedText (x : Float) : String :=
  match x.toModel.unpack with
  | .notANumber => "NaN"
  | .infinity sign => signed sign "inf"
  | .zero sign => signed sign "0.0"
  | .finite sign m e _ => signed sign (Decimal.shortest .even m e).pointed

/-- A float with a number of decimal places, ties to even. -/
def fixedText (places : Nat) (x : Float) : String :=
  match x.toModel.unpack with
  | .notANumber => "NaN"
  | .infinity sign => signed sign "inf"
  | .zero sign => signed sign (Decimal.text ⟨0, -places⟩)
  | .finite sign m e _ => signed sign (Decimal.text ⟨roundHalfEven places m e, -places⟩)

end Hostility
