/-!
Words: what stands in a document without quotes. A word has no kind of its own; what it is read as
depends on what is wanted in its place. A word may be empty.
-/
namespace Hostility

namespace Word

def isNull (w : String) : Bool := ["", "~", "null", "Null", "NULL"].contains w

def bool? (w : String) : Option Bool :=
  if ["true", "True", "TRUE"].contains w then some true
  else if ["false", "False", "FALSE"].contains w then some false
  else none

def hexDigit? (c : Char) : Option Nat :=
  if c.isDigit then some (c.toNat - '0'.toNat)
  else if 'a' ≤ c ∧ c ≤ 'f' then some (c.toNat - 'a'.toNat + 10)
  else if 'A' ≤ c ∧ c ≤ 'F' then some (c.toNat - 'A'.toNat + 10)
  else none

/-- The number that some digits write in a base up to sixteen. -/
def digits? (base : Nat) (cs : List Char) : Option Nat :=
  if cs.isEmpty then none
  else cs.foldlM (fun n c => ((hexDigit? c).filter (· < base)).map (base * n + ·)) 0

/-- A number without its sign. Decimal digits have no needless zero in front. -/
def magnitude? : List Char → Option Nat
  | '0' :: 'x' :: cs => digits? 16 cs
  | '0' :: 'o' :: cs => digits? 8 cs
  | '0' :: 'b' :: cs => digits? 2 cs
  | ['0'] => some 0
  | '0' :: _ => none
  | cs => digits? 10 cs

/-- A whole number without a minus sign. -/
def natural? (w : String) : Option Nat :=
  match w.toList with
  | '+' :: cs => magnitude? cs
  | cs => magnitude? cs

def integer? (w : String) : Option Int :=
  match w.toList with
  | '-' :: cs => (magnitude? cs).map fun n => -(n : Int)
  | _ => (natural? w).map Int.ofNat

/-- Digits with a zero too many in front, with or without a sign: no number by themselves. -/
def isPadded (w : String) : Bool :=
  let digits := match w.toList with | '+' :: cs | '-' :: cs => cs | cs => cs
  match digits with
  | '0' :: c :: cs => (c :: cs).all Char.isDigit
  | _ => false

def digitsValue (cs : List Char) : Nat := cs.foldl (fun n c => 10 * n + (c.toNat - '0'.toNat)) 0

/-- The real number `±coefficient · 10 ^ exponent`. Exponents far beyond the range of floats are cut
short, since what they stand for is zero or infinite already. -/
def realOf (negative : Bool) (coefficient : Nat) (exponent : Int) : Float :=
  let magnitude := (Nat.toDigits 10 coefficient).length + exponent
  let x :=
    if coefficient = 0 ∨ magnitude < -400 then 0.0
    else if 400 < magnitude then Float.ofScientific 1 false 400
    else Float.ofScientific coefficient (decide (exponent < 0)) exponent.natAbs
  if negative then -x else x

def splitDigits (cs : List Char) : List Char × List Char :=
  (cs.takeWhile Char.isDigit, cs.dropWhile Char.isDigit)

/-- The digits behind a point, if there is one. -/
def fraction : List Char → List Char × List Char
  | '.' :: rest => splitDigits rest
  | rest => ([], rest)

def exponentDigits? (negative : Bool) (cs : List Char) : Option Int :=
  if cs.isEmpty || !cs.all Char.isDigit then none
  else
    let n : Int := digitsValue cs
    some (if negative then -n else n)

/-- The exponent that the end of a number writes; zero if nothing is left. -/
def exponent? : List Char → Option Int
  | [] => some 0
  | e :: cs =>
    if e == 'e' || e == 'E' then
      match cs with
      | '+' :: digits => exponentDigits? false digits
      | '-' :: digits => exponentDigits? true digits
      | digits => exponentDigits? false digits
    else none

/-- A decimal number that is within the range of floats. -/
def decimal? (negative : Bool) (cs : List Char) : Option Float := do
  let (whole, rest) := splitDigits cs
  let (fraction, rest) := fraction rest
  if whole.isEmpty && fraction.isEmpty then
    none
  else
    let x := realOf negative (digitsValue (whole ++ fraction))
      ((← exponent? rest) - fraction.length)
    if x.isFinite then some x else none

def isInfinity (cs : List Char) : Bool := [".inf", ".Inf", ".INF"].contains (String.ofList cs)

/-- A number with or without a point and an exponent, or the word for what is no finite number. -/
def real? (w : String) : Option Float :=
  let signed (negative : Bool) (cs : List Char) : Option Float :=
    if isInfinity cs then some (if negative then -1.0 / 0.0 else 1.0 / 0.0)
    else decimal? negative cs
  match w.toList with
  | '+' :: cs => signed false cs
  | '-' :: cs => signed true cs
  | cs => if [".nan", ".NaN", ".NAN"].contains w then some (0.0 / 0.0) else signed false cs

end Word

end Hostility
