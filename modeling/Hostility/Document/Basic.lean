import Hostility.Document.Word

/-!
Documents: the plain data that configurations and events are written in. A value that the program
makes has its kind; a word that was read without quotes has none until it is asked for one. A record
keeps every field it was written with, in order, so that a repeated one can be refused.
-/
namespace Hostility

inductive Datum where
  | null
  | bool (b : Bool)
  | integer (n : Int)
  | real (x : Float)
  | text (s : String)
  /-- What was written without quotes. -/
  | plain (word : String)
  | list (items : List Datum)
  | record (fields : List (String × Datum))
  deriving Inhabited

namespace Datum

/-- The whole numbers that a value without a declared range may hold. -/
def isMachineInt (n : Int) : Bool := decide (Int64.minValue.toInt ≤ n ∧ n < UInt64.size)

/-- What a word is when nothing tells what is wanted. A number that is neither in the range of
machine integers nor in that of floats is a text. -/
def resolved : Datum → Datum
  | plain w =>
    if Word.isNull w then null
    else
      match Word.bool? w, (Word.integer? w).filter isMachineInt, Word.real? w with
      | some b, _, _ => bool b
      | none, some n, _ => integer n
      | none, none, some x => if Word.isPadded w then text w else real x
      | none, none, none => text w
  | d => d

/-- A whole number of at most `bits` bits. -/
def natOfBits? (bits : Nat) (d : Datum) : Option Nat :=
  let whole :=
    match d with
    | integer n => if 0 ≤ n then some n.toNat else none
    | plain w => Word.natural? w
    | _ => none
  whole.filter (· < Nat.pow 2 bits)

def amount? (d : Datum) : Option Int64 :=
  let whole :=
    match d with
    | integer n => some n
    | plain w => Word.integer? w
    | _ => none
  (whole.filter fun n => Int64.minValue.toInt ≤ n ∧ n ≤ Int64.maxValue.toInt).map Int64.ofInt

/-- A number, whole or real. -/
def float? : Datum → Option Float
  | integer n => some (Float.ofInt n)
  | real x => if x.isFinite then some x else none
  | plain w => Word.real? w
  | _ => none

/-- A number in single precision. Only a value that is known as whole is rounded once; all others
are doubles first. -/
def float32? : Datum → Option Float32
  | integer n => some (Float32.ofInt n)
  | d => d.float?.map Float.toFloat32

def bool? : Datum → Option Bool
  | bool b => some b
  | plain w => Word.bool? w
  | _ => none

def text? : Datum → Option String
  | text s => some s
  | _ => none

/-- A text, or a word as it stands. -/
def word? : Datum → Option String
  | text s => some s
  | plain w => some w
  | _ => none

/-- A list, or nothing written where a list is wanted. -/
def listOf? {α : Type} (f : Datum → Option α) : Datum → Option (List α)
  | list items => items.mapM f
  | plain "" => some []
  | _ => none

/-- Nothing for null, and else what `f` reads. -/
def optional? {α : Type} (f : Datum → Option α) : Datum → Option (Option α)
  | null => some none
  | plain w => if Word.isNull w then some none else (f (plain w)).map some
  | d => (f d).map some

/-- The fields of a record, or nothing written where a record is wanted. -/
def fields? : Datum → Option (List (String × Datum))
  | record fields => some fields
  | plain "" => some []
  | _ => none

def ofNat (n : Nat) : Datum := integer n

def ofAmount (n : Int64) : Datum := integer n.toInt

/-- Null for what is infinite or no number, since that cannot be written. -/
def ofFloat (x : Float) : Datum := if x.isFinite then real x else null

def ofFloat32 (x : Float32) : Datum := ofFloat x.toFloat

def ofTexts (l : List String) : Datum := list (l.map text)

def ofOption {α : Type} (f : α → Datum) : Option α → Datum
  | none => null
  | some a => f a

end Datum

abbrev Fields := List (String × Datum)

namespace Fields

/-- All values written under a key. -/
def valuesOf (fs : Fields) (key : String) : List Datum :=
  (List.filter (fun f => f.1 == key) fs).map (·.2)

/-- A field that has to be there, once. -/
def required {α : Type} (fs : Fields) (key : String) (f : Datum → Option α) : Option α :=
  match fs.valuesOf key with
  | [d] => f d
  | _ => none

/-- A field that may be left out, but not repeated. -/
def withDefault {α : Type} (fs : Fields) (key : String) (f : Datum → Option α) (other : α) :
    Option α :=
  match fs.valuesOf key with
  | [] => some other
  | [d] => f d
  | _ => none

end Fields

end Hostility
