import Hostility.Text.Alphanumeric
import Hostility.Text.Name

/-!
References to environment variables inside a text: `$NAME`, `${NAME}` and `${NAME:-default}`.
-/
namespace Hostility

abbrev Environment := List (String × String)

namespace Environment

def isNameChar (c : Char) : Bool := isLetterOrNumber c || c == '_'

/-- What stands before the first `:-` and what behind it. -/
def splitDefault : List Char → List Char × Option (List Char)
  | [] => ([], none)
  | ':' :: '-' :: rest => ([], some rest)
  | c :: rest =>
    let (name, other) := splitDefault rest
    (c :: name, other)

/-- A variable's name and its default from the inside of braces. A default needs a name before it;
without one the whole inside is the name. -/
def reference (inside : List Char) : List Char × Option (List Char) :=
  match splitDefault inside with
  | ([], _) => (inside, none)
  | split => split

/-- The value of a variable, or else the default that stands with it. -/
def resolve (env : Environment) (name : List Char) (other : Option (List Char)) :
    Option (List Char) :=
  match env.lookup (String.ofList name) with
  | some value => some value.toList
  | none => other

/-- Replaces every reference. A variable that is neither set nor has a default makes the text
unreadable; a dollar sign that starts no reference stays, and of two one. -/
def expand (env : Environment) : Nat → List Char → Option (List Char)
  | 0, _ => none
  | _ + 1, [] => some []
  | fuel + 1, '$' :: '{' :: rest =>
    match rest.dropWhile (· != '}') with
    | _ :: behind => do
      let (name, other) := reference (rest.takeWhile (· != '}'))
      let value ← env.resolve name other
      return value ++ (← expand env fuel behind)
    | [] => (expand env fuel rest).map fun cs => '$' :: '{' :: cs
  | fuel + 1, '$' :: '$' :: rest => (expand env fuel rest).map ('$' :: ·)
  | fuel + 1, '$' :: rest =>
    let name := rest.takeWhile isNameChar
    if name.isEmpty then (expand env fuel rest).map ('$' :: ·)
    else do
      let value ← env.resolve name none
      return value ++ (← expand env fuel (rest.dropWhile isNameChar))
  | fuel + 1, c :: rest => (expand env fuel rest).map (c :: ·)

def expandText (env : Environment) (s : String) : Option (List Char) :=
  env.expand (s.toList.length + 1) s.toList

/-- The names that follow a dollar sign, with or without braces. -/
def namesIn : List Char → List String
  | [] => []
  | '$' :: '{' :: rest =>
    String.ofList (reference (rest.takeWhile (· != '}'))).1 :: namesIn rest
  | '$' :: rest => String.ofList (rest.takeWhile isNameChar) :: namesIn rest
  | _ :: rest => namesIn rest

/-- The variable that a line `NAME=value` sets. A line without an equals sign sets nothing, and
neither does one that starts with a hash. -/
def ofLine? (line : String) : Option (String × String) :=
  let cs := trimBlanks line.toList
  match cs.head?, cs.dropWhile (· != '=') with
  | some '#', _ => none
  | _, _ :: value =>
    let name := trimBlanks (cs.takeWhile (· != '='))
    some (String.ofList name, String.ofList (trimBlanks value))
  | _, [] => none

/-- The variables that a file of lines sets; of one set twice the first counts. -/
def ofLines (lines : List String) : Environment := lines.filterMap ofLine?

end Environment

/-- Decimal digits behind at most one plus sign, as a number below `bound`. -/
def plainNumber? (bound : Nat) (cs : List Char) : Option Nat :=
  let digits := match cs with | '+' :: rest => rest | _ => cs
  if digits.isEmpty || !digits.all Char.isDigit then none
  else
    let n := digits.foldl (fun n c => 10 * n + (c.toNat - '0'.toNat)) 0
    if n < bound then some n else none

end Hostility
