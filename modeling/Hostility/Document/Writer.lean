import Hostility.Document.Basic
import Hostility.Number.Decimal

/-!
Writing a document as text: on one line, without space, texts and keys in quotes. A real number has
a point or an exponent, so that it is not taken for a whole one.
-/
namespace Hostility

namespace Writer

/-- Four hexadecimal digits. -/
def codeDigits (n : Nat) : List Char :=
  let digits := Nat.toDigits 16 n
  List.replicate (4 - digits.length) '0' ++ digits

/-- A character inside quotes. -/
def escaped (c : Char) : List Char :=
  match c with
  | '"' => ['\\', '"']
  | '\\' => ['\\', '\\']
  | '\x08' => ['\\', 'b']
  | '\t' => ['\\', 't']
  | '\n' => ['\\', 'n']
  | '\x0c' => ['\\', 'f']
  | '\r' => ['\\', 'r']
  | c => if c.toNat < 0x20 then '\\' :: 'u' :: codeDigits c.toNat else [c]

def quoted (s : String) : String := "\"" ++ String.ofList (s.toList.flatMap escaped) ++ "\""

end Writer

namespace Datum

mutual

/-- A document as text. -/
def written : Datum → String
  | null => "null"
  | bool b => if b then "true" else "false"
  | integer n => toString n
  | real x => pointedText x
  | text s => Writer.quoted s
  | plain w => w
  | list items => "[" ++ String.intercalate "," (writtenItems items) ++ "]"
  | record fields => "\x7b" ++ String.intercalate "," (writtenFields fields) ++ "\x7d"

def writtenItems : List Datum → List String
  | [] => []
  | d :: rest => d.written :: writtenItems rest

def writtenFields : List (String × Datum) → List String
  | [] => []
  | (key, d) :: rest => (Writer.quoted key ++ ":" ++ d.written) :: writtenFields rest

end

end Datum

end Hostility
