import Hostility.Document.Basic

/-!
Reading a document from its text: words, quoted texts, lists in brackets and records in braces.
Blanks, line breaks and remarks stand between them. The reader takes what it can from the front of
the text and gives back the rest.
-/
namespace Hostility

namespace Reader

/-- The characters that a document may hold: no control characters but tabs and line ends. -/
def isAllowed (c : Char) : Bool :=
  let n := c.toNat
  n == 0x09 || n == 0x0A || n == 0x0D || (0x20 ≤ n && n ≤ 0x7E) || n == 0x85
    || (0xA0 ≤ n && n != 0xFFFE && n != 0xFFFF)

/-- Line feed, carriage return, next line, line separator and paragraph separator. -/
def isBreak (c : Char) : Bool :=
  let n := c.toNat
  n == 0x0A || n == 0x0D || n == 0x85 || n == 0x2028 || n == 0x2029

def isGap (c : Char) : Bool := c == ' ' || c == '\t'

def isSpace (c : Char) : Bool := isGap c || isBreak c

/-- Drops space and remarks. A remark goes from a hash to the end of its line. -/
def skip (space : Char → Bool) : Bool → List Char → List Char
  | _, [] => []
  | true, c :: cs => skip space (!isBreak c) cs
  | false, c :: cs =>
    if space c then skip space false cs
    else if c == '#' then skip space true cs
    else c :: cs

def skipSpace (cs : List Char) : List Char := skip isSpace false cs

/-- Outside of all brackets no line starts with a tab. -/
def skipMargin (cs : List Char) : List Char := skip (fun c => c == ' ' || isBreak c) false cs

def endsWord (c : Char) : Bool := isSpace c || [',', '[', ']', '{', '}'].contains c

/-- Characters that mean something of their own in front of a value. -/
def isIndicator (c : Char) : Bool :=
  ['-', '?', ':', '#', '&', '*', '!', '|', '>', '%', '@', '"', '\'', '`'].contains c

def word? (cs : List Char) : Option (Datum × List Char) :=
  let w := cs.takeWhile (!endsWord ·)
  let isWord :=
    match w with
    | [] => false
    | '-' :: more => !more.isEmpty
    | c :: _ => !isIndicator c
  if isWord && w.getLast? != some ':' then
    some (.plain (String.ofList w), cs.dropWhile (!endsWord ·))
  else none

/-- The line ends in a run of space; one of a single line counts as a line feed. -/
def breaksIn : List Char → List Char
  | '\r' :: '\n' :: cs => '\n' :: breaksIn cs
  | c :: cs =>
    if c == '\r' || c == '\n' || c == '\u0085' then '\n' :: breaksIn cs
    else if isBreak c then c :: breaksIn cs
    else breaksIn cs
  | [] => []

/-- What a run of space inside a quoted text stands for: itself within a line. Across lines the
blanks go, a single line feed is a blank, and of several the first goes. -/
def folded (run : List Char) : List Char :=
  match breaksIn run with
  | [] => run
  | ['\n'] => [' ']
  | '\n' :: breaks => breaks
  | breaks => breaks

def simpleEscape? : Char → Option Char
  | '0' => some '\x00'
  | 'a' => some '\x07'
  | 'b' => some '\x08'
  | 't' | '\t' => some '\t'
  | 'n' => some '\n'
  | 'v' => some '\x0b'
  | 'f' => some '\x0c'
  | 'r' => some '\r'
  | 'e' => some '\x1b'
  | 'N' => some '\u0085'
  | '_' => some '\u00a0'
  | 'L' => some '\u2028'
  | 'P' => some '\u2029'
  | c => if c == ' ' || c == '"' || c == '/' || c == '\\' then some c else none

/-- The character with a code in hexadecimal. Surrogates are no characters. -/
def coded? (digits : List Char) : Option Char :=
  match Word.digits? 16 digits with
  | some n => if h : n.isValidChar then some (Char.ofNatAux n h) else none
  | none => none

theorem length_dropWhile_le {α : Type} (p : α → Bool) (l : List α) :
    (l.dropWhile p).length ≤ l.length := (List.dropWhile_sublist p).length_le

/-- Whether a line starts with three dashes or three dots that stand alone. Such a line marks where
documents start and end, even inside quotes. -/
def startsMarker : List Char → Bool
  | '-' :: '-' :: '-' :: rest | '.' :: '.' :: '.' :: rest => rest.head?.all isSpace
  | _ => false

/-- Whether a run of space ends at the start of a line and a marker follows. -/
def meetsMarker (run behind : List Char) : Bool := run.getLast?.any isBreak && startsMarker behind

/-- The rest of a quoted text after its opening quote. -/
def quoted? : List Char → List Char → Option (String × List Char)
  | acc, '"' :: rest => some (String.ofList acc.reverse, rest)
  | acc, '\\' :: 'x' :: a :: b :: rest =>
    match coded? [a, b] with
    | some c => quoted? (c :: acc) rest
    | none => none
  | acc, '\\' :: 'u' :: a :: b :: c :: d :: rest =>
    match coded? [a, b, c, d] with
    | some c => quoted? (c :: acc) rest
    | none => none
  | acc, '\\' :: 'U' :: a :: b :: c :: d :: e :: f :: g :: h :: rest =>
    match coded? [a, b, c, d, e, f, g, h] with
    | some c => quoted? (c :: acc) rest
    | none => none
  | acc, '\\' :: c :: rest =>
    if isBreak c then
      let run := c :: rest.takeWhile isSpace
      if meetsMarker run (rest.dropWhile isSpace) then none
      else quoted? (((breaksIn run).drop 1).reverse ++ acc) (rest.dropWhile isSpace)
    else
      match simpleEscape? c with
      | some c => quoted? (c :: acc) rest
      | none => none
  | acc, c :: rest =>
    if isSpace c then
      let run := c :: rest.takeWhile isSpace
      if meetsMarker run (rest.dropWhile isSpace) then none
      else quoted? ((folded run).reverse ++ acc) (rest.dropWhile isSpace)
    else quoted? (c :: acc) rest
  | _, [] => none
termination_by _ cs => cs.length
decreasing_by
  all_goals have := length_dropWhile_le isSpace rest
  all_goals simp only [List.length_cons]
  all_goals omega

/-- A quoted text as it is written, from behind its opening quote through its closing one. -/
def quotedSource : List Char → List Char
  | '\\' :: c :: cs => '\\' :: c :: quotedSource cs
  | '"' :: _ => ['"']
  | c :: cs => c :: quotedSource cs
  | [] => []

/-- Whether a key stands on one line with its colon, which comes at most 1024 bytes of UTF-8 after
the start of the key. The key is given from behind its opening quote. -/
def isKey (key gap : List Char) : Bool :=
  let source := quotedSource key ++ gap
  (String.ofList source).utf8ByteSize < 1024 && !source.any isBreak

mutual

/-- A value at the front of the text. The fuel bounds how deep and how long the parts of a value
are; the length of the text is enough of it. -/
def value? : Nat → List Char → Option (Datum × List Char)
  | 0, _ => none
  | fuel + 1, cs =>
    match cs with
    | '{' :: rest => (fields? fuel (skipSpace rest)).map fun a => (.record a.1, a.2)
    | '[' :: rest => (items? fuel (skipSpace rest)).map fun a => (.list a.1, a.2)
    | '"' :: rest => (quoted? [] rest).map fun a => (.text a.1, a.2)
    | cs => word? cs

/-- The items of a list through its closing bracket. -/
def items? : Nat → List Char → Option (List Datum × List Char)
  | 0, _ => none
  | fuel + 1, cs =>
    match cs with
    | ']' :: rest => some ([], rest)
    | cs => do
      let (item, rest) ← value? fuel cs
      match skipSpace rest with
      | ',' :: rest =>
        let (items, rest) ← items? fuel (skipSpace rest)
        some (item :: items, rest)
      | ']' :: rest => some ([item], rest)
      | _ => none

/-- The fields of a record through its closing brace. A key may stand alone, and a value may be
left out. -/
def fields? : Nat → List Char → Option (List (String × Datum) × List Char)
  | 0, _ => none
  | fuel + 1, cs =>
    match cs with
    | '}' :: rest => some ([], rest)
    | '"' :: cs => do
      let (key, rest) ← quoted? [] cs
      let (item, rest) ←
        match skipSpace rest with
        | ':' :: behind =>
          if isKey cs (rest.takeWhile isSpace) then fieldValue? fuel (skipSpace behind) else none
        | rest => some (.plain "", rest)
      match skipSpace rest with
      | ',' :: rest =>
        let (fields, rest) ← fields? fuel (skipSpace rest)
        some ((key, item) :: fields, rest)
      | '}' :: rest => some ([(key, item)], rest)
      | _ => none
    | _ => none

/-- The value of a field, or the empty word if it is left out. -/
def fieldValue? : Nat → List Char → Option (Datum × List Char)
  | 0, _ => none
  | fuel + 1, cs =>
    match cs with
    | ',' :: _ | '}' :: _ => some (.plain "", cs)
    | cs => value? fuel cs

end

/-- A text without a byte order mark in front. -/
def dropMark : List Char → List Char
  | '\ufeff' :: cs => cs
  | cs => cs

end Reader

/-- The document that a whole text holds; the empty word if there is nothing but space. -/
def Datum.read? (s : String) : Option Datum :=
  let cs := Reader.dropMark s.toList
  if cs.all Reader.isAllowed then
    match Reader.skipMargin cs with
    | [] => some (.plain "")
    | front =>
      match Reader.value? (2 * cs.length + 2) front with
      | some (d, rest) =>
        if (Reader.skipMargin (rest.dropWhile Reader.isGap)).isEmpty then some d else none
      | none => none
  else none

end Hostility
