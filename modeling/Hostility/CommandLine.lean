import Hostility.Config.Environment

/-!
The command line: three options, each given at most once, and no other words.

An option takes its value from its own word (`--ticks=5`, `-t5`, `-t=5`) or from the next word. A
value in the next word is looked at only when the following option starts or the line ends, so an
unknown word is reported before a bad value that precedes it.
-/
namespace Hostility

/-- What a run is started with. -/
structure Arguments where
  config : String
  env : Option String
  ticks : Option Nat
  deriving DecidableEq, Repr

namespace Arguments

/-- What holds without any command line. -/
instance : Inhabited Arguments := ⟨⟨"config.yaml", some ".env", none⟩⟩

end Arguments

/-- Why a command line starts no run. -/
inductive LineStop where
  /-- A number is not one, or out of range. -/
  | badNumber
  /-- An option is left without its value. -/
  | missingValue
  | unknownWord
  | repeatedOption
  /-- A value is attached to an option that takes none. -/
  | unwantedValue
  | help
  | version
  deriving DecidableEq, Repr

inductive ValuedOption where
  | config
  | env
  | ticks
  deriving DecidableEq, Repr

/-- What a word of the command line starts with. -/
inductive LineWord where
  /-- Two dashes: no option follows. -/
  | separator
  | valued (option : ValuedOption) (attached : Option String)
  /-- A request for the usage or the version. -/
  | request (answer : LineStop)
  /-- A request in its long form with a value attached. -/
  | spoiledRequest
  | unknownOption
  /-- A word that starts no option. -/
  | plain

namespace LineWord

def ofLongName (name : List Char) (attached : Option String) : LineWord :=
  match String.ofList name, attached with
  | "config", _ => valued .config attached
  | "env", _ => valued .env attached
  | "ticks", _ => valued .ticks attached
  | "help", none => request .help
  | "version", none => request .version
  | "help", some _ | "version", some _ => spoiledRequest
  | _, _ => unknownOption

/-- What is attached to a letter, without the equals sign that may stand before it. -/
def attachedToLetter : List Char → Option String
  | [] => none
  | '=' :: rest => some (String.ofList rest)
  | rest => some (String.ofList rest)

def ofLetter (letter : Char) (rest : List Char) : LineWord :=
  match letter with
  | 'c' => valued .config (attachedToLetter rest)
  | 'e' => valued .env (attachedToLetter rest)
  | 't' => valued .ticks (attachedToLetter rest)
  | 'h' => request .help
  | 'V' => request .version
  | _ => unknownOption

/-- A single dash is a plain word. -/
def ofChars : List Char → LineWord
  | ['-', '-'] => separator
  | '-' :: '-' :: rest =>
    match rest.dropWhile (· != '=') with
    | _ :: value => ofLongName (rest.takeWhile (· != '=')) (some (String.ofList value))
    | [] => ofLongName rest none
  | '-' :: letter :: rest => ofLetter letter rest
  | _ => plain

end LineWord

structure GivenOptions where
  config : Option String := none
  env : Option String := none
  ticks : Option Nat := none

namespace GivenOptions

/-- Digits behind at most one sign, as a number of at most 32 bits. The only number that may stand
behind a minus is zero. -/
def ticks? (s : String) : Option Nat :=
  match s.toList with
  | '-' :: '+' :: _ => none
  | '-' :: rest => plainNumber? 1 rest
  | cs => plainNumber? UInt32.size cs

/-- Adds an option, which must be new. -/
def give (g : GivenOptions) (option : ValuedOption) (value : String) :
    Except LineStop GivenOptions :=
  match option with
  | .config => if g.config.isSome then .error .repeatedOption else .ok { g with config := value }
  | .env => if g.env.isSome then .error .repeatedOption else .ok { g with env := value }
  | .ticks =>
    if g.ticks.isSome then .error .repeatedOption
    else
      match ticks? value with
      | some n => .ok { g with ticks := n }
      | none => .error .badNumber

end GivenOptions

structure LineReading where
  given : GivenOptions := {}
  /-- The option that was started last, unless its value was attached, and its value. -/
  pending : Option (ValuedOption × Option String) := none

namespace LineReading

/-- Adds the pending option to the given ones. -/
def settle (r : LineReading) : Except LineStop GivenOptions :=
  match r.pending with
  | none => .ok r.given
  | some (_, none) => .error .missingValue
  | some (option, some value) => r.given.give option value

/-- A word that starts no option is the value of an option that waits for one. -/
def takeValue (r : LineReading) (value : String) : Except LineStop LineReading :=
  match r.pending with
  | some (option, none) => .ok { r with pending := some (option, some value) }
  | _ => .error .unknownWord

def takeWord (r : LineReading) (text : String) : LineWord → Except LineStop LineReading
  | .separator | .plain => r.takeValue text
  | .valued option none => r.settle.map fun given => ⟨given, some (option, none)⟩
  | .valued option (some value) =>
    (r.settle.bind fun given => given.give option value).map fun given => ⟨given, none⟩
  | .request answer => r.settle.bind fun _ => .error answer
  | .spoiledRequest => .error .unwantedValue
  | .unknownOption => .error .unknownWord

/-- Reads all words. Nothing may follow the separator. -/
def run (r : LineReading) : List String → Except LineStop GivenOptions
  | [] => r.settle
  | text :: rest =>
    match LineWord.ofChars text.toList with
    | .separator => if rest.isEmpty then r.settle else .error .unknownWord
    | word => (r.takeWord text word).bind fun r => r.run rest

end LineReading

namespace Arguments

/-- Options that are not given take their defaults. -/
def ofGiven (g : GivenOptions) : Arguments :=
  ⟨g.config.getD "server/config.yaml", some (g.env.getD "server/.env"), g.ticks⟩

/-- The arguments of a command line without the program's name. -/
def ofWords (words : List String) : Except LineStop Arguments :=
  (LineReading.run {} words).map ofGiven

end Arguments

end Hostility
