import Hostility.CommandLine
import Hostility.Config.Load
import Hostility.Simulation.Report

/-!
The command line program: it loads a configuration, runs its encounter tick by tick, prints what
happens, and ends with where every actor stands.
-/
namespace Hostility

def usage : String :=
  "Usage: hostility [-c|--config FILE] [-e|--env FILE] [-t|--ticks N]"

/-- What is told to someone whose command line starts no run. -/
def LineStop.message : LineStop → String
  | badNumber => "invalid number of ticks\n" ++ usage
  | missingValue => "a value is required for an option\n" ++ usage
  | unknownWord => "unexpected argument\n" ++ usage
  | repeatedOption => "an option cannot be used multiple times\n" ++ usage
  | unwantedValue => "unexpected value for an option\n" ++ usage
  | help => usage
  | version => "hostility 0.1.0"

/-- Help and version are answers, all else is a mistake. -/
def LineStop.exitCode : LineStop → UInt32
  | help | version => 0
  | badNumber | missingValue | unknownWord | repeatedOption | unwantedValue => 2

/-- The text of a file, unless it cannot be read. -/
def readFile? (file : String) : IO (Option String) := do
  try
    return some (← IO.FS.readFile file)
  catch _ =>
    return none

/-- The variables that a document may refer to. Those of the process come before those of the
file. -/
def loadEnvironment (file : String) (document : String) : IO Environment := do
  let own ← (Environment.namesIn document.toList).filterMapM fun name => do
    return (← IO.getEnv name).map fun value => (name, value)
  let lines := ((← readFile? file).getD "").splitOn "\n"
  return own ++ Environment.ofLines lines

/-- A panic ends the program with a code of its own. -/
def TickFault.exitCode : TickFault → UInt32
  | refused _ => 1
  | panicked _ => 101

def printLines (lines : List String) : IO Unit := lines.forM IO.println

/-- Runs the ticks and prints the events of each. -/
def runTicks (s : Simulation) : Nat → IO (Except TickFault Simulation)
  | 0 => return .ok s
  | ticks + 1 => do
    match s.step with
    | (.error fault, _) => return .error fault
    | (.ok report, s) =>
      printLines (s.tickLines report)
      runTicks s ticks

def fail (message : String) : IO UInt32 := do
  IO.eprintln message
  return 1

def runConfiguration (c : Configuration) (ticks : Nat) : IO UInt32 := do
  match Simulation.ofConfiguration c with
  | .error fault => fail fault.message
  | .ok s =>
    match ← runTicks s ticks with
    | .error fault =>
      IO.eprintln fault.message
      return fault.exitCode
    | .ok s =>
      s.report.forM fun r => printLines r.lines
      IO.println ("Simulation finished after " ++ toString ticks ++ " ticks")
      return 0

/-- The whole program, from the words of its command line to its exit code. -/
def runWords (words : List String) : IO UInt32 := do
  match Arguments.ofWords words with
  | .error stop =>
    IO.eprintln stop.message
    return stop.exitCode
  | .ok arguments =>
    match ← readFile? arguments.config with
    | none => fail LoadError.missing.message
    | some document =>
      let env ← loadEnvironment (arguments.env.getD ".env") document
      match Configuration.ofText env document with
      | .error e => fail e.message
      | .ok c => runConfiguration c (arguments.ticks.getD c.host.ticks)

end Hostility

def main (words : List String) : IO UInt32 := Hostility.runWords words
