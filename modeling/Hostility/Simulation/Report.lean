import Hostility.Number.Decimal
import Hostility.Simulation.Run

/-!
What an encounter tells its host: where every actor stands, and each event in one line of words.
-/
namespace Hostility

structure ActorReport where
  name : String
  state : Awareness
  target : Option String
  /-- The ledger by name, highest first and equals by name. -/
  threat : List (String × Int64)
  /-- The odds in the last lottery. -/
  odds : List (String × Float)
  deriving DecidableEq

namespace ActorReport

def padLeft (width : Nat) (s : String) : String :=
  String.ofList (List.replicate (width - s.length) ' ') ++ s

def padRight (width : Nat) (s : String) : String :=
  s ++ String.ofList (List.replicate (width - s.length) ' ')

/-- A candidate, its threat, and its odds in percent; nothing for the odds counts as zero. -/
def threatLine (r : ActorReport) (candidate : String) (threat : Int64) : String :=
  let odds := ((r.odds.lookup candidate).getD 0.0) * 100.0
  "    " ++ padRight 16 candidate ++ " " ++ padLeft 6 (toString threat.toInt) ++ " "
    ++ padLeft 5 (fixedText 1 odds) ++ "%"

/-- The actor in one line, and a line for every ledger entry. -/
def lines (r : ActorReport) : List String :=
  (r.name ++ " is " ++ r.state.name ++ " targeting " ++ r.target.getD "nobody")
    :: r.threat.map fun a => r.threatLine a.1 a.2

end ActorReport

namespace Simulation

/-- Whether one line of a threat list may stand before another. -/
def ranksBefore (a b : String × Int64) : Bool :=
  decide (b.2 < a.2) || (a.2 == b.2 && !decide (b.1 < a.1))

def actorReport? (s : Simulation) (actor : Entity) : Option ActorReport :=
  (s.state.world.controller? actor).map fun c =>
    let ledger := (s.state.world.ledger? actor).getD .empty
    { name := s.nameOf actor
      state := c.state
      target := c.target.map s.nameOf
      threat := (ledger.entries.entries.map fun a => (s.nameOf a.1, a.2)).mergeSort ranksBefore
      odds := ledger.outlook.positive.entries.map fun a => (s.nameOf a.1, a.2) }

/-- The actors that still have a controller, in the order of the scenario. -/
def report (s : Simulation) : List ActorReport := s.actors.filterMap s.actorReport?

/-- A number in lower-case hexadecimal with four digits at least. -/
def hexText (n : Nat) : String :=
  let digits := Nat.toDigits 16 n
  "0x" ++ String.ofList (List.replicate (4 - digits.length) '0' ++ digits)

def describe (s : Simulation) : Event → String
  | .targetAcquired actor target => s.nameOf actor ++ " targets " ++ s.nameOf target
  | .newEnemy actor _ enemy => s.nameOf actor ++ " turns on " ++ s.nameOf enemy
  | .targetLost actor target => s.nameOf actor ++ " lost " ++ s.nameOf target
  | .stateChanged actor before after =>
    s.nameOf actor ++ " " ++ before.name ++ " -> " ++ after.name
  | .allyAlerted alerter ally enemy =>
    s.nameOf alerter ++ " alerts " ++ s.nameOf ally ++ " to " ++ s.nameOf enemy
  | .deceptionAttempted actor target chance succeeded =>
    s.nameOf target ++ (if succeeded then " deceives " else " fails to deceive ")
      ++ s.nameOf actor ++ " (" ++ fixedText 0 (chance * 100.0) ++ "%)"
  | .threatIncreased actor candidate amount total =>
    s.nameOf actor ++ " threat on " ++ s.nameOf candidate ++ " +" ++ toString amount.toInt
      ++ " = " ++ toString total.toInt
  | .threatSkipped actor candidate =>
    s.nameOf actor ++ " ignored threat from " ++ s.nameOf candidate
  | .threatDecayed actor amount entries =>
    s.nameOf actor ++ " threat decayed by " ++ toString amount.toInt ++ " across "
      ++ toString entries ++ " entries"
  | .ledgerReset actor => s.nameOf actor ++ " forgot its threat"
  | .tacticRejected actor bits => s.nameOf actor ++ " rejected tactic " ++ hexText bits.toNat

/-- The events of a tick in words, each behind the number of the tick. -/
def tickLines (s : Simulation) (r : TickReport) : List String :=
  r.events.map fun e =>
    "[tick " ++ ActorReport.padLeft 3 (toString r.tick) ++ "] " ++ s.describe e

end Simulation

end Hostility
