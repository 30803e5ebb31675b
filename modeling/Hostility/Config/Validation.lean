import Hostility.Config.Basic
import Hostility.Number.Decimal

/-!
The rules a configuration has to keep before it is used, in the order in which they are tried.
-/
namespace Hostility

/-- The first rule that a configuration breaks. -/
inductive Fault where
  /-- A share outside `[0, 1)`. -/
  | share (field : String) (value : Float)
  | smoothing (value : Float)
  | rangeFraction (value : Float)
  | threatMinimum
  /-- An actor that sees nothing or hears less than nothing. -/
  | awareness (actor : String)
  /-- An actor that sees further than it chases. -/
  | chase (actor : String) (chaseRange visualRange : Float)
  /-- An objective without a threshold. -/
  | objective (candidate : String)
  deriving DecidableEq

namespace Fault

def message : Fault → String
  | share field value =>
    field ++ " must be within [0, 1), got " ++ shortestText value
  | smoothing value => "passive_smoothing must be within (0, 1], got " ++ shortestText value
  | rangeFraction value => "aggro_range_fraction must be within (0, 1), got " ++ shortestText value
  | threatMinimum => "threat_minimum must be positive"
  | awareness actor => "actor '" ++ actor ++ "' has non-positive awareness ranges"
  | chase actor chaseRange visualRange =>
    "actor '" ++ actor ++ "' chase range " ++ shortestText chaseRange
      ++ " is smaller than visual range " ++ shortestText visualRange
  | objective candidate => "objective '" ++ candidate ++ "' needs a passive_threshold"

end Fault

/-- Whether a share lies in `[0, 1)`. -/
def isShare (x : Float) : Bool := decide (0.0 ≤ x) && decide (x < 1.0)

def Tuning.fault? (t : Tuning) : Option Fault :=
  if !isShare t.decayFraction then some (.share "decay_fraction" t.decayFraction)
  else if !isShare t.passiveTargetPct then some (.share "passive_target_pct" t.passiveTargetPct)
  else if !isShare t.passivePlayerFavor then
    some (.share "passive_player_favor" t.passivePlayerFavor)
  else if !(decide (0.0 < t.passiveSmoothing) && decide (t.passiveSmoothing ≤ 1.0)) then
    some (.smoothing t.passiveSmoothing)
  else if !(decide (0.0 < t.aggroRangeFraction) && decide (t.aggroRangeFraction < 1.0)) then
    some (.rangeFraction t.aggroRangeFraction)
  else if t.threatMinimum < 1 then some .threatMinimum
  else none

def ActorTemplate.fault? (a : ActorTemplate) : Option Fault :=
  let p := a.profile
  if p.visualRange ≤ 0.0 ∨ p.auralRange < 0.0 then some (.awareness a.name)
  else if p.chaseRange < p.visualRange then some (.chase a.name p.chaseRange p.visualRange)
  else none

def CandidateTemplate.fault? (c : CandidateTemplate) : Option Fault :=
  if c.kind = .objective ∧ c.passiveThreshold = none then some (.objective c.name) else none

/-- The first fault: of the constants, then of the actors, then of the candidates. -/
def Configuration.fault? (c : Configuration) : Option Fault :=
  c.tuning.fault?.or <|
    (c.scenario.actors.findSome? ActorTemplate.fault?).or
      (c.scenario.candidates.findSome? CandidateTemplate.fault?)

end Hostility
