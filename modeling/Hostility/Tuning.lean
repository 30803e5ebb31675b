import Hostility.Number.Time
import Hostility.Text.Name

/-!
The constants of the threat engine, and the names that never enter a ledger.
-/
namespace Hostility

structure Tuning where
  /-- The floor of every ledger entry. -/
  threatMinimum : Int64 := 100
  /-- The least that a threat increase adds. -/
  minimumThreatGain : Int64 := 2
  /-- The share of excess threat removed by a decay after which nothing was gained. -/
  decayFraction : Float := 0.1
  /-- The share of the top threat below which candidates are safe from the lottery. -/
  aggroRangeFraction : Float := 0.5
  /-- How often a passive source should win against one top competitor. -/
  passiveTargetPct : Float := 0.4
  /-- The margin by which passive sources stay below players. -/
  passivePlayerFavor : Float := 0.02
  /-- The weight of the newest value in the average of passive pressure. -/
  passiveSmoothing : Float := 0.2
  /-- Wins in a row after which a passive source is held back. -/
  passiveStreakThreshold : Nat := 3
  passiveStreakPenalty : Int64 := 5
  /-- The readiness at which an ability starts to modify threat. -/
  abilityReadinessThreshold : Float32 := 1.0
  provokeMultiplier : Float := 2.0
  smokescreenMultiplier : Float := 0.5
  /-- Scales the evaluator's probability for those who hide. -/
  deceptionFactor : Float := 0.5
  /-- Added while the defender's deception ability is active. -/
  deceptionAbilityBonus : Float := 0.15
  /-- How many selections a think repeats after successful deceptions. -/
  maxDeceptionRerolls : Nat := 3
  /-- Seconds before one enemy can cause another alert. -/
  alertCooldownSecs : Int64 := 120
  /-- Names that never enter a ledger. -/
  reservedNames : List String := ["", "placeholder", "unknown"]
  deriving DecidableEq

namespace Tuning

instance : Inhabited Tuning := ⟨{}⟩

/-- The asked name without its surrounding blanks is one of the reserved names, whatever the case of
the letters `A` to `Z`. -/
def isReservedName (t : Tuning) (name : String) : Bool :=
  let asked := trimBlanks name.toList
  t.reservedNames.any fun reserved => sameLetters reserved.toList asked

/-- The time between two alerts about one enemy. -/
def alertCooldown? (t : Tuning) : Option Int := Duration.ofSeconds? t.alertCooldownSecs

end Tuning

end Hostility
