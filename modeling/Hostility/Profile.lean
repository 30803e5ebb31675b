import Hostility.Tactic
import Hostility.Tolerance

/-!
An actor's awareness profile. It is given when the actor is made and only read afterwards.
-/
namespace Hostility

structure Profile where
  /-- How far the actor sees new targets. -/
  visualRange : Float := 12.0
  /-- How far the actor hears a call for help. -/
  auralRange : Float := 8.0
  /-- How far the current target stays eligible. -/
  chaseRange : Float := 18.0
  /-- Set against the deception of those who hide. -/
  perception : Nat := 10
  /-- Whether the actor draws tactics instead of keeping a threat table. -/
  legacyMode : Bool := false
  tactics : TacticSet := default
  tolerances : ToleranceSet := default
  thinkInterval : Float32 := 1.0
  deriving DecidableEq

namespace Profile

instance : Inhabited Profile := ⟨{}⟩

def withRanges (p : Profile) (visual aural chase : Float) : Profile :=
  { p with visualRange := visual, auralRange := aural, chaseRange := chase }

def withLegacyTactics (p : Profile) (tactics : TacticSet) : Profile :=
  { p with legacyMode := true, tactics }

def visualSquared (p : Profile) : Float := p.visualRange * p.visualRange

def chaseSquared (p : Profile) : Float := p.chaseRange * p.chaseRange

def lockedToTarget (p : Profile) : Bool := p.tolerances.contains .lockedToTarget

def monstersOnly (p : Profile) : Bool := p.tolerances.contains .monstersOnly

def ignoresAlerts (p : Profile) : Bool := p.tolerances.contains .ignoreAlerts

end Profile

end Hostility
