import Hostility.Entity.Map

/-!
How candidates keep out of sight: cloaks and deception, and the vanish effect that shakes off
single actors.
-/
namespace Hostility

structure Concealment where
  /-- Cloaked: not seen by actors whose perception is below `stealth`. -/
  stealthed : Bool := false
  stealth : Nat := 0
  /-- Trying to slip out of an actor's attention. -/
  hides : Bool := false
  deception : Nat := 0
  /-- Trained in misdirection: the odds double in a crowd. -/
  specialized : Bool := false
  /-- A deception ability is running. -/
  abilityActive : Bool := false
  deriving DecidableEq, Repr, Inhabited

namespace Concealment

def ofHiding (deception : Nat) : Concealment := { hides := true, deception }

def detectedBy (c : Concealment) (perception : Nat) : Bool :=
  !c.stealthed || decide (c.stealth ≤ perception)

end Concealment

/-- The actors that a candidate has shaken off, for as long as the effect lasts. -/
structure Vanish where
  evaded : EntitySet
  active : Bool
  deriving DecidableEq

namespace Vanish

def start : Vanish := ⟨∅, true⟩

def evade (v : Vanish) (actor : Entity) : Vanish :=
  if v.active then { v with evaded := v.evaded.add actor } else v

def hasEvaded (v : Vanish) (actor : Entity) : Bool := v.active && v.evaded.contains actor

def stop (_ : Vanish) : Vanish := ⟨∅, false⟩

end Vanish

end Hostility
