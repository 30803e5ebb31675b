/-!
Tolerances: what an actor puts up with. They are kept as bits and any bit is allowed.
-/
namespace Hostility

inductive Tolerance where
  /-- Only the current target stays eligible. -/
  | lockedToTarget
  /-- Players and companions are never eligible. -/
  | monstersOnly
  /-- Allies may not wake this actor. -/
  | ignoreAlerts
  deriving DecidableEq, Repr

namespace Tolerance

def all : List Tolerance := [lockedToTarget, monstersOnly, ignoreAlerts]

def name : Tolerance → String
  | lockedToTarget => "LockedToTarget"
  | monstersOnly => "MonstersOnly"
  | ignoreAlerts => "IgnoreAlerts"

def mask : Tolerance → UInt8
  | lockedToTarget => 1
  | monstersOnly => 2
  | ignoreAlerts => 4

end Tolerance

structure ToleranceSet where
  bits : UInt8
  deriving DecidableEq, Repr

namespace ToleranceSet

def empty : ToleranceSet := ⟨0⟩

instance : Inhabited ToleranceSet := ⟨empty⟩

def contains (s : ToleranceSet) (t : Tolerance) : Bool := s.bits &&& t.mask != 0

def toList (s : ToleranceSet) : List Tolerance := Tolerance.all.filter s.contains

def isEmpty (s : ToleranceSet) : Bool := s.bits == 0

end ToleranceSet

end Hostility
