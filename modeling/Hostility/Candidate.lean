import Hostility.Targetable

/-!
A candidate: an entity that an actor may turn on in the present pass.
-/
namespace Hostility

structure Candidate where
  entity : Entity
  distance : Float
  kind : EntityKind
  /-- The threshold of a passive threat source. -/
  passive : Option Int64
  deriving DecidableEq

def Candidate.isPassive (c : Candidate) : Bool := c.passive.isSome

end Hostility
