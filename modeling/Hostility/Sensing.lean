import Hostility.World.Basic

/-!
What an actor can perceive. The engine asks a `Visibility`; `proximity` is the one that scans the
positions in the world.
-/
namespace Hostility

structure Sighting where
  entity : Entity
  distance : Float
  deriving DecidableEq

def Sighting.distanceSquared (s : Sighting) : Float := s.distance * s.distance

structure Visibility where
  /-- The entities near an actor, without the actor itself. -/
  visible : World → Entity → List Sighting
  /-- The distance between two entities, if it is known. -/
  distance : World → Entity → Entity → Option Float

namespace Visibility

/-- A hostile actor scans as far as it sees or chases, so that a fleeing target is still reported;
everyone else scans `radius`. -/
def scanRadius (radius : Float) (w : World) (actor : Entity) : Float :=
  match w.controller? actor with
  | some c => larger c.profile.visualRange c.profile.chaseRange
  | none => radius

/-- The sighting of one entity from `origin`, if it has a position within the squared radius. -/
def sight? (w : World) (origin : Position) (radiusSquared : Float) (e : Entity) :
    Option Sighting :=
  match w.position? e with
  | some place =>
    let squared := origin.distanceSquared place
    if squared ≤ radiusSquared then some ⟨e, squared.sqrt⟩ else none
  | none => none

/-- What an actor sees of some entities, in their order. -/
def scan (radius : Float) (w : World) (actor : Entity) (around : List Entity) : List Sighting :=
  match w.position? actor with
  | some origin =>
    let reach := scanRadius radius w actor
    (around.filter fun e => !decide (e = actor)).filterMap (sight? w origin (reach * reach))
  | none => []

/-- A scan of positions, in the order of the world. -/
def proximity (radius : Float) : Visibility where
  visible w actor := scan radius w actor w.entities
  distance w a b :=
    match w.position? a, w.position? b with
    | some p, some q => some (p.distance q)
    | _, _ => none

end Visibility

end Hostility
