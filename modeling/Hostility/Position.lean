/-!
Places in the world and the distances between them.
-/
namespace Hostility

structure Position where
  x : Float
  y : Float
  z : Float
  deriving DecidableEq

namespace Position

def distanceSquared (a b : Position) : Float :=
  let dx := a.x - b.x
  let dy := a.y - b.y
  let dz := a.z - b.z
  dx * dx + dy * dy + dz * dz

def distance (a b : Position) : Float := (a.distanceSquared b).sqrt

end Position

end Hostility
