import Hostility.World.Basic

/-!
Changes of the world that come from outside the engine. Each of them needs something to change, and
gives nothing if it is not there: the entity, or the part in question.
-/
namespace Hostility

namespace World

/-- Gives an entity further parts, in place of those of the same kind that it has. -/
def insert? (w : World) (e : Entity) (c : Components) : Option World :=
  w.edit? e fun old => some (old.overlay c)

def remove? (w : World) (e : Entity) (p : Part) : Option World :=
  w.edit? e fun c => if c.has p then some (c.without p) else none

def despawn? (w : World) (e : Entity) : Option World :=
  if w.contains e then some (w.despawn e) else none

def move? (w : World) (e : Entity) (place : Position) : Option World :=
  w.edit? e fun c => c.position.map fun _ => { c with position := some place }

def hurt? (w : World) (e : Entity) (amount : Float32) : Option World :=
  w.edit? e fun c => c.health.map fun h => { c with health := some (h.hurt amount) }

def editController? (w : World) (e : Entity) (f : Controller → Controller) : Option World :=
  w.edit? e fun c => c.controller.map fun k => { c with controller := some (f k) }

def editVanish? (w : World) (e : Entity) (f : Vanish → Vanish) : Option World :=
  w.edit? e fun c => c.vanish.map fun v => { c with vanish := some (f v) }

def editModifiers? (w : World) (e : Entity) (f : Modifiers → Modifiers) : Option World :=
  w.edit? e fun c => c.modifiers.map fun m => { c with modifiers := some (f m) }

end World

end Hostility
