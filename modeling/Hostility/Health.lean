/-!
Hit points. An entity at zero is dead; one without hit points cannot die.
-/
namespace Hostility

structure Health where
  current : Float32
  maximum : Float32
  deriving DecidableEq

namespace Health

def full (maximum : Float32) : Health := ⟨maximum, maximum⟩

instance : Inhabited Health := ⟨full 100.0⟩

def isAlive (h : Health) : Bool := decide (0.0 < h.current)

/-- Takes damage, down to zero. A remainder that is no number counts as zero. -/
def hurt (h : Health) (amount : Float32) : Health :=
  let left := h.current - amount
  { h with current := if left.isNaN || decide (left < 0.0) then 0.0 else left }

end Health

end Hostility
