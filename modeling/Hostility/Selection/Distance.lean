import Hostility.Entity.Basic
import Hostility.Number.Rounding
import Hostility.Random.Source

/-!
A draw in which nearness counts: of `n` candidates each has the weight one less its share of all the
distances, so the weights add up to `n - 1`.
-/
namespace Hostility

namespace Distance

/-- A distance that makes sense: neither negative nor infinite. -/
def sanitize (d : Float) : Float := if d.isFinite then larger d 0.0 else 0.0

/-- The least sum of distances that is divided by. -/
def leastSum : Float := 1e-9

def sum (candidates : List (Entity × Float)) : Float :=
  larger (candidates.foldl (fun s c => s + sanitize c.2) 0.0) leastSum

/-- The first candidate with which the running sum of the weights exceeds the roll. -/
def firstAbove (total roll : Float) : Float → List (Entity × Float) → Option Entity
  | _, [] => none
  | running, (e, d) :: rest =>
    let running := running + (1.0 - sanitize d / total)
    if roll < running then some e else firstAbove total roll running rest

/-- Draws a candidate. One alone needs no draw, and the first one stands in if rounding leaves the
roll above all the weights. -/
def draw (candidates : List (Entity × Float)) (r : RandomSource) : Option Entity × RandomSource :=
  match candidates with
  | [] => (none, r)
  | [(e, _)] => (some e, r)
  | (first, _) :: _ =>
    let (roll, r) := r.within (Float.ofNat (candidates.length - 1))
    (some ((firstAbove (sum candidates) roll 0.0 candidates).getD first), r)

end Distance

end Hostility
