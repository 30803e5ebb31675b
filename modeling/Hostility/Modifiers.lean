import Hostility.Number.Rounding
import Hostility.Tuning

/-!
How a candidate bends the threat it causes: abilities that must be charged, one-shot flags that are
used up, and item bonuses.
-/
namespace Hostility

structure Ability where
  active : Bool := false
  /-- The charge built up so far. -/
  readiness : Float32 := 0.0
  deriving DecidableEq

namespace Ability

instance : Inhabited Ability := ⟨{}⟩

def applies (a : Ability) (threshold : Float32) : Bool :=
  a.active && decide (threshold ≤ a.readiness)

end Ability

structure Modifiers where
  provoke : Ability := {}
  smokescreen : Ability := {}
  /-- The next increase is ignored. -/
  skipNext : Bool := false
  /-- The next increase is doubled. -/
  doubleNext : Bool := false
  /-- An item bonus: `0.1` for ten percent more. -/
  gain : Float := 0.0
  /-- An item reduction: `0.25` for a quarter less. -/
  reduction : Float := 0.0
  deriving DecidableEq

namespace Modifiers

instance : Inhabited Modifiers := ⟨{}⟩

/-- The amount after the charged abilities. -/
def charged (m : Modifiers) (t : Tuning) (base : Int64) : Float :=
  let amount := floatOfAmount base
  let amount :=
    if m.provoke.applies t.abilityReadinessThreshold then amount * t.provokeMultiplier else amount
  if m.smokescreen.applies t.abilityReadinessThreshold then amount * t.smokescreenMultiplier
  else amount

/-- The threat that a base amount becomes, and the modifiers with the flag it used up. An armed skip
comes before an armed doubling and swallows the increase; otherwise the item bonus, the item
reduction and the least gain are applied in this order. -/
def apply (m : Modifiers) (t : Tuning) (base : Int64) : Option Int64 × Modifiers :=
  if m.skipNext then
    (none, { m with skipNext := false })
  else
    let amount := m.charged t base
    let amount := if m.doubleNext then amount * 2.0 else amount
    let amount := amount * larger (1.0 + m.gain) 0.0
    let amount := amount * (1.0 - clampUnit m.reduction)
    (some (max (truncAmount amount) t.minimumThreatGain), { m with doubleNext := false })

end Modifiers

end Hostility
