import Hostility.Engine.Action
import Hostility.Engine.Setting

/-!
Deception: a player in hiding may slip the attention of an actor that is about to choose it, as
long as there is someone else to choose.
-/
namespace Hostility

namespace Deception

/-- The chance that someone hidden slips an actor among `crowd` candidates. -/
def chance (evaluator : StealthEvaluator) (t : Tuning) (perception : Nat) (hidden : Concealment)
    (crowd : Nat) : Float :=
  let base := clampUnit (evaluator.successProbability perception hidden.deception)
  let chance := base * t.deceptionFactor
  let chance := if hidden.specialized && decide (1 < crowd) then chance * 2.0 else chance
  clampUnit (if hidden.abilityActive then chance + t.deceptionAbilityBonus else chance)

/-- The concealment of a player in hiding who is not the only candidate. -/
def attempter? (w : World) (target : Entity) (crowd : Nat) : Option Concealment :=
  if crowd ≤ 1 then
    none
  else
    match w.get? target with
    | some c =>
      match c.targetable, c.concealment with
      | some t, some hidden => if t.kind.isPlayer && hidden.hides then some hidden else none
      | _, _ => none
    | none => none

/-- Lets a target try to deceive an actor, and tells whether it succeeded; `none` if it does not
try. -/
def attempt (setting : Setting) (actor : Entity) (perception : Nat) (target : Entity)
    (crowd : Nat) : Action (Option Bool) := do
  let w ← Action.world
  match attempter? w target crowd with
  | some hidden =>
    let chance := chance setting.evaluator setting.tuning perception hidden crowd
    let roll ← Action.draw RandomSource.unit
    let succeeded := decide (roll < chance)
    Action.publish [.deceptionAttempted actor target chance succeeded]
    pure (some succeeded)
  | none => pure none

end Deception

end Hostility
