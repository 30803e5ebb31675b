import Hostility.Selection.Choice
import Hostility.Tuning

/-!
What decisions are made by and do not change: the constants, and the collaborators that see,
remember damage and judge stealth.
-/
namespace Hostility

/-- The probability that a defender with some deception wins against some perception. -/
structure StealthEvaluator where
  successProbability : (perception deception : Nat) → Float

/-- The defender's share of the two skills, and zero if there is none. -/
def StealthEvaluator.opposedSkills : StealthEvaluator where
  successProbability perception deception :=
    let total := Float.ofNat perception + Float.ofNat deception
    if total ≤ 0.0 then 0.0 else Float.ofNat deception / total

structure Setting where
  tuning : Tuning := {}
  visibility : Visibility := .proximity 20.0
  history : DamageHistory := .ofLog
  evaluator : StealthEvaluator := .opposedSkills

end Hostility
