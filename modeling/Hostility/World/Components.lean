import Hostility.Allegiance
import Hostility.Controller
import Hostility.DamageLog
import Hostility.Health
import Hostility.Modifiers
import Hostility.PassiveBias
import Hostility.Position
import Hostility.Stealth

/-!
The parts that an entity can be made of. Which parts an entity has decides where it stands in the
world's order; what they hold does not.
-/
namespace Hostility

inductive Part where
  | name
  | position
  | targetable
  | allegiance
  | health
  | level
  | passive
  | transit
  | concealment
  | vanish
  | modifiers
  | controller
  | damageLog
  | ledger
  | bias
  deriving DecidableEq, Repr

def Part.all : List Part :=
  [.name, .position, .targetable, .allegiance, .health, .level, .passive, .transit, .concealment,
    .vanish, .modifiers, .controller, .damageLog, .ledger, .bias]

structure Components where
  name : Option String := none
  position : Option Position := none
  targetable : Option Targetable := none
  allegiance : Option Allegiance := none
  health : Option Health := none
  level : Option Nat := none
  /-- The threshold of a passive threat source: pressure held above the floor. -/
  passive : Option Int64 := none
  /-- On the way between two places, and out of reach. -/
  transit : Option Unit := none
  concealment : Option Concealment := none
  vanish : Option Vanish := none
  modifiers : Option Modifiers := none
  controller : Option Controller := none
  damageLog : Option DamageLog := none
  ledger : Option Ledger := none
  bias : Option PassiveBias := none
  deriving DecidableEq

namespace Components

instance : Inhabited Components := ⟨{}⟩

def has (c : Components) : Part → Bool
  | .name => c.name.isSome
  | .position => c.position.isSome
  | .targetable => c.targetable.isSome
  | .allegiance => c.allegiance.isSome
  | .health => c.health.isSome
  | .level => c.level.isSome
  | .passive => c.passive.isSome
  | .transit => c.transit.isSome
  | .concealment => c.concealment.isSome
  | .vanish => c.vanish.isSome
  | .modifiers => c.modifiers.isSome
  | .controller => c.controller.isSome
  | .damageLog => c.damageLog.isSome
  | .ledger => c.ledger.isSome
  | .bias => c.bias.isSome

/-- The parts that are there, in a fixed order. -/
def signature (c : Components) : List Part := Part.all.filter c.has

def without (c : Components) : Part → Components
  | .name => { c with name := none }
  | .position => { c with position := none }
  | .targetable => { c with targetable := none }
  | .allegiance => { c with allegiance := none }
  | .health => { c with health := none }
  | .level => { c with level := none }
  | .passive => { c with passive := none }
  | .transit => { c with transit := none }
  | .concealment => { c with concealment := none }
  | .vanish => { c with vanish := none }
  | .modifiers => { c with modifiers := none }
  | .controller => { c with controller := none }
  | .damageLog => { c with damageLog := none }
  | .ledger => { c with ledger := none }
  | .bias => { c with bias := none }

/-- The parts of both; where both have one, that of the second. -/
def overlay (old new : Components) : Components where
  name := new.name <|> old.name
  position := new.position <|> old.position
  targetable := new.targetable <|> old.targetable
  allegiance := new.allegiance <|> old.allegiance
  health := new.health <|> old.health
  level := new.level <|> old.level
  passive := new.passive <|> old.passive
  transit := new.transit <|> old.transit
  concealment := new.concealment <|> old.concealment
  vanish := new.vanish <|> old.vanish
  modifiers := new.modifiers <|> old.modifiers
  controller := new.controller <|> old.controller
  damageLog := new.damageLog <|> old.damageLog
  ledger := new.ledger <|> old.ledger
  bias := new.bias <|> old.bias

/-- Not dead. An entity without hit points cannot die. -/
def isAlive (c : Components) : Bool :=
  match c.health with
  | some h => h.isAlive
  | none => true

end Components

end Hostility
