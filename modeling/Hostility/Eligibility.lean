import Hostility.Sensing

/-!
Which of the entities an actor perceives it may turn on. The rules are tried in a fixed order, and
the first that fails names the reason.
-/
namespace Hostility

inductive Exclusion where
  | dead
  | notTargetable
  | inTransit
  | evaded
  | undetected
  | outOfRange
  | sameFaction
  | notLockedTarget
  | playerSide
  deriving DecidableEq, Repr

def Exclusion.text : Exclusion → String
  | .dead => "dead"
  | .notTargetable => "not targetable"
  | .inTransit => "in transit"
  | .evaded => "evaded"
  | .undetected => "undetected"
  | .outOfRange => "out of range"
  | .sameFaction => "same faction"
  | .notLockedTarget => "not the locked target"
  | .playerSide => "player side"

/-- The one who looks: its handle, its controller and its allegiance. -/
structure Observer where
  actor : Entity
  controller : Controller
  allegiance : Allegiance

namespace Observer

/-- An actor with the given controller. Without an allegiance of its own it belongs to nobody. -/
def ofActor (w : World) (actor : Entity) (controller : Controller) : Observer :=
  ⟨actor, controller, (w.allegiance? actor).getD default⟩

/-- Something can be fought if it may be attacked, draws passive threat, or runs tactics of its
own. -/
def canTarget (c : Components) : Bool :=
  (match c.targetable with | some t => t.attackable | none => false)
    || c.passive.isSome
    || (match c.controller with | some other => !other.profile.tactics.isDefault | none => false)

def isEvaded (o : Observer) (c : Components) : Bool :=
  match c.vanish with
  | some v => v.hasEvaded o.actor
  | none => false

def detects (o : Observer) (c : Components) : Bool :=
  match c.concealment with
  | some hidden => hidden.detectedBy o.controller.profile.perception
  | none => true

/-- The squared distance up to which an entity is in range: the current target may be chased, all
else and all passive sources must be seen. -/
def rangeSquared (o : Observer) (c : Components) (e : Entity) : Float :=
  if c.passive.isSome then o.controller.profile.visualSquared
  else if o.controller.target = some e then o.controller.profile.chaseSquared
  else o.controller.profile.visualSquared

def sharesFaction (o : Observer) (c : Components) : Bool :=
  match c.allegiance with
  | some other => o.allegiance.sameFaction other
  | none => false

/-- Whether a lock on another target stands in the way. -/
def isLockedAway (o : Observer) (e : Entity) : Bool :=
  o.controller.profile.lockedToTarget &&
    match o.controller.target with
    | some target => !decide (target = e)
    | none => false

def kindOf (c : Components) : EntityKind :=
  match c.targetable with
  | some t => t.kind
  | none => .creature

/-- The first rule that the seen entity breaks. -/
def exclusion? (o : Observer) (c : Components) (s : Sighting) : Option Exclusion :=
  if !c.isAlive then some .dead
  else if !canTarget c then some .notTargetable
  else if c.transit.isSome then some .inTransit
  else if o.isEvaded c then some .evaded
  else if !o.detects c then some .undetected
  else if o.rangeSquared c s.entity < s.distanceSquared then some .outOfRange
  else if o.sharesFaction c && !o.controller.retaliates s.entity then some .sameFaction
  else if o.isLockedAway s.entity then some .notLockedTarget
  else if o.controller.profile.monstersOnly && (kindOf c).isPlayerSide then some .playerSide
  else none

/-- A sighting becomes a candidate if it breaks no rule. Who is gone counts as dead. -/
def evaluate (o : Observer) (w : World) (s : Sighting) : Except Exclusion Candidate :=
  match w.get? s.entity with
  | none => .error .dead
  | some c =>
    match o.exclusion? c s with
    | some reason => .error reason
    | none => .ok ⟨s.entity, s.distance, kindOf c, c.passive⟩

/-- The eligible ones among the sightings, in their order. Nobody is a candidate for itself. -/
def candidates (o : Observer) (w : World) (sightings : List Sighting) : List Candidate :=
  (sightings.filter fun s => !decide (s.entity = o.actor)).filterMap fun s =>
    (o.evaluate w s).toOption

end Observer

end Hostility
