import Hostility.Engine.Setting
import Hostility.Engine.Threat

/-!
Calls for help. A caller wakes the kin that hear it and points them at its enemy; an enemy that was
cried out lately is not cried out again.
-/
namespace Hostility

namespace Alert

/-- Whether the last alert about an enemy is too recent for another. There is no answer if the
cooldown is asked for and is no length of time. -/
def onCooldown? (t : Tuning) (table : AlertTable) (now : Int) (enemy : Entity) : Option Bool :=
  match EntityMap.get? table enemy with
  | some cried => t.alertCooldown?.map fun cooldown => decide (now - cried < cooldown)
  | none => some false

/-- Forgets the alerts that are no longer too recent. -/
def expire? (t : Tuning) (table : AlertTable) (now : Int) : Option AlertTable :=
  t.alertCooldown?.map fun cooldown =>
    EntityMap.filter table fun _ cried => decide (now - cried < cooldown)

/-- As `onCooldown?`, where a cooldown that is no length of time holds nothing back. -/
def onCooldown (t : Tuning) (table : AlertTable) (now : Int) (enemy : Entity) : Bool :=
  (onCooldown? t table now enemy).getD false

/-- As `expire?`, where a cooldown that is no length of time lets nothing be forgotten. -/
def expire (t : Tuning) (table : AlertTable) (now : Int) : AlertTable :=
  (expire? t table now).getD table

/-- Whether someone at a distance answers a call: an actor, asleep or on its way home, that listens,
hears, lives and is kin. -/
def answers (w : World) (caller : Allegiance) (neighbour : Entity) (distance : Float) : Bool :=
  match w.get? neighbour with
  | some c =>
    (match c.controller with
      | some k =>
        !k.state.isAwake && !k.profile.ignoresAlerts && !decide (k.profile.auralRange < distance)
      | none => false)
      && c.isAlive
      && (match c.allegiance with
        | some own => own.kinship.isKin caller.kinship
        | none => false)
  | none => false

/-- Those who answer, in sighting order. A neighbour hears from its own place. -/
def answering (visibility : Visibility) (w : World) (caller enemy : Entity) (own : Allegiance) :
    List Entity :=
  let heard := (visibility.visible w caller).filter fun s => !decide (s.entity = enemy)
  (heard.filter fun s =>
    answers w own s.entity ((visibility.distance w s.entity caller).getD s.distance)).map (·.entity)

def sharesFaction (w : World) (a b : Entity) : Bool :=
  match w.allegiance? a, w.allegiance? b with
  | some x, some y => x.sameFaction y
  | _, _ => false

/-- An actor pointed at an enemy. It may strike at one of its own faction if the caller may. -/
def pointAt (c : Controller) (enemy : Entity) (strikesOwn : Bool) : Controller :=
  let c := { c with target := some enemy, state := .engaged }
  if strikesOwn then c.retaliateAgainst enemy else c

/-- The world with an entry at the floor for an enemy in an ally's ledger. -/
def seedEnemy (t : Tuning) (w : World) (ally enemy : Entity) : World :=
  w.update ally fun c =>
    { c with ledger := some ((c.ledger.getD .empty).seed enemy t.threatMinimum).1 }

def wake (t : Tuning) (caller enemy : Entity) (callerRetaliates : Bool) (ally : Entity) :
    Action Unit := do
  let w ← Action.world
  match w.controller? ally with
  | some c =>
    let strikesOwn := sharesFaction w ally enemy && callerRetaliates
    let w := w.setController ally (pointAt c enemy strikesOwn)
    Action.setWorld <|
      if !c.profile.legacyMode && !Threat.isReserved t w enemy then seedEnemy t w ally enemy else w
    Action.publish [.stateChanged ally c.state .engaged, .allyAlerted caller ally enemy]
  | none => Action.publish [.allyAlerted caller ally enemy]

/-- Cries out an enemy and gives the allies that answered. The time is noted even if the caller has
no allegiance and so nobody answers. -/
def propagate (setting : Setting) (caller enemy : Entity) : Action (List Entity) := do
  let s ← Action.state
  if onCooldown setting.tuning s.alerts s.now enemy then
    pure []
  else
    Action.setAlerts (EntityMap.insert s.alerts enemy s.now)
    match s.world.allegiance? caller with
    | some own =>
      let retaliates :=
        match s.world.controller? caller with
        | some c => c.retaliates enemy
        | none => false
      let allies := answering setting.visibility s.world caller enemy own
      Action.forEach (wake setting.tuning caller enemy retaliates) allies
      pure allies
    | none => pure []

end Alert

end Hostility
