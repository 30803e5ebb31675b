import Hostility.Eligibility
import Hostility.Engine.Alert
import Hostility.Engine.Deception

/-!
One think of an actor, and the other things that happen to it.

A think resets the ledger if the actor changed its mode, lets it decay, looks for candidates, and
chooses among them: the threat lottery or a tactic picks one, and whoever slips away by deception is
left out of the next try. An actor that wakes from idleness and finds a target calls its kin. With
no candidates the actor drops its target and heads home.
-/
namespace Hostility

namespace Engine

/-- The bias pass of an actor that has a ledger and a passive state. -/
def biasPass (t : Tuning) (actor : Entity) (candidates : List Candidate) : Action Unit := do
  let w ← Action.world
  match w.ledger? actor, w.bias? actor with
  | some l, some b =>
    let (_, raised, biased) := BiasPass.apply t l b candidates
    Action.setWorld ((w.setLedger actor raised).setBias actor biased)
  | _, _ => pure ()

def prepare (t : Tuning) (actor : Entity) (candidates : List Candidate) : Action Unit := do
  let _ ← Threat.seedCandidates t actor candidates
  Threat.ensureBias actor
  biasPass t actor candidates

/-- One selection among the candidates that are left. -/
def selectOnce (setting : Setting) (actor : Entity) (c : Controller)
    (candidates : List Candidate) : Action Choice := do
  let w ← Action.world
  if c.profile.legacyMode then
    Action.draw (Selection.byTactic setting.history w actor c.profile.tactics c.target candidates)
  else
    match w.ledger? actor with
    | some l =>
      let (choice, rated) ← Action.draw fun r =>
        let (choice, rated, r) := Selection.byThreat setting.tuning l candidates r
        ((choice, rated), r)
      Action.setWorld (w.setLedger actor rated)
      pure choice
    | none => pure .empty

/-- Selects until nobody slips away. After `tries` deceptions the next pick stands as it is. -/
def selectUndeceived (setting : Setting) (actor : Entity) (c : Controller) :
    Nat → List Candidate → Action Choice
  | 0, remaining => selectOnce setting actor c remaining
  | tries + 1, remaining => do
    let choice ← selectOnce setting actor c remaining
    match choice with
    | .chosen target =>
      let attempt ←
        Deception.attempt setting actor c.profile.perception target remaining.length
      if attempt = some true then
        let others := remaining.filter fun candidate => !decide (candidate.entity = target)
        if others.isEmpty then pure .empty
        else selectUndeceived setting actor c tries others
      else
        pure choice
    | _ => pure choice

/-- Notes which passive source was chosen. -/
def recordStreaks (actor : Entity) (chosen : Option Entity) : Action Unit := do
  let w ← Action.world
  match w.bias? actor with
  | some b => Action.setWorld (w.setBias actor (b.recordSelection chosen))
  | none => pure ()

def choose (setting : Setting) (actor : Entity) (c : Controller) (candidates : List Candidate) :
    Action Choice := do
  let threatMode := !c.profile.legacyMode
  Action.when threatMode (prepare setting.tuning actor candidates)
  let tries := min setting.tuning.maxDeceptionRerolls candidates.length
  let choice ← selectUndeceived setting actor c tries candidates
  Action.when threatMode (recordStreaks actor choice.target?)
  pure choice

/-- What a choice makes of the controller, and the events that tell of it. -/
def settle (c : Controller) (actor : Entity) : Choice → Controller × List Event
  | .chosen target | .kept target => c.engage actor target
  | .rejected bits => (c, [.tacticRejected actor bits])
  | .empty => (c, [])

/-- Cries out the target of a choice, if the actor was idle before. -/
def alarm (setting : Setting) (actor : Entity) (wokeFrom : Awareness) : Option Entity → Action Unit
  | some enemy =>
    Action.when (decide (wokeFrom = .idle)) do
      let _ ← Alert.propagate setting actor enemy
      pure ()
  | none => pure ()

def thinkAmong (setting : Setting) (actor : Entity) (wokeFrom : Awareness) (c : Controller)
    (candidates : List Candidate) : Action (Option Entity) := do
  let (c, waking) := c.rouse actor
  Action.publish waking
  let choice ← choose setting actor c candidates
  let (c, news) := settle c actor choice
  Action.publish news
  Action.storeController actor c
  alarm setting actor wokeFrom choice.target?
  pure c.target

def giveUp (actor : Entity) (c : Controller) : Action (Option Entity) := do
  let (c, news) := c.disengage actor
  Action.publish news
  Action.storeController actor c
  pure none

/-- What an actor does before it looks around: it forgets its threat if its mode changed, and lets
its ledger decay. The answer is its controller. -/
def upkeep (t : Tuning) (actor : Entity) : Action Controller := do
  let c ← Action.controllerOf actor
  Action.when c.modeSwitched (Threat.reset actor)
  Action.when (!c.profile.legacyMode) do
    let _ ← Threat.decay t actor
    pure ()
  pure c

/-- The candidates that an actor with the given controller finds. -/
def found (setting : Setting) (w : World) (actor : Entity) (c : Controller) : List Candidate :=
  (Observer.ofActor w actor c).candidates w (setting.visibility.visible w actor)

/-- One evaluation of an actor's target. The answer is the target that the actor ends with. -/
def think (setting : Setting) (actor : Entity) : Action (Option Entity) := do
  let c ← upkeep setting.tuning actor
  let thinking := c.noteMode.markThought
  let w ← Action.world
  let candidates := found setting w actor thinking
  if candidates.isEmpty then
    giveUp actor thinking
  else
    thinkAmong setting actor c.state thinking candidates

/-- Notes a hit on an actor: in its damage log, in its registry if the attacker is of its own
faction, and in its ledger. -/
def recordDamage (t : Tuning) (actor attacker : Entity) (amount : Int64) :
    Action (Option Int64) := do
  let _ ← Action.controllerOf actor
  let s ← Action.state
  if !s.world.contains attacker then
    Action.refuse (.noSuchEntity attacker)
  else
    Action.insert actor fun c =>
      { c with damageLog := some ((c.damageLog.getD default).record ⟨attacker, amount, s.now⟩) }
    let w ← Action.world
    Action.when (Alert.sharesFaction w actor attacker) do
      let c ← Action.controllerOf actor
      Action.setWorld (w.setController actor (c.retaliateAgainst attacker))
    Threat.increase t actor attacker amount

/-- An actor reached its post: it goes idle and forgets the encounter. -/
def arriveHome (actor : Entity) : Action Unit := do
  let c ← Action.controllerOf actor
  let (c, changes) := { c with target := none }.transition actor .idle
  Action.publish changes
  Action.storeController actor c
  Threat.reset actor

/-- The parts of an entity after some seconds. -/
def elapse (seconds : Float32) (c : Components) : Components :=
  { c with controller := c.controller.map (·.elapse seconds) }

/-- Whether an entity is an actor that lives and should think. -/
def isDue (w : World) (e : Entity) : Bool :=
  match w.get? e with
  | some c => c.isAlive && (match c.controller with | some k => k.isDue | none => false)
  | none => false

/-- Advances every think timer and lets the due actors think, in the order of the world. The answer
is how many were due. -/
def update (setting : Setting) (seconds : Float32) : Action Nat := do
  let s ← Action.state
  let w := s.world.updateAll (elapse seconds)
  let due := w.entities.filter (isDue w)
  Action.setWorld w
  Action.setAlerts (Alert.expire setting.tuning s.alerts s.now)
  Action.forEach (fun actor => Action.regardless (think setting actor)) due
  pure due.length

end Engine

end Hostility
