import Hostility.Engine.Panic
import Hostility.Simulation.Basic

/-!
Running an encounter. One tick lands the hits of the tick, lets the actors on their way home arrive,
updates the engine, and moves the clock. If the engine refuses a hit, because its victim or its
attacker left the world, if its update panics, or if the clock does not go that far, the tick stops
there and is not counted.
-/
namespace Hostility

structure TickReport where
  tick : Nat
  thinkers : Nat
  events : List Event
  deriving DecidableEq

/-- What a tick panics of: a cooldown that is no length of time, or the end of the clock. -/
inductive Panic where
  | cooldown
  | clock
  deriving DecidableEq

def Panic.message : Panic → String
  | cooldown => "TimeDelta::seconds out of bounds"
  | clock => "`DateTime + TimeDelta` overflowed"

/-- Why a tick stops. -/
inductive TickFault where
  | refused (refusal : Refusal)
  | panicked (panic : Panic)
  deriving DecidableEq

def TickFault.message : TickFault → String
  | refused refusal => refusal.message
  | panicked panic => panic.message

namespace Simulation

/-- A hit on someone who is no actor is passed over. -/
def isHarmless : Refusal → Bool
  | .notAnActor _ => true
  | .noSuchEntity _ => false

def land (t : Tuning) (h : PlannedHit) : Action Unit :=
  Action.tolerating isHarmless (Engine.recordDamage t h.victim h.attacker h.amount)

/-- Lets an actor arrive if it is on its way home. -/
def comeHome (actor : Entity) : Action Unit := do
  let w ← Action.world
  match w.controller? actor with
  | some c => Action.when (decide (c.state = .returning)) (Engine.arriveHome actor)
  | none => pure ()

/-- What happens in a tick before the engine is updated. -/
def enact (t : Tuning) (hits : List PlannedHit) (actors : List Entity) : Action Unit := do
  Action.forEach (land t) hits
  Action.forEach comeHome actors

/-- The engine's part of a tick, with the number of thinkers. -/
def play? (setting : Setting) (hits : List PlannedHit) (actors : List Entity) (seconds : Float32) :
    OptionT Action Nat := do
  enact setting.tuning hits actors
  Engine.update? setting seconds

theorem play?_run (setting : Setting) (hits : List PlannedHit) (actors : List Entity)
    (seconds : Float32) :
    (play? setting hits actors seconds).run = (do
      enact setting.tuning hits actors
      (Engine.update? setting seconds).run : Action (Option Nat)) :=
  Action.lift_bind_run _ _

/-- The scripted hits of the next tick. -/
def dueHits (s : Simulation) : List PlannedHit := s.script.filter fun h => h.tick == s.tick

/-- The length of a tick. It is a whole number of milliseconds. -/
def tickLength (s : Simulation) : Int :=
  Duration.ofMilliseconds (truncAmount32 (s.tickSeconds * 1000.0))

def step (s : Simulation) : Except TickFault TickReport × Simulation :=
  match (play? s.setting s.dueHits s.actors s.tickSeconds).run s.state with
  | ⟨.ok (some thinkers), state, events⟩ =>
    match Clock.advance? state.now s.tickLength with
    | some now =>
      (.ok ⟨s.tick, thinkers, s.queue ++ events⟩,
        { s with tick := s.tick + 1, state := { state with now }, queue := [] })
    | none => (.error (.panicked .clock), { s with state, queue := s.queue ++ events })
  | ⟨.ok none, state, events⟩ =>
    (.error (.panicked .cooldown), { s with state, queue := s.queue ++ events })
  | ⟨.error refusal, state, events⟩ =>
    (.error (.refused refusal), { s with state, queue := s.queue ++ events })

/-- A number of ticks, up to the first that stops. -/
def run (s : Simulation) : Nat → Except TickFault (List TickReport) × Simulation
  | 0 => (.ok [], s)
  | ticks + 1 =>
    match s.step with
    | (.error fault, s) => (.error fault, s)
    | (.ok first, s) =>
      let (rest, s) := s.run ticks
      (rest.map (first :: ·), s)

end Simulation

end Hostility
