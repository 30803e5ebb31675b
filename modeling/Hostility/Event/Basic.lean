import Hostility.Entity.Basic

/-!
What the engine tells the outside world. Delivering messages and playing animations is left to
those who listen.
-/
namespace Hostility

/-- How aware an actor is of its enemies. -/
inductive Awareness where
  | idle
  /-- Woken, with nothing chosen yet. -/
  | awake
  | engaged
  /-- Heading home after everything it fought was lost. -/
  | returning
  deriving DecidableEq, Repr, Inhabited

namespace Awareness

def all : List Awareness := [idle, awake, engaged, returning]

def name : Awareness → String
  | idle => "Idle"
  | awake => "Awake"
  | engaged => "Engaged"
  | returning => "Returning"

def ofName? (s : String) : Option Awareness := all.find? (·.name == s)

def isAwake : Awareness → Bool
  | awake | engaged => true
  | idle | returning => false

theorem isAwake_eq_false_iff {a : Awareness} : a.isAwake = false ↔ a ≠ awake ∧ a ≠ engaged := by
  cases a <;> simp [isAwake]

end Awareness

inductive Event where
  /-- The actor settled on a target in this pass. -/
  | targetAcquired (actor target : Entity)
  /-- The chosen target is not the previous one. -/
  | newEnemy (actor : Entity) (previous : Option Entity) (enemy : Entity)
  /-- The actor dropped its target because nothing eligible was left. -/
  | targetLost (actor target : Entity)
  | stateChanged (actor : Entity) (before after : Awareness)
  /-- An ally was woken and pointed at the enemy. -/
  | allyAlerted (alerter ally enemy : Entity)
  /-- Someone in hiding tried to slip the actor's attention. -/
  | deceptionAttempted (actor target : Entity) (chance : Float) (succeeded : Bool)
  | threatIncreased (actor candidate : Entity) (amount total : Int64)
  /-- A one-shot skip swallowed a threat increase. -/
  | threatSkipped (actor candidate : Entity)
  | threatDecayed (actor : Entity) (amount : Int64) (entries : Nat)
  /-- The ledger and the passive state were wiped. -/
  | ledgerReset (actor : Entity)
  /-- A bit that names no tactic was drawn. -/
  | tacticRejected (actor : Entity) (bits : UInt16)
  deriving DecidableEq

namespace Event

/-- The actor that an event is about; for an alert the one who called. -/
def actor : Event → Entity
  | targetAcquired a _ | newEnemy a _ _ | targetLost a _ | stateChanged a _ _
  | deceptionAttempted a _ _ _ | threatIncreased a _ _ _ | threatSkipped a _
  | threatDecayed a _ _ | ledgerReset a | tacticRejected a _ => a
  | allyAlerted alerter _ _ => alerter

end Event

end Hostility
