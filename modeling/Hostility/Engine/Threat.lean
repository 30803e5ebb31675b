import Hostility.Engine.Action
import Hostility.Tuning

/-!
Upkeep of the threat ledgers in the world: increases, decay, seeding, pruning and resets.
-/
namespace Hostility

namespace Threat

/-- Whether an entity's name keeps it out of ledgers. -/
def isReserved (t : Tuning) (w : World) (e : Entity) : Bool :=
  match w.name? e with
  | some name => t.isReservedName name
  | none => false

/-- Gives an actor an empty ledger if it has none. -/
def ensureLedger (actor : Entity) : Action Unit := do
  let w ← Action.world
  if (w.ledger? actor).isSome then
    pure ()
  else
    Action.insert actor fun c => { c with ledger := some .empty }

/-- Gives an actor an empty passive state if it has none. -/
def ensureBias (actor : Entity) : Action Unit := do
  let w ← Action.world
  if (w.bias? actor).isSome then
    pure ()
  else
    Action.insert actor fun c => { c with bias := some ∅ }

def ledgerOf (actor : Entity) : Action Ledger := do
  let w ← Action.world
  match w.ledger? actor with
  | some l => pure l
  | none => Action.refuse (.noSuchEntity actor)

def storeLedger (actor : Entity) (l : Ledger) : Action Unit := do
  let w ← Action.world
  Action.setWorld (w.setLedger actor l)

/-- The world without an actor's entries for those who are gone. -/
def forget (w : World) (actor : Entity) (gone : List Entity) : World :=
  if gone.isEmpty then
    w
  else
    w.update actor fun c =>
      { c with
        ledger := c.ledger.map (·.removeAll gone)
        bias := c.bias.map fun b => gone.foldl EntityMap.erase b }

/-- The tracked entities that died or left the world. -/
def departed (w : World) (l : Ledger) : List Entity := l.tracked.filter fun e => !w.isPresent e

/-- Drops the entries of those who died or left, and lists them. -/
def prune (actor : Entity) : Action (List Entity) := do
  let w ← Action.world
  match w.ledger? actor with
  | some l =>
    let gone := departed w l
    Action.setWorld (forget w actor gone)
    pure gone
  | none => pure []

/-- What a decay finds out about the tracked entities before it lowers anything. -/
structure RollCall where
  /-- Who died or left the world. -/
  gone : List Entity
  /-- The thresholds of the passive sources among the others. -/
  thresholds : EntityMap Int64

/-- Notes one tracked entity. -/
def RollCall.note (w : World) (roll : RollCall) (e : Entity) : RollCall :=
  if w.isPresent e then
    match (w.get? e).bind (·.passive) with
    | some threshold => { roll with thresholds := roll.thresholds.insert e threshold }
    | none => roll
  else
    { roll with gone := roll.gone ++ [e] }

def callRoll (w : World) (l : Ledger) : RollCall := l.tracked.foldl (RollCall.note w) ⟨[], ∅⟩

/-- Applies one decay step to the ledger as it is, under the given thresholds of passive sources. -/
def lowerBy (t : Tuning) (actor : Entity) (threshold : Entity → Option Int64) :
    Action (Option Int64) := do
  let w ← Action.world
  match w.ledger? actor with
  | some l =>
    match l.decay t.threatMinimum t.decayFraction threshold with
    | (lowered, some amount) =>
      storeLedger actor lowered
      Action.publish [.threatDecayed actor amount l.size]
      pure (some amount)
    | (_, none) => pure none
  | none => pure none

/-- Drops the entries of those who died or left, and applies one decay step to the others. -/
def decay (t : Tuning) (actor : Entity) : Action (Option Int64) := do
  let w ← Action.world
  match w.ledger? actor with
  | some l =>
    let roll := callRoll w l
    Action.setWorld (forget w actor roll.gone)
    lowerBy t actor roll.thresholds.get?
  | none => pure none

/-- Makes entries at the floor for the candidates that have none, and counts them. -/
def seedCandidates (t : Tuning) (actor : Entity) (candidates : List Candidate) : Action Nat := do
  let w ← Action.world
  let seedable := (candidates.map (·.entity)).filter fun e => !isReserved t w e
  ensureLedger actor
  let l ← ledgerOf actor
  let (seeded, count) := l.seedAll t.threatMinimum seedable
  storeLedger actor seeded
  pure count

/-- Wipes the ledger and the passive state. -/
def reset (actor : Entity) : Action Unit := do
  let w ← Action.world
  Action.setWorld <| w.update actor fun c =>
    { c with
      ledger := c.ledger.map fun _ => .empty
      bias := c.bias.map fun _ => ∅ }
  Action.publish [.ledgerReset actor]

/-- The threat that a candidate's base amount becomes. Its one-shot flags are used up. -/
def modifiedAmount (t : Tuning) (candidate : Entity) (base : Int64) : Action (Option Int64) := do
  let w ← Action.world
  match (w.get? candidate).bind (·.modifiers) with
  | some m =>
    let (amount, spent) := m.apply t base
    Action.setWorld (w.update candidate fun c => { c with modifiers := some spent })
    pure amount
  | none => pure (({} : Modifiers).apply t base).1

/-- Records threat that a candidate caused. Nothing is recorded, and the answer is `none`, for an
actor in legacy mode, for a reserved name, and when a skip swallows the increase. -/
def increase (t : Tuning) (actor candidate : Entity) (base : Int64) : Action (Option Int64) := do
  let c ← Action.controllerOf actor
  let w ← Action.world
  if !w.contains candidate then
    Action.refuse (.noSuchEntity candidate)
  else if c.profile.legacyMode then
    pure none
  else if isReserved t w candidate then
    pure none
  else
    match ← modifiedAmount t candidate base with
    | none =>
      Action.publish [.threatSkipped actor candidate]
      pure none
    | some amount =>
      ensureLedger actor
      let l ← ledgerOf actor
      let (raised, total) := l.add candidate amount t.threatMinimum
      storeLedger actor raised
      Action.publish [.threatIncreased actor candidate amount total]
      pure (some total)

end Threat

end Hostility
