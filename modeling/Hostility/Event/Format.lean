import Hostility.Document.Basic
import Hostility.Event.Basic

/-!
Events as documents: a record whose only key names the event and holds a record of its fields.
Entities are written as their codes.
-/
namespace Hostility

namespace Entity

def toDatum (e : Entity) : Datum := .ofNat e.code

/-- A code whose generation is not zero. -/
def ofDatum? (d : Datum) : Option Entity :=
  (d.natOfBits? 64).bind fun n => if n < idCount then none else some (ofCode n)

end Entity

namespace Awareness

def ofDatum? (d : Datum) : Option Awareness := d.text?.bind ofName?

def toDatum (a : Awareness) : Datum := .text a.name

end Awareness

namespace Event

/-- The name under which an event is written. -/
def kind : Event → String
  | targetAcquired .. => "TargetAcquired"
  | newEnemy .. => "NewEnemy"
  | targetLost .. => "TargetLost"
  | stateChanged .. => "StateChanged"
  | allyAlerted .. => "AllyAlerted"
  | deceptionAttempted .. => "DeceptionAttempted"
  | threatIncreased .. => "ThreatIncreased"
  | threatSkipped .. => "ThreatSkipped"
  | threatDecayed .. => "ThreatDecayed"
  | ledgerReset .. => "LedgerReset"
  | tacticRejected .. => "TacticRejected"

def fields : Event → Fields
  | targetAcquired a t | targetLost a t => [("actor", a.toDatum), ("target", t.toDatum)]
  | newEnemy a p e =>
    [("actor", a.toDatum), ("previous", .ofOption Entity.toDatum p), ("enemy", e.toDatum)]
  | stateChanged a before after =>
    [("actor", a.toDatum), ("from", before.toDatum), ("to", after.toDatum)]
  | allyAlerted caller ally enemy =>
    [("alerter", caller.toDatum), ("ally", ally.toDatum), ("enemy", enemy.toDatum)]
  | deceptionAttempted a t chance succeeded =>
    [("actor", a.toDatum), ("target", t.toDatum), ("chance", .ofFloat chance),
      ("succeeded", .bool succeeded)]
  | threatIncreased a c amount total =>
    [("actor", a.toDatum), ("candidate", c.toDatum), ("amount", .ofAmount amount),
      ("total", .ofAmount total)]
  | threatSkipped a c => [("actor", a.toDatum), ("candidate", c.toDatum)]
  | threatDecayed a amount entries =>
    [("actor", a.toDatum), ("amount", .ofAmount amount), ("entries", .ofNat entries)]
  | ledgerReset a => [("actor", a.toDatum)]
  | tacticRejected a bits => [("actor", a.toDatum), ("bits", .ofNat bits.toNat)]

def toDatum (e : Event) : Datum := .record [(e.kind, .record e.fields)]

/-- The event of a given name with the given fields. -/
def ofFields? (kind : String) (fs : Fields) : Option Event := do
  let entity (key : String) : Option Entity := fs.required key Entity.ofDatum?
  let amount (key : String) : Option Int64 := fs.required key Datum.amount?
  match kind with
  | "TargetAcquired" => return targetAcquired (← entity "actor") (← entity "target")
  | "NewEnemy" =>
    let previous ← fs.withDefault "previous" (Datum.optional? Entity.ofDatum?) none
    return newEnemy (← entity "actor") previous (← entity "enemy")
  | "TargetLost" => return targetLost (← entity "actor") (← entity "target")
  | "StateChanged" =>
    let before ← fs.required "from" Awareness.ofDatum?
    let after ← fs.required "to" Awareness.ofDatum?
    return stateChanged (← entity "actor") before after
  | "AllyAlerted" =>
    return allyAlerted (← entity "alerter") (← entity "ally") (← entity "enemy")
  | "DeceptionAttempted" =>
    let chance ← fs.required "chance" Datum.float?
    let succeeded ← fs.required "succeeded" Datum.bool?
    return deceptionAttempted (← entity "actor") (← entity "target") chance succeeded
  | "ThreatIncreased" =>
    return threatIncreased (← entity "actor") (← entity "candidate") (← amount "amount")
      (← amount "total")
  | "ThreatSkipped" => return threatSkipped (← entity "actor") (← entity "candidate")
  | "ThreatDecayed" =>
    let entries ← fs.required "entries" (Datum.natOfBits? 64)
    return threatDecayed (← entity "actor") (← amount "amount") entries
  | "LedgerReset" => return ledgerReset (← entity "actor")
  | "TacticRejected" =>
    let bits ← fs.required "bits" (Datum.natOfBits? 16)
    return tacticRejected (← entity "actor") (UInt16.ofNat bits)
  | _ => none

def ofDatum? : Datum → Option Event
  | .record [(kind, .record fs)] => ofFields? kind fs
  | _ => none

end Event

end Hostility
