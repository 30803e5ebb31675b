import Hostility.Selection.Distance
import Hostility.Selection.Lottery
import Hostility.Sensing

/-!
One selection pass: by the threat lottery or by a legacy tactic. Whatever needs a fallback falls
back on the draw by distance, so that a waking actor finds someone to fight.
-/
namespace Hostility

inductive Choice where
  /-- A target was picked in this pass. -/
  | chosen (target : Entity)
  /-- The tactic keeps the current target, which is still eligible. -/
  | kept (target : Entity)
  | rejected (bits : UInt16)
  /-- There was nothing to choose from. -/
  | empty
  deriving DecidableEq, Repr

namespace Choice

def target? : Choice → Option Entity
  | chosen e | kept e => some e
  | rejected _ | empty => none

def ofOption : Option Entity → Choice
  | some e => chosen e
  | none => empty

end Choice

/-- Who hit an actor last and who hit it most. -/
structure DamageHistory where
  lastDamager : World → Entity → Option Entity
  topDamager : World → Entity → Option Entity

/-- The history that the actor's own damage log tells. -/
def DamageHistory.ofLog : DamageHistory where
  lastDamager w actor := (w.damageLog? actor).bind (·.lastDamager)
  topDamager w actor := (w.damageLog? actor).bind (·.topDamager)

namespace Selection

def byDistance (candidates : List Candidate) (r : RandomSource) : Choice × RandomSource :=
  let (picked, r) := Distance.draw (candidates.map fun c => (c.entity, c.distance)) r
  (Choice.ofOption picked, r)

/-- The first candidate that no later one beats. -/
def best (beats : Candidate → Candidate → Bool) : List Candidate → Option Candidate :=
  List.foldl
    (fun held next =>
      match held with
      | some c => if beats next c then some next else some c
      | none => some next)
    none

def level (w : World) (c : Candidate) : Nat := ((w.get? c.entity).bind (·.level)).getD 0

/-- The lowest level; of equals the first. -/
def weakest (w : World) (candidates : List Candidate) : Choice :=
  .ofOption <| (best (fun a b => decide (level w a < level w b)) candidates).map (·.entity)

/-- The highest level; of equals the first. -/
def strongest (w : World) (candidates : List Candidate) : Choice :=
  .ofOption <| (best (fun a b => decide (level w b < level w a)) candidates).map (·.entity)

/-- The smallest distance; of equals the first, but after one that is no number the next. -/
def nearest (candidates : List Candidate) : Choice :=
  .ofOption <| (best (fun a b => !decide (b.distance ≤ a.distance)) candidates).map (·.entity)

/-- Picks the preferred entity if it is a candidate, and draws by distance otherwise. -/
def prefer (wanted : Option Entity) (pick : Entity → Choice) (candidates : List Candidate)
    (r : RandomSource) : Choice × RandomSource :=
  match wanted.filter fun e => candidates.any fun c => c.entity == e with
  | some e => (pick e, r)
  | none => byDistance candidates r

def follow (history : DamageHistory) (w : World) (actor : Entity) (tactic : Tactic)
    (current : Option Entity) (candidates : List Candidate) (r : RandomSource) :
    Choice × RandomSource :=
  match tactic with
  | .hold | .focused => prefer current .kept candidates r
  | .random => byDistance candidates r
  | .lastDamager => prefer (history.lastDamager w actor) .chosen candidates r
  | .topDamager => prefer (history.topDamager w actor) .chosen candidates r
  | .weakest => (weakest w candidates, r)
  | .strongest => (strongest w candidates, r)
  | .nearest => (nearest candidates, r)

/-- A pass of legacy tactics: one tactic is drawn, and an empty set holds. -/
def byTactic (history : DamageHistory) (w : World) (actor : Entity) (tactics : TacticSet)
    (current : Option Entity) (candidates : List Candidate) (r : RandomSource) :
    Choice × RandomSource :=
  if candidates.isEmpty then
    (.empty, r)
  else
    match tactics.draw r with
    | (some (.unknown bit), r) => (.rejected bit, r)
    | (some (.known tactic), r) => follow history w actor tactic current candidates r
    | (none, r) => follow history w actor .hold current candidates r

/-- A pass of the threat table. The ledger's outlook is made anew. -/
def byThreat (t : Tuning) (l : Ledger) (candidates : List Candidate) (r : RandomSource) :
    Choice × Ledger × RandomSource :=
  let tracked := candidates.filter fun c => l.contains c.entity
  let entries := tracked.filterMap fun c => (l.value? c.entity).map fun v => (c.entity, v)
  match Lottery.build t entries with
  | some lottery =>
    let (winner, r) := lottery.draw r
    (Choice.ofOption winner, { l with outlook := lottery.outlook }, r)
  | none =>
    let (choice, r) := byDistance tracked r
    (choice, { l with outlook := .empty }, r)

end Selection

end Hostility
