import Hostility.Entity.Map
import Hostility.Number.Rounding

/-!
The threat ledger of an actor: an amount of threat for each candidate. Entries start at a floor,
rise with combat, and are lowered by decay, which never takes them below their rest level.

One decay step subtracts `max (gained / count) (minimumSubtraction …)` from every entry. An entry
rests at the floor, or at floor plus threshold for a passive source whose threshold is 2 or more.
-/
namespace Hostility

/-- What the last lottery said about the candidates, for display only. -/
structure Outlook where
  /-- The share of the lottery of each candidate above the cut. -/
  positive : EntityMap Float
  /-- How far below the cut each other candidate lies, as a fraction of the cut. -/
  negative : EntityMap Float
  deriving DecidableEq

namespace Outlook

def empty : Outlook := ⟨∅, ∅⟩

instance : Inhabited Outlook := ⟨empty⟩

def isEmpty (o : Outlook) : Bool := o.positive.isEmpty && o.negative.isEmpty

def forget (o : Outlook) (e : Entity) : Outlook := ⟨o.positive.erase e, o.negative.erase e⟩

end Outlook

structure Ledger where
  entries : EntityMap Int64
  /-- Threat added since the last decay. -/
  gained : Int64
  outlook : Outlook
  deriving DecidableEq

namespace Ledger

def empty : Ledger := ⟨∅, 0, .empty⟩

instance : Inhabited Ledger := ⟨empty⟩

def value? (l : Ledger) (e : Entity) : Option Int64 := l.entries.get? e

def contains (l : Ledger) (e : Entity) : Bool := l.entries.contains e

def tracked (l : Ledger) : List Entity := l.entries.keys

def size (l : Ledger) : Nat := l.entries.size

def isEmpty (l : Ledger) : Bool := l.entries.isEmpty

def total (l : Ledger) : Int64 := satSum l.entries.values

/-- Makes an entry at the floor if there is none, and tells whether it did. -/
def seed (l : Ledger) (e : Entity) (floor : Int64) : Ledger × Bool :=
  if l.contains e then (l, false) else ({ l with entries := l.entries.insert e floor }, true)

/-- Seeds one entity after the other, and counts the entries made. -/
def seedAll (l : Ledger) (floor : Int64) : List Entity → Ledger × Nat
  | [] => (l, 0)
  | e :: rest =>
    let (l, made) := l.seed e floor
    let (l, count) := seedAll l floor rest
    (l, if made then count + 1 else count)

/-- Adds threat to an entry, which starts at the floor, and gives its new value. -/
def add (l : Ledger) (e : Entity) (amount floor : Int64) : Ledger × Int64 :=
  let value := max (satAdd ((l.value? e).getD floor) amount) floor
  ({ l with entries := l.entries.insert e value, gained := satAdd l.gained amount }, value)

/-- Raises an entry that is lower than `value`, and tells whether it did. -/
def raiseTo (l : Ledger) (e : Entity) (value : Int64) : Ledger × Bool :=
  match l.value? e with
  | some current =>
    if current < value then ({ l with entries := l.entries.insert e value }, true) else (l, false)
  | none => (l, false)

/-- Drops an entry and what the outlook says of it. -/
def remove (l : Ledger) (e : Entity) : Ledger :=
  { l with entries := l.entries.erase e, outlook := l.outlook.forget e }

def removeAll (l : Ledger) (gone : List Entity) : Ledger := gone.foldl remove l

/-- Drops the entries that `keep` refuses, and lists them. -/
def retain (l : Ledger) (keep : Entity → Bool) : Ledger × List Entity :=
  let removed := l.tracked.filter fun e => !keep e
  (l.removeAll removed, removed)

/-- The least that a decay subtracts: a share of what the entries hold above the floor, but 1 at
least. -/
def minimumSubtraction (l : Ledger) (floor : Int64) (fraction : Float) : Int64 :=
  let count := saturate l.size
  let excess := max (satSub l.total (satMul floor count)) 0
  max (floorAmount (floatOfAmount excess * fraction)) 1

def decayAmount (l : Ledger) (floor : Int64) (fraction : Float) : Int64 :=
  max (l.gained / saturate l.size) (l.minimumSubtraction floor fraction)

def decayed (floor amount : Int64) (threshold : Option Int64) (value : Int64) : Int64 :=
  let lowered := max (satSub value amount) floor
  match threshold with
  | some t => if 2 ≤ t then max lowered (satAdd floor t) else lowered
  | none => lowered

/-- One decay step, with the amount it subtracts; nothing for an empty ledger. -/
def decay (l : Ledger) (floor : Int64) (fraction : Float) (threshold : Entity → Option Int64) :
    Ledger × Option Int64 :=
  if l.isEmpty then
    (l, none)
  else
    let amount := l.decayAmount floor fraction
    ({ l with
        entries := l.entries.map fun e v => decayed floor amount (threshold e) v
        gained := 0 },
      some amount)

end Ledger

end Hostility
