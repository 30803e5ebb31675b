import Hostility.World.Components

/-!
The world: entities and their parts.

An identifier names a slot. A slot is held by one entity or vacant; every departure raises its
generation, and the slot vacated last is the first to be taken again.

Entities with the same parts stand in one group, each on a row of its own. Groups are ordered by
when they were first needed and entities by group and row. Who leaves a group gives its row to the
one on the last row. All systems go through the entities in this order.
-/
namespace Hostility

structure Seat where
  group : Nat
  row : Nat
  deriving DecidableEq, Repr

/-- The order of the entities: by group, then by row. -/
def Seat.le (a b : Seat) : Bool :=
  decide (a.group < b.group) || (a.group == b.group && decide (a.row ≤ b.row))

inductive Tenancy where
  /-- Vacant, with `depth` slots that were vacated earlier and are vacant still. -/
  | vacant (depth : Nat)
  | held (components : Components) (seat : Seat)
  deriving DecidableEq

structure Slot where
  /-- The generation of the present entity, or else of the next one. -/
  generation : Nat
  tenancy : Tenancy
  deriving DecidableEq

structure World where
  slots : List Slot
  /-- The signatures of the groups. -/
  groups : List (List Part)
  deriving DecidableEq

namespace World

/-- No entities, and one group for entities without parts. -/
def empty : World := ⟨[], [[]]⟩

instance : Inhabited World := ⟨empty⟩

def Slot.components? (s : Slot) (generation : Nat) : Option Components :=
  match s.tenancy with
  | .held c _ => if s.generation = generation then some c else none
  | .vacant _ => none

/-- The parts of an entity; nothing for a handle whose entity is gone. -/
def get? (w : World) (e : Entity) : Option Components :=
  w.slots[e.id]?.bind (Slot.components? · e.generation)

def contains (w : World) (e : Entity) : Bool := (w.get? e).isSome

def controller? (w : World) (e : Entity) : Option Controller := (w.get? e).bind (·.controller)

def ledger? (w : World) (e : Entity) : Option Ledger := (w.get? e).bind (·.ledger)

def bias? (w : World) (e : Entity) : Option PassiveBias := (w.get? e).bind (·.bias)

def allegiance? (w : World) (e : Entity) : Option Allegiance := (w.get? e).bind (·.allegiance)

def position? (w : World) (e : Entity) : Option Position := (w.get? e).bind (·.position)

def name? (w : World) (e : Entity) : Option String := (w.get? e).bind (·.name)

def damageLog? (w : World) (e : Entity) : Option DamageLog := (w.get? e).bind (·.damageLog)

def isPresent (w : World) (e : Entity) : Bool :=
  match w.get? e with
  | some c => c.isAlive
  | none => false

/-- The seated entity of slot number `id`. -/
def Slot.resident? (s : Slot) (id : Nat) : Option (Entity × Seat) :=
  match s.tenancy with
  | .held _ seat => some (⟨id, s.generation⟩, seat)
  | .vacant _ => none

/-- The entities by identifier. -/
def residents (w : World) : List (Entity × Seat) :=
  w.slots.zipIdx.filterMap fun a => Slot.resident? a.1 a.2

/-- The entities in the order of the world. -/
def entities (w : World) : List Entity :=
  (w.residents.mergeSort fun a b => a.2.le b.2).map (·.1)

def seatedIn (w : World) (group : Nat) : Nat :=
  w.slots.countP fun s =>
    match s.tenancy with
    | .held _ seat => seat.group == group
    | .vacant _ => false

/-- The group of a signature, a new one at the end if there is none. -/
def groupFor (groups : List (List Part)) (signature : List Part) : Nat × List (List Part) :=
  match groups.findIdx? (· == signature) with
  | some i => (i, groups)
  | none => (groups.length, groups ++ [signature])

/-- Gives the seat of one who leaves to whoever sits on the last row of the group. -/
def Slot.closeGap (seat : Seat) (last : Nat) (s : Slot) : Slot :=
  match s.tenancy with
  | .held c own => if own = ⟨seat.group, last⟩ then { s with tenancy := .held c seat } else s
  | .vacant _ => s

def closeGap (w : World) (seat : Seat) : List Slot :=
  w.slots.map (Slot.closeGap seat (w.seatedIn seat.group - 1))

def vacancies (w : World) : Nat :=
  w.slots.countP fun s =>
    match s.tenancy with
    | .vacant _ => true
    | .held _ _ => false

/-- The slot that was vacated last. -/
def lastVacated? (w : World) : Option Nat :=
  w.slots.findIdx? fun s =>
    match s.tenancy with
    | .vacant depth => depth + 1 == w.vacancies
    | .held _ _ => false

/-- Adds an entity, in the slot vacated last or else in a new one. -/
def spawn (w : World) (c : Components) : Entity × World :=
  let (group, groups) := groupFor w.groups c.signature
  let tenancy := Tenancy.held c ⟨group, w.seatedIn group⟩
  match w.lastVacated? with
  | some id =>
    let generation := (w.slots[id]?.map (·.generation)).getD 1
    (⟨id, generation⟩, ⟨w.slots.set id ⟨generation, tenancy⟩, groups⟩)
  | none => (⟨w.slots.length, 1⟩, ⟨w.slots ++ [⟨1, tenancy⟩], groups⟩)

def despawn (w : World) (e : Entity) : World :=
  match w.slots[e.id]? with
  | some ⟨generation, .held _ seat⟩ =>
    if generation = e.generation then
      { w with slots := (w.closeGap seat).set e.id ⟨generation + 1, .vacant w.vacancies⟩ }
    else
      w
  | _ => w

/-- Changes the parts of an entity, if it is there. It moves to another group exactly when it gains
or loses a part. -/
def update (w : World) (e : Entity) (f : Components → Components) : World :=
  match w.slots[e.id]? with
  | some ⟨generation, .held c seat⟩ =>
    if generation = e.generation then
      if (f c).signature = c.signature then
        { w with slots := w.slots.set e.id ⟨generation, .held (f c) seat⟩ }
      else
        let (group, groups) := groupFor w.groups (f c).signature
        let own := ⟨group, w.seatedIn group⟩
        ⟨(w.closeGap seat).set e.id ⟨generation, .held (f c) own⟩, groups⟩
    else
      w
  | _ => w

/-- Changes what the parts of every entity hold. -/
def updateAll (w : World) (f : Components → Components) : World :=
  { w with
    slots := w.slots.map fun s =>
      match s.tenancy with
      | .held c seat => { s with tenancy := .held (f c) seat }
      | .vacant _ => s }

/-- Changes the parts of an entity to those that `f` gives, if it gives any. -/
def edit? (w : World) (e : Entity) (f : Components → Option Components) : Option World :=
  ((w.get? e).bind f).map fun c => w.update e fun _ => c

def setController (w : World) (e : Entity) (c : Controller) : World :=
  w.update e fun parts => { parts with controller := some c }

def setLedger (w : World) (e : Entity) (l : Ledger) : World :=
  w.update e fun parts => { parts with ledger := some l }

def setBias (w : World) (e : Entity) (b : PassiveBias) : World :=
  w.update e fun parts => { parts with bias := some b }

end World

end Hostility
