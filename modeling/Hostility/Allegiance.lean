/-!
Who belongs together. Members of one faction do not attack each other; kin answer each other's
calls for help.
-/
namespace Hostility

/-- A group of entities that do not fight each other. Number zero is the neutral faction. -/
structure Faction where
  number : Nat
  deriving DecidableEq, Repr, Inhabited

namespace Faction

def neutral : Faction := ⟨0⟩

def isNeutral (f : Faction) : Bool := f == neutral

def text (f : Faction) : String := "faction#" ++ toString f.number

end Faction

/-- A creature's type and the types it counts as friends. -/
structure Kinship where
  creatureType : String
  /-- In increasing order, each once. -/
  friendTypes : List String
  deriving DecidableEq, Repr, Inhabited

namespace Kinship

/-- Adds a name to an increasing list, unless it is there. -/
def insertName (name : String) : List String → List String
  | [] => [name]
  | n :: rest =>
    if name = n then n :: rest
    else if name < n then name :: n :: rest
    else n :: insertName name rest

/-- A kinship from friend types in any order and number. -/
def ofFriends (creatureType : String) (friends : List String) : Kinship :=
  ⟨creatureType, friends.foldl (fun l n => insertName n l) []⟩

/-- Kin share a type or one counts the other's type as a friend. A creature without a type is kin to
nobody. -/
def isKin (a b : Kinship) : Bool :=
  !a.creatureType.isEmpty && !b.creatureType.isEmpty &&
    (a.creatureType == b.creatureType || a.friendTypes.contains b.creatureType
      || b.friendTypes.contains a.creatureType)

theorem isKin_comm (a b : Kinship) : a.isKin b = b.isKin a := by
  simp only [isKin, Bool.beq_comm (a := a.creatureType)]
  cases a.creatureType.isEmpty <;> cases b.creatureType.isEmpty <;>
    cases a.friendTypes.contains b.creatureType <;>
    cases b.friendTypes.contains a.creatureType <;> simp [BEq.comm]

end Kinship

structure Allegiance where
  faction : Faction
  kinship : Kinship
  deriving DecidableEq, Repr, Inhabited

namespace Allegiance

/-- Neutral entities share a faction with nobody. -/
def sameFaction (a b : Allegiance) : Bool := !a.faction.isNeutral && a.faction == b.faction

theorem sameFaction_comm (a b : Allegiance) : a.sameFaction b = b.sameFaction a := by
  rw [Bool.eq_iff_iff]
  simp only [sameFaction, Bool.and_eq_true, beq_iff_eq]
  exact ⟨fun ⟨h, e⟩ => ⟨e ▸ h, e.symm⟩, fun ⟨h, e⟩ => ⟨e ▸ h, e.symm⟩⟩

end Allegiance

end Hostility
