import Hostility.Entity.Basic

/-!
What an entity is to an attacker: its kind, and whether it may be attacked at all.
-/
namespace Hostility

inductive EntityKind where
  | player
  /-- A pet or hireling, with the player that controls it if known. -/
  | companion (owner : Option Entity)
  | creature
  deriving DecidableEq, Repr

namespace EntityKind

def isPlayer : EntityKind → Bool
  | player => true
  | companion _ | creature => false

/-- Players and their companions. -/
def isPlayerSide : EntityKind → Bool
  | player | companion _ => true
  | creature => false

end EntityKind

structure Targetable where
  kind : EntityKind
  /-- Whether attacks may be directed at the entity. -/
  attackable : Bool
  deriving DecidableEq, Repr

namespace Targetable

def player : Targetable := ⟨.player, true⟩

def companion (owner : Option Entity) : Targetable := ⟨.companion owner, true⟩

def creature : Targetable := ⟨.creature, true⟩

/-- Scenery, which draws attention through passive threat only. -/
def inert : Targetable := ⟨.creature, false⟩

end Targetable

end Hostility
