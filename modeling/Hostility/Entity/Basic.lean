/-!
Handles of entities. An identifier is used again after its entity is gone; the generation tells the
successive bearers of one identifier apart.
-/
namespace Hostility

structure Entity where
  id : Nat
  generation : Nat
  deriving DecidableEq, Repr, Inhabited

namespace Entity

/-- Entities are ordered by identifier, then by generation. -/
protected def lt (a b : Entity) : Prop :=
  a.id < b.id ∨ (a.id = b.id ∧ a.generation < b.generation)

instance : LT Entity := ⟨Entity.lt⟩

theorem lt_iff {a b : Entity} :
    a < b ↔ a.id < b.id ∨ (a.id = b.id ∧ a.generation < b.generation) := Iff.rfl

instance (a b : Entity) : Decidable (a < b) :=
  inferInstanceAs (Decidable (a.id < b.id ∨ (a.id = b.id ∧ a.generation < b.generation)))

theorem eq_iff {a b : Entity} : a = b ↔ a.id = b.id ∧ a.generation = b.generation := by
  cases a; cases b; simp

theorem lt_irrefl (a : Entity) : ¬ a < a := by rw [lt_iff]; omega

theorem lt_trans {a b c : Entity} (hab : a < b) (hbc : b < c) : a < c := by
  rw [lt_iff] at *; omega

theorem ne_of_lt {a b : Entity} (h : a < b) : a ≠ b := fun e => lt_irrefl b (e ▸ h)

theorem lt_asymm {a b : Entity} (h : a < b) : ¬ b < a := fun h' => lt_irrefl a (lt_trans h h')

theorem lt_of_not_lt {a b : Entity} (h : ¬ a < b) (hne : a ≠ b) : b < a := by
  rw [Ne, eq_iff] at hne; rw [lt_iff] at *; omega

/-- The written form of a handle, such as `3v1`. -/
def text (e : Entity) : String := toString e.id ++ "v" ++ toString e.generation

def idCount : Nat := UInt32.size

/-- A handle as one number: the generation above the 32 bits of the identifier. -/
def code (e : Entity) : Nat := e.generation * idCount + e.id

def ofCode (n : Nat) : Entity := ⟨n % idCount, n / idCount⟩

theorem ofCode_code {e : Entity} (h : e.id < idCount) : ofCode e.code = e := by
  rw [eq_iff]
  simp only [ofCode, code, idCount, UInt32.size] at *
  omega

end Entity

end Hostility
