import Hostility.Random.Source

/-!
Legacy tactics. An actor without a threat table carries a set of tactics and draws one of them
every pass. The set is kept as bits, so a bit that names no tactic survives and can be drawn.
-/
namespace Hostility

inductive Tactic where
  /-- Keep the current target. -/
  | hold
  /-- Keep the current target. -/
  | focused
  /-- Draw by distance. -/
  | random
  /-- Whoever hit last. -/
  | lastDamager
  /-- Whoever did the most damage. -/
  | topDamager
  | weakest
  | strongest
  | nearest
  deriving DecidableEq, Repr

namespace Tactic

/-- All tactics in the order of their bits. -/
def all : List Tactic :=
  [hold, focused, random, lastDamager, topDamager, weakest, strongest, nearest]

def name : Tactic → String
  | hold => "Hold"
  | focused => "Focused"
  | random => "Random"
  | lastDamager => "LastDamager"
  | topDamager => "TopDamager"
  | weakest => "Weakest"
  | strongest => "Strongest"
  | nearest => "Nearest"

def ofName? (s : String) : Option Tactic := all.find? (·.name == s)

def mask : Tactic → UInt16
  | hold => 1
  | focused => 2
  | random => 4
  | lastDamager => 8
  | topDamager => 16
  | weakest => 32
  | strongest => 64
  | nearest => 128

def ofBit? (bit : UInt16) : Option Tactic := all.find? (·.mask == bit)

theorem ofBit?_mask (t : Tactic) : ofBit? t.mask = some t := by cases t <;> decide

end Tactic

inductive TacticDraw where
  | known (tactic : Tactic)
  /-- A bit that names no tactic. -/
  | unknown (bit : UInt16)
  deriving DecidableEq, Repr

/-- What a set bit means when it is drawn. -/
def TacticDraw.ofBit (bit : UInt16) : TacticDraw :=
  match Tactic.ofBit? bit with
  | some t => .known t
  | none => .unknown bit

structure TacticSet where
  bits : UInt16
  deriving DecidableEq, Repr

namespace TacticSet

def empty : TacticSet := ⟨0⟩

def insert (s : TacticSet) (t : Tactic) : TacticSet := ⟨s.bits ||| t.mask⟩

def ofList (l : List Tactic) : TacticSet := l.foldl insert empty

def contains (s : TacticSet) (t : Tactic) : Bool := s.bits &&& t.mask != 0

/-- The tactics of a set in the order of their bits. -/
def toList (s : TacticSet) : List Tactic := Tactic.all.filter s.contains

/-- The part of a set whose bits name tactics. -/
def known (s : TacticSet) : TacticSet := ⟨s.bits &&& 0xff⟩

def hasUnknownBits (s : TacticSet) : Bool := s.known.bits != s.bits

/-- An actor for which no tactics are given holds its target. -/
instance : Inhabited TacticSet := ⟨empty.insert .hold⟩

def isDefault (s : TacticSet) : Bool := s == default

/-- The single bits that are set, lowest first. -/
def setBits (s : TacticSet) : List UInt16 :=
  ((List.range 16).map fun i => (1 : UInt16) <<< UInt16.ofNat i).filter fun b => s.bits &&& b != 0

def size (s : TacticSet) : Nat := s.setBits.length

def isEmpty (s : TacticSet) : Bool := s.bits == 0

/-- Draws one set bit, each with the same odds. An empty set draws nothing and uses no word. -/
def draw (s : TacticSet) (r : RandomSource) : Option TacticDraw × RandomSource :=
  if s.setBits.isEmpty then
    (none, r)
  else
    let (pick, r) := r.below32 s.size
    (s.setBits[pick]?.map TacticDraw.ofBit, r)

theorem mem_setBits {s : TacticSet} {bit : UInt16} :
    bit ∈ s.setBits ↔
      (∃ i < 16, bit = (1 : UInt16) <<< UInt16.ofNat i) ∧ s.bits &&& bit ≠ 0 := by
  simp only [setBits, List.mem_filter, List.mem_map, List.mem_range, bne_iff_ne]
  constructor
  · rintro ⟨⟨i, hi, rfl⟩, hset⟩
    exact ⟨⟨i, hi, rfl⟩, hset⟩
  · rintro ⟨⟨i, hi, rfl⟩, hset⟩
    exact ⟨⟨i, hi, rfl⟩, hset⟩

/-- A bit outside the known part is not set where all bits are known. -/
theorem exists_tactic_of_mem_setBits {s : TacticSet} (h : s.hasUnknownBits = false) {bit : UInt16}
    (hbit : bit ∈ s.setBits) : ∃ tactic, Tactic.ofBit? bit = some tactic := by
  obtain ⟨⟨i, hi, rfl⟩, hset⟩ := mem_setBits.mp hbit
  have hnamed : ∀ i < 16, (Tactic.ofBit? ((1 : UInt16) <<< UInt16.ofNat i)).isSome = true ∨
      (0xff : UInt16) &&& (1 <<< UInt16.ofNat i) = 0 := by decide
  rcases hnamed i hi with hsome | houtside
  · exact Option.isSome_iff_exists.mp hsome
  · have hknown : s.bits &&& 0xff = s.bits := by simpa [hasUnknownBits, known] using h
    rw [← hknown, UInt16.and_assoc, houtside, UInt16.and_zero] at hset
    exact absurd rfl hset

/-- A drawn bit without a meaning is one of the set, and names no tactic. -/
theorem of_draw_unknown {s : TacticSet} {r : RandomSource} {bit : UInt16}
    (h : (s.draw r).1 = some (.unknown bit)) : bit ∈ s.setBits ∧ Tactic.ofBit? bit = none := by
  unfold draw at h
  split at h
  · cases h
  · obtain ⟨drawn, hdrawn, hmeaning⟩ := Option.map_eq_some_iff.mp h
    unfold TacticDraw.ofBit at hmeaning
    split at hmeaning
    · cases hmeaning
    · next hnone =>
      obtain rfl := TacticDraw.unknown.inj hmeaning
      exact ⟨List.mem_of_getElem? hdrawn, hnone⟩

end TacticSet

end Hostility
