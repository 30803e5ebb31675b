import Hostility.Ledger
import Hostility.Random.Source
import Hostility.Tuning

/-!
The threat lottery. Entries below the cut, a fraction of the highest threat, are safe. The others
stand on a ladder, each on a rung as wide as its threat above the cut, and a roll picks the first
rung that it does not exceed.
-/
namespace Hostility

structure Rung where
  entity : Entity
  remainder : Int64
  /-- The sum of the remainders up to this rung. -/
  cumulative : Int64
  deriving DecidableEq

structure Lottery where
  maxThreat : Int64
  cut : Int64
  /-- By increasing remainder. -/
  rungs : List Rung
  outlook : Outlook
  deriving DecidableEq

namespace Lottery

def cutOf (t : Tuning) (maxThreat : Int64) : Int64 :=
  floorAmount (floatOfAmount maxThreat * t.aggroRangeFraction)

/-- The rungs of entries in order, above a running sum. -/
def climb : Int64 → List (Entity × Int64) → List Rung
  | _, [] => []
  | below, (e, remainder) :: rest =>
    let cumulative := satAdd below remainder
    ⟨e, remainder, cumulative⟩ :: climb cumulative rest

/-- The entries at or above the cut with what they have above it, by increasing remainder; equals
keep their order. -/
def contenders (cut : Int64) (entries : List (Entity × Int64)) : List (Entity × Int64) :=
  ((entries.filter fun a => decide (cut ≤ a.2)).map fun a => (a.1, a.2 - cut)).mergeSort
    fun a b => decide (a.2 ≤ b.2)

/-- How far below a positive cut the safe entries lie. -/
def safe (cut : Int64) (entries : List (Entity × Int64)) : EntityMap Float :=
  if 0 < cut then
    .ofList <| (entries.filter fun a => decide (a.2 < cut)).map fun a =>
      (a.1, floatOfAmount a.2 / floatOfAmount cut - 1.0)
  else
    ∅

def lastCumulative (rungs : List Rung) : Int64 :=
  match rungs.getLast? with
  | some rung => rung.cumulative
  | none => 0

/-- The share of the ladder that each rung holds. -/
def shares (rungs : List Rung) : EntityMap Float :=
  let total := max (lastCumulative rungs) 1
  .ofList <| rungs.map fun rung =>
    (rung.entity, floatOfAmount rung.remainder / floatOfAmount total)

/-- The lottery of a list of entries; none if no value is above the floor. -/
def build (t : Tuning) (entries : List (Entity × Int64)) : Option Lottery :=
  match (entries.map (·.2)).max? with
  | none => none
  | some maxThreat =>
    if maxThreat ≤ t.threatMinimum then
      none
    else
      let cut := cutOf t maxThreat
      let rungs := climb 0 (contenders cut entries)
      some ⟨maxThreat, cut, rungs, ⟨shares rungs, safe cut entries⟩⟩

def cumulativeMax (l : Lottery) : Int64 := lastCumulative l.rungs

/-- The winner of a roll. Rolls outside `[1, cumulativeMax]` count as the nearest one inside. -/
def winner (l : Lottery) (roll : Int64) : Option Entity :=
  let roll := min (max roll 1) (max l.cumulativeMax 1)
  ((l.rungs.find? fun rung => decide (roll ≤ rung.cumulative)).or l.rungs.getLast?).map (·.entity)

/-- Draws a winner, each roll of the ladder with the same odds. -/
def draw (l : Lottery) (r : RandomSource) : Option Entity × RandomSource :=
  let (below, r) := r.below64 (max l.cumulativeMax 1).toInt.toNat
  (l.winner (Int64.ofNat (1 + below)), r)

section Ladder

variable {t : Tuning} {cut : Int64} {entries : List (Entity × Int64)}

theorem climb_entries (below : Int64) (entries : List (Entity × Int64)) :
    (climb below entries).map (fun rung => (rung.entity, rung.remainder)) = entries := by
  induction entries generalizing below with
  | nil => rfl
  | cons a rest ih => simp [climb, ih]

theorem contenders_perm (cut : Int64) (entries : List (Entity × Int64)) :
    (contenders cut entries).Perm
      ((entries.filter fun a => decide (cut ≤ a.2)).map fun a => (a.1, a.2 - cut)) :=
  List.mergeSort_perm _ _

theorem mem_contenders {a : Entity × Int64} :
    a ∈ contenders cut entries ↔ ∃ v, (a.1, v) ∈ entries ∧ cut ≤ v ∧ a.2 = v - cut := by
  rw [(contenders_perm cut entries).mem_iff, List.mem_map]
  constructor
  · rintro ⟨b, hb, rfl⟩
    obtain ⟨hentry, hcut⟩ := List.mem_filter.mp hb
    exact ⟨b.2, hentry, by simpa using hcut, rfl⟩
  · rintro ⟨v, hentry, hcut, hv⟩
    exact ⟨(a.1, v), List.mem_filter.mpr ⟨hentry, by simpa using hcut⟩, Prod.ext rfl hv.symm⟩

/-- A lottery of some entries: its highest threat is one of them and above the floor, and all else
is made from it and the entries. -/
structure IsOf (t : Tuning) (entries : List (Entity × Int64)) (l : Lottery) : Prop where
  max : (entries.map (·.2)).max? = some l.maxThreat
  above : t.threatMinimum < l.maxThreat
  cut : l.cut = cutOf t l.maxThreat
  rungs : l.rungs = climb 0 (contenders l.cut entries)
  outlook : l.outlook = ⟨shares l.rungs, safe l.cut entries⟩

theorem isOf_of_build {l : Lottery} (h : build t entries = some l) : IsOf t entries l := by
  unfold build at h
  split at h
  · cases h
  · next m hmax =>
    dsimp only at h
    split at h
    · cases h
    · next habove =>
      obtain rfl := Option.some.inj h
      exact ⟨hmax, Int64.not_le.mp habove, rfl, rfl, rfl⟩

theorem rungs_of_build {l : Lottery} (h : build t entries = some l) :
    l.rungs = climb 0 (contenders l.cut entries) :=
  (isOf_of_build h).rungs

theorem exists_entry {l : Lottery} (hbuilt : build t entries = some l) {rung : Rung}
    (hrung : rung ∈ l.rungs) :
    ∃ v, (rung.entity, v) ∈ entries ∧ l.cut ≤ v ∧ rung.remainder = v - l.cut := by
  rw [rungs_of_build hbuilt] at hrung
  have hcontender := List.mem_map_of_mem (f := fun rung => (rung.entity, rung.remainder)) hrung
  rw [climb_entries] at hcontender
  exact mem_contenders.mp hcontender

theorem exists_rung {l : Lottery} (hbuilt : build t entries = some l) {e : Entity} {v : Int64}
    (hentry : (e, v) ∈ entries) (hle : l.cut ≤ v) :
    ∃ rung ∈ l.rungs, rung.entity = e ∧ rung.remainder = v - l.cut := by
  have hcontender : (e, v - l.cut) ∈ contenders l.cut entries :=
    mem_contenders.mpr ⟨v, hentry, hle, rfl⟩
  rw [← climb_entries 0 (contenders l.cut entries), ← rungs_of_build hbuilt] at hcontender
  obtain ⟨rung, hrung, heq⟩ := List.mem_map.mp hcontender
  exact ⟨rung, hrung, Prod.mk.inj heq⟩

end Ladder

end Lottery

end Hostility
