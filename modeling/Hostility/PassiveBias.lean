import Hostility.Candidate
import Hostility.Ledger
import Hostility.Tuning

/-!
The passive bias: non-combatants that draw attention on their own. In every pass each passive
candidate is raised towards a share of the strongest real threat, smoothed by a running average and
held back after a row of wins. The pass only raises ledger entries.
-/
namespace Hostility

structure BiasEntry where
  /-- The running average of the desired pressure, from the first pass on. -/
  average : Option Float := none
  /-- How many passes in a row the source was chosen. -/
  streak : Nat := 0
  deriving DecidableEq

abbrev PassiveBias := EntityMap BiasEntry

namespace PassiveBias

def entry (b : PassiveBias) (e : Entity) : BiasEntry := (EntityMap.get? b e).getD {}

/-- The longest streak that is counted. -/
def streakLimit : Nat := UInt32.size - 1

/-- Lengthens the streak of the chosen source and ends every other one. -/
def recordSelection (b : PassiveBias) (chosen : Option Entity) : PassiveBias :=
  EntityMap.map b fun e entry =>
    { entry with streak := if chosen = some e then min (entry.streak + 1) streakLimit else 0 }

theorem get?_recordSelection (b : PassiveBias) (chosen : Option Entity) (e : Entity) :
    EntityMap.get? (b.recordSelection chosen) e = (EntityMap.get? b e).map fun entry =>
      { entry with streak := if chosen = some e then min (entry.streak + 1) streakLimit else 0 } :=
  EntityMap.get?_map b _ e

end PassiveBias

/-- What one pass did to one passive candidate. -/
structure BiasOutcome where
  candidate : Entity
  maxActive : Int64
  /-- The capped pressure before smoothing. -/
  desired : Int64
  average : Float
  /-- The rounded average, less the penalty of a source that is held back. -/
  smoothed : Int64
  debounced : Bool
  /-- The value offered to the ledger. -/
  applied : Int64
  raised : Bool
  deriving DecidableEq

namespace BiasPass

/-- The lowest value that a passive source is held at. -/
def minFloor (t : Tuning) (threshold : Int64) : Int64 := satAdd t.threatMinimum (max threshold 0)

/-- The highest pressure that a passive source may be asked to hold. -/
def ceiling (t : Tuning) (maxActive : Int64) : Int64 :=
  floorAmount (floatOfAmount maxActive * (1.0 - t.passivePlayerFavor))

/-- The distance from one to the next float. -/
def unitSpacing : Float := 2.220446049250313e-16

/-- The pressure wanted of a passive source, at most the ceiling. -/
def desired (t : Tuning) (maxActive : Int64) : Int64 :=
  let share := larger (1.0 - t.passiveTargetPct) unitSpacing
  min (ceilAmount (t.aggroRangeFraction * floatOfAmount maxActive / share)) (ceiling t maxActive)

/-- The highest ledger value among the candidates that are not passive, or the floor. -/
def maxActive (t : Tuning) (l : Ledger) (candidates : List Candidate) : Int64 :=
  let active := candidates.filter fun c => !c.isPassive
  (active.filterMap fun c => l.value? c.entity).max?.getD t.threatMinimum

def average (t : Tuning) (desired : Int64) : Option Float → Float
  | some previous =>
    previous * (1.0 - t.passiveSmoothing) + floatOfAmount desired * t.passiveSmoothing
  | none => floatOfAmount desired

/-- One passive candidate of a pass whose strongest real threat is `maxActive`. -/
def applyOne (t : Tuning) (maxActive : Int64) (c : Candidate) (threshold : Int64) (l : Ledger)
    (b : PassiveBias) : BiasOutcome × Ledger × PassiveBias :=
  let entry := b.entry c.entity
  let desired := desired t maxActive
  let average := average t desired entry.average
  let debounced := decide (t.passiveStreakThreshold ≤ entry.streak)
  let rounded := roundAmount average
  let smoothed := if debounced then rounded - t.passiveStreakPenalty else rounded
  let applied := max smoothed (minFloor t threshold)
  let (l, raised) := l.raiseTo c.entity applied
  ({ candidate := c.entity, maxActive, desired, average, smoothed, debounced, applied, raised }, l,
    EntityMap.insert b c.entity { entry with average := some average })

def applyAll (t : Tuning) (maxActive : Int64) :
    List Candidate → Ledger → PassiveBias → List BiasOutcome × Ledger × PassiveBias
  | [], l, b => ([], l, b)
  | c :: rest, l, b =>
    match c.passive with
    | some threshold =>
      let (outcome, l, b) := applyOne t maxActive c threshold l b
      let (outcomes, l, b) := applyAll t maxActive rest l b
      (outcome :: outcomes, l, b)
    | none => applyAll t maxActive rest l b

/-- One bias pass: an outcome for each passive candidate, the ledger and the bias after it. -/
def apply (t : Tuning) (l : Ledger) (b : PassiveBias) (candidates : List Candidate) :
    List BiasOutcome × Ledger × PassiveBias :=
  applyAll t (maxActive t l candidates) candidates l b

variable {t : Tuning} {maxActive threshold : Int64} {c : Candidate} {rest : List Candidate}
  {l : Ledger} {b : PassiveBias}

/-- What is added to the floor is not negative, so the sum stops at the upper end only. -/
theorem toInt_minFloor (t : Tuning) (threshold : Int64) :
    (minFloor t threshold).toInt =
      min (t.threatMinimum.toInt + max threshold.toInt 0) Int64.maxValue.toInt := by
  have hfloor := t.threatMinimum.minValue_le_toInt
  have hmin : Int64.minValue.toInt = -2 ^ 63 := rfl
  have hmax : Int64.maxValue.toInt = 2 ^ 63 - 1 := rfl
  rw [minFloor, satAdd, toInt_saturate, toInt_max]
  have hzero : (0 : Int64).toInt = 0 := rfl
  omega

theorem entry_insert (b : PassiveBias) (k e : Entity) (entry : BiasEntry) :
    PassiveBias.entry (EntityMap.insert b k entry) e = if k = e then entry else b.entry e := by
  unfold PassiveBias.entry
  rw [EntityMap.get?_insert]
  split <;> rfl

theorem applyAll_cons_of_none (h : c.passive = none) :
    applyAll t maxActive (c :: rest) l b = applyAll t maxActive rest l b := by
  rw [applyAll, h]

theorem applyAll_cons_of_some (h : c.passive = some threshold) :
    applyAll t maxActive (c :: rest) l b =
      let one := applyOne t maxActive c threshold l b
      let others := applyAll t maxActive rest one.2.1 one.2.2
      (one.1 :: others.1, others.2) := by
  rw [applyAll, h]

theorem applyAll_append (t : Tuning) (maxActive : Int64) (before after : List Candidate)
    (l : Ledger) (b : PassiveBias) :
    applyAll t maxActive (before ++ after) l b =
      let earlier := applyAll t maxActive before l b
      let later := applyAll t maxActive after earlier.2.1 earlier.2.2
      (earlier.1 ++ later.1, later.2) := by
  induction before generalizing l b with
  | nil => rfl
  | cons c before ih =>
    rw [List.cons_append]
    cases hpassive : c.passive with
    | none => simp only [applyAll_cons_of_none hpassive, ih]
    | some threshold => simp only [applyAll_cons_of_some hpassive, ih, List.cons_append]

end BiasPass

end Hostility
