import Hostility.Proofs.LedgerView

/-!
Decay in whole numbers. One step takes the same amount from every entry, down to the level at which
the entry rests, and lifts an entry that is below its rest level up to it. A ledger that gains
nothing comes to rest: after as many steps as any entry is above the floor, each is at its rest
level and stays there.
-/
namespace Hostility

namespace Ledger

variable {l : Ledger} {e : Entity} {floor amount v : Int64} {fraction : Float}
  {threshold : Entity → Option Int64} {n : Nat}

/-- The level at which an entry rests: the floor, or as far above it as the threshold of a passive
source says if that is 2 or more, up to the largest amount. -/
def restLevel (floor : Int64) (threshold : Option Int64) : Int :=
  match threshold with
  | some t =>
    if 2 ≤ t.toInt then min (floor.toInt + t.toInt) Int64.maxValue.toInt else floor.toInt
  | none => floor.toInt

theorem floor_le_restLevel (floor : Int64) (threshold : Option Int64) :
    floor.toInt ≤ restLevel floor threshold := by
  have hfloor := floor.toInt_le
  unfold restLevel
  split
  · split <;> omega
  · omega

/-- A threshold of 2 or more lifts what is left of the entry, and the sum of floor and threshold
cannot saturate at the lower end. -/
theorem toInt_decayed_eq_max (h : 1 ≤ amount) (floor value : Int64) (threshold : Option Int64) :
    (decayed floor amount threshold value).toInt =
      max (value.toInt - amount.toInt) (restLevel floor threshold) := by
  have hlowered := toInt_decayed h floor value
  cases threshold with
  | none => exact hlowered
  | some t =>
    have hdecayed : decayed floor amount (some t) value =
        if 2 ≤ t then max (decayed floor amount none value) (satAdd floor t)
        else decayed floor amount none value := rfl
    have htwo : 2 ≤ t ↔ 2 ≤ t.toInt := Int64.le_iff_toInt_le
    have hfloor := floor.minValue_le_toInt
    simp only [hdecayed, restLevel, htwo]
    split
    · next ht =>
      have habove : floor.toInt ≤ min (floor.toInt + t.toInt) Int64.maxValue.toInt := by
        have hmax := floor.toInt_le
        omega
      rw [toInt_max, hlowered, satAdd, toInt_saturate, Int.max_assoc,
        Int.max_eq_right (Int.le_trans hfloor habove), Int.max_eq_right habove]
    · exact hlowered

theorem one_le_saturate_size (h : l.isEmpty = false) : 1 ≤ (saturate l.size).toInt := by
  have hsome : l.size ≠ 0 := by
    rw [size_eq, Ne, List.length_eq_zero_iff, ← isEmpty_iff, h]
    exact Bool.false_ne_true
  have hmax : 1 ≤ Int64.maxValue.toInt := by decide
  rw [toInt_saturate]
  omega

theorem one_le_minimumSubtraction (l : Ledger) (floor : Int64) (fraction : Float) :
    1 ≤ (l.minimumSubtraction floor fraction).toInt :=
  Int64.le_iff_toInt_le.mp (Std.right_le_max (a := floorAmount _))

theorem one_le_toInt_decayAmount (l : Ledger) (floor : Int64) (fraction : Float) :
    1 ≤ (l.decayAmount floor fraction).toInt :=
  Int64.le_iff_toInt_le.mp (one_le_decayAmount l floor fraction)

/-- Each entry takes an equal share of the gain. More entries than the largest amount would leave
shares of 1 at most, which the least amount outweighs. -/
theorem toInt_decayAmount (h : l.isEmpty = false) (floor : Int64) (fraction : Float) :
    (l.decayAmount floor fraction).toInt =
      max (l.gained.toInt.tdiv l.size) (l.minimumSubtraction floor fraction).toInt := by
  have hcount := one_le_saturate_size h
  have hleast := one_le_minimumSubtraction l floor fraction
  have hgained := l.gained.toInt_le
  have hshare (count : Int) (hpositive : 0 < count) (hle : l.gained.toInt ≤ count) :
      l.gained.toInt.tdiv count ≤ 1 := by
    rw [← Int.tdiv_self (Int.ne_of_gt hpositive)]
    exact Int.tdiv_le_tdiv hpositive hle
  rw [decayAmount, toInt_max,
    Int64.toInt_div_of_ne_right _ _ fun hcontra => by simp [hcontra] at hcount]
  by_cases hfits : (l.size : Int) ≤ Int64.maxValue.toInt
  · have hsize : (saturate l.size).toInt = l.size := by
      have hmin : Int64.minValue.toInt ≤ 0 := by decide
      rw [toInt_saturate]
      omega
    rw [hsize]
  · have hsize : (saturate l.size).toInt = Int64.maxValue.toInt := by
      rw [toInt_saturate, Int.min_eq_right (by omega)]
      decide
    have hmany := hshare l.size (by omega) (by omega)
    have hcapped := hshare Int64.maxValue.toInt (by decide) hgained
    rw [hsize]
    omega

/-- A step takes no more than the whole gain, or the least amount. -/
theorem decayAmount_le {bound : Int64} (h : l.isEmpty = false) (hgained : l.gained ≤ bound)
    (floor : Int64) (fraction : Float) :
    l.decayAmount floor fraction ≤ max bound (l.minimumSubtraction floor fraction) := by
  have hleast := one_le_minimumSubtraction l floor fraction
  have hshare : l.gained.toInt.tdiv l.size ≤ max l.gained.toInt 0 := by
    rcases Int.le_total 0 l.gained.toInt with hgain | hloss
    · exact Int.le_trans (Int.tdiv_le_self _ hgain) (Int.le_max_left ..)
    · have hnonneg := Int.tdiv_nonneg (Int.neg_nonneg.mpr hloss) (Int.natCast_nonneg l.size)
      rw [Int.neg_tdiv] at hnonneg
      omega
  rw [Int64.le_iff_toInt_le] at *
  rw [toInt_decayAmount h, toInt_max]
  omega

theorem exists_value?_decay (h : l.value? e = some v) (floor : Int64) (fraction : Float)
    (threshold : Entity → Option Int64) :
    ∃ v', (l.decay floor fraction threshold).1.value? e = some v' ∧
      v'.toInt = max (v.toInt - (l.decayAmount floor fraction).toInt)
        (restLevel floor (threshold e)) := by
  rw [value?_decay, h]
  exact ⟨_, rfl, toInt_decayed_eq_max (one_le_decayAmount l floor fraction) floor v (threshold e)⟩

theorem gained_decay (h : l.isEmpty = false) (floor : Int64) (fraction : Float)
    (threshold : Entity → Option Int64) : (l.decay floor fraction threshold).1.gained = 0 :=
  (decay_of_not_isEmpty h floor fraction threshold).1

/-- A step on a ledger with entries takes an amount of at least 1 from each of them: an equal share
of the gain since the last step, or a share of what all hold above the floor. Every entry goes down
by this amount to its rest level at most, and the gain is used up. So no entry falls by more than
the gain or the least amount, none ends below the floor, and entries with one rest level stay in
order. -/
theorem decay_exact (h : l.isEmpty = false) (floor : Int64) (fraction : Float)
    (threshold : Entity → Option Int64) :
    let excess := max (satSub l.total (satMul floor (saturate l.size))) 0
    let least := max (floorAmount (floatOfAmount excess * fraction)) 1
    let lowered := (l.decay floor fraction threshold).1
    ∃ amount, (l.decay floor fraction threshold).2 = some amount ∧ 1 ≤ least ∧
      amount.toInt = max (l.gained.toInt.tdiv l.size) least.toInt ∧
      lowered.tracked = l.tracked ∧ lowered.gained = 0 ∧ lowered.outlook = l.outlook ∧
      (∀ e v, l.value? e = some v → ∃ v', lowered.value? e = some v' ∧
        v'.toInt = max (v.toInt - amount.toInt) (restLevel floor (threshold e)) ∧
        v.toInt - v'.toInt ≤ max l.gained.toInt least.toInt ∧ floor ≤ v') ∧
      ∀ e e' v v', l.value? e = some v → l.value? e' = some v' →
        restLevel floor (threshold e) = restLevel floor (threshold e') → v ≤ v' →
        ∃ u u', lowered.value? e = some u ∧ lowered.value? e' = some u' ∧ u ≤ u' := by
  intro excess least lowered
  obtain ⟨hgained, hamount⟩ := decay_of_not_isEmpty h floor fraction threshold
  have hlowered {e : Entity} {v : Int64} (hv : l.value? e = some v) :=
    exists_value?_decay hv floor fraction threshold
  refine ⟨_, hamount, ?_, toInt_decayAmount h floor fraction, tracked_decay .., hgained, ?_, ?_,
    ?_⟩
  · exact Std.right_le_max
  · simp [lowered, decay, h]
  · intro e v hv
    obtain ⟨v', hv', hvalue⟩ := hlowered hv
    have hbound := decayAmount_le h (Int64.le_refl l.gained) floor fraction
    have hrest := floor_le_restLevel floor (threshold e)
    rw [Int64.le_iff_toInt_le, toInt_max] at hbound
    refine ⟨v', hv', hvalue, ?_, ?_⟩
    · show v.toInt - v'.toInt ≤ max l.gained.toInt (l.minimumSubtraction floor fraction).toInt
      omega
    · rw [Int64.le_iff_toInt_le]
      omega
  · intro e e' v v' hv hv' hrest hle
    obtain ⟨u, hu, hvalue⟩ := hlowered hv
    obtain ⟨u', hu', hvalue'⟩ := hlowered hv'
    rw [Int64.le_iff_toInt_le] at hle
    refine ⟨u, u', hu, hu', ?_⟩
    rw [Int64.le_iff_toInt_le, hvalue, hvalue', hrest]
    omega

/-- Aria at the end of the range, and a banner whose rest level lies beyond it. -/
def embers : Ledger :=
  { entries := .ofList [(⟨1, 1⟩, Int64.maxValue), (⟨2, 1⟩, 100)]
    gained := -5
    outlook := .empty }

/-- The banner is lifted to the end of the range. -/
theorem embers_decay_exact :
    embers.isEmpty = false ∧
      let threshold := fun e : Entity => if e = ⟨2, 1⟩ then some Int64.maxValue else none
      ∃ v, (embers.decay 100 0.1 threshold).1.value? ⟨2, 1⟩ = some v ∧ v = Int64.maxValue := by
  have hsome : embers.isEmpty = false := by decide
  let threshold := fun e : Entity => if e = ⟨2, 1⟩ then some Int64.maxValue else none
  obtain ⟨amount, -, hleast, hamount, -, -, -, hvalues, -⟩ := decay_exact hsome 100 0.1 threshold
  obtain ⟨v, hv, hvalue, -, -⟩ := hvalues ⟨2, 1⟩ 100 (by decide)
  have hrest : restLevel 100 (threshold ⟨2, 1⟩) = Int64.maxValue.toInt := by decide
  have hold : (100 : Int64).toInt ≤ Int64.maxValue.toInt := by decide
  have hone : (1 : Int64).toInt = 1 := by decide
  rw [Int64.le_iff_toInt_le] at hleast
  refine ⟨hsome, v, hv, ?_⟩
  rw [← Int64.toInt_inj, hvalue, hrest]
  omega

/-- What is left of a ledger after some steps with nothing gained between them. -/
def decays (l : Ledger) (floor : Int64) (fraction : Float) (threshold : Entity → Option Int64) :
    Nat → Ledger
  | 0 => l
  | n + 1 => ((l.decays floor fraction threshold n).decay floor fraction threshold).1

theorem tracked_decays (l : Ledger) (floor : Int64) (fraction : Float)
    (threshold : Entity → Option Int64) (n : Nat) :
    (l.decays floor fraction threshold n).tracked = l.tracked := by
  induction n with
  | zero => rfl
  | succ n ih => exact (tracked_decay ..).trans ih

theorem isEmpty_decays (l : Ledger) (floor : Int64) (fraction : Float)
    (threshold : Entity → Option Int64) (n : Nat) :
    (l.decays floor fraction threshold n).isEmpty = l.isEmpty := by
  rw [Bool.eq_iff_iff, isEmpty_iff, isEmpty_iff, tracked_decays]

/-- From the first step on an entry is at its rest level or above it, and with every step at least
1 lower than before as long as it is above. -/
theorem exists_value?_decays (h : l.value? e = some v) (floor : Int64) (fraction : Float)
    (threshold : Entity → Option Int64) (n : Nat) :
    ∃ v', (l.decays floor fraction threshold (n + 1)).value? e = some v' ∧
      restLevel floor (threshold e) ≤ v'.toInt ∧
      v'.toInt ≤ max (v.toInt - (n + 1)) (restLevel floor (threshold e)) := by
  have hstep {left : Ledger} {old : Int64} (hold : left.value? e = some old) :
      ∃ v', (left.decay floor fraction threshold).1.value? e = some v' ∧
        restLevel floor (threshold e) ≤ v'.toInt ∧
        v'.toInt ≤ max (old.toInt - 1) (restLevel floor (threshold e)) := by
    obtain ⟨v', hv', hvalue⟩ := exists_value?_decay hold floor fraction threshold
    have hamount := one_le_toInt_decayAmount left floor fraction
    exact ⟨v', hv', by omega, by omega⟩
  induction n with
  | zero => exact hstep h
  | succ n ih =>
    obtain ⟨old, hold, -, hle⟩ := ih
    obtain ⟨v', hv', hrest, hle'⟩ := hstep hold
    exact ⟨v', hv', hrest, by omega⟩

/-- After as many steps, but one at least, as any entry was above the floor, all are at rest. -/
theorem at_rest_of_decays
    (hfar : ∀ e v, l.value? e = some v → v.toInt - floor.toInt ≤ (n + 1 : Nat)) (fraction : Float)
    (threshold : Entity → Option Int64) (e : Entity) (v : Int64)
    (h : (l.decays floor fraction threshold (n + 1)).value? e = some v) :
    v.toInt = restLevel floor (threshold e) := by
  obtain ⟨old, hold⟩ : ∃ old, l.value? e = some old := by
    rw [← Option.isSome_iff_exists, ← contains_eq, ← mem_tracked,
      ← tracked_decays l floor fraction threshold (n + 1), mem_tracked, contains_eq]
    exact Option.isSome_of_eq_some h
  obtain ⟨v', hv', hle, hle'⟩ := exists_value?_decays hold floor fraction threshold n
  obtain rfl : v = v' := Option.some.inj (h.symm.trans hv')
  have hdistance := hfar e old hold
  have hfloor := floor_le_restLevel floor (threshold e)
  omega

/-- A step takes nothing from a ledger whose entries are at rest and whose gain is used up. -/
theorem decay_of_at_rest
    (hrest : ∀ e v, l.value? e = some v → v.toInt = restLevel floor (threshold e))
    (hgained : l.isEmpty = false → l.gained = 0) (fraction : Float) :
    (l.decay floor fraction threshold).1 = l := by
  cases hempty : l.isEmpty with
  | true => rw [decay_of_isEmpty hempty]
  | false =>
    have hentries : (l.decay floor fraction threshold).1.entries = l.entries := by
      ext e : 1
      show (l.decay floor fraction threshold).1.value? e = l.value? e
      cases hv : l.value? e with
      | none => rw [value?_decay, hv, Option.map_none]
      | some v =>
        obtain ⟨v', hv', hvalue⟩ := exists_value?_decay hv floor fraction threshold
        have hamount := one_le_toInt_decayAmount l floor fraction
        have hsame : v' = v := by
          rw [← Int64.toInt_inj, hvalue, hrest e v hv]
          omega
        rw [hv', hsame]
    rw [decay, hempty] at hentries ⊢
    simp only [Bool.false_eq_true, if_false] at hentries ⊢
    rw [hentries, ← hgained hempty]

theorem gained_decays_succ (h : l.isEmpty = false) (floor : Int64) (fraction : Float)
    (threshold : Entity → Option Int64) (n : Nat) :
    (l.decays floor fraction threshold (n + 1)).gained = 0 :=
  gained_decay ((isEmpty_decays ..).trans h) floor fraction threshold

/-- After as many steps, but one at least, as any entry is above the floor, every entry is at its
rest level. Any further step changes nothing, whatever its fraction, and still takes an amount of at
least 1 if there are entries; without entries there is no amount to take. Until then every entry
above its rest level falls with every step. -/
theorem decays_come_to_rest (hn : 1 ≤ n)
    (hfar : ∀ e v, l.value? e = some v → v.toInt - floor.toInt ≤ n) (fraction : Float)
    (threshold : Entity → Option Int64) :
    let settled := l.decays floor fraction threshold n
    settled.tracked = l.tracked ∧
    (∀ e v, settled.value? e = some v → v.toInt = restLevel floor (threshold e)) ∧
    (∀ fraction', (settled.decay floor fraction' threshold).1 = settled ∧
      (l.isEmpty = false →
        ∃ amount, (settled.decay floor fraction' threshold).2 = some amount ∧ 1 ≤ amount) ∧
      (l.isEmpty = true → (settled.decay floor fraction' threshold).2 = none)) ∧
    ∀ k e v, (l.decays floor fraction threshold k).value? e = some v →
      restLevel floor (threshold e) < v.toInt →
      ∃ v', (l.decays floor fraction threshold (k + 1)).value? e = some v' ∧ v' < v := by
  intro settled
  obtain ⟨n, rfl⟩ := Nat.exists_eq_add_of_le' hn
  have hrest := at_rest_of_decays hfar fraction threshold
  refine ⟨tracked_decays .., hrest, fun fraction' => ⟨?_, ?_, ?_⟩, ?_⟩
  · refine decay_of_at_rest hrest (fun h => ?_) fraction'
    exact gained_decays_succ ((isEmpty_decays ..).symm.trans h) floor fraction threshold n
  · intro h
    have hsome : settled.isEmpty = false := (isEmpty_decays ..).trans h
    exact ⟨_, (decay_of_not_isEmpty hsome floor fraction' threshold).2, one_le_decayAmount ..⟩
  · intro h
    rw [decay_of_isEmpty ((isEmpty_decays ..).trans h)]
  · intro k e v hv habove
    obtain ⟨v', hv', hvalue⟩ := exists_value?_decay hv floor fraction threshold
    have hamount := one_le_toInt_decayAmount (l.decays floor fraction threshold k) floor fraction
    refine ⟨v', hv', ?_⟩
    rw [Int64.lt_iff_toInt_lt]
    omega

/-- Aria three above the floor, and a banner that rests five above it. -/
def campfire : Ledger :=
  { entries := .ofList [(⟨1, 1⟩, 103), (⟨2, 1⟩, 100)]
    gained := 0
    outlook := .empty }

theorem campfire_comes_to_rest :
    1 ≤ 3 ∧ (∀ e v, campfire.value? e = some v → v.toInt - (100 : Int64).toInt ≤ 3) ∧
      let threshold := fun e : Entity => if e = ⟨2, 1⟩ then some 5 else none
      let settled := campfire.decays 100 0.1 threshold 3
      settled.tracked = [⟨1, 1⟩, ⟨2, 1⟩] ∧
        (∀ v, settled.value? ⟨1, 1⟩ = some v → v.toInt = 100) ∧
        ∀ v, settled.value? ⟨2, 1⟩ = some v → v.toInt = 105 := by
  have hfar : ∀ e v, campfire.value? e = some v → v.toInt - (100 : Int64).toInt ≤ (3 : Nat) := by
    intro e v hv
    have hmem : (e, v) ∈ campfire.entries.entries := EntityMap.get?_eq_some_iff.mp hv
    have hall : ∀ a ∈ campfire.entries.entries, a.2.toInt - (100 : Int64).toInt ≤ (3 : Nat) := by
      decide
    exact hall _ hmem
  obtain ⟨htracked, hrest, -⟩ := decays_come_to_rest (by decide) hfar 0.1
    fun e : Entity => if e = ⟨2, 1⟩ then some 5 else none
  exact ⟨by decide, hfar, htracked.trans (by decide), hrest ⟨1, 1⟩, hrest ⟨2, 1⟩⟩

/-- A ledger without entries is at rest at once, and no step has an amount. -/
theorem empty_rests_without_amount :
    1 ≤ 1 ∧ (∀ e v, empty.value? e = some v → v.toInt - (100 : Int64).toInt ≤ 1) ∧
      ¬ ∃ amount, ((empty.decays 100 0.1 (fun _ => none) 1).decay 100 0.1 fun _ => none).2 =
        some amount ∧ 1 ≤ amount := by
  refine ⟨by decide, ?_, ?_⟩
  · intro e v hv
    cases hv
  · rintro ⟨amount, hamount, -⟩
    cases hamount

end Ledger

end Hostility
