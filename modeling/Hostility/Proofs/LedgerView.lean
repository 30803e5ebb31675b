import Hostility.PassiveBias
import Hostility.Selection.Choice

/-!
Ledgers through `value?`. Each operation of a ledger has one equation for the value of every entity
afterwards; a bias pass raises passive candidates only, and a selection changes no value at all.
-/
namespace Hostility

namespace Ledger

variable {l : Ledger} {e k : Entity} {floor amount value : Int64}

theorem contains_eq (l : Ledger) (e : Entity) : l.contains e = (l.value? e).isSome := rfl

theorem mem_tracked : e ∈ l.tracked ↔ l.contains e = true := EntityMap.mem_keys

@[simp] theorem value?_empty (e : Entity) : empty.value? e = none := rfl

/-- Seeding fills a gap with the floor. -/
theorem value?_seed (l : Ledger) (e k : Entity) (floor : Int64) :
    (l.seed e floor).1.value? k = (l.value? k).or (if k = e then some floor else none) := by
  unfold seed
  split
  · next h =>
    obtain ⟨v, hv⟩ := Option.isSome_iff_exists.mp h
    by_cases hk : k = e
    · rw [hk, if_pos rfl, show l.value? e = some v from hv, Option.some_or]
    · rw [if_neg hk, Option.or_none]
  · next h =>
    have hnone : l.value? e = none := Option.not_isSome_iff_eq_none.mp h
    show (l.entries.insert e floor).get? k = _
    rw [EntityMap.get?_insert]
    by_cases hk : k = e
    · rw [if_pos hk.symm, if_pos hk, hk, hnone, Option.none_or]
    · rw [if_neg (Ne.symm hk), if_neg hk, Option.or_none]
      rfl

@[simp] theorem gained_seed (l : Ledger) (e : Entity) (floor : Int64) :
    (l.seed e floor).1.gained = l.gained := by
  unfold seed
  split <;> rfl

@[simp] theorem outlook_seed (l : Ledger) (e : Entity) (floor : Int64) :
    (l.seed e floor).1.outlook = l.outlook := by
  unfold seed
  split <;> rfl

theorem value?_seedAll (l : Ledger) (floor : Int64) (es : List Entity) (k : Entity) :
    (l.seedAll floor es).1.value? k = (l.value? k).or (if k ∈ es then some floor else none) := by
  induction es generalizing l with
  | nil => simp [seedAll]
  | cons e es ih =>
    show ((l.seed e floor).1.seedAll floor es).1.value? k = _
    rw [ih, value?_seed, Option.or_assoc]
    by_cases hk : k = e
    · simp [hk]
    · simp [hk]

theorem contains_seedAll (h : l.contains k = true) (floor : Int64) (es : List Entity) :
    (l.seedAll floor es).1.contains k = true := by
  rw [contains_eq] at h
  rw [contains_eq, value?_seedAll, Option.isSome_or, h, Bool.true_or]

theorem gained_seedAll (l : Ledger) (floor : Int64) (es : List Entity) :
    (l.seedAll floor es).1.gained = l.gained := by
  induction es generalizing l with
  | nil => rfl
  | cons e es ih =>
    show ((l.seed e floor).1.seedAll floor es).1.gained = _
    rw [ih, gained_seed]

theorem value?_add (l : Ledger) (e k : Entity) (amount floor : Int64) :
    (l.add e amount floor).1.value? k =
      if k = e then some (max (satAdd ((l.value? e).getD floor) amount) floor)
      else l.value? k := by
  show (l.entries.insert e _).get? k = _
  rw [EntityMap.get?_insert]
  by_cases hk : k = e
  · rw [if_pos hk.symm, if_pos hk]
  · rw [if_neg (Ne.symm hk), if_neg hk]
    rfl

theorem contains_add (h : l.contains k = true) (e : Entity) (amount floor : Int64) :
    (l.add e amount floor).1.contains k = true := by
  rw [contains_eq, value?_add]
  split
  · rfl
  · exact h

/-- Only a lower value that is there is raised. -/
theorem value?_raiseTo (l : Ledger) (e k : Entity) (value : Int64) :
    (l.raiseTo e value).1.value? k =
      (l.value? k).map fun v => if k = e ∧ v < value then value else v := by
  unfold raiseTo
  cases he : l.value? e with
  | none =>
    by_cases hk : k = e
    · rw [hk, he]; rfl
    · simp [hk]
  | some current =>
    dsimp only
    split
    · next hlt =>
      show (l.entries.insert e value).get? k = _
      rw [EntityMap.get?_insert]
      by_cases hk : k = e
      · rw [if_pos hk.symm, hk, he]
        simp [hlt]
      · rw [if_neg (Ne.symm hk)]
        simp [hk, value?]
    · next hlt =>
      by_cases hk : k = e
      · rw [hk, he]
        simp [hlt]
      · simp [hk]

@[simp] theorem gained_raiseTo (l : Ledger) (e : Entity) (value : Int64) :
    (l.raiseTo e value).1.gained = l.gained := by
  unfold raiseTo
  cases l.value? e with
  | none => rfl
  | some current =>
    dsimp only
    split <;> rfl

@[simp] theorem outlook_raiseTo (l : Ledger) (e : Entity) (value : Int64) :
    (l.raiseTo e value).1.outlook = l.outlook := by
  unfold raiseTo
  cases l.value? e with
  | none => rfl
  | some current =>
    dsimp only
    split <;> rfl

theorem contains_raiseTo (l : Ledger) (e k : Entity) (value : Int64) :
    (l.raiseTo e value).1.contains k = l.contains k := by
  rw [contains_eq, contains_eq, value?_raiseTo, Option.isSome_map]

theorem value?_remove (l : Ledger) (e k : Entity) :
    (l.remove e).value? k = if k = e then none else l.value? k :=
  EntityMap.get?_erase l.entries e k

theorem value?_removeAll (l : Ledger) (gone : List Entity) (k : Entity) :
    (l.removeAll gone).value? k = if k ∈ gone then none else l.value? k := by
  induction gone generalizing l with
  | nil => simp [removeAll]
  | cons e gone ih =>
    show ((l.remove e).removeAll gone).value? k = _
    rw [ih, value?_remove]
    by_cases hk : k = e
    · simp [hk]
    · simp [hk]

/-- A decay lowers every entry by its one amount, down to where the entry rests. -/
theorem value?_decay (l : Ledger) (floor : Int64) (fraction : Float)
    (threshold : Entity → Option Int64) (k : Entity) :
    (l.decay floor fraction threshold).1.value? k =
      (l.value? k).map (decayed floor (l.decayAmount floor fraction) (threshold k)) := by
  unfold decay
  split
  · next h =>
    have hnone : l.value? k = none := by
      rw [isEmpty, EntityMap.isEmpty, List.isEmpty_iff] at h
      rw [value?, EntityMap.get?, h]
      rfl
    rw [hnone]
    rfl
  · exact EntityMap.get?_map l.entries _ k

theorem tracked_removeAll (l : Ledger) (gone : List Entity) :
    (l.removeAll gone).tracked = l.tracked.filter fun k => !decide (k ∈ gone) := by
  induction gone generalizing l with
  | nil => exact (List.filter_eq_self.mpr (by simp)).symm
  | cons e gone ih =>
    have hremove : (l.remove e).tracked = l.tracked.filter fun k => !decide (k = e) := by
      unfold tracked EntityMap.keys
      rw [List.filter_map]
      rfl
    show ((l.remove e).removeAll gone).tracked = _
    rw [ih, hremove, List.filter_filter]
    congr 1
    funext k
    by_cases hk : k = e <;> simp [hk]

theorem size_eq (l : Ledger) : l.size = l.tracked.length := (List.length_map ..).symm

theorem isEmpty_iff : l.isEmpty = true ↔ l.tracked = [] := by
  rw [isEmpty, EntityMap.isEmpty, List.isEmpty_iff, tracked, EntityMap.keys, List.map_eq_nil_iff]

theorem decay_of_isEmpty (h : l.isEmpty = true) (floor : Int64) (fraction : Float)
    (threshold : Entity → Option Int64) : l.decay floor fraction threshold = (l, none) := by
  rw [decay, if_pos h]

theorem decay_of_not_isEmpty (h : l.isEmpty = false) (floor : Int64) (fraction : Float)
    (threshold : Entity → Option Int64) :
    (l.decay floor fraction threshold).1.gained = 0 ∧
      (l.decay floor fraction threshold).2 = some (l.decayAmount floor fraction) := by
  rw [decay, h]
  exact ⟨rfl, rfl⟩

/-- Only the thresholds of the tracked entities matter. -/
theorem decay_congr {threshold threshold' : Entity → Option Int64}
    (h : ∀ e ∈ l.tracked, threshold e = threshold' e) (floor : Int64) (fraction : Float) :
    l.decay floor fraction threshold = l.decay floor fraction threshold' := by
  have hentries : (l.entries.map fun e v =>
        decayed floor (l.decayAmount floor fraction) (threshold e) v) =
      l.entries.map fun e v => decayed floor (l.decayAmount floor fraction) (threshold' e) v := by
    ext1 e
    rw [EntityMap.get?_map, EntityMap.get?_map]
    cases hvalue : l.entries.get? e with
    | none => rfl
    | some v => rw [h e (EntityMap.mem_keys.mpr (by rw [hvalue]; rfl))]
  unfold decay
  dsimp only
  rw [hentries]

theorem tracked_decay (l : Ledger) (floor : Int64) (fraction : Float)
    (threshold : Entity → Option Int64) :
    (l.decay floor fraction threshold).1.tracked = l.tracked := by
  unfold decay
  split
  · rfl
  · exact List.map_map

/-- A decay lets nobody in and drops nobody. -/
theorem contains_of_decay {l lowered : Ledger} {fraction : Float}
    {threshold : Entity → Option Int64} {amount? : Option Int64}
    (h : l.decay floor fraction threshold = (lowered, amount?)) (k : Entity) :
    lowered.contains k = l.contains k := by
  have hvalue := value?_decay l floor fraction threshold k
  rw [h] at hvalue
  rw [contains_eq, contains_eq, hvalue, Option.isSome_map]

theorem one_le_decayAmount (l : Ledger) (floor : Int64) (fraction : Float) :
    1 ≤ l.decayAmount floor fraction :=
  Int64.le_trans (Std.right_le_max (a := floorAmount _)) Std.right_le_max

/-- Without a threshold an entry loses the whole amount, unless it reaches the floor before. The
difference cannot saturate at the upper end, and at the lower end the floor hides it. -/
theorem toInt_decayed (h : 1 ≤ amount) (floor value : Int64) :
    (decayed floor amount none value).toInt = max (value.toInt - amount.toInt) floor.toInt := by
  have hamount : 1 ≤ amount.toInt := Int64.le_iff_toInt_le.mp h
  have hvalue := value.toInt_le
  have hfloor := floor.minValue_le_toInt
  show (max (satSub value amount) floor).toInt = _
  rw [toInt_max, satSub, toInt_saturate]
  omega

/-- The same keys, the same gain, and the same values but for the entities that are `loose`. -/
structure AlikeBut (loose : Entity → Prop) (l l' : Ledger) : Prop where
  gained : l'.gained = l.gained
  contains : ∀ e, l'.contains e = l.contains e
  value : ∀ e, ¬ loose e → l'.value? e = l.value? e

namespace AlikeBut

variable {loose : Entity → Prop} {l' l'' : Ledger}

theorem refl (l : Ledger) : AlikeBut loose l l := ⟨rfl, fun _ => rfl, fun _ _ => rfl⟩

theorem trans (h : AlikeBut loose l l') (h' : AlikeBut loose l' l'') : AlikeBut loose l l'' where
  gained := h'.gained.trans h.gained
  contains e := (h'.contains e).trans (h.contains e)
  value e he := (h'.value e he).trans (h.value e he)

theorem raiseTo (h : loose e) (l : Ledger) (value : Int64) :
    AlikeBut loose l (l.raiseTo e value).1 where
  gained := gained_raiseTo l e value
  contains k := contains_raiseTo l e k value
  value k hk := by
    have hne : k ≠ e := by
      rintro rfl
      exact hk h
    rw [value?_raiseTo]
    simp [hne]

end AlikeBut

end Ledger

namespace BiasPass

variable {t : Tuning} {maxActive : Int64} {candidates : List Candidate} {l : Ledger}
  {b : PassiveBias}

theorem ledger_applyOne (t : Tuning) (maxActive : Int64) (c : Candidate) (threshold : Int64)
    (l : Ledger) (b : PassiveBias) :
    ∃ value, (applyOne t maxActive c threshold l b).2.1 = (l.raiseTo c.entity value).1 :=
  ⟨_, rfl⟩

/-- What every raise of an entry of a passive candidate keeps, a bias pass keeps. -/
theorem applyAll_keeps {P : Ledger → Prop}
    (hraise : ∀ l c value, c ∈ candidates → c.isPassive = true → P l →
      P (l.raiseTo c.entity value).1)
    (hl : P l) : P (applyAll t maxActive candidates l b).2.1 := by
  induction candidates generalizing l b with
  | nil => exact hl
  | cons c rest ih =>
    have hrest : ∀ l c value, c ∈ rest → c.isPassive = true → P l →
        P (l.raiseTo c.entity value).1 :=
      fun l c value hc => hraise l c value (by simp [hc])
    cases hpassive : c.passive with
    | none =>
      rw [applyAll_cons_of_none hpassive]
      exact ih hrest hl
    | some threshold =>
      obtain ⟨value, hvalue⟩ := ledger_applyOne t maxActive c threshold l b
      rw [applyAll_cons_of_some hpassive]
      apply ih hrest
      rw [hvalue]
      exact hraise l c value (by simp) (by simp [Candidate.isPassive, hpassive]) hl

end BiasPass

namespace Selection

/-- A selection by threat leaves everything in the ledger but the outlook. -/
theorem byThreat_ledger (t : Tuning) (l : Ledger) (candidates : List Candidate) (r : RandomSource) :
    ∃ outlook, (byThreat t l candidates r).2.1 = { l with outlook } := by
  unfold byThreat
  dsimp only
  split
  · exact ⟨_, rfl⟩
  · exact ⟨_, rfl⟩

end Selection

end Hostility
