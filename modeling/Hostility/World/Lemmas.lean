import Hostility.World.Basic

/-!
What the operations of the world do to its view. After a change an entity has the parts that the
change gave it and every other handle answers as before: the order of the world, and who sits on
which seat, does not show in `get?`. The order lists every entity once.
-/
namespace Hostility

namespace World

@[simp] theorem components?_closeGap (seat : Seat) (last : Nat) (s : Slot) (generation : Nat) :
    Slot.components? (Slot.closeGap seat last s) generation = Slot.components? s generation := by
  rcases s with ⟨g, _ | ⟨c, own⟩⟩
  · rfl
  · by_cases h : own = ⟨seat.group, last⟩ <;> simp [Slot.closeGap, Slot.components?, h]

theorem getElem?_closeGap (w : World) (seat : Seat) (id : Nat) :
    (w.closeGap seat)[id]? =
      w.slots[id]?.map (Slot.closeGap seat (w.seatedIn seat.group - 1)) := by
  simp [closeGap]

/-- The view through the slots of a world one of whose slots is replaced. -/
theorem bind_components?_set (slots : List Slot) (id : Nat) (s : Slot) (k : Entity) :
    (slots.set id s)[k.id]?.bind (Slot.components? · k.generation) =
      if id = k.id ∧ id < slots.length then Slot.components? s k.generation
      else slots[k.id]?.bind (Slot.components? · k.generation) := by
  rw [List.getElem?_set]
  by_cases hid : id = k.id
  · by_cases hlt : id < slots.length
    · simp [hid, hid ▸ hlt]
    · simp [hid, hid ▸ hlt]
  · simp [hid]

theorem bind_components?_closeGap (w : World) (seat : Seat) (k : Entity) :
    (w.closeGap seat)[k.id]?.bind (Slot.components? · k.generation) = w.get? k := by
  rw [getElem?_closeGap, get?]
  cases w.slots[k.id]? <;> simp

theorem get?_eq_some_iff {w : World} {e : Entity} {c : Components} :
    w.get? e = some c ↔ ∃ seat, w.slots[e.id]? = some ⟨e.generation, .held c seat⟩ := by
  constructor
  · intro h
    obtain ⟨⟨g, t⟩, hslot, hc⟩ := Option.bind_eq_some_iff.mp h
    cases t with
    | vacant depth => simp [Slot.components?] at hc
    | held c' seat =>
      by_cases hg : g = e.generation
      · have : c' = c := by simpa [Slot.components?, hg] using hc
        exact ⟨seat, by rw [hslot, hg, this]⟩
      · simp [Slot.components?, hg] at hc
  · rintro ⟨seat, hslot⟩
    simp [get?, hslot, Slot.components?]

theorem update_of_not_contains {w : World} {e : Entity} (h : w.get? e = none)
    (f : Components → Components) : w.update e f = w := by
  unfold update
  split
  · next g c seat hslot =>
    split
    · next hg =>
      have := (get?_eq_some_iff (w := w) (e := e)).mpr ⟨seat, hg ▸ hslot⟩
      simp [h] at this
    · rfl
  · rfl

/-- A change of an entity's parts shows in the view of that entity only. -/
theorem get?_update (w : World) (e k : Entity) (f : Components → Components) :
    (w.update e f).get? k = if k = e then (w.get? e).map f else w.get? k := by
  cases he : w.get? e with
  | none =>
    rw [update_of_not_contains he]
    by_cases hk : k = e
    · simp [hk, he]
    · simp [hk]
  | some c =>
    obtain ⟨seat, hslot⟩ := get?_eq_some_iff.mp he
    have hlt : e.id < w.slots.length := (List.getElem?_eq_some_iff.mp hslot).1
    have hcases : ∀ own, Slot.components? ⟨e.generation, .held (f c) own⟩ k.generation =
        if e.generation = k.generation then some (f c) else none := fun _ => rfl
    have hold : e.id = k.id → e.generation ≠ k.generation → w.get? k = none := by
      intro hid hgen
      simp [get?, ← hid, hslot, Slot.components?, hgen]
    have hview : ∀ own,
        (if e.id = k.id ∧ e.id < w.slots.length then
            Slot.components? ⟨e.generation, .held (f c) own⟩ k.generation
          else w.get? k) = if k = e then (some c).map f else w.get? k := by
      intro own
      by_cases hid : e.id = k.id
      · by_cases hgen : e.generation = k.generation
        · have hk : k = e := Entity.eq_iff.mpr ⟨hid.symm, hgen.symm⟩
          simp [hk, hlt, Slot.components?]
        · have hk : k ≠ e := fun h => hgen (by rw [h])
          simp [hid, hid ▸ hlt, hcases, hgen, hk, hold hid hgen]
      · have hk : k ≠ e := fun h => hid (by rw [h])
        simp [hid, hk]
    simp only [update, hslot, ↓reduceIte]
    split
    · rw [get?, bind_components?_set]
      exact hview seat
    · rw [get?, bind_components?_set, bind_components?_closeGap]
      have hlen : (w.closeGap seat).length = w.slots.length := by simp [closeGap]
      rw [hlen]
      exact hview _

/-- A part that a change leaves alone is the same afterwards. -/
theorem bind_get?_update {β : Type} {p : Components → Option β} {f : Components → Components}
    (h : ∀ c, p (f c) = p c) (w : World) (e k : Entity) :
    ((w.update e f).get? k).bind p = (w.get? k).bind p := by
  rw [get?_update]
  split
  · next hk => rw [hk]; cases w.get? e <;> simp [h]
  · rfl

@[simp] theorem contains_update (w : World) (e k : Entity) (f : Components → Components) :
    (w.update e f).contains k = w.contains k := by
  rw [contains, contains, get?_update]
  split
  · next hk => rw [hk, Option.isSome_map]
  · rfl

theorem contains_of_bind {β : Type} {p : Components → Option β} {w : World} {e : Entity} {b : β}
    (h : (w.get? e).bind p = some b) : w.contains e = true := by
  obtain ⟨c, hc, -⟩ := Option.bind_eq_some_iff.mp h
  simp [contains, hc]

theorem ledger?_setLedger {w : World} {e : Entity} (h : w.contains e = true) (l : Ledger) :
    (w.setLedger e l).ledger? e = some l := by
  obtain ⟨c, hc⟩ := Option.isSome_iff_exists.mp h
  rw [ledger?, setLedger, get?_update, if_pos rfl, hc]
  rfl

theorem ledger?_setController (w : World) (e k : Entity) (c : Controller) :
    (w.setController e c).ledger? k = w.ledger? k := by
  refine bind_get?_update ?_ w e k
  intro parts
  rfl

theorem controller?_setController {w : World} {e : Entity} (h : w.contains e = true)
    (c : Controller) (k : Entity) :
    (w.setController e c).controller? k = if k = e then some c else w.controller? k := by
  obtain ⟨parts, hparts⟩ := Option.isSome_iff_exists.mp h
  rw [controller?, setController, get?_update]
  split
  · rw [hparts]
    rfl
  · rfl

theorem get?_updateAll (w : World) (f : Components → Components) (k : Entity) :
    (w.updateAll f).get? k = (w.get? k).map f := by
  simp only [get?, updateAll, List.getElem?_map]
  cases w.slots[k.id]? with
  | none => rfl
  | some s =>
    rcases s with ⟨g, _ | ⟨c, seat⟩⟩
    · rfl
    · by_cases hg : g = k.generation <;> simp [Slot.components?, hg]

theorem get?_despawn (w : World) (e k : Entity) :
    (w.despawn e).get? k = if k = e then none else w.get? k := by
  cases he : w.get? e with
  | none =>
    have hsame : w.despawn e = w := by
      unfold despawn
      split
      · next g c seat hslot =>
        split
        · next hg =>
          have := (get?_eq_some_iff (w := w) (e := e)).mpr ⟨seat, hg ▸ hslot⟩
          simp [he] at this
        · rfl
      · rfl
    rw [hsame]
    by_cases hk : k = e
    · simp [hk, he]
    · simp [hk]
  | some c =>
    obtain ⟨seat, hslot⟩ := get?_eq_some_iff.mp he
    simp only [despawn, hslot, ↓reduceIte]
    rw [get?, bind_components?_set, bind_components?_closeGap]
    by_cases hid : e.id = k.id
    · have hlt : e.id < (w.closeGap seat).length := by
        simpa [closeGap] using (List.getElem?_eq_some_iff.mp hslot).1
      by_cases hgen : e.generation = k.generation
      · have hk : k = e := Entity.eq_iff.mpr ⟨hid.symm, hgen.symm⟩
        simp [hk, Slot.components?, Nat.not_le.mpr hlt]
      · have hk : k ≠ e := fun h => hgen (by rw [h])
        have hold : w.get? k = none := by simp [get?, ← hid, hslot, Slot.components?, hgen]
        simp [hid, Slot.components?, hk, hold]
    · have hk : k ≠ e := fun h => hid (by rw [h])
      simp [hid, hk]

theorem lastVacated?_spec {w : World} {id : Nat} (h : w.lastVacated? = some id) :
    ∃ generation depth, w.slots[id]? = some ⟨generation, .vacant depth⟩ := by
  obtain ⟨hlt, hp, -⟩ := List.findIdx?_eq_some_iff_getElem.mp h
  cases hs : w.slots[id] with
  | mk generation tenancy =>
    cases tenancy with
    | vacant depth => exact ⟨generation, depth, by rw [List.getElem?_eq_getElem hlt, hs]⟩
    | held c seat => simp [hs] at hp

/-- A new entity has the parts it was given, and is none of the old ones. -/
theorem get?_spawn (w : World) (c : Components) (k : Entity) :
    (w.spawn c).2.get? k = if k = (w.spawn c).1 then some c else w.get? k := by
  unfold spawn
  cases hgroup : groupFor w.groups c.signature with
  | mk group groups =>
    cases hv : w.lastVacated? with
    | some id =>
      obtain ⟨generation, depth, hslot⟩ := lastVacated?_spec hv
      have hlt : id < w.slots.length := (List.getElem?_eq_some_iff.mp hslot).1
      simp only [hslot, Option.map_some, Option.getD_some]
      rw [get?, bind_components?_set]
      by_cases hid : id = k.id
      · subst hid
        have hold : w.get? k = none := by simp [get?, hslot, Slot.components?]
        have hk : k = ⟨k.id, generation⟩ ↔ generation = k.generation := by
          rw [Entity.eq_iff]; exact ⟨fun h => h.2.symm, fun h => ⟨rfl, h.symm⟩⟩
        simp only [hlt, and_self, ↓reduceIte, Slot.components?, hk, hold]
      · have hk : k ≠ ⟨id, generation⟩ := fun h => hid (by rw [h])
        simp [hid, hk, get?]
    | none =>
      simp only [get?]
      by_cases hid : k.id = w.slots.length
      · have hk : k = ⟨w.slots.length, 1⟩ ↔ 1 = k.generation := by
          rw [Entity.eq_iff]; exact ⟨fun h => h.2.symm, fun h => ⟨hid, h.symm⟩⟩
        simp [hid, Slot.components?, hk]
      · have hk : k ≠ ⟨w.slots.length, 1⟩ := fun h => hid (by rw [h])
        by_cases hlt : k.id < w.slots.length
        · simp [List.getElem?_append_left hlt, hk]
        · have hnone : w.slots[k.id]? = none := by rw [List.getElem?_eq_none_iff]; omega
          have hmore : (w.slots ++ [⟨1, .held c ⟨group, w.seatedIn group⟩⟩])[k.id]? = none := by
            rw [List.getElem?_eq_none_iff, List.length_append, List.length_singleton]; omega
          simp [hmore, hnone, hk]

theorem mem_residents {w : World} {e : Entity} {seat : Seat} :
    (e, seat) ∈ w.residents ↔ ∃ c, w.slots[e.id]? = some ⟨e.generation, .held c seat⟩ := by
  simp only [residents, List.mem_filterMap, Prod.exists, List.mem_zipIdx_iff_getElem?]
  constructor
  · rintro ⟨⟨g, t⟩, id, hslot, h⟩
    cases t with
    | vacant depth => simp [Slot.resident?] at h
    | held c own =>
      obtain ⟨rfl, rfl⟩ : (⟨id, g⟩ : Entity) = e ∧ own = seat := by simpa [Slot.resident?] using h
      exact ⟨c, hslot⟩
  · rintro ⟨c, hslot⟩
    exact ⟨_, _, hslot, rfl⟩

/-- The order of the world lists exactly the entities that are in it. -/
theorem mem_entities {w : World} {e : Entity} : e ∈ w.entities ↔ w.contains e = true := by
  simp only [entities, List.mem_map, List.mem_mergeSort, Prod.exists, exists_and_right,
    exists_eq_right, mem_residents, contains, Option.isSome_iff_exists, get?_eq_some_iff]
  exact exists_comm

theorem id_of_resident? {s : Slot} {id : Nat} {a : Entity × Seat}
    (h : Slot.resident? s id = some a) : a.1.id = id := by
  rcases s with ⟨g, _ | ⟨c, seat⟩⟩
  · simp [Slot.resident?] at h
  · simp only [Slot.resident?, Option.some.injEq] at h
    rw [← h]

/-- No entity is seated twice. -/
theorem residents_nodup (w : World) : (w.residents.map (·.1)).Nodup := by
  have hslots : w.slots.zipIdx.Pairwise fun a b => a.2 ≠ b.2 := by
    rw [← List.pairwise_map (f := Prod.snd) (R := (· ≠ ·)), List.zipIdx_map_snd]
    exact List.nodup_range'
  rw [List.nodup_iff_pairwise_ne, List.pairwise_map]
  apply hslots.filterMap
  intro a b hne x hx y hy heq
  rw [← id_of_resident? hx, ← id_of_resident? hy, heq] at hne
  exact hne rfl

/-- The order of the world lists every entity once. -/
theorem entities_nodup (w : World) : w.entities.Nodup := by
  have hperm := (List.mergeSort_perm w.residents fun a b => a.2.le b.2).map (·.1)
  exact hperm.nodup_iff.mpr w.residents_nodup

/-- Entities that are seated in the order of their identifiers stand in that order. -/
theorem entities_of_sorted {w : World} (h : w.residents.Pairwise fun a b => a.2.le b.2 = true) :
    w.entities = w.residents.map (·.1) := by
  rw [entities, List.mergeSort_of_pairwise h]

end World

end Hostility
