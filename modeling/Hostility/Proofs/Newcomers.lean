import Hostility.World.Lemmas

/-!
Handles that no entity has borne yet. Only an arrival brings such a handle into the world, and no
departure gives an old one back, so what is known of a newcomer is that nothing is known of it.
-/
namespace Hostility

namespace World

/-- The generation that the next bearer of an identifier gets. -/
def Slot.nextGeneration (s : Slot) : Nat :=
  match s.tenancy with
  | .vacant _ => s.generation
  | .held _ _ => s.generation + 1

def nextGeneration (w : World) (id : Nat) : Nat :=
  (w.slots[id]?.map Slot.nextGeneration).getD 1

/-- No entity has borne the handle so far. -/
def Unborn (w : World) (e : Entity) : Prop := w.nextGeneration e.id ≤ e.generation

@[simp] theorem nextGeneration_closeGap (seat : Seat) (last : Nat) (s : Slot) :
    Slot.nextGeneration (Slot.closeGap seat last s) = Slot.nextGeneration s := by
  rcases s with ⟨g, _ | ⟨c, own⟩⟩
  · rfl
  · by_cases h : own = ⟨seat.group, last⟩ <;> simp [Slot.closeGap, Slot.nextGeneration, h]

/-- A slot may be replaced by one that goes on with the same generation. -/
theorem map_nextGeneration_set (slots : List Slot) (id k : Nat) (s : Slot)
    (h : ∀ old, slots[id]? = some old → Slot.nextGeneration s = Slot.nextGeneration old) :
    (slots.set id s)[k]?.map Slot.nextGeneration = slots[k]?.map Slot.nextGeneration := by
  rw [List.getElem?_set]
  by_cases hid : id = k
  · subst hid
    by_cases hlt : id < slots.length
    · have hold := List.getElem?_eq_getElem hlt
      simp [hlt, h _ hold]
    · simp [hlt]
  · simp [hid]

theorem map_nextGeneration_closeGap (w : World) (seat : Seat) (k : Nat) :
    (w.closeGap seat)[k]?.map Slot.nextGeneration = w.slots[k]?.map Slot.nextGeneration := by
  rw [getElem?_closeGap, Option.map_map]
  cases w.slots[k]? <;> simp

@[simp] theorem nextGeneration_update (w : World) (e : Entity) (f : Components → Components)
    (id : Nat) : (w.update e f).nextGeneration id = w.nextGeneration id := by
  unfold update
  split
  · next g c seat hslot =>
    split
    · split
      · unfold nextGeneration
        rw [map_nextGeneration_set]
        intro old hold
        obtain rfl : ⟨g, .held c seat⟩ = old := by simpa [hslot] using hold
        rfl
      · unfold nextGeneration
        rw [map_nextGeneration_set, map_nextGeneration_closeGap]
        intro old hold
        rw [getElem?_closeGap, hslot] at hold
        obtain rfl := Option.some.inj hold
        rw [nextGeneration_closeGap]
        rfl
    · rfl
  · rfl

@[simp] theorem nextGeneration_updateAll (w : World) (f : Components → Components) (id : Nat) :
    (w.updateAll f).nextGeneration id = w.nextGeneration id := by
  simp only [nextGeneration, updateAll, List.getElem?_map]
  cases w.slots[id]? with
  | none => rfl
  | some s => rcases s with ⟨g, _ | ⟨c, seat⟩⟩ <;> rfl

@[simp] theorem nextGeneration_despawn (w : World) (e : Entity) (id : Nat) :
    (w.despawn e).nextGeneration id = w.nextGeneration id := by
  unfold despawn
  split
  · next g c seat hslot =>
    split
    · unfold nextGeneration
      rw [map_nextGeneration_set, map_nextGeneration_closeGap]
      intro old hold
      rw [getElem?_closeGap, hslot] at hold
      obtain rfl := Option.some.inj hold
      rw [nextGeneration_closeGap]
      rfl
    · rfl
  · rfl

/-- An arrival takes the next generation of its identifier and uses it up. -/
theorem nextGeneration_spawn (w : World) (c : Components) (id : Nat) :
    (w.spawn c).1.generation = w.nextGeneration (w.spawn c).1.id ∧
      (w.spawn c).2.nextGeneration id =
        if id = (w.spawn c).1.id then (w.spawn c).1.generation + 1 else w.nextGeneration id := by
  unfold spawn
  cases groupFor w.groups c.signature with
  | mk group groups =>
    cases hv : w.lastVacated? with
    | some vacated =>
      obtain ⟨generation, depth, hslot⟩ := lastVacated?_spec hv
      have hlt : vacated < w.slots.length := (List.getElem?_eq_some_iff.mp hslot).1
      simp only [hslot, Option.map_some, Option.getD_some, nextGeneration, List.getElem?_set]
      refine ⟨rfl, ?_⟩
      by_cases hid : vacated = id
      · subst hid
        simp [hlt, Slot.nextGeneration]
      · simp [hid, Ne.symm hid]
    | none =>
      simp only [nextGeneration]
      refine ⟨by simp, ?_⟩
      by_cases hid : id = w.slots.length
      · simp [hid, Slot.nextGeneration]
      · by_cases hlt : id < w.slots.length
        · simp [List.getElem?_append_left hlt, hid]
        · have hnone : w.slots[id]? = none := by rw [List.getElem?_eq_none_iff]; omega
          have hmore : (w.slots ++ [⟨1, .held c ⟨group, w.seatedIn group⟩⟩])[id]? = none := by
            rw [List.getElem?_eq_none_iff, List.length_append, List.length_singleton]; omega
          simp [hmore, hnone, hid]

theorem unborn_spawn (w : World) (c : Components) : w.Unborn (w.spawn c).1 :=
  Nat.le_of_eq (nextGeneration_spawn w c 0).1.symm

theorem unborn_of_unborn_spawn {w : World} {c : Components} {e : Entity}
    (h : (w.spawn c).2.Unborn e) : w.Unborn e := by
  have hnew := (nextGeneration_spawn w c e.id).1
  have hnext := (nextGeneration_spawn w c e.id).2
  unfold Unborn at *
  rw [hnext] at h
  split at h
  · next hid => rw [hid, ← hnew]; omega
  · exact h

theorem not_unborn_of_contains {w : World} {e : Entity} (h : w.contains e = true) :
    ¬ w.Unborn e := by
  obtain ⟨c, hc⟩ := Option.isSome_iff_exists.mp h
  obtain ⟨seat, hslot⟩ := get?_eq_some_iff.mp hc
  simp [Unborn, nextGeneration, hslot, Slot.nextGeneration]

end World

end Hostility
