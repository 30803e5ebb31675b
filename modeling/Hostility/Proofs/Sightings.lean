import Hostility.Engine.Think
import Hostility.World.Lemmas

/-!
Who is seen and who is found. A scan of positions sees nobody twice and never the one who scans,
and whoever is found by an actor is alive and breaks none of the rules.
-/
namespace Hostility

variable {w : World} {actor : Entity}

namespace Visibility

theorem entity_of_sight? {origin : Position} {radiusSquared : Float} {e : Entity} {seen : Sighting}
    (h : sight? w origin radiusSquared e = some seen) : seen.entity = e := by
  unfold sight? at h
  cases hplace : w.position? e with
  | none => simp [hplace] at h
  | some place =>
    simp only [hplace] at h
    split at h
    · obtain rfl := Option.some.inj h
      rfl
    · cases h

theorem proximity_nodup (radius : Float) (w : World) (e : Entity) :
    (((proximity radius).visible w e).map (·.entity)).Nodup := by
  show ((scan radius w e w.entities).map (·.entity)).Nodup
  unfold scan
  cases w.position? e with
  | none => exact List.nodup_nil
  | some origin =>
    have hnodup : (w.entities.filter fun k => !decide (k = e)).Nodup :=
      w.entities_nodup.sublist List.filter_sublist
    rw [List.nodup_iff_pairwise_ne] at hnodup
    rw [List.nodup_iff_pairwise_ne, List.pairwise_map]
    refine hnodup.filterMap _ fun k k' hne seen hseen seen' hseen' heq => hne ?_
    rw [← entity_of_sight? hseen, ← entity_of_sight? hseen', heq]

theorem ne_of_mem_proximity {radius : Float} {e : Entity} {seen : Sighting}
    (h : seen ∈ (proximity radius).visible w e) : seen.entity ≠ e := by
  replace h : seen ∈ scan radius w e w.entities := h
  unfold scan at h
  cases horigin : w.position? e with
  | none => simp [horigin] at h
  | some origin =>
    simp only [horigin] at h
    obtain ⟨k, hk, hseen⟩ := List.mem_filterMap.mp h
    rw [entity_of_sight? hseen]
    simpa using (List.mem_filter.mp hk).2

/-- A scan of positions shows only who has a place, and only to who has one. -/
theorem exists_position_of_mem_proximity {radius : Float} {e : Entity} {seen : Sighting}
    (h : seen ∈ (proximity radius).visible w e) :
    ∃ p q, w.position? seen.entity = some p ∧ w.position? e = some q := by
  replace h : seen ∈ scan radius w e w.entities := h
  unfold scan at h
  cases horigin : w.position? e with
  | none => simp [horigin] at h
  | some origin =>
    simp only [horigin] at h
    obtain ⟨k, -, hseen⟩ := List.mem_filterMap.mp h
    rw [entity_of_sight? hseen]
    cases hplace : w.position? k with
    | none => simp [sight?, hplace] at hseen
    | some place => exact ⟨place, origin, rfl, rfl⟩

end Visibility

namespace Observer

variable {o : Observer} {parts : Components} {seen : Sighting} {k : Candidate}

/-- A seen entity breaks none of the rules of an observer. -/
structure Accepts (o : Observer) (parts : Components) (seen : Sighting) : Prop where
  alive : parts.isAlive = true
  targetable : canTarget parts = true
  here : parts.transit.isSome = false
  unevaded : o.isEvaded parts = false
  detected : o.detects parts = true
  near : ¬ o.rangeSquared parts seen.entity < seen.distanceSquared
  fairGame : o.sharesFaction parts = true → o.controller.retaliates seen.entity = true
  unlocked : o.isLockedAway seen.entity = false
  prey : o.controller.profile.monstersOnly = true → (kindOf parts).isPlayerSide = false

theorem exclusion?_eq_none_iff : o.exclusion? parts seen = none ↔ o.Accepts parts seen := by
  constructor
  · intro h
    unfold exclusion? at h
    constructor <;> grind
  · intro h
    have hfair : (o.sharesFaction parts && !o.controller.retaliates seen.entity) = false := by
      cases hshares : o.sharesFaction parts with
      | false => rfl
      | true => simp [h.fairGame hshares]
    have hprey : (o.controller.profile.monstersOnly && (kindOf parts).isPlayerSide) = false := by
      cases hmonsters : o.controller.profile.monstersOnly with
      | false => rfl
      | true => simp [h.prey hmonsters]
    unfold exclusion?
    simp [h.alive, h.targetable, h.here, h.unevaded, h.detected, h.near, hfair, h.unlocked, hprey]

theorem evaluate_eq_ok_iff :
    o.evaluate w seen = .ok k ↔ ∃ parts, w.get? seen.entity = some parts ∧
      o.Accepts parts seen ∧ k = ⟨seen.entity, seen.distance, kindOf parts, parts.passive⟩ := by
  simp only [← exclusion?_eq_none_iff]
  unfold evaluate
  cases w.get? seen.entity with
  | none => simp
  | some parts =>
    cases hbroken : o.exclusion? parts seen with
    | some reason => simp [hbroken]
    | none => simp [hbroken, eq_comm]

theorem mem_candidates {sightings : List Sighting} :
    k ∈ o.candidates w sightings ↔
      ∃ seen ∈ sightings, seen.entity ≠ o.actor ∧ o.evaluate w seen = .ok k := by
  have hok : ∀ seen, (o.evaluate w seen).toOption = some k ↔ o.evaluate w seen = .ok k := by
    intro seen
    cases o.evaluate w seen <;> simp [Except.toOption]
  simp [candidates, hok, and_assoc]

/-- A lock leaves nobody but the target to be found. -/
theorem entity_eq_of_locked {sightings : List Sighting} {target : Entity}
    (hlocked : o.controller.profile.lockedToTarget = true)
    (htarget : o.controller.target = some target) (hk : k ∈ o.candidates w sightings) :
    k.entity = target := by
  obtain ⟨seen, -, -, hok⟩ := mem_candidates.mp hk
  obtain ⟨parts, -, haccepts, rfl⟩ := evaluate_eq_ok_iff.mp hok
  have hunlocked := haccepts.unlocked
  unfold isLockedAway at hunlocked
  rw [hlocked, htarget] at hunlocked
  have hsame : target = seen.entity := by simpa using hunlocked
  exact hsame.symm

end Observer

/-- An order of the world that is known gives those whom an actor finds by their positions. -/
theorem Engine.found_of_entities {setting : Setting} {radius : Float}
    (hv : setting.visibility = .proximity radius) {around : List Entity}
    (hentities : w.entities = around) (c : Controller) :
    found setting w actor c =
      (Observer.ofActor w actor c).candidates w (Visibility.scan radius w actor around) := by
  unfold found
  rw [hv, ← hentities]
  rfl

/-- Whoever is found is in the world and alive, and what is noted of it is true. -/
theorem Engine.parts_of_mem_found {setting : Setting} {c : Controller} {k : Candidate}
    (h : k ∈ found setting w actor c) :
    ∃ parts, w.get? k.entity = some parts ∧ parts.isAlive = true ∧ k.passive = parts.passive := by
  obtain ⟨seen, -, -, hok⟩ := Observer.mem_candidates.mp h
  obtain ⟨parts, hparts, haccepts, rfl⟩ := Observer.evaluate_eq_ok_iff.mp hok
  exact ⟨parts, hparts, haccepts.alive, rfl⟩

end Hostility
