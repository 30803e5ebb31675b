import Hostility.Proofs.CallSpacing
import Hostility.Proofs.Natures
import Hostility.Proofs.ThinkLedger

/-!
What a call for help makes of the world. Whoever heeds it is pointed at the enemy, and gets an entry
for it if it keeps a ledger and the name of the enemy is not reserved. Nobody else changes at all.
-/
namespace Hostility

open Hostility.Action

variable {setting : Setting} {radius : Float} {caller enemy ally e : Entity}
  {allies : List Entity} {s : State} {w w' : World} {parts : Components}

theorem World.SameNature.sameFolk (h : w.SameNature w') : w.SameFolk w' where
  contains := h.contains_eq
  allegiance? e := h.bind_eq (fun _ => rfl) e
  next := h.next

namespace Alert

/-- The parts of whoever heeds a call about an enemy. -/
def heeding (t : Tuning) (enemy : Entity) (reserved strikesOwn : Bool) (parts : Components) :
    Components :=
  match parts.controller with
  | some c =>
    { parts with
      controller := some (pointAt c enemy strikesOwn)
      ledger :=
        if !c.profile.legacyMode && !reserved then
          some ((parts.ledger.getD .empty).seed enemy t.threatMinimum).1
        else parts.ledger }
  | none => parts

section Parts

variable (t : Tuning) (enemy : Entity) (reserved strikesOwn : Bool) (parts : Components)

theorem heeding_of_controller {c : Controller} (hc : parts.controller = some c) :
    heeding t enemy reserved strikesOwn parts =
      { parts with
        controller := some (pointAt c enemy strikesOwn)
        ledger :=
          if !c.profile.legacyMode && !reserved then
            some ((parts.ledger.getD .empty).seed enemy t.threatMinimum).1
          else parts.ledger } := by
  simp only [heeding, hc]

theorem heeding_of_no_controller (hc : parts.controller = none) :
    heeding t enemy reserved strikesOwn parts = parts := by
  simp only [heeding, hc]

end Parts

/-- Waking an ally changes the ally only. -/
theorem get?_wake (t : Tuning) (caller enemy : Entity) (retaliates : Bool) (ally e : Entity)
    (s : State) :
    (wake t caller enemy retaliates ally s).state.world.get? e =
      if e = ally then
        (s.world.get? ally).map (heeding t enemy (Threat.isReserved t s.world enemy)
          (sharesFaction s.world ally enemy && retaliates))
      else s.world.get? e := by
  cases hc : s.world.controller? ally with
  | none =>
    rw [wake_of_no_controller t caller enemy retaliates hc]
    split
    · next he =>
      subst he
      cases hparts : s.world.get? e with
      | none => rfl
      | some parts =>
        rw [World.controller?, hparts, Option.bind_some] at hc
        rw [Option.map_some, heeding_of_no_controller _ _ _ _ _ hc]
    · rfl
  | some c =>
    obtain ⟨parts, hparts, hown⟩ := Option.bind_eq_some_iff.mp hc
    let strikesOwn := sharesFaction s.world ally enemy && retaliates
    let pointed := s.world.setController ally (pointAt c enemy strikesOwn)
    have hreserved : Threat.isReserved t pointed enemy = Threat.isReserved t s.world enemy :=
      (World.SameNature.update (by intro _; rfl) s.world ally).isReserved_eq t enemy
    have hpointed (e : Entity) : pointed.get? e =
        if e = ally then some { parts with controller := some (pointAt c enemy strikesOwn) }
        else s.world.get? e := by
      rw [show pointed = s.world.update ally _ from rfl, World.get?_update, hparts, Option.map_some]
    rw [hparts, Option.map_some, heeding_of_controller _ _ _ _ _ hown, ← hreserved]
    unfold wake
    rw [world_bind, hc]
    show World.get? (if _ then seedEnemy t pointed ally enemy else pointed) e = _
    split
    · rw [seedEnemy, World.get?_update, hpointed, hpointed, if_pos rfl]
      split <;> rfl
    · exact hpointed e

theorem wake_natural (t : Tuning) (caller enemy : Entity) (retaliates : Bool) (ally : Entity) :
    Follows Course.natural (wake t caller enemy retaliates ally) :=
  (Engine.natural_pieces { tuning := t }).wake caller enemy retaliates ally

/-- The allies are woken one after the other, and each as if it were the only one. -/
theorem get?_forEach_wake (t : Tuning) (caller enemy : Entity) (retaliates : Bool)
    (hnodup : allies.Nodup) (e : Entity) (s : State) :
    (forEach (wake t caller enemy retaliates) allies s).state.world.get? e =
      if e ∈ allies then
        (s.world.get? e).map (heeding t enemy (Threat.isReserved t s.world enemy)
          (sharesFaction s.world e enemy && retaliates))
      else s.world.get? e := by
  induction allies generalizing s with
  | nil => rfl
  | cons ally allies ih =>
    obtain ⟨hfirst, hrest⟩ := List.nodup_cons.mp hnodup
    let first := (wake t caller enemy retaliates ally s).state
    have hnature : s.world.SameNature first.world := wake_natural t caller enemy retaliates ally s
    have hown : first.world.get? e = _ := get?_wake t caller enemy retaliates ally e s
    obtain ⟨_, hok⟩ := wake_accepted t caller enemy retaliates ally s
    have hwoken : forEach (wake t caller enemy retaliates) (ally :: allies) s = _ := bind_of_ok hok
    have hend : (forEach (wake t caller enemy retaliates) (ally :: allies) s).state =
        (forEach (wake t caller enemy retaliates) allies first).state := by rw [hwoken]
    rw [hend, ih hrest, hown, hnature.isReserved_eq,
      hnature.sameFolk.sharesFaction_eq]
    by_cases he : e = ally
    · subst he
      simp [hfirst]
    · simp [he]

/-- Whom a call reaches: nobody if it comes too soon after the last one about the same enemy. -/
def reach (setting : Setting) (s : State) (caller enemy : Entity) : List Entity :=
  if onCooldown setting.tuning s.alerts s.now enemy then []
  else listeners setting.visibility s.world caller enemy

/-- Nobody hears its own call. -/
theorem ne_of_mem_reach (hv : setting.visibility = .proximity radius)
    (h : e ∈ reach setting s caller enemy) : e ≠ caller := by
  unfold reach at h
  split at h
  · cases h
  · obtain ⟨own, -, hanswers⟩ := mem_listeners.mp h
    rw [hv] at hanswers
    exact answering_ne hanswers

/-- Whoever is reached is an actor. -/
theorem controller_of_mem_reach (h : e ∈ reach setting s caller enemy) :
    ∃ c, s.world.controller? e = some c := by
  unfold reach at h
  split at h
  · cases h
  · obtain ⟨own, -, hanswers⟩ := mem_listeners.mp h
    obtain ⟨c, hc, -⟩ := asleep_of_mem_answering hanswers
    exact ⟨c, hc⟩

/-- A call changes those whom it reaches and nobody else, and tells of each of them. -/
theorem propagate_effect (hv : setting.visibility = .proximity radius) (caller enemy : Entity)
    (s : State) :
    let reached := reach setting s caller enemy
    let retaliates := callerRetaliates s.world caller enemy
    let called := propagate setting caller enemy s
    called.result = .ok reached ∧
      (∀ e, called.state.world.get? e =
        if e ∈ reached then
          (s.world.get? e).map (heeding setting.tuning enemy
            (Threat.isReserved setting.tuning s.world enemy)
            (sharesFaction s.world e enemy && retaliates))
        else s.world.get? e) ∧
      called.events.filter Event.isAlert =
        reached.map fun ally => .allyAlerted caller ally enemy := by
  intro reached retaliates called
  cases hcooldown : onCooldown setting.tuning s.alerts s.now enemy with
  | true =>
    have hnobody : reached = [] := by simp [reached, reach, hcooldown]
    have hcalled : called = ⟨.ok [], s, []⟩ := propagate_of_onCooldown hcooldown
    rw [hcalled, hnobody]
    exact ⟨rfl, fun _ => rfl, rfl⟩
  | false =>
    have hreached : reached = listeners setting.visibility s.world caller enemy := by
      simp [reached, reach, hcooldown]
    let noted := { s with alerts := EntityMap.insert s.alerts enemy s.now }
    have hcalled : called = ⟨.ok reached,
        (forEach (wake setting.tuning caller enemy retaliates) reached noted).state,
        (forEach (wake setting.tuning caller enemy retaliates) reached noted).events⟩ := by
      rw [hreached]
      exact propagate_of_not_onCooldown hcooldown
    have hnodup : reached.Nodup := by
      rw [hreached, hv, listeners]
      cases s.world.allegiance? caller with
      | none => exact .nil
      | some own => exact answering_nodup caller enemy own
    have htold := forEach_wake_told setting.tuning caller enemy retaliates reached noted
    rw [hcalled]
    exact ⟨rfl, fun e => get?_forEach_wake setting.tuning caller enemy retaliates hnodup e noted,
      htold.2.2⟩

end Alert

end Hostility
