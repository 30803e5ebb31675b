import Mathlib.Tactic.MkIffOfInductiveProp
import Hostility.Proofs.Heeding

/-!
Who answers a call for help and what becomes of them, exactly. With sight as the way of perceiving,
those who answer are the ones in sight who heed the caller, in the order of the sightings. Each of
them turns to the enemy, and whoever does not answer stays as it is.
-/
namespace Hostility

open Hostility.Action

variable {setting : Setting} {radius : Float} {caller enemy e : Entity} {own : Allegiance}
  {c : Controller} {s : State} {w : World} {parts : Components} {p q : Position}

namespace Alert

/-- Whether somebody that a caller sees answers its call about an enemy. It hears from its own
place, and a call at the very end of its range is heard. -/
@[mk_iff]
structure Heeds (w : World) (caller enemy e : Entity) : Prop where
  ne_enemy : e ≠ enemy
  present : w.isPresent e = true
  asleep : ∃ c ∈ w.controller? e, c.state ≠ .awake ∧ c.state ≠ .engaged
  listens : ∃ c ∈ w.controller? e, c.profile.ignoresAlerts = false
  hears : ∃ c ∈ w.controller? e, ∃ p ∈ w.position? e, ∃ q ∈ w.position? caller,
    ¬ c.profile.auralRange < p.distance q
  kin : ∃ theirs ∈ w.allegiance? e, ∃ own ∈ w.allegiance? caller,
    theirs.kinship.isKin own.kinship = true

instance (w : World) (caller enemy e : Entity) : Decidable (Heeds w caller enemy e) :=
  decidable_of_iff _ (heeds_iff w caller enemy e).symm

theorem answers_iff_heeds (hown : w.allegiance? caller = some own)
    (hp : w.position? e = some p) (hq : w.position? caller = some q) :
    e ≠ enemy ∧ answers w own e (p.distance q) = true ↔ Heeds w caller enemy e := by
  obtain ⟨parts, hparts, -⟩ := Option.bind_eq_some_iff.mp hp
  have hcontroller : w.controller? e = parts.controller := by
    rw [World.controller?, hparts, Option.bind_some]
  have hallegiance : w.allegiance? e = parts.allegiance := by
    rw [World.allegiance?, hparts, Option.bind_some]
  rw [heeds_iff, hown, hp, hq, hcontroller, hallegiance, World.isPresent, answers, hparts]
  cases hc : parts.controller with
  | none => simp [hc]
  | some c =>
    cases htheirs : parts.allegiance with
    | none => simp [hc, htheirs]
    | some theirs =>
      simp [hc, htheirs, Awareness.isAwake_eq_false_iff, and_assoc, and_left_comm]

/-- Those who answer are those in sight who heed the caller. -/
theorem listeners_eq_filter (radius : Float) (w : World) (caller enemy : Entity) :
    listeners (.proximity radius) w caller enemy =
      (((Visibility.proximity radius).visible w caller).map (·.entity)).filter
        fun e => decide (Heeds w caller enemy e) := by
  unfold listeners
  cases hown : w.allegiance? caller with
  | none =>
    -- Nobody is kin to a caller without an allegiance.
    symm
    rw [List.filter_eq_nil_iff]
    intro e _ hheeds
    obtain ⟨_, _, own, hnone, _⟩ := (of_decide_eq_true hheeds).kin
    simp [hown] at hnone
  | some own =>
    dsimp only
    rw [answering, List.filter_filter, List.filter_map]
    congr 1
    refine List.filter_congr fun seen hseen => ?_
    -- Both have a place, so the distance in the sighting is never fallen back on.
    obtain ⟨p, q, hp, hq⟩ := Visibility.exists_position_of_mem_proximity hseen
    have hdistance :
        (Visibility.proximity radius).distance w seen.entity caller = some (p.distance q) := by
      simp only [Visibility.proximity, hp, hq]
    rw [hdistance, Option.getD_some, Bool.eq_iff_iff, Function.comp_apply, decide_eq_true_eq,
      ← answers_iff_heeds hown hp hq]
    simp [and_comm]

end Alert

/-- How an actor turns to an enemy. Its controller engages the enemy, and may have one more member
of its own faction to strike at; its ledger may have one more entry. Nothing else changes. -/
structure Components.TurnsTo (enemy : Entity) (floor : Int64) (reserved strikesOwn : Bool)
    (c : Controller) (parts parts' : Components) : Prop where
  controller : parts.controller = some c
  frame : parts' =
    { parts with
      controller := some
        { c with
          state := .engaged
          target := some enemy
          retaliation := if strikesOwn then c.retaliation.add enemy else c.retaliation }
      ledger := parts'.ledger }
  ledger_of_threat : c.profile.legacyMode = false → reserved = false →
    let old := parts.ledger.getD .empty
    ∃ l, parts'.ledger = some l ∧ l.value? enemy = some ((old.value? enemy).getD floor) ∧
      (∀ k, k ≠ enemy → l.value? k = old.value? k) ∧ l.gained = old.gained ∧
      l.outlook = old.outlook
  ledger_of_legacy : c.profile.legacyMode = true ∨ reserved = true → parts'.ledger = parts.ledger

namespace Alert

theorem heeding_turnsTo (t : Tuning) (enemy : Entity) (reserved strikesOwn : Bool)
    (hc : parts.controller = some c) :
    parts.TurnsTo enemy t.threatMinimum reserved strikesOwn c
      (heeding t enemy reserved strikesOwn parts) := by
  rw [heeding_of_controller _ _ _ _ _ hc]
  constructor
  · exact hc
  · cases strikesOwn <;> rfl
  · intro hthreat hname old
    have hseeds : (!c.profile.legacyMode && !reserved) = true := by simp [hthreat, hname]
    refine ⟨_, if_pos hseeds, ?_, fun k hk => ?_, ?_, ?_⟩
    · rw [Ledger.value?_seed, if_pos rfl]
      cases old.value? enemy <;> rfl
    · rw [Ledger.value?_seed, if_neg hk, Option.or_none]
    · exact old.gained_seed enemy t.threatMinimum
    · exact old.outlook_seed enemy t.threatMinimum
  · intro hleft
    have hkeeps : (!c.profile.legacyMode && !reserved) = false := by
      rcases hleft with h | h <;> simp [h]
    exact if_neg (by simp [hkeeps])

/-- A call about an enemy that comes too soon does nothing. Any other call is noted, and answered by
those in sight who heed the caller, in the order of the sightings. Each of them turns to the enemy,
and nobody else changes. A caller without an allegiance is heard by nobody. -/
theorem propagate_exact (hv : setting.visibility = .proximity radius) (caller enemy : Entity)
    (s : State) :
    let t := setting.tuning
    let called := propagate setting caller enemy s
    let w := s.world
    let w' := called.state.world
    let allies := (((Visibility.proximity radius).visible w caller).map (·.entity)).filter
      fun e => decide (Heeds w caller enemy e)
    (onCooldown t s.alerts s.now enemy = true → called = ⟨.ok [], s, []⟩) ∧
    (onCooldown t s.alerts s.now enemy = false →
      let noted := EntityMap.insert s.alerts enemy s.now
      (w.allegiance? caller = none → called = ⟨.ok [], { s with alerts := noted }, []⟩) ∧
      called.result = .ok allies ∧ called.state.alerts = noted ∧
      (∀ e ∈ allies, ∃ c parts parts', w.get? e = some parts ∧ w'.get? e = some parts' ∧
        parts.TurnsTo enemy t.threatMinimum (Threat.isReserved t w enemy)
          (sharesFaction w e enemy && callerRetaliates w caller enemy) c parts') ∧
      ∀ e, e ∉ allies → w'.get? e = w.get? e) := by
  intro t called w w' allies
  refine ⟨propagate_of_onCooldown, fun hcooldown => ?_⟩
  intro noted
  have hallies : listeners setting.visibility w caller enemy = allies := by
    rw [hv, listeners_eq_filter]
  have hreach : reach setting s caller enemy = allies := by
    rw [reach, hcooldown, hallies]
    rfl
  have hcalled : called = _ := propagate_of_not_onCooldown hcooldown
  rw [show listeners setting.visibility s.world caller enemy = allies from hallies] at hcalled
  obtain ⟨hresult, hget, -⟩ := propagate_effect hv caller enemy s
  rw [hreach] at hresult hget
  refine ⟨fun hnone => ?_, hresult, ?_, fun e he => ?_, fun e he => (hget e).trans (if_neg he)⟩
  · have hnobody : allies = [] := by
      rw [← hallies, listeners, hnone]
    rw [hcalled, hnobody]
    rfl
  · rw [hcalled]
    exact (forEach_wake_told _ _ _ _ _ _).2.1
  · obtain ⟨c, hc⟩ := controller_of_mem_reach (hreach.symm ▸ he)
    obtain ⟨parts, hparts, hown⟩ := Option.bind_eq_some_iff.mp hc
    refine ⟨c, parts, _, hparts, ?_, heeding_turnsTo t enemy _ _ hown⟩
    rw [hget, if_pos he, hparts, Option.map_some]

/-- A novice of the orcs without a ledger. -/
def novice : Components :=
  { position := some ⟨1.0, 0.0, 0.0⟩
    allegiance := some ⟨⟨1⟩, .ofFriends "orc" []⟩
    controller := some (.ofProfile {}) }

/-- An elder of the outcast's own faction that already holds something against the outcast. -/
def elder : Components :=
  { position := some ⟨2.0, 0.0, 0.0⟩
    allegiance := some ⟨⟨2⟩, .ofFriends "orc" []⟩
    controller := some (.ofProfile {})
    ledger := some (Ledger.empty.add ⟨4, 1⟩ 50 100).1 }

/-- A scout that strikes back at an outcast, and three other orcs: the novice, one that does not
listen, and the elder. -/
def schism : State where
  world :=
    let scout : Components :=
      { novice with
        position := some ⟨0.0, 0.0, 0.0⟩
        controller := some ((Controller.ofProfile {}).retaliateAgainst ⟨4, 1⟩) }
    let deaf : Components :=
      { novice with
        controller := some (.ofProfile { tolerances := ⟨Tolerance.ignoreAlerts.mask⟩ }) }
    let outcast : Components :=
      { name := some "Grak"
        position := some ⟨3.0, 0.0, 0.0⟩
        allegiance := some ⟨⟨2⟩, .ofFriends "orc" []⟩ }
    let kin := ((World.empty.spawn scout).2.spawn novice).2
    (((kin.spawn deaf).2.spawn elder).2.spawn outcast).2
  random := .cycle [0]
  now := 0
  alerts := ∅

/-- The novice and the elder turn to the outcast, and only the elder may strike at its own. -/
theorem schism_propagate_exact :
    onCooldown {} schism.alerts schism.now ⟨4, 1⟩ = false ∧
      let called := propagate {} ⟨0, 1⟩ ⟨4, 1⟩ schism
      let w' := called.state.world
      called.result = .ok [⟨1, 1⟩, ⟨3, 1⟩] ∧
      (∃ parts', w'.get? ⟨1, 1⟩ = some parts' ∧
        novice.TurnsTo ⟨4, 1⟩ 100 false false (.ofProfile {}) parts') ∧
      (∃ parts', w'.get? ⟨3, 1⟩ = some parts' ∧
        elder.TurnsTo ⟨4, 1⟩ 100 false true (.ofProfile {}) parts') ∧
      ∀ e, e ≠ ⟨1, 1⟩ → e ≠ ⟨3, 1⟩ → w'.get? e = schism.world.get? e := by
  have hcooldown : onCooldown {} schism.alerts schism.now ⟨4, 1⟩ = false := by decide +kernel
  have hallies : (((Visibility.proximity 20.0).visible schism.world ⟨0, 1⟩).map (·.entity)).filter
      (fun e => decide (Heeds schism.world ⟨0, 1⟩ ⟨4, 1⟩ e)) = [⟨1, 1⟩, ⟨3, 1⟩] := by
    have hseen : (Visibility.proximity 20.0).visible schism.world ⟨0, 1⟩ =
        Visibility.scan 20.0 schism.world ⟨0, 1⟩ (schism.world.residents.map (·.1)) :=
      congrArg (Visibility.scan 20.0 schism.world ⟨0, 1⟩)
        (World.entities_of_sorted (by decide +kernel))
    rw [hseen]
    decide +kernel
  have hv : ({} : Setting).visibility = .proximity 20.0 := rfl
  obtain ⟨-, hlate⟩ := propagate_exact hv ⟨0, 1⟩ ⟨4, 1⟩ schism
  obtain ⟨-, hresult, -, hturns, hkept⟩ := hlate hcooldown
  rw [hallies] at hresult hturns hkept
  have hnovice : schism.world.get? ⟨1, 1⟩ = some novice := by decide +kernel
  have helder : schism.world.get? ⟨3, 1⟩ = some elder := by decide +kernel
  refine ⟨hcooldown, hresult, ?_, ?_, fun e h h' => hkept e (by simp [h, h'])⟩
  · obtain ⟨c, parts, parts', hparts, hparts', hturned⟩ := hturns ⟨1, 1⟩ (by simp)
    obtain rfl := Option.some.inj (hparts.symm.trans hnovice)
    obtain rfl := Option.some.inj (hturned.controller.symm.trans rfl)
    exact ⟨parts', hparts', hturned⟩
  · obtain ⟨c, parts, parts', hparts, hparts', hturned⟩ := hturns ⟨3, 1⟩ (by simp)
    obtain rfl := Option.some.inj (hparts.symm.trans helder)
    obtain rfl := Option.some.inj (hturned.controller.symm.trans rfl)
    exact ⟨parts', hparts', hturned⟩

end Alert

end Hostility
