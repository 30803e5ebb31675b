import Hostility.Proofs.Hosting
import Hostility.Proofs.Picks
import Hostility.Proofs.Sightings
import Hostility.Proofs.ThinkStages

/-!
The target that a think ends with. Whoever is acquired in a think was found in it. A selection that
acquires nobody leaves the previous target where it is, and then the actor may end its think with
one that it did not find, be it out of reach, dead or gone.
-/
namespace Hostility

variable {actor : Entity} {s : State}

open Hostility.Action

namespace Engine

variable {candidates : List Candidate}

theorem selectOnce_isAmong {setting : Setting} {c : Controller} {choice : Choice}
    (h : (selectOnce setting actor c candidates s).result = .ok choice) :
    choice.IsAmong candidates := by
  unfold selectOnce at h
  rw [world_bind] at h
  by_cases hmode : c.profile.legacyMode = true
  · rw [if_pos hmode] at h
    obtain rfl := Except.ok.inj h
    exact Selection.byTactic_isAmong _ _ _ _ _ candidates _
  · rw [if_neg hmode] at h
    cases hl : s.world.ledger? actor with
    | none =>
      rw [hl] at h
      obtain rfl := Except.ok.inj h
      exact .empty candidates
    | some l =>
      rw [hl] at h
      obtain rfl := Except.ok.inj h
      exact Selection.byThreat_isAmong _ l candidates s.random

/-- Those who slip away are left out, and nobody joins. -/
theorem selectUndeceived_isAmong {setting : Setting} {c : Controller} {tries : Nat}
    {choice : Choice}
    (h : (selectUndeceived setting actor c tries candidates s).result = .ok choice) :
    choice.IsAmong candidates := by
  induction tries generalizing candidates s with
  | zero => exact selectOnce_isAmong h
  | succ tries ih =>
    obtain ⟨picked, hpicked, h⟩ := ok_of_bind_ok h
    have hamong := selectOnce_isAmong hpicked
    cases picked with
    | kept target => obtain rfl := Except.ok.inj h; exact hamong
    | rejected bits => obtain rfl := Except.ok.inj h; exact hamong
    | empty => obtain rfl := Except.ok.inj h; exact hamong
    | chosen target =>
      obtain ⟨attempt, -, h⟩ := ok_of_bind_ok h
      dsimp only at h
      by_cases hdeceived : attempt = some true
      · rw [if_pos hdeceived] at h
        split at h
        · obtain rfl := Except.ok.inj h
          exact .empty candidates
        · exact (ih h).mono fun _ hk => (List.mem_filter.mp hk).1
      · rw [if_neg hdeceived] at h
        obtain rfl := Except.ok.inj h
        exact hamong

theorem choose_isAmong {setting : Setting} {c : Controller} {choice : Choice}
    (h : (choose setting actor c candidates s).result = .ok choice) :
    choice.IsAmong candidates := by
  obtain ⟨_, -, h⟩ := ok_of_bind_ok h
  obtain ⟨picked, hpicked, h⟩ := ok_of_bind_ok h
  obtain ⟨_, -, h⟩ := ok_of_bind_ok h
  obtain rfl := Except.ok.inj h
  exact selectUndeceived_isAmong hpicked

theorem settle_target (c : Controller) (actor : Entity) (choice : Choice) :
    (settle c actor choice).1.target = choice.target?.or c.target := by
  cases choice with
  | chosen target => exact c.target_engage actor target
  | kept target => exact c.target_engage actor target
  | rejected bits => rfl
  | empty => rfl

theorem settle_profile (c : Controller) (actor : Entity) (choice : Choice) :
    (settle c actor choice).1.profile = c.profile := by
  cases choice with
  | chosen target => exact c.profile_engage actor target
  | kept target => exact c.profile_engage actor target
  | rejected bits => rfl
  | empty => rfl

theorem settle_retaliation (c : Controller) (actor : Entity) (choice : Choice) :
    (settle c actor choice).1.retaliation = c.retaliation := by
  cases choice with
  | chosen target => exact c.retaliation_engage actor target
  | kept target => exact c.retaliation_engage actor target
  | rejected bits => rfl
  | empty => rfl

theorem acquired_mem_engage {c : Controller} {target e : Entity} :
    .targetAcquired actor e ∈ (c.engage actor target).2 ↔ e = target := by
  have hchanges : .targetAcquired actor e ∉
      (Controller.transition { c with target := some target } actor .engaged).2 := by
    intro h
    cases Controller.eq_of_mem_transition h
  have hnews : .targetAcquired actor e ∉
      (if c.target = some target then [] else [Event.newEnemy actor c.target target]) := by
    split <;> simp
  unfold Controller.engage
  rw [List.mem_append, List.mem_append, List.mem_singleton]
  constructor
  · rintro ((h | h) | h)
    · exact absurd h hnews
    · exact absurd h hchanges
    · exact (Event.targetAcquired.inj h).2
  · rintro rfl
    exact .inr rfl

/-- A settled choice tells of the acquisition of its target and of no other. -/
theorem acquired_mem_settle {c : Controller} {choice : Choice} {e : Entity} :
    .targetAcquired actor e ∈ (settle c actor choice).2 ↔ choice.target? = some e := by
  have hsame : ∀ target, e = target ↔ some target = some e := by
    intro target
    rw [Option.some.injEq, eq_comm]
  cases choice with
  | chosen target => exact acquired_mem_engage.trans (hsame target)
  | kept target => exact acquired_mem_engage.trans (hsame target)
  | rejected bits => simp [settle, Choice.target?]
  | empty => simp [settle, Choice.target?]

/-- A think of an actor that finds somebody ends with the one that it acquires, who was found, or
else with its previous target. -/
theorem target_of_think {setting : Setting} {c : Controller}
    (hc : s.world.controller? actor = some c)
    (hfound : found setting (upkeep setting.tuning actor s).state.world actor
      c.noteMode.markThought ≠ []) :
    ∃ choice : Choice,
      choice.IsAmong (found setting (upkeep setting.tuning actor s).state.world actor
        c.noteMode.markThought) ∧
      (think setting actor s).result = .ok (choice.target?.or c.target) ∧
      ∀ e, .targetAcquired actor e ∈ (think setting actor s).events ↔ choice.target? = some e := by
  obtain ⟨choice, hchoice, hrun⟩ := think_of_somebody hc hfound
  refine ⟨choice, choose_isAmong hchoice, ?_, fun e => ?_⟩
  · rw [hrun]
    dsimp only
    rw [settle_target, Controller.target_rouse]
    rfl
  · have hbefore := (upkeep_tended setting.tuning hc).events
    have hstored := ((upkeep_tended setting.tuning hc).world.controller?_eq actor).trans hc
    have hroused : .targetAcquired actor e ∉ (c.noteMode.markThought.rouse actor).2 := by
      intro h
      cases Controller.eq_of_mem_rouse h
    have hchosen := (choose_tended setting (c.noteMode.markThought.rouse actor).1
      (found setting (upkeep setting.tuning actor s).state.world actor c.noteMode.markThought)
      (World.contains_of_bind hstored)).events
    rw [hrun]
    dsimp only
    simp only [List.mem_append]
    constructor
    · rintro (h | h | h | h | h)
      · exact False.elim (hbefore _ h)
      · exact absurd h hroused
      · exact False.elim (hchosen _ h)
      · exact acquired_mem_settle.mp h
      · exact False.elim (alarm_calls setting actor _ _ _ _ h)
    · exact fun h => .inr (.inr (.inr (.inl (acquired_mem_settle.mpr h))))

/-- A think ends with a target that it did not find exactly when it finds others, acquires none of
them, and the target is the previous one. -/
theorem think_keeps_lost_target_iff {setting : Setting} {c : Controller}
    (hc : s.world.controller? actor = some c) (target : Entity) :
    let candidates := found setting (upkeep setting.tuning actor s).state.world actor
      c.noteMode.markThought
    let thought := think setting actor s
    (thought.result = .ok (some target) ∧ ∀ k ∈ candidates, k.entity ≠ target) ↔
      c.target = some target ∧ candidates ≠ [] ∧ (∀ k ∈ candidates, k.entity ≠ target) ∧
        ∀ e, .targetAcquired actor e ∉ thought.events := by
  intro candidates thought
  by_cases hfound : candidates = []
  · have hresult : thought.result = .ok none := by
      show (think setting actor s).result = _
      rw [think_of_nobody hc hfound]
    rw [hresult]
    simp [hfound]
  · obtain ⟨choice, hamong, hresult, hacquired⟩ := target_of_think hc hfound
    rw [show thought.result = _ from hresult]
    constructor
    · rintro ⟨htarget, hlost⟩
      have hnobody : choice.target? = none := by
        cases hchoice : choice.target? with
        | none => rfl
        | some e =>
          obtain ⟨k, hk, hentity⟩ := hamong e hchoice
          rw [hchoice] at htarget
          exact absurd (hentity.trans (Option.some.inj (Except.ok.inj htarget))) (hlost k hk)
      rw [hnobody] at htarget
      refine ⟨Except.ok.inj htarget, hfound, hlost, fun e he => ?_⟩
      have hsome := (hacquired e).mp he
      rw [hnobody] at hsome
      cases hsome
    · rintro ⟨htarget, -, hlost, hnobody⟩
      refine ⟨?_, hlost⟩
      cases hchoice : choice.target? with
      | none => rw [htarget]; rfl
      | some e => exact absurd ((hacquired e).mpr hchoice) (hnobody e)

/-- An orc with one tactic that is known and one that is not, and two players in its sight. -/
def ambush : State where
  world :=
    let orc : Components :=
      { name := some "orc"
        position := some ⟨0.0, 0.0, 0.0⟩
        health := some (.full 100.0)
        controller := some (.ofProfile (({} : Profile).withLegacyTactics ⟨4224⟩)) }
    let player (name : String) (x : Float) : Components :=
      { name := some name
        position := some ⟨x, 0.0, 0.0⟩
        health := some (.full 100.0)
        targetable := some .player }
    (((World.empty.spawn orc).2.spawn (player "Aria" 3.0)).2.spawn (player "Bram" 5.0)).2
  random := .cycle [0, 4294967295, 4294967295]
  now := 0
  alerts := ∅

theorem ambush_allFresh : ambush.world.AllFresh := by
  refine ((World.allFresh_empty.spawn ?_).spawn ?_).spawn ?_
  · rintro c ⟨⟩
    rfl
  · rintro c ⟨⟩
  · rintro c ⟨⟩

/-- The orc finds Aria the nearest, and she leaves the world. -/
def escaped : State :=
  (playOut {} [.ask (.think ⟨0, 1⟩), .host (.despawn ⟨1, 1⟩)] ambush).state

/-- The controller of the orc before it thinks. -/
def calm : Controller := .ofProfile (({} : Profile).withLegacyTactics ⟨4224⟩)

/-- The controller of the orc after it found Aria. -/
def aroused : Controller :=
  { calm with
    state := .engaged
    target := some ⟨1, 1⟩
    lastLegacyMode := some true
    sinceThink := 0.0 }

/-- The sort behind the order of the world does not evaluate, so the first think is replaced by what
it does among those it finds. -/
theorem escaped_eq :
    escaped = (Change.despawn ⟨1, 1⟩).apply
      (thinkAmong {} ⟨0, 1⟩ .idle calm.noteMode.markThought
        [⟨⟨1, 1⟩, 3.0, .player, none⟩, ⟨⟨2, 1⟩, 5.0, .player, none⟩]
        (upkeep {} ⟨0, 1⟩ ambush).state).state := by
  have hcalm : ambush.world.controller? ⟨0, 1⟩ = some calm := by decide +kernel
  have hboth : found {} (upkeep {} ⟨0, 1⟩ ambush).state.world ⟨0, 1⟩ calm.noteMode.markThought =
      [⟨⟨1, 1⟩, 3.0, .player, none⟩, ⟨⟨2, 1⟩, 5.0, .player, none⟩] := by
    rw [found_of_entities rfl (World.entities_of_sorted (by decide +kernel))]
    decide +kernel
  have hplayed : escaped = (Change.despawn ⟨1, 1⟩).apply (think {} ⟨0, 1⟩ ambush).state := rfl
  rw [hplayed, think_of_found hcalm hboth (by simp)]
  rfl

theorem controller?_escaped : escaped.world.controller? ⟨0, 1⟩ = some aroused := by
  rw [escaped_eq]
  decide +kernel

/-- Only Bram is left to be found. -/
theorem found_escaped :
    found {} (upkeep {} ⟨0, 1⟩ escaped).state.world ⟨0, 1⟩ aroused.noteMode.markThought =
      [⟨⟨2, 1⟩, 5.0, .player, none⟩] := by
  rw [escaped_eq, found_of_entities rfl (World.entities_of_sorted (by decide +kernel))]
  decide +kernel

/-- The orc draws the bit that names no tactic, and ends its think with Aria. -/
theorem result_escaped : (think {} ⟨0, 1⟩ escaped).result = .ok (some ⟨1, 1⟩) := by
  rw [think_of_found controller?_escaped found_escaped (by simp), escaped_eq]
  rfl

theorem escaped_acquires_nobody :
    escaped.world.controller? ⟨0, 1⟩ = some aroused ∧
      ∀ e, .targetAcquired ⟨0, 1⟩ e ∉ (think {} ⟨0, 1⟩ escaped).events := by
  have hlost : ∀ k ∈ found {} (upkeep {} ⟨0, 1⟩ escaped).state.world ⟨0, 1⟩
      aroused.noteMode.markThought, k.entity ≠ ⟨1, 1⟩ := by
    rw [found_escaped]
    decide
  have hkept :=
    (think_keeps_lost_target_iff controller?_escaped ⟨1, 1⟩).mp ⟨result_escaped, hlost⟩
  exact ⟨controller?_escaped, hkept.2.2.2⟩

/-- A run from fresh controllers ends with a think that answers with someone who is gone. -/
theorem escaped_think_answers_gone :
    ambush.world.AllFresh ∧
      (think {} ⟨0, 1⟩
        (playOut {} [.ask (.think ⟨0, 1⟩), .host (.despawn ⟨1, 1⟩)] ambush).state).result =
          .ok (some ⟨1, 1⟩) ∧
      (playOut {} [.ask (.think ⟨0, 1⟩), .host (.despawn ⟨1, 1⟩)] ambush).state.world.contains
        ⟨1, 1⟩ = false := by
  refine ⟨ambush_allFresh, result_escaped, ?_⟩
  show escaped.world.contains ⟨1, 1⟩ = false
  rw [escaped_eq]
  decide +kernel

end Engine

end Hostility
