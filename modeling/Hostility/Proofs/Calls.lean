import Hostility.Proofs.Sightings
import Hostility.Proofs.ThinkStages

/-!
What a call for help does. A call that comes too soon after the last one about the same enemy does
nothing. Any other call is noted, and wakes those who hear it one after the other.
-/
namespace Hostility

namespace Alert

open Hostility.Action

variable {setting : Setting} {caller enemy ally : Entity} {s : State} {w : World}

/-- Whoever answers is not the enemy, is asleep or on its way home, and is kin to the caller. -/
theorem parts_of_mem_answering {visibility : Visibility} {own : Allegiance}
    (h : ally ∈ answering visibility w caller enemy own) :
    ally ≠ enemy ∧ ∃ c theirs, w.controller? ally = some c ∧ c.state.isAwake = false ∧
      w.allegiance? ally = some theirs ∧ theirs.kinship.isKin own.kinship = true := by
  obtain ⟨seen, hseen, rfl⟩ := List.mem_map.mp h
  obtain ⟨hheard, hanswers⟩ := List.mem_filter.mp hseen
  refine ⟨by simpa using (List.mem_filter.mp hheard).2, ?_⟩
  unfold answers at hanswers
  cases hparts : w.get? seen.entity with
  | none => simp [hparts] at hanswers
  | some parts =>
    cases hc : parts.controller with
    | none => simp [hparts, hc] at hanswers
    | some c =>
      cases htheirs : parts.allegiance with
      | none => simp [hparts, htheirs] at hanswers
      | some theirs =>
        simp only [hparts, hc, htheirs, Bool.and_eq_true, Bool.not_eq_true'] at hanswers
        refine ⟨c, theirs, ?_, hanswers.1.1.1.1, ?_, hanswers.2⟩
        · rw [World.controller?, hparts, Option.bind_some, hc]
        · rw [World.allegiance?, hparts, Option.bind_some, htheirs]

theorem asleep_of_mem_answering {visibility : Visibility} {own : Allegiance}
    (h : ally ∈ answering visibility w caller enemy own) :
    ∃ c, w.controller? ally = some c ∧ c.state.isAwake = false := by
  obtain ⟨-, c, -, hc, hasleep, -⟩ := parts_of_mem_answering h
  exact ⟨c, hc, hasleep⟩

theorem answering_nodup {radius : Float} (caller enemy : Entity) (own : Allegiance) :
    (answering (.proximity radius) w caller enemy own).Nodup := by
  have hseen := Visibility.proximity_nodup radius w caller
  unfold answering
  exact hseen.sublist ((List.filter_sublist.trans List.filter_sublist).map _)

/-- Those who hear a caller and answer. Nobody answers a caller without an allegiance. -/
def listeners (visibility : Visibility) (w : World) (caller enemy : Entity) : List Entity :=
  match w.allegiance? caller with
  | some own => answering visibility w caller enemy own
  | none => []

theorem mem_listeners {visibility : Visibility} :
    ally ∈ listeners visibility w caller enemy ↔
      ∃ own, w.allegiance? caller = some own ∧
        ally ∈ answering visibility w caller enemy own := by
  unfold listeners
  cases w.allegiance? caller <;> simp

/-- Waking an ally points it at the enemy, and may give it an entry for the enemy. -/
theorem wake_of_controller (t : Tuning) (caller enemy : Entity) (callerRetaliates : Bool)
    {ally : Entity} {c : Controller} (hc : s.world.controller? ally = some c) :
    let strikesOwn := sharesFaction s.world ally enemy && callerRetaliates
    let pointed := s.world.setController ally (pointAt c enemy strikesOwn)
    ∃ w', wake t caller enemy callerRetaliates ally s = ⟨.ok (), { s with world := w' },
        [.stateChanged ally c.state .engaged, .allyAlerted caller ally enemy]⟩ ∧
      (w' = pointed ∨ w' = seedEnemy t pointed ally enemy) := by
  intro strikesOwn pointed
  unfold wake
  rw [world_bind, hc]
  refine ⟨_, rfl, ?_⟩
  split
  · exact .inr rfl
  · exact .inl rfl

theorem wake_of_no_controller (t : Tuning) (caller enemy : Entity) (callerRetaliates : Bool)
    (hc : s.world.controller? ally = none) :
    wake t caller enemy callerRetaliates ally s =
      ⟨.ok (), s, [.allyAlerted caller ally enemy]⟩ := by
  unfold wake
  rw [world_bind, hc]
  rfl

/-- Whether a caller may strike at an enemy although it is of its own faction. -/
def callerRetaliates (w : World) (caller enemy : Entity) : Bool :=
  match w.controller? caller with
  | some c => c.retaliates enemy
  | none => false

theorem propagate_of_onCooldown (h : onCooldown setting.tuning s.alerts s.now enemy = true) :
    propagate setting caller enemy s = ⟨.ok [], s, []⟩ := by
  unfold propagate
  rw [state_bind, if_pos h]
  rfl

theorem propagate_of_not_onCooldown
    (h : onCooldown setting.tuning s.alerts s.now enemy = false) :
    let noted := { s with alerts := EntityMap.insert s.alerts enemy s.now }
    let allies := listeners setting.visibility s.world caller enemy
    let woken := forEach (wake setting.tuning caller enemy
      (callerRetaliates s.world caller enemy)) allies noted
    propagate setting caller enemy s = ⟨.ok allies, woken.state, woken.events⟩ := by
  intro noted allies woken
  unfold propagate
  rw [state_bind, if_neg (by simp [h]), setAlerts_bind]
  cases hown : s.world.allegiance? caller with
  | none => simp [allies, woken, noted, listeners, hown, forEach, Action.pure]
  | some own =>
    have hallies : allies = answering setting.visibility s.world caller enemy own := by
      simp only [allies, listeners, hown]
    obtain ⟨_, hwoken⟩ : ∃ a, woken.result = .ok a :=
      Accepted.forEach (wake_accepted _ _ _ _) _ _
    dsimp only
    rw [← hallies]
    exact (bind_of_ok hwoken).trans (by simp [woken])

/-- An order of the world that is known gives those who answer by their positions. -/
theorem answering_of_entities {radius : Float} {around : List Entity} (h : w.entities = around)
    (own : Allegiance) :
    answering (.proximity radius) w caller enemy own =
      (((Visibility.scan radius w caller around).filter fun seen =>
        !decide (seen.entity = enemy)).filter fun seen =>
          answers w own seen.entity
            (((Visibility.proximity radius).distance w seen.entity caller).getD
              seen.distance)).map (·.entity) := by
  rw [← h]
  rfl

theorem listeners_of_entities {radius : Float} {around : List Entity} (h : w.entities = around)
    {own : Allegiance} (hown : w.allegiance? caller = some own) :
    listeners (.proximity radius) w caller enemy =
      (((Visibility.scan radius w caller around).filter fun seen =>
        !decide (seen.entity = enemy)).filter fun seen =>
          answers w own seen.entity
            (((Visibility.proximity radius).distance w seen.entity caller).getD
              seen.distance)).map (·.entity) := by
  rw [listeners, hown]
  exact answering_of_entities h own

end Alert

namespace Engine

variable {setting : Setting} {actor enemy : Entity} {s : State}

/-- The think of an actor that wakes, settles on an enemy and is not too soon to cry it out. -/
theorem think_of_call {c : Controller} (hc : s.world.controller? actor = some c)
    (hidle : c.state = .idle) {candidates : List Candidate}
    (hfound : found setting (upkeep setting.tuning actor s).state.world actor
      c.noteMode.markThought = candidates) (hsomebody : candidates ≠ []) {choice : Choice}
    (hchoice : (choose setting actor (c.noteMode.markThought.rouse actor).1 candidates
      (upkeep setting.tuning actor s).state).result = .ok choice)
    (henemy : choice.target? = some enemy) :
    let roused := c.noteMode.markThought.rouse actor
    let chosen := choose setting actor roused.1 candidates (upkeep setting.tuning actor s).state
    let settled := settle roused.1 actor choice
    let stored :=
      { chosen.state with world := chosen.state.world.setController actor settled.1 }
    let called := Alert.propagate setting actor enemy stored
    (think setting actor s).state = called.state := by
  intro roused chosen settled stored called
  have hkept := ((upkeep_tended setting.tuning hc).world.controller?_eq actor).trans hc
  obtain ⟨picked, hpicked, hrun⟩ :=
    thinkAmong_eq setting hkept c.state c.noteMode.markThought candidates
  obtain rfl : choice = picked := Except.ok.inj (hchoice.symm.trans hpicked)
  obtain ⟨_, hcalled⟩ := Alert.propagate_accepted setting actor enemy stored
  rw [think_of_found hc hfound hsomebody, hrun]
  show (alarm setting actor c.state choice.target? stored).state = _
  rw [henemy, hidle]
  show (Action.when true _ stored).state = _
  rw [Action.when_true, Action.bind_of_ok hcalled]
  rfl

end Engine

end Hostility
