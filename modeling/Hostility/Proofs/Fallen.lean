import Hostility.Proofs.Beats
import Hostility.Proofs.Heeding

/-!
The fallen. Updates pass over a dead actor and it answers no call, so as long as only others think
and the host leaves it alone, nothing about it changes but its timer, and nothing is told of it.
-/
namespace Hostility

open Course Hostility.Action

variable {setting : Setting} {actor caller enemy ally e : Entity} {w : World} {s s' : State}
  {events : List Event} {parts : Components}

/-- The event tells what an entity does, or that it was called as an ally. -/
def Event.TellsOf (e : Entity) (event : Event) : Prop :=
  event.actor = e ∨ ∃ caller enemy, event = .allyAlerted caller e enemy

theorem Event.IsUpkeepOf.not_tellsOf {event : Event} (h : event.IsUpkeepOf actor)
    (hne : actor ≠ e) : ¬ event.TellsOf e := by
  cases event <;> simp_all [Event.IsUpkeepOf, Event.TellsOf, Event.actor]

theorem Event.IsNewsOf.not_tellsOf {event : Event} (h : event.IsNewsOf actor)
    (hne : actor ≠ e) : ¬ event.TellsOf e := by
  cases event <;> simp_all [Event.IsNewsOf, Event.TellsOf, Event.actor]

/-- Someone in the world who is dead. -/
def World.IsFallen (w : World) (e : Entity) : Prop :=
  ∃ parts, w.get? e = some parts ∧ parts.isAlive = false

/-- An entity is what it was, and nothing is told of it. -/
def Course.passingBy (e : Entity) : Course := fun s events s' =>
  s'.world.get? e = s.world.get? e ∧ ∀ event ∈ events, ¬ event.TellsOf e

theorem Course.passingBy_closed (e : Entity) : (passingBy e).Closed where
  refl s := ⟨rfl, by simp⟩
  trans h h' := by
    refine ⟨h'.1.trans h.1, fun event he => ?_⟩
    rcases List.mem_append.mp he with he | he
    · exact h.2 event he
    · exact h'.2 event he

theorem Course.passingBy.isFallen (h : passingBy e s events s') (he : s.world.IsFallen e) :
    s'.world.IsFallen e := by
  obtain ⟨parts, hparts, hdead⟩ := he
  exact ⟨parts, h.1.trans hparts, hdead⟩

theorem Tended.passesBy {α : Type} {o : Outcome α} (h : Tended actor s o) (hne : actor ≠ e) :
    passingBy e s o.events o.state :=
  ⟨h.world.others e hne.symm, fun event he => (h.events event he).not_tellsOf hne⟩

/-- An actor writes its own controller and tells of it. -/
theorem passesBy_setController (hne : actor ≠ e) (hevents : ∀ event ∈ events, event.IsNewsOf actor)
    (c : Controller) (s : State) :
    passingBy e s events { s with world := s.world.setController actor c } := by
  constructor
  · show (s.world.update actor _).get? e = _
    rw [World.get?_update, if_neg hne.symm]
  · exact fun event he => (hevents event he).not_tellsOf hne

namespace Alert

theorem not_isFallen_of_mem_answering {visibility : Visibility} {own : Allegiance}
    (h : ally ∈ answering visibility w caller enemy own) : ¬ w.IsFallen ally := by
  obtain ⟨seen, hseen, rfl⟩ := List.mem_map.mp h
  have hanswers := (List.mem_filter.mp hseen).2
  rintro ⟨parts, hparts, hdead⟩
  simp [answers, hparts, hdead] at hanswers

theorem wake_passesBy (t : Tuning) (retaliates : Bool) (hcaller : caller ≠ e) (hally : ally ≠ e) :
    Follows (passingBy e) (wake t caller enemy retaliates ally) := by
  intro s
  constructor
  · rw [get?_wake, if_neg hally.symm]
  · cases hc : s.world.controller? ally with
    | none =>
      rw [wake_of_no_controller t caller enemy retaliates hc]
      simp [Event.TellsOf, Event.actor, hcaller, hally]
    | some c =>
      obtain ⟨w', hwoken, -⟩ := wake_of_controller t caller enemy retaliates hc
      rw [hwoken]
      simp [Event.TellsOf, Event.actor, hcaller, hally]

/-- A call passes by the dead, whoever cries and however it is heard. -/
theorem propagate_passesBy (setting : Setting) (hcaller : caller ≠ e) (he : s.world.IsFallen e) :
    let called := propagate setting caller enemy s
    passingBy e s called.events called.state := by
  intro called
  cases hcooldown : onCooldown setting.tuning s.alerts s.now enemy with
  | true =>
    rw [show called = _ from propagate_of_onCooldown hcooldown]
    exact (passingBy_closed e).refl s
  | false =>
    rw [show called = _ from propagate_of_not_onCooldown hcooldown]
    have hallies : ∀ ally ∈ listeners setting.visibility s.world caller enemy, ally ≠ e := by
      rintro ally hally rfl
      obtain ⟨own, -, hanswers⟩ := mem_listeners.mp hally
      exact not_isFallen_of_mem_answering hanswers he
    exact Follows.forEach (passingBy_closed e)
      (fun ally hally => wake_passesBy _ _ hcaller (hallies ally hally))
      { s with alerts := EntityMap.insert s.alerts enemy s.now }

end Alert

namespace Engine

theorem alarm_passesBy (setting : Setting) (wokeFrom : Awareness) (enemy? : Option Entity)
    (hne : actor ≠ e) (he : s.world.IsFallen e) :
    let called := alarm setting actor wokeFrom enemy? s
    passingBy e s called.events called.state := by
  have hclosed := passingBy_closed e
  cases enemy? with
  | none => exact hclosed.refl s
  | some enemy =>
    unfold alarm
    cases decide (wokeFrom = .idle) with
    | false => exact hclosed.refl s
    | true => exact hclosed.bind (Alert.propagate_passesBy setting hne he) fun _ _ => hclosed.refl _

/-- The thinks of others pass by the dead. -/
theorem think_passesBy (hne : actor ≠ e) (he : s.world.IsFallen e) :
    let thought := think setting actor s
    passingBy e s thought.events thought.state := by
  intro thought
  have hclosed := passingBy_closed e
  cases hc : s.world.controller? actor with
  | none =>
    obtain ⟨refusal, hrefused⟩ := think_of_no_controller setting hc
    rw [show thought = _ from hrefused]
    exact hclosed.refl s
  | some c =>
    have htended := upkeep_tended setting.tuning hc
    have hbefore := htended.passesBy hne
    have hkept := (htended.world.controller?_eq actor).trans hc
    let thinking := c.noteMode.markThought
    by_cases hfound : found setting (upkeep setting.tuning actor s).state.world actor thinking = []
    · rw [show thought = _ from think_of_nobody hc hfound]
      exact hclosed.trans hbefore
        (passesBy_setController hne (thinking.disengage_news actor) _ _)
    · obtain ⟨choice, -, hrun⟩ := think_of_somebody hc hfound
      rw [show thought = _ from hrun]
      have hchosen := (choose_tended setting (thinking.rouse actor).1
        (found setting (upkeep setting.tuning actor s).state.world actor thinking)
        (World.contains_of_bind hkept)).passesBy hne
      have hroused : passingBy e (upkeep setting.tuning actor s).state (thinking.rouse actor).2
          (upkeep setting.tuning actor s).state :=
        ⟨rfl, fun event h => (thinking.rouse_news actor event h).not_tellsOf hne⟩
      have hstored := hclosed.trans hchosen (passesBy_setController hne
        (settle_news (thinking.rouse actor).1 actor choice)
        (settle (thinking.rouse actor).1 actor choice).1 _)
      have hsettled := hclosed.trans hbefore (hclosed.trans hroused hstored)
      have hcalled := hclosed.trans hsettled
        (alarm_passesBy setting c.state choice.target? hne (hsettled.isFallen he))
      simpa only [List.append_assoc] using hcalled

end Engine

/-- The parts of an actor whose timer shows something else. -/
def Components.withTimer (parts : Components) (since : Float32) : Components :=
  { parts with controller := parts.controller.map ({ · with sinceThink := since }) }

@[simp] theorem Components.withTimer_withTimer (parts : Components) (since since' : Float32) :
    (parts.withTimer since).withTimer since' = parts.withTimer since' := by
  simp [withTimer, Function.comp_def]

@[simp] theorem Components.isAlive_withTimer (parts : Components) (since : Float32) :
    (parts.withTimer since).isAlive = parts.isAlive := rfl

theorem Components.exists_withTimer_eq (parts : Components) :
    ∃ since, parts.withTimer since = parts := by
  obtain ⟨since, hsince⟩ : ∃ since, parts.controller.map ({ · with sinceThink := since }) =
      parts.controller := by
    cases parts.controller with
    | none => exact ⟨0.0, rfl⟩
    | some c => exact ⟨c.sinceThink, rfl⟩
  exact ⟨since, by rw [withTimer, hsince]⟩

theorem Engine.exists_elapse_eq (seconds : Float32) (parts : Components) :
    ∃ since, elapse seconds parts = parts.withTimer since := by
  cases hc : parts.controller with
  | none => exact ⟨0.0, by simp [elapse, Components.withTimer, hc]⟩
  | some c => exact ⟨c.sinceThink + seconds, by simp [elapse, Components.withTimer, hc,
      Controller.elapse]⟩

/-- Whoever is dead stays as it is but for its timer, and nothing is told of it. -/
def Course.resting (e : Entity) : Course := fun s events s' =>
  ∀ parts, s.world.get? e = some parts → parts.isAlive = false →
    (∃ since, s'.world.get? e = some (parts.withTimer since)) ∧
      ∀ event ∈ events, ¬ event.TellsOf e

theorem Course.resting_closed (e : Entity) : (resting e).Closed where
  refl s parts hparts _ := by
    obtain ⟨since, hsince⟩ := parts.exists_withTimer_eq
    exact ⟨⟨since, by rw [hsince, hparts]⟩, by simp⟩
  trans h h' parts hparts hdead := by
    obtain ⟨⟨since, hthen⟩, htold⟩ := h parts hparts hdead
    obtain ⟨⟨since', hlater⟩, htold'⟩ := h' _ hthen hdead
    refine ⟨⟨since', by rw [hlater, Components.withTimer_withTimer]⟩, fun event he => ?_⟩
    rcases List.mem_append.mp he with he | he
    · exact htold event he
    · exact htold' event he

theorem resting_of_passingBy (h : s.world.IsFallen e → passingBy e s events s') :
    resting e s events s' := by
  intro parts hparts hdead
  obtain ⟨hsame, htold⟩ := h ⟨parts, hparts, hdead⟩
  obtain ⟨since, hsince⟩ := parts.exists_withTimer_eq
  exact ⟨⟨since, by rw [hsince, hsame, hparts]⟩, htold⟩

theorem Engine.think_rests (setting : Setting) (hne : actor ≠ e) :
    Follows (resting e) (think setting actor) := fun _ =>
  resting_of_passingBy fun hfallen => think_passesBy hne hfallen

/-- An update finds due only those who live. -/
theorem Engine.update_rests (setting : Setting) (seconds : Float32) (e : Entity) :
    Follows (resting e) (update setting seconds) := by
  intro s parts hparts hdead
  let advanced := (advance setting.tuning seconds s).state
  have helapsed : advanced.world.get? e = some (elapse seconds parts) := by
    show (s.world.updateAll (elapse seconds)).get? e = _
    rw [World.get?_updateAll, hparts, Option.map_some]
  obtain ⟨since, hsince⟩ := exists_elapse_eq seconds parts
  have hdue : ∀ actor ∈ advanced.world.entities.filter (isDue advanced.world), actor ≠ e := by
    rintro actor hactor rfl
    have hisDue := (List.mem_filter.mp hactor).2
    have hstill : (elapse seconds parts).isAlive = false := hdead
    simp [isDue, helapsed, hstill] at hisDue
  have hthought := Follows.forEach (resting_closed e)
    (fun actor hactor => Follows.regardless (think_rests setting (hdue actor hactor))) advanced
  obtain ⟨⟨since', hlater⟩, htold⟩ := hthought (elapse seconds parts) helapsed hdead
  rw [update_run]
  exact ⟨⟨since', by rw [hlater, hsince, Components.withTimer_withTimer]⟩, htold⟩

/-- A host that leaves an entity alone. -/
def Change.PassesOver (e : Entity) : Change → Prop
  | .edit k _ | .despawn k => k ≠ e
  | _ => True

/-- Time goes by, somebody else thinks, or the host changes somebody else. -/
def Move.PassesOver (e : Entity) : Move → Prop
  | .ask (.update _) => True
  | .ask (.think actor) => actor ≠ e
  | .ask _ => False
  | .host change => change.PassesOver e

theorem Change.passesBy {change : Change} (h : change.PassesOver e)
    (he : s.world.contains e = true) : passingBy e s [] (change.apply s) := by
  refine ⟨?_, by simp⟩
  cases change with
  | setClock now => rfl
  | setRandom random => rfl
  | edit k f => rw [apply, World.get?_update, if_neg (Ne.symm h)]
  | despawn k => rw [apply, World.get?_despawn, if_neg (Ne.symm h)]
  | spawn newcomer =>
    have hnew : e ≠ (s.world.spawn newcomer).1 := by
      rintro rfl
      exact World.not_unborn_of_contains he (World.unborn_spawn s.world newcomer)
    rw [apply, World.get?_spawn, if_neg hnew]

theorem Move.perform_rests (setting : Setting) {move : Move} (h : move.PassesOver e) :
    Follows (resting e) (move.perform setting) := by
  cases move with
  | host change =>
    refine fun s => resting_of_passingBy fun ⟨parts, hparts, _⟩ => change.passesBy h ?_
    rw [World.contains, hparts, Option.isSome_some]
  | ask request =>
    cases request with
    | think actor => exact .regardless (Engine.think_rests setting h)
    | update seconds => exact .regardless (Engine.update_rests setting seconds e)
    | _ => exact h.elim

/-- In a run of updates, of thinks of others and of changes of others, whoever is dead stays what it
is but for its timer. Nothing is told of what it does, and nobody calls it. -/
theorem playOut_leaves_fallen {setting : Setting} {s : State} {actor : Entity} {parts : Components}
    {health : Health} (hparts : s.world.get? actor = some parts)
    (hhealth : parts.health = some health) (hdead : health.isAlive = false) {moves : List Move}
    (hmoves : ∀ move ∈ moves, move.PassesOver actor) :
    let played := playOut setting moves s
    (∃ since, played.state.world.get? actor = some
      { parts with controller := parts.controller.map ({ · with sinceThink := since }) }) ∧
    ∀ event ∈ played.events, event.actor ≠ actor ∧
      ∀ caller enemy, event ≠ .allyAlerted caller actor enemy := by
  intro played
  have hfallen : parts.isAlive = false := by
    rw [Components.isAlive, hhealth]
    exact hdead
  have hrests : Follows (resting actor) (playOut setting moves) :=
    .forEach (resting_closed actor) fun move hmove => move.perform_rests setting (hmoves move hmove)
  obtain ⟨hsame, htold⟩ := hrests s parts hparts hfallen
  refine ⟨hsame, fun event he => ⟨fun h => htold event he (.inl h), fun caller enemy h => ?_⟩⟩
  exact htold event he (.inr ⟨caller, enemy, h⟩)

/-- What is left of an orc guard that was on its way home. -/
def remains : Components where
  position := some ⟨2.0, 0.0, 0.0⟩
  allegiance := some ⟨⟨1⟩, .ofFriends "orc" []⟩
  health := some ⟨0.0, 100.0⟩
  controller := some { Controller.ofProfile {} with state := .returning }
  ledger := some .empty

/-- The dead guard between a scout of its kind and Aria. -/
def graveyard : State where
  world :=
    let scout : Components :=
      { position := some ⟨0.0, 0.0, 0.0⟩
        allegiance := some ⟨⟨1⟩, .ofFriends "orc" []⟩
        controller := some (.ofProfile {}) }
    let aria : Components :=
      { position := some ⟨3.0, 0.0, 0.0⟩
        targetable := some .player }
    (((World.empty.spawn scout).2.spawn remains).2.spawn aria).2
  random := .cycle [0]
  now := 0
  alerts := ∅

/-- Time goes by, Aria leaves, the scout looks around, and time goes by once more. -/
def vigilAtGrave : List Move :=
  [.ask (.update 1.0), .host (.despawn ⟨2, 1⟩), .ask (.think ⟨0, 1⟩), .ask (.update 5.0)]

theorem graveyard_leaves_guard :
    let played := playOut {} vigilAtGrave graveyard
    (∃ since, played.state.world.get? ⟨1, 1⟩ = some
      { remains with controller := remains.controller.map ({ · with sinceThink := since }) }) ∧
    ∀ event ∈ played.events, event.actor ≠ ⟨1, 1⟩ ∧
      ∀ caller enemy, event ≠ .allyAlerted caller ⟨1, 1⟩ enemy := by
  have hmoves : ∀ move ∈ vigilAtGrave, move.PassesOver ⟨1, 1⟩ := by
    simp [vigilAtGrave, Move.PassesOver, Change.PassesOver]
  exact playOut_leaves_fallen (by decide +kernel) rfl (by decide +kernel) hmoves

end Hostility
