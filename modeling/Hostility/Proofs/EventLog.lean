import Hostility.Proofs.Calls
import Hostility.Proofs.Listening

/-!
The log tells the truth. A listener who hears every event in order believes of every actor, after
every operation of the engine, the state and the target that its controller holds, and no event is
at odds with what was believed right before it.
-/
namespace Hostility

variable {actor : Entity} {s : State} {b : Beliefs} {w w' : World}

namespace Alert

open Course Hostility.Action

/-- An ally that was not awake tells that it engages, and then it is told at whom. -/
theorem pointAt_reports (caller enemy ally : Entity) {c : Controller}
    (hasleep : c.state.isAwake = false) (strikesOwn : Bool) :
    Reports ally c [.stateChanged ally c.state .engaged, .allyAlerted caller ally enemy]
      (pointAt c enemy strikesOwn) := by
  have hne : c.state ≠ .engaged := by
    intro h
    simp [h, Awareness.isAwake] at hasleep
  have hbelief : (pointAt c enemy strikesOwn).belief = ⟨.engaged, some enemy⟩ := by
    cases strikesOwn <;> rfl
  intro b hb
  rw [hbelief]
  simp [Beliefs.AllAgree, Beliefs.Agrees, Beliefs.hear, hb, Controller.belief, hne]

theorem belief?_seedEnemy (t : Tuning) (w : World) (ally enemy e : Entity) :
    (seedEnemy t w ally enemy).belief? e = w.belief? e := by
  unfold seedEnemy
  refine belief?_update ?_ w ally e
  intro c
  rfl

theorem wake_informing (t : Tuning) (caller enemy : Entity) (callerRetaliates : Bool)
    {ally : Entity} {c : Controller} (hc : s.world.controller? ally = some c)
    (hasleep : c.state.isAwake = false) :
    let woken := wake t caller enemy callerRetaliates ally s
    informing s woken.events woken.state ∧
      ∀ e, e ≠ ally → woken.state.world.belief? e = s.world.belief? e := by
  intro woken
  obtain ⟨w', hwoken, hw'⟩ := wake_of_controller t caller enemy callerRetaliates hc
  let pointed := pointAt c enemy (sharesFaction s.world ally enemy && callerRetaliates)
  have hengaged : pointed.state = .idle → pointed.target = none := by
    intro h
    have hstate : pointed.state = .engaged := by
      show (pointAt c enemy _).state = .engaged
      unfold pointAt
      dsimp only
      split <;> rfl
    rw [hstate] at h
    cases h
  have hbelief : ∀ e, w'.belief? e = (s.world.setController ally pointed).belief? e := by
    intro e
    rcases hw' with rfl | rfl
    · rfl
    · exact belief?_seedEnemy t _ ally enemy e
  have hnext : ∀ id,
      w'.nextGeneration id = (s.world.setController ally pointed).nextGeneration id := by
    intro id
    rcases hw' with rfl | rfl
    · rfl
    · exact World.nextGeneration_update _ ally _ id
  rw [show woken = _ from hwoken]
  constructor
  · intro b hb
    have hset := hb.setController hc (pointAt_reports caller enemy ally hasleep _) hengaged
    exact ⟨hset.1, hset.2.congr hbelief hnext⟩
  · intro e he
    rw [hbelief, belief?_setController (World.contains_of_bind hc), if_neg he]

/-- The allies are woken one after the other. None is called twice, so each is still asleep when
its turn comes. -/
theorem forEach_wake_informing (t : Tuning) (caller enemy : Entity) (callerRetaliates : Bool)
    {allies : List Entity} (hnodup : allies.Nodup)
    (hasleep : ∀ ally ∈ allies, ∃ x, s.world.belief? ally = some x ∧ x.state.isAwake = false) :
    let woken := forEach (wake t caller enemy callerRetaliates) allies s
    informing s woken.events woken.state := by
  induction allies generalizing s with
  | nil => exact informing_closed.refl s
  | cons ally allies ih =>
    obtain ⟨hnew, hnodup⟩ := List.nodup_cons.mp hnodup
    obtain ⟨x, hx, hstate⟩ := hasleep ally (by simp)
    obtain ⟨c, hc, rfl⟩ := Option.map_eq_some_iff.mp hx
    obtain ⟨hwoken, hothers⟩ := wake_informing t caller enemy callerRetaliates hc hstate
    refine informing_closed.bind hwoken fun _ _ => ih hnodup fun ally' hally' => ?_
    have hne : ally' ≠ ally := by
      rintro rfl
      exact hnew hally'
    rw [hothers ally' hne]
    exact hasleep ally' (by simp [hally'])

theorem propagate_informing {setting : Setting} {radius : Float}
    (hv : setting.visibility = .proximity radius) (caller enemy : Entity) :
    Follows informing (propagate setting caller enemy) := by
  apply propagate_follows informing_closed
  · intro s table
    exact informing_of_quiet ⟨fun _ => rfl, fun _ => rfl, by simp⟩
  · intro retaliates own s
    rw [hv]
    apply forEach_wake_informing _ caller enemy _ (answering_nodup caller enemy own)
    intro ally hally
    obtain ⟨c, hc, hasleep⟩ := asleep_of_mem_answering hally
    refine ⟨c.belief, ?_, hasleep⟩
    rw [World.belief?, hc, Option.map_some]

end Alert

namespace Engine

open Course Hostility.Action

theorem settle_reports (c : Controller) (actor : Entity) (choice : Choice) :
    Reports actor c (settle c actor choice).2 (settle c actor choice).1 := by
  cases choice with
  | chosen target => exact c.engage_reports actor target
  | kept target => exact c.engage_reports actor target
  | rejected bits =>
    apply Reports.silent rfl
    simp [settle, Event.IsQuiet, Beliefs.Agrees, Beliefs.hear]
  | empty => exact .silent rfl (by simp [settle])

/-- A choice leaves an actor that was roused awake. -/
theorem settle_state (c : Controller) (actor : Entity) (choice : Choice) :
    (settle (c.rouse actor).1 actor choice).1.state ≠ .idle := by
  have hroused : (c.rouse actor).1.state ≠ .idle := by
    intro h
    have hawake := c.isAwake_rouse actor
    rw [h] at hawake
    cases hawake
  cases choice with
  | chosen target => simp [settle]
  | kept target => simp [settle]
  | rejected bits => exact hroused
  | empty => exact hroused

theorem alarm_informing {setting : Setting} {radius : Float}
    (hv : setting.visibility = .proximity radius) (actor : Entity) (wokeFrom : Awareness)
    (enemy? : Option Entity) : Follows informing (alarm setting actor wokeFrom enemy?) :=
  alarm_follows informing_closed wokeFrom (Alert.propagate_informing hv actor) enemy?

theorem think_informing {setting : Setting} {radius : Float}
    (hv : setting.visibility = .proximity radius) (actor : Entity) :
    Follows informing (think setting actor) := by
  intro s
  cases hc : s.world.controller? actor with
  | none =>
    obtain ⟨refusal, hrefused⟩ := think_of_no_controller setting hc
    rw [hrefused]
    exact informing_closed.refl s
  | some c =>
    have hbefore := upkeep_tended setting.tuning hc
    have hkept := (hbefore.world.controller?_eq actor).trans hc
    have hthought : Reports actor c [] c.noteMode.markThought := .silent rfl (by simp)
    by_cases hfound : found setting (upkeep setting.tuning actor s).state.world actor
        c.noteMode.markThought = []
    · rw [think_of_nobody hc hfound]
      apply informing_closed.trans (informing_of_quiet hbefore.quiet)
      refine informing_setController (.refl actor _) hkept ?_ fun _ =>
        Controller.target_disengage _ actor
      exact hthought.append (c.noteMode.markThought.disengage_reports actor)
    · obtain ⟨choice, -, hrun⟩ := think_of_somebody hc hfound
      rw [hrun]
      have hchosen := choose_tended setting (c.noteMode.markThought.rouse actor).1
        (found setting (upkeep setting.tuning actor s).state.world actor c.noteMode.markThought)
        (World.contains_of_bind hkept)
      have hquiet := hchosen.quiet.2.2
      have hroused := hthought.append (c.noteMode.markThought.rouse_reports actor)
      have hsettled := (hroused.append (.silent rfl hquiet)).append (settle_reports _ actor choice)
      have hstored := informing_setController hchosen.world hkept hsettled fun h =>
        absurd h (settle_state _ actor choice)
      apply informing_closed.trans (informing_of_quiet hbefore.quiet)
      have hcalled := informing_closed.trans hstored
        (alarm_informing hv actor c.state choice.target? _)
      simpa only [List.nil_append, List.append_assoc] using hcalled

/-- Going idle is heard as losing the target, so an idle actor that had one would be told wrong. -/
theorem arriveHome_informing (actor : Entity) : Follows informing (arriveHome actor) := by
  intro s
  refine informing_closed.controllerOf_bind fun c hc => ?_
  let settled := ({ c with target := none } : Controller).transition actor .idle
  have hidle : settled.1.state = .idle → settled.1.target = none := by
    simp [settled]
  have hstored : informing s settled.2
      { s with world := s.world.setController actor settled.1 } := by
    intro b hb
    have hreports := c.arrival_reports actor (hb.target_eq_none hc)
    exact informing_setController (.refl actor s.world) hc hreports hidle b hb
  show informing s ((publish settled.2 >>= fun _ => storeController actor settled.1 >>= fun _ =>
    Threat.reset actor) s).events ((publish settled.2 >>= fun _ =>
      storeController actor settled.1 >>= fun _ => Threat.reset actor) s).state
  rw [publish_bind, bind_of_ok (by rw [storeController_eq hc]), storeController_eq hc]
  exact informing_closed.trans hstored (informing_of_quiet (Threat.reset_tended actor _).quiet)

theorem quiet_elapse (seconds : Float32) (s : State) :
    quiet s [] { s with world := s.world.updateAll (elapse seconds) } := by
  refine ⟨fun e => ?_, World.nextGeneration_updateAll s.world _, by simp⟩
  rw [World.belief?, World.controller?_elapse, Option.map_map]
  rfl

theorem update_informing {setting : Setting} {radius : Float}
    (hv : setting.visibility = .proximity radius) (seconds : Float32) :
    Follows informing (update setting seconds) := by
  apply update_follows informing_closed seconds
  · exact fun s => informing_of_quiet (quiet_elapse seconds s)
  · intro s table
    exact informing_of_quiet ⟨fun _ => rfl, fun _ => rfl, by simp⟩
  · exact think_informing hv

end Engine

/-- A host that leaves controllers alone: whoever arrives has none or a fresh one. -/
def Change.SparesControllers : Change → Prop
  | .spawn parts => ∀ c, parts.controller = some c → c = .ofProfile c.profile
  | .edit _ f => ∀ parts, (f parts).controller = parts.controller
  | .despawn _ | .setClock _ | .setRandom _ => True

def Move.SparesControllers : Move → Prop
  | .ask _ => True
  | .host change => change.SparesControllers

/-- Whoever has a controller after a change had it before, or has just arrived with a fresh one. -/
theorem Change.controller?_apply {change : Change} (h : change.SparesControllers) {c : Controller}
    (hc : (change.apply s).world.controller? actor = some c) :
    s.world.controller? actor = some c ∨ c = .ofProfile c.profile := by
  obtain ⟨parts, hparts, hown⟩ := Option.bind_eq_some_iff.mp hc
  unfold World.controller?
  rcases get?_apply hparts with hold | ⟨f, old, rfl, hold, rfl⟩ | ⟨rfl, -⟩
  · rw [hold]
    exact .inl hown
  · rw [hold]
    exact .inl ((h old).symm.trans hown)
  · exact .inr (h c hown)

theorem Request.perform_informing {setting : Setting} {radius : Float}
    (hv : setting.visibility = .proximity radius) (request : Request) :
    Action.Follows Course.informing (request.perform setting) := by
  have haside (h : request.IsAside) :
      Action.Follows Course.informing (request.perform setting) := fun s =>
    Course.informing_of_quiet (Course.quiet_of_aside (request.perform_aside setting h s))
  cases request with
  | think actor => exact .regardless (Engine.think_informing hv actor)
  | update seconds => exact .regardless (Engine.update_informing hv seconds)
  | recordDamage actor attacker amount =>
    exact .regardless <|
      (Engine.recordDamage_quiet setting.tuning actor attacker amount).mono
        Course.informing_of_quiet
  | arriveHome actor => exact .regardless (Engine.arriveHome_informing actor)
  | propagate caller enemy => exact .regardless (Alert.propagate_informing hv caller enemy)
  | _ => exact haside trivial

theorem Faithful.apply {change : Change} (h : Faithful b s.world)
    (hchange : change.SparesControllers) : Faithful b (change.apply s).world := by
  cases change with
  | setClock now => exact h
  | setRandom random => exact h
  | edit e f =>
    refine h.congr (belief?_update ?_ s.world e) (World.nextGeneration_update s.world e f)
    intro parts
    rw [hchange parts]
  | despawn e =>
    have hstays : ∀ k x, (s.world.despawn e).belief? k = some x → s.world.belief? k = some x := by
      intro k x hx
      rw [World.belief?, World.controller?, World.get?_despawn] at hx
      split at hx
      · cases hx
      · exact hx
    constructor
    · exact fun k x hx => h.actors k x (hstays k x hx)
    · exact fun k x hx => h.idle k x (hstays k x hx)
    · intro k hk
      rw [Change.apply, World.Unborn, World.nextGeneration_despawn] at hk
      exact h.newcomers k hk
  | spawn parts =>
    have hview : ∀ k, (s.world.spawn parts).2.belief? k =
        if k = (s.world.spawn parts).1 then parts.controller.map Controller.belief
        else s.world.belief? k := by
      intro k
      rw [World.belief?, World.controller?, World.get?_spawn]
      split <;> rfl
    have hfresh : ∀ x, parts.controller.map Controller.belief = some x → x = ⟨.idle, none⟩ := by
      intro x hx
      obtain ⟨c, hc, rfl⟩ := Option.map_eq_some_iff.mp hx
      rw [hchange c hc]
      rfl
    constructor
    · intro k x hx
      rw [Change.apply, hview] at hx
      split at hx
      · next hk =>
        rw [hfresh x hx, hk]
        exact h.newcomers _ (World.unborn_spawn s.world parts)
      · exact h.actors k x hx
    · intro k x hx
      rw [Change.apply, hview] at hx
      split at hx
      · rw [hfresh x hx]
        exact fun _ => rfl
      · exact h.idle k x hx
    · intro k hk
      exact h.newcomers k (World.unborn_of_unborn_spawn hk)

theorem Move.perform_informing {setting : Setting} {radius : Float}
    (hv : setting.visibility = .proximity radius) {move : Move} (hmove : move.SparesControllers) :
    Action.Follows Course.informing (move.perform setting) := by
  cases move with
  | ask request => exact request.perform_informing hv
  | host change => exact fun s b hb => ⟨trivial, hb.apply hmove⟩

theorem faithful_initial (h : w.AllFresh) : Faithful .initial w := by
  have hfresh : ∀ e x, w.belief? e = some x → x = ⟨.idle, none⟩ := by
    intro e x hx
    obtain ⟨c, hc, rfl⟩ := Option.map_eq_some_iff.mp hx
    rw [h e c hc]
    rfl
  constructor
  · intro e x hx
    rw [hfresh e x hx]
    rfl
  · intro e x hx _
    rw [hfresh e x hx]
  · intro e _
    rfl

/-- From a world of fresh controllers, and as long as the host leaves controllers alone, the events
alone tell the state and the target of every actor, and every event is true when it is published. -/
theorem playOut_events_tell_controllers {setting : Setting} {radius : Float}
    (hv : setting.visibility = .proximity radius) {s : State}
    (hfresh : s.world.AllFresh) {moves : List Move}
    (hmoves : ∀ move ∈ moves, move.SparesControllers) :
    let played := playOut setting moves s
    (∀ actor c, played.state.world.controller? actor = some c →
      Beliefs.initial.hearAll played.events actor = ⟨c.state, c.target⟩) ∧
    ∀ before e after, played.events = before ++ e :: after →
      (Beliefs.initial.hearAll before).Agrees e := by
  intro played
  have hfollows : Action.Follows Course.informing (playOut setting moves) :=
    .forEach Course.informing_closed fun move hmove => move.perform_informing hv (hmoves move hmove)
  obtain ⟨hagree, hfaithful⟩ := hfollows s .initial (faithful_initial hfresh)
  constructor
  · intro actor c hc
    exact hfaithful.eq_belief hc
  · intro before e after hsplit
    rw [hsplit] at hagree
    exact Beliefs.agrees_of_allAgree hagree

/-- The first wolf finds the traveller and calls the second one, the traveller leaves, and both
wolves lose it and go home. -/
def pursuit : List Move :=
  [.ask (.think ⟨0, 1⟩), .host (.despawn ⟨2, 1⟩), .ask (.update 1.0), .ask (.arriveHome ⟨0, 1⟩),
    .ask (.arriveHome ⟨1, 1⟩)]

theorem pursuit_sparesControllers : ∀ move ∈ pursuit, move.SparesControllers := by
  simp [pursuit, Move.SparesControllers, Change.SparesControllers]

theorem pursuit_events_tell_controllers :
    (∀ actor c, (playOut {} pursuit encounter).state.world.controller? actor = some c →
      Beliefs.initial.hearAll (playOut {} pursuit encounter).events actor = ⟨c.state, c.target⟩) ∧
    ∀ before e after, (playOut {} pursuit encounter).events = before ++ e :: after →
      (Beliefs.initial.hearAll before).Agrees e :=
  playOut_events_tell_controllers rfl encounter_allFresh pursuit_sparesControllers

end Hostility
