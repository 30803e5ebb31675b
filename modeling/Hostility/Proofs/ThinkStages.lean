import Hostility.Proofs.Courses
import Hostility.Proofs.RollCall

/-!
The stages of a think. Upkeep and choice tend the actor's own threat only. The controller is
written once, after the choice, and the alarm comes last.
-/
namespace Hostility

variable {actor : Entity} {s : State}

namespace Threat

theorem reset_tended (actor : Entity) (s : State) : Tended actor s (reset actor s) := by
  unfold reset
  rw [Action.world_bind]
  exact .bind (.setWorld (.update fun _ => rfl)) fun _ _ => .publish (by simp [Event.IsUpkeepOf])

theorem prune_tended (actor : Entity) (s : State) : Tended actor s (prune actor s) := by
  unfold prune
  rw [Action.world_bind]
  cases s.world.ledger? actor with
  | some l => exact .bind (.setWorld (forget_sameButThreat ..)) fun _ _ => .pure _
  | none => exact .pure _

theorem storeLedger_tended (actor : Entity) (l : Ledger) (s : State) :
    Tended actor s (storeLedger actor l s) := by
  unfold storeLedger
  rw [Action.world_bind]
  exact .setWorld (.setLedger l)

theorem lower_tended (t : Tuning) (actor : Entity) (s : State) :
    Tended actor s (lower t actor s) := by
  unfold lower lowerBy
  rw [Action.world_bind, Action.world_bind]
  cases s.world.ledger? actor with
  | none => exact .pure _
  | some l =>
    dsimp only
    rcases l.decay _ _ _ with ⟨lowered, _ | amount⟩
    · exact .pure _
    · exact .bind (storeLedger_tended ..) fun _ _ =>
        .bind (.publish (by simp [Event.IsUpkeepOf])) fun _ _ => .pure _

theorem decay_tended (t : Tuning) (actor : Entity) (s : State) :
    Tended actor s (decay t actor s) := by
  rw [decay_eq]
  exact .bind (prune_tended actor s) fun _ _ => lower_tended ..

theorem ensureLedger_tended (hw : s.world.contains actor = true) :
    Tended actor s (ensureLedger actor s) := by
  unfold ensureLedger
  rw [Action.world_bind]
  split
  · exact .pure ()
  · exact .insert hw fun _ => rfl

theorem ensureBias_tended (hw : s.world.contains actor = true) :
    Tended actor s (ensureBias actor s) := by
  unfold ensureBias
  rw [Action.world_bind]
  split
  · exact .pure ()
  · exact .insert hw fun _ => rfl

theorem events_ensureLedger (actor : Entity) (s : State) : (ensureLedger actor s).events = [] := by
  unfold ensureLedger
  rw [Action.world_bind]
  split
  · rfl
  · unfold Action.insert
    split
    · rfl
    · rfl

theorem ledger?_ensureLedger (hw : s.world.contains actor = true) :
    (ensureLedger actor s).state.world.ledger? actor =
      some ((s.world.ledger? actor).getD .empty) := by
  unfold ensureLedger
  rw [Action.world_bind]
  split
  · next h =>
    obtain ⟨l, hl⟩ := Option.isSome_iff_exists.mp h
    simp [hl]
  · next h =>
    obtain ⟨c, hc⟩ := Option.isSome_iff_exists.mp hw
    rw [Action.insert_of_contains hw, Option.not_isSome_iff_eq_none.mp h]
    simp [World.ledger?, World.get?_update, hc]

theorem seedCandidates_tended (t : Tuning) (candidates : List Candidate)
    (hw : s.world.contains actor = true) :
    Tended actor s (seedCandidates t actor candidates s) := by
  unfold seedCandidates
  rw [Action.world_bind]
  refine .bind (ensureLedger_tended hw) fun _ _ => ?_
  refine .bind ?_ fun l _ => .bind (storeLedger_tended ..) fun _ _ => .pure _
  unfold ledgerOf
  rw [Action.world_bind, ledger?_ensureLedger hw]
  exact .pure _

end Threat

namespace Deception

theorem attempt_tended (setting : Setting) (actor : Entity) (perception : Nat) (target : Entity)
    (crowd : Nat) (s : State) :
    Tended actor s (attempt setting actor perception target crowd s) := by
  unfold attempt
  rw [Action.world_bind]
  cases attempter? s.world target crowd with
  | some hidden =>
    exact .bind (.draw _) fun roll _ =>
      .bind (.publish (by simp [Event.IsUpkeepOf])) fun _ _ => .pure _
  | none => exact .pure _

end Deception

namespace Engine

theorem biasPass_tended (t : Tuning) (actor : Entity) (candidates : List Candidate) (s : State) :
    Tended actor s (biasPass t actor candidates s) := by
  unfold biasPass
  rw [Action.world_bind]
  cases s.world.ledger? actor with
  | none => exact .pure ()
  | some l =>
    cases s.world.bias? actor with
    | none => exact .pure ()
    | some b => exact .setWorld (.trans (.setLedger _) (.setBias _))

theorem prepare_tended (t : Tuning) (candidates : List Candidate)
    (hw : s.world.contains actor = true) : Tended actor s (prepare t actor candidates s) := by
  unfold prepare
  have hseed := Threat.seedCandidates_tended t candidates hw
  refine .bind hseed fun _ _ => ?_
  have hbias := Threat.ensureBias_tended ((hseed.world.contains_eq actor).trans hw)
  exact .bind hbias fun _ _ => biasPass_tended ..

theorem selectOnce_tended (setting : Setting) (actor : Entity) (c : Controller)
    (candidates : List Candidate) (s : State) :
    Tended actor s (selectOnce setting actor c candidates s) := by
  unfold selectOnce
  rw [Action.world_bind]
  split
  · exact .draw _
  · cases s.world.ledger? actor with
    | none => exact .pure _
    | some l =>
      exact .bind (.draw _) fun ⟨choice, rated⟩ _ =>
        .bind (.setWorld (.setLedger _)) fun _ _ => .pure _

theorem selectUndeceived_tended (setting : Setting) (actor : Entity) (c : Controller) (tries : Nat)
    (remaining : List Candidate) (s : State) :
    Tended actor s (selectUndeceived setting actor c tries remaining s) := by
  induction tries generalizing remaining s with
  | zero => exact selectOnce_tended ..
  | succ tries ih =>
    refine .bind (selectOnce_tended ..) fun choice _ => ?_
    cases choice with
    | chosen target =>
      refine .bind (Deception.attempt_tended ..) fun attempt _ => ?_
      dsimp only
      split
      · split
        · exact .pure _
        · exact ih ..
      · exact .pure _
    | kept target => exact .pure _
    | rejected bits => exact .pure _
    | empty => exact .pure _

theorem recordStreaks_tended (actor : Entity) (chosen : Option Entity) (s : State) :
    Tended actor s (recordStreaks actor chosen s) := by
  unfold recordStreaks
  rw [Action.world_bind]
  cases s.world.bias? actor with
  | some b => exact .setWorld (.setBias _)
  | none => exact .pure ()

theorem choose_tended (setting : Setting) (c : Controller) (candidates : List Candidate)
    (hw : s.world.contains actor = true) :
    Tended actor s (choose setting actor c candidates s) := by
  unfold choose
  refine .bind (.whenever fun _ => prepare_tended _ candidates hw) fun _ _ => ?_
  refine .bind (selectUndeceived_tended ..) fun choice _ => ?_
  exact .bind (.whenever fun _ => recordStreaks_tended ..) fun _ _ => .pure _

theorem upkeep_tended (t : Tuning) {c : Controller} (hc : s.world.controller? actor = some c) :
    Tended actor s (upkeep t actor s) := by
  unfold upkeep
  rw [Action.bind_of_ok (by rw [Action.controllerOf_eq hc]), Action.controllerOf_eq hc]
  refine .bind (.whenever fun _ => Threat.reset_tended ..) fun _ _ => ?_
  exact .bind (.whenever fun _ => .bind (Threat.decay_tended ..) fun _ _ => .pure ()) fun _ _ =>
    .pure c

theorem result_upkeep (t : Tuning) {c : Controller} (hc : s.world.controller? actor = some c) :
    (upkeep t actor s).result = .ok c := by
  unfold upkeep
  rw [Action.bind_of_ok (by rw [Action.controllerOf_eq hc]), Action.controllerOf_eq hc]
  obtain ⟨_, hreset⟩ : ∃ a, (Action.when c.modeSwitched (Threat.reset actor) s).result = .ok a :=
    (Tended.whenever fun _ => Threat.reset_tended ..).accepted
  rw [Action.bind_of_ok hreset]
  obtain ⟨_, hdecay⟩ : ∃ a, (Action.when (!c.profile.legacyMode) (do
      let _ ← Threat.decay t actor
      pure ()) (Action.when c.modeSwitched (Threat.reset actor) s).state).result = .ok a :=
    (Tended.whenever fun _ => .bind (Threat.decay_tended ..) fun _ _ => .pure ()).accepted
  rw [Action.bind_of_ok hdecay]
  rfl

end Engine

/-- The events by which an actor tells of its own state and target. -/
def Event.IsNewsOf (actor : Entity) : Event → Prop
  | .stateChanged a _ _ | .newEnemy a _ _ | .targetLost a _ | .targetAcquired a _
  | .tacticRejected a _ => a = actor
  | _ => False

section News

variable (c : Controller) (actor : Entity)

theorem Controller.transition_news (next : Awareness) :
    ∀ e ∈ (c.transition actor next).2, e.IsNewsOf actor := by
  intro e he
  rw [eq_of_mem_transition he]
  rfl

theorem Controller.rouse_news : ∀ e ∈ (c.rouse actor).2, e.IsNewsOf actor := by
  intro e he
  rw [eq_of_mem_rouse he]
  rfl

theorem Controller.engage_news (target : Entity) :
    ∀ e ∈ (c.engage actor target).2, e.IsNewsOf actor := by
  intro e he
  rcases List.mem_append.mp he with he | he
  · rcases List.mem_append.mp he with he | he
    · split at he
      · cases he
      · rw [List.mem_singleton.mp he]
        rfl
    · exact transition_news _ actor .engaged e he
  · rw [List.mem_singleton.mp he]
    rfl

theorem Controller.disengage_news : ∀ e ∈ (c.disengage actor).2, e.IsNewsOf actor := by
  have hlosses : ∀ e ∈ (c.target.map (Event.targetLost actor)).toList, e.IsNewsOf actor := by
    intro e he
    obtain ⟨target, -, rfl⟩ := Option.map_eq_some_iff.mp (Option.mem_toList.mp he)
    rfl
  intro e he
  rw [disengage_eq] at he
  dsimp only at he
  split at he
  · rcases List.mem_append.mp he with he | he
    · exact hlosses e he
    · exact transition_news _ actor .returning e he
  · exact hlosses e he

theorem Engine.settle_news (choice : Choice) :
    ∀ e ∈ (settle c actor choice).2, e.IsNewsOf actor := by
  cases choice with
  | chosen target => exact c.engage_news actor target
  | kept target => exact c.engage_news actor target
  | rejected bits =>
    intro e he
    rw [List.mem_singleton.mp he]
    rfl
  | empty => simp [settle]

end News

/-- The events of a call: allies engage, and each is pointed at the enemy. -/
def Event.IsCallOf (caller : Entity) : Event → Prop
  | .stateChanged _ _ after => after = .engaged
  | .allyAlerted a _ _ => a = caller
  | _ => False

open Course Hostility.Action

namespace Alert

theorem wake_accepted (t : Tuning) (caller enemy : Entity) (callerRetaliates : Bool)
    (ally : Entity) : (wake t caller enemy callerRetaliates ally).Accepted := by
  intro s
  unfold wake
  rw [Action.world_bind]
  cases s.world.controller? ally with
  | some c => exact ⟨(), rfl⟩
  | none => exact ⟨(), rfl⟩

theorem propagate_accepted (setting : Setting) (caller enemy : Entity) :
    (propagate setting caller enemy).Accepted := by
  intro s
  unfold propagate
  rw [Action.state_bind]
  split
  · exact ⟨[], rfl⟩
  · rw [Action.setAlerts_bind]
    cases s.world.allegiance? caller with
    | none => exact ⟨[], rfl⟩
    | some own =>
      exact (Action.Accepted.forEach (wake_accepted _ _ _ _) _).bind (fun _ => .pure _) _

theorem wake_calls (t : Tuning) (caller enemy : Entity) (callerRetaliates : Bool) (ally : Entity) :
    Follows (telling (Event.IsCallOf caller)) (wake t caller enemy callerRetaliates ally) := by
  refine .world_bind fun s => ?_
  cases s.world.controller? ally with
  | none =>
    intro e he
    rw [List.mem_singleton.mp he]
    rfl
  | some c =>
    intro e he
    replace he : e ∈ [.stateChanged ally c.state .engaged, .allyAlerted caller ally enemy] := he
    rcases List.mem_cons.mp he with rfl | he
    · rfl
    · rw [List.mem_singleton.mp he]
      rfl

theorem propagate_calls (setting : Setting) (caller enemy : Entity) :
    Follows (telling (Event.IsCallOf caller)) (propagate setting caller enemy) := by
  have hclosed := telling_closed (Event.IsCallOf caller)
  apply propagate_follows hclosed
  · exact fun s _ => hclosed.refl s
  · intro retaliates own s
    exact Follows.forEach hclosed (fun ally _ => wake_calls _ caller enemy _ ally) s

end Alert

namespace Engine

theorem alarm_calls (setting : Setting) (actor : Entity) (wokeFrom : Awareness)
    (enemy? : Option Entity) :
    Follows (telling (Event.IsCallOf actor)) (alarm setting actor wokeFrom enemy?) :=
  alarm_follows (telling_closed _) wokeFrom (Alert.propagate_calls setting actor) enemy?

theorem alarm_accepted (setting : Setting) (actor : Entity) (wokeFrom : Awareness)
    (enemy? : Option Entity) : (alarm setting actor wokeFrom enemy?).Accepted := by
  cases enemy? with
  | none => exact .pure ()
  | some enemy =>
    unfold alarm
    cases decide (wokeFrom = .idle) with
    | true => exact .bind (Alert.propagate_accepted _ _ _) fun _ => .pure ()
    | false => exact .pure ()

theorem giveUp_eq {old : Controller} (h : s.world.controller? actor = some old) (c : Controller) :
    giveUp actor c s =
      ⟨.ok none, { s with world := s.world.setController actor (c.disengage actor).1 },
        (c.disengage actor).2⟩ := by
  unfold giveUp
  rcases c.disengage actor with ⟨after, news⟩
  dsimp only
  rw [Action.publish_bind, Action.bind_of_ok (by rw [Action.storeController_eq h]),
    Action.storeController_eq h]
  simp

theorem upkeep_of_no_controller (t : Tuning) (hc : s.world.controller? actor = none) :
    ∃ refusal, upkeep t actor s = ⟨.error refusal, s, []⟩ := by
  obtain ⟨refusal, hrefused⟩ := controllerOf_of_none hc
  refine ⟨refusal, ?_⟩
  unfold upkeep
  rw [bind_of_error (by rw [hrefused]), hrefused]

/-- A think of someone who is no actor is refused before anything is done. -/
theorem think_of_no_controller (setting : Setting) (hc : s.world.controller? actor = none) :
    ∃ refusal, think setting actor s = ⟨.error refusal, s, []⟩ := by
  obtain ⟨refusal, hrefused⟩ := upkeep_of_no_controller setting.tuning hc
  refine ⟨refusal, ?_⟩
  unfold think
  rw [bind_of_error (by rw [hrefused]), hrefused]

/-- An actor that finds nobody drops its target and says so. -/
theorem think_of_nobody {setting : Setting} {c : Controller}
    (hc : s.world.controller? actor = some c)
    (hnobody : found setting (upkeep setting.tuning actor s).state.world actor
      c.noteMode.markThought = []) :
    think setting actor s =
      let before := upkeep setting.tuning actor s
      let after := c.noteMode.markThought.disengage actor
      ⟨.ok none, { before.state with world := before.state.world.setController actor after.1 },
        before.events ++ after.2⟩ := by
  have hstored := ((upkeep_tended setting.tuning hc).world.controller?_eq actor).trans hc
  unfold think
  rw [Action.bind_of_ok (result_upkeep _ hc), Action.world_bind, hnobody]
  simp only [List.isEmpty_nil, if_true, giveUp_eq hstored]

theorem thinkAmong_eq (setting : Setting) {old : Controller}
    (hc : s.world.controller? actor = some old) (wokeFrom : Awareness) (c : Controller)
    (candidates : List Candidate) :
    let roused := c.rouse actor
    let chosen := choose setting actor roused.1 candidates s
    ∃ choice, chosen.result = .ok choice ∧
      let settled := settle roused.1 actor choice
      let stored :=
        { chosen.state with world := chosen.state.world.setController actor settled.1 }
      let called := alarm setting actor wokeFrom choice.target? stored
      thinkAmong setting actor wokeFrom c candidates s =
        ⟨.ok settled.1.target, called.state,
          roused.2 ++ (chosen.events ++ (settled.2 ++ called.events))⟩ := by
  intro roused chosen
  have hchosen : Tended actor s chosen :=
    choose_tended setting roused.1 candidates (World.contains_of_bind hc)
  obtain ⟨choice, hchoice⟩ := hchosen.accepted
  refine ⟨choice, hchoice, ?_⟩
  intro settled stored called
  obtain ⟨_, hcalled⟩ := alarm_accepted setting actor wokeFrom choice.target? stored
  have hold := (hchosen.world.controller?_eq actor).trans hc
  unfold thinkAmong
  dsimp only
  rw [Action.publish_bind, Action.bind_of_ok hchoice]
  dsimp only
  rw [Action.publish_bind, Action.bind_of_ok (by rw [Action.storeController_eq hold]),
    Action.storeController_eq hold, Action.bind_of_ok hcalled]
  simp [roused, chosen, settled, stored, called]

/-- After the upkeep and the search the think goes on among those who were found. -/
theorem think_of_found {setting : Setting} {c : Controller}
    (hc : s.world.controller? actor = some c) {candidates : List Candidate}
    (hfound : found setting (upkeep setting.tuning actor s).state.world actor
      c.noteMode.markThought = candidates) (hsomebody : candidates ≠ []) :
    let before := upkeep setting.tuning actor s
    let among := thinkAmong setting actor c.state c.noteMode.markThought candidates before.state
    think setting actor s = ⟨among.result, among.state, before.events ++ among.events⟩ := by
  intro before among
  unfold think
  rw [Action.bind_of_ok (result_upkeep _ hc), Action.world_bind, hfound,
    if_neg (by simpa using hsomebody)]

/-- An actor that finds candidates wakes, chooses, settles, and cries out whom it chose. -/
theorem think_of_somebody {setting : Setting} {c : Controller}
    (hc : s.world.controller? actor = some c)
    (hsomebody : found setting (upkeep setting.tuning actor s).state.world actor
      c.noteMode.markThought ≠ []) :
    let before := upkeep setting.tuning actor s
    let candidates := found setting before.state.world actor c.noteMode.markThought
    let roused := c.noteMode.markThought.rouse actor
    let chosen := choose setting actor roused.1 candidates before.state
    ∃ choice, chosen.result = .ok choice ∧
      let settled := settle roused.1 actor choice
      let stored :=
        { chosen.state with world := chosen.state.world.setController actor settled.1 }
      let called := alarm setting actor c.state choice.target? stored
      think setting actor s =
        ⟨.ok settled.1.target, called.state,
          before.events ++ (roused.2 ++ (chosen.events ++ (settled.2 ++ called.events)))⟩ := by
  intro before candidates roused chosen
  have hstored := ((upkeep_tended setting.tuning hc).world.controller?_eq actor).trans hc
  obtain ⟨choice, hchoice, hrun⟩ :=
    thinkAmong_eq setting hstored c.state c.noteMode.markThought candidates
  exact ⟨choice, hchoice, by rw [think_of_found hc rfl hsomebody, hrun]⟩

/-- A think is never refused to an actor. -/
theorem think_accepted (setting : Setting) {c : Controller}
    (hc : s.world.controller? actor = some c) :
    ∃ target, (think setting actor s).result = .ok target := by
  by_cases hfound : found setting (upkeep setting.tuning actor s).state.world actor
      c.noteMode.markThought = []
  · rw [think_of_nobody hc hfound]
    exact ⟨none, rfl⟩
  · obtain ⟨choice, -, hrun⟩ := think_of_somebody hc hfound
    rw [hrun]
    exact ⟨_, rfl⟩

end Engine

end Hostility
