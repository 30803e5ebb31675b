import Hostility.Proofs.Heeding
import Hostility.Proofs.SparedKinds

/-!
Whom a think touches. Up to its call a think changes the mind of its actor only: its controller,
its ledger and its bias. The call changes the minds of the allies that it tells of. Whatever else
anybody is made of stays as it is, and nobody comes or goes.
-/
namespace Hostility

open Course Hostility.Action

variable {setting : Setting} {radius : Float} {actor enemy e : Entity} {answer : Option Entity}
  {c own : Controller} {s : State} {w w' : World} {parts : Components}

/-- The parts of an entity without its controller, its ledger and its bias. -/
def Components.body (c : Components) : Components :=
  { c with controller := none, ledger := none, bias := none }

/-- Two worlds that differ in the mind of one actor at most. Its profile and those whom it may
strike back at are the same as in the controller `c`. -/
structure World.SameButMind (actor : Entity) (c : Controller) (w w' : World) : Prop where
  others : ∀ e, e ≠ actor → w'.get? e = w.get? e
  body : (w'.get? actor).map Components.body = (w.get? actor).map Components.body
  own : ∃ own, w'.controller? actor = some own ∧ own.profile = c.profile ∧
    own.retaliation = c.retaliation

theorem World.SameButMind.of_stored (hw : w.SameButThreat actor w')
    (hactor : w.contains actor = true)
    (hprofile : own.profile = c.profile) (hretaliation : own.retaliation = c.retaliation) :
    w.SameButMind actor c (w'.setController actor own) where
  others e he := by rw [setController, get?_update, if_neg he, hw.others e he]
  body := by
    have hbody : Components.body ∘ Components.withoutThreat = Components.body := rfl
    have hown := congrArg (Option.map Components.body) hw.own
    rw [Option.map_map, Option.map_map, hbody] at hown
    rw [setController, get?_update, if_pos rfl, Option.map_map]
    exact hown
  own := ⟨own, by rw [controller?_setController ((hw.contains_eq actor).trans hactor), if_pos rfl],
    hprofile, hretaliation⟩

namespace Engine

/-- Up to its call a think of an actor changes its mind only, and only who was idle and has told
whom it acquired will call. -/
theorem resolve_conduct (setting : Setting) (hc : s.world.controller? actor = some c) :
    let resolved := resolve setting actor s
    ∃ answer enemy?, resolved.result = .ok (answer, enemy?) ∧
      s.world.SameButMind actor c resolved.state.world ∧
      ∀ enemy, enemy? = some enemy → c.state = .idle ∧ .targetAcquired actor enemy ∈
        resolved.events := by
  intro resolved
  have hactor := World.contains_of_bind hc
  have hbefore := upkeep_tended setting.tuning hc
  have hkept := (hbefore.world.controller?_eq actor).trans hc
  let before := (upkeep setting.tuning actor s).state
  let thinking := c.noteMode.markThought
  have hresolved : resolved = _ := bind_of_ok (result_upkeep _ hc)
  rw [hresolved]
  dsimp only
  rw [world_bind]
  split
  · rw [bind_of_ok (by rw [giveUp_eq hkept]), giveUp_eq hkept]
    refine ⟨none, none, rfl, .of_stored hbefore.world hactor ?_ ?_, by simp⟩
    · exact thinking.profile_disengage actor
    · exact thinking.retaliation_disengage actor
  · have hchosen := choose_tended setting (thinking.rouse actor).1
      (found setting before.world actor thinking) (World.contains_of_bind hkept)
    obtain ⟨choice, hchoice⟩ := hchosen.accepted
    have hold := (hchosen.world.controller?_eq actor).trans hkept
    rw [publish_bind, bind_of_ok hchoice]
    dsimp only
    rw [publish_bind, bind_of_ok (by rw [storeController_eq hold]), storeController_eq hold]
    refine ⟨_, _, rfl, .of_stored (hbefore.world.trans hchosen.world) hactor ?_ ?_, ?_⟩
    · exact (settle_profile _ actor choice).trans (thinking.profile_rouse actor)
    · exact (settle_retaliation _ actor choice).trans (thinking.retaliation_rouse actor)
    · intro enemy henemy
      split at henemy
      · next hidle =>
        refine ⟨hidle, ?_⟩
        simp [acquired_mem_settle.mpr henemy]
      · cases henemy

theorem cry_accepted (setting : Setting) (actor : Entity) (enemy? : Option Entity) :
    (cry setting actor enemy?).Accepted := by
  cases enemy? with
  | none => exact .pure ()
  | some enemy => exact (Alert.propagate_accepted setting actor enemy).bind fun _ => .pure ()

/-- A think is what it is up to its call, and then the call. -/
theorem think_of_resolve {enemy? : Option Entity}
    (h : (resolve setting actor s).result = .ok (answer, enemy?)) :
    let resolved := resolve setting actor s
    let called := cry setting actor enemy? resolved.state
    think setting actor s = ⟨.ok answer, called.state, resolved.events ++ called.events⟩ := by
  intro resolved called
  obtain ⟨_, hcalled⟩ := cry_accepted setting actor enemy? (resolve setting actor s).state
  rw [think_eq_resolve, bind_of_ok h]
  dsimp only
  rw [bind_of_ok hcalled]
  simp [resolved, called]

end Engine

/-- What an alert about an enemy makes of an ally: its controller turns to the enemy, and its ledger
may get an entry for it. -/
structure Components.Rallied (enemy : Entity) (floor : Int64) (parts parts' : Components) :
    Prop where
  body : parts'.body = parts.body
  bias : parts'.bias = parts.bias
  controller : ∃ c retaliation, parts.controller = some c ∧
    (retaliation = c.retaliation ∨ retaliation = c.retaliation.add enemy) ∧
    parts'.controller = some { c with state := .engaged, target := some enemy, retaliation }
  ledger : parts'.ledger = parts.ledger ∨
    parts'.ledger = some ((parts.ledger.getD .empty).seed enemy floor).1

theorem Alert.heeding_rallied (t : Tuning) (enemy : Entity) (reserved strikesOwn : Bool)
    (hc : parts.controller = some c) :
    parts.Rallied enemy t.threatMinimum (heeding t enemy reserved strikesOwn parts) := by
  rw [heeding_of_controller _ _ _ _ _ hc]
  refine ⟨rfl, rfl, ?_, ?_⟩
  · cases strikesOwn with
    | true => exact ⟨c, c.retaliation.add enemy, hc, .inr rfl, rfl⟩
    | false => exact ⟨c, c.retaliation, hc, .inl rfl, rfl⟩
  · dsimp only
    split
    · exact .inr rfl
    · exact .inl rfl

/-- The call of a think rallies those whom it reaches, and tells of each of them. -/
theorem Engine.cry_rallies (hv : setting.visibility = .proximity radius) (actor : Entity)
    (enemy? : Option Entity) (s : State) (e : Entity) :
    let called := cry setting actor enemy? s
    called.state.world.get? e = s.world.get? e ∨
      ∃ enemy parts parts', enemy? = some enemy ∧ e ≠ actor ∧
        .allyAlerted actor e enemy ∈ called.events ∧ s.world.get? e = some parts ∧
        called.state.world.get? e = some parts' ∧
        parts.Rallied enemy setting.tuning.threatMinimum parts' := by
  intro called
  cases enemy? with
  | none => exact .inl rfl
  | some enemy =>
    obtain ⟨hresult, hget, htold⟩ := Alert.propagate_effect hv actor enemy s
    have hcalled : called = _ := bind_of_ok hresult
    rw [hcalled]
    by_cases he : e ∈ Alert.reach setting s actor enemy
    · obtain ⟨c, hc⟩ := Alert.controller_of_mem_reach he
      obtain ⟨parts, hparts, hown⟩ := Option.bind_eq_some_iff.mp hc
      have hheeds := hget e
      rw [if_pos he, hparts, Option.map_some] at hheeds
      have halert : .allyAlerted actor e enemy ∈
          (Alert.propagate setting actor enemy s).events.filter Event.isAlert := by
        rw [htold]
        exact List.mem_map_of_mem he
      exact .inr ⟨enemy, parts, _, rfl, Alert.ne_of_mem_reach hv he,
        by simpa using (List.mem_filter.mp halert).1, hparts, hheeds,
        Alert.heeding_rallied setting.tuning enemy _ _ hown⟩
    · exact .inl ((hget e).trans (if_neg he))

namespace Engine

/-- A think of an actor changes its own mind, and then may rally others, of whom it tells. It
rallies nobody unless the actor was idle and acquired somebody. -/
theorem think_rallies (hv : setting.visibility = .proximity radius)
    (hc : s.world.controller? actor = some c) :
    let thought := think setting actor s
    ∃ w, s.world.SameButMind actor c w ∧ ∀ e, thought.state.world.get? e = w.get? e ∨
      ∃ enemy parts parts', e ≠ actor ∧ c.state = .idle ∧
        .targetAcquired actor enemy ∈ thought.events ∧
        .allyAlerted actor e enemy ∈ thought.events ∧ w.get? e = some parts ∧
        thought.state.world.get? e = some parts' ∧
        parts.Rallied enemy setting.tuning.threatMinimum parts' := by
  intro thought
  obtain ⟨answer, enemy?, hresolved, hmind, hcalls⟩ := resolve_conduct setting hc
  let resolved := resolve setting actor s
  let called := cry setting actor enemy? resolved.state
  have hthought : thought = ⟨.ok answer, called.state, resolved.events ++ called.events⟩ :=
    think_of_resolve hresolved
  rw [hthought]
  refine ⟨resolved.state.world, hmind, fun e => ?_⟩
  rcases cry_rallies hv actor enemy? resolved.state e with hsame | hrallied
  · exact .inl hsame
  · obtain ⟨enemy, parts, parts', henemy, he, halert, hparts, hparts', hrallied⟩ := hrallied
    obtain ⟨hidle, hacquired⟩ := hcalls enemy henemy
    exact .inr ⟨enemy, parts, parts', he, hidle, List.mem_append_left _ hacquired,
      List.mem_append_right _ halert, hparts, hparts', hrallied⟩

/-- With sight as the way of perceiving, a think that is not refused leaves everybody in the world
and all bodies as they are, and the profile and the registry of its actor. If the actor was not
idle, or acquired nobody, nobody else changes at all. Otherwise the others that change are allies of
whom the think has told, and they are rallied. -/
theorem think_touches_actor_and_allies (hv : setting.visibility = .proximity radius)
    (hok : (think setting actor s).result = .ok answer) :
    let thought := think setting actor s
    let w := s.world
    let w' := thought.state.world
    (∀ e, w'.contains e = w.contains e) ∧
    (∀ e, (w'.get? e).map Components.body = (w.get? e).map Components.body) ∧
    ∃ c own, w.controller? actor = some c ∧ w'.controller? actor = some own ∧
      own.profile = c.profile ∧ own.retaliation = c.retaliation ∧
      (c.state ≠ .idle ∨ (∀ e, .targetAcquired actor e ∉ thought.events) →
        ∀ e, e ≠ actor → w'.get? e = w.get? e) ∧
      ∀ e, e ≠ actor → w'.get? e = w.get? e ∨
        ∃ enemy parts parts', .allyAlerted actor e enemy ∈ thought.events ∧
          w.get? e = some parts ∧ w'.get? e = some parts' ∧
          parts.Rallied enemy setting.tuning.threatMinimum parts' := by
  intro thought w w'
  obtain ⟨c, hc⟩ : ∃ c, s.world.controller? actor = some c := by
    cases hc : s.world.controller? actor with
    | some c => exact ⟨c, rfl⟩
    | none =>
      obtain ⟨refusal, hrefused⟩ := think_of_no_controller setting hc
      rw [hrefused] at hok
      cases hok
  obtain ⟨settled, hmind, hafter⟩ := think_rallies hv hc
  have hbody (e : Entity) : (w'.get? e).map Components.body = (w.get? e).map Components.body := by
    have hsettled : (settled.get? e).map Components.body = (w.get? e).map Components.body := by
      by_cases he : e = actor
      · rw [he, hmind.body]
      · rw [hmind.others e he]
    rcases hafter e with hsame | ⟨enemy, parts, parts', -, -, -, -, hparts, hparts', hrallied⟩
    · rw [← hsettled]
      exact congrArg _ hsame
    · rw [← hsettled, hparts, show w'.get? e = some parts' from hparts', Option.map_some,
        Option.map_some, hrallied.body]
  have hcontains (e : Entity) : w'.contains e = w.contains e := by
    have hsome := congrArg Option.isSome (hbody e)
    rwa [Option.isSome_map, Option.isSome_map] at hsome
  obtain ⟨own, hown, hprofile, hretaliation⟩ := hmind.own
  have hstored : w'.controller? actor = some own := by
    rcases hafter actor with hsame | ⟨_, _, _, hself, -⟩
    · rw [← hown]
      exact congrArg (Option.bind · _) hsame
    · exact (hself rfl).elim
  refine ⟨hcontains, hbody, c, own, hc, hstored, hprofile, hretaliation, fun hcalm e he => ?_,
    fun e he => ?_⟩
  · rcases hafter e with hsame | ⟨enemy, _, _, -, hidle, hacquired, -⟩
    · exact hsame.trans (hmind.others e he)
    · rcases hcalm with hawake | hnobody
      · exact (hawake hidle).elim
      · exact (hnobody enemy hacquired).elim
  · rcases hafter e with hsame | ⟨enemy, parts, parts', -, -, -, halert, hparts, hrallied⟩
    · exact .inl (hsame.trans (hmind.others e he))
    · exact .inr ⟨enemy, parts, parts', halert, (hmind.others e he).symm.trans hparts, hrallied⟩

end Engine

theorem result_outpost : (Engine.think {} ⟨0, 1⟩ outpost).result = .ok (some ⟨2, 1⟩) := by
  have htended := Engine.upkeep_tended ({} : Setting).tuning controller?_outpost
  have hkept := (htended.world.controller?_eq ⟨0, 1⟩).trans controller?_outpost
  obtain ⟨choice, hchoice, hrun⟩ := Engine.thinkAmong_eq {} hkept .idle
    (Controller.ofProfile orcish).noteMode.markThought [⟨⟨2, 1⟩, 3.0, .player, none⟩]
  obtain rfl : choice = .chosen ⟨2, 1⟩ := Except.ok.inj (hchoice.symm.trans choice_outpost)
  rw [Engine.think_of_found controller?_outpost found_outpost (by simp)]
  dsimp only
  exact (congrArg Outcome.result hrun).trans rfl

/-- The warden of the outpost is rallied by the think of the scout, or stays as it is. -/
theorem outpost_think_touches_warden_only :
    (Engine.think {} ⟨0, 1⟩ outpost).result = .ok (some ⟨2, 1⟩) ∧
    let thought := Engine.think {} ⟨0, 1⟩ outpost
    let w := outpost.world
    let w' := thought.state.world
    (∀ e, w'.contains e = w.contains e) ∧
    (∀ e, (w'.get? e).map Components.body = (w.get? e).map Components.body) ∧
    ∃ c own, w.controller? ⟨0, 1⟩ = some c ∧ w'.controller? ⟨0, 1⟩ = some own ∧
      own.profile = c.profile ∧ own.retaliation = c.retaliation ∧
      (c.state ≠ .idle ∨ (∀ e, .targetAcquired ⟨0, 1⟩ e ∉ thought.events) →
        ∀ e, e ≠ ⟨0, 1⟩ → w'.get? e = w.get? e) ∧
      ∀ e, e ≠ ⟨0, 1⟩ → w'.get? e = w.get? e ∨
        ∃ enemy parts parts', .allyAlerted ⟨0, 1⟩ e enemy ∈ thought.events ∧
          w.get? e = some parts ∧ w'.get? e = some parts' ∧ parts.Rallied enemy 100 parts' :=
  ⟨result_outpost, Engine.think_touches_actor_and_allies rfl result_outpost⟩

end Hostility
