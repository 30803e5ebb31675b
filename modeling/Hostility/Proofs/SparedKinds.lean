import Hostility.Proofs.Beats
import Hostility.Proofs.FriendlyFire
import Hostility.Proofs.LockedTarget
import Hostility.Proofs.Natures

/-!
Whom an actor spares for what they are. An actor that hunts monsters only finds no player and no
companion of one. A call by kin without this tolerance breaks the rule: it points whoever hears it
at any enemy of the caller.
-/
namespace Hostility

variable {setting : Setting} {radius : Float} {w w' : World} {actor target e : Entity}
  {c c' own : Controller} {events : List Event} {s s' : State}

open Course Hostility.Action

def World.isPlayerSide (w : World) (e : Entity) : Bool :=
  match (w.get? e).bind (·.targetable) with
  | some t => t.kind.isPlayerSide
  | none => false

theorem World.isPlayerSide_eq
    (h : (w'.get? e).bind (·.targetable) = (w.get? e).bind (·.targetable)) :
    w'.isPlayerSide e = w.isPlayerSide e := by
  rw [isPlayerSide, h, isPlayerSide]

theorem World.SameNature.isPlayerSide_eq (h : w.SameNature w') (e : Entity) :
    w'.isPlayerSide e = w.isPlayerSide e :=
  World.isPlayerSide_eq (h.bind_eq (fun _ => rfl) e)

/-- An actor with the tolerance finds no player and no companion. -/
theorem Engine.not_isPlayerSide_of_mem_found {k : Candidate} (h : k ∈ found setting w actor c)
    (honly : c.profile.monstersOnly = true) : w.isPlayerSide k.entity = false := by
  obtain ⟨seen, -, -, hok⟩ := Observer.mem_candidates.mp h
  obtain ⟨parts, hparts, haccepts, rfl⟩ := Observer.evaluate_eq_ok_iff.mp hok
  have hkind : (Observer.kindOf parts).isPlayerSide = false := haccepts.prey honly
  unfold World.isPlayerSide
  rw [hparts, Option.bind_some]
  unfold Observer.kindOf at hkind
  cases ht : parts.targetable with
  | none => rfl
  | some t => simpa [ht] using hkind

/-- A fight that an actor may be in: against one who has entered the world, and who is no player and
no companion if the actor has the tolerance, or to whom it was lured. -/
structure Controller.SparesPlayers (c : Controller) (w : World) (lured : Entity → Prop) : Prop where
  born : ∀ t, c.target = some t → ¬ w.Unborn t
  spares : c.profile.monstersOnly = true → ∀ t, c.target = some t → w.isPlayerSide t = true →
    lured t

namespace Controller.SparesPlayers

variable {lured lured' : Entity → Prop}

theorem of_no_target (h : c.target = none) : c.SparesPlayers w lured where
  born t ht := by simp [h] at ht
  spares _ t ht := by simp [h] at ht

theorem of_target (h : c.target = some target) (hborn : ¬ w.Unborn target)
    (hspares : c.profile.monstersOnly = true → w.isPlayerSide target = true → lured target) :
    c.SparesPlayers w lured where
  born t ht := by
    obtain rfl := Option.some.inj (h.symm.trans ht)
    exact hborn
  spares honly t ht := by
    obtain rfl := Option.some.inj (h.symm.trans ht)
    exact hspares honly

theorem congr (h : c.SparesPlayers w lured) (hprofile : c'.profile = c.profile)
    (htarget : c'.target = c.target ∨ c'.target = none) : c'.SparesPlayers w lured := by
  rcases htarget with htarget | htarget
  · constructor
    · intro t ht
      exact h.born t (htarget.symm.trans ht)
    · intro honly t ht
      exact h.spares (hprofile ▸ honly) t (htarget.symm.trans ht)
  · exact .of_no_target htarget

theorem mono (h : c.SparesPlayers w lured) (hlured : ∀ e, lured e → lured' e) :
    c.SparesPlayers w lured' where
  born := h.born
  spares honly t ht hplayer := hlured t (h.spares honly t ht hplayer)

theorem of_sameNature (h : c.SparesPlayers w lured) (hnature : w.SameNature w') :
    c.SparesPlayers w' lured where
  born t ht := by
    rw [World.Unborn, hnature.next]
    exact h.born t ht
  spares honly t ht hplayer := h.spares honly t ht ((hnature.isPlayerSide_eq t).symm.trans hplayer)

end Controller.SparesPlayers

def World.SparesPlayers (w : World) (lured : Entity → Entity → Prop) : Prop :=
  ∀ actor c, w.controller? actor = some c → c.SparesPlayers w (lured actor)

variable {lured lured' : Entity → Entity → Prop}

theorem World.AllFresh.sparesPlayers (h : w.AllFresh) : w.SparesPlayers lured := by
  intro actor c hc
  rw [h actor c hc]
  exact .of_no_target rfl

theorem World.SparesPlayers.mono (h : w.SparesPlayers lured)
    (hlured : ∀ actor e, lured actor e → lured' actor e) : w.SparesPlayers lured' :=
  fun actor c hc => (h actor c hc).mono (hlured actor)

/-- As long as targets are kept or dropped, nothing changes. -/
theorem World.SparesPlayers.of_kept (h : w.SparesPlayers lured) (hnature : w.SameNature w')
    (hkept : ∀ actor c', w'.controller? actor = some c' → ∃ c, w.controller? actor = some c ∧
      c'.profile = c.profile ∧ (c'.target = c.target ∨ c'.target = none)) :
    w'.SparesPlayers lured := by
  intro actor c' hc'
  obtain ⟨c, hc, hprofile, htarget⟩ := hkept actor c' hc'
  exact ((h actor c hc).congr hprofile htarget).of_sameNature hnature

/-- The beat is a think of an actor without the tolerance that calls another actor to a target. -/
def Beat.Lures (setting : Setting) (s : State) (beat : Beat) (actor target : Entity) : Prop :=
  ∃ caller k, beat = .think caller ∧ s.world.controller? caller = some k ∧
    k.profile.monstersOnly = false ∧
    .allyAlerted caller actor target ∈ (Engine.think setting caller s).events

namespace Engine

/-- Whom a thinking actor finds. -/
theorem spared_of_mem_found {thinker : Entity} {k : Controller} {seen : Candidate}
    (hk : s.world.controller? thinker = some k)
    (hseen : seen ∈ found setting (upkeep setting.tuning thinker s).state.world thinker
      k.noteMode.markThought) (hnature : s.world.SameNature w) :
    ¬ w.Unborn seen.entity ∧
      (k.profile.monstersOnly = true → w.isPlayerSide seen.entity = false) := by
  have hupkeep := (upkeep_tended setting.tuning hk).world.sameNature
  obtain ⟨parts, hparts, -⟩ := parts_of_mem_found hseen
  constructor
  · apply World.not_unborn_of_contains
    rw [hnature.contains_eq, ← hupkeep.contains_eq]
    simp [World.contains, hparts]
  · intro honly
    rw [hnature.isPlayerSide_eq, ← hupkeep.isPlayerSide_eq]
    exact not_isPlayerSide_of_mem_found hseen honly

/-- What a thinking actor makes of its own controller. -/
theorem Resolves.sparesPlayers {thinker : Entity} {k : Controller} {lured : Entity → Prop}
    (hk : s.world.controller? thinker = some k) (hown : Resolves setting s thinker k own)
    (h : k.SparesPlayers s.world lured) (hnature : s.world.SameNature w) :
    own.SparesPlayers w lured := by
  cases hown with
  | giveUp => exact .of_no_target (Controller.target_disengage _ thinker)
  | settle choice among =>
    let roused := (k.noteMode.markThought.rouse thinker).1
    have htarget : (Engine.settle roused thinker choice).1.target = choice.target?.or k.target := by
      rw [settle_target, Controller.target_rouse]
      rfl
    have hprofile : (Engine.settle roused thinker choice).1.profile = k.profile := by
      rw [settle_profile, Controller.profile_rouse]
      rfl
    cases hchoice : choice.target? with
    | none =>
      rw [hchoice, Option.none_or] at htarget
      exact (h.congr hprofile (.inl htarget)).of_sameNature hnature
    | some picked =>
      rw [hchoice, Option.some_or] at htarget
      obtain ⟨seen, hseen, rfl⟩ := among picked hchoice
      obtain ⟨hborn, hspared⟩ := spared_of_mem_found hk hseen hnature
      refine .of_target htarget hborn fun honly hplayer => ?_
      rw [hspared (hprofile ▸ honly)] at hplayer
      cases hplayer

theorem think_sparesPlayers (hv : setting.visibility = .proximity radius) (thinker : Entity)
    (h : s.world.SparesPlayers lured)
    (hlured : ∀ actor t, (Beat.think thinker).Lures setting s actor t → lured actor t) :
    (think setting thinker s).state.world.SparesPlayers lured := by
  cases hk : s.world.controller? thinker with
  | none =>
    obtain ⟨refusal, hrefused⟩ := think_of_no_controller setting hk
    rwa [hrefused]
  | some k =>
    obtain ⟨own, enemy, allies, hthought⟩ := think_thought hv hk
    have hnature : s.world.SameNature (think setting thinker s).state.world :=
      (natural_pieces setting).think thinker s
    intro actor c' hc'
    by_cases hself : actor = thinker
    · subst hself
      obtain rfl := Option.some.inj (hthought.stored.symm.trans hc')
      exact hthought.resolves.sparesPlayers hk (h actor k hk) hnature
    by_cases hally : actor ∈ allies
    · obtain ⟨c, hc, -, htarget⟩ := hthought.engaged actor hally
      obtain rfl := Option.some.inj (hc.symm.trans hc')
      obtain ⟨seen, hseen, rfl⟩ := hthought.picked (List.ne_nil_of_mem hally)
      obtain ⟨hborn, hspared⟩ := spared_of_mem_found hk hseen hnature
      refine .of_target htarget hborn fun _ hplayer => hlured actor _ ⟨thinker, k, rfl, hk, ?_, ?_⟩
      · rw [Bool.eq_false_iff]
        intro honly
        rw [hspared honly] at hplayer
        cases hplayer
      · have htold : .allyAlerted thinker actor seen.entity ∈
            (think setting thinker s).events.filter Event.isAlert := by
          rw [hthought.told]
          exact List.mem_map_of_mem hally
        exact (List.mem_filter.mp htold).1
    · exact (h actor c' ((hthought.others actor hself hally).symm.trans hc')).of_sameNature hnature

end Engine

/-- A host that leaves it alone what entities are to an attacker. -/
def Change.SparesKinds : Change → Prop
  | .edit _ f => ∀ parts, (f parts).targetable = parts.targetable
  | _ => True

/-- A move that leaves controllers to the engine and kinds as they are, and is no call asked for
outright. -/
structure Move.KeepsKinds (move : Move) : Prop where
  controllers : move.SparesControllers
  kinds : ∀ change, move = .host change → change.SparesKinds
  calls : ∀ request, move = .ask request → ¬ request.IsRumour

/-- Whoever has entered the world and is a player after a change was one before. -/
theorem Change.isPlayerSide_apply {change : Change} (h : change.SparesKinds)
    (hborn : ¬ s.world.Unborn e) (hplayer : (change.apply s).world.isPlayerSide e = true) :
    s.world.isPlayerSide e = true := by
  unfold World.isPlayerSide at hplayer ⊢
  cases hparts : (change.apply s).world.get? e with
  | none => simp [hparts] at hplayer
  | some parts =>
    rw [hparts] at hplayer
    rcases get?_apply hparts with hold | ⟨f, old, rfl, hold, rfl⟩ | ⟨rfl, rfl⟩
    · rwa [hold]
    · rwa [hold, Option.bind_some, ← h old]
    · exact (hborn (World.unborn_spawn s.world parts)).elim

theorem World.SparesPlayers.apply {change : Change} (h : s.world.SparesPlayers lured)
    (hcontrollers : change.SparesControllers) (hkinds : change.SparesKinds) :
    (change.apply s).world.SparesPlayers lured := by
  intro actor c hc
  rcases Change.controller?_apply hcontrollers hc with hold | hfresh
  · have hspares := h actor c hold
    constructor
    · intro t ht hunborn
      exact hspares.born t ht (Change.unborn_of_apply hunborn)
    · intro honly t ht hplayer
      exact hspares.spares honly t ht (Change.isPlayerSide_apply hkinds (hspares.born t ht) hplayer)
  · rw [hfresh]
    exact .of_no_target rfl

/-- A request by which nobody can get a new target. -/
theorem Request.perform_sparesPlayers (setting : Setting) {request : Request}
    (h : ¬ request.IsDecision) (hs : s.world.SparesPlayers lured) :
    (request.perform setting s).state.world.SparesPlayers lured := by
  refine hs.of_kept (request.perform_natural setting s) fun actor c' hc' => ?_
  have hsteers : Course.steering True s _ _ := request.perform_steering setting (fun _ => trivial) s
  obtain ⟨c, hc, htarget⟩ := request.target_of_no_decision setting h hc'
  obtain ⟨old, hold, hprofile⟩ := hsteers.exists_profile hc'
  obtain rfl := Option.some.inj (hc.symm.trans hold)
  exact ⟨c, hc, hprofile, htarget⟩

theorem Beat.perform_sparesPlayers (hv : setting.visibility = .proximity radius)
    {moves : List Move} (hmoves : ∀ move ∈ moves, move.KeepsKinds) {beat : Beat}
    (hbeat : beat.IsOf moves) (h : s.world.SparesPlayers lured)
    (hlured : ∀ actor t, beat.Lures setting s actor t → lured actor t) :
    (beat.perform setting s).state.world.SparesPlayers lured := by
  cases hbeat with
  | advance seconds =>
    refine h.of_kept (.updateAll (by intro _; rfl) s.world) fun actor c' hc' => ?_
    replace hc' : (s.world.updateAll (Engine.elapse seconds)).controller? actor = some c' := hc'
    rw [World.controller?_elapse] at hc'
    obtain ⟨c, hc, rfl⟩ := Option.map_eq_some_iff.mp hc'
    exact ⟨c, hc, rfl, .inl rfl⟩
  | think thinker => exact Engine.think_sparesPlayers hv thinker h hlured
  | @move m mem single =>
    have hm := hmoves m mem
    cases m with
    | host change => exact h.apply hm.controllers (hm.kinds change rfl)
    | ask request =>
      by_cases hdecision : request.IsDecision
      · cases request with
        | think thinker => exact Engine.think_sparesPlayers hv thinker h hlured
        | update seconds => exact (single seconds rfl).elim
        | propagate caller enemy => exact (hm.calls _ rfl trivial).elim
        | _ => exact hdecision.elim
      · exact request.perform_sparesPlayers setting hdecision h

theorem playBeats_sparesPlayers (hv : setting.visibility = .proximity radius) {moves : List Move}
    (hmoves : ∀ move ∈ moves, move.KeepsKinds) {beats : List Beat}
    (hbeats : ∀ beat ∈ beats, beat.IsOf moves) (hfresh : s.world.AllFresh) :
    (playBeats setting beats s).state.world.SparesPlayers
      (Blamed setting (Beat.Lures setting) s beats) :=
  playBeats_but_blamed (fun lured s => s.world.SparesPlayers lured) (fun hlured h => h.mono hlured)
    (fun hbeat hlured h => Beat.perform_sparesPlayers hv hmoves hbeat h hlured) hbeats
    hfresh.sparesPlayers

/-- From a world of fresh controllers, as long as nobody but the engine writes controllers and calls
for help, and kinds stay as they are, an actor that hunts monsters only has a player or a companion
as its target only if an actor without this tolerance called it to that target in a think. -/
theorem playOut_players_hunted_only_when_lured (hv : setting.visibility = .proximity radius)
    (hfresh : s.world.AllFresh) {moves : List Move} (hmoves : ∀ move ∈ moves, move.KeepsKinds)
    (hc : (playOut setting moves s).state.world.controller? actor = some c)
    (honly : c.profile.tolerances.contains .monstersOnly = true)
    (htarget : c.target = some target)
    (hplayer : (playOut setting moves s).state.world.isPlayerSide target = true) :
    ∃ earlier caller later, beatsOf setting moves s = earlier ++ .think caller :: later ∧
      let before := (playBeats setting earlier s).state
      ∃ k, before.world.controller? caller = some k ∧
        k.profile.tolerances.contains .monstersOnly = false ∧
        .allyAlerted caller actor target ∈ (Engine.think setting caller before).events := by
  rw [← playBeats_beatsOf] at hc hplayer
  have hspares := playBeats_sparesPlayers hv hmoves (fun _ => isOf_of_mem_beatsOf) hfresh actor c hc
  obtain ⟨earlier, beat, later, hbeats, caller, k, rfl, hk, hfree, htold⟩ :=
    hspares.spares honly target htarget hplayer
  exact ⟨earlier, caller, later, hbeats, k, hk, hfree, htold⟩

/-- The profile of an orc that hunts monsters only. -/
def devout : Profile := { orcish with tolerances := ⟨Tolerance.monstersOnly.mask⟩ }

/-- A scout that hunts anybody, a warden of its kind that hunts monsters only, and Aria. -/
def outpost : State where
  world :=
    let orc (x : Float) (faction : Nat) (profile : Profile) : Components :=
      { position := some ⟨x, 0.0, 0.0⟩
        allegiance := some ⟨⟨faction⟩, .ofFriends "orc" []⟩
        controller := some (.ofProfile profile) }
    let aria : Components :=
      { position := some ⟨3.0, 0.0, 0.0⟩
        targetable := some .player
        allegiance := some ⟨⟨3⟩, .ofFriends "" []⟩ }
    (((World.empty.spawn (orc 0.0 1 orcish)).2.spawn (orc 2.0 2 devout)).2.spawn aria).2
  random := .cycle [0]
  now := 0
  alerts := ∅

theorem outpost_allFresh : outpost.world.AllFresh := by
  refine ((World.allFresh_empty.spawn ?_).spawn ?_).spawn ?_
  · rintro c ⟨⟩
    rfl
  · rintro c ⟨⟩
    rfl
  · rintro c ⟨⟩

/-- The sort behind the order of the world does not evaluate, so the search is replaced by what it
finds. -/
theorem found_outpost :
    Engine.found {} (Engine.upkeep {} ⟨0, 1⟩ outpost).state.world ⟨0, 1⟩
      (Controller.ofProfile orcish).noteMode.markThought = [⟨⟨2, 1⟩, 3.0, .player, none⟩] := by
  rw [Engine.found_of_entities rfl (World.entities_of_sorted (by decide +kernel))]
  decide +kernel

theorem choice_outpost :
    (Engine.choose {} ⟨0, 1⟩ ((Controller.ofProfile orcish).noteMode.markThought.rouse ⟨0, 1⟩).1
      [⟨⟨2, 1⟩, 3.0, .player, none⟩] (Engine.upkeep {} ⟨0, 1⟩ outpost).state).result =
        .ok (.chosen ⟨2, 1⟩) := by
  rfl

theorem controller?_outpost : outpost.world.controller? ⟨0, 1⟩ = some (.ofProfile orcish) := by
  decide +kernel

/-- The warden of the outpost, pointed at a player. -/
def luredWarden : Controller :=
  { Controller.ofProfile devout with state := .engaged, target := some ⟨2, 1⟩ }

theorem controller?_afterScout_outpost :
    (afterScout outpost).world.controller? ⟨1, 1⟩ = some luredWarden ∧
      (afterScout outpost).world.isPlayerSide ⟨2, 1⟩ = true := by
  have hheard : Alert.listeners (.proximity 20.0) (beforeCry outpost).world ⟨0, 1⟩ ⟨2, 1⟩ =
      [⟨1, 1⟩] := by
    have hscout : (beforeCry outpost).world.allegiance? ⟨0, 1⟩ =
        some ⟨⟨1⟩, .ofFriends "orc" []⟩ := by decide +kernel
    rw [Alert.listeners_of_entities (World.entities_of_sorted (by decide +kernel)) hscout]
    decide +kernel
  rw [afterScout_eq controller?_outpost found_outpost choice_outpost (by decide +kernel) hheard]
  decide +kernel

/-- The warden hunts a player, so it was lured. -/
theorem outpost_warden_was_lured :
    luredWarden.profile.tolerances.contains .monstersOnly = true ∧
      ∃ earlier caller later, beatsOf {} [.ask (.think ⟨0, 1⟩)] outpost =
          earlier ++ .think caller :: later ∧
        let before := (playBeats {} earlier outpost).state
        ∃ k, before.world.controller? caller = some k ∧
          k.profile.tolerances.contains .monstersOnly = false ∧
          .allyAlerted caller ⟨1, 1⟩ ⟨2, 1⟩ ∈ (Engine.think {} caller before).events := by
  have honly : luredWarden.profile.tolerances.contains .monstersOnly = true := by decide +kernel
  have hmoves : ∀ move ∈ [Move.ask (.think ⟨0, 1⟩)], move.KeepsKinds := by
    intro move hmove
    rw [List.mem_singleton.mp hmove]
    exact ⟨trivial, by simp, by simp [Request.IsRumour]⟩
  exact ⟨honly, playOut_players_hunted_only_when_lured rfl outpost_allFresh hmoves
    controller?_afterScout_outpost.1 honly rfl controller?_afterScout_outpost.2⟩

/-- One think in a world of fresh controllers ends with an actor that hunts monsters only and has a
player as its target. -/
theorem outpost_warden_hunts_player :
    outpost.world.AllFresh ∧
      let w := (playOut {} [.ask (.think ⟨0, 1⟩)] outpost).state.world
      ∃ c, w.controller? ⟨1, 1⟩ = some c ∧ c.target = some ⟨2, 1⟩ ∧
        c.profile.tolerances.contains .monstersOnly = true ∧ w.isPlayerSide ⟨2, 1⟩ = true :=
  ⟨outpost_allFresh, luredWarden, controller?_afterScout_outpost.1, rfl, by decide +kernel,
    controller?_afterScout_outpost.2⟩

end Hostility
