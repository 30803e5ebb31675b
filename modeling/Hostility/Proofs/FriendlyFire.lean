import Hostility.Proofs.EventLog
import Hostility.Proofs.Turns
import Mathlib.Data.List.Induction

/-!
Whom an actor spares. An actor that is left to its own eyes fights a member of its own faction only
to strike back. A call by kin of another faction breaks that rule: the callers of one faction do not
ask whether those who hear them belong to the faction of the enemy.
-/
namespace Hostility

variable {w w' : World} {actor target : Entity} {c c' : Controller} {events : List Event}
  {s : State}

open Hostility.Action

theorem Alert.sharesFaction_trans {a b e : Entity} (hab : sharesFaction w a b = true)
    (hbe : sharesFaction w b e = true) : sharesFaction w a e = true := by
  unfold sharesFaction at *
  cases ha : w.allegiance? a <;> cases hb : w.allegiance? b <;> cases he : w.allegiance? e <;>
    simp_all [Allegiance.sameFaction]

/-- A fight that an actor may be in: against one who has entered the world, and who is of another
faction, or whom it strikes back at, or at whom it was pointed by mistake. -/
structure Controller.IsBlameless (c : Controller) (w : World) (actor : Entity)
    (misled : Entity → Prop) : Prop where
  born : ∀ target, c.target = some target → ¬ w.Unborn target
  spares : ∀ target, c.target = some target → Alert.sharesFaction w actor target = true →
    c.retaliates target = true ∨ misled target

/-- A call by kin of another faction about an enemy. -/
def World.MisleadsIn (w : World) (events : List Event) (actor target : Entity) : Prop :=
  ∃ caller, .allyAlerted caller actor target ∈ events ∧ Alert.areKin w caller actor = true ∧
    Alert.sharesFaction w caller actor = false

namespace Controller.IsBlameless

variable {misled misled' : Entity → Prop}

theorem of_no_target (h : c.target = none) : c.IsBlameless w actor misled where
  born target htarget := by simp [h] at htarget
  spares target htarget := by simp [h] at htarget

theorem congr (h : c.IsBlameless w actor misled) (htarget : c'.target = c.target)
    (hretaliates : ∀ e, c.retaliates e = true → c'.retaliates e = true) :
    c'.IsBlameless w actor misled where
  born target ht := h.born target (htarget.symm.trans ht)
  spares target ht hshares :=
    (h.spares target (htarget.symm.trans ht) hshares).imp_left (hretaliates target)

theorem mono (h : c.IsBlameless w actor misled) (hmisled : ∀ e, misled e → misled' e) :
    c.IsBlameless w actor misled' where
  born := h.born
  spares target ht hshares := (h.spares target ht hshares).imp_right (hmisled target)

end Controller.IsBlameless

/-- An actor that hears no rumours stays blameless on every turn, unless kin mislead it. -/
theorem Turn.isBlameless {misled : Entity → Prop} (h : Turn False w events actor c c')
    (hmisled : ∀ e, w.MisleadsIn events actor e → misled e) (hc : c.IsBlameless w actor misled) :
    c'.IsBlameless w actor misled := by
  cases h with
  | elapse seconds => exact hc.congr rfl fun _ he => he
  | giveUp => exact .of_no_target (Controller.target_disengage _ actor)
  | comeHome => exact .of_no_target (by simp)
  | retaliate attacker =>
    refine hc.congr rfl fun e he => ?_
    simp only [Controller.retaliates, Controller.retaliateAgainst, EntitySet.contains_add,
      Bool.or_eq_true] at *
    exact .inr he
  | settle choice fair =>
    have hretaliates : ∀ e, (Engine.settle (c.noteMode.markThought.rouse actor).1 actor
        choice).1.retaliates e = c.retaliates e := by
      intro e
      rw [Controller.retaliates, Engine.settle_retaliation, Controller.retaliation_rouse]
      rfl
    have htarget : (Engine.settle (c.noteMode.markThought.rouse actor).1 actor choice).1.target =
        choice.target?.or c.target := by
      rw [Engine.settle_target, Controller.target_rouse]
      rfl
    cases hchoice : choice.target? with
    | none =>
      refine hc.congr (by rw [htarget, hchoice, Option.none_or]) fun e he => ?_
      rwa [hretaliates]
    | some picked =>
      have hgame := fair picked hchoice
      rw [hchoice, Option.some_or] at htarget
      constructor
      · intro e he
        obtain rfl := Option.some.inj (htarget.symm.trans he)
        exact World.not_unborn_of_contains hgame.present
      · intro e he hshares
        obtain rfl := Option.some.inj (htarget.symm.trans he)
        exact .inl ((hretaliates picked).trans (hgame.fair hshares))
  | @heed caller enemy retaliates other kin call told =>
    have hcall := call.resolve_left id
    have htarget : (Alert.pointAt c enemy (Alert.sharesFaction w actor enemy &&
        retaliates)).target = some enemy := by
      unfold Alert.pointAt
      dsimp only
      split <;> rfl
    constructor
    · intro e he
      obtain rfl := Option.some.inj (htarget.symm.trans he)
      exact World.not_unborn_of_contains hcall.present
    · intro e he hshares
      obtain rfl := Option.some.inj (htarget.symm.trans he)
      cases retaliates with
      | true =>
        refine .inl ?_
        simp [Alert.pointAt, hshares, Controller.retaliates, Controller.retaliateAgainst,
          EntitySet.contains_add]
      | false =>
        refine .inr (hmisled enemy ⟨caller, told, kin, ?_⟩)
        rw [Bool.eq_false_iff]
        intro hsame
        cases hcall.fair (Alert.sharesFaction_trans hsame hshares)

/-- In a world of the blameless every actor is blameless. -/
def World.Blameless (w : World) (misled : Entity → Entity → Prop) : Prop :=
  ∀ actor c, w.controller? actor = some c → c.IsBlameless w actor (misled actor)

variable {misled misled' : Entity → Entity → Prop}

theorem World.AllFresh.blameless (h : w.AllFresh) : w.Blameless misled := by
  intro actor c hc
  rw [h actor c hc]
  exact .of_no_target rfl

theorem World.SameFolk.isBlameless {misled : Entity → Prop} (h : w.SameFolk w')
    (hc : c.IsBlameless w actor misled) : c.IsBlameless w' actor misled where
  born target htarget := by
    rw [World.Unborn, h.next]
    exact hc.born target htarget
  spares target htarget hshares :=
    hc.spares target htarget ((h.sharesFaction_eq actor target).symm.trans hshares)

theorem blameless_of_steering {s' : State} (h : Course.steering False s events s')
    (hs : s.world.Blameless misled)
    (hmisled : ∀ actor e, s.world.MisleadsIn events actor e → misled actor e) :
    s'.world.Blameless misled := by
  intro actor c' hc'
  obtain ⟨c, hc, hturns⟩ := h.2 actor c' hc'
  have hfirst := hs actor c hc
  refine h.1.isBlameless ?_
  clear hc hc'
  induction hturns with
  | refl => exact hfirst
  | tail _ hturn ih => exact hturn.isBlameless (hmisled actor) ih

/-- A host that leaves allegiances alone. -/
def Change.SparesAllegiances : Change → Prop
  | .edit _ f => ∀ parts, (f parts).allegiance = parts.allegiance
  | _ => True

theorem Change.unborn_of_apply {change : Change} {e : Entity}
    (h : (change.apply s).world.Unborn e) : s.world.Unborn e := by
  cases change with
  | setClock now => exact h
  | setRandom random => exact h
  | edit k f => rwa [apply, World.Unborn, World.nextGeneration_update] at h
  | despawn k => rwa [apply, World.Unborn, World.nextGeneration_despawn] at h
  | spawn parts => exact World.unborn_of_unborn_spawn h

/-- Whoever has entered the world keeps its allegiance until it leaves. -/
theorem Change.allegiance?_apply {change : Change} (h : change.SparesAllegiances) {e : Entity}
    (hborn : ¬ s.world.Unborn e) {own : Allegiance}
    (hown : (change.apply s).world.allegiance? e = some own) :
    s.world.allegiance? e = some own := by
  obtain ⟨parts, hparts, hparts_own⟩ := Option.bind_eq_some_iff.mp hown
  rw [World.allegiance?]
  rcases get?_apply hparts with hold | ⟨f, old, rfl, hold, rfl⟩ | ⟨rfl, rfl⟩
  · rw [hold]
    exact hparts_own
  · rw [hold]
    exact (h old).symm.trans hparts_own
  · exact (hborn (World.unborn_spawn s.world parts)).elim

theorem Change.sharesFaction_apply {change : Change} (h : change.SparesAllegiances)
    {a b : Entity} (ha : ¬ s.world.Unborn a) (hb : ¬ s.world.Unborn b)
    (hshares : Alert.sharesFaction (change.apply s).world a b = true) :
    Alert.sharesFaction s.world a b = true := by
  unfold Alert.sharesFaction at *
  cases hx : (change.apply s).world.allegiance? a with
  | none => simp [hx] at hshares
  | some x =>
    cases hy : (change.apply s).world.allegiance? b with
    | none => simp [hx, hy] at hshares
    | some y =>
      rw [hx, hy] at hshares
      rw [allegiance?_apply h ha hx, allegiance?_apply h hb hy]
      exact hshares

theorem World.Blameless.apply {change : Change} (h : s.world.Blameless misled)
    (hcontrollers : change.SparesControllers) (hallegiances : change.SparesAllegiances) :
    (change.apply s).world.Blameless misled := by
  intro actor c hc
  rcases Change.controller?_apply hcontrollers hc with hold | hfresh
  · have hblameless := h actor c hold
    have hactor := World.not_unborn_of_contains (World.contains_of_bind hold)
    constructor
    · intro target htarget hunborn
      exact hblameless.born target htarget (Change.unborn_of_apply hunborn)
    · intro target htarget hshares
      have hborn := hblameless.born target htarget
      exact hblameless.spares target htarget
        (Change.sharesFaction_apply hallegiances hactor hborn hshares)
  · rw [hfresh]
    exact .of_no_target rfl

/-- A move that leaves controllers and allegiances to the engine, and is no call asked for
outright. -/
structure Move.IsDiscreet (move : Move) : Prop where
  controllers : move.SparesControllers
  allegiances : ∀ change, move = .host change → change.SparesAllegiances
  calls : ∀ request, move = .ask request → ¬ request.IsRumour

/-- Some move of a run had kin of another faction call an actor to an enemy. -/
def Misled (setting : Setting) (s : State) (moves : List Move) (actor target : Entity) : Prop :=
  ∃ earlier move later, moves = earlier ++ move :: later ∧
    let before := (playOut setting earlier s).state
    before.world.MisleadsIn (move.perform setting before).events actor target

theorem Move.perform_blameless (setting : Setting) {move : Move} (h : move.IsDiscreet)
    (hs : s.world.Blameless misled)
    (hmisled : ∀ actor e, s.world.MisleadsIn (move.perform setting s).events actor e →
      misled actor e) : (move.perform setting s).state.world.Blameless misled := by
  cases move with
  | ask request =>
    have hsteers : Course.steering False s _ _ :=
      request.perform_steering setting (h.calls request rfl) s
    exact blameless_of_steering hsteers hs hmisled
  | host change => exact hs.apply h.controllers (h.allegiances change rfl)

theorem playOut_blameless (setting : Setting) {s : State} (hfresh : s.world.AllFresh)
    {moves : List Move} (hmoves : ∀ move ∈ moves, move.IsDiscreet) :
    (playOut setting moves s).state.world.Blameless (Misled setting s moves) := by
  induction moves using List.reverseRecOn with
  | nil => exact hfresh.blameless
  | append_singleton moves move ih =>
    have hbefore := ih fun m hm => hmoves m (by simp [hm])
    rw [state_playOut_snoc]
    refine move.perform_blameless setting (hmoves move (by simp)) ?_ ?_
    · intro actor c hc
      refine (hbefore actor c hc).mono ?_
      rintro target ⟨earlier, m, later, rfl, hmisleads⟩
      exact ⟨earlier, m, later ++ [move], by simp, hmisleads⟩
    · intro actor target hmisleads
      exact ⟨moves, move, [], rfl, hmisleads⟩

/-- From a world of fresh controllers, as long as nobody but the engine writes controllers and calls
for help, and allegiances stay as they are, an actor has a member of its own faction as its target
only if it strikes back at it, or if kin of another faction called it to that target. -/
theorem playOut_target_of_own_faction {setting : Setting} {s : State}
    (hfresh : s.world.AllFresh) {moves : List Move} (hmoves : ∀ move ∈ moves, move.IsDiscreet)
    {actor target : Entity} {c : Controller}
    (hc : (playOut setting moves s).state.world.controller? actor = some c)
    (htarget : c.target = some target)
    (hshares : Alert.sharesFaction (playOut setting moves s).state.world actor target = true) :
    c.retaliates target = true ∨
      ∃ earlier move later, moves = earlier ++ move :: later ∧
        let before := (playOut setting earlier s).state
        ∃ caller, .allyAlerted caller actor target ∈ (move.perform setting before).events ∧
          Alert.areKin before.world caller actor = true ∧
          Alert.sharesFaction before.world caller actor = false :=
  (playOut_blameless setting hfresh hmoves actor c hc).spares target htarget hshares

/-- The profile of an orc that draws tactics, and has none but to hold its target. -/
def orcish : Profile := ({} : Profile).withLegacyTactics default

/-- A scout of one faction, a guard of another, both orcs, and Aria of the faction of the guard. -/
def frontier : State where
  world :=
    let orc (x : Float) (faction : Nat) : Components :=
      { position := some ⟨x, 0.0, 0.0⟩
        allegiance := some ⟨⟨faction⟩, .ofFriends "orc" []⟩
        controller := some (.ofProfile orcish) }
    let aria : Components :=
      { position := some ⟨3.0, 0.0, 0.0⟩
        targetable := some .player
        allegiance := some ⟨⟨2⟩, .ofFriends "" []⟩ }
    (((World.empty.spawn (orc 0.0 1)).2.spawn (orc 2.0 2)).2.spawn aria).2
  random := .cycle [0]
  now := 0
  alerts := ∅

theorem frontier_allFresh : frontier.world.AllFresh := by
  refine ((World.allFresh_empty.spawn ?_).spawn ?_).spawn ?_
  · rintro c ⟨⟩
    rfl
  · rintro c ⟨⟩
    rfl
  · rintro c ⟨⟩

/-- What becomes of `s` when its scout thinks. -/
def afterScout (s : State) : State := (playOut {} [.ask (.think ⟨0, 1⟩)] s).state

/-- What becomes of `s` until its scout has settled on Aria and is about to cry out. -/
def beforeCry (s : State) : State :=
  let roused := (Controller.ofProfile orcish).noteMode.markThought.rouse ⟨0, 1⟩
  let before := (Engine.upkeep {} ⟨0, 1⟩ s).state
  let chosen := Engine.choose {} ⟨0, 1⟩ roused.1 [⟨⟨2, 1⟩, 3.0, .player, none⟩] before
  let settled := Engine.settle roused.1 ⟨0, 1⟩ (.chosen ⟨2, 1⟩)
  { chosen.state with world := chosen.state.world.setController ⟨0, 1⟩ settled.1 }

/-- A scout that finds Aria alone settles on her and wakes the one who listens. The sort behind the
order of the world does not evaluate, so what is found and who listens are shown for each state. -/
theorem afterScout_eq {s : State} (hscout : s.world.controller? ⟨0, 1⟩ = some (.ofProfile orcish))
    (hfound : Engine.found {} (Engine.upkeep {} ⟨0, 1⟩ s).state.world ⟨0, 1⟩
      (Controller.ofProfile orcish).noteMode.markThought = [⟨⟨2, 1⟩, 3.0, .player, none⟩])
    (hchoice : (Engine.choose {} ⟨0, 1⟩
      ((Controller.ofProfile orcish).noteMode.markThought.rouse ⟨0, 1⟩).1
      [⟨⟨2, 1⟩, 3.0, .player, none⟩] (Engine.upkeep {} ⟨0, 1⟩ s).state).result =
        .ok (.chosen ⟨2, 1⟩))
    (hcooldown : Alert.onCooldown ({} : Setting).tuning (beforeCry s).alerts (beforeCry s).now
      ⟨2, 1⟩ = false)
    (hheard : Alert.listeners (.proximity 20.0) (beforeCry s).world ⟨0, 1⟩ ⟨2, 1⟩ = [⟨1, 1⟩]) :
    let noted := { beforeCry s with
      alerts := EntityMap.insert (beforeCry s).alerts ⟨2, 1⟩ (beforeCry s).now }
    afterScout s = (forEach (Alert.wake {} ⟨0, 1⟩ ⟨2, 1⟩
      (Alert.callerRetaliates (beforeCry s).world ⟨0, 1⟩ ⟨2, 1⟩)) [⟨1, 1⟩] noted).state := by
  intro noted
  have hthought : afterScout s = (Alert.propagate {} ⟨0, 1⟩ ⟨2, 1⟩ (beforeCry s)).state :=
    Engine.think_of_call hscout rfl hfound (by simp) hchoice rfl
  rw [hthought, Alert.propagate_of_not_onCooldown hcooldown]
  dsimp only
  rw [hheard]

/-- The guard of the frontier, pointed at one of its own. -/
def misledGuard : Controller :=
  { Controller.ofProfile orcish with state := .engaged, target := some ⟨2, 1⟩ }

theorem controller?_afterScout_frontier :
    (afterScout frontier).world.controller? ⟨1, 1⟩ = some misledGuard ∧
      Alert.sharesFaction (afterScout frontier).world ⟨1, 1⟩ ⟨2, 1⟩ = true := by
  have hfound : Engine.found {} (Engine.upkeep {} ⟨0, 1⟩ frontier).state.world ⟨0, 1⟩
      (Controller.ofProfile orcish).noteMode.markThought = [⟨⟨2, 1⟩, 3.0, .player, none⟩] := by
    rw [Engine.found_of_entities rfl (World.entities_of_sorted (by decide +kernel))]
    decide +kernel
  have hheard : Alert.listeners (.proximity 20.0) (beforeCry frontier).world ⟨0, 1⟩ ⟨2, 1⟩ =
      [⟨1, 1⟩] := by
    have hscout : (beforeCry frontier).world.allegiance? ⟨0, 1⟩ =
        some ⟨⟨1⟩, .ofFriends "orc" []⟩ := by decide +kernel
    rw [Alert.listeners_of_entities (World.entities_of_sorted (by decide +kernel)) hscout]
    decide +kernel
  rw [afterScout_eq (by decide +kernel) hfound rfl (by decide +kernel) hheard]
  decide +kernel

/-- The guard does not strike back, so it was misled. -/
theorem denounced_guard_was_misled :
    misledGuard.retaliates ⟨2, 1⟩ = false ∧
      ∃ earlier move later, [Move.ask (.think ⟨0, 1⟩)] = earlier ++ move :: later ∧
        let before := (playOut {} earlier frontier).state
        ∃ caller, .allyAlerted caller ⟨1, 1⟩ ⟨2, 1⟩ ∈ (move.perform {} before).events ∧
          Alert.areKin before.world caller ⟨1, 1⟩ = true ∧
          Alert.sharesFaction before.world caller ⟨1, 1⟩ = false := by
  have hspared : misledGuard.retaliates ⟨2, 1⟩ = false := by decide +kernel
  have hmoves : ∀ move ∈ [Move.ask (.think ⟨0, 1⟩)], move.IsDiscreet := by
    intro move hmove
    rw [List.mem_singleton.mp hmove]
    exact ⟨trivial, by simp, by simp [Request.IsRumour]⟩
  obtain ⟨hmind, hfoe⟩ := controller?_afterScout_frontier
  have hfought := playOut_target_of_own_faction frontier_allFresh hmoves hmind rfl hfoe
  exact ⟨hspared, hfought.resolve_left (by simp [hspared])⟩

/-- One think in a world of fresh controllers ends with a guard that fights one of its own faction
and does not strike back at it. -/
theorem frontier_guard_targets_own_faction :
    frontier.world.AllFresh ∧
      let w := (playOut {} [.ask (.think ⟨0, 1⟩)] frontier).state.world
      ∃ c, w.controller? ⟨1, 1⟩ = some c ∧ c.target = some ⟨2, 1⟩ ∧
        Alert.sharesFaction w ⟨1, 1⟩ ⟨2, 1⟩ = true ∧ c.retaliates ⟨2, 1⟩ = false :=
  ⟨frontier_allFresh, misledGuard, controller?_afterScout_frontier.1, rfl,
    controller?_afterScout_frontier.2, by decide +kernel⟩

end Hostility
