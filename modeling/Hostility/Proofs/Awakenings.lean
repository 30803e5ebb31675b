import Hostility.Proofs.CallSpacing
import Hostility.Proofs.EventLog
import Hostility.Proofs.KeptTarget
import Hostility.Proofs.ThinkLedger

/-!
What a think makes of the controllers. The actor's own is settled first. The call engages those who
answer it, all of whom were asleep, and tells of each of them; no other controller changes.
-/
namespace Hostility

variable {setting : Setting} {radius : Float} {actor caller enemy : Entity} {allies : List Entity}
  {c own : Controller} {s s' : State} {events events' : List Event}

open Hostility.Action

/-- Every alert comes right after the news that its ally engages. -/
def Announced (events : List Event) : Prop :=
  ∀ before caller ally enemy after, events = before ++ .allyAlerted caller ally enemy :: after →
    ∃ earlier state, before = earlier ++ [.stateChanged ally state .engaged]

theorem announced_of_no_alerts (h : ∀ e ∈ events, e.isAlert = false) : Announced events := by
  rintro before caller ally enemy after rfl
  have halert := h (.allyAlerted caller ally enemy) (by simp)
  cases halert

/-- An alert of two stretches is one of the first or one of the second. -/
theorem eq_or_eq_of_append_eq {e : Event} {before after : List Event}
    (h : events ++ events' = before ++ e :: after) :
    (∃ rest, events = before ++ e :: rest) ∨
      ∃ start, before = events ++ start ∧ events' = start ++ e :: after := by
  rcases List.append_eq_append_iff.mp h with ⟨start, hbefore, hevents'⟩ | ⟨tail, hevents, htail⟩
  · exact .inr ⟨start, hbefore, hevents'⟩
  · rcases List.cons_eq_append_iff.mp htail with ⟨rfl, hevents'⟩ | ⟨rest, rfl, -⟩
    · exact .inr ⟨[], by simpa using hevents.symm, hevents'⟩
    · exact .inl ⟨rest, hevents⟩

theorem Announced.append (h : Announced events) (h' : Announced events') :
    Announced (events ++ events') := by
  intro before caller ally enemy after hsplit
  rcases eq_or_eq_of_append_eq hsplit with ⟨rest, hevents⟩ | ⟨start, rfl, hevents'⟩
  · exact h before caller ally enemy rest hevents
  · obtain ⟨earlier, state, rfl⟩ := h' start caller ally enemy after hevents'
    exact ⟨events ++ earlier, state, by simp⟩

namespace Alert

@[simp] theorem state_pointAt (c : Controller) (enemy : Entity) (strikesOwn : Bool) :
    (pointAt c enemy strikesOwn).state = .engaged := by
  unfold pointAt
  dsimp only
  split <;> rfl

@[simp] theorem target_pointAt (c : Controller) (enemy : Entity) (strikesOwn : Bool) :
    (pointAt c enemy strikesOwn).target = some enemy := by
  unfold pointAt
  dsimp only
  split <;> rfl

theorem controller?_wake (t : Tuning) (caller enemy : Entity) (retaliates : Bool)
    (ally e : Entity) (s : State) :
    (wake t caller enemy retaliates ally s).state.world.controller? e =
      if e = ally then
        (s.world.controller? ally).map fun c =>
          pointAt c enemy (sharesFaction s.world ally enemy && retaliates)
      else s.world.controller? e := by
  cases hc : s.world.controller? ally with
  | none =>
    rw [wake_of_no_controller t caller enemy retaliates hc]
    split
    · next he => rw [he, hc, Option.map_none]
    · rfl
  | some c =>
    obtain ⟨w', hwoken, hw'⟩ := wake_of_controller t caller enemy retaliates hc
    have hpointed := World.controller?_setController (World.contains_of_bind hc)
      (pointAt c enemy (sharesFaction s.world ally enemy && retaliates)) e
    rw [hwoken]
    rcases hw' with rfl | rfl
    · exact hpointed
    · refine Eq.trans ?_ hpointed
      exact World.bind_get?_update (p := (·.controller)) (by intro _; rfl) _ ally e

theorem announced_wake (t : Tuning) (caller enemy : Entity) (retaliates : Bool) {ally : Entity}
    (hc : s.world.controller? ally = some c) :
    Announced (wake t caller enemy retaliates ally s).events := by
  obtain ⟨w', hwoken, -⟩ := wake_of_controller t caller enemy retaliates hc
  rw [hwoken]
  intro before caller' ally' enemy' after hsplit
  obtain ⟨earlier, rfl, hsecond⟩ : ∃ earlier, before = .stateChanged ally c.state .engaged ::
      earlier ∧ [.allyAlerted caller ally enemy] =
        earlier ++ .allyAlerted caller' ally' enemy' :: after := by
    rcases List.cons_eq_append_iff.mp hsplit with ⟨-, hfirst⟩ | ⟨earlier, hbefore, hrest⟩
    · cases hfirst
    · exact ⟨earlier, hbefore, hrest⟩
  rcases List.cons_eq_append_iff.mp hsecond with ⟨rfl, hsame⟩ | ⟨_, -, hnone⟩
  · cases hsame
    exact ⟨[], c.state, rfl⟩
  · simp at hnone

/-- Allies that are woken one after the other are engaged in the end. -/
theorem forEach_wake_engages (t : Tuning) (caller enemy : Entity) (retaliates : Bool)
    (hactors : ∀ ally ∈ allies, (s.world.controller? ally).isSome = true) :
    let woken := forEach (wake t caller enemy retaliates) allies s
    Announced woken.events ∧
      (∀ ally ∈ allies, ∃ c, woken.state.world.controller? ally = some c ∧ c.state = .engaged ∧
        c.target = some enemy) ∧
      ∀ e, e ∉ allies → woken.state.world.controller? e = s.world.controller? e := by
  induction allies generalizing s with
  | nil => exact ⟨announced_of_no_alerts (by simp [forEach, Action.pure]), by simp, fun _ _ => rfl⟩
  | cons ally allies ih =>
    intro woken
    let first := wake t caller enemy retaliates ally s
    obtain ⟨_, hok⟩ : ∃ a, first.result = .ok a := wake_accepted t caller enemy retaliates ally s
    have hwoken : woken = _ := bind_of_ok hok
    have hfirst : ∀ e, first.state.world.controller? e = _ := fun e =>
      controller?_wake t caller enemy retaliates ally e s
    obtain ⟨c, hc⟩ := Option.isSome_iff_exists.mp (hactors ally (by simp))
    obtain ⟨hannounced, hengaged, hothers⟩ := ih (s := first.state) fun e he => by
      rw [hfirst]
      split
      · simp [hc]
      · exact hactors e (by simp [he])
    rw [hwoken]
    refine ⟨(announced_wake t caller enemy retaliates hc).append hannounced, fun e he => ?_,
      fun e he => ?_⟩
    · by_cases hagain : e ∈ allies
      · exact hengaged e hagain
      · obtain rfl : e = ally := by simpa [hagain] using he
        refine ⟨_, (hothers e hagain).trans ((hfirst e).trans (by rw [if_pos rfl, hc]; rfl)), ?_⟩
        simp
    · rw [List.mem_cons, not_or] at he
      exact (hothers e he.2).trans ((hfirst e).trans (if_neg he.1))

/-- A call that reached some allies: each was asleep, is engaged with the enemy now, and is told of
by an alert of its own. No other controller has changed. -/
structure Reached (s : State) (caller enemy : Entity) (allies : List Entity) (events : List Event)
    (s' : State) : Prop where
  told : events.filter Event.isAlert = allies.map fun ally => .allyAlerted caller ally enemy
  announced : Announced events
  asleep : ∀ ally ∈ allies, ∃ c, s.world.controller? ally = some c ∧ c.state.isAwake = false
  engaged : ∀ ally ∈ allies, ∃ c, s'.world.controller? ally = some c ∧ c.state = .engaged ∧
    c.target = some enemy
  others : ∀ e, e ∉ allies → s'.world.controller? e = s.world.controller? e

theorem Reached.nobody (hevents : ∀ e ∈ events, e.isAlert = false)
    (hsame : ∀ e, s'.world.controller? e = s.world.controller? e) :
    Reached s caller enemy [] events s' where
  told := by simpa using hevents
  announced := announced_of_no_alerts hevents
  asleep := by simp
  engaged := by simp
  others e _ := hsame e

/-- Nobody hears its own call. -/
theorem propagate_reached (hv : setting.visibility = .proximity radius) (caller enemy : Entity)
    (s : State) :
    let called := propagate setting caller enemy s
    ∃ allies, caller ∉ allies ∧ Reached s caller enemy allies called.events called.state := by
  intro called
  cases hcooldown : onCooldown setting.tuning s.alerts s.now enemy with
  | true =>
    rw [show called = _ from propagate_of_onCooldown hcooldown]
    exact ⟨[], by simp, .nobody (by simp) fun _ => rfl⟩
  | false =>
    have hcalled : called = _ := propagate_of_not_onCooldown hcooldown
    let noted := { s with alerts := EntityMap.insert s.alerts enemy s.now }
    let allies := listeners setting.visibility s.world caller enemy
    have hlisten : ∀ ally ∈ allies, ally ≠ caller ∧
        ∃ c, s.world.controller? ally = some c ∧ c.state.isAwake = false := by
      intro ally hally
      obtain ⟨own, -, hanswers⟩ := mem_listeners.mp hally
      have hasleep := asleep_of_mem_answering hanswers
      rw [hv] at hanswers
      exact ⟨answering_ne hanswers, hasleep⟩
    have hactors : ∀ ally ∈ allies, (noted.world.controller? ally).isSome = true := by
      intro ally hally
      obtain ⟨-, c, hc, -⟩ := hlisten ally hally
      exact Option.isSome_iff_exists.mpr ⟨c, hc⟩
    obtain ⟨hannounced, hengaged, hothers⟩ := forEach_wake_engages setting.tuning caller enemy
      (callerRetaliates s.world caller enemy) hactors
    have htold := forEach_wake_told setting.tuning caller enemy
      (callerRetaliates s.world caller enemy) allies noted
    rw [hcalled]
    exact ⟨allies, fun hself => (hlisten caller hself).1 rfl, htold.2.2, hannounced,
      fun ally hally => (hlisten ally hally).2, hengaged, hothers⟩

end Alert

namespace Engine

/-- What an actor may make of its own controller in a think: it gives up, or it settles on a choice
among those whom it finds. -/
inductive Resolves (setting : Setting) (s : State) (actor : Entity) (c : Controller) :
    Controller → Prop
  | giveUp : Resolves setting s actor c (c.noteMode.markThought.disengage actor).1
  | settle (choice : Choice)
    (among : choice.IsAmong (found setting (upkeep setting.tuning actor s).state.world actor
      c.noteMode.markThought)) :
    Resolves setting s actor c (settle (c.noteMode.markThought.rouse actor).1 actor choice).1

/-- No think makes an actor idle. -/
theorem Resolves.state_ne_idle (h : Resolves setting s actor c own) (hc : c.state ≠ .idle) :
    own.state ≠ .idle := by
  cases h with
  | settle choice among => exact settle_state _ actor choice
  | giveUp =>
    rw [Controller.disengage_eq]
    dsimp only
    split
    · simp
    · exact hc

/-- What a think leaves behind: the actor's own controller, and those of the allies whom its call
reached. Only who was idle before calls, about one of those it found, and is engaged when it
does. -/
structure Thought (setting : Setting) (s : State) (actor : Entity) (c own : Controller)
    (enemy : Entity) (allies : List Entity) (events : List Event) (s' : State) : Prop where
  resolves : Resolves setting s actor c own
  stored : s'.world.controller? actor = some own
  apart : actor ∉ allies
  called : allies ≠ [] → c.state = .idle ∧ own.state = .engaged
  picked : allies ≠ [] → ∃ k ∈ found setting (upkeep setting.tuning actor s).state.world actor
    c.noteMode.markThought, k.entity = enemy
  told : events.filter Event.isAlert = allies.map fun ally => .allyAlerted actor ally enemy
  announced : Announced events
  asleep : ∀ ally ∈ allies, ∃ c, s.world.controller? ally = some c ∧ c.state.isAwake = false
  engaged : ∀ ally ∈ allies, ∃ c, s'.world.controller? ally = some c ∧ c.state = .engaged ∧
    c.target = some enemy
  others : ∀ e, e ≠ actor → e ∉ allies → s'.world.controller? e = s.world.controller? e

theorem alarm_reached (hv : setting.visibility = .proximity radius) (actor : Entity)
    (wokeFrom : Awareness) (enemy? : Option Entity) (s : State) :
    let called := alarm setting actor wokeFrom enemy? s
    ∃ enemy allies, actor ∉ allies ∧
      Alert.Reached s actor enemy allies called.events called.state ∧
      (allies ≠ [] → wokeFrom = .idle ∧ enemy? = some enemy) := by
  intro called
  have hsilent (h : called = ⟨.ok (), s, []⟩) :
      Alert.Reached s actor actor [] called.events called.state := by
    rw [h]
    exact .nobody (by simp) fun _ => rfl
  cases enemy? with
  | none => exact ⟨actor, [], by simp, hsilent rfl, by simp⟩
  | some enemy =>
    by_cases hidle : wokeFrom = .idle
    · obtain ⟨allies, hself, hreached⟩ := Alert.propagate_reached hv actor enemy s
      obtain ⟨_, hok⟩ := Alert.propagate_accepted setting actor enemy s
      have hcalled : called = ⟨.ok (), (Alert.propagate setting actor enemy s).state,
          (Alert.propagate setting actor enemy s).events⟩ := by
        show alarm setting actor wokeFrom (some enemy) s = _
        rw [hidle]
        exact (bind_of_ok hok).trans (by simp)
      rw [hcalled]
      exact ⟨enemy, allies, hself, hreached, fun _ => ⟨hidle, rfl⟩⟩
    · refine ⟨actor, [], by simp, hsilent ?_, by simp⟩
      show alarm setting actor wokeFrom (some enemy) s = _
      simp [alarm, hidle]

/-- An actor that gives up calls nobody. -/
theorem thought_of_nobody (hc : s.world.controller? actor = some c)
    (hnobody : found setting (upkeep setting.tuning actor s).state.world actor
      c.noteMode.markThought = []) :
    let thought := think setting actor s
    Thought setting s actor c (c.noteMode.markThought.disengage actor).1 enemy [] thought.events
      thought.state := by
  intro thought
  have hbefore := upkeep_tended setting.tuning hc
  have hkept := (hbefore.world.controller?_eq actor).trans hc
  have hrun : thought = _ := think_of_nobody hc hnobody
  have hquiet : ∀ e ∈ thought.events, e.isAlert = false := by
    rw [hrun]
    intro e he
    rcases List.mem_append.mp he with he | he
    · exact (hbefore.events e he).isAlert_eq_false
    · exact (Controller.disengage_news _ actor e he).isAlert_eq_false
  have hafter : ∀ e, thought.state.world.controller? e =
      if e = actor then some (c.noteMode.markThought.disengage actor).1
      else s.world.controller? e := by
    intro e
    rw [hrun, ← hbefore.world.controller?_eq e]
    exact World.controller?_setController (World.contains_of_bind hkept) _ e
  exact
    { resolves := .giveUp
      stored := by rw [hafter, if_pos rfl]
      apart := by simp
      called := by simp
      picked := by simp
      told := by simpa using hquiet
      announced := announced_of_no_alerts hquiet
      asleep := by simp
      engaged := by simp
      others := fun e he _ => by rw [hafter, if_neg he] }

/-- The call of a think comes after everything else. -/
theorem thought_of_reached {choice : Choice} {stored : State} {quiet called : List Event}
    (hamong : choice.IsAmong (found setting (upkeep setting.tuning actor s).state.world actor
      c.noteMode.markThought))
    (hquiet : ∀ e ∈ quiet, e.isAlert = false)
    (hstored : ∀ e, stored.world.controller? e =
      if e = actor then some (settle (c.noteMode.markThought.rouse actor).1 actor choice).1
      else s.world.controller? e)
    (hreached : Alert.Reached stored actor enemy allies called s') (hself : actor ∉ allies)
    (hcalled : allies ≠ [] → c.state = .idle ∧ choice.target? = some enemy) :
    Thought setting s actor c (settle (c.noteMode.markThought.rouse actor).1 actor choice).1 enemy
      allies (quiet ++ called) s' where
  resolves := .settle choice hamong
  stored := by rw [hreached.others actor hself, hstored, if_pos rfl]
  apart := hself
  called hallies := by
    obtain ⟨hidle, htarget⟩ := hcalled hallies
    refine ⟨hidle, ?_⟩
    cases choice with
    | chosen target => exact Controller.state_engage _ actor target
    | kept target => exact Controller.state_engage _ actor target
    | rejected bits => cases htarget
    | empty => cases htarget
  picked hallies := hamong enemy (hcalled hallies).2
  told := by
    rw [List.filter_append, List.filter_eq_nil_iff.mpr (by simpa using hquiet), List.nil_append,
      hreached.told]
  announced := (announced_of_no_alerts hquiet).append hreached.announced
  asleep ally hally := by
    obtain ⟨c', hc', hasleep⟩ := hreached.asleep ally hally
    have hne : ally ≠ actor := by
      rintro rfl
      exact hself hally
    rw [hstored, if_neg hne] at hc'
    exact ⟨c', hc', hasleep⟩
  engaged := hreached.engaged
  others e he hally := by rw [hreached.others e hally, hstored, if_neg he]

theorem think_thought (hv : setting.visibility = .proximity radius)
    (hc : s.world.controller? actor = some c) :
    let thought := think setting actor s
    ∃ own enemy allies,
      Thought setting s actor c own enemy allies thought.events thought.state := by
  intro thought
  by_cases hfound : found setting (upkeep setting.tuning actor s).state.world actor
      c.noteMode.markThought = []
  · exact ⟨_, actor, [], thought_of_nobody hc hfound⟩
  · obtain ⟨choice, hchoice, hrun⟩ := think_of_somebody hc hfound
    let before := upkeep setting.tuning actor s
    let roused := c.noteMode.markThought.rouse actor
    let chosen := choose setting actor roused.1
      (found setting before.state.world actor c.noteMode.markThought) before.state
    let settled := settle roused.1 actor choice
    let stored := { chosen.state with world := chosen.state.world.setController actor settled.1 }
    have hbefore : Tended actor s before := upkeep_tended setting.tuning hc
    have hkept := (hbefore.world.controller?_eq actor).trans hc
    have hchosen : Tended actor before.state chosen :=
      choose_tended setting roused.1 _ (World.contains_of_bind hkept)
    have hstored : ∀ e, stored.world.controller? e =
        if e = actor then some settled.1 else s.world.controller? e := by
      intro e
      rw [← hbefore.world.controller?_eq e, ← hchosen.world.controller?_eq e]
      exact World.controller?_setController
        ((hchosen.world.contains_eq actor).trans (World.contains_of_bind hkept)) settled.1 e
    have hquiet : ∀ e ∈ before.events ++ (roused.2 ++ (chosen.events ++ settled.2)),
        e.isAlert = false := by
      intro e he
      simp only [List.mem_append] at he
      rcases he with he | he | he | he
      · exact (hbefore.events e he).isAlert_eq_false
      · exact (Controller.rouse_news _ actor e he).isAlert_eq_false
      · exact (hchosen.events e he).isAlert_eq_false
      · exact (settle_news _ actor choice e he).isAlert_eq_false
    obtain ⟨enemy, allies, hself, hreached, hcalled⟩ :=
      alarm_reached hv actor c.state choice.target? stored
    have hthought :=
      thought_of_reached (choose_isAmong hchoice) hquiet hstored hreached hself hcalled
    refine ⟨settled.1, enemy, allies, ?_⟩
    rw [show thought = _ from hrun]
    simpa only [List.append_assoc] using hthought

end Engine

end Hostility
