import Hostility.Proofs.CallSpacing
import Hostility.Proofs.Hosting

/-!
Forgetting old alerts changes nothing. Two states that differ only in alerts that are old enough to
be forgotten cannot be told apart: whatever the engine does in both gives the same answers and the
same events, and ends in two such states again. The table of alerts is looked at by calls alone, and
a call asks of it only what both states answer alike.
-/
namespace Hostility

variable {α β : Type} {t : Tuning} {setting : Setting} {cooldown : Int} {s s' s'' : State}

/-- Two states that differ in their tables of alerts at most, and whose tables hold back the same
calls now and later. -/
structure State.SameButLapsed (t : Tuning) (s s' : State) : Prop where
  world : s'.world = s.world
  random : s'.random = s.random
  now : s'.now = s.now
  held : ∀ later, s.now ≤ later → ∀ enemy,
    Alert.onCooldown t s'.alerts later enemy = Alert.onCooldown t s.alerts later enemy

namespace State.SameButLapsed

theorem refl (t : Tuning) (s : State) : s.SameButLapsed t s := ⟨rfl, rfl, rfl, fun _ _ _ => rfl⟩

theorem symm (h : s.SameButLapsed t s') : s'.SameButLapsed t s where
  world := h.world.symm
  random := h.random.symm
  now := h.now.symm
  held later hle enemy := (h.held later (h.now ▸ hle) enemy).symm

theorem trans (h : s.SameButLapsed t s') (h' : s'.SameButLapsed t s'') : s.SameButLapsed t s'' where
  world := h'.world.trans h.world
  random := h'.random.trans h.random
  now := h'.now.trans h.now
  held later hle enemy :=
    (h'.held later (h.now.symm ▸ hle) enemy).trans (h.held later hle enemy)

theorem setWorld (h : s.SameButLapsed t s') (w : World) :
    State.SameButLapsed t { s with world := w } { s' with world := w } :=
  ⟨rfl, h.random, h.now, h.held⟩

/-- An alert that was old enough to be forgotten holds back no call from then on. -/
theorem lapse (t : Tuning) (s : State) :
    s.SameButLapsed t { s with alerts := Alert.expire t s.alerts s.now } where
  world := rfl
  random := rfl
  now := rfl
  held later hle enemy := by
    cases hcooldown : t.alertCooldown? with
    | none => simp [Alert.expire, Alert.expire?, hcooldown]
    | some cooldown =>
      simp only [Alert.onCooldown_of_cooldown hcooldown]
      rw [Alert.expire_of_cooldown hcooldown, EntityMap.get?_filter]
      cases EntityMap.get? s.alerts enemy with
      | none => rfl
      | some cried =>
        by_cases hyoung : s.now - cried < cooldown
        · simp [Option.filter, hyoung]
        · have hold : ¬ later - cried < cooldown := by omega
          simp [Option.filter, hyoung, hold]

theorem note (h : s.SameButLapsed t s') (enemy : Entity) :
    State.SameButLapsed t { s with alerts := EntityMap.insert s.alerts enemy s.now }
      { s' with alerts := EntityMap.insert s'.alerts enemy s'.now } where
  world := h.world
  random := h.random
  now := h.now
  held later hle e := by
    have hheld := h.held later hle e
    unfold Alert.onCooldown Alert.onCooldown? at *
    rw [EntityMap.get?_insert, EntityMap.get?_insert, h.now]
    by_cases he : enemy = e
    · simp [he]
    · simpa [he] using hheld

theorem advance (h : s.SameButLapsed t s') {duration : Int} (hforth : 0 ≤ duration) :
    State.SameButLapsed t { s with now := s.now + duration }
      { s' with now := s'.now + duration } where
  world := h.world
  random := h.random
  now := by rw [h.now]
  held later hle enemy := by
    refine h.held later ?_ enemy
    have : s.now + duration ≤ later := hle
    omega

end State.SameButLapsed

/-- Two outcomes that nobody can tell apart who does not look for old alerts. -/
structure Outcome.SameButLapsed (t : Tuning) (o o' : Outcome α) : Prop where
  result : o'.result = o.result
  events : o'.events = o.events
  state : o.state.SameButLapsed t o'.state

theorem Outcome.SameButLapsed.bind {m m' : Action α} {f f' : α → Action β}
    (hm : (m s).SameButLapsed t (m' s'))
    (hf : ∀ a, (f a (m s).state).SameButLapsed t (f' a (m' s').state)) :
    ((m >>= f) s).SameButLapsed t ((m' >>= f') s') := by
  cases hresult : (m s).result with
  | error refusal =>
    rw [Action.bind_of_error hresult, Action.bind_of_error (hm.result.trans hresult)]
    exact ⟨rfl, hm.events, hm.state⟩
  | ok a =>
    rw [Action.bind_of_ok hresult, Action.bind_of_ok (hm.result.trans hresult)]
    exact ⟨(hf a).result, by rw [hm.events, (hf a).events], (hf a).state⟩

namespace Action

/-- An action that goes the same way whether or not old alerts are forgotten. -/
def IgnoresLapsed (t : Tuning) (m : Action α) : Prop :=
  ∀ s s', s.SameButLapsed t s' → (m s).SameButLapsed t (m s')

namespace IgnoresLapsed

theorem pure (a : α) : IgnoresLapsed t (Pure.pure a : Action α) := fun _ _ h => ⟨rfl, rfl, h⟩

theorem refuse (refusal : Refusal) : IgnoresLapsed t (Action.refuse refusal : Action α) :=
  fun _ _ h => ⟨rfl, rfl, h⟩

theorem publish (events : List Event) : IgnoresLapsed t (Action.publish events) :=
  fun _ _ h => ⟨rfl, rfl, h⟩

theorem setWorld (w : World) : IgnoresLapsed t (Action.setWorld w) :=
  fun _ _ h => ⟨rfl, rfl, h.setWorld w⟩

theorem draw (f : RandomSource → α × RandomSource) : IgnoresLapsed t (Action.draw f) := by
  intro s s' h
  unfold Action.draw
  rw [h.random]
  exact ⟨rfl, rfl, h.world, rfl, h.now, h.held⟩

theorem bind {m : Action α} {f : α → Action β} (hm : IgnoresLapsed t m)
    (hf : ∀ a, IgnoresLapsed t (f a)) : IgnoresLapsed t (m >>= f) := fun s s' h =>
  (hm s s' h).bind fun a => hf a _ _ (hm s s' h).state

theorem world_bind {f : World → Action β} (hf : ∀ w, IgnoresLapsed t (f w)) :
    IgnoresLapsed t (Action.world >>= f) := by
  intro s s' h
  rw [Action.world_bind, Action.world_bind, h.world]
  exact hf s.world s s' h

theorem whenever {m : Action Unit} (hm : IgnoresLapsed t m) (condition : Bool) :
    IgnoresLapsed t (Action.when condition m) := by
  cases condition with
  | true => exact hm
  | false => exact pure ()

theorem regardless {m : Action α} (hm : IgnoresLapsed t m) :
    IgnoresLapsed t (Action.regardless m) := by
  intro s s' h
  have hdone := hm s s' h
  exact ⟨rfl, hdone.events, hdone.state⟩

theorem forEach {f : β → Action Unit} (hf : ∀ b, IgnoresLapsed t (f b)) (l : List β) :
    IgnoresLapsed t (Action.forEach f l) := by
  induction l with
  | nil => exact pure ()
  | cons b l ih => exact bind (hf b) fun _ => ih

theorem insert (e : Entity) (f : Components → Components) :
    IgnoresLapsed t (Action.insert e f) := by
  intro s s' h
  unfold Action.insert
  rw [h.world]
  split
  · exact ⟨rfl, rfl, h.setWorld _⟩
  · exact ⟨rfl, rfl, h⟩

theorem controllerOf (actor : Entity) : IgnoresLapsed t (Action.controllerOf actor) := by
  intro s s' h
  unfold Action.controllerOf
  rw [h.world]
  split
  · cases s.world.controller? actor <;> exact ⟨rfl, rfl, h⟩
  · exact ⟨rfl, rfl, h⟩

theorem storeController (actor : Entity) (c : Controller) :
    IgnoresLapsed t (Action.storeController actor c) := by
  intro s s' h
  unfold Action.storeController
  rw [h.world]
  cases s.world.controller? actor with
  | some old => exact ⟨rfl, rfl, h.setWorld _⟩
  | none => exact ⟨rfl, rfl, h⟩

end IgnoresLapsed

end Action

open Hostility.Action

namespace Threat

theorem reset_ignoresLapsed (actor : Entity) : IgnoresLapsed t (reset actor) :=
  .world_bind fun _ => .bind (.setWorld _) fun _ => .publish _

theorem prune_ignoresLapsed (actor : Entity) : IgnoresLapsed t (prune actor) := by
  refine .world_bind fun w => ?_
  cases w.ledger? actor with
  | some l => exact .bind (.setWorld _) fun _ => .pure _
  | none => exact .pure _

theorem storeLedger_ignoresLapsed (actor : Entity) (l : Ledger) :
    IgnoresLapsed t (storeLedger actor l) :=
  .world_bind fun _ => .setWorld _

theorem lower_ignoresLapsed (t' : Tuning) (actor : Entity) : IgnoresLapsed t (lower t' actor) := by
  refine .world_bind fun _ => .world_bind fun w => ?_
  cases w.ledger? actor with
  | none => exact .pure _
  | some l =>
    dsimp only
    rcases l.decay _ _ _ with ⟨lowered, _ | amount⟩
    · exact .pure _
    · exact .bind (storeLedger_ignoresLapsed actor lowered) fun _ =>
        .bind (.publish _) fun _ => .pure _

theorem decay_ignoresLapsed (t' : Tuning) (actor : Entity) : IgnoresLapsed t (decay t' actor) := by
  rw [decay_eq]
  exact .bind (prune_ignoresLapsed actor) fun _ => lower_ignoresLapsed t' actor

theorem ensureLedger_ignoresLapsed (actor : Entity) : IgnoresLapsed t (ensureLedger actor) := by
  refine .world_bind fun w => ?_
  split
  · exact .pure ()
  · exact .insert actor _

theorem ensureBias_ignoresLapsed (actor : Entity) : IgnoresLapsed t (ensureBias actor) := by
  refine .world_bind fun w => ?_
  split
  · exact .pure ()
  · exact .insert actor _

theorem ledgerOf_ignoresLapsed (actor : Entity) : IgnoresLapsed t (ledgerOf actor) := by
  refine .world_bind fun w => ?_
  cases w.ledger? actor with
  | some l => exact .pure l
  | none => exact .refuse _

theorem seedCandidates_ignoresLapsed (t' : Tuning) (actor : Entity)
    (candidates : List Candidate) : IgnoresLapsed t (seedCandidates t' actor candidates) := by
  refine .world_bind fun w => ?_
  refine .bind (ensureLedger_ignoresLapsed actor) fun _ => ?_
  refine .bind (ledgerOf_ignoresLapsed actor) fun l => ?_
  exact .bind (storeLedger_ignoresLapsed actor _) fun _ => .pure _

end Threat

theorem Deception.attempt_ignoresLapsed (setting : Setting) (actor : Entity) (perception : Nat)
    (target : Entity) (crowd : Nat) :
    IgnoresLapsed t (attempt setting actor perception target crowd) := by
  refine .world_bind fun w => ?_
  cases attempter? w target crowd with
  | some hidden =>
    exact .bind (.draw _) fun roll => .bind (.publish _) fun _ => .pure _
  | none => exact .pure _

namespace Alert

theorem wake_ignoresLapsed (t' : Tuning) (caller enemy : Entity) (retaliates : Bool)
    (ally : Entity) : IgnoresLapsed t (wake t' caller enemy retaliates ally) := by
  refine .world_bind fun w => ?_
  cases w.controller? ally with
  | some c => exact .bind (.setWorld _) fun _ => .publish _
  | none => exact .publish _

/-- A call looks at the table only to see whether it comes too soon. -/
theorem propagate_ignoresLapsed (setting : Setting) (caller enemy : Entity) :
    IgnoresLapsed setting.tuning (propagate setting caller enemy) := by
  intro s s' h
  have hheld : onCooldown setting.tuning s'.alerts s'.now enemy =
      onCooldown setting.tuning s.alerts s.now enemy := by
    rw [h.now]
    exact h.held s.now (Int.le_refl _) enemy
  cases hcooldown : onCooldown setting.tuning s.alerts s.now enemy with
  | true =>
    rw [propagate_of_onCooldown hcooldown, propagate_of_onCooldown (hheld.trans hcooldown)]
    exact ⟨rfl, rfl, h⟩
  | false =>
    rw [propagate_of_not_onCooldown hcooldown, propagate_of_not_onCooldown (hheld.trans hcooldown)]
    have hwoken := IgnoresLapsed.forEach (wake_ignoresLapsed (t := setting.tuning) setting.tuning
      caller enemy (callerRetaliates s.world caller enemy))
      (listeners setting.visibility s.world caller enemy) _ _ (h.note enemy)
    simp only [h.world] at hwoken ⊢
    exact ⟨rfl, hwoken.events, hwoken.state⟩

end Alert

namespace Engine

theorem biasPass_ignoresLapsed (t' : Tuning) (actor : Entity) (candidates : List Candidate) :
    IgnoresLapsed t (biasPass t' actor candidates) := by
  refine .world_bind fun w => ?_
  cases w.ledger? actor with
  | none => exact .pure ()
  | some l =>
    cases w.bias? actor with
    | none => exact .pure ()
    | some b => exact .setWorld _

theorem prepare_ignoresLapsed (t' : Tuning) (actor : Entity) (candidates : List Candidate) :
    IgnoresLapsed t (prepare t' actor candidates) := by
  refine .bind (Threat.seedCandidates_ignoresLapsed t' actor candidates) fun _ => ?_
  refine .bind (Threat.ensureBias_ignoresLapsed actor) fun _ => ?_
  exact biasPass_ignoresLapsed t' actor candidates

theorem selectOnce_ignoresLapsed (setting : Setting) (actor : Entity) (c : Controller)
    (candidates : List Candidate) : IgnoresLapsed t (selectOnce setting actor c candidates) := by
  refine .world_bind fun w => ?_
  split
  · exact .draw _
  · cases w.ledger? actor with
    | none => exact .pure _
    | some l =>
      exact .bind (.draw _) fun ⟨choice, rated⟩ => .bind (.setWorld _) fun _ => .pure _

theorem selectUndeceived_ignoresLapsed (setting : Setting) (actor : Entity) (c : Controller)
    (tries : Nat) (remaining : List Candidate) :
    IgnoresLapsed t (selectUndeceived setting actor c tries remaining) := by
  induction tries generalizing remaining with
  | zero => exact selectOnce_ignoresLapsed setting actor c remaining
  | succ tries ih =>
    refine .bind (selectOnce_ignoresLapsed setting actor c remaining) fun choice => ?_
    cases choice with
    | kept target => exact .pure _
    | rejected bits => exact .pure _
    | empty => exact .pure _
    | chosen target =>
      refine .bind (Deception.attempt_ignoresLapsed setting actor _ target _) fun attempt => ?_
      dsimp only
      split
      · split
        · exact .pure _
        · exact ih _
      · exact .pure _

theorem recordStreaks_ignoresLapsed (actor : Entity) (chosen : Option Entity) :
    IgnoresLapsed t (recordStreaks actor chosen) := by
  refine .world_bind fun w => ?_
  cases w.bias? actor with
  | some b => exact .setWorld _
  | none => exact .pure ()

theorem choose_ignoresLapsed (setting : Setting) (actor : Entity) (c : Controller)
    (candidates : List Candidate) : IgnoresLapsed t (choose setting actor c candidates) := by
  refine .bind (.whenever (prepare_ignoresLapsed _ actor candidates) _) fun _ => ?_
  refine .bind (selectUndeceived_ignoresLapsed setting actor c _ candidates) fun choice => ?_
  exact .bind (.whenever (recordStreaks_ignoresLapsed actor _) _) fun _ => .pure _

theorem upkeep_ignoresLapsed (t' : Tuning) (actor : Entity) :
    IgnoresLapsed t (upkeep t' actor) := by
  refine .bind (.controllerOf actor) fun c => ?_
  refine .bind (.whenever (Threat.reset_ignoresLapsed actor) _) fun _ => ?_
  refine .bind (.whenever (.bind (Threat.decay_ignoresLapsed t' actor) fun _ => .pure ()) _) ?_
  exact fun _ => .pure c

theorem resolve_ignoresLapsed (setting : Setting) (actor : Entity) :
    IgnoresLapsed t (resolve setting actor) := by
  refine .bind (upkeep_ignoresLapsed _ actor) fun c => .world_bind fun w => ?_
  dsimp only
  split
  · refine .bind (.bind (.publish _) fun _ => ?_) fun _ => .pure _
    exact .bind (.storeController actor _) fun _ => .pure _
  · refine .bind (.publish _) fun _ => ?_
    refine .bind (choose_ignoresLapsed setting actor _ _) fun choice => ?_
    refine .bind (.publish _) fun _ => ?_
    exact .bind (.storeController actor _) fun _ => .pure _

theorem think_ignoresLapsed (setting : Setting) (actor : Entity) :
    IgnoresLapsed setting.tuning (think setting actor) := by
  rw [think_eq_resolve]
  refine .bind (resolve_ignoresLapsed setting actor) fun (answer, enemy?) => ?_
  refine .bind ?_ fun _ => .pure answer
  cases enemy? with
  | none => exact .pure ()
  | some enemy =>
    exact .bind (Alert.propagate_ignoresLapsed setting actor enemy) fun _ => .pure ()

theorem pass_ignoresLapsed (setting : Setting) (seconds : Float32) :
    IgnoresLapsed setting.tuning (pass setting seconds) := by
  refine .world_bind fun w => .bind (.setWorld _) fun _ => ?_
  refine .bind (.forEach (fun actor => ?_) _) fun _ => .pure _
  exact (think_ignoresLapsed setting actor).regardless

end Engine

theorem Alert.made_eq (h : s.SameButLapsed setting.tuning s') (caller enemy : Entity) :
    Call.made setting caller enemy s' = Call.made setting caller enemy s := by
  have hcalled := propagate_ignoresLapsed setting caller enemy s s' h
  unfold Call.made
  rw [h.now, hcalled.result]

namespace Engine

theorem thinkCalls_eq (h : s.SameButLapsed setting.tuning s') (actor : Entity) :
    thinkCalls setting actor s' = thinkCalls setting actor s := by
  have hresolved := resolve_ignoresLapsed (t := setting.tuning) setting actor s s' h
  unfold thinkCalls
  rw [hresolved.result]
  split
  · rw [Alert.made_eq hresolved.state]
  · rfl

theorem thinkCallsOf_eq (h : s.SameButLapsed setting.tuning s') (due : List Entity) :
    thinkCallsOf setting due s' = thinkCallsOf setting due s := by
  induction due generalizing s s' with
  | nil => rfl
  | cons actor due ih =>
    have hthought := think_ignoresLapsed setting actor s s' h
    rw [thinkCallsOf, thinkCallsOf, thinkCalls_eq h, ih hthought.state]

theorem passCalls_eq (h : s.SameButLapsed setting.tuning s') (seconds : Float32) :
    passCalls setting seconds s' = passCalls setting seconds s := by
  unfold passCalls
  rw [h.world]
  exact thinkCallsOf_eq (h.setWorld _) _

end Engine

theorem Outcome.SameButLapsed.ending {m m' : Action α} (h : (m s).SameButLapsed t (m' s'))
    (f : Except Refusal α → β) :
    Outcome.SameButLapsed t ((do let result ← Action.ending m; pure (f result) : Action β) s)
      ((do let result ← Action.ending m'; pure (f result) : Action β) s') := by
  have hended : (Action.ending m s).SameButLapsed t (Action.ending m' s') :=
    ⟨congrArg Except.ok h.result, h.events, h.state⟩
  exact hended.bind fun result => ⟨rfl, rfl, hended.state⟩

namespace Errand

theorem pass_sameButLapsed (h : s.SameButLapsed setting.tuning s') (seconds : Float32) :
    ((pass seconds).perform setting s).SameButLapsed setting.tuning
        ((pass seconds).perform setting s') ∧
      (pass seconds).calls setting s' = (pass seconds).calls setting s :=
  ⟨(Engine.pass_ignoresLapsed setting seconds s s' h).ending fun count => [Answer.due count],
    Engine.passCalls_eq h seconds⟩

/-- An update and a pass are the same to whoever does not look for old alerts. -/
theorem update_sameButLapsed (h : s.SameButLapsed setting.tuning s') (seconds : Float32) :
    ((update seconds).perform setting s).SameButLapsed setting.tuning
        ((pass seconds).perform setting s') ∧
      (pass seconds).calls setting s' = (update seconds).calls setting s :=
  pass_sameButLapsed ((State.SameButLapsed.lapse setting.tuning s).symm.trans h) seconds

/-- Errands go the same way whether or not old alerts were forgotten before. -/
theorem perform_sameButLapsed (h : s.SameButLapsed setting.tuning s') {errand : Errand}
    (hforth : errand.GoesForward) :
    (errand.perform setting s).SameButLapsed setting.tuning (errand.perform setting s') ∧
      errand.calls setting s' = errand.calls setting s := by
  have hlapsed := State.SameButLapsed.lapse setting.tuning
  cases errand with
  | think actor =>
    exact ⟨(Engine.think_ignoresLapsed setting actor s s' h).ending fun answer =>
      [Answer.target answer], Engine.thinkCalls_eq h actor⟩
  | update seconds =>
    exact pass_sameButLapsed ((hlapsed s).symm.trans (h.trans (hlapsed s'))) seconds
  | pass seconds => exact pass_sameButLapsed h seconds
  | propagate caller enemy =>
    exact ⟨(Alert.propagate_ignoresLapsed setting caller enemy s s' h).ending fun answering =>
      [Answer.allies answering], congrArg (List.cons · []) (Alert.made_eq h caller enemy)⟩
  | expire => exact ⟨⟨rfl, rfl, (hlapsed s).symm.trans (h.trans (hlapsed s'))⟩, rfl⟩
  | advance duration => exact ⟨⟨rfl, rfl, h.advance hforth⟩, rfl⟩
  | ask enemy =>
    have hheld : Alert.onCooldown setting.tuning s'.alerts s'.now enemy =
        Alert.onCooldown setting.tuning s.alerts s.now enemy := by
      rw [h.now]
      exact h.held s.now (Int.le_refl _) enemy
    refine ⟨⟨?_, rfl, h⟩, rfl⟩
    show Except.ok [Answer.onCooldown _] = Except.ok [Answer.onCooldown _]
    rw [hheld]

end Errand

/-- A run without some of the lapses of another: requests to forget are left out, and updates go
through their actors without forgetting. -/
inductive Thinned : List Errand → List Errand → Prop
  | nil : Thinned [] []
  | keep {errands thinned : List Errand} (errand : Errand) :
    Thinned errands thinned → Thinned (errand :: errands) (errand :: thinned)
  | drop {errands thinned : List Errand} :
    Thinned errands thinned → Thinned (.expire :: errands) thinned
  | spare {errands thinned : List Errand} (seconds : Float32) :
    Thinned errands thinned → Thinned (.update seconds :: errands) (.pass seconds :: thinned)

theorem runErrands?_expire (hcooldown : setting.tuning.alertCooldown? = some cooldown)
    (errands : List Errand) (s : State) :
    (runErrands? setting (.expire :: errands)).run s =
      (runErrands? setting errands).run (Alert.lapse setting.tuning s).state := by
  obtain ⟨answers, hanswers, hrun⟩ :=
    runErrands?_of_fits hcooldown (show Errand.Fits .expire s from trivial) errands
  obtain rfl : [] = answers := Except.ok.inj hanswers
  rw [hrun]
  simp only [List.nil_append, Option.map_id_fun', Except.map_id]
  rfl

/-- Two runs that nobody can tell apart begin with errands that nobody can tell apart. -/
theorem runErrands?_cons_sameButLapsed
    (hcooldown : setting.tuning.alertCooldown? = some cooldown) {errand errand' : Errand}
    {errands thinned : List Errand} (h : s.SameButLapsed setting.tuning s')
    (hfits : errand'.Fits s' ↔ errand.Fits s)
    (hdone : (errand.perform setting s).SameButLapsed setting.tuning (errand'.perform setting s') ∧
      errand'.calls setting s' = errand.calls setting s)
    (hrest : Outcome.SameButLapsed setting.tuning
        ((runErrands? setting errands).run (errand.perform setting s).state)
        ((runErrands? setting thinned).run (errand'.perform setting s').state) ∧
      callsOf setting thinned (errand'.perform setting s').state =
        callsOf setting errands (errand.perform setting s).state) :
    Outcome.SameButLapsed setting.tuning ((runErrands? setting (errand :: errands)).run s)
        ((runErrands? setting (errand' :: thinned)).run s') ∧
      callsOf setting (errand' :: thinned) s' = callsOf setting (errand :: errands) s := by
  obtain ⟨hdone, hcalls⟩ := hdone
  obtain ⟨hrest, hlater⟩ := hrest
  by_cases hfit : errand.Fits s
  · have hfit' := hfits.mpr hfit
    obtain ⟨answers, hanswers, hrun⟩ := runErrands?_of_fits hcooldown hfit errands
    obtain ⟨answers', hanswers', hrun'⟩ := runErrands?_of_fits hcooldown hfit' thinned
    obtain rfl : answers = answers' := by
      rw [hdone.result, hanswers] at hanswers'
      exact Except.ok.inj hanswers'
    rw [hrun, hrun', callsOf, callsOf, if_pos hfit, if_pos hfit', hcalls, hlater]
    exact ⟨⟨by rw [hrest.result], by rw [hdone.events, hrest.events], hrest.state⟩, rfl⟩
  · have hfit' := mt hfits.mp hfit
    rw [runErrands?_of_not_fits hfit, runErrands?_of_not_fits hfit', callsOf, callsOf,
      if_neg hfit, if_neg hfit']
    exact ⟨⟨rfl, rfl, h⟩, rfl⟩

theorem runErrands?_thinned (hcooldown : setting.tuning.alertCooldown? = some cooldown)
    {errands thinned : List Errand} (hthinned : Thinned errands thinned)
    (hforth : ∀ errand ∈ errands, errand.GoesForward) (h : s.SameButLapsed setting.tuning s') :
    Outcome.SameButLapsed setting.tuning ((runErrands? setting errands).run s)
        ((runErrands? setting thinned).run s') ∧
      callsOf setting thinned s' = callsOf setting errands s := by
  induction hthinned generalizing s s' with
  | nil => exact ⟨⟨rfl, rfl, h⟩, rfl⟩
  | keep errand _ ih =>
    have hdone := Errand.perform_sameButLapsed h (hforth errand List.mem_cons_self)
    exact runErrands?_cons_sameButLapsed hcooldown h (errand.fits_congr h.now) hdone
      (ih (fun e he => hforth e (List.mem_cons_of_mem _ he)) hdone.1.state)
  | spare seconds _ ih =>
    have hdone := Errand.update_sameButLapsed h seconds
    exact runErrands?_cons_sameButLapsed hcooldown h Iff.rfl hdone
      (ih (fun e he => hforth e (List.mem_cons_of_mem _ he)) hdone.1.state)
  | drop _ ih =>
    rw [runErrands?_expire hcooldown, callsOf, if_pos (show Errand.Fits .expire _ from trivial)]
    exact ih (fun e he => hforth e (List.mem_cons_of_mem _ he))
      ((State.SameButLapsed.lapse setting.tuning s).symm.trans h)

/-- Under a cooldown that is a length of time a run goes through if the clock goes that far. As far
as it goes its alerts are those of its calls, and calls about one enemy that somebody answered are a
cooldown apart. A run with fewer lapses has the same answers, events and calls, and ends in the same
world. -/
theorem runErrands_spaced_and_lapses_unseen {setting : Setting} {cooldown : Int}
    (hcooldown : setting.tuning.alertCooldown? = some cooldown) {errands : List Errand}
    (hforth : ∀ errand ∈ errands, errand.GoesForward) (s : State) :
    let run := (runErrands? setting errands).run s
    let calls := callsOf setting errands s
    (Clock.earliest ≤ s.now → s.now + elapsed errands ≤ Clock.latest →
      ∃ answers, run.result = .ok (some answers)) ∧
    run.events.filter Event.isAlert = calls.flatMap Alert.Call.alerts ∧
    (calls.Pairwise fun a b => a.time ≤ b.time ∧
      (a.enemy = b.enemy → a.allies ≠ [] → b.allies ≠ [] → cooldown ≤ b.time - a.time)) ∧
    ∀ thinned, Thinned errands thinned →
      let other := (runErrands? setting thinned).run s
      other.result = run.result ∧ other.events = run.events ∧
        callsOf setting thinned s = calls ∧ other.state.world = run.state.world ∧
        other.state.random = run.state.random ∧ other.state.now = run.state.now := by
  intro run calls
  have hspaced := runErrands?_spaced hcooldown hforth s
  refine ⟨runErrands?_goes_through hcooldown hforth, hspaced.told, hspaced.apart, ?_⟩
  intro thinned hthinned other
  obtain ⟨hsame, hcalls⟩ :=
    runErrands?_thinned hcooldown hthinned hforth (.refl setting.tuning s)
  exact ⟨hsame.result, hsame.events, hcalls, hsame.state.world, hsame.state.random,
    hsame.state.now⟩

/-- A wolf calls, old alerts are forgotten twice on the way, and after the cooldown the other wolf
calls about the same traveller. -/
def vigil : List Errand :=
  [.think ⟨0, 1⟩, .ask ⟨2, 1⟩, .expire, .update 1.0, .advance 120000000000, .expire,
    .propagate ⟨1, 1⟩ ⟨2, 1⟩]

theorem vigil_lapses_unseen :
    let watched := [.think ⟨0, 1⟩, .ask ⟨2, 1⟩, .pass 1.0, .advance 120000000000,
      .propagate ⟨1, 1⟩ ⟨2, 1⟩]
    let run := (runErrands? {} vigil).run encounter
    let other := (runErrands? {} watched).run encounter
    ({} : Tuning).alertCooldown? = some 120000000000 ∧
      (∀ errand ∈ vigil, errand.GoesForward) ∧
      (∃ answers, run.result = .ok (some answers)) ∧
      other.result = run.result ∧ other.events = run.events ∧
      other.state.world = run.state.world := by
  intro watched run other
  have hcooldown : ({} : Setting).tuning.alertCooldown? = some 120000000000 := by decide
  have hforth : ∀ errand ∈ vigil, errand.GoesForward := by
    simp [vigil, Errand.GoesForward, Errand.duration]
  have hthinned : Thinned vigil watched :=
    .keep _ (.keep _ (.drop (.spare _ (.keep _ (.drop (.keep _ .nil))))))
  obtain ⟨hthrough, -, -, hunseen⟩ :=
    runErrands_spaced_and_lapses_unseen hcooldown hforth encounter
  obtain ⟨hresult, hevents, -, hworld, -, -⟩ := hunseen watched hthinned
  exact ⟨hcooldown, hforth, hthrough (by decide) (by decide), hresult, hevents, hworld⟩

/-- Without a cooldown the lapse in a run panics, and the run without it goes through. -/
theorem expire_panics :
    let setting : Setting := { tuning := { alertCooldownSecs := Int64.maxValue } }
    let errands := [.expire, .ask ⟨2, 1⟩]
    Thinned errands [.ask ⟨2, 1⟩] ∧
      ((runErrands? setting errands).run encounter).result = .ok none ∧
      ((runErrands? setting [.ask ⟨2, 1⟩]).run encounter).result =
        .ok (some [.onCooldown false]) := by
  intro setting errands
  exact ⟨.drop (.keep _ .nil), rfl, rfl⟩

end Hostility
