import Hostility.Proofs.Errands

/-!
Calls about one enemy keep their distance in time. Once somebody has answered a call, every later
state remembers it: the cooldown after it is over, or a call at least as late is noted in the table.
Calls note themselves, and what a lapse drops from the table is old enough.
-/
namespace Hostility

variable {t : Tuning} {setting : Setting} {cooldown : Int} {s s' s'' : State}
  {enemy caller actor : Entity} {time : Int} {events events' : List Event}
  {calls calls' : List Alert.Call}

/-- A call about an enemy at some time is not forgotten too soon. -/
def State.Remembers (cooldown : Int) (s : State) (enemy : Entity) (time : Int) : Prop :=
  cooldown ≤ s.now - time ∨
    ∃ noted, EntityMap.get? s.alerts enemy = some noted ∧ time ≤ noted

namespace Alert

/-- A call that does not come too soon comes a cooldown after whatever is remembered. -/
theorem cooldown_le_of_remembers (ht : t.alertCooldown? = some cooldown)
    (h : s.Remembers cooldown enemy time)
    (hcooldown : onCooldown t s.alerts s.now enemy = false) : cooldown ≤ s.now - time := by
  rcases h with h | ⟨noted, hnoted, hle⟩
  · exact h
  · have hlate : ¬ s.now - noted < cooldown := by
      simpa [onCooldown, onCooldown?, ht, hnoted] using hcooldown
    omega

end Alert

/-- A stretch of a run with its calls and its events. The alerts are those of the calls, and calls
about one enemy that were answered are a cooldown apart, also from those remembered at first. -/
structure Spaced (cooldown : Int) (s : State) (calls : List Alert.Call) (events : List Event)
    (s' : State) : Prop where
  told : events.filter Event.isAlert = calls.flatMap Alert.Call.alerts
  forth : s.now ≤ s'.now
  within : ∀ call ∈ calls, s.now ≤ call.time ∧ call.time ≤ s'.now
  remembers : ∀ enemy time, s.Remembers cooldown enemy time → s'.Remembers cooldown enemy time
  late : ∀ call ∈ calls, call.allies ≠ [] → ∀ time, s.Remembers cooldown call.enemy time →
    cooldown ≤ call.time - time
  noted : ∀ call ∈ calls, call.allies ≠ [] → s'.Remembers cooldown call.enemy call.time
  apart : calls.Pairwise fun a b => a.time ≤ b.time ∧
    (a.enemy = b.enemy → a.allies ≠ [] → b.allies ≠ [] → cooldown ≤ b.time - a.time)

namespace Spaced

/-- A stretch without calls. -/
theorem of_no_calls (hforth : s.now ≤ s'.now)
    (hremembers : ∀ enemy time, s.Remembers cooldown enemy time → s'.Remembers cooldown enemy time)
    (hevents : ∀ e ∈ events, e.isAlert = false) : Spaced cooldown s [] events s' where
  told := by simpa using hevents
  forth := hforth
  within := by simp
  remembers := hremembers
  late := by simp
  noted := by simp
  apart := .nil

theorem refl (s : State) : Spaced cooldown s [] [] s :=
  of_no_calls (Int.le_refl _) (fun _ _ => id) (by simp)

theorem trans (h : Spaced cooldown s calls events s') (h' : Spaced cooldown s' calls' events' s'') :
    Spaced cooldown s (calls ++ calls') (events ++ events') s'' where
  told := by rw [List.filter_append, List.flatMap_append, h.told, h'.told]
  forth := Int.le_trans h.forth h'.forth
  within call hcall := by
    have hfirst := h.forth
    have hsecond := h'.forth
    rcases List.mem_append.mp hcall with hcall | hcall
    · have := h.within call hcall
      omega
    · have := h'.within call hcall
      omega
  remembers enemy time hs := h'.remembers enemy time (h.remembers enemy time hs)
  late call hcall hallies time hs := by
    rcases List.mem_append.mp hcall with hcall | hcall
    · exact h.late call hcall hallies time hs
    · exact h'.late call hcall hallies time (h.remembers _ time hs)
  noted call hcall hallies := by
    rcases List.mem_append.mp hcall with hcall | hcall
    · exact h'.remembers _ _ (h.noted call hcall hallies)
    · exact h'.noted call hcall hallies
  apart := by
    refine List.pairwise_append.mpr ⟨h.apart, h'.apart, fun a ha b hb => ⟨?_, ?_⟩⟩
    · exact Int.le_trans (h.within a ha).2 (h'.within b hb).1
    · intro henemy hallies hallies'
      have hnoted := h.noted a ha hallies
      rw [henemy] at hnoted
      exact h'.late b hb hallies' a.time hnoted

/-- One action that is not refused, and then another. -/
theorem bind {α β : Type} {m : Action α} {f : α → Action β} {a : α}
    (hm : Spaced cooldown s calls (m s).events (m s).state) (ha : (m s).result = .ok a)
    (hf : Spaced cooldown (m s).state calls' (f a (m s).state).events (f a (m s).state).state) :
    Spaced cooldown s (calls ++ calls') ((m >>= f) s).events ((m >>= f) s).state := by
  rw [Action.bind_of_ok ha]
  exact hm.trans hf

/-- A stretch in which neither the clock nor the table changes, and no alert is published. -/
theorem of_still (hnow : s'.now = s.now) (halerts : s'.alerts = s.alerts)
    (hevents : ∀ e ∈ events, e.isAlert = false) : Spaced cooldown s [] events s' := by
  refine of_no_calls (Int.le_of_eq hnow.symm) (fun enemy time hs => ?_) hevents
  rwa [State.Remembers, hnow, halerts]

/-- How a stretch ended does not matter. -/
theorem ending {α β : Type} {m : Action α} (f : Except Refusal α → β)
    (h : Spaced cooldown s calls (m s).events (m s).state) :
    let ended := (do let result ← Action.ending m; pure (f result) : Action β) s
    Spaced cooldown s calls ended.events ended.state := by
  have hrun := Spaced.bind (m := Action.ending m) (f := fun result => pure (f result)) h rfl
    (.refl _)
  rwa [List.append_nil] at hrun

theorem advance (s : State) {duration : Int} (hforth : 0 ≤ duration) :
    Spaced cooldown s [] [] { s with now := s.now + duration } := by
  refine of_no_calls ?_ (fun enemy time hs => ?_) (by simp)
  · show s.now ≤ s.now + duration
    omega
  · rcases hs with hs | hs
    · left
      show cooldown ≤ s.now + duration - time
      omega
    · exact .inr hs

/-- What a lapse drops from the table is old enough. -/
theorem lapse (ht : t.alertCooldown? = some cooldown) (s : State) :
    Spaced cooldown s [] [] (Alert.lapse t s).state := by
  refine of_no_calls (Int.le_refl _) (fun enemy time hs => ?_) (by simp)
  rcases hs with hs | ⟨noted, hnoted, hle⟩
  · exact .inl hs
  · by_cases hold : s.now - noted < cooldown
    · right
      refine ⟨noted, ?_, hle⟩
      show EntityMap.get? (Alert.expire t s.alerts s.now) enemy = some noted
      rw [Alert.expire_of_cooldown ht, EntityMap.get?_filter, hnoted]
      simp [hold]
    · left
      show cooldown ≤ s.now - time
      omega

end Spaced

namespace Alert

open Hostility.Action

/-- The woken allies are told one by one, and nothing is noted any more. -/
theorem forEach_wake_told (t : Tuning) (caller enemy : Entity) (retaliates : Bool)
    (allies : List Entity) (s : State) :
    let woken := forEach (wake t caller enemy retaliates) allies s
    woken.state.now = s.now ∧ woken.state.alerts = s.alerts ∧
      woken.events.filter Event.isAlert =
        allies.map fun ally => .allyAlerted caller ally enemy := by
  induction allies generalizing s with
  | nil => exact ⟨rfl, rfl, rfl⟩
  | cons ally allies ih =>
    intro woken
    have hwake : let first := wake t caller enemy retaliates ally s
        first.result = .ok () ∧ first.state.now = s.now ∧ first.state.alerts = s.alerts ∧
          first.events.filter Event.isAlert = [.allyAlerted caller ally enemy] := by
      intro first
      cases hc : s.world.controller? ally with
      | none =>
        rw [show first = _ from wake_of_no_controller t caller enemy retaliates hc]
        exact ⟨rfl, rfl, rfl, rfl⟩
      | some c =>
        obtain ⟨w', hfirst, -⟩ := wake_of_controller t caller enemy retaliates hc
        rw [show first = _ from hfirst]
        exact ⟨rfl, rfl, rfl, rfl⟩
    obtain ⟨hok, hnow, halerts, htold⟩ := hwake
    have hrest := ih (wake t caller enemy retaliates ally s).state
    have hwoken : woken = _ := bind_of_ok hok
    rw [hwoken]
    refine ⟨hrest.1.trans hnow, hrest.2.1.trans halerts, ?_⟩
    rw [List.filter_append, htold, hrest.2.2]
    rfl

/-- An enemy that is not too soon to be cried out is noted, and so are all older calls about it. -/
theorem remembers_insert (ht : t.alertCooldown? = some cooldown)
    (hcooldown : onCooldown t s.alerts s.now enemy = false)
    (hs : s.Remembers cooldown caller time) :
    State.Remembers cooldown { s with alerts := EntityMap.insert s.alerts enemy s.now } caller
      time := by
  by_cases hcaller : enemy = caller
  · left
    rw [← hcaller] at hs
    show cooldown ≤ s.now - time
    exact cooldown_le_of_remembers ht hs hcooldown
  · rcases hs with hs | ⟨noted, hnoted, hle⟩
    · exact .inl hs
    · exact .inr ⟨noted, by rw [EntityMap.get?_insert, if_neg hcaller, hnoted], hle⟩

theorem propagate_spaced (ht : setting.tuning.alertCooldown? = some cooldown)
    (caller enemy : Entity) (s : State) :
    let called := propagate setting caller enemy s
    Spaced cooldown s [.made setting caller enemy s] called.events called.state := by
  intro called
  cases hcooldown : onCooldown setting.tuning s.alerts s.now enemy with
  | true =>
    have hcalled : called = ⟨.ok [], s, []⟩ := propagate_of_onCooldown hcooldown
    have hmade : Call.made setting caller enemy s = ⟨s.now, caller, enemy, []⟩ := by
      unfold Call.made
      rw [show propagate setting caller enemy s = _ from hcalled]
    rw [hcalled, hmade]
    constructor <;> simp [Call.alerts]
  | false =>
    let noted := { s with alerts := EntityMap.insert s.alerts enemy s.now }
    let allies := listeners setting.visibility s.world caller enemy
    let woken := forEach (wake setting.tuning caller enemy
      (callerRetaliates s.world caller enemy)) allies noted
    have hcalled : called = ⟨.ok allies, woken.state, woken.events⟩ :=
      propagate_of_not_onCooldown hcooldown
    have hmade : Call.made setting caller enemy s = ⟨s.now, caller, enemy, allies⟩ := by
      unfold Call.made
      rw [show propagate setting caller enemy s = _ from hcalled]
    obtain ⟨hnow, halerts, htold⟩ := forEach_wake_told setting.tuning caller enemy
      (callerRetaliates s.world caller enemy) allies noted
    have hkept : ∀ e time, noted.Remembers cooldown e time →
        woken.state.Remembers cooldown e time := by
      intro e time hs
      rwa [State.Remembers, hnow, halerts]
    rw [hcalled, hmade]
    constructor
    · rw [htold]
      simp [Call.alerts]
    · exact Int.le_of_eq hnow.symm
    · intro call hcall
      obtain rfl := List.mem_singleton.mp hcall
      exact ⟨Int.le_refl _, Int.le_of_eq hnow.symm⟩
    · exact fun e time hs => hkept e time (remembers_insert ht hcooldown hs)
    · intro call hcall _ time hs
      obtain rfl := List.mem_singleton.mp hcall
      exact cooldown_le_of_remembers ht hs hcooldown
    · intro call hcall _
      obtain rfl := List.mem_singleton.mp hcall
      refine hkept _ _ (.inr ⟨s.now, ?_, Int.le_refl _⟩)
      rw [EntityMap.get?_insert, if_pos rfl]
    · exact List.pairwise_singleton ..

end Alert

theorem Event.IsUpkeepOf.isAlert_eq_false {e : Event} (h : e.IsUpkeepOf actor) :
    e.isAlert = false := by
  cases e <;> first | rfl | exact h.elim

theorem Event.IsNewsOf.isAlert_eq_false {e : Event} (h : e.IsNewsOf actor) :
    e.isAlert = false := by
  cases e <;> first | rfl | exact h.elim

namespace Course

/-- Neither the clock nor the table of alerts changes, and nobody is alerted. -/
def still : Course := fun s events s' =>
  s'.now = s.now ∧ s'.alerts = s.alerts ∧ ∀ e ∈ events, e.isAlert = false

theorem still_closed : still.Closed where
  refl _ := ⟨rfl, rfl, by simp⟩
  trans h h' := by
    refine ⟨h'.1.trans h.1, h'.2.1.trans h.2.1, fun e he => ?_⟩
    rcases List.mem_append.mp he with he | he
    · exact h.2.2 e he
    · exact h'.2.2 e he

end Course

theorem Tended.still {α : Type} {o : Outcome α} (h : Tended actor s o) :
    Course.still s o.events o.state :=
  ⟨h.now, h.alerts, fun e he => (h.events e he).isAlert_eq_false⟩

namespace Engine

open Course Hostility.Action

theorem publish_still {events : List Event} (h : ∀ e ∈ events, e.IsNewsOf actor) (s : State) :
    still s events s :=
  ⟨rfl, rfl, fun e he => (h e he).isAlert_eq_false⟩

theorem storeController_still (actor : Entity) (c : Controller) :
    Follows still (storeController actor c) := by
  intro s
  unfold storeController
  cases s.world.controller? actor <;> exact ⟨rfl, rfl, by simp⟩

/-- Up to its call a think is still. -/
theorem resolve_still (setting : Setting) (actor : Entity) :
    Follows still (resolve setting actor) := by
  intro s
  unfold resolve
  cases hc : s.world.controller? actor with
  | none =>
    obtain ⟨refusal, hrefused⟩ := upkeep_of_no_controller setting.tuning hc
    rw [bind_of_error (by rw [hrefused]), hrefused]
    exact still_closed.refl s
  | some c =>
    have hbefore := upkeep_tended setting.tuning hc
    have hkept := (hbefore.world.controller?_eq actor).trans hc
    refine still_closed.bind hbefore.still fun a ha => ?_
    obtain rfl : c = a := Except.ok.inj ((result_upkeep _ hc).symm.trans ha)
    generalize (upkeep setting.tuning actor s).state = s' at *
    rw [world_bind]
    split
    · refine still_closed.bind ?_ fun _ _ => still_closed.refl _
      rw [giveUp_eq hkept]
      exact publish_still (Controller.disengage_news _ actor) s'
    · have hchosen := choose_tended setting (c.noteMode.markThought.rouse actor).1
        (found setting s'.world actor c.noteMode.markThought) (World.contains_of_bind hkept)
      refine still_closed.bind (publish_still (Controller.rouse_news _ actor) s') fun _ _ => ?_
      refine still_closed.bind hchosen.still fun choice _ => ?_
      refine still_closed.bind (publish_still (settle_news _ actor choice) _) fun _ _ => ?_
      exact still_closed.bind (storeController_still actor _ _) fun _ _ => still_closed.refl _

/-- A think makes one call at most, and makes it last. -/
theorem think_spaced (ht : setting.tuning.alertCooldown? = some cooldown) (actor : Entity)
    (s : State) :
    Spaced cooldown s (thinkCalls setting actor s) (think setting actor s).events
      (think setting actor s).state := by
  obtain ⟨hnow, halerts, hevents⟩ := resolve_still setting actor s
  have hresolved : Spaced cooldown s [] _ _ := .of_still hnow halerts hevents
  rw [think_eq_resolve]
  unfold thinkCalls
  cases hresult : (resolve setting actor s).result with
  | error refusal =>
    rw [bind_of_error hresult]
    exact hresolved
  | ok answer =>
    obtain ⟨target, enemy?⟩ := answer
    refine hresolved.bind hresult ?_
    cases enemy? with
    | none => exact .refl _
    | some enemy =>
      have hcalled := Alert.propagate_spaced ht actor enemy (resolve setting actor s).state
      obtain ⟨allies, hallies⟩ :=
        Alert.propagate_accepted setting actor enemy (resolve setting actor s).state
      have hcry := hcalled.bind (f := fun _ => pure ()) hallies (.refl _)
      exact hcry.bind (a := ()) (by rw [bind_of_ok hallies]; rfl) (.refl _)

theorem thinks_spaced (ht : setting.tuning.alertCooldown? = some cooldown) (due : List Entity)
    (s : State) :
    let thought := forEach (fun actor => regardless (think setting actor)) due s
    Spaced cooldown s (thinkCallsOf setting due s) thought.events thought.state := by
  induction due generalizing s with
  | nil => exact .refl s
  | cons actor due ih => exact (think_spaced ht actor s).bind (a := ()) rfl (ih _)

theorem pass_spaced (ht : setting.tuning.alertCooldown? = some cooldown) (seconds : Float32)
    (s : State) :
    let passed := pass setting seconds s
    Spaced cooldown s (passCalls setting seconds s) passed.events passed.state := by
  intro passed
  let w := s.world.updateAll (elapse seconds)
  let due := w.entities.filter (isDue w)
  obtain ⟨_, hdone⟩ : ∃ a, (forEach (fun actor => regardless (think setting actor)) due
      { s with world := w }).result = .ok a :=
    Accepted.forEach (fun _ => .regardless _) due _
  have hthought := (thinks_spaced ht due { s with world := w }).bind
    (f := fun _ => pure due.length) hdone (.refl _)
  have helapsed : Spaced cooldown s [] [] { s with world := w } :=
    .of_still rfl rfl (by simp)
  have hrun := helapsed.trans hthought
  rw [List.nil_append, List.append_nil, List.nil_append] at hrun
  exact hrun

end Engine

theorem Errand.perform_spaced (ht : setting.tuning.alertCooldown? = some cooldown)
    {errand : Errand} (hforth : errand.GoesForward) (s : State) :
    let done := errand.perform setting s
    Spaced cooldown s (errand.calls setting s) done.events done.state := by
  cases errand with
  | think actor =>
    exact (Engine.think_spaced ht actor s).ending fun answer => [Answer.target answer]
  | update seconds =>
    have hupdated := (Spaced.lapse ht s).trans (Engine.pass_spaced ht seconds _)
    exact hupdated.ending (m := Engine.update setting seconds) fun count => [Answer.due count]
  | pass seconds =>
    exact (Engine.pass_spaced ht seconds s).ending fun count => [Answer.due count]
  | propagate caller enemy =>
    have hpropagated := Alert.propagate_spaced ht caller enemy s
    exact hpropagated.ending fun answering => [Answer.allies answering]
  | expire => exact Spaced.lapse ht s
  | advance duration => exact .advance s hforth
  | ask enemy => exact .refl s

theorem runErrands?_spaced (ht : setting.tuning.alertCooldown? = some cooldown)
    {errands : List Errand} (hforth : ∀ errand ∈ errands, errand.GoesForward) (s : State) :
    let run := (runErrands? setting errands).run s
    Spaced cooldown s (callsOf setting errands s) run.events run.state := by
  induction errands generalizing s with
  | nil => exact .refl s
  | cons errand errands ih =>
    intro run
    by_cases hfits : errand.Fits s
    · obtain ⟨answers, -, hrun⟩ := runErrands?_of_fits ht hfits errands
      rw [show run = _ from hrun, callsOf, if_pos hfits]
      exact (Errand.perform_spaced ht (hforth errand List.mem_cons_self) s).trans
        (ih (fun e he => hforth e (List.mem_cons_of_mem _ he)) _)
    · rw [show run = _ from runErrands?_of_not_fits hfits errands, callsOf, if_neg hfits]
      exact .refl s

end Hostility
