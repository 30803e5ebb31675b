import Hostility.Proofs.Awakenings
import Hostility.Proofs.Beats
import Hostility.Proofs.Turns

/-!
Alerts travel one hop. Whoever is woken by a call has to come home before it calls anyone itself: a
call leaves its allies engaged, only who was idle before its think calls, and nothing but coming
home makes an actor idle.
-/
namespace Hostility

variable {setting : Setting} {radius : Float} {actor x : Entity} {s s' : State}
  {events events' : List Event} {b : Beliefs}

/-- An alert that wakes an ally. -/
def Event.wakes (ally : Entity) : Event → Prop
  | .allyAlerted _ a _ => a = ally
  | _ => False

/-- An alert of a caller. -/
def Event.isCryOf (caller : Entity) : Event → Prop
  | .allyAlerted a _ _ => a = caller
  | _ => False

theorem Event.IsAside.isAlert_eq_false {e : Event} (h : e.IsAside) : e.isAlert = false := by
  cases e <;> first | rfl | exact h.elim

/-- An alert tells a listener of a target, so what tells nothing is no alert. -/
theorem Event.IsQuiet.isAlert_eq_false {e : Event} (h : e.IsQuiet) : e.isAlert = false := by
  cases e with
  | allyAlerted caller ally enemy =>
    have hsame := congrArg (fun b : Beliefs => (b ally).target) (h .initial).2
    simp [Beliefs.hear, Beliefs.initial] at hsame
  | _ => rfl

namespace Beliefs

theorem state_hear {e : Event} (h : (b.hear e x).state = .idle) :
    (b x).state = .idle ∨ ∃ state, e = .stateChanged x state .idle := by
  cases e with
  | stateChanged a before after =>
    by_cases hx : x = a
    · subst hx
      obtain rfl : after = .idle := by simpa [hear] using h
      exact .inr ⟨before, rfl⟩
    · exact .inl (by simpa [hear, hx] using h)
  | newEnemy a previous enemy =>
    by_cases hx : x = a <;> exact .inl (by simpa [hear, hx] using h)
  | allyAlerted caller ally enemy =>
    by_cases hx : x = ally <;> exact .inl (by simpa [hear, hx] using h)
  | targetLost a target =>
    by_cases hx : x = a <;> exact .inl (by simpa [hear, hx] using h)
  | _ => exact .inl h

/-- Whoever is believed idle, and was not before, was heard going idle in between. -/
theorem exists_idle_of_hearAll (hbusy : (b x).state ≠ .idle)
    (hidle : (b.hearAll events x).state = .idle) :
    ∃ state, .stateChanged x state .idle ∈ events := by
  induction events generalizing b with
  | nil => exact absurd hidle hbusy
  | cons e events ih =>
    by_cases hfirst : (b.hear e x).state = .idle
    · obtain ⟨state, rfl⟩ := (state_hear hfirst).resolve_left hbusy
      exact ⟨state, by simp⟩
    · obtain ⟨state, hstate⟩ := ih hfirst hidle
      exact ⟨state, by simp [hstate]⟩

/-- Every caller was believed idle at some point since which no alert has woken it. -/
def TracesCalls (b : Beliefs) (events : List Event) : Prop :=
  ∀ before caller ally enemy after, events = before ++ .allyAlerted caller ally enemy :: after →
    ∃ earlier since, before = earlier ++ since ∧ (b.hearAll earlier caller).state = .idle ∧
      ∀ e ∈ since, ¬ e.wakes caller

theorem tracesCalls_of_no_alerts (h : ∀ e ∈ events, e.isAlert = false) (b : Beliefs) :
    b.TracesCalls events := by
  rintro before caller ally enemy after rfl
  have halert := h (.allyAlerted caller ally enemy) (by simp)
  cases halert

theorem TracesCalls.append (h : b.TracesCalls events)
    (h' : (b.hearAll events).TracesCalls events') : b.TracesCalls (events ++ events') := by
  intro before caller ally enemy after hsplit
  rcases eq_or_eq_of_append_eq hsplit with ⟨rest, hevents⟩ | ⟨start, rfl, hevents'⟩
  · exact h before caller ally enemy rest hevents
  · obtain ⟨earlier, since, rfl, hidle, hsince⟩ := h' start caller ally enemy after hevents'
    exact ⟨events ++ earlier, since, by simp, by rwa [hearAll_append], hsince⟩

end Beliefs

namespace Course

/-- A listener who is right stays so, hears of every ally that it engages, and can trace every
call. -/
def traceable : Course := fun s events s' =>
  informing s events s' ∧ Announced events ∧ ∀ b, Faithful b s.world → b.TracesCalls events

theorem traceable_closed : traceable.Closed where
  refl s := ⟨informing_closed.refl s, announced_of_no_alerts (by simp),
    fun b _ => b.tracesCalls_of_no_alerts (by simp)⟩
  trans := by
    rintro s s' s'' events events' ⟨hinforms, hannounced, htraces⟩
      ⟨hinforms', hannounced', htraces'⟩
    refine ⟨informing_closed.trans hinforms hinforms', hannounced.append hannounced',
      fun b hb => ?_⟩
    exact (htraces b hb).append (htraces' _ (hinforms b hb).2)

theorem traceable_of_no_alerts (h : informing s events s')
    (hevents : ∀ e ∈ events, e.isAlert = false) : traceable s events s' :=
  ⟨h, announced_of_no_alerts hevents, fun b _ => b.tracesCalls_of_no_alerts hevents⟩

end Course

open Course Hostility.Action

namespace Engine

/-- The alerts of a think are those of its own call. -/
theorem Thought.alert_mem {c own : Controller} {enemy : Entity} {allies : List Entity}
    (h : Thought setting s actor c own enemy allies events s') {caller ally target : Entity}
    (hmem : .allyAlerted caller ally target ∈ events) : caller = actor ∧ ally ∈ allies := by
  have htold : .allyAlerted caller ally target ∈ events.filter Event.isAlert :=
    List.mem_filter.mpr ⟨hmem, rfl⟩
  rw [h.told] at htold
  obtain ⟨called, hcalled, hsame⟩ := List.mem_map.mp htold
  cases hsame
  exact ⟨rfl, hcalled⟩

theorem think_traceable (hv : setting.visibility = .proximity radius) (actor : Entity) :
    Follows traceable (think setting actor) := by
  intro s
  have hinforms := think_informing hv actor s
  cases hc : s.world.controller? actor with
  | none =>
    obtain ⟨refusal, hrefused⟩ := think_of_no_controller setting hc
    rw [hrefused]
    exact traceable_closed.refl s
  | some c =>
    obtain ⟨own, enemy, allies, hthought⟩ := think_thought hv hc
    refine ⟨hinforms, hthought.announced, fun b hb => ?_⟩
    intro before caller ally target after hsplit
    have hmem : .allyAlerted caller ally target ∈ (think setting actor s).events := by
      simp [hsplit]
    obtain ⟨rfl, hally⟩ := hthought.alert_mem hmem
    obtain ⟨hidle, -⟩ := hthought.called (List.ne_nil_of_mem hally)
    refine ⟨[], before, rfl, ?_, fun e he hwakes => ?_⟩
    · rw [Beliefs.hearAll_nil, hb.eq_belief hc]
      exact hidle
    · have he : e ∈ (think setting caller s).events := by simp [hsplit, he]
      cases e with
      | allyAlerted caller' ally' target' =>
        obtain rfl : ally' = caller := hwakes
        exact hthought.apart (hthought.alert_mem he).2
      | _ => exact hwakes

theorem update_traceable (hv : setting.visibility = .proximity radius) (seconds : Float32) :
    Follows traceable (update setting seconds) := by
  have hsilent {s s' : State} (h : quiet s [] s') : traceable s [] s' :=
    traceable_of_no_alerts (informing_of_quiet h) (by simp)
  apply update_follows traceable_closed seconds
  · exact fun s => hsilent (quiet_elapse seconds s)
  · intro s table
    exact hsilent ⟨fun _ => rfl, fun _ => rfl, by simp⟩
  · exact think_traceable hv

theorem arriveHome_still (actor : Entity) : Follows still (arriveHome actor) := by
  intro s
  refine still_closed.controllerOf_bind fun c _ => ?_
  refine still_closed.bind (publish_still (Controller.transition_news _ actor .idle) s)
    fun _ _ => ?_
  refine still_closed.bind (storeController_still actor _ _) fun _ _ => ?_
  exact (Threat.reset_tended actor _).still

end Engine

theorem Request.perform_traceable (hv : setting.visibility = .proximity radius)
    {request : Request} (h : ¬ request.IsRumour) :
    Follows traceable (request.perform setting) := by
  have hinforms := request.perform_informing hv
  have haside (h : request.IsAside) : Follows traceable (request.perform setting) := fun s =>
    traceable_of_no_alerts (hinforms s) fun e he =>
      ((request.perform_aside setting h s).2.2 e he).isAlert_eq_false
  cases request with
  | think actor => exact .regardless (Engine.think_traceable hv actor)
  | update seconds => exact .regardless (Engine.update_traceable hv seconds)
  | recordDamage actor attacker amount =>
    exact fun s => traceable_of_no_alerts (hinforms s) fun e he =>
      ((Engine.recordDamage_quiet setting.tuning actor attacker amount s).2.2 e he).isAlert_eq_false
  | arriveHome actor =>
    exact fun s => traceable_of_no_alerts (hinforms s) (Engine.arriveHome_still actor s).2.2
  | propagate caller enemy => exact absurd trivial h
  | _ => exact haside trivial

theorem Move.perform_traceable (hv : setting.visibility = .proximity radius) {move : Move}
    (hmove : move.SparesControllers) (h : ∀ request, move = .ask request → ¬ request.IsRumour) :
    Follows traceable (move.perform setting) := by
  cases move with
  | ask request => exact request.perform_traceable hv (h request rfl)
  | host change =>
    exact fun s => traceable_of_no_alerts (Move.perform_informing hv hmove s)
      (by simp [Move.perform])

namespace Course

/-- As long as something holds it goes on holding, and only events of one kind are told. -/
def whilst (I : State → Prop) (p : Event → Prop) : Course := fun s events s' =>
  I s → I s' ∧ ∀ e ∈ events, p e

theorem whilst_closed (I : State → Prop) (p : Event → Prop) : (whilst I p).Closed where
  refl _ h := ⟨h, by simp⟩
  trans h h' hs := by
    obtain ⟨hs', hevents⟩ := h hs
    obtain ⟨hs'', hevents'⟩ := h' hs'
    refine ⟨hs'', fun e he => ?_⟩
    rcases List.mem_append.mp he with he | he
    · exact hevents e he
    · exact hevents' e he

end Course

def World.IsUp (w : World) (x : Entity) : Prop :=
  ∃ c, w.controller? x = some c ∧ c.state.isAwake = true

/-- Not at home, if it is an actor. -/
def World.IsOut (w : World) (x : Entity) : Prop :=
  ∀ c, w.controller? x = some c → c.state ≠ .idle

theorem World.IsUp.isOut {w : World} (h : w.IsUp x) : w.IsOut x := by
  obtain ⟨c, hc, hawake⟩ := h
  intro c' hc'
  obtain rfl := Option.some.inj (hc.symm.trans hc')
  intro hidle
  rw [hidle] at hawake
  cases hawake

namespace Engine

section Thoughts

variable {c own : Controller} {enemy : Entity} {allies : List Entity}
  (h : Thought setting s actor c own enemy allies events s')
include h

theorem Thought.isUp_of_mem (hally : x ∈ allies) : s'.world.IsUp x := by
  obtain ⟨c', hc', hengaged, -⟩ := h.engaged x hally
  exact ⟨c', hc', by rw [hengaged]; rfl⟩

theorem Thought.isUp_of_called (hcalled : allies ≠ []) : s'.world.IsUp actor :=
  ⟨own, h.stored, by rw [(h.called hcalled).2]; rfl⟩

/-- Whoever is up is woken by nobody, and stays up while others think. -/
theorem Thought.isUp (hx : x ≠ actor) (hup : s.world.IsUp x) : x ∉ allies ∧ s'.world.IsUp x := by
  obtain ⟨c', hc', hawake⟩ := hup
  have hdeaf : x ∉ allies := by
    intro hally
    obtain ⟨c'', hc'', hasleep⟩ := h.asleep x hally
    obtain rfl := Option.some.inj (hc'.symm.trans hc'')
    rw [hawake] at hasleep
    cases hasleep
  exact ⟨hdeaf, c', (h.others x hx hdeaf).trans hc', hawake⟩

theorem Thought.isOut (hc : s.world.controller? actor = some c) (hout : s.world.IsOut x) :
    s'.world.IsOut x := by
  by_cases hx : x = actor
  · subst hx
    intro c' hc'
    obtain rfl := Option.some.inj (h.stored.symm.trans hc')
    exact h.resolves.state_ne_idle (hout c hc)
  · by_cases hally : x ∈ allies
    · exact (h.isUp_of_mem hally).isOut
    · intro c' hc'
      exact hout c' ((h.others x hx hally).symm.trans hc')

end Thoughts

theorem think_wakes_nobody_up (hv : setting.visibility = .proximity radius) (hx : x ≠ actor) :
    Follows (whilst (·.world.IsUp x) (¬ ·.wakes x)) (think setting actor) := by
  intro s hup
  cases hc : s.world.controller? actor with
  | none =>
    obtain ⟨refusal, hrefused⟩ := think_of_no_controller setting hc
    rw [hrefused]
    exact ⟨hup, by simp⟩
  | some c =>
    obtain ⟨own, enemy, allies, hthought⟩ := think_thought hv hc
    obtain ⟨hdeaf, hup'⟩ := hthought.isUp hx hup
    refine ⟨hup', fun e he hwakes => ?_⟩
    cases e with
    | allyAlerted caller ally target =>
      obtain rfl : ally = x := hwakes
      exact hdeaf (hthought.alert_mem he).2
    | _ => exact hwakes

theorem think_hears_nobody_out (hv : setting.visibility = .proximity radius) (actor : Entity) :
    Follows (whilst (·.world.IsOut x) (¬ ·.isCryOf x)) (think setting actor) := by
  intro s hout
  cases hc : s.world.controller? actor with
  | none =>
    obtain ⟨refusal, hrefused⟩ := think_of_no_controller setting hc
    rw [hrefused]
    exact ⟨hout, by simp⟩
  | some c =>
    obtain ⟨own, enemy, allies, hthought⟩ := think_thought hv hc
    refine ⟨hthought.isOut hc hout, fun e he hcry => ?_⟩
    cases e with
    | allyAlerted caller ally target =>
      obtain rfl : caller = x := hcry
      obtain ⟨rfl, hally⟩ := hthought.alert_mem he
      exact hout c hc (hthought.called (List.ne_nil_of_mem hally)).1
    | _ => exact hcry

/-- Of actors that think one after the other, each once, nobody is both woken and calls. -/
theorem thinks_one_hop (hv : setting.visibility = .proximity radius) {due : List Entity}
    (hnodup : due.Nodup) (s : State) :
    let thought := forEach (fun actor => regardless (think setting actor)) due s
    ∀ caller x enemy ally target, .allyAlerted caller x enemy ∈ thought.events →
      .allyAlerted x ally target ∉ thought.events := by
  induction due generalizing s with
  | nil => simp [forEach, Action.pure]
  | cons actor due ih =>
    intro thought caller x enemy ally target hwoken hcries
    obtain ⟨hnew, hnodup⟩ := List.nodup_cons.mp hnodup
    let first := think setting actor s
    let rest := forEach (fun actor => regardless (think setting actor)) due first.state
    have hevents : thought.events = first.events ++ rest.events := by
      show (forEach _ (actor :: due) s).events = _
      exact congrArg Outcome.events (bind_of_ok (a := ()) rfl)
    rw [hevents, List.mem_append] at hwoken hcries
    cases hc : s.world.controller? actor with
    | none =>
      obtain ⟨refusal, hrefused⟩ := think_of_no_controller setting hc
      have hsilent : first.events = [] := by rw [show first = _ from hrefused]
      exact ih hnodup first.state caller x enemy ally target
        (hwoken.resolve_left (by simp [hsilent])) (hcries.resolve_left (by simp [hsilent]))
    | some c =>
      obtain ⟨own, foe, allies, hthought⟩ := think_thought hv hc
      rcases hwoken with hwoken | hwoken
      · obtain ⟨rfl, hally⟩ := hthought.alert_mem hwoken
        rcases hcries with hcries | hcries
        · -- the one who thinks is the only caller, and does not wake itself
          obtain ⟨rfl, -⟩ := hthought.alert_mem hcries
          exact hthought.apart hally
        · -- who was woken is out, and so it calls nobody in the thinks that follow
          have hhush : Follows (whilst (·.world.IsOut x) (¬ ·.isCryOf x))
              (forEach (fun actor => regardless (think setting actor)) due) :=
            .forEach (whilst_closed _ _) fun actor _ =>
              .regardless (think_hears_nobody_out hv actor)
          exact (hhush first.state (hthought.isUp_of_mem hally).isOut).2 _ hcries rfl
      · rcases hcries with hcries | hcries
        · -- who has called is up, and does not think again
          obtain ⟨rfl, hally⟩ := hthought.alert_mem hcries
          have hvigil : Follows (whilst (·.world.IsUp x) (¬ ·.wakes x))
              (forEach (fun actor => regardless (think setting actor)) due) :=
            .forEach (whilst_closed _ _) fun actor hactor =>
              .regardless (think_wakes_nobody_up hv fun hx => hnew (hx ▸ hactor))
          have hup := hthought.isUp_of_called (List.ne_nil_of_mem hally)
          exact (hvigil first.state hup).2 _ hwoken rfl
        · exact ih hnodup first.state caller x enemy ally target hwoken hcries

theorem update_one_hop (hv : setting.visibility = .proximity radius) (seconds : Float32)
    (s : State) {caller enemy ally target : Entity}
    (hwoken : .allyAlerted caller x enemy ∈ (update setting seconds s).events) :
    .allyAlerted x ally target ∉ (update setting seconds s).events := by
  have hrun := update_run setting seconds s
  rw [hrun] at hwoken ⊢
  exact thinks_one_hop hv (World.entities_nodup _ |>.filter _) _ caller x enemy ally target hwoken

end Engine

/-- From a world of fresh controllers, as long as nobody but the engine writes controllers and calls
for help, whoever is woken by an alert goes idle before it alerts anyone itself. So nobody who is
woken in an update alerts anyone in that update. -/
theorem playOut_alerts_one_hop (hv : setting.visibility = .proximity radius)
    (hfresh : s.world.AllFresh) {moves : List Move}
    (hmoves : ∀ move ∈ moves, move.SparesControllers)
    (hcalls : ∀ request, .ask request ∈ moves → ¬ request.IsRumour) :
    (∀ before between after caller x enemy ally target,
      (playOut setting moves s).events = before ++ .allyAlerted caller x enemy ::
        (between ++ .allyAlerted x ally target :: after) →
      ∃ state, .stateChanged x state .idle ∈ between) ∧
    ∀ earlier seconds later, moves = earlier ++ .ask (.update seconds) :: later →
      let told := (Engine.update setting seconds (playOut setting earlier s).state).events
      ∀ caller x enemy ally target, .allyAlerted caller x enemy ∈ told →
        .allyAlerted x ally target ∉ told := by
  have hfollows : Follows traceable (playOut setting moves) :=
    .forEach traceable_closed fun move hmove => move.perform_traceable hv (hmoves move hmove)
      fun request hrequest => hcalls request (hrequest ▸ hmove)
  obtain ⟨-, hannounced, htraces⟩ := hfollows s
  constructor
  · intro before between after caller x enemy ally target hsplit
    obtain ⟨earlier, since, hearlier, hidle, hsince⟩ := htraces .initial (faithful_initial hfresh)
      (before ++ .allyAlerted caller x enemy :: between) x ally target after (by simp [hsplit])
    rcases eq_or_eq_of_append_eq hearlier.symm with ⟨rest, rfl⟩ | ⟨start, -, rfl⟩
    · obtain rfl : between = rest ++ since := by simpa using hearlier
      obtain ⟨_, state, rfl⟩ := hannounced before caller x enemy _ hsplit
      rw [Beliefs.hearAll_append, Beliefs.hearAll_cons, Beliefs.hearAll_append] at hidle
      obtain ⟨state, hstate⟩ := Beliefs.exists_idle_of_hearAll (by simp [Beliefs.hear]) hidle
      exact ⟨state, by simp [hstate]⟩
    · exact absurd rfl (hsince (.allyAlerted caller x enemy) (by simp))
  · intro earlier seconds later _ told caller x enemy ally target hwoken
    exact Engine.update_one_hop hv seconds _ hwoken

theorem pursuit_alerts_one_hop :
    (∀ before between after caller x enemy ally target,
      (playOut {} pursuit encounter).events = before ++ .allyAlerted caller x enemy ::
        (between ++ .allyAlerted x ally target :: after) →
      ∃ state, .stateChanged x state .idle ∈ between) ∧
    ∀ earlier seconds later, pursuit = earlier ++ .ask (.update seconds) :: later →
      let told := (Engine.update {} seconds (playOut {} earlier encounter).state).events
      ∀ caller x enemy ally target, .allyAlerted caller x enemy ∈ told →
        .allyAlerted x ally target ∉ told := by
  have hcalls : ∀ request, .ask request ∈ pursuit → ¬ request.IsRumour := by
    simp [pursuit, Request.IsRumour]
  exact playOut_alerts_one_hop rfl encounter_allFresh pursuit_sparesControllers hcalls

end Hostility
