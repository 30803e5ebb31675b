import Hostility.Proofs.Hosting
import Hostility.Proofs.ThinkStages
import Hostility.Simulation.Run

/-!
Operations from their pieces. A course that the primitive changes of the engine follow is followed
by thinks, updates and arrivals, and by every request of a host and every tick once the entry of a
hit in a damage log and what the source of new threat uses up follow it too. A course that passes
over passive sources do not follow is still followed by all requests without such a pass.
-/
namespace Hostility

open Course Hostility.Action

/-- The event is about something else than how a ledger grows, decays or is reset. -/
def Event.LeavesGain : Event → Prop
  | threatIncreased _ _ _ _ | threatDecayed _ _ _ | ledgerReset _ => False
  | _ => True

/-- The event is about something else than threat. -/
def Event.LeavesThreat : Event → Prop
  | threatIncreased _ _ _ _ | threatSkipped _ _ | threatDecayed _ _ _ | ledgerReset _ => False
  | _ => True

theorem Event.LeavesThreat.leavesGain {e : Event} (h : e.LeavesThreat) : e.LeavesGain := by
  cases e <;> trivial

theorem Event.IsNewsOf.leavesThreat {actor : Entity} {e : Event} (h : e.IsNewsOf actor) :
    e.LeavesThreat := by
  cases e <;> trivial

/-- The entity whose threat a request is about to record. -/
def Request.source? : Request → Option Entity
  | .recordDamage _ attacker _ => some attacker
  | .increase _ candidate _ => some candidate
  | _ => none

/-- The course is followed by what new threat takes from its source: its one-shot flags are used up,
and a skip is told. -/
structure Course.Spends (R : Course) (source : Entity) : Prop where
  spend : ∀ spent s, R s [] { s with
    world := s.world.update source fun c => { c with modifiers := some spent } }
  skip : ∀ actor s, R s [.threatSkipped actor source] s

/-- A request in which passive states are filled. -/
def Request.MeetsPassive : Request → Prop
  | .think _ | .update _ | .bias _ _ => True
  | _ => False

/-- The course is closed, and followed by what an actor does for itself without letting anybody into
its ledger: it looks after its ledger, draws, rates its entries and tells of it. -/
structure Course.Routine (R : Course) (setting : Setting) : Prop where
  closed : R.Closed
  drawn : ∀ (s : State) source, R s [] { s with random := source }
  news : ∀ events, (∀ e ∈ events, e.LeavesThreat) → ∀ s, R s events s
  reset : ∀ actor, Follows R (Threat.reset actor)
  prune : ∀ actor, Follows R (Threat.prune actor)
  lower : ∀ actor, Follows R (Threat.lower setting.tuning actor)
  rate : ∀ actor s l candidates source, s.world.ledger? actor = some l → R s [] { s with
    world := s.world.setLedger actor (Selection.byThreat setting.tuning l candidates source).2.1 }

/-- The course is closed, and followed by all that the engine is made of, but for what it does to
passive states, to damage logs and to the sources of new threat. -/
structure Course.CorePieces (R : Course) (setting : Setting) : Prop where
  closed : R.Closed
  elapse : ∀ seconds s, R s [] { s with world := s.world.updateAll (Engine.elapse seconds) }
  note : ∀ (s : State) table, R s [] { s with alerts := table }
  drawn : ∀ (s : State) source, R s [] { s with random := source }
  news : ∀ events, (∀ e ∈ events, e.LeavesThreat) → ∀ s, R s events s
  rewrite : ∀ s actor old c, s.world.controller? actor = some old →
    R s [] { s with world := s.world.setController actor c }
  make : ∀ actor s, s.world.ledger? actor = none →
    R s [] { s with world := s.world.update actor fun c => { c with ledger := some .empty } }
  reset : ∀ actor, Follows R (Threat.reset actor)
  prune : ∀ actor, Follows R (Threat.prune actor)
  lower : ∀ actor, Follows R (Threat.lower setting.tuning actor)
  raise : ∀ actor candidate s l amount, s.world.ledger? actor = some l →
    setting.tuning.minimumThreatGain ≤ amount →
    let raised := l.add candidate amount setting.tuning.threatMinimum
    R s [.threatIncreased actor candidate amount raised.2]
      { s with world := s.world.setLedger actor raised.1 }
  seedAll : ∀ actor s l es, s.world.ledger? actor = some l → R s [] { s with
    world := s.world.setLedger actor (l.seedAll setting.tuning.threatMinimum es).1 }
  seedEnemy : ∀ ally enemy s,
    R s [] { s with world := Alert.seedEnemy setting.tuning s.world ally enemy }
  rate : ∀ actor s l candidates source, s.world.ledger? actor = some l → R s [] { s with
    world := s.world.setLedger actor (Selection.byThreat setting.tuning l candidates source).2.1 }

/-- The course is followed by the passes over passive sources as well. -/
structure Course.Pieces (R : Course) (setting : Setting) : Prop extends R.CorePieces setting where
  setBias : ∀ e b s, R s [] { s with world := s.world.setBias e b }
  bias : ∀ actor s l b candidates, s.world.ledger? actor = some l → R s [] { s with
    world := s.world.setLedger actor (BiasPass.apply setting.tuning l b candidates).2.1 }

variable {R : Course} {setting : Setting}

namespace Course.Routine

variable (h : R.Routine setting)
include h

theorem newsOf (actor : Entity) {events : List Event} (hevents : ∀ e ∈ events, e.IsNewsOf actor) :
    Follows R (publish events) :=
  h.news events fun e he => (hevents e he).leavesThreat

theorem decay (actor : Entity) : Follows R (Threat.decay setting.tuning actor) := by
  rw [Threat.decay_eq]
  exact .bind h.closed (h.prune actor) fun _ => h.lower actor

theorem upkeep (actor : Entity) : Follows R (Engine.upkeep setting.tuning actor) := by
  intro s
  refine h.closed.controllerOf_bind fun c _ => ?_
  refine Follows.bind h.closed (.whenever h.closed (h.reset actor) _) (fun _ => ?_) s
  refine .bind h.closed (.whenever h.closed ?_ _) fun _ => .pure h.closed _
  exact .bind h.closed (h.decay actor) fun _ => .pure h.closed _

theorem selectOnce (actor : Entity) (c : Controller) (candidates : List Candidate) :
    Follows R (Engine.selectOnce setting actor c candidates) := by
  refine .world_bind fun s => ?_
  split
  · exact h.drawn s _
  · cases hl : s.world.ledger? actor with
    | none => exact h.closed.refl s
    | some l =>
      let source := (Selection.byThreat setting.tuning l candidates s.random).2.2
      exact h.closed.trans (h.drawn s source)
        (h.rate actor { s with random := source } l candidates s.random hl)

theorem attempt (actor : Entity) (perception : Nat) (target : Entity) (crowd : Nat) :
    Follows R (Deception.attempt setting actor perception target crowd) := by
  refine .world_bind fun s => ?_
  cases Deception.attempter? s.world target crowd with
  | none => exact h.closed.refl s
  | some hidden =>
    let chance := Deception.chance setting.evaluator setting.tuning perception hidden crowd
    exact h.closed.trans (h.drawn s s.random.unit.2) (h.news
      [.deceptionAttempted actor target chance (decide (s.random.unit.1 < chance))]
      (by simp [Event.LeavesThreat]) _)

theorem selectUndeceived (actor : Entity) (c : Controller) (tries : Nat)
    (candidates : List Candidate) :
    Follows R (Engine.selectUndeceived setting actor c tries candidates) :=
  Engine.selectUndeceived_follows h.closed (h.selectOnce actor c)
    (h.attempt actor c.profile.perception) tries candidates

end Course.Routine

namespace Course.CorePieces

variable (h : R.CorePieces setting)
include h

theorem routine : R.Routine setting where
  closed := h.closed
  drawn := h.drawn
  news := h.news
  reset := h.reset
  prune := h.prune
  lower := h.lower
  rate := h.rate

theorem storeController (actor : Entity) (c : Controller) :
    Follows R (Action.storeController actor c) := by
  intro s
  unfold Action.storeController
  cases hc : s.world.controller? actor with
  | some old => exact h.rewrite s actor old c hc
  | none => exact h.closed.refl s

theorem ensureLedger (actor : Entity) : Follows R (Threat.ensureLedger actor) :=
  Threat.ensureLedger_follows h.closed (h.make actor)

theorem seedCandidates (actor : Entity) (candidates : List Candidate) :
    Follows R (Threat.seedCandidates setting.tuning actor candidates) :=
  Threat.seedCandidates_follows h.closed (h.ensureLedger actor) (h.seedAll actor) candidates

theorem increase {candidate : Entity} (hspends : R.Spends candidate) (actor : Entity)
    (base : Int64) : Follows R (Threat.increase setting.tuning actor candidate base) :=
  Threat.increase_follows h.closed
    (Threat.modifiedAmount_follows h.closed (fun s spent => hspends.spend spent s) base)
    (h.ensureLedger actor) (hspends.skip actor) (h.raise actor candidate)

theorem wake (caller enemy : Entity) (retaliates : Bool) (ally : Entity) :
    Follows R (Alert.wake setting.tuning caller enemy retaliates ally) := by
  refine .world_bind fun s => ?_
  cases hc : s.world.controller? ally with
  | none => exact h.news [.allyAlerted caller ally enemy] (by simp [Event.LeavesThreat]) s
  | some c =>
    let own := Alert.pointAt c enemy (Alert.sharesFaction s.world ally enemy && retaliates)
    let pointed : State := { s with world := s.world.setController ally own }
    have hpointed : R s [] pointed := h.rewrite s ally c _ hc
    have htold : ∀ s', R s' [.stateChanged ally c.state .engaged, .allyAlerted caller ally enemy]
        s' := h.news _ (by simp [Event.LeavesThreat])
    refine h.closed.trans hpointed ?_
    show R pointed _ { pointed with world := if _ then _ else pointed.world }
    split
    · exact h.closed.trans (h.seedEnemy ally enemy pointed) (htold _)
    · exact htold pointed

theorem propagate (caller enemy : Entity) : Follows R (Alert.propagate setting caller enemy) := by
  apply Alert.propagate_follows h.closed h.note
  intro retaliates own s
  exact Follows.forEach h.closed (fun ally _ => h.wake caller enemy _ ally) s

theorem giveUp (actor : Entity) (c : Controller) : Follows R (Engine.giveUp actor c) := by
  refine .bind h.closed (h.routine.newsOf actor (c.disengage_news actor)) fun _ => ?_
  exact .bind h.closed (h.storeController actor _) fun _ => .pure h.closed _

theorem arriveHome (actor : Entity) : Follows R (Engine.arriveHome actor) := by
  intro s
  refine h.closed.controllerOf_bind fun c _ => ?_
  have hnews : Follows R (publish (({ c with target := none } : Controller).transition actor
      .idle).2) := h.routine.newsOf actor (Controller.transition_news _ actor .idle)
  refine Follows.bind h.closed hnews (fun _ => ?_) s
  exact .bind h.closed (h.storeController actor _) fun _ => h.reset actor

theorem recordDamage {actor : Entity}
    (hlog : ∀ hit s, R s [] { s with world := s.world.update actor fun c =>
      { c with damageLog := some ((c.damageLog.getD default).record hit) } })
    {attacker : Entity} (hspends : R.Spends attacker) (amount : Int64) :
    Follows R (Engine.recordDamage setting.tuning actor attacker amount) :=
  Engine.recordDamage_follows h.closed hlog (fun s c hc => h.rewrite s actor c _ hc)
    (h.increase hspends actor amount)

theorem perform
    (hlog : ∀ actor hit s, R s [] { s with world := s.world.update actor fun c =>
      { c with damageLog := some ((c.damageLog.getD default).record hit) } })
    {request : Request} (hspends : ∀ source, request.source? = some source → R.Spends source)
    (hmeets : ¬ request.MeetsPassive) : Follows R (request.perform setting) := by
  cases request with
  | think actor => exact (hmeets trivial).elim
  | update seconds => exact (hmeets trivial).elim
  | bias actor candidates => exact (hmeets trivial).elim
  | recordDamage actor attacker amount =>
    exact .regardless (h.recordDamage (hlog actor) (hspends attacker rfl) amount)
  | arriveHome actor => exact .regardless (h.arriveHome actor)
  | increase actor candidate base =>
    exact .regardless (h.increase (hspends candidate rfl) actor base)
  | seedCandidates actor candidates => exact .regardless (h.seedCandidates actor candidates)
  | decay actor => exact .regardless (h.routine.decay actor)
  | prune actor => exact .regardless (h.prune actor)
  | reset actor => exact .regardless (h.reset actor)
  | propagate caller enemy => exact .regardless (h.propagate caller enemy)
  | expire => exact fun s => h.note s _

end Course.CorePieces

namespace Course.Pieces

variable (h : R.Pieces setting)
include h

theorem ensureBias (actor : Entity) : Follows R (Threat.ensureBias actor) := by
  refine .world_bind fun s => ?_
  split
  · exact h.closed.refl s
  · exact Follows.insert h.closed (h.setBias actor ∅) s

theorem biasPass (actor : Entity) (candidates : List Candidate) :
    Follows R (Engine.biasPass setting.tuning actor candidates) := by
  refine .world_bind fun s => ?_
  cases hl : s.world.ledger? actor with
  | none => exact h.closed.refl s
  | some l =>
    cases s.world.bias? actor with
    | none => exact h.closed.refl s
    | some b =>
      let biased := (BiasPass.apply setting.tuning l b candidates).2.2
      exact h.closed.trans (h.bias actor s l b candidates hl) (h.setBias actor biased _)

theorem recordStreaks (actor : Entity) (chosen : Option Entity) :
    Follows R (Engine.recordStreaks actor chosen) := by
  refine .world_bind fun s => ?_
  cases s.world.bias? actor with
  | none => exact h.closed.refl s
  | some b => exact h.setBias actor (b.recordSelection chosen) s

theorem choose (actor : Entity) (c : Controller) (candidates : List Candidate) :
    Follows R (Engine.choose setting actor c candidates) := by
  have hprepare : Follows R (Engine.prepare setting.tuning actor candidates) :=
    .bind h.closed (h.seedCandidates actor candidates) fun _ =>
      .bind h.closed (h.ensureBias actor) fun _ => h.biasPass actor candidates
  refine .bind h.closed (.whenever h.closed hprepare _) fun _ => ?_
  refine .bind h.closed (h.routine.selectUndeceived actor c _ candidates) fun choice => ?_
  exact .bind h.closed (.whenever h.closed (h.recordStreaks actor _) _) fun _ => .pure h.closed _

theorem thinkAmong (actor : Entity) (wokeFrom : Awareness) (c : Controller)
    (candidates : List Candidate) :
    Follows R (Engine.thinkAmong setting actor wokeFrom c candidates) := by
  refine .bind h.closed (h.routine.newsOf actor (c.rouse_news actor)) fun _ => ?_
  refine .bind h.closed (h.choose actor _ candidates) fun choice => ?_
  refine .bind h.closed (h.routine.newsOf actor (Engine.settle_news _ actor choice)) fun _ => ?_
  refine .bind h.closed (h.storeController actor _) fun _ => ?_
  exact .bind h.closed (Engine.alarm_follows h.closed wokeFrom (h.propagate actor) _)
    fun _ => .pure h.closed _

theorem think (actor : Entity) : Follows R (Engine.think setting actor) := by
  refine .bind h.closed (h.routine.upkeep actor) fun c => .world_bind fun s => ?_
  cases (Engine.found setting s.world actor c.noteMode.markThought).isEmpty with
  | true => exact h.giveUp actor _ s
  | false => exact h.thinkAmong actor _ _ _ s

theorem update (seconds : Float32) : Follows R (Engine.update setting seconds) :=
  Engine.update_follows h.closed seconds (h.elapse seconds) h.note h.think

theorem perform
    (hlog : ∀ actor hit s, R s [] { s with world := s.world.update actor fun c =>
      { c with damageLog := some ((c.damageLog.getD default).record hit) } })
    {request : Request} (hspends : ∀ source, request.source? = some source → R.Spends source) :
    Follows R (request.perform setting) := by
  by_cases hmeets : request.MeetsPassive
  · cases request with
    | think actor => exact .regardless (h.think actor)
    | update seconds => exact .regardless (h.update seconds)
    | bias actor candidates => exact .regardless (h.biasPass actor candidates)
    | _ => exact hmeets.elim
  · exact h.toCorePieces.perform hlog hspends hmeets

end Course.Pieces

namespace Simulation

theorem land_follows {h : PlannedHit}
    (hhit : Follows R (Engine.recordDamage setting.tuning h.victim h.attacker h.amount)) :
    Follows R (land setting.tuning h) := by
  intro s
  have hrun := hhit s
  unfold land tolerating
  revert hrun
  rcases Engine.recordDamage setting.tuning h.victim h.attacker h.amount s with ⟨_ | _, s', events⟩
  · intro hrun
    dsimp only
    split
    · exact hrun
    · exact hrun
  · exact id

theorem comeHome_follows (h : R.Pieces setting) (actor : Entity) : Follows R (comeHome actor) := by
  refine .world_bind fun s => ?_
  cases s.world.controller? actor with
  | none => exact h.closed.refl s
  | some c => exact Follows.whenever h.closed (h.arriveHome actor) _ s

/-- The engine's part of a tick is made of the same pieces as everything else. -/
theorem play?_follows (h : R.Pieces setting)
    (hlog : ∀ actor hit s, R s [] { s with world := s.world.update actor fun c =>
      { c with damageLog := some ((c.damageLog.getD default).record hit) } })
    (hspends : ∀ source, R.Spends source) (hits : List PlannedHit) (actors : List Entity)
    (seconds : Float32) : Follows R (play? setting hits actors seconds).run := by
  have hland (hit : PlannedHit) : Follows R (land setting.tuning hit) :=
    land_follows (h.recordDamage (hlog hit.victim) (hspends hit.attacker) hit.amount)
  have henacted : Follows R (enact setting.tuning hits actors) :=
    .bind h.closed (.forEach h.closed fun hit _ => hland hit) fun _ =>
      .forEach h.closed fun actor _ => comeHome_follows h actor
  rw [play?_run]
  refine .bind h.closed henacted fun _ s => ?_
  cases hcooldown : setting.tuning.alertCooldown? with
  | none =>
    rw [Engine.update?_of_none hcooldown]
    exact h.elapse seconds s
  | some cooldown =>
    rw [Engine.update?_eq hcooldown, lift_run]
    exact h.update seconds s

end Simulation

namespace Course

/-- The clock stands still. -/
def timeless : Course := fun s _ s' => s'.now = s.now

theorem timeless_closed : timeless.Closed where
  refl _ := rfl
  trans h h' := Eq.trans h' h

/-- No time passes while the engine is at work. -/
theorem timeless_pieces (setting : Setting) : timeless.Pieces setting where
  closed := timeless_closed
  elapse _ _ := rfl
  note _ _ := rfl
  drawn _ _ := rfl
  news _ _ _ := rfl
  setBias _ _ _ := rfl
  rewrite _ _ _ _ _ := rfl
  make _ _ _ := rfl
  reset actor s := (Threat.reset_tended actor s).now
  prune actor s := (Threat.prune_tended actor s).now
  lower actor s := (Threat.lower_tended setting.tuning actor s).now
  raise _ _ _ _ _ _ _ := rfl
  seedAll _ _ _ _ _ := rfl
  seedEnemy _ _ _ := rfl
  bias _ _ _ _ _ _ := rfl
  rate _ _ _ _ _ _ := rfl

theorem timeless_spends (source : Entity) : timeless.Spends source where
  spend _ _ := rfl
  skip _ _ := rfl

end Course

end Hostility
