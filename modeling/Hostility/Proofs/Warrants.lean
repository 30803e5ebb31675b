import Hostility.Proofs.KeptTarget
import Hostility.Proofs.Provocations
import Hostility.Proofs.ThinkLedger

/-!
Operations from their pieces, each with what the engine makes sure of before it. By itself it makes
a ledger only for an actor that goes by threat, and lets into one only somebody who is in the world
and whose name is not reserved. A host may hand a ledger to anybody, and name anybody to an actor.
What warrants a piece depends on names, on profiles and on who is in the world, and none of these
changes in the course of a request.
-/
namespace Hostility

open Course Hostility.Action

variable {R : Course} {setting : Setting} {t : Tuning} {request : Request}
  {actor caller enemy source ally e : Entity} {c : Controller} {candidates : List Candidate}
  {s s' : State} {w w' w'' : World} {events : List Event} {f : Components → Components}

def World.profile? (w : World) (e : Entity) : Option Profile := (w.controller? e).map (·.profile)

/-- Everybody keeps its nature and, being an actor, its profile. -/
structure World.Steady (w w' : World) : Prop where
  nature : w.SameNature w'
  profile? : ∀ e, w'.profile? e = w.profile? e

namespace World.Steady

theorem refl (w : World) : w.Steady w := ⟨.refl w, fun _ => rfl⟩

theorem trans (h : w.Steady w') (h' : w'.Steady w'') : w.Steady w'' where
  nature := h.nature.trans h'.nature
  profile? e := (h'.profile? e).trans (h.profile? e)

/-- A change of other parts than the controller. -/
theorem update_other (hnature : ∀ c, (f c).nature = c.nature)
    (hcontroller : ∀ c, (f c).controller = c.controller) (w : World) (e : Entity) :
    w.Steady (w.update e f) where
  nature := .update hnature w e
  profile? k := congrArg (Option.map _) (bind_get?_update hcontroller w e k)

theorem setController {old : Controller} (hc : w.controller? e = some old)
    (hprofile : c.profile = old.profile) : w.Steady (w.setController e c) where
  nature := .update (by intro _; rfl) w e
  profile? k := by
    rw [World.profile?, World.profile?, controller?_setController (contains_of_bind hc)]
    split
    · next hk => rw [hk, hc, Option.map_some, Option.map_some, hprofile]
    · rfl

theorem elapse (w : World) (seconds : Float32) :
    w.Steady (w.updateAll (Engine.elapse seconds)) where
  nature := .updateAll (by intro _; rfl) w
  profile? e := by
    rw [World.profile?, controller?_elapse, World.profile?, Option.map_map]
    rfl

end World.Steady

theorem World.SameButThreat.steady (h : w.SameButThreat actor w') : w.Steady w' where
  nature := h.sameNature
  profile? e := congrArg (Option.map _) (h.controller?_eq e)

/-- The entity is an actor that goes by threat. -/
def World.GoesByThreat (w : World) (actor : Entity) : Prop :=
  ∃ p, w.profile? actor = some p ∧ p.legacyMode = false

theorem World.GoesByThreat.steady (h : w.GoesByThreat actor) (hsteady : w.Steady w') :
    w'.GoesByThreat actor := by
  obtain ⟨p, hp, hmode⟩ := h
  exact ⟨p, (hsteady.profile? actor).trans hp, hmode⟩

theorem World.Steady.notes_eq (h : w.Steady w') (t : Tuning) (actor source : Entity) :
    w'.notes t actor source = w.notes t actor source := by
  have hprofile := h.profile? actor
  unfold World.profile? at hprofile
  cases hc : w.controller? actor with
  | none =>
    rw [hc] at hprofile
    rw [World.notes, World.notes, hc, Option.map_eq_none_iff.mp hprofile]
  | some c =>
    rw [hc] at hprofile
    obtain ⟨c', hc', hsame⟩ := Option.map_eq_some_iff.mp hprofile
    exact World.notes_congr hc hc' hsame h.nature t source

theorem World.goesByThreat_of_notes (h : w.notes t actor source = true) :
    w.GoesByThreat actor := by
  cases hc : w.controller? actor with
  | none => simp [World.notes, hc] at h
  | some c =>
    rw [World.notes_of_controller hc] at h
    simp only [Bool.and_eq_true, Bool.not_eq_true'] at h
    exact ⟨c.profile, by rw [World.profile?, hc, Option.map_some], h.1.1⟩

@[simp] theorem Alert.profile_pointAt (c : Controller) (enemy : Entity) (strikesOwn : Bool) :
    (pointAt c enemy strikesOwn).profile = c.profile := by
  unfold pointAt
  dsimp only
  split <;> rfl

/-- The request hands an actor a ledger outright. -/
def Request.SeedsOutright (actor : Entity) : Request → Prop
  | .seedCandidates a _ => a = actor
  | _ => False

/-- In the request the host names somebody to an actor. -/
def Request.Names (actor e : Entity) : Request → Prop
  | .seedCandidates a candidates => a = actor ∧ ∃ k ∈ candidates, k.entity = e
  | .propagate _ enemy => enemy = e
  | _ => False

/-- A ledger may be made for the actor in the course of a request. -/
def World.Affords (w : World) (request : Request) (actor : Entity) : Prop :=
  w.GoesByThreat actor ∨ request.SeedsOutright actor

/-- An actor may track somebody whose name is not reserved: one that is in the world, or one that
the request names to it. -/
structure World.Welcomes (w : World) (t : Tuning) (request : Request) (actor e : Entity) :
    Prop where
  unreserved : Threat.isReserved t w e = false
  known : w.contains e = true ∨ request.Names actor e

theorem World.Affords.steady (h : w.Affords request actor) (hsteady : w.Steady w') :
    w'.Affords request actor :=
  h.imp_left fun hthreat => hthreat.steady hsteady

/-- The course is closed, and followed by each piece of a request where its warrant holds. -/
structure Course.Warranted (R : Course) (setting : Setting) (request : Request) : Prop
    extends R.Routine setting where
  elapse : ∀ seconds s, R s [] { s with world := s.world.updateAll (Engine.elapse seconds) }
  note : ∀ (s : State) table, R s [] { s with alerts := table }
  rewrite : ∀ s actor old c, s.world.controller? actor = some old → c.profile = old.profile →
    R s [] { s with world := s.world.setController actor c }
  log : ∀ actor hit s, R s [] { s with world := s.world.update actor fun c =>
    { c with damageLog := some ((c.damageLog.getD default).record hit) } }
  make : ∀ actor s, s.world.Affords request actor → s.world.ledger? actor = none →
    R s [] { s with world := s.world.update actor fun c => { c with ledger := some .empty } }
  seedAll : ∀ actor s l es, s.world.ledger? actor = some l →
    (∀ e ∈ es, s.world.Welcomes setting.tuning request actor e) → R s [] { s with
      world := s.world.setLedger actor (l.seedAll setting.tuning.threatMinimum es).1 }
  seedEnemy : ∀ ally enemy s, s.world.GoesByThreat ally →
    s.world.Welcomes setting.tuning request ally enemy →
    R s [] { s with world := Alert.seedEnemy setting.tuning s.world ally enemy }
  spend : ∀ actor source spent s, s.world.notes setting.tuning actor source = true →
    R s [] { s with world := s.world.update source fun c => { c with modifiers := some spent } }
  skip : ∀ actor source s, s.world.notes setting.tuning actor source = true →
    R s [.threatSkipped actor source] s
  raise : ∀ actor source s l amount, s.world.notes setting.tuning actor source = true →
    s.world.ledger? actor = some l →
    let raised := l.add source amount setting.tuning.threatMinimum
    R s [.threatIncreased actor source amount raised.2]
      { s with world := s.world.setLedger actor raised.1 }
  makeBias : ∀ actor s, s.world.GoesByThreat actor →
    R s [] { s with world := s.world.setBias actor ∅ }
  pass : ∀ actor s l b candidates, s.world.ledger? actor = some l → s.world.bias? actor = some b →
    let passed := BiasPass.apply setting.tuning l b candidates
    R s [] { s with world := (s.world.setLedger actor passed.2.1).setBias actor passed.2.2 }
  streaks : ∀ actor s b chosen, s.world.bias? actor = some b →
    R s [] { s with world := s.world.setBias actor (b.recordSelection chosen) }

namespace Course

/-- The course as far as it leads through worlds like the given one. -/
def since (w : World) (R : Course) : Course := fun s events s' =>
  w.Steady s.world → R s events s' ∧ w.Steady s'.world

theorem Closed.since (h : R.Closed) (w : World) : (R.since w).Closed where
  refl s hs := ⟨h.refl s, hs⟩
  trans h₁ h₂ hs := by
    obtain ⟨hfirst, hmiddle⟩ := h₁ hs
    obtain ⟨hsecond, hend⟩ := h₂ hmiddle
    exact ⟨h.trans hfirst hsecond, hend⟩

theorem since_of_steady (hsteady : s.world.Steady s'.world)
    (h : w.Steady s.world → R s events s') : R.since w s events s' :=
  fun hs => ⟨h hs, hs.trans hsteady⟩

theorem since_setWorld (hsteady : s.world.Steady w')
    (h : w.Steady s.world → R s events { s with world := w' }) :
    R.since w s events { s with world := w' } := since_of_steady hsteady h

theorem Routine.since (h : R.Routine setting) (w : World) : (R.since w).Routine setting where
  closed := h.closed.since w
  drawn s source := since_of_steady (.refl s.world) fun _ => h.drawn s source
  news events hevents s := since_of_steady (.refl s.world) fun _ => h.news events hevents s
  reset actor s :=
    since_of_steady (Threat.reset_tended actor s).world.steady fun _ => h.reset actor s
  prune actor s :=
    since_of_steady (Threat.prune_tended actor s).world.steady fun _ => h.prune actor s
  lower actor s :=
    since_of_steady (Threat.lower_tended _ actor s).world.steady fun _ => h.lower actor s
  rate actor s l candidates source hl :=
    since_setWorld (World.SameButThreat.setLedger _).steady fun _ =>
      h.rate actor s l candidates source hl

end Course

/-- What an action does from every world, it does from the world that it starts in. -/
theorem Action.Follows.of_since {α : Type} {m : Action α}
    (h : ∀ w, Follows (R.since w) m) : Follows R m :=
  fun s => (h s.world s (.refl s.world)).1

namespace Course.Warranted

variable (h : R.Warranted setting request)
include h

theorem storeController (hprofile : w.profile? actor = some c.profile) :
    Follows (R.since w) (Action.storeController actor c) := by
  intro s hs
  unfold Action.storeController
  cases hold : s.world.controller? actor with
  | none => exact (h.closed.since w).refl s hs
  | some old =>
    have hsame : c.profile = old.profile := by
      have hkept := (hs.profile? actor).trans hprofile
      rw [World.profile?, hold] at hkept
      exact (Option.some.inj hkept).symm
    exact ⟨h.rewrite s actor old c hold hsame, hs.trans (.setController hold hsame)⟩

theorem ensureLedger (hactor : w.Affords request actor) :
    Follows (R.since w) (Threat.ensureLedger actor) :=
  Threat.ensureLedger_follows (h.closed.since w) fun s hnone =>
    since_setWorld (.update_other (by intro _; rfl) (by intro _; rfl) s.world actor) fun hs =>
      h.make actor s (hactor.steady hs) hnone

theorem seedCandidates (hactor : w.Affords request actor)
    (hknown : ∀ k ∈ candidates, w.contains k.entity = true ∨ request.Names actor k.entity) :
    Follows (R.since w) (Threat.seedCandidates setting.tuning actor candidates) := by
  have hclosed := h.closed.since w
  refine .world_bind fun s hs => ?_
  refine hclosed.bind (h.ensureLedger hactor s) (fun _ _ => ?_) hs
  refine hclosed.ledgerOf_bind fun l hl => ?_
  refine since_setWorld (World.SameButThreat.setLedger _).steady fun hensured => ?_
  refine h.seedAll actor _ l _ hl fun e he => ?_
  obtain ⟨⟨k, hk, rfl⟩, hname⟩ := Threat.mem_seedable.mp he
  refine ⟨?_, (hknown k hk).imp_left fun hpresent => ?_⟩
  · rw [hensured.nature.isReserved_eq, ← hs.nature.isReserved_eq]
    exact hname
  · exact (hensured.nature.contains_eq k.entity).trans hpresent

theorem increase (actor source : Entity) (base : Int64) :
    Follows R (Threat.increase setting.tuning actor source base) := by
  intro s
  cases hnotes : s.world.notes setting.tuning actor source with
  | false =>
    obtain ⟨result, hrun, -⟩ := Threat.increase_of_not_noted hnotes base
    rw [hrun]
    exact h.closed.refl s
  | true =>
    have hnoted {s' : State} (hs : s.world.Steady s'.world) :
        s'.world.notes setting.tuning actor source = true := (hs.notes_eq ..).trans hnotes
    have hruns : Follows (R.since s.world) (Threat.increase setting.tuning actor source base) := by
      refine Threat.increase_follows (h.closed.since _) (Threat.modifiedAmount_follows
        (h.closed.since _) (fun s' spent => ?_) base)
        (h.ensureLedger (.inl (World.goesByThreat_of_notes hnotes))) (fun s' => ?_)
        fun s' l amount hl _ => ?_
      · exact since_setWorld (.update_other (by intro _; rfl) (by intro _; rfl) s'.world source)
          fun hs => h.spend actor source spent s' (hnoted hs)
      · exact since_of_steady (.refl s'.world) fun hs => h.skip actor source s' (hnoted hs)
      · exact since_setWorld (World.SameButThreat.setLedger _).steady fun hs =>
          h.raise actor source s' l amount (hnoted hs) hl
    exact (hruns s (.refl s.world)).1

theorem ensureBias (hactor : w.GoesByThreat actor) :
    Follows (R.since w) (Threat.ensureBias actor) := by
  refine .world_bind fun s => ?_
  split
  · exact (h.closed.since w).refl s
  · exact Follows.insert (h.closed.since w) (fun s =>
      since_setWorld (World.SameButThreat.setBias ∅).steady fun hs =>
        h.makeBias actor s (hactor.steady hs)) s

theorem biasPass (actor : Entity) (candidates : List Candidate) :
    Follows R (Engine.biasPass setting.tuning actor candidates) := by
  refine .world_bind fun s => ?_
  cases hl : s.world.ledger? actor with
  | none => exact h.closed.refl s
  | some l =>
    cases hb : s.world.bias? actor with
    | none => exact h.closed.refl s
    | some b => exact h.pass actor s l b candidates hl hb

theorem recordStreaks (actor : Entity) (chosen : Option Entity) :
    Follows R (Engine.recordStreaks actor chosen) := by
  refine .world_bind fun s => ?_
  cases hb : s.world.bias? actor with
  | none => exact h.closed.refl s
  | some b => exact h.streaks actor s b chosen hb

/-- An ally tracks the enemy if it goes by threat and the name of the enemy is not reserved. -/
theorem wake (hknown : w.contains enemy = true ∨ request.Names ally enemy) (caller : Entity)
    (retaliates : Bool) :
    Follows (R.since w) (Alert.wake setting.tuning caller enemy retaliates ally) := by
  have hclosed := h.closed.since w
  have hroutine := h.toRoutine.since w
  refine .world_bind fun s => ?_
  cases hc : s.world.controller? ally with
  | none => exact hroutine.news [.allyAlerted caller ally enemy] (by simp [Event.LeavesThreat]) s
  | some c =>
    let own := Alert.pointAt c enemy (Alert.sharesFaction s.world ally enemy && retaliates)
    let pointed : State := { s with world := s.world.setController ally own }
    have hprofile : own.profile = c.profile := Alert.profile_pointAt c enemy _
    have hsteady : s.world.Steady pointed.world := .setController hc hprofile
    have hpointed : R.since w s [] pointed :=
      since_of_steady hsteady fun _ => h.rewrite s ally c own hc hprofile
    have htold : ∀ s', R.since w s'
        [.stateChanged ally c.state .engaged, .allyAlerted caller ally enemy] s' :=
      hroutine.news _ (by simp [Event.LeavesThreat])
    refine hclosed.trans hpointed ?_
    show R.since w pointed _ { pointed with world := if _ then _ else pointed.world }
    split
    · next hkeeps =>
      simp only [Bool.and_eq_true, Bool.not_eq_true'] at hkeeps
      obtain ⟨hmode, hname⟩ := hkeeps
      have hthreat : pointed.world.GoesByThreat ally :=
        ⟨c.profile, (hsteady.profile? ally).trans (by rw [World.profile?, hc, Option.map_some]),
          hmode⟩
      refine hclosed.trans (since_setWorld (World.SameButThreat.update (by intro _; rfl)).steady
        fun hs => h.seedEnemy ally enemy pointed hthreat ⟨hname, ?_⟩) (htold _)
      exact hknown.imp_left (hs.nature.contains_eq enemy).trans
    · exact htold pointed

theorem propagate (hknown : ∀ ally, w.contains enemy = true ∨ request.Names ally enemy)
    (caller : Entity) : Follows (R.since w) (Alert.propagate setting caller enemy) := by
  have hclosed := h.closed.since w
  apply Alert.propagate_follows hclosed
  · exact fun s table => since_of_steady (.refl s.world) fun _ => h.note s table
  · intro retaliates own s
    exact Follows.forEach hclosed (fun ally _ => h.wake (hknown ally) caller _) s

theorem choose (hc : w.profile? actor = some c.profile)
    (hpresent : ∀ k ∈ candidates, w.contains k.entity = true) :
    Follows (R.since w) (Engine.choose setting actor c candidates) := by
  have hclosed := h.closed.since w
  have hbias (s : State) : R.since w s (Engine.biasPass setting.tuning actor candidates s).events
      (Engine.biasPass setting.tuning actor candidates s).state :=
    since_of_steady (Engine.biasPass_tended _ actor candidates s).world.steady fun _ =>
      h.biasPass actor candidates s
  have hprepare : Follows (R.since w)
      (Action.when (!c.profile.legacyMode) (Engine.prepare setting.tuning actor candidates)) := by
    cases hmode : c.profile.legacyMode with
    | true => exact .pure hclosed ()
    | false =>
      have hactor : w.GoesByThreat actor := ⟨c.profile, hc, hmode⟩
      exact .bind hclosed (h.seedCandidates (.inl hactor) fun k hk => .inl (hpresent k hk))
        fun _ => .bind hclosed (h.ensureBias hactor) fun _ => hbias
  refine .bind hclosed hprepare fun _ => ?_
  refine .bind hclosed ((h.toRoutine.since w).selectUndeceived actor c _ candidates)
    fun choice => ?_
  refine .bind hclosed (.whenever hclosed (fun s => ?_) _) fun _ => .pure hclosed _
  exact since_of_steady (Engine.recordStreaks_tended actor _ s).world.steady fun _ =>
    h.recordStreaks actor _ s

theorem giveUp (hc : w.profile? actor = some c.profile) :
    Follows (R.since w) (Engine.giveUp actor c) := by
  have hclosed := h.closed.since w
  have hkept : w.profile? actor = some (c.disengage actor).1.profile := by
    rw [Controller.profile_disengage, hc]
  refine .bind hclosed ((h.toRoutine.since w).newsOf actor (c.disengage_news actor)) fun _ => ?_
  exact .bind hclosed (h.storeController hkept) fun _ => .pure hclosed _

/-- Whoever is cried out was chosen, and so it was found. -/
theorem thinkAmong (hc : w.profile? actor = some c.profile)
    (hpresent : ∀ k ∈ candidates, w.contains k.entity = true) (wokeFrom : Awareness) :
    Follows (R.since w) (Engine.thinkAmong setting actor wokeFrom c candidates) := by
  have hclosed := h.closed.since w
  have hroutine := h.toRoutine.since w
  have hroused : w.profile? actor = some (c.rouse actor).1.profile := by
    rw [Controller.profile_rouse, hc]
  refine .bind hclosed (hroutine.newsOf actor (c.rouse_news actor)) fun _ s => ?_
  refine hclosed.bind (h.choose hroused hpresent s) fun choice hchoice => ?_
  have hsettled : w.profile? actor =
      some (Engine.settle (c.rouse actor).1 actor choice).1.profile := by
    rw [Engine.settle_profile, hroused]
  have hcalls : ∀ enemy, choice.target? = some enemy →
      Follows (R.since w) (Alert.propagate setting actor enemy) := by
    intro enemy henemy
    obtain ⟨k, hk, rfl⟩ := Engine.choose_isAmong hchoice enemy henemy
    exact h.propagate (fun _ => .inl (hpresent k hk)) actor
  have halarm : Follows (R.since w) (Engine.alarm setting actor wokeFrom choice.target?) := by
    unfold Engine.alarm
    cases htarget : choice.target? with
    | none => exact .pure hclosed ()
    | some enemy =>
      exact .whenever hclosed (.bind hclosed (hcalls enemy htarget) fun _ => .pure hclosed ()) _
  refine Follows.bind hclosed (hroutine.newsOf actor (Engine.settle_news _ actor choice))
    (fun _ => ?_) _
  exact .bind hclosed (h.storeController hsettled) fun _ =>
    .bind hclosed halarm fun _ => .pure hclosed _

theorem think (actor : Entity) : Follows R (Engine.think setting actor) := by
  refine .of_since fun w s hs => ?_
  have hclosed := h.closed.since w
  cases hc : s.world.controller? actor with
  | none =>
    obtain ⟨refusal, hrefused⟩ := Engine.think_of_no_controller setting hc
    rw [hrefused]
    exact hclosed.refl s hs
  | some c =>
    have hupkeep := (h.toRoutine.since w).upkeep actor s
    have hkept := (hupkeep hs).2
    have hprofile : w.profile? actor = some c.noteMode.markThought.profile := by
      rw [← hs.profile?, World.profile?, hc]
      rfl
    refine hclosed.bind hupkeep (fun c' hc' => ?_) hs
    obtain rfl : c = c' := Except.ok.inj ((Engine.result_upkeep _ hc).symm.trans hc')
    rw [world_bind]
    split
    · exact h.giveUp hprofile _
    · refine h.thinkAmong hprofile (fun k hk => ?_) _ _
      obtain ⟨parts, hparts, -⟩ := Engine.parts_of_mem_found hk
      rw [← hkept.nature.contains_eq, World.contains, hparts]
      rfl

theorem update (seconds : Float32) : Follows R (Engine.update setting seconds) :=
  Engine.update_follows h.closed seconds (h.elapse seconds) h.note h.think

theorem arriveHome (actor : Entity) : Follows R (Engine.arriveHome actor) := by
  refine .of_since fun w s hs => ?_
  have hclosed := h.closed.since w
  have hroutine := h.toRoutine.since w
  refine hclosed.controllerOf_bind (fun c hc => ?_) hs
  let home := ({ c with target := none } : Controller).transition actor .idle
  have hprofile : w.profile? actor = some home.1.profile := by
    rw [Controller.profile_transition, ← hs.profile?, World.profile?, hc]
    rfl
  have hnews : Follows (R.since w) (publish home.2) :=
    hroutine.newsOf actor (Controller.transition_news _ actor .idle)
  refine Follows.bind hclosed hnews (fun _ => ?_) s
  exact .bind hclosed (h.storeController hprofile) fun _ => hroutine.reset actor

theorem recordDamage (actor attacker : Entity) (amount : Int64) :
    Follows R (Engine.recordDamage setting.tuning actor attacker amount) :=
  Engine.recordDamage_follows h.closed (h.log actor)
    (fun s c hc => h.rewrite s actor c _ hc rfl) (h.increase actor attacker amount)

theorem perform : Follows R (request.perform setting) := by
  cases request with
  | think actor => exact .regardless (h.think actor)
  | update seconds => exact .regardless (h.update seconds)
  | recordDamage actor attacker amount =>
    exact .regardless (h.recordDamage actor attacker amount)
  | arriveHome actor => exact .regardless (h.arriveHome actor)
  | increase actor candidate base => exact .regardless (h.increase actor candidate base)
  | seedCandidates actor candidates =>
    exact .regardless (.of_since fun w => h.seedCandidates (.inr rfl) fun k hk =>
      .inr ⟨rfl, k, hk, rfl⟩)
  | decay actor => exact .regardless (h.toRoutine.decay actor)
  | prune actor => exact .regardless (h.prune actor)
  | reset actor => exact .regardless (h.reset actor)
  | bias actor candidates => exact .regardless (h.biasPass actor candidates)
  | propagate caller enemy =>
    exact .regardless (.of_since fun w => h.propagate (fun _ => .inr rfl) caller)
  | expire => exact fun s => h.note s _

end Course.Warranted

end Hostility
