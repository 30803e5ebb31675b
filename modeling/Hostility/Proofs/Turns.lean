import Hostility.Proofs.Asides
import Hostility.Proofs.Calls
import Hostility.Proofs.KeptTarget
import Mathlib.Logic.Relation

/-!
What the engine can do to a controller. Whatever is asked of it, every controller goes through
turns of a few kinds: its timer runs on, its actor settles on someone it found, gives up, comes home
or is hit by one of its own, or it heeds a call. A property of controllers holds in every reached
state if it holds at first and no turn breaks it.
-/
namespace Hostility

variable {rumours : Prop} {w w' : World} {actor caller enemy : Entity} {c c' : Controller}
  {retaliates : Bool} {events events' : List Event} {s s' s'' : State}

/-- Whom an actor may settle on: somebody else who is there, and one of its own faction only if it
strikes back at that one. -/
structure World.IsFairGame (w : World) (actor : Entity) (c : Controller) (e : Entity) : Prop where
  other : e ≠ actor
  present : w.contains e = true
  fair : Alert.sharesFaction w actor e = true → c.retaliates e = true

/-- A call about someone who is fair game for the caller. -/
structure World.IsTrueCall (w : World) (caller enemy : Entity) (retaliates : Bool) : Prop where
  present : w.contains enemy = true
  fair : Alert.sharesFaction w caller enemy = true → retaliates = true

def Alert.areKin (w : World) (a b : Entity) : Bool :=
  match w.allegiance? a, w.allegiance? b with
  | some x, some y => x.kinship.isKin y.kinship
  | _, _ => false

/-- What may happen to the controller of an actor in a world, while some events are told. Calls that
nobody checks may be heard only where rumours are allowed. -/
inductive Turn (rumours : Prop) (w : World) (events : List Event) (actor : Entity) :
    Controller → Controller → Prop
  | elapse {c : Controller} (seconds : Float32) : Turn rumours w events actor c (c.elapse seconds)
  | giveUp {c : Controller} :
    Turn rumours w events actor c (c.noteMode.markThought.disengage actor).1
  | settle {c : Controller} (choice : Choice)
    (fair : ∀ e, choice.target? = some e → w.IsFairGame actor c e) :
    Turn rumours w events actor c
      (Engine.settle (c.noteMode.markThought.rouse actor).1 actor choice).1
  | comeHome {c : Controller} :
    Turn rumours w events actor c
      (({ c with target := none } : Controller).transition actor .idle).1
  | retaliate {c : Controller} (attacker : Entity) :
    Turn rumours w events actor c (c.retaliateAgainst attacker)
  | heed {c : Controller} {caller enemy : Entity} {retaliates : Bool} (other : enemy ≠ actor)
    (kin : Alert.areKin w caller actor = true)
    (call : rumours ∨ w.IsTrueCall caller enemy retaliates)
    (told : .allyAlerted caller actor enemy ∈ events) :
    Turn rumours w events actor c
      (Alert.pointAt c enemy (Alert.sharesFaction w actor enemy && retaliates))

namespace World.SameFolk

variable (h : w.SameFolk w')
include h

theorem areKin_eq (a b : Entity) : Alert.areKin w' a b = Alert.areKin w a b := by
  rw [Alert.areKin, Alert.areKin, h.allegiance?, h.allegiance?]

theorem isFairGame {e : Entity} (hfair : w.IsFairGame actor c e) : w'.IsFairGame actor c e where
  other := hfair.other
  present := (h.contains e).trans hfair.present
  fair hshares := hfair.fair ((h.sharesFaction_eq actor e).symm.trans hshares)

theorem isTrueCall (hcall : w.IsTrueCall caller enemy retaliates) :
    w'.IsTrueCall caller enemy retaliates where
  present := (h.contains enemy).trans hcall.present
  fair hshares := hcall.fair ((h.sharesFaction_eq caller enemy).symm.trans hshares)

end World.SameFolk

/-- A turn is one in every world of the same folk, and when more is told. -/
theorem Turn.congr (hfolk : w.SameFolk w') (hevents : events ⊆ events')
    (h : Turn rumours w' events actor c c') : Turn rumours w events' actor c c' := by
  cases h with
  | elapse seconds => exact .elapse seconds
  | giveUp => exact .giveUp
  | settle choice fair => exact .settle choice fun e he => hfolk.symm.isFairGame (fair e he)
  | comeHome => exact .comeHome
  | retaliate attacker => exact .retaliate attacker
  | heed other kin call told =>
    rw [hfolk.sharesFaction_eq]
    exact .heed other ((hfolk.areKin_eq _ actor).symm.trans kin)
      (call.imp_right hfolk.symm.isTrueCall) (hevents told)

/-- No turn changes what an actor is like. -/
theorem Turn.profile_eq (h : Turn rumours w events actor c c') : c'.profile = c.profile := by
  cases h with
  | elapse seconds => rfl
  | giveUp => exact Controller.profile_disengage _ actor
  | settle choice fair =>
    rw [Engine.settle_profile, Controller.profile_rouse]
    rfl
  | comeHome => exact Controller.profile_transition _ actor .idle
  | retaliate attacker => rfl
  | heed other kin call told =>
    unfold Alert.pointAt
    dsimp only
    split <;> rfl

namespace Course

/-- The folk stay the same, and every controller goes through turns. -/
def steering (rumours : Prop) : Course := fun s events s' =>
  s.world.SameFolk s'.world ∧ ∀ actor c', s'.world.controller? actor = some c' →
    ∃ c, s.world.controller? actor = some c ∧
      Relation.ReflTransGen (Turn rumours s.world events actor) c c'

theorem steering_closed (rumours : Prop) : (steering rumours).Closed where
  refl s := ⟨.refl s.world, fun _ c hc => ⟨c, hc, .refl⟩⟩
  trans := by
    rintro s s' s'' events events' ⟨hfolk, hturns⟩ ⟨hfolk', hturns'⟩
    refine ⟨hfolk.trans hfolk', fun actor c'' hc'' => ?_⟩
    obtain ⟨c', hc', hlater⟩ := hturns' actor c'' hc''
    obtain ⟨c, hc, hearlier⟩ := hturns actor c' hc'
    have hbefore := Relation.ReflTransGen.mono (fun _ _ =>
      Turn.congr (.refl s.world) (List.subset_append_left events events')) _ _ hearlier
    have hafter := Relation.ReflTransGen.mono (fun _ _ =>
      Turn.congr hfolk (List.subset_append_right events events')) _ _ hlater
    exact ⟨c, hc, hbefore.trans hafter⟩

theorem steering_of_controllers (hfolk : s.world.SameFolk s'.world)
    (hsame : ∀ e, s'.world.controller? e = s.world.controller? e) (events : List Event) :
    steering rumours s events s' :=
  ⟨hfolk, fun actor c hc => ⟨c, (hsame actor).symm.trans hc, .refl⟩⟩

theorem steering_of_aside (h : aside s events s') : steering rumours s events s' :=
  steering_of_controllers h.1 h.2.1 events

theorem steering.exists_profile (h : steering rumours s events s')
    (hc' : s'.world.controller? actor = some c') :
    ∃ c, s.world.controller? actor = some c ∧ c'.profile = c.profile := by
  obtain ⟨c, hc, hturns⟩ := h.2 actor c' hc'
  refine ⟨c, hc, ?_⟩
  clear hc hc'
  induction hturns with
  | refl => rfl
  | tail _ hturn ih => exact hturn.profile_eq.trans ih

/-- One turn of one actor. -/
theorem steering_of_turn (hc : s.world.controller? actor = some c)
    (hturn : Turn rumours s.world events actor c c') :
    steering rumours s events { s with world := s.world.setController actor c' } := by
  refine ⟨.setController s.world actor c', fun k c'' hc'' => ?_⟩
  rw [World.controller?_setController (World.contains_of_bind hc)] at hc''
  split at hc''
  · next hk =>
    subst hk
    obtain rfl := Option.some.inj hc''
    exact ⟨c, hc, .single hturn⟩
  · exact ⟨c'', hc'', .refl⟩

end Course

open Course Hostility.Action

namespace Alert

variable {setting : Setting} {t : Tuning}

theorem wake_steering {ally : Entity} (hother : ally ≠ enemy)
    (hkin : areKin s.world caller ally = true)
    (hcall : rumours ∨ s.world.IsTrueCall caller enemy retaliates) :
    let woken := wake t caller enemy retaliates ally s
    steering rumours s woken.events woken.state := by
  intro woken
  cases hc : s.world.controller? ally with
  | none =>
    rw [show woken = _ from wake_of_no_controller t caller enemy retaliates hc]
    exact steering_of_controllers (.refl s.world) (fun _ => rfl) _
  | some c =>
    obtain ⟨w', hwoken, hw'⟩ := wake_of_controller t caller enemy retaliates hc
    let after := pointAt c enemy (sharesFaction s.world ally enemy && retaliates)
    let pointed := { s with world := s.world.setController ally after }
    have hturn : Turn rumours s.world woken.events ally c after := by
      apply Turn.heed hother.symm hkin hcall
      rw [show woken = _ from hwoken]
      simp
    have hseeded : aside pointed [] { s with world := w' } := by
      rcases hw' with rfl | rfl
      · exact aside_closed.refl pointed
      · exact aside_update (by intro _; rfl) (by intro _; rfl) ally pointed
    have hrun := (steering_closed rumours).trans (steering_of_turn hc hturn)
      (steering_of_aside hseeded)
    rw [List.append_nil] at hrun
    rwa [show woken.state = { s with world := w' } by rw [show woken = _ from hwoken]]

theorem forEach_wake_steering {allies : List Entity}
    (hallies : ∀ ally ∈ allies, ally ≠ enemy ∧ areKin s.world caller ally = true)
    (hcall : rumours ∨ s.world.IsTrueCall caller enemy retaliates) :
    let woken := forEach (wake t caller enemy retaliates) allies s
    steering rumours s woken.events woken.state := by
  induction allies generalizing s with
  | nil => exact (steering_closed rumours).refl s
  | cons ally allies ih =>
    obtain ⟨hother, hkin⟩ := hallies ally (by simp)
    have hwoken := wake_steering (t := t) hother hkin hcall
    refine (steering_closed rumours).bind hwoken fun _ _ => ih (fun ally' hally' => ?_) ?_
    · rw [hwoken.1.areKin_eq]
      exact hallies ally' (by simp [hally'])
    · exact hcall.imp_right hwoken.1.isTrueCall

theorem propagate_steering (rumours : Prop) (setting : Setting)
    (hcall : rumours ∨ s.world.IsTrueCall caller enemy (callerRetaliates s.world caller enemy)) :
    let called := propagate setting caller enemy s
    steering rumours s called.events called.state := by
  intro called
  cases hcooldown : onCooldown setting.tuning s.alerts s.now enemy with
  | true =>
    rw [show called = _ from propagate_of_onCooldown hcooldown]
    exact (steering_closed rumours).refl s
  | false =>
    rw [show called = _ from propagate_of_not_onCooldown hcooldown]
    let noted := { s with alerts := EntityMap.insert s.alerts enemy s.now }
    have hallies : ∀ ally ∈ listeners setting.visibility s.world caller enemy,
        ally ≠ enemy ∧ areKin noted.world caller ally = true := by
      intro ally hally
      obtain ⟨own, hown, hanswers⟩ := mem_listeners.mp hally
      obtain ⟨hother, -, theirs, -, -, htheirs, hkin⟩ := parts_of_mem_answering hanswers
      refine ⟨hother, ?_⟩
      show areKin s.world caller ally = true
      unfold areKin
      rw [hown, htheirs]
      exact (Kinship.isKin_comm _ _).trans hkin
    exact forEach_wake_steering (s := noted) hallies hcall

end Alert

namespace Engine

variable {setting : Setting}

theorem isFairGame_of_mem_found {k : Candidate} (h : k ∈ found setting w actor c) :
    w.IsFairGame actor c k.entity := by
  obtain ⟨seen, -, hother, hok⟩ := Observer.mem_candidates.mp h
  obtain ⟨parts, hparts, haccepts, rfl⟩ := Observer.evaluate_eq_ok_iff.mp hok
  refine ⟨hother, by simp [World.contains, hparts], fun hshares => haccepts.fairGame ?_⟩
  unfold Alert.sharesFaction at hshares
  cases hown : w.allegiance? actor with
  | none => simp [hown] at hshares
  | some own =>
    cases htheirs : w.allegiance? seen.entity with
    | none => simp [hown, htheirs] at hshares
    | some theirs =>
      have hparts : parts.allegiance = some theirs := by
        rwa [World.allegiance?, hparts, Option.bind_some] at htheirs
      simpa [Observer.sharesFaction, Observer.ofActor, hown, htheirs, hparts] using hshares

theorem alarm_steering (rumours : Prop) (setting : Setting) (wokeFrom : Awareness)
    {enemy? : Option Entity}
    (hcall : ∀ enemy, enemy? = some enemy →
      s.world.IsTrueCall actor enemy (Alert.callerRetaliates s.world actor enemy)) :
    let called := alarm setting actor wokeFrom enemy? s
    steering rumours s called.events called.state := by
  have hclosed := steering_closed rumours
  cases enemy? with
  | none => exact hclosed.refl s
  | some enemy =>
    unfold alarm
    cases decide (wokeFrom = .idle) with
    | false => exact hclosed.refl s
    | true =>
      have hcalled := Alert.propagate_steering rumours setting (.inr (hcall enemy rfl))
      exact hclosed.bind hcalled fun _ _ => hclosed.refl _

/-- What is stored after a choice is what the turn makes of the controller, and the call that
follows is about somebody whom the caller may attack. -/
theorem thinkAmong_steering (hc : s.world.controller? actor = some c)
    {candidates : List Candidate}
    (hcandidates : ∀ k ∈ candidates, s.world.IsFairGame actor c k.entity) (wokeFrom : Awareness) :
    let among := thinkAmong setting actor wokeFrom c.noteMode.markThought candidates s
    steering rumours s among.events among.state := by
  intro among
  let roused := (c.noteMode.markThought.rouse actor).1
  let chosen := choose setting actor roused candidates s
  obtain ⟨choice, hchoice, hrun⟩ :=
    thinkAmong_eq setting hc wokeFrom c.noteMode.markThought candidates
  have hchosen : Tended actor s chosen :=
    choose_tended setting roused candidates (World.contains_of_bind hc)
  have hkept : chosen.state.world.controller? actor = some c :=
    (hchosen.world.controller?_eq actor).trans hc
  have hfair : ∀ e, choice.target? = some e → chosen.state.world.IsFairGame actor c e := by
    intro e he
    obtain ⟨k, hk, rfl⟩ := choose_isAmong hchoice e he
    exact hchosen.world.sameFolk.isFairGame (hcandidates k hk)
  let settled := settle roused actor choice
  let stored := { chosen.state with world := chosen.state.world.setController actor settled.1 }
  have hstored : steering rumours chosen.state settled.2 stored :=
    steering_of_turn hkept (.settle choice hfair)
  have hcall : ∀ enemy, choice.target? = some enemy → stored.world.IsTrueCall actor enemy
      (Alert.callerRetaliates stored.world actor enemy) := by
    intro enemy henemy
    have hsettled : stored.world.controller? actor = some settled.1 := by
      rw [World.controller?_setController (World.contains_of_bind hkept), if_pos rfl]
    have hretaliates : Alert.callerRetaliates stored.world actor enemy = c.retaliates enemy := by
      rw [Alert.callerRetaliates, hsettled]
      show settled.1.retaliates enemy = _
      rw [Controller.retaliates, settle_retaliation, Controller.retaliation_rouse]
      rfl
    rw [hretaliates]
    have hgame := hstored.1.isFairGame (hfair enemy henemy)
    exact ⟨hgame.present, hgame.fair⟩
  have hcalled := alarm_steering rumours setting wokeFrom hcall
  have hclosed := steering_closed rumours
  rw [show among = _ from hrun, ← List.append_assoc]
  exact hclosed.trans
    (steering_of_controllers hchosen.world.sameFolk hchosen.world.controller?_eq _)
    (hclosed.trans hstored hcalled)

theorem think_steering (setting : Setting) (actor : Entity) :
    Follows (steering rumours) (think setting actor) := by
  intro s
  have hclosed := steering_closed rumours
  cases hc : s.world.controller? actor with
  | none =>
    obtain ⟨refusal, hrefused⟩ := think_of_no_controller setting hc
    rw [hrefused]
    exact hclosed.refl s
  | some c =>
    have hbefore := upkeep_tended setting.tuning hc
    have hkept := (hbefore.world.controller?_eq actor).trans hc
    by_cases hfound : found setting (upkeep setting.tuning actor s).state.world actor
        c.noteMode.markThought = []
    · rw [think_of_nobody hc hfound]
      exact hclosed.trans (steering_of_aside hbefore.aside) (steering_of_turn hkept .giveUp)
    · have hrun := think_of_found hc rfl hfound
      rw [hrun]
      refine hclosed.trans (steering_of_aside hbefore.aside) (thinkAmong_steering hkept ?_ c.state)
      intro k hk
      have hgame := isFairGame_of_mem_found hk
      exact ⟨hgame.other, hgame.present, hgame.fair⟩

theorem recordDamage_steering (t : Tuning) (actor attacker : Entity) (amount : Int64) :
    Follows (steering rumours) (recordDamage t actor attacker amount) :=
  recordDamage_follows (steering_closed rumours)
    (fun _ s => steering_of_aside (aside_update (by intro _; rfl) (by intro _; rfl) actor s))
    (fun _ _ hc => steering_of_turn hc (.retaliate attacker))
    fun s => steering_of_aside (Threat.increase_aside t actor attacker amount s)

theorem arriveHome_steering (actor : Entity) : Follows (steering rumours) (arriveHome actor) := by
  intro s
  have hclosed := steering_closed rumours
  refine hclosed.controllerOf_bind fun c hc => ?_
  let settled := ({ c with target := none } : Controller).transition actor .idle
  show steering rumours s ((publish settled.2 >>= fun _ => storeController actor settled.1 >>=
    fun _ => Threat.reset actor) s).events ((publish settled.2 >>= fun _ =>
      storeController actor settled.1 >>= fun _ => Threat.reset actor) s).state
  rw [publish_bind, bind_of_ok (by rw [storeController_eq hc]), storeController_eq hc]
  exact hclosed.trans (steering_of_turn hc .comeHome)
    (steering_of_aside (Threat.reset_tended actor _).aside)

theorem update_steering (setting : Setting) (seconds : Float32) :
    Follows (steering rumours) (update setting seconds) := by
  apply update_follows (steering_closed rumours) seconds
  · intro s
    refine ⟨.updateAll (by intro _; rfl) s.world, fun actor c' hc' => ?_⟩
    rw [World.controller?_elapse] at hc'
    obtain ⟨c, hc, rfl⟩ := Option.map_eq_some_iff.mp hc'
    exact ⟨c, hc, .single (.elapse seconds)⟩
  · exact fun s table => steering_of_controllers (.refl s.world) (fun _ => rfl) []
  · exact think_steering setting

end Engine

/-- A call that is asked for outright, and not cried by an actor that thinks. -/
def Request.IsRumour : Request → Prop
  | .propagate _ _ => True
  | _ => False

theorem Request.perform_steering (setting : Setting) {request : Request}
    (h : request.IsRumour → rumours) : Follows (steering rumours) (request.perform setting) := by
  have haside (haside : request.IsAside) : Follows (steering rumours) (request.perform setting) :=
    (perform_aside setting haside).mono steering_of_aside
  cases request with
  | think actor => exact .regardless (Engine.think_steering setting actor)
  | update seconds => exact .regardless (Engine.update_steering setting seconds)
  | recordDamage actor attacker amount =>
    exact .regardless (Engine.recordDamage_steering setting.tuning actor attacker amount)
  | arriveHome actor => exact .regardless (Engine.arriveHome_steering actor)
  | propagate caller enemy =>
    exact .regardless fun s => Alert.propagate_steering rumours setting (.inl (h trivial))
  | _ => exact haside trivial

end Hostility
