import Hostility.Proofs.Awakenings
import Hostility.Proofs.Composure

/-!
Actors that are locked to their target. Such an actor finds nobody but its target as long as it has
one, and calls reach only those who sleep and so have none. Whatever is asked of the engine, one
step leaves the target of the actor in place or takes it away, but never puts another in its place.
-/
namespace Hostility

variable {setting : Setting} {radius : Float} {w : World} {actor caller enemy t : Entity}
  {c c' own : Controller} {s s' : State} {events : List Event}

open Course Hostility.Action

/-- An actor with a target has not fallen asleep. -/
theorem Controller.IsComposed.isAwake (h : c.IsComposed actor) (htarget : c.target = some t) :
    c.state.isAwake = true := by
  have hengaged : c.state = .engaged := h.engaged.mp (by rw [htarget]; rfl)
  rw [hengaged]
  rfl

/-- A call passes by whoever has a target. -/
theorem World.Composed.not_woken {allies : List Entity} (h : s.world.Composed)
    (hasleep : ∀ ally ∈ allies, ∃ c, s.world.controller? ally = some c ∧ c.state.isAwake = false)
    (hc : s.world.controller? actor = some c) (htarget : c.target = some t) : actor ∉ allies := by
  intro hally
  obtain ⟨c', hc', hstate⟩ := hasleep actor hally
  obtain rfl := Option.some.inj (hc.symm.trans hc')
  rw [(h actor c hc).isAwake htarget] at hstate
  cases hstate

namespace Engine

theorem Resolves.target_of_locked (h : Resolves setting s actor c own)
    (hlocked : c.profile.lockedToTarget = true) (htarget : c.target = some t) :
    own.target = some t ∨ own.target = none := by
  cases h with
  | giveUp => exact .inr (Controller.target_disengage _ actor)
  | settle choice among =>
    rw [settle_target, Controller.target_rouse]
    show choice.target?.or c.target = some t ∨ _
    cases hchoice : choice.target? with
    | none => exact .inl htarget
    | some e =>
      obtain ⟨k, hk, rfl⟩ := among e hchoice
      rw [Observer.entity_eq_of_locked hlocked htarget hk]
      exact .inl rfl

theorem think_locked (hv : setting.visibility = .proximity radius) (hs : s.world.Composed)
    (hc : s.world.controller? actor = some c) (hlocked : c.profile.lockedToTarget = true)
    (htarget : c.target = some t) {thinker : Entity}
    (hc' : (think setting thinker s).state.world.controller? actor = some c') :
    c'.target = some t ∨ c'.target = none := by
  cases hthinker : s.world.controller? thinker with
  | none =>
    obtain ⟨refusal, hrefused⟩ := think_of_no_controller setting hthinker
    rw [hrefused] at hc'
    obtain rfl := Option.some.inj (hc.symm.trans hc')
    exact .inl htarget
  | some k =>
    obtain ⟨own, enemy, allies, hthought⟩ := think_thought hv hthinker
    by_cases hself : actor = thinker
    · subst hself
      obtain rfl := Option.some.inj (hc.symm.trans hthinker)
      obtain rfl := Option.some.inj (hthought.stored.symm.trans hc')
      exact hthought.resolves.target_of_locked hlocked htarget
    · rw [hthought.others actor hself (hs.not_woken hthought.asleep hc htarget), hc] at hc'
      obtain rfl := Option.some.inj hc'
      exact .inl htarget

theorem controller?_arriveHome (actor e : Entity) (s : State) :
    (arriveHome actor s).state.world.controller? e =
      if e = actor then
        (s.world.controller? actor).map fun c =>
          (({ c with target := none } : Controller).transition actor .idle).1
      else s.world.controller? e := by
  unfold arriveHome
  cases hc : s.world.controller? actor with
  | none =>
    obtain ⟨refusal, hrefused⟩ := controllerOf_of_none hc
    rw [bind_of_error (by rw [hrefused]), hrefused]
    split
    · next he => rw [he, hc, Option.map_none]
    · rfl
  | some c =>
    rw [bind_of_ok (by rw [controllerOf_eq hc]), controllerOf_eq hc]
    dsimp only
    rw [publish_bind, bind_of_ok (by rw [storeController_eq hc]), storeController_eq hc]
    exact ((Threat.reset_tended actor _).world.controller?_eq e).trans
      (World.controller?_setController (World.contains_of_bind hc) _ e)

end Engine

/-- A request by which actors may get a new target: somebody thinks or calls. -/
def Request.IsDecision : Request → Prop
  | .think _ | .update _ | .propagate _ _ => True
  | _ => False

/-- Nothing but a decision gives an actor a new target. -/
theorem Request.target_of_no_decision (setting : Setting) {request : Request}
    (h : ¬ request.IsDecision)
    (hc' : (request.perform setting s).state.world.controller? actor = some c') :
    ∃ c, s.world.controller? actor = some c ∧ (c'.target = c.target ∨ c'.target = none) := by
  have haside (h : request.IsAside) :
      ∃ c, s.world.controller? actor = some c ∧ (c'.target = c.target ∨ c'.target = none) :=
    ⟨c', ((request.perform_aside setting h s).2.1 actor).symm.trans hc', .inl rfl⟩
  cases request with
  | think thinker => exact (h trivial).elim
  | update seconds => exact (h trivial).elim
  | propagate caller enemy => exact (h trivial).elim
  | recordDamage victim attacker amount =>
    obtain ⟨hquiet, -⟩ := Engine.recordDamage_quiet setting.tuning victim attacker amount s
    have hbelief : some c'.belief = s.world.belief? actor := by
      rw [← hquiet actor, World.belief?]
      exact (congrArg (Option.map Controller.belief) hc').symm
    obtain ⟨c, hc, hsame⟩ := Option.map_eq_some_iff.mp hbelief.symm
    exact ⟨c, hc, .inl (congrArg Belief.target hsame).symm⟩
  | arriveHome e =>
    replace hc' : (Engine.arriveHome e s).state.world.controller? actor = some c' := hc'
    rw [Engine.controller?_arriveHome] at hc'
    split at hc'
    · next he =>
      obtain ⟨old, hold, rfl⟩ := Option.map_eq_some_iff.mp hc'
      exact ⟨old, he ▸ hold, .inr (Controller.target_transition _ e .idle)⟩
    · exact ⟨c', hc', .inl rfl⟩
  | _ => exact haside trivial

theorem Request.perform_locked (hv : setting.visibility = .proximity radius)
    (hs : s.world.Composed) (hc : s.world.controller? actor = some c)
    (hlocked : c.profile.lockedToTarget = true) (htarget : c.target = some t) {request : Request}
    (hsingle : ∀ seconds, request ≠ .update seconds)
    (hc' : (request.perform setting s).state.world.controller? actor = some c') :
    c'.target = some t ∨ c'.target = none := by
  by_cases hdecision : request.IsDecision
  · cases request with
    | think thinker => exact Engine.think_locked hv hs hc hlocked htarget hc'
    | update seconds => exact absurd rfl (hsingle seconds)
    | propagate caller enemy =>
      obtain ⟨allies, -, hreached⟩ := Alert.propagate_reached hv caller enemy s
      have hpassed := hreached.others actor (hs.not_woken hreached.asleep hc htarget)
      obtain rfl := Option.some.inj (hc.symm.trans (hpassed.symm.trans hc'))
      exact .inl htarget
    | _ => exact hdecision.elim
  · obtain ⟨old, hold, hkept⟩ := request.target_of_no_decision setting hdecision hc'
    obtain rfl := Option.some.inj (hc.symm.trans hold)
    rwa [htarget] at hkept

theorem Move.perform_locked (hv : setting.visibility = .proximity radius) (hs : s.world.Composed)
    (hc : s.world.controller? actor = some c) (hlocked : c.profile.lockedToTarget = true)
    (htarget : c.target = some t) {move : Move} (hmove : move.SparesControllers)
    (hsingle : ∀ seconds, move ≠ .ask (.update seconds))
    (hc' : (move.perform setting s).state.world.controller? actor = some c') :
    c'.target = some t ∨ c'.target = none := by
  cases move with
  | ask request =>
    refine request.perform_locked hv hs hc hlocked htarget (fun seconds hrequest => ?_) hc'
    exact hsingle seconds (congrArg Move.ask hrequest)
  | host change =>
    rcases Change.controller?_apply hmove hc' with hold | hfresh
    · obtain rfl := Option.some.inj (hc.symm.trans hold)
      exact .inl htarget
    · rw [hfresh]
      exact .inr rfl

theorem playOut_composed (setting : Setting) (hfresh : s.world.AllFresh) {moves : List Move}
    (hmoves : ∀ move ∈ moves, move.SparesControllers) :
    (playOut setting moves s).state.world.Composed := by
  have hkept : Follows (.keeping (·.world.Composed)) (playOut setting moves) :=
    .forEach (Course.keeping_closed _) fun move hmove => move.perform_composed setting
      (hmoves move hmove)
  exact hkept s hfresh.composed

/-- After any run from a world of fresh controllers in which the host leaves controllers alone, no
single step gives an actor that is locked to its target another one: the target is kept or dropped.
An update, which is many thinks, is no single step. -/
theorem playOut_locked_target_never_switches (hv : setting.visibility = .proximity radius)
    (hfresh : s.world.AllFresh) {moves : List Move}
    (hmoves : ∀ move ∈ moves, move.SparesControllers) {move : Move}
    (hmove : move.SparesControllers) (hsingle : ∀ seconds, move ≠ .ask (.update seconds)) :
    let before := (playOut setting moves s).state
    ∀ actor c c' t, before.world.controller? actor = some c →
      c.profile.tolerances.contains .lockedToTarget = true → c.target = some t →
      (move.perform setting before).state.world.controller? actor = some c' →
      c'.target = some t ∨ c'.target = none := by
  intro before actor c c' t hc hlocked htarget hc'
  exact move.perform_locked hv (playOut_composed setting hfresh hmoves) hc hlocked htarget hmove
    hsingle hc'

theorem World.AllFresh.setController {w : World} (h : w.AllFresh) {e : Entity}
    (he : w.contains e = true) (profile : Profile) :
    (w.setController e (.ofProfile profile)).AllFresh := by
  intro k c hc
  rw [controller?_setController he] at hc
  split at hc
  · obtain rfl := Option.some.inj hc
    rfl
  · exact h k c hc

namespace Engine

/-- The profile of the orc of the ambush, locked to its target. -/
def grim : Profile :=
  { ({} : Profile).withLegacyTactics ⟨4224⟩ with tolerances := ⟨Tolerance.lockedToTarget.mask⟩ }

def vigil : State :=
  { ambush with world := ambush.world.setController ⟨0, 1⟩ (.ofProfile grim) }

/-- The controller of the orc after it found Aria. -/
def fixated : Controller :=
  { Controller.ofProfile grim with
    state := .engaged
    target := some ⟨1, 1⟩
    lastLegacyMode := some true
    sinceThink := 0.0 }

/-- The sort behind the order of the world does not evaluate, so the search is replaced by what it
finds. -/
theorem controller?_fixated :
    (playOut {} [.ask (.think ⟨0, 1⟩)] vigil).state.world.controller? ⟨0, 1⟩ = some fixated := by
  have hgrim : vigil.world.controller? ⟨0, 1⟩ = some (.ofProfile grim) := by decide +kernel
  have hboth : found {} (upkeep {} ⟨0, 1⟩ vigil).state.world ⟨0, 1⟩
      (Controller.ofProfile grim).noteMode.markThought =
        [⟨⟨1, 1⟩, 3.0, .player, none⟩, ⟨⟨2, 1⟩, 5.0, .player, none⟩] := by
    rw [found_of_entities rfl (World.entities_of_sorted (by decide +kernel))]
    decide +kernel
  show (think {} ⟨0, 1⟩ vigil).state.world.controller? ⟨0, 1⟩ = _
  rw [think_of_found hgrim hboth (by simp)]
  decide +kernel

/-- Whatever Bram does to it, and if it thinks again, the orc does not turn on him. -/
theorem fixated_never_switches :
    let before := (playOut {} [.ask (.think ⟨0, 1⟩)] vigil).state
    ∀ move ∈ [Move.ask (.think ⟨0, 1⟩), .ask (.recordDamage ⟨0, 1⟩ ⟨2, 1⟩ 1000)],
      ∀ c', (move.perform {} before).state.world.controller? ⟨0, 1⟩ = some c' →
        c'.target = some ⟨1, 1⟩ ∨ c'.target = none := by
  intro before move hmove c' hc'
  have hfresh : vigil.world.AllFresh := ambush_allFresh.setController (by decide +kernel) grim
  have hthinks : ∀ move ∈ [Move.ask (.think ⟨0, 1⟩)], move.SparesControllers := by
    simp [Move.SparesControllers]
  have hspares : move.SparesControllers ∧ ∀ seconds, move ≠ .ask (.update seconds) := by
    rcases List.mem_cons.mp hmove with rfl | hmove
    · exact ⟨trivial, by simp⟩
    · obtain rfl := List.mem_singleton.mp hmove
      exact ⟨trivial, by simp⟩
  exact playOut_locked_target_never_switches rfl hfresh hthinks hspares.1 hspares.2 ⟨0, 1⟩ fixated
    c' ⟨1, 1⟩ controller?_fixated (by decide) rfl hc'

end Engine

end Hostility
