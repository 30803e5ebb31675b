import Hostility.Proofs.EventLog
import Hostility.Proofs.Turns

/-!
Awareness and target agree. An actor has a target exactly while it is engaged, and it is never its
own target: every turn keeps it so, also one that a call forces on an actor between two of its
thinks.
-/
namespace Hostility

variable {rumours : Prop} {w : World} {actor : Entity} {c c' : Controller} {events : List Event}
  {s : State}

/-- An actor that has a target, and one other than itself, exactly while it is engaged. -/
structure Controller.IsComposed (c : Controller) (actor : Entity) : Prop where
  engaged : c.target.isSome = true ↔ c.state = .engaged
  other : c.target ≠ some actor

namespace Controller.IsComposed

theorem of_calm (htarget : c.target = none) (hstate : c.state ≠ .engaged) :
    c.IsComposed actor where
  engaged := by simp [htarget, hstate]
  other := by simp [htarget]

theorem of_fight {enemy : Entity} (htarget : c.target = some enemy) (hother : enemy ≠ actor)
    (hstate : c.state = .engaged) : c.IsComposed actor where
  engaged := by simp [htarget, hstate]
  other := by simpa [htarget] using hother

theorem congr (h : c.IsComposed actor) (htarget : c'.target = c.target)
    (hstate : c'.state = c.state) : c'.IsComposed actor where
  engaged := by rw [htarget, hstate]; exact h.engaged
  other := by rw [htarget]; exact h.other

theorem ofProfile (profile : Profile) : (Controller.ofProfile profile).IsComposed actor :=
  of_calm rfl (by simp [Controller.ofProfile])

/-- Whoever is roused from sleep has no target yet. -/
theorem rouse (h : c.IsComposed actor) : (c.rouse actor).1.IsComposed actor := by
  cases hawake : c.state.isAwake with
  | true => exact h.congr (c.target_rouse actor) (by simp [Controller.rouse, hawake])
  | false =>
    have hasleep : c.state ≠ .engaged := by
      intro hstate
      simp [hstate, Awareness.isAwake] at hawake
    have hnone : c.target = none := by
      simpa using fun hsome => hasleep (h.engaged.mp hsome)
    have hroused : (c.rouse actor).1.state = .awake := by simp [Controller.rouse, hawake]
    exact of_calm (by simp [hnone]) (by simp [hroused])

theorem settle (h : c.IsComposed actor) {choice : Choice}
    (hother : ∀ e, choice.target? = some e → e ≠ actor) :
    (Engine.settle c actor choice).1.IsComposed actor := by
  cases choice with
  | chosen target =>
    exact of_fight (c.target_engage actor target) (hother target rfl) (c.state_engage actor target)
  | kept target =>
    exact of_fight (c.target_engage actor target) (hother target rfl) (c.state_engage actor target)
  | rejected bits => exact h
  | empty => exact h

theorem disengage (c : Controller) (actor : Entity) : (c.disengage actor).1.IsComposed actor := by
  refine of_calm (c.target_disengage actor) ?_
  rw [disengage_eq]
  dsimp only
  split
  · simp
  · next hasleep =>
    intro hstate
    rw [show c.state = .engaged from hstate] at hasleep
    exact hasleep rfl

end Controller.IsComposed

/-- No turn parts an actor's awareness from its target. -/
theorem Turn.isComposed (h : Turn rumours w events actor c c') (hc : c.IsComposed actor) :
    c'.IsComposed actor := by
  cases h with
  | elapse seconds => exact hc.congr rfl rfl
  | giveUp => exact .disengage c.noteMode.markThought actor
  | settle choice fair =>
    exact (hc.congr rfl rfl : c.noteMode.markThought.IsComposed actor).rouse.settle
      fun e he => (fair e he).other
  | comeHome => exact .of_calm (by simp) (by simp)
  | retaliate attacker => exact hc.congr rfl rfl
  | heed other kin call told =>
    unfold Alert.pointAt
    dsimp only
    split
    · exact .of_fight rfl other rfl
    · exact .of_fight rfl other rfl

def World.Composed (w : World) : Prop :=
  ∀ actor c, w.controller? actor = some c → c.IsComposed actor

theorem World.AllFresh.composed (h : w.AllFresh) : w.Composed := by
  intro actor c hc
  rw [h actor c hc]
  exact .ofProfile c.profile

/-- A composed world stays so along any turns, even where rumours are heard. -/
theorem composed_of_steering {s' : State} (h : Course.steering True s events s')
    (hs : s.world.Composed) : s'.world.Composed := by
  intro actor c' hc'
  obtain ⟨c, hc, hturns⟩ := h.2 actor c' hc'
  have hfirst := hs actor c hc
  clear hc hc'
  induction hturns with
  | refl => exact hfirst
  | tail _ hturn ih => exact hturn.isComposed ih

theorem Move.perform_composed (setting : Setting) {move : Move} (h : move.SparesControllers) :
    Action.Follows (.keeping (·.world.Composed)) (move.perform setting) := by
  intro s hs
  cases move with
  | ask request =>
    exact composed_of_steering (request.perform_steering setting (fun _ => trivial) s) hs
  | host change =>
    intro actor c hc
    rcases Change.controller?_apply h hc with hold | hfresh
    · exact hs actor c hold
    · rw [hfresh]
      exact .ofProfile c.profile

/-- From a world of fresh controllers, and as long as the host leaves controllers alone, every actor
has a target exactly while it is engaged, and none is its own target. -/
theorem playOut_target_iff_engaged {setting : Setting} {s : State} (hfresh : s.world.AllFresh)
    {moves : List Move} (hmoves : ∀ move ∈ moves, move.SparesControllers) {actor : Entity}
    {c : Controller} (hc : (playOut setting moves s).state.world.controller? actor = some c) :
    (c.target.isSome = true ↔ c.state = .engaged) ∧ c.target ≠ some actor := by
  have hkept : Action.Follows (.keeping (·.world.Composed)) (playOut setting moves) :=
    .forEach (Course.keeping_closed _) fun move hmove => move.perform_composed setting
      (hmoves move hmove)
  have hcomposed := hkept s hfresh.composed actor c hc
  exact ⟨hcomposed.engaged, hcomposed.other⟩

/-- The orc that lost Aria still has a target, and is still engaged. -/
theorem escaped_target_iff_engaged :
    (Engine.aroused.target.isSome = true ↔ Engine.aroused.state = .engaged) ∧
      Engine.aroused.target ≠ some ⟨0, 1⟩ := by
  have hmoves : ∀ move ∈ [Move.ask (.think ⟨0, 1⟩), .host (.despawn ⟨1, 1⟩)],
      move.SparesControllers := by
    simp [Move.SparesControllers, Change.SparesControllers]
  exact playOut_target_iff_engaged Engine.ambush_allFresh hmoves Engine.controller?_escaped

end Hostility
