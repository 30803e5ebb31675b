import Hostility.Proofs.Hosting
import Hostility.Proofs.ThinkStages

/-!
What happens aside. An actor that looks to its threat, its damage log or its modifiers changes
neither who is in the world nor anybody's controller or allegiance, and tells nothing of a state or
a target.
-/
namespace Hostility

variable {actor : Entity} {s : State} {w w' w'' : World}

/-- Two worlds with the same entities of the same allegiances, in which the same handles are still
to be borne. -/
structure World.SameFolk (w w' : World) : Prop where
  contains : ∀ e, w'.contains e = w.contains e
  allegiance? : ∀ e, w'.allegiance? e = w.allegiance? e
  next : ∀ id, w'.nextGeneration id = w.nextGeneration id

namespace World.SameFolk

theorem refl (w : World) : SameFolk w w := ⟨fun _ => rfl, fun _ => rfl, fun _ => rfl⟩

theorem symm (h : SameFolk w w') : SameFolk w' w where
  contains e := (h.contains e).symm
  allegiance? e := (h.allegiance? e).symm
  next id := (h.next id).symm

theorem trans (h : SameFolk w w') (h' : SameFolk w' w'') : SameFolk w w'' where
  contains e := (h'.contains e).trans (h.contains e)
  allegiance? e := (h'.allegiance? e).trans (h.allegiance? e)
  next id := (h'.next id).trans (h.next id)

theorem update {f : Components → Components} (h : ∀ c, (f c).allegiance = c.allegiance)
    (w : World) (e : Entity) : SameFolk w (w.update e f) where
  contains k := contains_update w e k f
  allegiance? k := bind_get?_update h w e k
  next id := nextGeneration_update w e f id

theorem setController (w : World) (e : Entity) (c : Controller) :
    SameFolk w (w.setController e c) :=
  update (by intro _; rfl) w e

theorem updateAll {f : Components → Components} (h : ∀ c, (f c).allegiance = c.allegiance)
    (w : World) : SameFolk w (w.updateAll f) where
  contains k := by rw [World.contains, get?_updateAll, Option.isSome_map, World.contains]
  allegiance? k := by
    rw [World.allegiance?, get?_updateAll, World.allegiance?]
    cases w.get? k <;> simp [h]
  next id := nextGeneration_updateAll w f id

theorem sharesFaction_eq (h : SameFolk w w') (a b : Entity) :
    Alert.sharesFaction w' a b = Alert.sharesFaction w a b := by
  rw [Alert.sharesFaction, Alert.sharesFaction, h.allegiance?, h.allegiance?]

end World.SameFolk

/-- When time goes by every controller runs on, and no other one is there. -/
theorem World.controller?_elapse (w : World) (seconds : Float32) (e : Entity) :
    (w.updateAll (Engine.elapse seconds)).controller? e =
      (w.controller? e).map (·.elapse seconds) := by
  rw [controller?, get?_updateAll, controller?]
  cases w.get? e <;> rfl

theorem World.SameButThreat.sameFolk (h : w.SameButThreat actor w') : w.SameFolk w' where
  contains := h.contains_eq
  allegiance? e := h.bind_eq (fun _ => rfl) e
  next := h.next

/-- The events that tell neither of a state nor of a target. -/
def Event.IsAside : Event → Prop
  | .deceptionAttempted _ _ _ _ | .threatIncreased _ _ _ _ | .threatSkipped _ _
  | .threatDecayed _ _ _ | .ledgerReset _ => True
  | _ => False

theorem Event.IsUpkeepOf.isAside {e : Event} (h : e.IsUpkeepOf actor) : e.IsAside := by
  cases e <;> trivial

namespace Course

/-- Nobody comes or goes, and no controller and no allegiance changes. -/
def aside : Course := fun s events s' =>
  s.world.SameFolk s'.world ∧ (∀ e, s'.world.controller? e = s.world.controller? e) ∧
    ∀ e ∈ events, e.IsAside

theorem aside_closed : aside.Closed where
  refl s := ⟨.refl s.world, fun _ => rfl, by simp⟩
  trans h h' := by
    refine ⟨h.1.trans h'.1, fun e => (h'.2.1 e).trans (h.2.1 e), fun e he => ?_⟩
    rcases List.mem_append.mp he with he | he
    · exact h.2.2 e he
    · exact h'.2.2 e he

end Course

theorem Tended.aside {α : Type} {o : Outcome α} (h : Tended actor s o) :
    Course.aside s o.events o.state :=
  ⟨h.world.sameFolk, h.world.controller?_eq, fun e he => (h.events e he).isAside⟩

theorem aside_update {f : Components → Components} (hc : ∀ c, (f c).controller = c.controller)
    (ha : ∀ c, (f c).allegiance = c.allegiance) (e : Entity) (s : State) :
    Course.aside s [] { s with world := s.world.update e f } :=
  ⟨.update ha s.world e, World.bind_get?_update hc s.world e, by simp⟩

theorem aside_publish {events : List Event} (h : ∀ e ∈ events, e.IsAside) (s : State) :
    Course.aside s events s := ⟨.refl s.world, fun _ => rfl, h⟩

namespace Threat

open Course Hostility.Action

theorem ensureLedger_aside (actor : Entity) : Follows aside (ensureLedger actor) :=
  ensureLedger_follows aside_closed
    fun s _ => aside_update (by intro _; rfl) (by intro _; rfl) actor s

theorem aside_setLedger {events : List Event} (h : ∀ e ∈ events, e.IsAside) (actor : Entity)
    (l : Ledger) (s : State) :
    aside s events { s with world := s.world.setLedger actor l } :=
  aside_closed.trans (aside_update (by intro _; rfl) (by intro _; rfl) actor s) (aside_publish h _)

theorem seedCandidates_aside (t : Tuning) (actor : Entity) (candidates : List Candidate) :
    Follows aside (seedCandidates t actor candidates) :=
  seedCandidates_follows aside_closed (ensureLedger_aside actor)
    (fun s l es _ => aside_setLedger (by simp) actor _ s) candidates

/-- The one-shot flags that an increase uses up are no part of any controller. -/
theorem modifiedAmount_aside (t : Tuning) (candidate : Entity) (base : Int64) :
    Follows aside (modifiedAmount t candidate base) :=
  modifiedAmount_follows aside_closed
    (fun s _ => aside_update (by intro _; rfl) (by intro _; rfl) candidate s) base

theorem increase_aside (t : Tuning) (actor candidate : Entity) (base : Int64) :
    Follows aside (increase t actor candidate base) :=
  increase_follows aside_closed (modifiedAmount_aside t candidate base) (ensureLedger_aside actor)
    (aside_publish (by simp [Event.IsAside]))
    (fun s _ _ _ _ => aside_setLedger (by simp [Event.IsAside]) actor _ s)

end Threat

/-- The requests that look to a ledger, to a passive state or to the table of alerts. -/
def Request.IsAside : Request → Prop
  | .increase _ _ _ | .seedCandidates _ _ | .decay _ | .prune _ | .reset _ | .bias _ _
  | .expire => True
  | .think _ | .update _ | .recordDamage _ _ _ | .arriveHome _ | .propagate _ _ => False

theorem Request.perform_aside (setting : Setting) {request : Request} (h : request.IsAside) :
    Action.Follows Course.aside (request.perform setting) := by
  cases request with
  | increase actor candidate base =>
    exact .regardless (Threat.increase_aside _ actor candidate base)
  | seedCandidates actor candidates =>
    exact .regardless (Threat.seedCandidates_aside _ actor candidates)
  | decay actor => exact .regardless fun s => (Threat.decay_tended _ actor s).aside
  | prune actor => exact .regardless fun s => (Threat.prune_tended actor s).aside
  | reset actor => exact .regardless fun s => (Threat.reset_tended actor s).aside
  | bias actor candidates =>
    exact .regardless fun s => (Engine.biasPass_tended _ actor candidates s).aside
  | expire => exact fun s => ⟨.refl s.world, fun _ => rfl, by simp [perform, Action.setAlerts]⟩
  | think actor => exact h.elim
  | update seconds => exact h.elim
  | recordDamage actor attacker amount => exact h.elim
  | arriveHome actor => exact h.elim
  | propagate caller enemy => exact h.elim

end Hostility
