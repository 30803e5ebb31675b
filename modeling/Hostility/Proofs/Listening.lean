import Hostility.Proofs.Asides
import Hostility.Proofs.Belief

/-!
A listener who is right. Whoever believes of every actor what its controller holds keeps doing so
while controllers are written together with the events that report them, and need not listen to
whatever an actor does about its threat, its damage log and the members of its own faction.
-/
namespace Hostility

variable {actor : Entity} {s : State} {b : Beliefs} {w w' : World}

/-- What a listener should believe of an actor. -/
def World.belief? (w : World) (e : Entity) : Option Belief :=
  (w.controller? e).map Controller.belief

/-- A listener who is right about every actor. An actor that is idle has no target, so that the
event of going idle tells all, and of a handle that nobody has borne nothing is believed yet. -/
structure Faithful (b : Beliefs) (w : World) : Prop where
  actors : ∀ e x, w.belief? e = some x → b e = x
  idle : ∀ e x, w.belief? e = some x → x.state = .idle → x.target = none
  newcomers : ∀ e, w.Unborn e → b e = ⟨.idle, none⟩

namespace Faithful

theorem congr (h : Faithful b w) (hbelief : ∀ e, w'.belief? e = w.belief? e)
    (hnext : ∀ id, w'.nextGeneration id = w.nextGeneration id) : Faithful b w' where
  actors e x hx := h.actors e x ((hbelief e).symm.trans hx)
  idle e x hx := h.idle e x ((hbelief e).symm.trans hx)
  newcomers e he := h.newcomers e (by rwa [World.Unborn, ← hnext])

theorem target_eq_none (h : Faithful b w) {c : Controller} (hc : w.controller? actor = some c)
    (hidle : c.state = .idle) : c.target = none :=
  h.idle actor c.belief (by rw [World.belief?, hc, Option.map_some]) hidle

theorem eq_belief (h : Faithful b w) {c : Controller} (hc : w.controller? actor = some c) :
    b actor = c.belief :=
  h.actors actor c.belief (by rw [World.belief?, hc, Option.map_some])

end Faithful

theorem belief?_setController (hw : w.contains actor = true) (c : Controller) (e : Entity) :
    (w.setController actor c).belief? e = if e = actor then some c.belief else w.belief? e := by
  rw [World.belief?, World.controller?_setController hw, apply_ite (Option.map Controller.belief)]
  rfl

/-- The one way in which an actor's belief changes: its controller is written, and the events on
the way report from the old controller to the new one. -/
theorem Faithful.setController {c c' : Controller} {events : List Event} (h : Faithful b w)
    (hc : w.controller? actor = some c) (hreports : Reports actor c events c')
    (hidle : c'.state = .idle → c'.target = none) :
    b.AllAgree events ∧ Faithful (b.hearAll events) (w.setController actor c') := by
  obtain ⟨hagree, hheard⟩ := hreports b (h.eq_belief hc)
  have hw : w.contains actor = true := World.contains_of_bind hc
  refine ⟨hagree, ?_⟩
  rw [hheard]
  constructor
  · intro e x hx
    rw [belief?_setController hw] at hx
    rw [Beliefs.set_apply]
    split at hx
    · next he => rw [if_pos he]; exact Option.some.inj hx
    · next he => rw [if_neg he]; exact h.actors e x hx
  · intro e x hx
    rw [belief?_setController hw] at hx
    split at hx
    · obtain rfl := Option.some.inj hx
      exact hidle
    · exact h.idle e x hx
  · intro e he
    have hborn : w.Unborn e := by
      rwa [World.Unborn, World.setController, World.nextGeneration_update] at he
    have hne : e ≠ actor := by
      rintro rfl
      exact World.not_unborn_of_contains hw hborn
    rw [Beliefs.set_apply, if_neg hne]
    exact h.newcomers e hborn

namespace Course

/-- Whoever was right before is right afterwards, and heard nothing at odds with its belief. -/
def informing : Course := fun s events s' =>
  ∀ b, Faithful b s.world → b.AllAgree events ∧ Faithful (b.hearAll events) s'.world

theorem informing_closed : informing.Closed where
  refl _ _ hb := ⟨trivial, hb⟩
  trans h h' b hb := by
    obtain ⟨hagree, hfaithful⟩ := h b hb
    obtain ⟨hagree', hfaithful'⟩ := h' _ hfaithful
    refine ⟨Beliefs.allAgree_append hagree hagree', ?_⟩
    rwa [Beliefs.hearAll_append]

/-- Nothing happens that a listener would have to note. -/
def quiet : Course := fun s events s' =>
  (∀ e, s'.world.belief? e = s.world.belief? e) ∧
    (∀ id, s'.world.nextGeneration id = s.world.nextGeneration id) ∧ ∀ e ∈ events, e.IsQuiet

theorem quiet_closed : quiet.Closed where
  refl _ := ⟨fun _ => rfl, fun _ => rfl, by simp⟩
  trans h h' := by
    refine ⟨fun e => (h'.1 e).trans (h.1 e), fun id => (h'.2.1 id).trans (h.2.1 id), ?_⟩
    intro e he
    rcases List.mem_append.mp he with he | he
    · exact h.2.2 e he
    · exact h'.2.2 e he

theorem informing_of_quiet {s s' : State} {events : List Event} (h : quiet s events s') :
    informing s events s' := by
  intro b hb
  obtain ⟨hbelief, hnext, hevents⟩ := h
  have hheard := b.hearAll_of_quiet hevents
  refine ⟨hheard.1, ?_⟩
  rw [hheard.2]
  exact hb.congr hbelief hnext

end Course

/-- An actor may look to its own threat before its controller is written. -/
theorem informing_setController {s' : State} {c c' : Controller} {events : List Event}
    (hworld : s.world.SameButThreat actor s'.world) (hc : s.world.controller? actor = some c)
    (hreports : Reports actor c events c') (hidle : c'.state = .idle → c'.target = none) :
    Course.informing s events { s' with world := s'.world.setController actor c' } := by
  intro b hb
  have hbelief : ∀ e, s'.world.belief? e = s.world.belief? e := by
    intro e
    rw [World.belief?, World.belief?, hworld.controller?_eq]
  exact (hb.congr hbelief hworld.next).setController ((hworld.controller?_eq actor).trans hc)
    hreports hidle

theorem Event.IsAside.isQuiet {e : Event} (h : e.IsAside) : e.IsQuiet := by
  intro b
  cases e <;> first | exact ⟨trivial, rfl⟩ | exact h.elim

theorem Course.quiet_of_aside {s s' : State} {events : List Event} (h : aside s events s') :
    quiet s events s' := by
  obtain ⟨hfolk, hcontrollers, hevents⟩ := h
  refine ⟨fun e => ?_, hfolk.next, fun e he => (hevents e he).isQuiet⟩
  rw [World.belief?, World.belief?, hcontrollers]

theorem Tended.quiet {α : Type} {o : Outcome α} (h : Tended actor s o) :
    Course.quiet s o.events o.state :=
  Course.quiet_of_aside h.aside

theorem belief?_update {f : Components → Components}
    (h : ∀ c, (f c).controller.map Controller.belief = c.controller.map Controller.belief)
    (w : World) (e k : Entity) : (w.update e f).belief? k = w.belief? k := by
  have hbind : ∀ v : World, v.belief? k =
      (v.get? k).bind fun c => c.controller.map Controller.belief := by
    intro v
    rw [World.belief?, World.controller?, Option.map_bind]
    rfl
  rw [hbind, hbind]
  exact World.bind_get?_update h w e k

theorem quiet_update {f : Components → Components}
    (h : ∀ c, (f c).controller.map Controller.belief = c.controller.map Controller.belief)
    (e : Entity) (s : State) : Course.quiet s [] { s with world := s.world.update e f } :=
  ⟨belief?_update h s.world e, World.nextGeneration_update s.world e f, by simp⟩

namespace Engine

open Course Hostility.Action

/-- A hit may make the actor strike back, but neither rouses it nor gives it a target. -/
theorem recordDamage_quiet (t : Tuning) (actor attacker : Entity) (amount : Int64) :
    Follows quiet (recordDamage t actor attacker amount) := by
  refine recordDamage_follows quiet_closed (fun hit => quiet_update (by intro _; rfl) actor)
    (fun s c hc => ?_) fun s => quiet_of_aside (Threat.increase_aside t actor attacker amount s)
  refine ⟨fun e => ?_, World.nextGeneration_update s.world actor _, by simp⟩
  show (s.world.setController actor (c.retaliateAgainst attacker)).belief? e = _
  rw [belief?_setController (World.contains_of_bind hc)]
  split
  · next he => rw [he, World.belief?, hc]; rfl
  · rfl

end Engine

end Hostility
