import Hostility.Proofs.ScriptedHits

/-!
Refusals. An operation is refused for its entities only: the one that should act is not in the world
or is no actor, or the other one is not in the world. Both are looked up before anything is done,
and whatever is done after that is never refused.
-/
namespace Hostility

variable {α β : Type} {actor other : Entity} {w : World} {s : State} {refusal : Refusal}

/-- What is wrong with an entity that is asked to act. -/
inductive World.ActorFault (w : World) (actor : Entity) : Refusal → Prop
  | absent (missing : w.contains actor = false) : ActorFault w actor (.noSuchEntity actor)
  | inert (present : w.contains actor = true) (mindless : w.controller? actor = none) :
    ActorFault w actor (.notAnActor actor)

/-- What is wrong with two entities of which the first is asked to take note of the second. -/
inductive World.PairFault (w : World) (actor other : Entity) : Refusal → Prop
  | actor {refusal : Refusal} (fault : w.ActorFault actor refusal) : PairFault w actor other refusal
  | other {c : Controller} (fine : w.controller? actor = some c)
    (missing : w.contains other = false) : PairFault w actor other (.noSuchEntity other)

theorem World.exists_controller_of_faultless (h : ∀ refusal, ¬ w.ActorFault actor refusal) :
    ∃ c, w.controller? actor = some c := by
  cases hc : w.controller? actor with
  | some c => exact ⟨c, rfl⟩
  | none =>
    cases hw : w.contains actor with
    | true => exact (h _ (.inert hw hc)).elim
    | false => exact (h _ (.absent hw)).elim

theorem World.not_actorFault {c : Controller} (h : w.controller? actor = some c) :
    ¬ w.ActorFault actor refusal := by
  intro hfault
  cases hfault with
  | absent missing => rw [contains_of_bind h] at missing; cases missing
  | inert present mindless => rw [h] at mindless; cases mindless

theorem World.pairFault_iff {c : Controller} (h : w.controller? actor = some c) :
    w.PairFault actor other refusal ↔
      refusal = .noSuchEntity other ∧ w.contains other = false := by
  constructor
  · intro hfault
    cases hfault with
    | actor fault => exact (not_actorFault h fault).elim
    | other fine missing => exact ⟨rfl, missing⟩
  · rintro ⟨rfl, hmissing⟩
    exact .other h hmissing

theorem World.exists_controller_of_pair_faultless
    (h : ∀ refusal, ¬ w.PairFault actor other refusal) :
    (∃ c, w.controller? actor = some c) ∧ w.contains other = true := by
  obtain ⟨c, hc⟩ := exists_controller_of_faultless fun refusal hfault => h refusal (.actor hfault)
  exact ⟨⟨c, hc⟩, Bool.of_not_eq_false fun hmissing => h _ (.other hc hmissing)⟩

namespace Action

/-- From a state the action is refused for the given faults and for nothing else, and when it is
refused it has changed nothing and has told nothing. -/
structure RefusedFor (fault : Refusal → Prop) (m : Action α) (s : State) : Prop where
  refused_iff : ∀ refusal, (m s).result = .error refusal ↔ fault refusal
  untouched : ∀ refusal, (m s).result = .error refusal → m s = ⟨.error refusal, s, []⟩

/-- It is enough that every fault is refused at once, and that without one the action succeeds. -/
theorem RefusedFor.intro {fault : Refusal → Prop} {m : Action α}
    (hrefused : ∀ refusal, fault refusal → m s = ⟨.error refusal, s, []⟩)
    (haccepted : (∀ refusal, ¬ fault refusal) → ∃ a, (m s).result = .ok a) :
    RefusedFor fault m s := by
  have hfault : ∀ refusal, (m s).result = .error refusal → fault refusal := by
    intro refusal herror
    by_contra hnot
    obtain ⟨a, ha⟩ := haccepted fun refusal' hfault' => by
      rw [hrefused refusal' hfault'] at herror
      exact hnot (Except.error.inj herror ▸ hfault')
    rw [herror] at ha
    cases ha
  exact
    { refused_iff := fun refusal => ⟨hfault refusal, fun h => by rw [hrefused refusal h]⟩
      untouched := fun refusal herror => hrefused refusal (hfault refusal herror) }

theorem controllerOf_of_fault (h : s.world.ActorFault actor refusal) :
    controllerOf actor s = ⟨.error refusal, s, []⟩ := by
  cases h with
  | absent missing => simp [controllerOf, missing]
  | inert present mindless => simp [controllerOf, present, mindless]

theorem controllerOf_bind_of_fault (h : s.world.ActorFault actor refusal)
    (f : Controller → Action β) : (controllerOf actor >>= f) s = ⟨.error refusal, s, []⟩ := by
  have hrefused := controllerOf_of_fault h
  rw [bind_of_error (by rw [hrefused]), hrefused]

end Action

open Hostility.Action

namespace Engine

theorem think_refusedFor (setting : Setting) (actor : Entity) (s : State) :
    RefusedFor (s.world.ActorFault actor) (think setting actor) s := by
  refine .intro (fun refusal hfault => ?_) fun hfine => ?_
  · unfold think upkeep
    rw [bind_assoc]
    exact controllerOf_bind_of_fault hfault _
  · obtain ⟨c, hc⟩ := World.exists_controller_of_faultless hfine
    exact think_accepted setting hc

theorem arriveHome_refusedFor (actor : Entity) (s : State) :
    RefusedFor (s.world.ActorFault actor) (arriveHome actor) s := by
  refine .intro (fun refusal hfault => controllerOf_bind_of_fault hfault _) fun hfine => ?_
  obtain ⟨c, hc⟩ := World.exists_controller_of_faultless hfine
  exact ⟨(), arriveHome_accepted hc⟩

theorem recordDamage_refusedFor (t : Tuning) (actor attacker : Entity) (amount : Int64)
    (s : State) :
    RefusedFor (s.world.PairFault actor attacker) (recordDamage t actor attacker amount) s := by
  refine .intro (fun refusal hfault => ?_) fun hfine => ?_
  · unfold recordDamage
    cases hfault with
    | actor fault => exact controllerOf_bind_of_fault fault _
    | other fine missing =>
      rw [bind_of_ok (by rw [controllerOf_eq fine]), controllerOf_eq fine]
      simp [missing, refuse]
  · obtain ⟨⟨c, hc⟩, hattacker⟩ := World.exists_controller_of_pair_faultless hfine
    exact (recordDamage_run t hc hattacker amount).1

end Engine

theorem Threat.increase_refusedFor (t : Tuning) (actor candidate : Entity) (base : Int64)
    (s : State) :
    RefusedFor (s.world.PairFault actor candidate) (increase t actor candidate base) s := by
  refine .intro (fun refusal hfault => ?_) fun hfine => ?_
  · unfold increase
    cases hfault with
    | actor fault => exact controllerOf_bind_of_fault fault _
    | other fine missing =>
      rw [bind_of_ok (by rw [controllerOf_eq fine]), controllerOf_eq fine]
      simp [missing, refuse]
  · obtain ⟨⟨c, hc⟩, hcandidate⟩ := World.exists_controller_of_pair_faultless hfine
    exact increase_accepted t hc hcandidate base

/-- A think and an arrival are refused exactly if their entity is not in the world or is no actor,
and a hit and an increase of threat also if the other entity is not in the world. A refusal leaves
the world, the random source, the clock and the alerts as they were, and nothing is told. -/
theorem Engine.refusals_exact_and_atomic (setting : Setting) (actor other : Entity) (amount : Int64)
    (s : State) :
    RefusedFor (s.world.ActorFault actor) (think setting actor) s ∧
      RefusedFor (s.world.ActorFault actor) (arriveHome actor) s ∧
      RefusedFor (s.world.PairFault actor other)
        (recordDamage setting.tuning actor other amount) s ∧
      RefusedFor (s.world.PairFault actor other)
        (Threat.increase setting.tuning actor other amount) s :=
  ⟨think_refusedFor setting actor s, arriveHome_refusedFor actor s,
    recordDamage_refusedFor setting.tuning actor other amount s,
    Threat.increase_refusedFor setting.tuning actor other amount s⟩

end Hostility
