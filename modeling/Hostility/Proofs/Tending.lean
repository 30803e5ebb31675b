import Hostility.Engine.Think
import Hostility.Proofs.Newcomers

/-!
What an actor does about its own threat. Resets, decay, seeding, the bias pass and the selections
are never refused to an actor in the world, and nothing shows of them but its ledger, its bias, the
random source and events of their own kinds.
-/
namespace Hostility

/-- The parts of an entity without its ledger and its bias. -/
def Components.withoutThreat (c : Components) : Components :=
  { c with ledger := none, bias := none }

/-- Two worlds that differ in the ledger and the bias of one actor at most. -/
structure World.SameButThreat (actor : Entity) (w w' : World) : Prop where
  others : ∀ e, e ≠ actor → w'.get? e = w.get? e
  own : (w'.get? actor).map Components.withoutThreat = (w.get? actor).map Components.withoutThreat
  next : ∀ id, w'.nextGeneration id = w.nextGeneration id

namespace World.SameButThreat

variable {actor : Entity} {w w' w'' : World}

theorem refl (actor : Entity) (w : World) : SameButThreat actor w w :=
  ⟨fun _ _ => rfl, rfl, fun _ => rfl⟩

theorem trans (h : SameButThreat actor w w') (h' : SameButThreat actor w' w'') :
    SameButThreat actor w w'' where
  others e he := (h'.others e he).trans (h.others e he)
  own := h'.own.trans h.own
  next id := (h'.next id).trans (h.next id)

theorem update {f : Components → Components} (h : ∀ c, (f c).withoutThreat = c.withoutThreat) :
    SameButThreat actor w (w.update actor f) where
  others e he := by rw [get?_update, if_neg he]
  own := by
    rw [get?_update, if_pos rfl, Option.map_map]
    congr 1
    exact funext h
  next id := nextGeneration_update w actor f id

theorem setLedger (l : Ledger) : SameButThreat actor w (w.setLedger actor l) :=
  .update fun _ => rfl

theorem setBias (b : PassiveBias) : SameButThreat actor w (w.setBias actor b) :=
  .update fun _ => rfl

/-- Whatever does not depend on the ledger and the bias is the same for every entity. -/
theorem bind_eq {β : Type} {p : Components → Option β} (h : SameButThreat actor w w')
    (hp : ∀ c, p c.withoutThreat = p c) (e : Entity) : (w'.get? e).bind p = (w.get? e).bind p := by
  by_cases he : e = actor
  · subst he
    have hown := congrArg (Option.bind · p) h.own
    have hcomp : p ∘ Components.withoutThreat = p := funext hp
    simpa only [Option.bind_map, hcomp] using hown
  · rw [h.others e he]

theorem controller?_eq (h : SameButThreat actor w w') (e : Entity) :
    w'.controller? e = w.controller? e := h.bind_eq (fun _ => rfl) e

theorem name?_eq (h : SameButThreat actor w w') (e : Entity) : w'.name? e = w.name? e :=
  h.bind_eq (fun _ => rfl) e

theorem contains_eq (h : SameButThreat actor w w') (e : Entity) : w'.contains e = w.contains e := by
  have hsome := h.bind_eq (p := fun _ => some ()) (fun _ => rfl) e
  rw [contains, contains]
  cases hw : w'.get? e <;> cases hw' : w.get? e <;> simp_all

theorem isPresent_eq (h : SameButThreat actor w w') (e : Entity) :
    w'.isPresent e = w.isPresent e := by
  have halive := h.bind_eq (p := fun c => some c.isAlive) (fun _ => rfl) e
  rw [isPresent, isPresent]
  cases hw : w'.get? e <;> cases hw' : w.get? e <;> simp_all

theorem isReserved_eq (h : SameButThreat actor w w') (t : Tuning) (e : Entity) :
    Threat.isReserved t w' e = Threat.isReserved t w e := by
  rw [Threat.isReserved, Threat.isReserved, h.name?_eq]

end World.SameButThreat

/-- The events by which an actor tells what it does about its own threat. -/
def Event.IsUpkeepOf (actor : Entity) : Event → Prop
  | .ledgerReset a | .threatDecayed a _ _ | .deceptionAttempted a _ _ _ => a = actor
  | _ => False

/-- An outcome in which an actor saw to its own threat and was not refused. -/
structure Tended {α : Type} (actor : Entity) (s : State) (o : Outcome α) : Prop where
  accepted : ∃ a, o.result = .ok a
  world : s.world.SameButThreat actor o.state.world
  now : o.state.now = s.now
  alerts : o.state.alerts = s.alerts
  events : ∀ e ∈ o.events, e.IsUpkeepOf actor

namespace Tended

variable {α β : Type} {actor : Entity} {s : State}

theorem pure (a : α) : Tended actor s ((pure a : Action α) s) :=
  ⟨⟨a, rfl⟩, .refl actor s.world, rfl, rfl, by simp⟩

theorem bind {m : Action α} {f : α → Action β} (hm : Tended actor s (m s))
    (hf : ∀ a, (m s).result = .ok a → Tended actor (m s).state (f a (m s).state)) :
    Tended actor s ((m >>= f) s) := by
  obtain ⟨a, ha⟩ := hm.accepted
  have hnext := hf a ha
  rw [Action.bind_of_ok ha]
  refine ⟨hnext.accepted, hm.world.trans hnext.world, hnext.now.trans hm.now,
    hnext.alerts.trans hm.alerts, fun e he => ?_⟩
  rcases List.mem_append.mp he with he | he
  · exact hm.events e he
  · exact hnext.events e he

theorem setWorld {w : World} (h : s.world.SameButThreat actor w) :
    Tended actor s (Action.setWorld w s) :=
  ⟨⟨(), rfl⟩, h, rfl, rfl, by simp [Action.setWorld]⟩

theorem publish {events : List Event} (h : ∀ e ∈ events, e.IsUpkeepOf actor) :
    Tended actor s (Action.publish events s) :=
  ⟨⟨(), rfl⟩, .refl actor s.world, rfl, rfl, h⟩

theorem draw (f : RandomSource → α × RandomSource) : Tended actor s (Action.draw f s) :=
  ⟨⟨_, rfl⟩, .refl actor s.world, rfl, rfl, by simp [Action.draw]⟩

theorem insert {f : Components → Components} (hw : s.world.contains actor = true)
    (hf : ∀ c, (f c).withoutThreat = c.withoutThreat) :
    Tended actor s (Action.insert actor f s) := by
  rw [Action.insert_of_contains hw]
  exact ⟨⟨(), rfl⟩, .update hf, rfl, rfl, by simp⟩

theorem whenever {condition : Bool} {m : Action Unit}
    (h : condition = true → Tended actor s (m s)) :
    Tended actor s (Action.when condition m s) := by
  cases condition with
  | true => exact h rfl
  | false => exact pure ()

end Tended

end Hostility
