import Hostility.Proofs.Asides
import Hostility.Proofs.Pieces

/-!
What the engine leaves to the host. It writes controllers, ledgers, passive states, damage logs and
modifiers. Whatever else an entity is made of stays as it is, and nobody comes or goes.
-/
namespace Hostility

variable {actor : Entity} {w w' w'' : World} {s : State} {events : List Event}

/-- The parts of an entity that the engine only reads. -/
def Components.nature (c : Components) : Components :=
  { c with modifiers := none, controller := none, damageLog := none, ledger := none, bias := none }

/-- Two worlds with the same entities of the same nature, in which the same handles are still to be
borne. -/
structure World.SameNature (w w' : World) : Prop where
  parts : ∀ e, (w'.get? e).map Components.nature = (w.get? e).map Components.nature
  next : ∀ id, w'.nextGeneration id = w.nextGeneration id

namespace World.SameNature

theorem refl (w : World) : SameNature w w := ⟨fun _ => rfl, fun _ => rfl⟩

theorem trans (h : SameNature w w') (h' : SameNature w' w'') : SameNature w w'' where
  parts e := (h'.parts e).trans (h.parts e)
  next id := (h'.next id).trans (h.next id)

theorem update {f : Components → Components} (h : ∀ c, (f c).nature = c.nature) (w : World)
    (e : Entity) : SameNature w (w.update e f) where
  parts k := by
    rw [get?_update]
    split
    · next hk =>
      rw [hk, Option.map_map]
      exact congrArg (Option.map · _) (funext h)
    · rfl
  next id := nextGeneration_update w e f id

theorem updateAll {f : Components → Components} (h : ∀ c, (f c).nature = c.nature) (w : World) :
    SameNature w (w.updateAll f) where
  parts k := by
    rw [get?_updateAll, Option.map_map]
    exact congrArg (Option.map · _) (funext h)
  next id := nextGeneration_updateAll w f id

/-- Whatever depends on nature alone is the same for every entity. -/
theorem bind_eq {β : Type} {p : Components → Option β} (h : SameNature w w')
    (hp : ∀ c, p c.nature = p c) (e : Entity) : (w'.get? e).bind p = (w.get? e).bind p := by
  have hnature := congrArg (Option.bind · p) (h.parts e)
  have hcomp : p ∘ Components.nature = p := funext hp
  simpa only [Option.bind_map, hcomp] using hnature

theorem contains_eq (h : SameNature w w') (e : Entity) : w'.contains e = w.contains e := by
  have hsome := congrArg Option.isSome (h.parts e)
  rwa [Option.isSome_map, Option.isSome_map] at hsome

theorem isPresent_eq (h : SameNature w w') (e : Entity) : w'.isPresent e = w.isPresent e := by
  have halive := h.bind_eq (p := fun c => some c.isAlive) (fun _ => rfl) e
  rw [isPresent, isPresent]
  cases hw : w'.get? e <;> cases hw' : w.get? e <;> simp_all

theorem isReserved_eq (h : SameNature w w') (t : Tuning) (e : Entity) :
    Threat.isReserved t w' e = Threat.isReserved t w e := by
  have hname : w'.name? e = w.name? e := h.bind_eq (fun _ => rfl) e
  rw [Threat.isReserved, Threat.isReserved, hname]

end World.SameNature

theorem World.SameButThreat.sameNature (h : w.SameButThreat actor w') : w.SameNature w' where
  parts e := by
    rw [Option.map_eq_bind, Option.map_eq_bind]
    exact h.bind_eq (fun _ => rfl) e
  next := h.next

open Course Hostility.Action

def Course.natural : Course := fun s _ s' => s.world.SameNature s'.world

theorem Course.natural_closed : natural.Closed where
  refl s := .refl s.world
  trans h h' := h.trans h'

theorem natural_update {f : Components → Components} (h : ∀ c, (f c).nature = c.nature)
    (e : Entity) (s : State) :
    natural s events { s with world := s.world.update e f } := .update h s.world e

namespace Engine

theorem natural_pieces (setting : Setting) : natural.Pieces setting where
  closed := natural_closed
  elapse seconds s := .updateAll (by intro _; rfl) s.world
  note s _ := natural_closed.refl s
  drawn s _ := natural_closed.refl s
  news _ _ s := natural_closed.refl s
  setBias actor _ := natural_update (by intro _; rfl) actor
  rewrite s actor _ _ _ := natural_update (by intro _; rfl) actor s
  make actor s _ := natural_update (by intro _; rfl) actor s
  reset actor s := (Threat.reset_tended actor s).world.sameNature
  prune actor s := (Threat.prune_tended actor s).world.sameNature
  lower actor s := (Threat.lower_tended setting.tuning actor s).world.sameNature
  raise actor _ s _ _ _ _ := natural_update (by intro _; rfl) actor s
  seedAll actor s _ _ _ := natural_update (by intro _; rfl) actor s
  seedEnemy ally _ := natural_update (by intro _; rfl) ally
  bias actor s _ _ _ _ := natural_update (by intro _; rfl) actor s
  rate actor s _ _ _ _ := natural_update (by intro _; rfl) actor s

theorem natural_spends (source : Entity) : natural.Spends source where
  spend _ := natural_update (by intro _; rfl) source
  skip _ s := natural_closed.refl s

end Engine

theorem Request.perform_natural (setting : Setting) (request : Request) :
    Follows natural (request.perform setting) :=
  (Engine.natural_pieces setting).perform (fun actor _ => natural_update (by intro _; rfl) actor)
    fun source _ => Engine.natural_spends source

end Hostility
