import Hostility.Proofs.RollCall

/-!
Pruning and decay. Pruning drops exactly the entries of those who died or left the world, a second
pruning finds nobody, and a decay right after a pruning does all that the decay alone would have
done.
-/
namespace Hostility

/-- The threat that an actor has recorded of an entity. -/
def World.threat? (w : World) (actor e : Entity) : Option Int64 :=
  (w.ledger? actor).bind (·.value? e)

/-- Whether an entity is in the world with hit points, and has none left. -/
def World.IsDead (w : World) (e : Entity) : Prop :=
  ∃ c h, w.get? e = some c ∧ c.health = some h ∧ h.isAlive = false

theorem World.isPresent_eq_false_iff {w : World} {e : Entity} :
    w.isPresent e = false ↔ w.contains e = false ∨ w.IsDead e := by
  unfold isPresent contains IsDead
  cases w.get? e with
  | none => simp
  | some c => cases hhealth : c.health <;> simp [Components.isAlive, hhealth]

namespace Threat

variable {t : Tuning} {w : World} {actor e : Entity} {l : Ledger} {s : State}

theorem mem_departed :
    e ∈ departed w l ↔ l.contains e = true ∧ (w.contains e = false ∨ w.IsDead e) := by
  rw [departed, List.mem_filter, Ledger.mem_tracked, Bool.not_eq_true',
    World.isPresent_eq_false_iff]

/-- Whoever stays in a pruned ledger has the threshold that it had. -/
theorem thresholds_callRoll_pruned (w : World) (l : Ledger) :
    (callRoll w (pruned w l)).thresholds.get? = (callRoll w l).thresholds.get? := by
  have hagain : pruned w (pruned w l) = pruned w l := by
    rw [pruned, departed_pruned]
    rfl
  funext e
  rw [get?_thresholds_callRoll, get?_thresholds_callRoll, hagain]

/-- The entries that a pruning would drop are those that a decay drops by itself. -/
theorem prune_decay_run (t : Tuning) (actor : Entity) (s : State) :
    (do let _ ← prune actor; decay t actor) s = decay t actor s := by
  cases hl : s.world.ledger? actor with
  | none =>
    rw [Action.bind_run, prune_of_no_ledger hl]
    simp only [decay_of_no_ledger hl, List.nil_append]
  | some l =>
    let after : State := { s with world := forget s.world actor (departed s.world l) }
    have hsame : s.world.SameButThreat actor after.world :=
      forget_sameButThreat s.world actor (departed s.world l)
    have hafter : after.world.ledger? actor = some (pruned s.world l) := ledger?_after_prune hl
    have hnobody : departed after.world (pruned s.world l) = [] := by
      rw [departed_congr hsame, departed_pruned]
    have hthresholds : (callRoll after.world (pruned s.world l)).thresholds.get? =
        (callRoll s.world l).thresholds.get? := by
      rw [callRoll_congr hsame, thresholds_callRoll_pruned]
    have hdecay : decay t actor after = decay t actor s := by
      rw [decay_of_ledger hafter, decay_of_ledger hl, hnobody, hthresholds, forget_nobody]
    have hprune : prune actor s = ⟨.ok (departed s.world l), after, []⟩ := prune_of_ledger hl
    rw [Action.bind_run, hprune]
    simp only [hdecay, List.nil_append]

theorem prune_prune_run (actor : Entity) (s : State) :
    prune actor (prune actor s).state = ⟨.ok [], (prune actor s).state, []⟩ := by
  cases hl : s.world.ledger? actor with
  | none =>
    rw [prune_of_no_ledger hl]
    exact prune_of_no_ledger hl
  | some l =>
    rw [prune_of_ledger hl, prune_of_ledger (ledger?_after_prune hl),
      departed_congr (forget_sameButThreat s.world actor (departed s.world l)), departed_pruned]
    rfl

/-- A pruning before a decay shows nowhere: the amount, the events and the world are those of the
decay alone. A pruning lists the tracked entities that died or left, once each and in their order,
takes their entries away and leaves every other entry as it was; the next one does nothing. -/
theorem prune_agrees_with_decay (t : Tuning) (actor : Entity) (s : State) :
    (do let _ ← prune actor; decay t actor) s = decay t actor s ∧
      prune actor (prune actor s).state = ⟨.ok [], (prune actor s).state, []⟩ ∧
      ∃ gone after, prune actor s = ⟨.ok gone, { s with world := after }, []⟩ ∧
        gone.Pairwise (· < ·) ∧
        (∀ e, e ∈ gone ↔ (s.world.threat? actor e).isSome ∧
          (s.world.contains e = false ∨ s.world.IsDead e)) ∧
        ∀ e, after.threat? actor e = if e ∈ gone then none else s.world.threat? actor e := by
  refine ⟨prune_decay_run t actor s, prune_prune_run actor s, ?_⟩
  cases hl : s.world.ledger? actor with
  | none =>
    refine ⟨[], s.world, prune_of_no_ledger hl, .nil, fun e => ?_, fun e => ?_⟩
    · simp [World.threat?, hl]
    · simp
  | some l =>
    refine ⟨departed s.world l, _, prune_of_ledger hl, l.entries.keys_sorted.filter _,
      fun e => ?_, fun e => ?_⟩
    · rw [mem_departed, World.threat?, hl]
      rfl
    · rw [World.threat?, ledger?_after_prune hl, Option.bind_some, pruned,
        Ledger.value?_removeAll, World.threat?, hl]
      rfl

end Threat

end Hostility
