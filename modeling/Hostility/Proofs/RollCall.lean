import Hostility.Proofs.LedgerView
import Hostility.Proofs.Tending

/-!
The roll call before a decay. A decay learns in one pass over its ledger who is gone and which
thresholds the passive sources among the others have, while pruning looks for the gone alone. The
two find the same entities gone, so a decay is a pruning after which the remaining entries are
lowered under the thresholds in the world.
-/
namespace Hostility

/-- The threshold of a passive source. -/
def World.passive? (w : World) (e : Entity) : Option Int64 := (w.get? e).bind (·.passive)

theorem World.SameButThreat.passive?_eq {actor : Entity} {w w' : World}
    (h : w.SameButThreat actor w') : w'.passive? = w.passive? :=
  funext (h.bind_eq fun _ => rfl)

namespace Threat

variable {t : Tuning} {w w' : World} {actor e : Entity} {l : Ledger} {s : State}

/-- A ledger without its entries for those who died or left. -/
def pruned (w : World) (l : Ledger) : Ledger := l.removeAll (departed w l)

theorem tracked_pruned (w : World) (l : Ledger) :
    (pruned w l).tracked = l.tracked.filter w.isPresent := by
  rw [pruned, Ledger.tracked_removeAll]
  refine List.filter_congr fun e he => ?_
  cases hpresent : w.isPresent e <;> simp [departed, he, hpresent]

theorem value?_pruned {w : World} {e : Entity} (h : w.isPresent e = true) (l : Ledger) :
    (pruned w l).value? e = l.value? e := by
  rw [pruned, Ledger.value?_removeAll, if_neg]
  simp [departed, h]

theorem departed_congr (h : w.SameButThreat actor w') (l : Ledger) :
    departed w' l = departed w l := by
  simp only [departed, h.isPresent_eq]

theorem pruned_congr (h : w.SameButThreat actor w') (l : Ledger) : pruned w' l = pruned w l := by
  rw [pruned, pruned, departed_congr h]

theorem departed_pruned (w : World) (l : Ledger) : departed w (pruned w l) = [] := by
  rw [departed, tracked_pruned, List.filter_filter, List.filter_eq_nil_iff]
  intro e _
  cases w.isPresent e <;> simp

theorem forget_sameButThreat (w : World) (actor : Entity) (gone : List Entity) :
    w.SameButThreat actor (forget w actor gone) := by
  unfold forget
  split
  · exact .refl actor w
  · exact .update fun _ => rfl

theorem ledger?_forget (w : World) (actor : Entity) (gone : List Entity) :
    (forget w actor gone).ledger? actor = (w.ledger? actor).map (·.removeAll gone) := by
  unfold forget
  split
  · next hnobody =>
    rw [List.isEmpty_iff.mp hnobody]
    cases w.ledger? actor <;> rfl
  · rw [World.ledger?, World.get?_update, if_pos rfl, World.ledger?]
    cases w.get? actor <;> rfl

@[simp] theorem forget_nobody (w : World) (actor : Entity) : forget w actor [] = w := rfl

theorem prune_of_ledger (hl : s.world.ledger? actor = some l) :
    prune actor s =
      ⟨.ok (departed s.world l),
        { s with world := forget s.world actor (departed s.world l) }, []⟩ := by
  unfold prune
  rw [Action.world_bind, hl]
  rfl

theorem ledger?_after_prune (hl : s.world.ledger? actor = some l) :
    (forget s.world actor (departed s.world l)).ledger? actor = some (pruned s.world l) := by
  rw [ledger?_forget, hl]
  rfl

theorem prune_of_no_ledger (hl : s.world.ledger? actor = none) :
    prune actor s = ⟨.ok [], s, []⟩ := by
  unfold prune
  rw [Action.world_bind, hl]
  rfl

theorem gone_note (w : World) (roll : RollCall) (e : Entity) :
    (roll.note w e).gone = roll.gone ++ if w.isPresent e then [] else [e] := by
  unfold RollCall.note
  split
  · cases (w.get? e).bind (·.passive) <;> simp
  · rfl

theorem get?_thresholds_note (w : World) (roll : RollCall) (e k : Entity) :
    (roll.note w e).thresholds.get? k =
      (if k = e ∧ w.isPresent e = true then w.passive? e else none).or
        (roll.thresholds.get? k) := by
  unfold RollCall.note World.passive?
  by_cases hpresent : w.isPresent e = true
  · rw [if_pos hpresent]
    cases (w.get? e).bind (·.passive) with
    | none => simp
    | some threshold =>
      by_cases hk : k = e
      · simp [hk, hpresent]
      · simp [hk, Ne.symm hk]
  · simp [hpresent]

theorem gone_foldl_note (w : World) (tracked : List Entity) (roll : RollCall) :
    (tracked.foldl (RollCall.note w) roll).gone =
      roll.gone ++ tracked.filter fun e => !w.isPresent e := by
  induction tracked generalizing roll with
  | nil => simp
  | cons e rest ih =>
    rw [List.foldl_cons, ih, gone_note, List.append_assoc]
    cases hpresent : w.isPresent e <;> simp [hpresent]

theorem get?_thresholds_foldl_note (w : World) (tracked : List Entity) (roll : RollCall)
    (k : Entity) :
    (tracked.foldl (RollCall.note w) roll).thresholds.get? k =
      (if k ∈ tracked ∧ w.isPresent k = true then w.passive? k else none).or
        (roll.thresholds.get? k) := by
  induction tracked generalizing roll with
  | nil => simp
  | cons e rest ih =>
    rw [List.foldl_cons, ih, get?_thresholds_note]
    by_cases hk : k = e
    · subst hk
      by_cases hrest : k ∈ rest
      · cases w.isPresent k <;> cases w.passive? k <;> simp [hrest]
      · simp [hrest]
    · simp [hk]

/-- The roll call and pruning find the same entities gone. -/
theorem gone_callRoll (w : World) (l : Ledger) : (callRoll w l).gone = departed w l :=
  gone_foldl_note w l.tracked ⟨[], ∅⟩

theorem get?_thresholds_callRoll (w : World) (l : Ledger) (e : Entity) :
    (callRoll w l).thresholds.get? e =
      if e ∈ (pruned w l).tracked then w.passive? e else none := by
  have hroll := get?_thresholds_foldl_note w l.tracked ⟨[], ∅⟩ e
  simp only [tracked_pruned, List.mem_filter]
  exact hroll.trans Option.or_none

theorem callRoll_congr (h : w.SameButThreat actor w') (l : Ledger) :
    callRoll w' l = callRoll w l := by
  have hnote : RollCall.note w' = RollCall.note w := by
    funext roll e
    have hpassive : (w'.get? e).bind (·.passive) = (w.get? e).bind (·.passive) :=
      congrFun h.passive?_eq e
    rw [RollCall.note, RollCall.note, h.isPresent_eq, hpassive]
  rw [callRoll, callRoll, hnote]

/-- Applies one decay step to the ledger as it is, under the thresholds in the world. -/
def lower (t : Tuning) (actor : Entity) : Action (Option Int64) := do
  let w ← Action.world
  lowerBy t actor w.passive?

theorem lower_apply (t : Tuning) (actor : Entity) (s : State) :
    lower t actor s = lowerBy t actor s.world.passive? s := by
  unfold lower
  rw [Action.world_bind]

theorem lowerBy_of_no_ledger (hl : s.world.ledger? actor = none)
    (threshold : Entity → Option Int64) : lowerBy t actor threshold s = ⟨.ok none, s, []⟩ := by
  unfold lowerBy
  rw [Action.world_bind, hl]
  rfl

/-- Only the thresholds of the tracked entities matter. -/
theorem lowerBy_congr (hl : s.world.ledger? actor = some l)
    {threshold threshold' : Entity → Option Int64}
    (h : ∀ e ∈ l.tracked, threshold e = threshold' e) :
    lowerBy t actor threshold s = lowerBy t actor threshold' s := by
  unfold lowerBy
  rw [Action.world_bind, Action.world_bind, hl]
  simp only [Ledger.decay_congr h]

theorem decay_of_ledger (hl : s.world.ledger? actor = some l) :
    decay t actor s =
      lowerBy t actor (callRoll s.world l).thresholds.get?
        { s with world := forget s.world actor (departed s.world l) } := by
  unfold decay
  rw [Action.world_bind, hl]
  dsimp only
  rw [Action.setWorld_bind, gone_callRoll]

theorem decay_of_no_ledger (hl : s.world.ledger? actor = none) :
    decay t actor s = ⟨.ok none, s, []⟩ := by
  unfold decay
  rw [Action.world_bind, hl]
  rfl

theorem decay_eq (t : Tuning) (actor : Entity) :
    decay t actor = (do let _ ← prune actor; lower t actor) := by
  funext s
  cases hl : s.world.ledger? actor with
  | none =>
    have hprune := prune_of_no_ledger hl
    have hlower : lower t actor s = ⟨.ok none, s, []⟩ := by
      rw [lower_apply, lowerBy_of_no_ledger hl]
    rw [decay_of_no_ledger hl, Action.bind_run, hprune]
    simp only [hlower, List.nil_append]
  | some l =>
    let after : State := { s with world := forget s.world actor (departed s.world l) }
    have hafter : after.world.ledger? actor = some (pruned s.world l) := ledger?_after_prune hl
    have hpassive : after.world.passive? = s.world.passive? :=
      (forget_sameButThreat s.world actor (departed s.world l)).passive?_eq
    -- Outside the pruned ledger the roll call has no thresholds, but nobody asks for them there.
    have hthresholds : ∀ e ∈ (pruned s.world l).tracked,
        (callRoll s.world l).thresholds.get? e = after.world.passive? e := by
      intro e he
      rw [get?_thresholds_callRoll, if_pos he, hpassive]
    have hlower : lower t actor after =
        lowerBy t actor (callRoll s.world l).thresholds.get? after := by
      rw [lower_apply, lowerBy_congr hafter hthresholds]
    have hprune : prune actor s = ⟨.ok (departed s.world l), after, []⟩ := prune_of_ledger hl
    rw [decay_of_ledger hl, Action.bind_run, hprune]
    simp only [hlower, List.nil_append, after]

end Threat

end Hostility
