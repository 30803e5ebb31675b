import Hostility.Proofs.LedgerView

/-!
What a selection by threat looks at: the candidates that the ledger tracks, with their threat. It
holds a lottery of these entries if one of them is above the floor, and draws among the tracked
candidates by distance if none is.
-/
namespace Hostility

namespace Selection

variable {t : Tuning} {l : Ledger} {candidates : List Candidate} {r : RandomSource}

/-- The candidates that the ledger tracks. -/
def trackedAmong (l : Ledger) (candidates : List Candidate) : List Candidate :=
  candidates.filter fun c => l.contains c.entity

/-- The threat of the candidates that the ledger tracks. -/
def standings (l : Ledger) (candidates : List Candidate) : List (Entity × Int64) :=
  (trackedAmong l candidates).filterMap fun c => (l.value? c.entity).map fun v => (c.entity, v)

theorem trackedAmong_eq_nil_iff :
    trackedAmong l candidates = [] ↔ ∀ c ∈ candidates, l.contains c.entity = false := by
  simp [trackedAmong, List.filter_eq_nil_iff]

theorem mem_standings {e : Entity} {v : Int64} :
    (e, v) ∈ standings l candidates ↔ l.value? e = some v ∧ ∃ c ∈ candidates, c.entity = e := by
  rw [standings, List.mem_filterMap]
  constructor
  · rintro ⟨c, hc, hentry⟩
    obtain ⟨u, hu, heq⟩ := Option.map_eq_some_iff.mp hentry
    obtain ⟨rfl, rfl⟩ := Prod.mk.inj heq
    exact ⟨hu, c, (List.mem_filter.mp hc).1, rfl⟩
  · rintro ⟨hv, c, hc, rfl⟩
    have htracked : l.contains c.entity = true := by rw [Ledger.contains_eq, hv, Option.isSome_some]
    exact ⟨c, List.mem_filter.mpr ⟨hc, htracked⟩, by rw [hv, Option.map_some]⟩

theorem byThreat_eq (t : Tuning) (l : Ledger) (candidates : List Candidate) (r : RandomSource) :
    byThreat t l candidates r =
      match Lottery.build t (standings l candidates) with
      | some lottery =>
        (Choice.ofOption (lottery.draw r).1, { l with outlook := lottery.outlook },
          (lottery.draw r).2)
      | none =>
        ((byDistance (trackedAmong l candidates) r).1, { l with outlook := .empty },
          (byDistance (trackedAmong l candidates) r).2) := rfl

end Selection

end Hostility
