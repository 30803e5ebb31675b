import Hostility.Proofs.ThinkLedger

/-!
What a bias pass does to a ledger. The passive candidates have their turns one after the other, and
a turn can only raise the entry of its own candidate. So nothing enters the ledger, leaves it or
falls, every passive candidate ends at its floor at least, and each outcome tells whether its turn
raised the entry and to what.
-/
namespace Hostility

namespace Ledger

variable {loose : Entity → Prop} {l l' l'' : Ledger} {e : Entity}

/-- Entries of `loose` entities may have risen; all else is as it was. -/
structure OnlyRaised (loose : Entity → Prop) (l raised : Ledger) : Prop
    extends AlikeBut loose l raised where
  outlook : raised.outlook = l.outlook
  le : ∀ e u, l.value? e = some u → ∃ v, raised.value? e = some v ∧ u ≤ v

namespace OnlyRaised

theorem refl (l : Ledger) : OnlyRaised loose l l where
  toAlikeBut := .refl l
  outlook := rfl
  le _ u hu := ⟨u, hu, Int64.le_refl u⟩

theorem trans (h : OnlyRaised loose l l') (h' : OnlyRaised loose l' l'') :
    OnlyRaised loose l l'' where
  toAlikeBut := h.toAlikeBut.trans h'.toAlikeBut
  outlook := h'.outlook.trans h.outlook
  le e u hu := by
    obtain ⟨v, hv, huv⟩ := h.le e u hu
    obtain ⟨w, hw, hvw⟩ := h'.le e v hv
    exact ⟨w, hw, Int64.le_trans huv hvw⟩

theorem raiseTo (h : loose e) (l : Ledger) (value : Int64) :
    OnlyRaised loose l (l.raiseTo e value).1 where
  toAlikeBut := .raiseTo h l value
  outlook := outlook_raiseTo l e value
  le k u hu := by
    rw [value?_raiseTo, hu, Option.map_some]
    refine ⟨_, rfl, ?_⟩
    split
    · next hraised => exact Int64.le_of_lt hraised.2
    · exact Int64.le_refl u

end OnlyRaised

/-- An offer is taken by an entry that is lower. -/
theorem raiseTo_taken_iff (l : Ledger) (e : Entity) (value : Int64) :
    (l.raiseTo e value).2 = true ↔ ∃ u, l.value? e = some u ∧ u < value := by
  unfold Ledger.raiseTo
  cases l.value? e with
  | none => simp
  | some u =>
    dsimp only
    split
    · next hlt => simp [hlt]
    · next hle => simp [hle]

end Ledger

/-- The outcome of a turn tells whether the entry of its candidate rose from what the turn met, and
what it rose to. -/
structure BiasOutcome.Tells (o : BiasOutcome) (met left : Ledger) : Prop where
  raised_iff : o.raised = true ↔
    ∃ u v, met.value? o.candidate = some u ∧ left.value? o.candidate = some v ∧ u < v
  new : o.raised = true → left.value? o.candidate = some o.applied

namespace BiasPass

variable {t : Tuning} {m threshold v : Int64} {c : Candidate} {candidates : List Candidate}
  {l : Ledger} {b : PassiveBias}

/-- What a turn makes of a ledger: its offer to the candidate. -/
theorem ledger_applyOne_eq (t : Tuning) (m : Int64) (c : Candidate) (threshold : Int64) (l : Ledger)
    (b : PassiveBias) :
    (applyOne t m c threshold l b).2.1 =
      (l.raiseTo c.entity (applyOne t m c threshold l b).1.applied).1 := rfl

theorem minFloor_le_applied (t : Tuning) (m : Int64) (c : Candidate) (threshold : Int64)
    (l : Ledger) (b : PassiveBias) :
    minFloor t threshold ≤ (applyOne t m c threshold l b).1.applied :=
  Std.right_le_max (a := _)

/-- Whoever has an entry holds what its turn offered at least. -/
theorem applied_le_of_value? (hv : (applyOne t m c threshold l b).2.1.value? c.entity = some v) :
    (applyOne t m c threshold l b).1.applied ≤ v := by
  rw [ledger_applyOne_eq, Ledger.value?_raiseTo] at hv
  obtain ⟨u, -, rfl⟩ := Option.map_eq_some_iff.mp hv
  split
  · exact Int64.le_refl _
  · next hkept => exact Int64.not_lt.mp fun hlt => hkept ⟨rfl, hlt⟩

theorem applyOne_tells (t : Tuning) (m : Int64) (c : Candidate) (threshold : Int64) (l : Ledger)
    (b : PassiveBias) :
    (applyOne t m c threshold l b).1.Tells l (applyOne t m c threshold l b).2.1 := by
  let offer := (applyOne t m c threshold l b).1.applied
  have htaken : (applyOne t m c threshold l b).1.raised = true ↔
      ∃ u, l.value? c.entity = some u ∧ u < offer := l.raiseTo_taken_iff c.entity offer
  have hleft (u : Int64) (hu : l.value? c.entity = some u) :
      (applyOne t m c threshold l b).2.1.value? c.entity =
        some (if u < offer then offer else u) := by
    rw [ledger_applyOne_eq, Ledger.value?_raiseTo, hu]
    simp [offer]
  constructor
  · constructor
    · intro hraised
      obtain ⟨u, hu, hlt⟩ := htaken.mp hraised
      exact ⟨u, offer, hu, (hleft u hu).trans (by rw [if_pos hlt]), hlt⟩
    · rintro ⟨u, v, hu, hv, hlt⟩
      obtain rfl := Option.some.inj (hv.symm.trans (hleft u hu))
      split at hlt
      · next hoffer => exact htaken.mpr ⟨u, hu, hoffer⟩
      · exact absurd hlt Int64.lt_irrefl
  · intro hraised
    obtain ⟨u, hu, hlt⟩ := htaken.mp hraised
    exact (hleft u hu).trans (by rw [if_pos hlt])

theorem applyAll_onlyRaised (t : Tuning) (m : Int64) (candidates : List Candidate) (l : Ledger)
    (b : PassiveBias) :
    l.OnlyRaised (Engine.passiveAmong candidates) (applyAll t m candidates l b).2.1 :=
  applyAll_keeps
    (fun l' c value hc hpassive h => h.trans (.raiseTo ⟨c, hc, hpassive, rfl⟩ l' value)) (.refl l)

theorem candidates_applyAll (t : Tuning) (m : Int64) (candidates : List Candidate) (l : Ledger)
    (b : PassiveBias) :
    (applyAll t m candidates l b).1.map (·.candidate) =
      (candidates.filter (·.isPassive)).map (·.entity) := by
  induction candidates generalizing l b with
  | nil => rfl
  | cons c rest ih =>
    cases hpassive : c.passive with
    | none =>
      rw [applyAll_cons_of_none hpassive, ih]
      simp [Candidate.isPassive, hpassive]
    | some threshold =>
      rw [applyAll_cons_of_some hpassive]
      simp [Candidate.isPassive, hpassive, ih, applyOne]

/-- The turn of a passive candidate lifts its entry to its floor, and later turns do not lower
it. -/
theorem minFloor_le_of_applyAll (hc : c ∈ candidates) (hpassive : c.passive = some threshold)
    (hv : (applyAll t m candidates l b).2.1.value? c.entity = some v) :
    minFloor t threshold ≤ v := by
  obtain ⟨before, after, rfl⟩ := List.append_of_mem hc
  simp only [applyAll_append, applyAll_cons_of_some hpassive] at hv
  generalize applyAll t m before l b = met at hv
  have hlater := applyAll_onlyRaised t m after (applyOne t m c threshold met.2.1 met.2.2).2.1
    (applyOne t m c threshold met.2.1 met.2.2).2.2
  have hentry := hlater.contains c.entity
  rw [Ledger.contains_eq, Ledger.contains_eq, hv, Option.isSome_some] at hentry
  obtain ⟨u, hu⟩ := Option.isSome_iff_exists.mp hentry.symm
  obtain ⟨v', hv', hle⟩ := hlater.le c.entity u hu
  obtain rfl := Option.some.inj (hv'.symm.trans hv)
  exact Int64.le_trans (minFloor_le_applied ..) (Int64.le_trans (applied_le_of_value? hu) hle)

/-- Each outcome comes from the turn of a passive candidate, after those of the candidates before
it. -/
theorem outcome_tells {i : Nat} {o : BiasOutcome}
    (ho : (applyAll t m candidates l b).1[i]? = some o) :
    ∃ before c after, candidates = before ++ c :: after ∧ c.isPassive = true ∧
      (before.filter (·.isPassive)).length = i ∧ o.candidate = c.entity ∧
      o.Tells (applyAll t m before l b).2.1 (applyAll t m (before ++ [c]) l b).2.1 := by
  induction candidates generalizing l b i with
  | nil => cases ho
  | cons c rest ih =>
    cases hpassive : c.passive with
    | none =>
      rw [applyAll_cons_of_none hpassive] at ho
      obtain ⟨before, c', after, rfl, hc', hi, hentity, htells⟩ := ih ho
      refine ⟨c :: before, c', after, rfl, hc', ?_, hentity, ?_⟩
      · simpa [Candidate.isPassive, hpassive] using hi
      · rwa [List.cons_append, applyAll_cons_of_none hpassive, applyAll_cons_of_none hpassive]
    | some threshold =>
      have hmarked : c.isPassive = true := by simp [Candidate.isPassive, hpassive]
      rw [applyAll_cons_of_some hpassive] at ho
      cases i with
      | zero =>
        obtain rfl := Option.some.inj ho
        refine ⟨[], c, rest, rfl, hmarked, rfl, rfl, ?_⟩
        rw [List.nil_append, applyAll_cons_of_some hpassive]
        exact applyOne_tells t m c threshold l b
      | succ i =>
        obtain ⟨before, c', after, rfl, hc', hi, hentity, htells⟩ := ih ho
        refine ⟨c :: before, c', after, rfl, hc', ?_, hentity, ?_⟩
        · simp [hmarked, hi]
        · rwa [List.cons_append, applyAll_cons_of_some hpassive, applyAll_cons_of_some hpassive]

/-- A bias pass only raises entries of passive candidates, to their floors at least. It has one
outcome for each of them, in order, and each outcome tells whether its turn raised the entry and to
what. -/
theorem apply_only_raises (t : Tuning) (l : Ledger) (b : PassiveBias)
    (candidates : List Candidate) :
    let pass := apply t l b candidates
    let ledgerAfter := fun seen => (applyAll t (maxActive t l candidates) seen l b).2.1
    l.OnlyRaised (Engine.passiveAmong candidates) pass.2.1 ∧
    pass.1.map (·.candidate) = (candidates.filter (·.isPassive)).map (·.entity) ∧
    (∀ c ∈ candidates, ∀ threshold v, c.passive = some threshold →
      pass.2.1.value? c.entity = some v → minFloor t threshold ≤ v) ∧
    (∀ threshold, (minFloor t threshold).toInt =
      min (t.threatMinimum.toInt + max threshold.toInt 0) Int64.maxValue.toInt) ∧
    ∀ i o, pass.1[i]? = some o →
      ∃ before c after, candidates = before ++ c :: after ∧ c.isPassive = true ∧
        (before.filter (·.isPassive)).length = i ∧ o.candidate = c.entity ∧
        o.Tells (ledgerAfter before) (ledgerAfter (before ++ [c])) := by
  intro pass ledgerAfter
  constructor
  · exact applyAll_onlyRaised t _ candidates l b
  constructor
  · exact candidates_applyAll t _ candidates l b
  constructor
  · intro c hc threshold v hpassive hv
    exact minFloor_le_of_applyAll hc hpassive hv
  constructor
  · exact toInt_minFloor t
  · intro i o ho
    exact outcome_tells ho

/-- A banner listed twice, the second time with a high threshold, a player between, and a shrine
that is not in the ledger. -/
def parade : List Candidate :=
  [⟨⟨2, 1⟩, 4.0, .creature, some (-20)⟩, ⟨⟨1, 1⟩, 3.0, .player, none⟩,
    ⟨⟨2, 1⟩, 4.0, .creature, some 900⟩, ⟨⟨3, 1⟩, 5.0, .creature, some 50⟩]

def paradeLedger : Ledger := ⟨.ofList [(⟨1, 1⟩, 600), (⟨2, 1⟩, 100)], 7, .empty⟩

/-- The player keeps its entry and the shrine gets none; the banner ends at its higher floor, and
both of its outcomes tell of a raise. -/
theorem parade_only_raises :
    let pass := apply {} paradeLedger ∅ parade
    pass.2.1.gained = 7 ∧ pass.2.1.value? ⟨1, 1⟩ = some 600 ∧ pass.2.1.contains ⟨3, 1⟩ = false ∧
      pass.1.map (·.candidate) = [⟨2, 1⟩, ⟨2, 1⟩, ⟨3, 1⟩] ∧
      pass.1.map (·.raised) = [true, true, false] ∧
      ∃ v, pass.2.1.value? ⟨2, 1⟩ = some v ∧ minFloor {} 900 ≤ v := by
  dsimp only
  obtain ⟨honly, hcandidates, hfloor, -, -⟩ := apply_only_raises {} paradeLedger ∅ parade
  have hplayer : ¬ Engine.passiveAmong parade ⟨1, 1⟩ := by
    rintro ⟨k, hk, hpassive, hentity⟩
    revert k
    decide
  have hstruck : paradeLedger.value? ⟨1, 1⟩ = some 600 := by decide +kernel
  have habsent : paradeLedger.contains ⟨3, 1⟩ = false := by decide +kernel
  obtain ⟨v, hv, -⟩ := honly.le ⟨2, 1⟩ 100 (by decide +kernel)
  refine ⟨?_, ?_, ?_, ?_, ?_, ?_⟩
  · exact honly.gained
  · exact (honly.value ⟨1, 1⟩ hplayer).trans hstruck
  · exact (honly.contains ⟨3, 1⟩).trans habsent
  · exact hcandidates
  · decide +kernel
  · exact ⟨v, hv, hfloor ⟨⟨2, 1⟩, 4.0, .creature, some 900⟩ (by decide) 900 v rfl hv⟩

end BiasPass

end Hostility
