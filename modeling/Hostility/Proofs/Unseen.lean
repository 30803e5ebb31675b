import Mathlib.Data.List.Basic
import Hostility.Proofs.PassiveRaises
import Hostility.Proofs.Standings

/-!
Entries of entities out of sight do not matter. A bias pass and the selection by threat after it
look only at what the ledger says of the candidates: two ledgers that agree on those lead to the
same outcomes, bias, choice and outlook and use the same random words, and every other entry stays
as it was.
-/
namespace Hostility

namespace Ledger

variable {candidates : List Candidate} {l l' : Ledger}

/-- Two ledgers say the same of every candidate: whether it has an entry, and its value. -/
def AgreeOn (candidates : List Candidate) (l l' : Ledger) : Prop :=
  ∀ c ∈ candidates, l'.value? c.entity = l.value? c.entity

namespace AgreeOn

theorem contains (h : AgreeOn candidates l l') {c : Candidate} (hc : c ∈ candidates) :
    l'.contains c.entity = l.contains c.entity := by
  rw [contains_eq, contains_eq, h c hc]

theorem raiseTo (h : AgreeOn candidates l l') (e : Entity) (value : Int64) :
    AgreeOn candidates (l.raiseTo e value).1 (l'.raiseTo e value).1 := by
  intro c hc
  rw [value?_raiseTo, value?_raiseTo, h c hc]

/-- An offer to a candidate is taken by both ledgers or by none. -/
theorem raiseTo_taken (h : AgreeOn candidates l l') {c : Candidate} (hc : c ∈ candidates)
    (value : Int64) : (l'.raiseTo c.entity value).2 = (l.raiseTo c.entity value).2 := by
  rw [Bool.eq_iff_iff, raiseTo_taken_iff, raiseTo_taken_iff, h c hc]

end AgreeOn

end Ledger

namespace BiasPass

variable {t : Tuning} {m : Int64} {candidates seen : List Candidate} {c : Candidate}
  {l l' : Ledger} {b : PassiveBias}

theorem maxActive_congr (h : l.AgreeOn candidates l') :
    maxActive t l' candidates = maxActive t l candidates := by
  have hvalues : (candidates.filter fun c => !c.isPassive).filterMap (fun c => l'.value? c.entity) =
      (candidates.filter fun c => !c.isPassive).filterMap (fun c => l.value? c.entity) := by
    apply List.filterMap_congr
    intro c hc
    exact h c (List.mem_filter.mp hc).1
  rw [maxActive, maxActive, hvalues]

theorem applyOne_congr (t : Tuning) (m threshold : Int64) (b : PassiveBias)
    (h : l.AgreeOn candidates l') (hc : c ∈ candidates) :
    (applyOne t m c threshold l' b).1 = (applyOne t m c threshold l b).1 ∧
      (applyOne t m c threshold l' b).2.2 = (applyOne t m c threshold l b).2.2 ∧
      (applyOne t m c threshold l b).2.1.AgreeOn candidates
        (applyOne t m c threshold l' b).2.1 := by
  constructor
  · simp only [applyOne, h.raiseTo_taken hc]
  constructor
  · rfl
  · exact h.raiseTo c.entity _

theorem applyAll_congr (h : l.AgreeOn candidates l') (hseen : seen ⊆ candidates) :
    (applyAll t m seen l' b).1 = (applyAll t m seen l b).1 ∧
      (applyAll t m seen l' b).2.2 = (applyAll t m seen l b).2.2 ∧
      (applyAll t m seen l b).2.1.AgreeOn candidates (applyAll t m seen l' b).2.1 := by
  induction seen generalizing l l' b with
  | nil => exact ⟨rfl, rfl, h⟩
  | cons c rest ih =>
    obtain ⟨hc, hrest⟩ := List.cons_subset.mp hseen
    cases hpassive : c.passive with
    | none =>
      rw [applyAll_cons_of_none hpassive, applyAll_cons_of_none hpassive]
      exact ih h hrest
    | some threshold =>
      obtain ⟨houtcome, hbias, hagree⟩ :=
        applyOne_congr t m threshold b h hc
      obtain ⟨houtcomes, hbias', hagree'⟩ := ih hagree hrest
      simp only [applyAll_cons_of_some hpassive, houtcome, hbias]
      exact ⟨by rw [houtcomes], hbias', hagree'⟩

theorem apply_congr (h : l.AgreeOn candidates l') :
    (apply t l' b candidates).1 = (apply t l b candidates).1 ∧
      (apply t l' b candidates).2.2 = (apply t l b candidates).2.2 ∧
      (apply t l b candidates).2.1.AgreeOn candidates (apply t l' b candidates).2.1 := by
  rw [apply, apply, maxActive_congr h]
  exact applyAll_congr h (List.Subset.refl candidates)

end BiasPass

namespace Selection

variable {t : Tuning} {candidates : List Candidate} {l l' : Ledger}

theorem trackedAmong_congr (h : l.AgreeOn candidates l') :
    trackedAmong l' candidates = trackedAmong l candidates := by
  apply List.filter_congr
  intro c hc
  rw [h.contains hc]

theorem standings_congr (h : l.AgreeOn candidates l') :
    standings l' candidates = standings l candidates := by
  rw [standings, trackedAmong_congr h, standings]
  apply List.filterMap_congr
  intro c hc
  rw [h c (List.mem_filter.mp hc).1]

theorem byThreat_congr (h : l.AgreeOn candidates l') (r : RandomSource) :
    (byThreat t l' candidates r).1 = (byThreat t l candidates r).1 ∧
      (byThreat t l' candidates r).2.1.outlook = (byThreat t l candidates r).2.1.outlook ∧
      (byThreat t l' candidates r).2.2 = (byThreat t l candidates r).2.2 := by
  rw [byThreat_eq, byThreat_eq, standings_congr h, trackedAmong_congr h]
  cases Lottery.build t (standings l candidates) with
  | none => exact ⟨rfl, rfl, rfl⟩
  | some lottery => exact ⟨rfl, rfl, rfl⟩

/-- A selection by threat leaves every value as it is. -/
theorem value?_byThreat (t : Tuning) (l : Ledger) (candidates : List Candidate) (r : RandomSource)
    (e : Entity) : (byThreat t l candidates r).2.1.value? e = l.value? e := by
  obtain ⟨outlook, hledger⟩ := byThreat_ledger t l candidates r
  rw [hledger]
  rfl

/-- The bias pass and the selection after it, on two ledgers that agree on the candidates: they
differ in nothing but the entries of others, and those stay as they were. -/
theorem pass_ignores_unseen (t : Tuning) (candidates : List Candidate) (b : PassiveBias)
    (r : RandomSource) {l l' : Ledger} (h : l.AgreeOn candidates l') :
    let biased := BiasPass.apply t l b candidates
    let biased' := BiasPass.apply t l' b candidates
    let selected := byThreat t biased.2.1 candidates r
    let selected' := byThreat t biased'.2.1 candidates r
    biased'.1 = biased.1 ∧ biased'.2.2 = biased.2.2 ∧
    selected'.1 = selected.1 ∧ selected'.2.1.outlook = selected.2.1.outlook ∧
    selected'.2.2 = selected.2.2 ∧ selected.2.1.AgreeOn candidates selected'.2.1 ∧
    ∀ e, (∀ c ∈ candidates, c.entity ≠ e) →
      selected.2.1.value? e = l.value? e ∧ selected'.2.1.value? e = l'.value? e := by
  intro biased biased' selected selected'
  obtain ⟨houtcomes, hbias, hagree⟩ := BiasPass.apply_congr (t := t) (b := b) h
  obtain ⟨hchoice, houtlook, hrandom⟩ := byThreat_congr (t := t) hagree r
  have hunseen (l : Ledger) {e : Entity} (he : ∀ c ∈ candidates, c.entity ≠ e) :
      (byThreat t (BiasPass.apply t l b candidates).2.1 candidates r).2.1.value? e =
        l.value? e := by
    rw [value?_byThreat]
    apply (BiasPass.applyAll_onlyRaised t _ candidates l b).value e
    rintro ⟨c, hc, -, hentity⟩
    exact he c hc hentity
  refine ⟨houtcomes, hbias, hchoice, houtlook, hrandom, ?_, ?_⟩
  · intro c hc
    rw [value?_byThreat, value?_byThreat]
    exact hagree c hc
  · intro e he
    exact ⟨hunseen l he, hunseen l' he⟩

/-- A player and a banner. -/
def roadside : List Candidate :=
  [⟨⟨1, 1⟩, 3.0, .player, none⟩, ⟨⟨2, 1⟩, 4.0, .creature, some 30⟩]

def freshLedger : Ledger := ⟨.ofList [(⟨1, 1⟩, 400), (⟨2, 1⟩, 100)], 0, .empty⟩

/-- The same, with an ogre of much threat that is out of sight, and with gain and an outlook left
over. -/
def wornLedger : Ledger :=
  ⟨.ofList [(⟨1, 1⟩, 400), (⟨2, 1⟩, 100), (⟨9, 1⟩, 5000)], 60, ⟨.ofList [(⟨9, 1⟩, 1.0)], ∅⟩⟩

theorem roadside_agreeOn : freshLedger.AgreeOn roadside wornLedger := by
  unfold Ledger.AgreeOn
  decide +kernel

/-- The ogre changes nothing for the player and the banner, and its own entry stays. -/
theorem roadside_ignores_ogre :
    let biased := BiasPass.apply {} freshLedger ∅ roadside
    let biased' := BiasPass.apply {} wornLedger ∅ roadside
    let selected := byThreat {} biased.2.1 roadside (.cycle [7])
    let selected' := byThreat {} biased'.2.1 roadside (.cycle [7])
    freshLedger.AgreeOn roadside wornLedger ∧ biased'.1 = biased.1 ∧ selected'.1 = selected.1 ∧
      selected'.2.1.outlook = selected.2.1.outlook ∧ selected'.2.1.value? ⟨9, 1⟩ = some 5000 := by
  dsimp only
  obtain ⟨houtcomes, -, hchoice, houtlook, -, -, hothers⟩ :=
    pass_ignores_unseen {} roadside ∅ (.cycle [7]) roadside_agreeOn
  have hogre : wornLedger.value? ⟨9, 1⟩ = some 5000 := by decide +kernel
  have hunseen : ∀ c ∈ roadside, c.entity ≠ ⟨9, 1⟩ := by decide
  exact ⟨roadside_agreeOn, houtcomes, hchoice, houtlook, (hothers _ hunseen).2.trans hogre⟩

end Selection

end Hostility
