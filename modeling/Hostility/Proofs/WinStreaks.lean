import Hostility.Proofs.PassiveRaises
import Hostility.Proofs.Recollection

/-!
When a passive source is held back. A bias pass makes an entry for every passive candidate and
leaves the streaks alone, and the note of who was chosen moves the streaks of all the entries at
once. So the streak of a source counts the latest passes that it won in a row, from the first pass
on in which it was a passive candidate. What it won before that does not count.
-/
namespace Hostility

namespace BiasPass

variable {t : Tuning} {m : Int64} {candidates : List Candidate} {l : Ledger} {b : PassiveBias}
  {e : Entity}

/-- A turn moves the average of its candidate only, and no streak. -/
theorem streak_applyAll (t : Tuning) (m : Int64) (candidates : List Candidate) (l : Ledger)
    (b : PassiveBias) (e : Entity) :
    ((applyAll t m candidates l b).2.2.entry e).streak = (b.entry e).streak := by
  induction candidates generalizing l b with
  | nil => rfl
  | cons c rest ih =>
    cases hpassive : c.passive with
    | none => rw [applyAll_cons_of_none hpassive, ih]
    | some threshold =>
      rw [applyAll_cons_of_some hpassive]
      dsimp only
      rw [ih, applyOne, entry_insert]
      split
      · next hown => rw [hown]
      · rfl

/-- An outcome tells whether the streak of its source has reached the threshold. -/
theorem debounced_of_mem_applyAll {o : BiasOutcome} (ho : o ∈ (applyAll t m candidates l b).1) :
    (o.debounced = true ↔ t.passiveStreakThreshold ≤ (b.entry o.candidate).streak) ∧
      o.smoothed = if o.debounced then roundAmount o.average - t.passiveStreakPenalty
        else roundAmount o.average := by
  induction candidates generalizing l b with
  | nil => cases ho
  | cons c rest ih =>
    cases hpassive : c.passive with
    | none => exact ih (applyAll_cons_of_none hpassive ▸ ho)
    | some threshold =>
      rw [applyAll_cons_of_some hpassive] at ho
      rcases List.mem_cons.mp ho with rfl | hlater
      · exact ⟨decide_eq_true_iff, rfl⟩
      · have hstreak := streak_applyAll t m [c] l b o.candidate
        rw [applyAll_cons_of_some hpassive] at hstreak
        rw [← hstreak]
        exact ih hlater

end BiasPass

namespace PassiveBias

/-- The note of who was chosen counts for the sources that have an entry. -/
theorem streak_recordSelection (b : PassiveBias) (chosen : Option Entity) (e : Entity) :
    ((b.recordSelection chosen).entry e).streak =
      if chosen = some e ∧ EntityMap.contains b e = true
      then min ((b.entry e).streak + 1) streakLimit else 0 := by
  unfold entry EntityMap.contains
  rw [get?_recordSelection]
  cases EntityMap.get? b e with
  | none => simp
  | some known => simp

end PassiveBias

/-- A pass over some candidates, of which one or none was chosen in the end. -/
structure SelectionPass where
  ledger : Ledger
  candidates : List Candidate
  chosen : Option Entity
  chosen_mem : ∀ e, chosen = some e → ∃ c ∈ candidates, c.entity = e

namespace SelectionPass

open Engine (passiveAmong)

variable {t : Tuning} {p : SelectionPass} {history : List SelectionPass} {e : Entity}

/-- The bias after some passes from none on, the latest pass first. -/
def biasAfter (t : Tuning) : List SelectionPass → PassiveBias
  | [] => ∅
  | p :: earlier =>
    (BiasPass.apply t p.ledger (biasAfter t earlier) p.candidates).2.2.recordSelection p.chosen

/-- The sources that have been passive candidates by now, and no others, have an entry. -/
theorem contains_biasAfter :
    EntityMap.contains (biasAfter t history) e = true ↔
      ∃ p ∈ history, passiveAmong p.candidates e := by
  induction history with
  | nil =>
    constructor
    · intro hentry
      cases hentry
    · rintro ⟨p, hp, -⟩
      cases hp
  | cons p earlier ih =>
    rw [biasAfter, EntityMap.contains, PassiveBias.get?_recordSelection, Option.isSome_map]
    refine BiasPass.contains_applyAll.trans ?_
    rw [ih, or_comm]
    simp

/-- The step: a win counts for a source with an entry, and everything else ends the streak. -/
theorem streak_biasAfter_cons (t : Tuning) (p : SelectionPass) (earlier : List SelectionPass)
    (e : Entity) :
    ((biasAfter t (p :: earlier)).entry e).streak =
      if p.chosen = some e ∧ EntityMap.contains (biasAfter t (p :: earlier)) e = true
      then min (((biasAfter t earlier).entry e).streak + 1) PassiveBias.streakLimit else 0 := by
  let passed := (BiasPass.apply t p.ledger (biasAfter t earlier) p.candidates).2.2
  have hentry : EntityMap.contains (passed.recordSelection p.chosen) e =
      EntityMap.contains passed e := by
    rw [EntityMap.contains, PassiveBias.get?_recordSelection, Option.isSome_map, EntityMap.contains]
  have hstreak : (passed.entry e).streak = ((biasAfter t earlier).entry e).streak :=
    BiasPass.streak_applyAll ..
  rw [biasAfter, hentry, ← hstreak]
  exact PassiveBias.streak_recordSelection passed p.chosen e

theorem lt_streak_cons_iff {n : Nat} (hn : n < PassiveBias.streakLimit)
    {earlier : List SelectionPass} :
    n < ((biasAfter t (p :: earlier)).entry e).streak ↔
      p.chosen = some e ∧ (∃ q ∈ p :: earlier, passiveAmong q.candidates e) ∧
        n ≤ ((biasAfter t earlier).entry e).streak := by
  rw [streak_biasAfter_cons, ← contains_biasAfter (t := t)]
  split
  · next hwon =>
    simp only [hwon, true_and]
    omega
  · next hlost =>
    constructor
    · intro hlt
      exact absurd hlt (Nat.not_lt_zero n)
    · rintro ⟨hchosen, hknown, -⟩
      exact absurd ⟨hchosen, hknown⟩ hlost

/-- A streak of more than `n` takes `n + 1` wins in a row, the first of them at a time when the
source had been a passive candidate. -/
theorem lt_streak_iff {n : Nat} (hn : n < PassiveBias.streakLimit) :
    n < ((biasAfter t history).entry e).streak ↔
      n < history.length ∧ (∀ p ∈ history.take (n + 1), p.chosen = some e) ∧
        ∃ p ∈ history.drop n, passiveAmong p.candidates e := by
  induction history generalizing n with
  | nil =>
    constructor
    · intro hlt
      exact absurd hlt (Nat.not_lt_zero n)
    · rintro ⟨hlt, -⟩
      exact absurd hlt (Nat.not_lt_zero n)
  | cons p earlier ih =>
    rw [lt_streak_cons_iff hn]
    cases n with
    | zero => simp
    | succ n =>
      -- whoever was known at the first of the wins is known now
      have hknown : (∃ q ∈ earlier.drop n, passiveAmong q.candidates e) →
          ∃ q ∈ p :: earlier, passiveAmong q.candidates e := by
        rintro ⟨q, hq, hpassive⟩
        exact ⟨q, List.mem_cons_of_mem p (List.mem_of_mem_drop hq), hpassive⟩
      rw [Nat.succ_le_iff, ih (Nat.lt_of_succ_lt hn), List.length_cons, List.take_succ_cons,
        List.drop_succ_cons, List.forall_mem_cons]
      constructor
      · rintro ⟨hchosen, -, hlength, hwins, hfirst⟩
        exact ⟨Nat.succ_lt_succ hlength, ⟨hchosen, hwins⟩, hfirst⟩
      · rintro ⟨hlength, ⟨hchosen, hwins⟩, hfirst⟩
        exact ⟨hchosen, hknown hfirst, Nat.lt_of_succ_lt_succ hlength, hwins, hfirst⟩

theorem le_streak_iff {needed : Nat} (hneeded : needed ≤ PassiveBias.streakLimit) :
    needed ≤ ((biasAfter t history).entry e).streak ↔ needed = 0 ∨
      needed ≤ history.length ∧ (∀ p ∈ history.take needed, p.chosen = some e) ∧
        ∃ p ∈ history.drop (needed - 1), passiveAmong p.candidates e := by
  cases needed with
  | zero => simp
  | succ n =>
    rw [Nat.succ_le_iff, lt_streak_iff hneeded, Nat.succ_le_iff]
    simp

/-- A pass that a source does not win ends its streak. -/
theorem streak_eq_zero (h : p.chosen ≠ some e ∨ ∀ c ∈ p.candidates, c.entity ≠ e)
    (earlier : List SelectionPass) : ((biasAfter t (p :: earlier)).entry e).streak = 0 := by
  have hlost : p.chosen ≠ some e := by
    rcases h with hlost | hunseen
    · exact hlost
    · intro hchosen
      obtain ⟨c, hc, hentity⟩ := p.chosen_mem e hchosen
      exact hunseen c hc hentity
  rw [streak_biasAfter_cons, if_neg fun hwon => hlost hwon.1]

/-- A passive candidate is held back in a pass if it was chosen in as many passes before it as the
threshold says, and had been a passive candidate by the first of these. Its pressure is then the
rounded average less the penalty. A pass that it does not win, or is not seen in, ends its
streak. -/
theorem debounced_iff_won (hlimit : t.passiveStreakThreshold ≤ PassiveBias.streakLimit)
    (history : List SelectionPass) (l : Ledger) (candidates : List Candidate) :
    let outcomes := (BiasPass.apply t l (biasAfter t history) candidates).1
    let needed := t.passiveStreakThreshold
    outcomes.map (·.candidate) = (candidates.filter (·.isPassive)).map (·.entity) ∧
    (∀ o ∈ outcomes,
      (o.debounced = true ↔ needed = 0 ∨
        needed ≤ history.length ∧ (∀ p ∈ history.take needed, p.chosen = some o.candidate) ∧
          ∃ p ∈ history.drop (needed - 1), passiveAmong p.candidates o.candidate) ∧
      o.smoothed = if o.debounced then roundAmount o.average - t.passiveStreakPenalty
        else roundAmount o.average) ∧
    ∀ e (p : SelectionPass), (p.chosen ≠ some e ∨ ∀ c ∈ p.candidates, c.entity ≠ e) →
      ((biasAfter t (p :: history)).entry e).streak = 0 := by
  intro outcomes needed
  constructor
  · exact BiasPass.candidates_applyAll ..
  constructor
  · intro o ho
    obtain ⟨hdebounced, hsmoothed⟩ := BiasPass.debounced_of_mem_applyAll ho
    exact ⟨hdebounced.trans (le_streak_iff hlimit), hsmoothed⟩
  · intro e p hlost
    exact streak_eq_zero hlost history

/-- A player and a banner, which is chosen; a passive source of threat, or not yet. -/
def bannerPass (passive : Option Int64) : SelectionPass where
  ledger := ⟨.ofList [(⟨1, 1⟩, 600), (⟨2, 1⟩, 100)], 0, .empty⟩
  candidates := [⟨⟨1, 1⟩, 3.0, .player, none⟩, ⟨⟨2, 1⟩, 4.0, .creature, passive⟩]
  chosen := some ⟨2, 1⟩
  chosen_mem e he := ⟨⟨⟨2, 1⟩, 4.0, .creature, passive⟩, by simp, Option.some.inj he⟩

/-- After three passes that the banner won it is held back, and it has no streak after a fourth that
nobody won. -/
theorem banner_debounced :
    let pass := bannerPass (some 0)
    let outcomes := (BiasPass.apply {} pass.ledger (biasAfter {} [pass, pass, pass])
      pass.candidates).1
    outcomes.map (·.candidate) = [⟨2, 1⟩] ∧
    (∀ o ∈ outcomes, o.debounced = true ∧ o.smoothed = roundAmount o.average - 5) ∧
    ((biasAfter {} [⟨.empty, [], none, by simp⟩, pass, pass, pass]).entry ⟨2, 1⟩).streak = 0 := by
  dsimp only
  let history := [bannerPass (some 0), bannerPass (some 0), bannerPass (some 0)]
  obtain ⟨hcandidates, houtcomes, hlost⟩ := debounced_iff_won (t := {}) (by decide) history
    (bannerPass (some 0)).ledger (bannerPass (some 0)).candidates
  refine ⟨hcandidates, ?_, hlost _ _ (.inl (by simp))⟩
  intro o ho
  have hentity : o.candidate = ⟨2, 1⟩ := by
    have hmem := List.mem_map_of_mem (f := (·.candidate)) ho
    rw [hcandidates] at hmem
    exact List.mem_singleton.mp hmem
  obtain ⟨hdebounced, hsmoothed⟩ := houtcomes o ho
  rw [hentity] at hdebounced
  have hwins : ∀ p ∈ history.take 3, p.chosen = some ⟨2, 1⟩ := by decide
  have hfirst : ∃ p ∈ history.drop 2, passiveAmong p.candidates ⟨2, 1⟩ :=
    ⟨bannerPass (some 0), by simp [history], ⟨⟨2, 1⟩, 4.0, .creature, some 0⟩, by simp [bannerPass],
      rfl, rfl⟩
  have hheld : o.debounced = true := hdebounced.mpr (.inr ⟨by decide, hwins, hfirst⟩)
  exact ⟨hheld, by rw [hsmoothed, if_pos hheld]⟩

/-- The same three wins do not count if the banner was no source of threat at the time. -/
theorem banner_won_before :
    let history := [bannerPass none, bannerPass none, bannerPass none]
    let pass := bannerPass (some 0)
    let outcomes := (BiasPass.apply {} pass.ledger (biasAfter {} history) pass.candidates).1
    let needed := ({} : Tuning).passiveStreakThreshold
    (∀ p ∈ pass :: history, (p.candidates.map (·.entity)).Nodup) ∧
      ¬ ∀ o ∈ outcomes, (o.debounced = true ↔
        needed ≤ history.length ∧ ∀ p ∈ history.take needed, p.chosen = some o.candidate) := by
  dsimp only
  decide +kernel

end SelectionPass

end Hostility
