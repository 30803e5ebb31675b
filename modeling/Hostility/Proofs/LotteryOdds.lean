import Hostility.Proofs.Picks
import Mathlib.Algebra.Order.BigOperators.Group.List
import Mathlib.Algebra.Ring.Int.Defs
import Mathlib.Data.Nat.Count
import Mathlib.Order.Interval.Finset.Nat

/-!
The odds of the lottery. The rungs lie end to end between zero and the top of the ladder, and each
wins the rolls that lie on it. So every point of threat above the cut wins one roll, whoever is
listed first, and nobody at the cut or below it wins any.
-/
namespace Hostility

namespace Lottery

/-- How far the first `i` rungs reach: what they add up to, as far as amounts go. -/
def reach (rungs : List Rung) (i : Nat) : Int :=
  min Int64.maxValue.toInt ((rungs.map (·.remainder.toInt)).take i).sum

/-- Rungs that lie end to end, with nobody on two of them. -/
structure IsLadder (rungs : List Rung) : Prop where
  nonneg : ∀ rung ∈ rungs, 0 ≤ rung.remainder.toInt
  cumulative : ∀ i (h : i < rungs.length), rungs[i].cumulative.toInt = reach rungs (i + 1)
  nodup : (rungs.map (·.entity)).Nodup

theorem reach_zero (rungs : List Rung) : reach rungs 0 = 0 := by
  have hmax : 0 ≤ Int64.maxValue.toInt := by decide
  simp [reach, hmax]

theorem reach_length (rungs : List Rung) :
    reach rungs rungs.length
      = min Int64.maxValue.toInt (rungs.map (·.remainder.toInt)).sum := by
  rw [reach, List.take_of_length_le (by simp)]

theorem climb_remainders (entries : List (Entity × Int64)) :
    (climb 0 entries).map (·.remainder.toInt) = entries.map (·.2.toInt) := by
  conv => rhs; rw [← climb_entries 0 entries]
  rw [List.map_map]
  rfl

theorem cumulative_climb {entries : List (Entity × Int64)} (hnonneg : ∀ a ∈ entries, 0 ≤ a.2.toInt)
    {below : Int64} (hbelow : 0 ≤ below.toInt) {i : Nat} (h : i < (climb below entries).length) :
    (climb below entries)[i].cumulative.toInt
      = min Int64.maxValue.toInt (below.toInt + ((entries.map (·.2.toInt)).take (i + 1)).sum) := by
  have hmin : Int64.minValue.toInt ≤ 0 := by decide
  have hmax : 0 ≤ Int64.maxValue.toInt := by decide
  induction entries generalizing below i with
  | nil => cases h
  | cons a rest ih =>
    have ha := hnonneg a (by simp)
    have hrest := fun b hb => hnonneg b (List.mem_cons_of_mem a hb)
    have hstep : (satAdd below a.2).toInt
        = min Int64.maxValue.toInt (below.toInt + a.2.toInt) := by
      rw [satAdd, toInt_saturate]
      omega
    cases i with
    | zero => simpa [climb] using hstep
    | succ i =>
      have hbelow' : 0 ≤ (satAdd below a.2).toInt := by omega
      have htail := ih hrest hbelow' (show i < _ by simpa [climb] using h)
      -- A sum that stopped at the largest amount stays there, because nothing negative follows.
      have hsum : 0 ≤ ((rest.map (·.2.toInt)).take (i + 1)).sum := by
        refine List.sum_nonneg fun n hn => ?_
        obtain ⟨b, hb, rfl⟩ := List.mem_map.mp (List.mem_of_mem_take hn)
        exact hrest b hb
      simp only [climb, List.getElem_cons_succ, List.map_cons, List.take_succ_cons, List.sum_cons]
      omega

theorem climb_isLadder {entries : List (Entity × Int64)}
    (hnonneg : ∀ a ∈ entries, 0 ≤ a.2.toInt) (hnodup : (entries.map (·.1)).Nodup) :
    IsLadder (climb 0 entries) where
  nonneg rung hrung := by
    have hentry := List.mem_map_of_mem (f := fun rung => (rung.entity, rung.remainder)) hrung
    rw [climb_entries] at hentry
    exact hnonneg _ hentry
  cumulative i h := by
    rw [cumulative_climb hnonneg (by decide) h, reach, climb_remainders]
    simp
  nodup := by
    rw [← climb_entries 0 entries, List.map_map] at hnodup
    exact hnodup

namespace IsLadder

variable {rungs : List Rung}

theorem sum_take_mono (h : IsLadder rungs) {i j : Nat} (hij : i ≤ j) :
    ((rungs.map (·.remainder.toInt)).take i).sum
      ≤ ((rungs.map (·.remainder.toInt)).take j).sum := by
  induction j, hij using Nat.le_induction with
  | base => exact Int.le_refl _
  | succ j _ ih =>
    by_cases hj : j < rungs.length
    · have hremainder := h.nonneg rungs[j] (List.getElem_mem hj)
      have hsum := List.sum_take_succ (rungs.map (·.remainder.toInt)) j (by simpa using hj)
      rw [List.getElem_map] at hsum
      omega
    · have hlength : (rungs.map (·.remainder.toInt)).length ≤ j := by simpa using hj
      rw [List.take_of_length_le hlength] at ih
      rwa [List.take_of_length_le (Nat.le_succ_of_le hlength)]

theorem reach_mono (h : IsLadder rungs) {i j : Nat} (hij : i ≤ j) :
    reach rungs i ≤ reach rungs j := by
  have hsum := h.sum_take_mono hij
  unfold reach
  omega

theorem lastCumulative_eq (h : IsLadder rungs) :
    (lastCumulative rungs).toInt = reach rungs rungs.length := by
  unfold lastCumulative
  rw [List.getLast?_eq_getElem?]
  cases hlength : rungs.length with
  | zero => simp [List.length_eq_zero_iff.mp hlength, reach_zero]
  | succ n =>
    have hlast := h.cumulative n (by omega)
    rw [List.getElem?_eq_getElem (by omega)]
    simpa using hlast

/-- A rung is at most as wide as its remainder. -/
theorem reach_succ_le (h : IsLadder rungs) {i : Nat} (hi : i < rungs.length) :
    reach rungs (i + 1) ≤ reach rungs i + rungs[i].remainder.toInt := by
  have hremainder := h.nonneg rungs[i] (List.getElem_mem hi)
  have hsum := List.sum_take_succ (rungs.map (·.remainder.toInt)) i (by simpa using hi)
  rw [List.getElem_map] at hsum
  unfold reach
  omega

/-- If the whole ladder fits below the largest amount, a rung is as wide as its remainder. -/
theorem reach_succ (h : IsLadder rungs)
    (htotal : (rungs.map (·.remainder.toInt)).sum ≤ Int64.maxValue.toInt) {i : Nat}
    (hi : i < rungs.length) :
    reach rungs (i + 1) = reach rungs i + rungs[i].remainder.toInt := by
  have hlength : (rungs.map (·.remainder.toInt)).length = rungs.length := by simp
  have hle (j : Nat) (hj : j ≤ rungs.length) :
      ((rungs.map (·.remainder.toInt)).take j).sum ≤ Int64.maxValue.toInt := by
    have hmono := h.sum_take_mono hj
    rw [← hlength, List.take_length] at hmono
    omega
  rw [reach, reach, min_eq_right (hle _ hi), min_eq_right (hle _ hi.le),
    List.sum_take_succ _ i (by omega), List.getElem_map]

end IsLadder

section Rolls

variable {l : Lottery} {roll : Int64}

theorem IsLadder.cumulativeMax_eq (h : IsLadder l.rungs) :
    l.cumulativeMax.toInt = reach l.rungs l.rungs.length :=
  h.lastCumulative_eq

/-- Only the nearest roll between one and the top of the ladder counts. -/
theorem winner_eq_of_clamped {roll' : Int64}
    (h : min (max roll.toInt 1) (max l.cumulativeMax.toInt 1)
      = min (max roll'.toInt 1) (max l.cumulativeMax.toInt 1)) :
    l.winner roll = l.winner roll' := by
  have hone : (1 : Int64).toInt = 1 := by decide
  have hclamped : min (max roll 1) (max l.cumulativeMax 1)
      = min (max roll' 1) (max l.cumulativeMax 1) := by
    rw [← Int64.toInt_inj]
    simp only [toInt_min, toInt_max, hone]
    exact h
  unfold winner
  rw [hclamped]

/-- Every roll counts as one on the ladder. -/
theorem exists_roll_on_ladder (hmax : 1 ≤ l.cumulativeMax.toInt) (roll : Int64) :
    ∃ roll' : Int64, 1 ≤ roll'.toInt ∧ roll'.toInt ≤ l.cumulativeMax.toInt ∧
      l.winner roll = l.winner roll' := by
  have hone : (1 : Int64).toInt = 1 := by decide
  refine ⟨min (max roll 1) l.cumulativeMax, ?_, ?_, winner_eq_of_clamped ?_⟩
  all_goals
    rw [toInt_min, toInt_max, hone]
    omega

/-- A roll on the ladder is won by a rung that covers it. -/
theorem IsLadder.exists_winner (h : IsLadder l.rungs) (hone : 1 ≤ roll.toInt)
    (hle : roll.toInt ≤ l.cumulativeMax.toInt) :
    ∃ i, ∃ hi : i < l.rungs.length, l.winner roll = some l.rungs[i].entity ∧
      reach l.rungs i < roll.toInt ∧ roll.toInt ≤ reach l.rungs (i + 1) := by
  have hclamped : min (max roll 1) (max l.cumulativeMax 1) = roll := by
    have : (1 : Int64).toInt = 1 := by decide
    rw [← Int64.toInt_inj]
    simp only [toInt_min, toInt_max, this]
    omega
  have htop := h.cumulativeMax_eq
  cases hfound : l.rungs.find? fun rung => decide (roll ≤ rung.cumulative) with
  | none =>
    -- The last rung reaches to the top, so the search does not miss.
    exfalso
    cases hlength : l.rungs.length with
    | zero =>
      rw [hlength, reach_zero] at htop
      omega
    | succ n =>
      have hlast := List.find?_eq_none.mp hfound _ (List.getElem_mem (show n < _ by omega))
      have hcumulative := h.cumulative n (by omega)
      rw [decide_eq_true_eq, Int64.le_iff_toInt_le] at hlast
      rw [hlength] at htop
      omega
  | some rung =>
    obtain ⟨hcovers, i, hi, rfl, hbefore⟩ := List.find?_eq_some_iff_getElem.mp hfound
    refine ⟨i, hi, ?_, ?_, ?_⟩
    · simp only [winner, hclamped, hfound]
      rfl
    · cases i with
      | zero =>
        rw [reach_zero]
        omega
      | succ i =>
        have hmissed := hbefore i (by omega)
        rw [Bool.not_eq_true', decide_eq_false_iff_not, Int64.le_iff_toInt_le,
          h.cumulative i (by omega)] at hmissed
        omega
    · rw [decide_eq_true_eq, Int64.le_iff_toInt_le, h.cumulative i hi] at hcovers
      exact hcovers

/-- A rung wins the rolls that it covers. -/
theorem IsLadder.winner_eq_some_iff (h : IsLadder l.rungs) (hone : 1 ≤ roll.toInt)
    (hle : roll.toInt ≤ l.cumulativeMax.toInt) {i : Nat} (hi : i < l.rungs.length) :
    l.winner roll = some l.rungs[i].entity ↔
      reach l.rungs i < roll.toInt ∧ roll.toInt ≤ reach l.rungs (i + 1) := by
  obtain ⟨j, hj, hwinner, hbelow, habove⟩ := h.exists_winner hone hle
  constructor
  · intro hi'
    have hentity := Option.some.inj (hwinner.symm.trans hi')
    have hrung : l.rungs[j] = l.rungs[i] :=
      List.inj_on_of_nodup_map h.nodup (List.getElem_mem hj) (List.getElem_mem hi) hentity
    obtain rfl : j = i := (h.nodup.of_map _).getElem_inj_iff.mp hrung
    exact ⟨hbelow, habove⟩
  · intro hcovers
    -- Of two rungs that cover one roll, neither lies wholly above the other.
    rcases lt_trichotomy j i with hij | rfl | hij
    · have hmono := h.reach_mono (show j + 1 ≤ i from hij)
      omega
    · exact hwinner
    · have hmono := h.reach_mono (show i + 1 ≤ j from hij)
      omega

/-- How many of the rolls from one to the top of the ladder an entity wins. -/
def rollsWonBy (l : Lottery) (e : Entity) : Nat :=
  Nat.count (fun n => l.winner (Int64.ofNat (1 + n)) = some e) l.cumulativeMax.toInt.toNat

theorem rollsWonBy_eq_zero {e : Entity} (h : ∀ roll, l.winner roll ≠ some e) :
    l.rollsWonBy e = 0 :=
  Nat.count_of_forall_not fun _ _ => h _

/-- A rung wins as many rolls as lie between its ends. -/
theorem IsLadder.rollsWonBy_rung (h : IsLadder l.rungs) {i : Nat} (hi : i < l.rungs.length) :
    (l.rollsWonBy l.rungs[i].entity : Int) = reach l.rungs (i + 1) - reach l.rungs i := by
  have hbottom : 0 ≤ reach l.rungs i := by
    rw [← reach_zero l.rungs]
    exact h.reach_mono (Nat.zero_le i)
  have hstep := h.reach_mono (show i ≤ i + 1 by omega)
  have htop : reach l.rungs (i + 1) ≤ l.cumulativeMax.toInt := by
    rw [h.cumulativeMax_eq]
    exact h.reach_mono hi
  have hamount := l.cumulativeMax.toInt_lt
  have hwon : (Finset.range l.cumulativeMax.toInt.toNat).filter
        (fun n => l.winner (Int64.ofNat (1 + n)) = some l.rungs[i].entity)
      = Finset.Ico (reach l.rungs i).toNat (reach l.rungs (i + 1)).toNat := by
    ext n
    rw [Finset.mem_filter, Finset.mem_range, Finset.mem_Ico]
    constructor
    · rintro ⟨hn, hwinner⟩
      have hroll : (Int64.ofNat (1 + n)).toInt = (1 + n : Nat) :=
        Int64.toInt_ofNat_of_lt (by omega)
      have hcovers := (h.winner_eq_some_iff (by omega) (by omega) hi).mp hwinner
      omega
    · intro hn
      have hroll : (Int64.ofNat (1 + n)).toInt = (1 + n : Nat) :=
        Int64.toInt_ofNat_of_lt (by omega)
      exact ⟨by omega, (h.winner_eq_some_iff (by omega) (by omega) hi).mpr (by omega)⟩
  rw [rollsWonBy, Nat.count_eq_card_filter_range, hwon, Nat.card_Ico]
  omega

end Rolls

section Entries

variable {t : Tuning} {cut : Int64} {entries : List (Entity × Int64)} {l : Lottery}

theorem toInt_remainder {v : Int64} (hcut : 0 ≤ cut) (hle : cut ≤ v) :
    (v - cut).toInt = v.toInt - cut.toInt := by
  rw [Int64.le_iff_toInt_le] at hcut hle
  exact toInt_sub_of_nonneg (le_trans hcut hle) hcut

theorem nodup_contenders (h : (entries.map (·.1)).Nodup) :
    ((contenders cut entries).map (·.1)).Nodup := by
  rw [((contenders_perm cut entries).map _).nodup_iff, List.map_map]
  exact h.sublist (List.filter_sublist.map _)

theorem contenders_isLadder (hcut : 0 ≤ cut) (hnodup : (entries.map (·.1)).Nodup) :
    IsLadder (climb 0 (contenders cut entries)) := by
  refine climb_isLadder (fun a ha => ?_) (nodup_contenders hnodup)
  obtain ⟨v, -, hle, hv⟩ := mem_contenders.mp ha
  rw [hv, toInt_remainder hcut hle]
  rw [Int64.le_iff_toInt_le] at hle
  omega

theorem build_isLadder (hbuilt : build t entries = some l) (hcut : 0 ≤ l.cut)
    (hnodup : (entries.map (·.1)).Nodup) : IsLadder l.rungs := by
  rw [rungs_of_build hbuilt]
  exact contenders_isLadder hcut hnodup

/-- Whoever is not above the cut wins nothing. -/
theorem winner_ne_of_le_cut (hbuilt : build t entries = some l)
    (hnodup : (entries.map (·.1)).Nodup) (hcut : 0 ≤ l.cut) (hmax : 1 ≤ l.cumulativeMax.toInt)
    {e : Entity} {v : Int64} (hentry : (e, v) ∈ entries) (hle : v ≤ l.cut) (roll : Int64) :
    l.winner roll ≠ some e := by
  intro hwon
  have hladder := build_isLadder hbuilt hcut hnodup
  obtain ⟨roll', hone, htop, hroll⟩ := exists_roll_on_ladder hmax roll
  obtain ⟨i, hi, hwinner, hbelow, habove⟩ := hladder.exists_winner hone htop
  obtain rfl := Option.some.inj (hwinner.symm.trans (hroll.symm.trans hwon))
  obtain ⟨v', hentry', hle', hremainder⟩ := exists_entry hbuilt (List.getElem_mem hi)
  obtain rfl : v' = v :=
    congrArg Prod.snd (List.inj_on_of_nodup_map hnodup hentry' hentry rfl)
  have hwidth := hladder.reach_succ_le hi
  rw [hremainder, toInt_remainder hcut hle'] at hwidth
  rw [Int64.le_iff_toInt_le] at hle
  omega

theorem rollsWonBy_eq (hbuilt : build t entries = some l)
    (hnodup : (entries.map (·.1)).Nodup) (hcut : 0 ≤ l.cut)
    (htotal : (l.rungs.map (·.remainder.toInt)).sum ≤ Int64.maxValue.toInt) {e : Entity}
    {v : Int64} (hentry : (e, v) ∈ entries) (hle : l.cut ≤ v) :
    (l.rollsWonBy e : Int) = v.toInt - l.cut.toInt := by
  have hladder := build_isLadder hbuilt hcut hnodup
  obtain ⟨rung, hrung, rfl, hremainder⟩ := exists_rung hbuilt hentry hle
  obtain ⟨i, hi, rfl⟩ := List.mem_iff_getElem.mp hrung
  rw [hladder.rollsWonBy_rung hi, hladder.reach_succ htotal hi, hremainder,
    toInt_remainder hcut hle]
  omega

variable {others : List (Entity × Int64)}

theorem build_of_perm (hperm : others.Perm entries) (hbuilt : build t entries = some l) :
    ∃ l', build t others = some l' ∧ l'.cut = l.cut := by
  have hmax : (others.map (·.2)).max? = (entries.map (·.2)).max? := by
    ext m
    rw [List.max?_eq_some_iff, List.max?_eq_some_iff]
    simp only [(hperm.map _).mem_iff]
  unfold build at hbuilt ⊢
  rw [hmax]
  split at hbuilt
  · cases hbuilt
  · dsimp only at hbuilt ⊢
    split at hbuilt
    · cases hbuilt
    · next hfloor =>
      obtain rfl := Option.some.inj hbuilt
      rw [if_neg hfloor]
      exact ⟨_, rfl, rfl⟩

theorem remainders_perm (hperm : others.Perm entries) {l' : Lottery}
    (hbuilt : build t entries = some l) (hbuilt' : build t others = some l')
    (hcut : l'.cut = l.cut) :
    (l'.rungs.map (·.remainder.toInt)).Perm (l.rungs.map (·.remainder.toInt)) := by
  rw [rungs_of_build hbuilt, rungs_of_build hbuilt', hcut, climb_remainders, climb_remainders]
  refine List.Perm.map _ ((contenders_perm _ _).trans (.trans ?_ (contenders_perm _ _).symm))
  exact (hperm.filter _).map _

theorem cumulativeMax_of_perm (hperm : others.Perm entries) {l' : Lottery}
    (hbuilt : build t entries = some l) (hbuilt' : build t others = some l')
    (hcut : l'.cut = l.cut) (hladder : IsLadder l.rungs) (hladder' : IsLadder l'.rungs) :
    l'.cumulativeMax = l.cumulativeMax := by
  rw [← Int64.toInt_inj, hladder.cumulativeMax_eq, hladder'.cumulativeMax_eq, reach_length,
    reach_length, (remainders_perm hperm hbuilt hbuilt' hcut).sum_eq]

theorem rollsWonBy_of_perm (hperm : others.Perm entries) {l' : Lottery}
    (hbuilt : build t entries = some l) (hbuilt' : build t others = some l')
    (hsame : l'.cut = l.cut) (hnodup : (entries.map (·.1)).Nodup) (hcut : 0 ≤ l.cut)
    (htotal : (l.rungs.map (·.remainder.toInt)).sum ≤ Int64.maxValue.toInt) (e : Entity) :
    l'.rollsWonBy e = l.rollsWonBy e := by
  have hnodup' : (others.map (·.1)).Nodup := (hperm.map _).nodup_iff.mpr hnodup
  have htotal' := htotal
  rw [← (remainders_perm hperm hbuilt hbuilt' hsame).sum_eq] at htotal'
  by_cases hstands : ∃ v, (e, v) ∈ entries ∧ l.cut ≤ v
  · obtain ⟨v, hentry, hle⟩ := hstands
    have hcount := rollsWonBy_eq hbuilt hnodup hcut htotal hentry hle
    have hcount' := rollsWonBy_eq hbuilt' hnodup' (hsame ▸ hcut) htotal'
      (hperm.mem_iff.mpr hentry) (hsame ▸ hle)
    rw [hsame] at hcount'
    omega
  · have hnone : ∀ roll, l.winner roll ≠ some e := by
      intro roll hwinner
      obtain ⟨rung, hrung, rfl⟩ := mem_of_winner hwinner
      obtain ⟨v, hentry, hle, -⟩ := exists_entry hbuilt hrung
      exact hstands ⟨v, hentry, hle⟩
    have hnone' : ∀ roll, l'.winner roll ≠ some e := by
      intro roll hwinner
      obtain ⟨rung, hrung, rfl⟩ := mem_of_winner hwinner
      obtain ⟨v, hentry, hle, -⟩ := exists_entry hbuilt' hrung
      exact hstands ⟨v, hperm.mem_iff.mp hentry, hsame ▸ hle⟩
    rw [rollsWonBy_eq_zero hnone, rollsWonBy_eq_zero hnone']

end Entries

/-- In a lottery with distinct entities, a cut that is not negative and a ladder to climb, every
rung wins the rolls above the reach of the rungs below it and up to its own, and a roll beside the
ladder counts as its nearest end. Whoever is not above the cut wins no roll at all. If the
remainders do not add up to more than the largest amount, everybody above the cut wins as many rolls
as they have threat above it: the same for equal threat, and the same if the entries are listed in
another order. -/
theorem build_exact_odds {t : Tuning} {entries : List (Entity × Int64)} {l : Lottery}
    (hbuilt : build t entries = some l) (hnodup : (entries.map (·.1)).Nodup) (hcut : 0 ≤ l.cut)
    (hmax : 1 ≤ l.cumulativeMax) :
    (∀ roll, 1 ≤ roll → roll ≤ l.cumulativeMax → ∀ i (hi : i < l.rungs.length),
      (l.winner roll = some l.rungs[i].entity ↔
        reach l.rungs i < roll.toInt ∧ roll.toInt ≤ reach l.rungs (i + 1))) ∧
    (∀ roll, roll < 1 → l.winner roll = l.winner 1) ∧
    (∀ roll, l.cumulativeMax < roll → l.winner roll = l.winner l.cumulativeMax) ∧
    (∀ e v, (e, v) ∈ entries → v ≤ l.cut → ∀ roll, l.winner roll ≠ some e) ∧
    ((l.rungs.map (·.remainder.toInt)).sum ≤ Int64.maxValue.toInt →
      (∀ e v, (e, v) ∈ entries → l.cut ≤ v →
        (l.rollsWonBy e : Int) = v.toInt - l.cut.toInt) ∧
      (∀ e e' v, (e, v) ∈ entries → (e', v) ∈ entries → l.rollsWonBy e = l.rollsWonBy e') ∧
      ∀ others, others.Perm entries → ∃ l', build t others = some l' ∧ l'.cut = l.cut ∧
        l'.cumulativeMax = l.cumulativeMax ∧ ∀ e, l'.rollsWonBy e = l.rollsWonBy e) := by
  have hladder := build_isLadder hbuilt hcut hnodup
  have hone : (1 : Int64).toInt = 1 := by decide
  have htop := hmax
  rw [Int64.le_iff_toInt_le, hone] at htop
  have hnone {e : Entity} {v : Int64} (hentry : (e, v) ∈ entries) (hle : v ≤ l.cut) :
      ∀ roll, l.winner roll ≠ some e :=
    winner_ne_of_le_cut hbuilt hnodup hcut htop hentry hle
  constructor
  · intro roll hroll hle i hi
    rw [Int64.le_iff_toInt_le] at hroll hle
    exact hladder.winner_eq_some_iff (by omega) hle hi
  constructor
  · intro roll hroll
    rw [Int64.lt_iff_toInt_lt] at hroll
    exact winner_eq_of_clamped (by omega)
  constructor
  · intro roll hroll
    rw [Int64.lt_iff_toInt_lt] at hroll
    exact winner_eq_of_clamped (by omega)
  constructor
  · exact fun e v => hnone
  intro htotal
  have hcount {e : Entity} {v : Int64} (hentry : (e, v) ∈ entries) (hle : l.cut ≤ v) :
      (l.rollsWonBy e : Int) = v.toInt - l.cut.toInt :=
    rollsWonBy_eq hbuilt hnodup hcut htotal hentry hle
  constructor
  · exact fun e v => hcount
  constructor
  · intro e e' v hentry hentry'
    rcases Int64.le_total l.cut v with hle | hle
    · have hwins := hcount hentry hle
      have hwins' := hcount hentry' hle
      omega
    · rw [rollsWonBy_eq_zero (hnone hentry hle), rollsWonBy_eq_zero (hnone hentry' hle)]
  · intro others hperm
    obtain ⟨l', hbuilt', hsame⟩ := build_of_perm hperm hbuilt
    have hladder' := build_isLadder hbuilt' (hsame ▸ hcut) ((hperm.map _).nodup_iff.mpr hnodup)
    exact ⟨l', hbuilt', hsame, cumulativeMax_of_perm hperm hbuilt hbuilt' hsame hladder hladder',
      rollsWonBy_of_perm hperm hbuilt hbuilt' hsame hnodup hcut htotal⟩

/-- A bystander, a helper and the one who did most of the damage. -/
def brawl : List (Entity × Int64) := [(⟨1, 1⟩, 100), (⟨2, 1⟩, 300), (⟨3, 1⟩, 500)]

theorem brawl_exact_odds :
    ∃ l, build {} brawl = some l ∧ (brawl.map (·.1)).Nodup ∧ 0 ≤ l.cut ∧ 1 ≤ l.cumulativeMax ∧
      (∀ roll, l.winner roll ≠ some ⟨1, 1⟩) ∧ l.rollsWonBy ⟨2, 1⟩ = 50 ∧
      l.rollsWonBy ⟨3, 1⟩ = 250 := by
  have hmax : (brawl.map (·.2)).max? = some 500 := by decide
  have hcut : cutOf {} 500 = 250 := by decide +kernel
  have hcontenders : contenders 250 brawl = [(⟨2, 1⟩, 50), (⟨3, 1⟩, 250)] := by
    rw [contenders, List.mergeSort_of_pairwise (by decide)]
    decide
  let rungs : List Rung := [⟨⟨2, 1⟩, 50, 50⟩, ⟨⟨3, 1⟩, 250, 300⟩]
  have hrungs : climb 0 [(⟨2, 1⟩, 50), (⟨3, 1⟩, 250)] = rungs := by decide
  have hbuilt : build {} brawl = some ⟨500, 250, rungs, ⟨shares rungs, safe 250 brawl⟩⟩ := by
    unfold build
    rw [hmax]
    dsimp only
    rw [if_neg (by decide), hcut, hcontenders, hrungs]
  obtain ⟨-, -, -, hnone, hcount⟩ :=
    build_exact_odds hbuilt (by decide) (by decide) (by decide)
  obtain ⟨hcount, -, -⟩ := hcount (by decide)
  refine ⟨_, hbuilt, by decide, by decide, by decide, ?_, ?_, ?_⟩
  · exact hnone ⟨1, 1⟩ 100 (by decide) (by decide)
  · exact Int.ofNat.inj (hcount ⟨2, 1⟩ 300 (by decide) (by decide))
  · exact Int.ofNat.inj (hcount ⟨3, 1⟩ 500 (by decide) (by decide))

end Lottery

end Hostility
