import Mathlib.Data.List.DropRight
import Mathlib.Data.List.Induction
import Hostility.DamageLog

/-!
The window of a damage log. After any records and clears a log holds the last hits since the latest
clear, as many as it has room for. Who did the most damage is read off that window: the sums of the
attackers stand in the order of their first hits, and the first of the largest is taken.
-/
namespace Hostility

/-- What comes before the last ones of a list may be cut to its own last ones. -/
theorem rtake_rtake_append {α : Type} (n : Nat) (l l' : List α) :
    (l.rtake n ++ l').rtake n = (l ++ l').rtake n := by
  unfold List.rtake
  rw [← List.drop_append_of_le_length (by omega), List.drop_drop]
  congr 1
  simp only [List.length_drop, List.length_append]
  omega

theorem map_rtake {α β : Type} (f : α → β) (n : Nat) (l : List α) :
    (l.rtake n).map f = (l.map f).rtake n := by
  rw [List.rtake, List.rtake, List.map_drop, List.length_map]

/-- A full window loses its oldest member to the newest one. -/
theorem slide_eq_rtake {α : Type} {n : Nat} {l : List α} (hn : 1 ≤ n) (hl : l.length ≤ n) (a : α) :
    (if n ≤ l.length then l.drop 1 else l) ++ [a] = (l ++ [a]).rtake n := by
  unfold List.rtake
  split
  · rw [← List.drop_append_of_le_length (by omega)]
    congr 1
    simp only [List.length_append, List.length_singleton]
    omega
  · rw [show (l ++ [a]).length - n = 0 by simp; omega, List.drop_zero]

theorem length_rtake_le {α : Type} (n : Nat) (l : List α) : (l.rtake n).length ≤ n := by
  rw [List.rtake, List.length_drop]
  omega

namespace DamageLog

/-- What is done to a log. -/
inductive Step where
  | record (hit : Hit)
  | clear

def Step.hit? : Step → Option Hit
  | record hit => some hit
  | clear => none

def after (log : DamageLog) : Step → DamageLog
  | .record hit => log.record hit
  | .clear => log.clear

/-- The log after some steps, the first of them first. -/
def afterAll (log : DamageLog) (steps : List Step) : DamageLog := steps.foldl after log

/-- The hits recorded since the latest clear, oldest first. -/
def sinceClear (steps : List Step) : List Hit :=
  (steps.rtakeWhile fun step => step.hit?.isSome).filterMap Step.hit?

theorem sinceClear_record (steps : List Step) (hit : Hit) :
    sinceClear (steps ++ [.record hit]) = sinceClear steps ++ [hit] := by
  rw [sinceClear, List.rtakeWhile_concat_pos _ _ _ rfl, List.filterMap_append]
  rfl

theorem sinceClear_clear (steps : List Step) : sinceClear (steps ++ [.clear]) = [] := by
  rw [sinceClear, List.rtakeWhile_concat_neg _ _ _ (by simp [Step.hit?])]
  rfl

theorem afterAll_concat (log : DamageLog) (steps : List Step) (step : Step) :
    log.afterAll (steps ++ [step]) = (log.afterAll steps).after step := by
  rw [afterAll, List.foldl_append]
  rfl

theorem capacity_afterAll (log : DamageLog) (steps : List Step) :
    (log.afterAll steps).capacity = log.capacity := by
  induction steps using List.reverseRecOn with
  | nil => rfl
  | append_singleton steps step ih =>
    rw [afterAll_concat, ← ih]
    cases step <;> rfl

theorem entries_afterAll (capacity : Nat) (steps : List Step) :
    ((ofCapacity capacity).afterAll steps).entries =
      (sinceClear steps).rtake (max capacity 1) := by
  induction steps using List.reverseRecOn with
  | nil => exact (List.rtake_nil _).symm
  | append_singleton steps step ih =>
    rw [afterAll_concat]
    cases step with
    | clear =>
      rw [sinceClear_clear, List.rtake_nil]
      rfl
    | record hit =>
      have hcapacity : ((ofCapacity capacity).afterAll steps).capacity = max capacity 1 :=
        capacity_afterAll _ steps
      show (if _ ≤ _ then _ else _) ++ [hit] = _
      rw [hcapacity, ih, slide_eq_rtake (by omega) (length_rtake_le _ _), rtake_rtake_append,
        sinceClear_record]

def attackers (hits : List Hit) : List Entity := hits.map (·.attacker)

/-- What an attacker did in some hits, one after the other. -/
def damageOf (hits : List Hit) (e : Entity) : Int64 :=
  satSum ((hits.filter fun hit => hit.attacker = e).map (·.amount))

/-- The attackers in the order of their first hits. -/
def ranked (hits : List Hit) : List Entity :=
  hits.foldl (fun known hit => if hit.attacker ∈ known then known else known ++ [hit.attacker]) []

theorem ranked_concat (hits : List Hit) (hit : Hit) :
    ranked (hits ++ [hit]) =
      if hit.attacker ∈ ranked hits then ranked hits else ranked hits ++ [hit.attacker] := by
  rw [ranked, List.foldl_append]
  rfl

theorem totals_concat (hits : List Hit) (hit : Hit) :
    totals (hits ++ [hit]) = addTotal hit.attacker hit.amount (totals hits) := by
  rw [totals, List.foldl_append]
  rfl

theorem attackers_concat (hits : List Hit) (hit : Hit) :
    attackers (hits ++ [hit]) = attackers hits ++ [hit.attacker] := List.map_append

theorem mem_ranked {hits : List Hit} {e : Entity} : e ∈ ranked hits ↔ e ∈ attackers hits := by
  induction hits using List.reverseRecOn generalizing e with
  | nil => rfl
  | append_singleton hits hit ih =>
    rw [ranked_concat, attackers_concat, List.mem_append, List.mem_singleton]
    split
    · next hknown =>
      rw [ih]
      refine ⟨.inl, fun h => h.elim id ?_⟩
      rintro rfl
      exact ih.mp hknown
    · rw [List.mem_append, List.mem_singleton, ih]

/-- Whoever stands earlier hit earlier for the first time. -/
theorem ranked_pairwise (hits : List Hit) :
    (ranked hits).Pairwise fun e k => (attackers hits).idxOf e < (attackers hits).idxOf k := by
  induction hits using List.reverseRecOn with
  | nil => exact .nil
  | append_singleton hits hit ih =>
    have hold : ∀ e ∈ ranked hits,
        (attackers (hits ++ [hit])).idxOf e = (attackers hits).idxOf e := by
      intro e he
      rw [attackers_concat, List.idxOf_append, if_pos (mem_ranked.mp he)]
    have hstay : (ranked hits).Pairwise fun e k =>
        (attackers (hits ++ [hit])).idxOf e < (attackers (hits ++ [hit])).idxOf k := by
      refine ih.imp_of_mem fun he hk hlt => ?_
      rwa [hold _ he, hold _ hk]
    rw [ranked_concat]
    split
    · exact hstay
    · next hnew =>
      refine List.pairwise_append.mpr ⟨hstay, List.pairwise_singleton .., fun e he k hk => ?_⟩
      obtain rfl := List.mem_singleton.mp hk
      have hearlier : (attackers hits).idxOf e < (attackers hits).length :=
        List.idxOf_lt_length_iff.mpr (mem_ranked.mp he)
      rw [hold e he, attackers_concat, List.idxOf_append, if_neg (mt mem_ranked.mpr hnew)]
      omega

theorem ranked_nodup (hits : List Hit) : (ranked hits).Nodup :=
  (ranked_pairwise hits).imp fun hlt heq => by
    rw [heq] at hlt
    exact Nat.lt_irrefl _ hlt

/-- A sum goes on where its first terms left it. -/
theorem damageOf_concat (hits : List Hit) (hit : Hit) (e : Entity) :
    damageOf (hits ++ [hit]) e =
      if e = hit.attacker then satAdd (damageOf hits e) hit.amount else damageOf hits e := by
  unfold damageOf satSum
  rw [List.filter_append]
  by_cases he : e = hit.attacker
  · rw [if_pos he, List.filter_cons_of_pos (by simp [he]), List.map_append, List.foldl_append]
    rfl
  · rw [if_neg he, List.filter_cons_of_neg (by simp [Ne.symm he]), List.filter_nil,
      List.append_nil]

theorem damageOf_of_not_mem {hits : List Hit} {e : Entity} (h : e ∉ attackers hits) :
    damageOf hits e = 0 := by
  have hnone : (hits.filter fun hit => hit.attacker = e) = [] := by
    rw [List.filter_eq_nil_iff]
    intro hit hhit heq
    exact h (List.mem_map.mpr ⟨hit, hhit, by simpa using heq⟩)
  rw [damageOf, hnone]
  rfl

theorem satAdd_zero_left (a : Int64) : satAdd 0 a = a := by
  rw [← Int64.toInt_inj, satAdd, toInt_saturate]
  have hmin := a.minValue_le_toInt
  have hmax := a.toInt_le
  have hzero : (0 : Int64).toInt = 0 := rfl
  omega

theorem addTotal_of_mem (e : Entity) (amount : Int64) (sum : Entity → Int64) {known : List Entity}
    (hnodup : known.Nodup) (he : e ∈ known) :
    addTotal e amount (known.map fun k => (k, sum k)) =
      known.map fun k => (k, if k = e then satAdd (sum k) amount else sum k) := by
  induction known with
  | nil => cases he
  | cons k rest ih =>
    rw [List.nodup_cons] at hnodup
    rw [List.map_cons, List.map_cons, addTotal]
    by_cases hk : k = e
    · rw [if_pos hk, if_pos hk]
      congr 1
      refine List.map_congr_left fun k' hk' => ?_
      have hne : k' ≠ e := by
        rintro rfl
        exact hnodup.1 (hk ▸ hk')
      rw [if_neg hne]
    · rw [if_neg hk, if_neg hk, ih hnodup.2 ((List.mem_cons.mp he).resolve_left (Ne.symm hk))]

theorem addTotal_of_not_mem (e : Entity) (amount : Int64) (sum : Entity → Int64)
    {known : List Entity} (he : e ∉ known) :
    addTotal e amount (known.map fun k => (k, sum k)) =
      (known.map fun k => (k, sum k)) ++ [(e, amount)] := by
  induction known with
  | nil => rfl
  | cons k rest ih =>
    rw [List.mem_cons, not_or] at he
    rw [List.map_cons, addTotal, if_neg (Ne.symm he.1), ih he.2, List.cons_append]

/-- The sums are those of the attackers in the order of their first hits. -/
theorem totals_eq (hits : List Hit) :
    totals hits = (ranked hits).map fun e => (e, damageOf hits e) := by
  induction hits using List.reverseRecOn with
  | nil => rfl
  | append_singleton hits hit ih =>
    rw [totals_concat, ih, ranked_concat]
    split
    · next hknown =>
      rw [addTotal_of_mem _ _ _ (ranked_nodup hits) hknown]
      simp only [damageOf_concat]
    · next hnew =>
      rw [addTotal_of_not_mem _ _ _ hnew, List.map_append]
      congr 1
      · refine List.map_congr_left fun k hk => ?_
        have hne : k ≠ hit.attacker := by
          rintro rfl
          exact hnew hk
        rw [damageOf_concat, if_neg hne]
      · have hnone := damageOf_of_not_mem (mt mem_ranked.mpr hnew)
        rw [List.map_singleton, damageOf_concat, if_pos rfl, hnone, satAdd_zero_left]

theorem largest_concat (l : List (Entity × Int64)) (next : Entity × Int64) :
    largest (l ++ [next]) =
      match largest l with
      | some best => if next.2 ≤ best.2 then some best else some next
      | none => some next := by
  rw [largest, List.foldl_append]
  rfl

theorem largest_eq_none_iff {l : List (Entity × Int64)} : largest l = none ↔ l = [] := by
  induction l using List.reverseRecOn with
  | nil => exact ⟨fun _ => rfl, fun _ => rfl⟩
  | append_singleton l next ih =>
    rw [largest_concat]
    cases largest l with
    | none => simp
    | some best =>
      dsimp only
      split <;> simp

/-- Whatever stands before the largest is lower, and nothing after it is higher. -/
theorem split_of_largest {l : List (Entity × Int64)} {best : Entity × Int64}
    (h : largest l = some best) :
    ∃ before after, l = before ++ best :: after ∧ (∀ p ∈ before, p.2 < best.2) ∧
      ∀ p ∈ after, p.2 ≤ best.2 := by
  induction l using List.reverseRecOn generalizing best with
  | nil => cases h
  | append_singleton l next ih =>
    rw [largest_concat] at h
    cases hl : largest l with
    | none =>
      rw [hl] at h
      obtain rfl := Option.some.inj h
      rw [largest_eq_none_iff.mp hl]
      exact ⟨[], [], rfl, by simp, by simp⟩
    | some old =>
      obtain ⟨before, after, rfl, hbefore, hafter⟩ := ih hl
      rw [hl] at h
      dsimp only at h
      split at h
      · next hle =>
        obtain rfl := Option.some.inj h
        refine ⟨before, after ++ [next], by simp, hbefore, fun p hp => ?_⟩
        rcases List.mem_append.mp hp with hp | hp
        · exact hafter p hp
        · rwa [List.mem_singleton.mp hp]
      · next hgt =>
        obtain rfl := Option.some.inj h
        have hlt : old.2 < next.2 := Int64.not_le.mp hgt
        refine ⟨before ++ old :: after, [], rfl, fun p hp => ?_, by simp⟩
        rcases List.mem_append.mp hp with hp | hp
        · exact Int64.lt_trans (hbefore p hp) hlt
        · rcases List.mem_cons.mp hp with rfl | hp
          · exact hlt
          · exact Int64.lt_of_le_of_lt (hafter p hp) hlt

/-- An attacker did more damage than every other, or as much and hit before it. -/
structure Leads (hits : List Hit) (e : Entity) : Prop where
  attacks : e ∈ attackers hits
  others : ∀ k ∈ attackers hits, k ≠ e → damageOf hits k < damageOf hits e ∨
    damageOf hits k = damageOf hits e ∧ (attackers hits).idxOf e < (attackers hits).idxOf k

theorem Leads.unique {hits : List Hit} {e k : Entity} (he : Leads hits e) (hk : Leads hits k) :
    e = k := by
  by_contra hne
  have hbelow := he.others k hk.attacks (Ne.symm hne)
  have habove := hk.others e he.attacks hne
  simp only [Int64.lt_iff_toInt_lt, ← Int64.toInt_inj] at hbelow habove
  omega

theorem leads_of_largest {hits : List Hit} {best : Entity × Int64}
    (h : largest (totals hits) = some best) : Leads hits best.1 := by
  obtain ⟨before, after, hsplit, hbefore, hafter⟩ := split_of_largest h
  rw [totals_eq, List.map_eq_append_iff] at hsplit
  obtain ⟨earlier, rest, hranked, rfl, hrest⟩ := hsplit
  obtain ⟨e, later, rfl, rfl, rfl⟩ := List.map_eq_cons_iff.mp hrest
  have horder := ranked_pairwise hits
  rw [hranked] at horder
  refine ⟨mem_ranked.mp (by simp [hranked]), fun k hk hne => ?_⟩
  rw [← mem_ranked, hranked, List.mem_append, List.mem_cons] at hk
  rcases hk with hk | rfl | hk
  · exact .inl (hbefore (k, damageOf hits k) (List.mem_map.mpr ⟨k, hk, rfl⟩))
  · exact absurd rfl hne
  · have hle : damageOf hits k ≤ damageOf hits e :=
      hafter (k, damageOf hits k) (List.mem_map.mpr ⟨k, hk, rfl⟩)
    have hfirst := (List.pairwise_cons.mp (List.pairwise_append.mp horder).2.1).1 k hk
    rcases Int64.lt_or_eq_of_le hle with hlt | heq
    · exact .inl hlt
    · exact .inr ⟨heq, hfirst⟩

theorem totals_eq_nil_iff {hits : List Hit} : totals hits = [] ↔ hits = [] := by
  rw [totals_eq, List.map_eq_nil_iff, List.eq_nil_iff_forall_not_mem]
  simp only [mem_ranked, attackers]
  rw [← List.eq_nil_iff_forall_not_mem, List.map_eq_nil_iff]

theorem topDamager_eq_none_iff {log : DamageLog} : log.topDamager = none ↔ log.entries = [] := by
  rw [topDamager, Option.map_eq_none_iff, largest_eq_none_iff, totals_eq_nil_iff]

theorem topDamager_eq_some_iff {log : DamageLog} {e : Entity} :
    log.topDamager = some e ↔ Leads log.entries e := by
  constructor
  · intro h
    obtain ⟨best, hbest, rfl⟩ := Option.map_eq_some_iff.mp h
    exact leads_of_largest hbest
  · intro h
    cases hbest : largest (totals log.entries) with
    | none =>
      have hattacks := h.attacks
      rw [totals_eq_nil_iff.mp (largest_eq_none_iff.mp hbest)] at hattacks
      cases hattacks
    | some best =>
      rw [topDamager, hbest, h.unique (leads_of_largest hbest)]
      rfl

/-- A log is a window on the hits since the latest clear: it holds the last of them, one at least if
there are any. The last damager struck the newest blow in the window, and the top damager did the
most damage in it, the earlier one of equals. -/
theorem afterAll_window (capacity : Nat) (steps : List Step) :
    let log := (ofCapacity capacity).afterAll steps
    let window := (sinceClear steps).rtake (max capacity 1)
    log.entries = window ∧
      log.lastDamager = window.getLast?.map (·.attacker) ∧
      (log.topDamager = none ↔ window = []) ∧
      ∀ e, log.topDamager = some e ↔ Leads window e := by
  intro log window
  have hentries : log.entries = window := entries_afterAll capacity steps
  refine ⟨hentries, ?_, ?_, fun e => ?_⟩
  · rw [lastDamager, hentries]
  · rw [topDamager_eq_none_iff, hentries]
  · rw [topDamager_eq_some_iff, hentries]

/-- The oldest hit is forgotten, and of two who did as much the first one leads. -/
example :
    let hits := [⟨⟨1, 1⟩, 100, 0⟩, ⟨⟨2, 1⟩, -3, 1⟩, ⟨⟨1, 1⟩, 4, 2⟩, ⟨⟨2, 1⟩, 7, 3⟩]
    ((ofCapacity 3).afterAll (hits.map .record)).topDamager = some ⟨2, 1⟩ := by decide

end DamageLog

end Hostility
