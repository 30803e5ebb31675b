import Hostility.Proofs.LotteryOdds

/-!
How a lottery sorts out its entries. Those at or above the cut stand on the ladder, the ones with
the least above it first and equals as they were listed, and have a share in the outlook; the others
lie below the cut in the outlook. Nobody is lost, counted twice or added.
-/
namespace Hostility

namespace Lottery

/-- An entry is on the ladder with what it has above the cut, or it lies below the cut, and it is in
the part of the outlook that goes with that. -/
def Places (l : Lottery) (e : Entity) (v : Int64) : Prop :=
  (l.cut ≤ v ∧ (∃ rung ∈ l.rungs, rung.entity = e ∧ rung.remainder.toInt = v.toInt - l.cut.toInt) ∧
    l.outlook.positive.contains e = true ∧ l.outlook.negative.contains e = false) ∨
  (v < l.cut ∧ (∀ rung ∈ l.rungs, rung.entity ≠ e) ∧
    l.outlook.positive.contains e = false ∧ l.outlook.negative.contains e = true)

structure SortsOut (entries : List (Entity × Int64)) (l : Lottery) : Prop where
  each : ∀ e v, (e, v) ∈ entries → l.Places e v
  nobodyElse : ∀ e, e ∉ entries.map (·.1) →
    l.outlook.positive.contains e = false ∧ l.outlook.negative.contains e = false
  rungs : (l.rungs.map fun rung => (rung.entity, rung.remainder.toInt)).Perm
    ((entries.filter fun a => l.cut ≤ a.2).map fun a => (a.1, a.2.toInt - l.cut.toInt))
  once : (l.rungs.map (·.entity)).Nodup
  ascending : l.rungs.Pairwise (·.remainder ≤ ·.remainder)
  /-- Those with one value stand in the order in which they are listed. -/
  ties : ∀ v, l.cut ≤ v →
    (l.rungs.filter fun rung => rung.remainder = v - l.cut).map (·.entity)
      = (entries.filter fun a => a.2 = v).map (·.1)
  cumulative : ∀ i (h : i < l.rungs.length), l.rungs[i].cumulative.toInt =
    min Int64.maxValue.toInt ((l.rungs.take (i + 1)).map (·.remainder.toInt)).sum
  climbing : l.rungs.Pairwise (·.cumulative ≤ ·.cumulative)

variable {t : Tuning} {cut : Int64} {entries : List (Entity × Int64)} {l : Lottery}

theorem build_eq_none :
    build t entries = none ↔ ∀ a ∈ entries, a.2 ≤ t.threatMinimum := by
  unfold build
  cases hmax : (entries.map (·.2)).max? with
  | none => simp [List.map_eq_nil_iff.mp (List.max?_eq_none_iff.mp hmax)]
  | some m =>
    obtain ⟨hmem, hle⟩ := List.max?_eq_some_iff.mp hmax
    have hfloor : m ≤ t.threatMinimum ↔ ∀ a ∈ entries, a.2 ≤ t.threatMinimum := by
      constructor
      · exact fun h a ha => Int64.le_trans (hle _ (List.mem_map_of_mem ha)) h
      · intro h
        obtain ⟨a, ha, rfl⟩ := List.mem_map.mp hmem
        exact h a ha
    rw [← hfloor]
    simp

section Ladder

variable (cut : Int64) (entries : List (Entity × Int64))

theorem lowerFirst_trans (a b c : Entity × Int64) (hab : decide (a.2 ≤ b.2) = true)
    (hbc : decide (b.2 ≤ c.2) = true) : decide (a.2 ≤ c.2) = true := by
  rw [decide_eq_true_eq] at *
  exact Int64.le_trans hab hbc

theorem lowerFirst_total (a b : Entity × Int64) :
    (decide (a.2 ≤ b.2) || decide (b.2 ≤ a.2)) = true := by
  simpa using Int64.le_total a.2 b.2

theorem contenders_sorted : (contenders cut entries).Pairwise (·.2 ≤ ·.2) :=
  (List.pairwise_mergeSort lowerFirst_trans lowerFirst_total _).imp of_decide_eq_true

/-- Sorting leaves equals in their order. -/
theorem contenders_ties (v : Int64) :
    (contenders cut entries).filter (fun a => a.2 = v)
      = ((entries.filter fun a => decide (cut ≤ a.2)).map fun a => (a.1, a.2 - cut)).filter
          (fun a => a.2 = v) := by
  have hperm := contenders_perm cut entries
  unfold contenders at hperm ⊢
  generalize (entries.filter fun a => decide (cut ≤ a.2)).map (fun a => (a.1, a.2 - cut)) = listed
    at hperm ⊢
  have hequal : (listed.filter fun a => a.2 = v).Pairwise fun a b => decide (a.2 ≤ b.2) = true := by
    refine List.pairwise_of_forall_mem_list fun a ha b hb => ?_
    have hav := of_decide_eq_true (List.mem_filter.mp ha).2
    have hbv := of_decide_eq_true (List.mem_filter.mp hb).2
    rw [hav, hbv]
    exact decide_eq_true (Int64.le_refl v)
  have hkept := (List.sublist_mergeSort lowerFirst_trans lowerFirst_total hequal
    List.filter_sublist).filter (fun a => decide (a.2 = v))
  rw [List.filter_filter] at hkept
  simp only [Bool.and_self] at hkept
  exact (hkept.eq_of_length (hperm.symm.filter _).length_eq).symm

end Ladder

theorem IsLadder.climbing {rungs : List Rung} (h : IsLadder rungs) :
    rungs.Pairwise (·.cumulative ≤ ·.cumulative) := by
  refine List.pairwise_iff_getElem.mpr fun i j hi hj hij => ?_
  rw [Int64.le_iff_toInt_le, h.cumulative i hi, h.cumulative j hj]
  exact h.reach_mono (by omega)

section Built

variable (hbuilt : build t entries = some l)
include hbuilt

theorem rungs_pairs :
    l.rungs.map (fun rung => (rung.entity, rung.remainder)) = contenders l.cut entries := by
  rw [rungs_of_build hbuilt, climb_entries]

theorem rungs_ascending : l.rungs.Pairwise (·.remainder ≤ ·.remainder) := by
  have h := contenders_sorted l.cut entries
  rw [← rungs_pairs hbuilt, List.pairwise_map] at h
  exact h

theorem rungs_perm (hcut : 0 ≤ l.cut) :
    (l.rungs.map fun rung => (rung.entity, rung.remainder.toInt)).Perm
      ((entries.filter fun a => l.cut ≤ a.2).map fun a => (a.1, a.2.toInt - l.cut.toInt)) := by
  have hperm := (contenders_perm l.cut entries).map fun a => (a.1, a.2.toInt)
  rw [← rungs_pairs hbuilt, List.map_map, List.map_map] at hperm
  refine hperm.trans (List.Perm.of_eq (List.map_congr_left fun a ha => ?_))
  have hle : l.cut ≤ a.2 := of_decide_eq_true (List.mem_filter.mp ha).2
  exact Prod.ext rfl (toInt_remainder hcut hle)

theorem rungs_ties {v : Int64} (hle : l.cut ≤ v) :
    (l.rungs.filter fun rung => rung.remainder = v - l.cut).map (·.entity)
      = (entries.filter fun a => a.2 = v).map (·.1) := by
  have hties := congrArg (List.map (·.1)) (contenders_ties l.cut entries (v - l.cut))
  rw [← rungs_pairs hbuilt, List.filter_map, List.filter_map, List.map_map, List.map_map,
    List.filter_filter] at hties
  refine hties.trans (congrArg (List.map _) (List.filter_congr fun a _ => ?_))
  simp only [Function.comp_apply, Int64.sub_left_inj, ← Bool.decide_and, decide_eq_decide]
  exact ⟨fun h => h.1, fun h => ⟨h, h ▸ hle⟩⟩

theorem contains_positive {e : Entity} :
    l.outlook.positive.contains e = true ↔ ∃ rung ∈ l.rungs, rung.entity = e := by
  rw [(isOf_of_build hbuilt).outlook]
  show (shares l.rungs).contains e = true ↔ _
  rw [shares, EntityMap.contains_ofList, List.map_map]
  exact List.mem_map

theorem contains_negative (hcut : 0 < l.cut) {e : Entity} :
    l.outlook.negative.contains e = true ↔ ∃ v, (e, v) ∈ entries ∧ v < l.cut := by
  rw [(isOf_of_build hbuilt).outlook]
  show (safe l.cut entries).contains e = true ↔ _
  rw [safe, if_pos hcut, EntityMap.contains_ofList, List.map_map]
  simp

theorem places (hnodup : (entries.map (·.1)).Nodup) (hcut : 0 < l.cut) {e : Entity} {v : Int64}
    (hentry : (e, v) ∈ entries) : l.Places e v := by
  have hvalue {v' : Int64} (h : (e, v') ∈ entries) : v' = v :=
    congrArg Prod.snd (List.inj_on_of_nodup_map hnodup h hentry rfl)
  rw [Places, Bool.eq_false_iff, Bool.eq_false_iff, Ne, Ne, contains_positive hbuilt,
    contains_negative hbuilt hcut]
  by_cases hle : l.cut ≤ v
  · obtain ⟨rung, hrung, hentity, hremainder⟩ := exists_rung hbuilt hentry hle
    refine .inl ⟨hle, ⟨rung, hrung, hentity, ?_⟩, ⟨rung, hrung, hentity⟩, ?_⟩
    · rw [hremainder, toInt_remainder (Int64.le_of_lt hcut) hle]
    · rintro ⟨v', hentry', hlt⟩
      exact Int64.not_lt.mpr (hvalue hentry' ▸ hle) hlt
  · have hoff : ∀ rung ∈ l.rungs, rung.entity ≠ e := by
      rintro rung hrung rfl
      obtain ⟨v', hentry', hle', -⟩ := exists_entry hbuilt hrung
      exact hle (hvalue hentry' ▸ hle')
    have hlt := Int64.not_le.mp hle
    exact .inr ⟨hlt, hoff, fun ⟨rung, hrung, he⟩ => hoff rung hrung he, v, hentry, hlt⟩

theorem outlook_of_unlisted (hcut : 0 < l.cut) {e : Entity} (he : e ∉ entries.map (·.1)) :
    l.outlook.positive.contains e = false ∧ l.outlook.negative.contains e = false := by
  rw [Bool.eq_false_iff, Bool.eq_false_iff, Ne, Ne, contains_positive hbuilt,
    contains_negative hbuilt hcut]
  constructor
  · rintro ⟨rung, hrung, rfl⟩
    obtain ⟨v, hentry, -⟩ := exists_entry hbuilt hrung
    exact he (List.mem_map_of_mem hentry)
  · rintro ⟨v, hentry, -⟩
    exact he (List.mem_map_of_mem hentry)

end Built

/-- A lottery can be built as long as somebody is above the floor. It then takes the cut from the
largest entry, and shares out all entries between its ladder and its outlook. -/
theorem build_sorts_out (t : Tuning) {entries : List (Entity × Int64)}
    (hnodup : (entries.map (·.1)).Nodup) :
    (build t entries = none ↔ ∀ a ∈ entries, a.2 ≤ t.threatMinimum) ∧
    ∀ l, build t entries = some l →
      (entries.map (·.2)).max? = some l.maxThreat ∧ l.cut = cutOf t l.maxThreat ∧
      (0 < l.cut → SortsOut entries l) := by
  refine ⟨build_eq_none, fun l hbuilt => ?_⟩
  have hof := isOf_of_build hbuilt
  refine ⟨hof.max, hof.cut, fun hcut => ?_⟩
  have hcut' := Int64.le_of_lt hcut
  have hladder := build_isLadder hbuilt hcut' hnodup
  exact {
    each := fun e v => places hbuilt hnodup hcut
    nobodyElse := fun e => outlook_of_unlisted hbuilt hcut
    rungs := rungs_perm hbuilt hcut'
    once := hladder.nodup
    ascending := rungs_ascending hbuilt
    ties := fun v => rungs_ties hbuilt
    cumulative := fun i hi => by
      rw [hladder.cumulative i hi, reach, List.map_take]
    climbing := hladder.climbing }

/-- Three of the strongest, one below them, and one who is safe. -/
def titans : List (Entity × Int64) :=
  [(⟨1, 1⟩, Int64.maxValue), (⟨2, 1⟩, 100), (⟨3, 1⟩, 5000000000000000000),
    (⟨4, 1⟩, Int64.maxValue), (⟨5, 1⟩, Int64.maxValue)]

theorem titans_are_sorted_out :
    (titans.map (·.1)).Nodup ∧ ∃ l, build {} titans = some l ∧ 0 < l.cut ∧ SortsOut titans l := by
  have hnodup : (titans.map (·.1)).Nodup := by decide
  obtain ⟨hnone, hsome⟩ := build_sorts_out {} hnodup
  obtain ⟨l, hbuilt⟩ : ∃ l, build {} titans = some l := by
    rw [← Option.ne_none_iff_exists', Ne, hnone]
    decide
  obtain ⟨hmax, hcut, hsorts⟩ := hsome l hbuilt
  have htop : (titans.map (·.2)).max? = some Int64.maxValue := by decide
  have hgreatest := Option.some.inj (hmax.symm.trans htop)
  have hpositive : 0 < l.cut := by
    rw [hcut, hgreatest]
    decide +kernel
  exact ⟨hnodup, l, hbuilt, hpositive, hsorts hpositive⟩

end Lottery

end Hostility
