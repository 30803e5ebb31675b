import Hostility.Proofs.Piles
import Hostility.Proofs.Rolls
import Hostility.Selection.Distance
import Mathlib.Data.Rat.Floor

/-!
Candidates at one distance. Each has the same weight, so its slice of the roll is as wide as that
of any other. If the distances add up, the slices fill the range of the roll; if they do not, the
slices are wider than their share, and those of the last candidates lie beyond the roll.
-/
namespace Hostility

open Float.Model (UnpackedFloat Format)
open Float.Model.UnpackedFloat

namespace Distance

/-- Candidates at one distance. -/
def gathered (d : Float) (es : List Entity) : List (Entity × Float) := es.map fun e => (e, d)

/-- What one at the distance `d` weighs where all distances add up to `total`. -/
def weight (d total : Float) : Float := 1.0 - sanitize d / total

/-- The sum of the distances before the least sum is put in its place. -/
def added (candidates : List (Entity × Float)) : Float :=
  candidates.foldl (fun s c => s + sanitize c.2) 0.0

/-- How far rounding may move the ends of the slices of `n` candidates. -/
def slip (n : Nat) : ℚ := (n ^ 2 + 14 * n) / 2 ^ 53

variable {es : List Entity} {d w roll total : Float} {p x W σ : ℚ} {k n : Nat}

theorem sanitize_eq (hd : floatValue? d = some p) (hp : 0 ≤ p) : sanitize d = d := by
  have hnot : ¬d < 0.0 := by
    rw [float_lt_iff hd floatValue?_zero]
    exact not_lt.mpr hp
  rw [sanitize, if_pos (isFinite_iff_value.mpr ⟨p, hd⟩),
    larger_eq (isNaN_eq_false hd) (isNaN_eq_false floatValue?_zero), if_neg hnot]

theorem foldl_piled (hd : sanitize d = d) (j : Nat) :
    (gathered d es).foldl (fun s c => s + sanitize c.2) (piled d j) = piled d (j + es.length) := by
  induction es generalizing j with
  | nil => rfl
  | cons e rest ih =>
    have hstep : piled d j + sanitize d = piled d (j + 1) := by rw [hd]; rfl
    rw [gathered, List.map_cons, List.foldl_cons, hstep, ← gathered, ih, List.length_cons]
    congr 1
    omega

theorem added_gathered (hd : floatValue? d = some p) (hp : 0 ≤ p) (es : List Entity) :
    added (gathered d es) = piled d es.length := by
  have hfold : added (gathered d es) = piled d (0 + es.length) :=
    foldl_piled (sanitize_eq hd hp) 0
  rwa [Nat.zero_add] at hfold

/-- The first of equal candidates with which the pile of weights exceeds the roll. -/
theorem firstAbove_piled (hk : k < es.length) (j : Nat)
    (hbelow : ∀ i, i < k → ¬roll < piled (weight d total) (j + i + 1))
    (habove : roll < piled (weight d total) (j + k + 1)) :
    firstAbove total roll (piled (weight d total) j) (gathered d es) = es[k]? := by
  induction es generalizing j k with
  | nil => simp at hk
  | cons e rest ih =>
    have hstep : piled (weight d total) j + (1.0 - sanitize d / total)
        = piled (weight d total) (j + 1) := rfl
    rw [gathered, List.map_cons, firstAbove, hstep, ← gathered]
    cases k with
    | zero => rw [if_pos habove]; rfl
    | succ k =>
      have hfirst : ¬roll < piled (weight d total) (j + 1) := hbelow 0 (by omega)
      rw [if_neg hfirst, List.getElem?_cons_succ]
      refine ih (by simpa using hk) (j + 1) (fun i hi => ?_) ?_
      · rw [show j + 1 + i + 1 = j + (i + 1) + 1 by omega]
        exact hbelow (i + 1) (by omega)
      · rw [show j + 1 + k + 1 = j + (k + 1) + 1 by omega]
        exact habove

theorem draw_gathered (hmany : 2 ≤ es.length) (d : Float) (r : RandomSource) :
    ∃ first, (draw (gathered d es) r).1 =
      some ((firstAbove (sum (gathered d es)) (r.within (Float.ofNat (es.length - 1))).1 0.0
        (gathered d es)).getD first) := by
  match es, hmany with
  | e :: e' :: rest, _ => exact ⟨e, by simp [draw, gathered]⟩

section Roll

variable (hmany : 2 ≤ es.length) (r : RandomSource)
  (hroll : floatValue? (r.within (Float.ofNat (es.length - 1))).1 = some x)
include hmany hroll

/-- A candidate is drawn if the roll lies between the piles of weights before it and with it. -/
theorem draw_of_piled (hk : k < es.length)
    (hpile : ∀ j, j ≤ k + 1 → ∃ v, floatValue? (piled (weight d (sum (gathered d es))) j) = some v ∧
      (j ≤ k → v ≤ x) ∧ (j = k + 1 → x < v)) : (draw (gathered d es) r).1 = es[k]? := by
  obtain ⟨first, hdraw⟩ := draw_gathered hmany d r
  have hbelow (i : Nat) (hi : i < k) : ¬(r.within (Float.ofNat (es.length - 1))).1 <
      piled (weight d (sum (gathered d es))) (0 + i + 1) := by
    obtain ⟨v, hv, hbelow, -⟩ := hpile (0 + i + 1) (by omega)
    rw [float_lt_iff hroll hv]
    exact not_lt.mpr (hbelow (by omega))
  have habove : (r.within (Float.ofNat (es.length - 1))).1 <
      piled (weight d (sum (gathered d es))) (0 + k + 1) := by
    obtain ⟨v, hv, -, habove⟩ := hpile (0 + k + 1) (by omega)
    rw [float_lt_iff hroll hv]
    exact habove (by omega)
  have hfound := firstAbove_piled hk 0 hbelow habove
  have hstart : piled (weight d (sum (gathered d es))) 0 = 0.0 := rfl
  rw [hstart] at hfound
  rw [hdraw, hfound, List.getElem?_eq_getElem hk]
  rfl

/-- Weights of exactly one are a slice for each whole number. -/
theorem draw_of_ones (hone : floatValue? (weight d (sum (gathered d es))) = some 1)
    (hfew : es.length < 2 ^ 53) (hx0 : 0 ≤ x) (hx1 : x < es.length) :
    (draw (gathered d es) r).1 = es[⌊x⌋₊]? := by
  have hk : ⌊x⌋₊ < es.length := (Nat.floor_lt hx0).mpr hx1
  refine draw_of_piled hmany r hroll hk fun j hj =>
    ⟨j, piled_one hone (by omega), fun hjk => ?_, ?_⟩
  · exact (Nat.le_floor_iff hx0).mp hjk
  · rintro rfl
    push_cast
    exact Nat.lt_floor_add_one x

end Roll

theorem slip_mono {j : Nat} (h : j ≤ n) : slip j ≤ slip n := by
  have hcast : (j : ℚ) ≤ n := by exact_mod_cast h
  unfold slip
  gcongr

theorem pileError_le_slip (n : Nat) : pileError n ≤ slip n := by
  unfold pileError slip
  gcongr
  norm_num

/-- The error of a pile of weights and that of the weights themselves. -/
theorem pileError_add_le (h : pileError n ≤ 1) :
    pileError n * (1 + 1 / 2 ^ 49) + n * (5 / 2 ^ 52) ≤ slip n := by
  have hn : (0 : ℚ) ≤ n := Nat.cast_nonneg n
  have hfew : (n : ℚ) ≤ 134217728 := by exact_mod_cast le_of_pileError_le_one h
  have hsplit : slip n - (pileError n * (1 + 1 / 2 ^ 49) + n * (5 / 2 ^ 52)) =
      (1 - (n + 3) / 2 ^ 49) * n / 2 ^ 53 := by
    unfold slip pileError
    ring
  have hfactor : (n + 3 : ℚ) / 2 ^ 49 ≤ 1 := by
    rw [div_le_one (by positivity)]
    norm_num
    linarith
  have hrest : 0 ≤ (1 - (n + 3 : ℚ) / 2 ^ 49) * n / 2 ^ 53 := by
    have := sub_nonneg.mpr hfactor
    positivity
  linarith

/-- The float stands for a number near `W`. -/
def WeighsNear (w : Float) (W : ℚ) : Prop :=
  ∃ q, floatValue? w = some q ∧ 0 ≤ q ∧ |q - W| ≤ 5 / 2 ^ 52

theorem piled_slice (hw : WeighsNear w W) (hW : W ≤ 1) (hn : pileError n ≤ 1) :
    ∃ v, floatValue? (piled w n) = some v ∧ |v - n * W| ≤ slip n := by
  obtain ⟨q, hq, hq0, hnear⟩ := hw
  have hn0 : (0 : ℚ) ≤ n := Nat.cast_nonneg n
  have hn1 : (n : ℚ) ≤ 134217728 := by exact_mod_cast le_of_pileError_le_one hn
  have hq1 : q ≤ 1 + 1 / 2 ^ 49 := by
    have hupper := (abs_le.mp hnear).2
    norm_num at hupper ⊢
    linarith
  have hleast : 2 ^ (-1022 : Int) ≤ (1 + 1 / 2 ^ 49 : ℚ) := least_le_of_one_le (by norm_num)
  rcases piled_near hq hq0 hq1 hleast hn with ⟨v, hv, -, hpile⟩ | ⟨hover, -⟩
  · refine ⟨v, hv, ?_⟩
    have hsplit : v - n * W = (v - n * q) + n * (q - W) := by ring
    rw [hsplit]
    calc |v - n * q + n * (q - W)| ≤ |v - n * q| + |n * (q - W)| := abs_add_le _ _
      _ ≤ pileError n * (1 + 1 / 2 ^ 49) + n * (5 / 2 ^ 52) := by
          rw [abs_mul, abs_of_nonneg hn0]
          exact add_le_add hpile (mul_le_mul_of_nonneg_left hnear hn0)
      _ ≤ slip n := pileError_add_le hn
  · norm_num at hover
    linarith

/-- Where rounding leaves something of a slice, the slice has a width and the piles are near. -/
theorem pos_of_inside (hW : W ≤ 1) (hx : |x - (k + 1 / 2) * W| < W / 2 - slip n) :
    0 < W ∧ pileError n ≤ 1 := by
  have hdistance := abs_nonneg (x - (k + 1 / 2) * W)
  have hslip := pileError_le_slip n
  have hnonneg := pileError_nonneg n
  constructor <;> linarith

/-- Whoever's slice has the roll inside, away from its ends, is drawn. -/
theorem draw_of_inside (hw : WeighsNear (weight d (sum (gathered d es))) W) (hW : W ≤ 1)
    (hmany : 2 ≤ es.length) (r : RandomSource)
    (hroll : floatValue? (r.within (Float.ofNat (es.length - 1))).1 = some x)
    (hk : k < es.length) (hx : |x - (k + 1 / 2) * W| < W / 2 - slip es.length) :
    (draw (gathered d es) r).1 = es[k]? := by
  obtain ⟨hpos, hfew⟩ := pos_of_inside hW hx
  have hx := abs_lt.mp hx
  refine draw_of_piled hmany r hroll hk fun j hj => ?_
  have hj' : j ≤ es.length := by omega
  obtain ⟨v, hv, hslice⟩ := piled_slice hw hW ((pileError_mono hj').trans hfew)
  have hslip := slip_mono hj'
  have hslice := abs_le.mp hslice
  refine ⟨v, hv, fun hjk => ?_, ?_⟩
  · have hjk : (j : ℚ) ≤ k := by exact_mod_cast hjk
    have hwidth := mul_le_mul_of_nonneg_right hjk hpos.le
    linarith [hx.1]
  · rintro rfl
    push_cast at hslice
    linarith [hx.2]

/-- A share of up to three quarters is taken from one with an error of two units. -/
theorem value_weight (hd : floatValue? d = some p) (hp : 0 ≤ p) (ht : floatValue? total = some σ)
    (hσ : 0 < σ) (hshare : p / σ ≤ 3 / 4) :
    ∃ q, floatValue? (weight d total) = some q ∧ 0 ≤ q ∧ |q - (1 - p / σ)| ≤ 2 / 2 ^ 52 := by
  have hleast : 2 ^ (-1022 : Int) ≤ (1 : ℚ) := least_le_of_one_le le_rfl
  have hshare0 : 0 ≤ p / σ := by positivity
  -- The quotient and the difference are rounded once each, and both are one at most.
  obtain ⟨t, ht, herror, ht0⟩ :=
    (lands_div hleast hd ht hp hσ (hshare.trans (by norm_num))).rounds (by norm_num)
  have herror := abs_le.mp herror
  have ht0 := ht0 hshare0
  norm_num at herror
  obtain ⟨q, hq, herror', hq0⟩ := (lands_sub hleast floatValue?_one ht (by
    rw [abs_le]
    constructor <;> linarith)).rounds (by norm_num)
  have herror' := abs_le.mp herror'
  norm_num at herror'
  rw [weight, sanitize_eq hd hp]
  refine ⟨q, hq, hq0 (by linarith), ?_⟩
  rw [abs_le]
  norm_num
  constructor <;> linarith

theorem share_le_three_quarters (hmany : 2 ≤ n) {share : ℚ} (h : share ≤ 1 / n + 3 / 2 ^ 52) :
    share ≤ 3 / 4 := by
  have hhalf : 1 / (n : ℚ) ≤ 1 / 2 :=
    one_div_le_one_div_of_le (by norm_num) (by exact_mod_cast hmany)
  norm_num at h hhalf ⊢
  linarith

/-- What is no share at all leaves the weight at one. -/
theorem weight_of_no_share (h : floatValue? (sanitize d / total) = some 0) :
    floatValue? (weight d total) = some 1 := by
  have hexact := value_sub_exact floatValue?_one h
    (by rw [sub_zero]; exact_mod_cast isRepresentable_nat (n := 1) (by norm_num))
  rwa [sub_zero] at hexact

theorem value_leastSum : floatValue? leastSum = some (4835703278458517 / 2 ^ 82) := by
  decide +kernel

theorem leastSum_lower {least : ℚ} (hleast : floatValue? leastSum = some least) :
    1 / 2 ^ 30 ≤ least := by
  have hvalue := Option.some.inj (value_leastSum.symm.trans hleast)
  norm_num at hvalue ⊢
  linarith

theorem sum_eq_larger (candidates : List (Entity × Float)) :
    sum candidates = larger (added candidates) leastSum := rfl

theorem sum_of_lt {candidates : List (Entity × Float)} (h : added candidates < leastSum) :
    sum candidates = leastSum := by
  rw [sum_eq_larger, larger, isNaN_eq_false value_leastSum, if_pos h]
  simp

theorem sum_of_not_lt {candidates : List (Entity × Float)}
    (hnumber : (added candidates).isNaN = false) (h : ¬added candidates < leastSum) :
    sum candidates = added candidates := by
  rw [sum_eq_larger, larger_eq hnumber (isNaN_eq_false value_leastSum), if_neg h]

theorem least_le_of_some {c : ℚ} (h : 1 / 2 ^ 60 ≤ c) : 2 ^ (-1022 : Int) ≤ c := by
  refine le_trans ?_ h
  rw [one_div, ← zpow_natCast, ← zpow_neg]
  exact zpow_le_zpow_right₀ (by norm_num) (by norm_num)

/-- Distances that hardly are any do not add up to the least sum. -/
theorem total_lt_of_lt (hd : floatValue? d = some p) (hp : 0 ≤ p) (hlt : p < 1 / 2 ^ 60)
    (hn : pileError n ≤ 1) (hv : floatValue? (piled d n) = some σ) : σ < 1 / 2 ^ 32 := by
  have hn1 : (n : ℚ) ≤ 134217728 := by exact_mod_cast le_of_pileError_le_one hn
  have hupper := (abs_le.mp
    (near_of_piled_value hd hp hlt.le (least_le_of_some le_rfl) hn hv)).2
  have hproduct : (n : ℚ) * p ≤ 134217728 * (1 / 2 ^ 60) := by gcongr
  norm_num at hupper hproduct ⊢
  linarith

/-- Where the sum is near the product, each share is near its part. -/
theorem share_near (hmany : 2 ≤ n) (hn : pileError n ≤ 1) (hd : floatValue? d = some p)
    (hpos : 1 / 2 ^ 60 ≤ p) (hv : floatValue? (piled d n) = some σ) :
    0 < σ ∧ |p / σ - 1 / n| ≤ 3 / 2 ^ 52 := by
  have hp : 0 < p := lt_of_lt_of_le (by positivity) hpos
  have htwo : (2 : ℚ) ≤ n := by exact_mod_cast hmany
  have hnear := near_of_piled_value hd hp.le le_rfl (least_le_of_some hpos) hn hv
  have hlower : n * p / 2 ≤ σ := by
    have herror := mul_le_mul_of_nonneg_right (hn) hp.le
    nlinarith [(abs_le.mp hnear).1]
  have hσ : 0 < σ := lt_of_lt_of_le (by positivity) hlower
  refine ⟨hσ, ?_⟩
  have hsplit : p / σ - 1 / n = -((σ - n * p) / (n * σ)) := by
    field_simp
    ring
  rw [hsplit, abs_neg, abs_div, abs_of_pos (show 0 < n * σ by positivity),
    div_le_iff₀ (by positivity)]
  calc |σ - n * p| ≤ pileError n * p := hnear
    _ = (n + 3) / 2 ^ 53 * (n * p) := by unfold pileError; ring
    _ ≤ 3 * n / 2 ^ 53 * (n * p) := by gcongr; linarith
    _ = 3 / 2 ^ 52 * (n * (n * p / 2)) := by ring
    _ ≤ 3 / 2 ^ 52 * (n * σ) := by gcongr

section Equal

variable (hd : floatValue? d = some p) (hp : 0 ≤ p)
include hd hp

theorem added_cases (es : List Entity) : (∃ v, floatValue? (added (gathered d es)) = some v) ∨
    (added (gathered d es)).toModel.unpack = .infinity .positive := by
  rw [added_gathered hd hp]
  exact (piled_cases hd hp es.length).imp_left fun ⟨v, hv, _⟩ => ⟨v, hv⟩

/-- Distances that add up leave each its part of the roll. -/
theorem weight_of_added (hmany : 2 ≤ es.length) (hfew : pileError es.length ≤ 1)
    (hfinite : (added (gathered d es)).isFinite = true)
    (hleast : leastSum ≤ added (gathered d es)) :
    WeighsNear (weight d (sum (gathered d es))) (1 - 1 / es.length) := by
  obtain ⟨σ, hσ⟩ := isFinite_iff_value.mp hfinite
  have hreach := (float_le_iff value_leastSum hσ).mp hleast
  have hnot : ¬added (gathered d es) < leastSum := by
    rw [float_lt_iff hσ value_leastSum]
    exact not_lt.mpr hreach
  rw [sum_of_not_lt (isNaN_eq_false hσ) hnot]
  rw [added_gathered hd hp] at hσ ⊢
  have hpos : 1 / 2 ^ 60 ≤ p := by
    by_contra hlt
    have := total_lt_of_lt hd hp (not_le.mp hlt) hfew hσ
    norm_num at hreach this
    linarith
  obtain ⟨hσ0, hshare⟩ := share_near hmany hfew hd hpos hσ
  have hshare := abs_le.mp hshare
  obtain ⟨q, hq, hq0, hnear⟩ :=
    value_weight hd hp hσ hσ0 (share_le_three_quarters hmany (by linarith))
  refine ⟨q, hq, hq0, ?_⟩
  have hnear := abs_le.mp hnear
  rw [abs_le]
  norm_num at hshare hnear ⊢
  constructor <;> linarith

/-- Distances that do not add up to the least sum leave each more than that. -/
theorem weight_of_not_added (hmany : 2 ≤ es.length) (hfew : pileError es.length ≤ 1)
    (hsmall : added (gathered d es) < leastSum) {least : ℚ}
    (hleast : floatValue? leastSum = some least) :
    WeighsNear (weight d (sum (gathered d es))) (1 - p / least) := by
  have hlower := leastSum_lower hleast
  have hleast0 : 0 < least := lt_of_lt_of_le (by positivity) hlower
  have hshare : p / least ≤ 1 / es.length + 3 / 2 ^ 52 := by
    -- The error of a pile is a share of the distance only above the least normal floats; a distance
    -- below the threshold is hardly any share of the least sum, whatever it adds up to.
    rcases le_or_gt (1 / 2 ^ 60) p with hpos | hlt
    · obtain ⟨σ, hσ⟩ := (added_cases hd hp es).resolve_right fun hinfinite =>
        not_lt_of_infinity hinfinite hsmall
      have hbelow := (float_lt_iff hσ hleast).mp hsmall
      rw [added_gathered hd hp] at hσ
      obtain ⟨hσ0, hnear⟩ := share_near hmany hfew hd hpos hσ
      have hmore : p / least ≤ p / σ := div_le_div_of_nonneg_left hp hσ0 hbelow.le
      linarith [(abs_le.mp hnear).2]
    · have hlength : (0 : ℚ) < es.length := by exact_mod_cast (by omega : 0 < es.length)
      have hmost : 1 / (134217728 : ℚ) ≤ 1 / es.length :=
        one_div_le_one_div_of_le hlength (by exact_mod_cast le_of_pileError_le_one hfew)
      have hfraction : p / least ≤ 1 / 2 ^ 60 / (1 / 2 ^ 30) :=
        div_le_div₀ (by norm_num) hlt.le (by norm_num) hlower
      norm_num at hfraction hmost ⊢
      linarith
  obtain ⟨q, hq, hq0, hnear⟩ :=
    value_weight hd hp hleast hleast0 (share_le_three_quarters hmany hshare)
  rw [sum_of_lt hsmall]
  exact ⟨q, hq, hq0, hnear.trans (by norm_num)⟩

/-- Without any distance, or with more than a float can hold, everybody weighs one. -/
theorem weight_of_degenerate (h : p = 0 ∨ (added (gathered d es)).isFinite = false) :
    floatValue? (weight d (sum (gathered d es))) = some 1 := by
  apply weight_of_no_share
  rw [sanitize_eq hd hp]
  rcases h with rfl | hinfinite
  · have hsmall : added (gathered d es) < leastSum := by
      rw [added_gathered hd hp, float_lt_iff (piled_zero hd _) value_leastSum]
      positivity
    rw [sum_of_lt hsmall]
    exact value_zero_div hd value_leastSum (by norm_num)
  · have hover := (added_cases hd hp es).resolve_left fun hvalue => by
      rw [isFinite_iff_value.mpr hvalue] at hinfinite
      cases hinfinite
    have hnumber : (added (gathered d es)).isNaN = false := by
      show (added (gathered d es)).toModel.unpack.isNaN = false
      rw [hover]
      rfl
    rw [sum_of_not_lt hnumber (not_lt_of_infinity hover)]
    exact value_div_infinity hd hover

end Equal

section Middle

variable (hmany : 2 ≤ n)
include hmany

theorem middle_eq : (2 * k + 1) * (n - 1) / (2 * n) = ((k : ℚ) + 1 / 2) * (1 - 1 / n) := by
  have hn : (n : ℚ) ≠ 0 := by exact_mod_cast (by omega : n ≠ 0)
  field_simp

theorem half_eq : ((n : ℚ) - 1) / (2 * n) = (1 - 1 / n) / 2 := by
  have hn : (n : ℚ) ≠ 0 := by exact_mod_cast (by omega : n ≠ 0)
  field_simp

/-- The middles of the equal slices of up to `2 ^ 25` candidates are further inside than rounding
moves the ends. -/
theorem slip_lt_half (hfew : n ≤ 2 ^ 25) : slip n < (n - 1) / (2 * n) := by
  have htwo : (2 : ℚ) ≤ n := by exact_mod_cast hmany
  have hquarter : 1 / 4 ≤ ((n : ℚ) - 1) / (2 * n) := by
    rw [div_le_div_iff₀ (by norm_num) (by positivity)]
    linarith
  calc slip n ≤ slip (2 ^ 25) := slip_mono hfew
    _ < 1 / 4 := by norm_num [slip]
    _ ≤ (n - 1) / (2 * n) := hquarter

end Middle

/-- Two or more candidates at one distance `p`. The roll is a number from zero up to one less than
there are candidates. If the distances add up, the slices are equal, and whoever has the roll inside
its slice, away from its ends by more than rounding moves them, is drawn; so it is with the wider
slices of distances that do not add up to the least sum. If there is no distance at all, or the sum
is infinite, each slice is as wide as one, so that the last one lies beyond the roll and the last
candidate is never drawn. -/
theorem draw_of_equal_distances (hd : floatValue? d = some p) (hp : 0 ≤ p)
    (hmany : 2 ≤ es.length) (hfew : es.length < 2 ^ 53) (r : RandomSource) :
    let candidates := gathered d es
    let n : ℚ := es.length
    ∃ x, floatValue? (r.within (Float.ofNat (es.length - 1))).1 = some x ∧ 0 ≤ x ∧ x < n - 1 ∧
      ((added candidates).isFinite = true → leastSum ≤ added candidates → ∀ k < es.length,
        |x - (2 * k + 1) * (n - 1) / (2 * n)| < (n - 1) / (2 * n) - slip es.length →
          (draw candidates r).1 = es[k]?) ∧
      (added candidates < leastSum → ∀ least, floatValue? leastSum = some least → ∀ k < es.length,
        |x - (k + 1 / 2) * (1 - p / least)| < (1 - p / least) / 2 - slip es.length →
          (draw candidates r).1 = es[k]?) ∧
      (p = 0 ∨ (added candidates).isFinite = false →
        (draw candidates r).1 = es[⌊x⌋₊]? ∧ (es.Nodup → (draw candidates r).1 ≠ es.getLast?)) := by
  intro candidates n
  have hless : ((es.length - 1 : Nat) : ℚ) = n - 1 := by
    rw [Nat.cast_sub (by omega), Nat.cast_one]
  obtain ⟨x, hx, hx0, hx1⟩ :=
    r.within_value (n := es.length - 1) (by omega) (by omega)
  rw [hless] at hx1
  refine ⟨x, hx, hx0, hx1, fun hfinite hleast k hk hinside => ?_,
    fun hsmall least hleast k hk hinside => ?_, fun hdegenerate => ?_⟩
  · rw [middle_eq hmany, half_eq hmany] at hinside
    have hW : 1 - 1 / n ≤ 1 := sub_le_self 1 (by positivity)
    have hw := weight_of_added hd hp hmany (pos_of_inside hW hinside).2 hfinite hleast
    exact draw_of_inside hw hW hmany r hx hk hinside
  · have hlower := leastSum_lower hleast
    have hW : 1 - p / least ≤ 1 := sub_le_self 1 (div_nonneg hp (by linarith))
    have hw := weight_of_not_added hd hp hmany (pos_of_inside hW hinside).2 hsmall hleast
    exact draw_of_inside hw hW hmany r hx hk hinside
  · have hdraw := draw_of_ones hmany r hx (weight_of_degenerate hd hp hdegenerate) hfew hx0
      (by linarith)
    refine ⟨hdraw, fun hnodup hlast => ?_⟩
    have hfloor : ⌊x⌋₊ < es.length - 1 := (Nat.floor_lt hx0).mpr (by rwa [hless])
    rw [hdraw, List.getLast?_eq_getElem?] at hlast
    have hsame := (List.getElem?_inj (by omega) hnodup).mp hlast
    omega

/-- Three who stand equally far away. -/
def trio : List Entity := [⟨1, 1⟩, ⟨2, 1⟩, ⟨3, 1⟩]

/-- A roll in the middle draws the one in the middle. -/
theorem trio_draws_second :
    floatValue? 4.0 = some 4 ∧ (0 : ℚ) ≤ 4 ∧ 2 ≤ trio.length ∧ trio.length < 2 ^ 53 ∧
      (draw (gathered 4.0 trio) (.cycle [9223372036854775808])).1 = some ⟨2, 1⟩ := by
  have hfour : floatValue? 4.0 = some 4 := by decide +kernel
  have hnonneg : (0 : ℚ) ≤ 4 := by norm_num
  have hmany : 2 ≤ trio.length := by decide
  have hfew : trio.length < 2 ^ 53 := by decide
  have hroll : floatValue? ((RandomSource.cycle [9223372036854775808]).within
      (Float.ofNat (trio.length - 1))).1 = some 1 := by decide +kernel
  obtain ⟨x, hx, -, -, hslices, -⟩ :=
    draw_of_equal_distances hfour hnonneg hmany hfew (.cycle [9223372036854775808])
  obtain rfl : 1 = x := Option.some.inj (hroll.symm.trans hx)
  have hfinite : (added (gathered 4.0 trio)).isFinite = true := by decide +kernel
  have hleast : leastSum ≤ added (gathered 4.0 trio) := by decide +kernel
  have hroom := slip_lt_half hmany (by decide)
  have hmiddle : (1 : ℚ) - (2 * (1 : Nat) + 1) * (trio.length - 1) / (2 * trio.length) = 0 := by
    norm_num [trio]
  have hdraw := hslices hfinite hleast 1 (by decide) (by rw [hmiddle, abs_zero]; linarith)
  exact ⟨hfour, hnonneg, hmany, hfew, hdraw⟩

/-- Of two who stand where the actor stands the first is drawn with the roll in the middle of the
second of two equal slices. -/
theorem pair_in_place_draws_first :
    let pair : List Entity := [⟨1, 1⟩, ⟨2, 1⟩]
    let source : RandomSource := .cycle [13835058055282163712]
    pair.Nodup ∧ floatValue? (source.within (Float.ofNat (pair.length - 1))).1
        = some ((2 * 1 + 1) * (2 - 1) / (2 * 2)) ∧
      (draw (gathered 0.0 pair) source).1 = pair[0]? ∧ pair[0]? ≠ pair[1]? := by
  refine ⟨by decide, ?_, by decide +kernel, by decide⟩
  have hroll : floatValue? ((RandomSource.cycle [13835058055282163712]).within
      (Float.ofNat (2 - 1))).1 = some (3 / 4) := by decide +kernel
  refine hroll.trans (congrArg some ?_)
  norm_num

end Distance

end Hostility
