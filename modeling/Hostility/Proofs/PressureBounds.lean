import Hostility.PassiveBias
import Hostility.Proofs.Acceptance
import Hostility.Proofs.AmountRounding

/-!
How far floating point moves passive pressure. The ceiling stays between zero and the strongest real
threat, and an average of pressures that are `C` at most never rounds to more than `C`: the error of
one step is smaller than what the newest value pulls the average back by.
-/
namespace Hostility

theorem float_le_of_lt {x y : Float} (h : x < y) : x ≤ y := by
  rw [lt_iff_unpack, Float.Model.UnpackedFloat.lt] at h
  rw [le_iff_unpack, Float.Model.UnpackedFloat.le, beq_iff_eq.mp h]
  rfl

theorem value_of_share {x : Float} (h : 0.0 ≤ x ∧ x < 1.0) :
    ∃ p, floatValue? x = some p ∧ 0 ≤ p ∧ p < 1 := by
  obtain ⟨p, hp, hnonneg, -⟩ :=
    floatValue?_of_between floatValue?_zero floatValue?_one h.1 (float_le_of_lt h.2)
  exact ⟨p, hp, hnonneg, (float_lt_iff hp floatValue?_one).mp h.2⟩

theorem value_of_part {x : Float} (h : 0.0 < x ∧ x ≤ 1.0) :
    ∃ p, floatValue? x = some p ∧ 0 < p ∧ p ≤ 1 := by
  obtain ⟨p, hp, -, hle⟩ :=
    floatValue?_of_between floatValue?_zero floatValue?_one (float_le_of_lt h.1) h.2
  exact ⟨p, hp, (float_lt_iff floatValue?_zero hp).mp h.1, hle⟩

/-- What an accepted tuning says about the constants of the passive bias. -/
structure Tuning.IsSound (t : Tuning) : Prop where
  target : ∃ p, floatValue? t.passiveTargetPct = some p ∧ 0 ≤ p ∧ p < 1
  favor : ∃ p, floatValue? t.passivePlayerFavor = some p ∧ 0 ≤ p ∧ p < 1
  smoothing : ∃ p, floatValue? t.passiveSmoothing = some p ∧ 0 < p ∧ p ≤ 1
  range : ∃ p, floatValue? t.aggroRangeFraction = some p ∧ 0 < p ∧ p < 1
  floor : 1 ≤ t.threatMinimum.toInt

theorem Tuning.isSound_of_fault? {t : Tuning} (h : t.fault? = none) : t.IsSound := by
  have hbounds := Tuning.fault?_eq_none.mp h
  obtain ⟨hpositive, hless⟩ := hbounds.aggroRangeFraction
  obtain ⟨r, hr, hr0, -⟩ := value_of_part ⟨hpositive, float_le_of_lt hless⟩
  exact {
    target := value_of_share hbounds.passiveTargetPct
    favor := value_of_share hbounds.passivePlayerFavor
    smoothing := value_of_part hbounds.passiveSmoothing
    range := ⟨r, hr, hr0, (float_lt_iff hr floatValue?_one).mp hless⟩
    floor := Int64.le_iff_toInt_le.mp hbounds.threatMinimum }

namespace BiasPass

variable {t : Tuning} {m d : Int64}

/-- One less a share, as a float. -/
theorem one_sub_share {x : Float} {p : ℚ} (hx : floatValue? x = some p) (hnonneg : 0 ≤ p)
    (hle : p ≤ 1) :
    ∃ w, floatValue? (1.0 - x) = some w ∧ 0 ≤ w ∧ w ≤ 1 - p + 1 / 2 ^ 52 :=
  value_sub_le le_rfl (by norm_num) floatValue?_one hx hle (by linarith)

theorem ceiling_bounds (ht : t.IsSound) (hnonneg : 0 ≤ m.toInt) (hle : m.toInt ≤ 2 ^ 47) :
    0 ≤ (ceiling t m).toInt ∧ (ceiling t m).toInt ≤ m.toInt := by
  obtain ⟨f, hf, hf0, hf1⟩ := ht.favor
  obtain ⟨w, hw, hw0, hw1⟩ := one_sub_share hf hf0 hf1.le
  obtain ⟨k, hk⟩ := Int.eq_ofNat_of_zero_le hnonneg
  have hm := floatValue?_floatOfAmount hnonneg (by omega)
  rw [hk, Int.cast_natCast] at hm
  have hk0 : (0 : ℚ) ≤ k := Nat.cast_nonneg k
  have hk1 : (k : ℚ) ≤ 2 ^ 47 := by
    have : k ≤ 2 ^ 47 := by omega
    exact_mod_cast this
  have hproduct : (k : ℚ) * w ≤ k + 1 / 2 ^ 5 := by
    have := mul_le_mul_of_nonneg_left hw1 hk0
    nlinarith
  obtain ⟨q, hq, hq0, hq1⟩ := value_mul_le (B := k + 1) (by linarith) (by linarith) hm hw hk0 hw0
    (by linarith)
  rw [hk]
  exact floorAmount_le hq hq0 (by linarith)

theorem floatValue?_unitSpacing : floatValue? unitSpacing = some (1 / 2 ^ 52) := by decide +kernel

theorem desired_bounds (ht : t.IsSound) (hnonneg : 0 ≤ m.toInt) (hle : m.toInt ≤ 2 ^ 47) :
    0 ≤ (desired t m).toInt ∧ (desired t m).toInt ≤ (ceiling t m).toInt := by
  obtain ⟨p, hp, hp0, hp1⟩ := ht.target
  obtain ⟨r, hr, hr0, hr1⟩ := ht.range
  obtain ⟨w, hw, -, -⟩ := one_sub_share hp hp0 hp1.le
  obtain ⟨share, hshare, hpos⟩ := larger_pos hw floatValue?_unitSpacing (by positivity)
  have hm := floatValue?_floatOfAmount hnonneg (by omega)
  have hm0 : (0 : ℚ) ≤ m.toInt := by exact_mod_cast hnonneg
  have hm1 : (m.toInt : ℚ) ≤ 2 ^ 47 := by exact_mod_cast hle
  have hproduct : r * m.toInt ≤ m.toInt := by nlinarith
  obtain ⟨q, hq, hq0, -⟩ := value_mul_le (B := m.toInt + 1) (by linarith) (by linarith) hr hm
    hr0.le hm0 (by linarith)
  have hraw := ceilAmount_nonneg (not_below_div hq hq0 hshare hpos)
  have hceiling := (ceiling_bounds ht hnonneg hle).1
  rw [desired, toInt_min]
  omega

/-- An average that rounds to `C` at most. -/
def IsHeld (C : Nat) (x : Float) : Prop := ∃ p, floatValue? x = some p ∧ 0 ≤ p ∧ p ≤ C + 1 / 4

/-- One step of the average errs by four units in the last place at most, and the newest value pulls
it back by a share `s` of what it is above `C`. -/
theorem average_isHeld {C : Nat} {s : ℚ} (hs : floatValue? t.passiveSmoothing = some s)
    (hs0 : 0 < s) (hs1 : s ≤ 1) (hC : 1 ≤ C) (hsmall : (C : ℚ) ≤ 2 ^ 47 * s)
    (hnonneg : 0 ≤ d.toInt) (hle : d.toInt ≤ C) {previous : Option Float}
    (hprevious : ∀ x ∈ previous, IsHeld C x) : IsHeld C (average t d previous) := by
  have hC0 : (1 : ℚ) ≤ C := by exact_mod_cast hC
  have hCle : (C : ℚ) ≤ 2 ^ 47 := by nlinarith
  have hlt : d.toInt < 2 ^ 53 := by
    have : C ≤ 2 ^ 47 := by exact_mod_cast hCle
    omega
  have hd := floatValue?_floatOfAmount hnonneg hlt
  have hd0 : (0 : ℚ) ≤ d.toInt := by exact_mod_cast hnonneg
  have hd1 : (d.toInt : ℚ) ≤ C := by exact_mod_cast hle
  cases previous with
  | none => exact ⟨_, hd, hd0, by linarith⟩
  | some x =>
    obtain ⟨p, hp, hp0, hp1⟩ := hprevious x rfl
    obtain ⟨w, hw, hw0, hw1⟩ := one_sub_share hs hs0.le hs1
    -- The old average and the newest value are weighted, then added; each step is rounded once.
    have hold : p * w ≤ (C + 1 / 4) * (1 - s + 1 / 2 ^ 52) :=
      mul_le_mul hp1 hw1 hw0 (by linarith)
    have hnew : (d.toInt : ℚ) * s ≤ C * s := mul_le_mul_of_nonneg_right hd1 hs0.le
    have hCs : (0 : ℚ) ≤ C * s := by positivity
    have hCs1 : (C : ℚ) * s ≤ C := by nlinarith
    obtain ⟨a, ha, ha0, ha1⟩ := value_mul_le (B := C + 1) (by linarith) (by linarith) hp hw hp0 hw0
      (by nlinarith)
    obtain ⟨b, hb, hb0, hb1⟩ := value_mul_le (B := C + 1) (by linarith) (by linarith) hd hs hd0
      hs0.le (by linarith)
    obtain ⟨q, hq, hq0, hq1⟩ := value_add_le (B := C + 1) (by linarith) (by linarith) ha hb ha0 hb0
      (by nlinarith)
    exact ⟨q, hq, hq0, by linarith⟩

end BiasPass

end Hostility
