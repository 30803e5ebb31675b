import Hostility.Number.Saturating
import Hostility.Proofs.FloatExact

/-!
Amounts as floats and floats as amounts. An amount of at most 53 bits is not moved by becoming a
float; a float becomes an amount next to the number it stands for.
-/
namespace Hostility

open Float.Model (UnpackedFloat Format totalExponent)
open Float.Model.UnpackedFloat

theorem unpack_one :
    (1.0 : Float).toModel.unpack = .finite .positive (2 ^ 52) (-52) (by decide) := by
  rfl

/-- A whole number below `2 ^ 53` is a float. -/
theorem floatValue?_toFloat {n : Nat} (hn : n < 2 ^ 53) :
    floatValue? n.toUInt64.toFloat = some (n : ℚ) := by
  have hword : n.toUInt64.toNat = n := by
    rw [Nat.toUInt64_eq]
    exact UInt64.toNat_ofNat_of_lt (by rw [UInt64.size]; omega)
  show unpackedValue? (Float.Model.pack
    (UnpackedFloat.normalize Format.binary64 (n.toUInt64.toNat : Int) 0 .positive)).unpack = _
  rw [hword]
  exact value_normalize (isRepresentable_nat hn) (by rw [zpow_zero, mul_one, Int.cast_natCast])

theorem floatValue?_mul_one {x : Float} {p : ℚ} (hx : floatValue? x = some p) :
    floatValue? (x * 1.0) = some p := by
  show unpackedValue? (Float.Model.pack
    (UnpackedFloat.mul Format.binary64 x.toModel.unpack (1.0 : Float).toModel.unpack)).unpack = _
  rw [unpack_one]
  obtain ⟨s, hu, rfl⟩ | ⟨s, m, e, hm, hu, rfl⟩ := floatValue?_shape hx
  · rw [hu]
    show unpackedValue? (Float.Model.pack (.zero (s * .positive))).unpack = _
    rw [unpack_pack_zero]
    rfl
  · have hcanonical := canonical_of_unpack hu
    rw [hu]
    show unpackedValue? (Float.Model.pack
      (roundWithAccuracy Format.binary64 (s * .positive) (m * 2 ^ 52) (e + -52) .exact)).unpack = _
    have hulp : ulpExponent (m * 2 ^ 52) (e + -52) = e := by
      have hshifted := ulpExponent_shiftLeft hm e 52
      rw [ulpExponent_of_canonical hm hcanonical, Nat.shiftLeft_eq] at hshifted
      exact hshifted
    have hsign : s * .positive = s := by cases s <;> rfl
    have hexact := roundWithAccuracy_exact s (e := e + -52) hm hcanonical.lt
      (by have := hcanonical.least; omega) (k := 52) (by omega)
    have hexponent : e + -52 + (52 : Nat) = e := by omega
    rw [hexponent] at hexact
    rw [hsign, hexact, unpack_pack_finite s hm hcanonical]
    rfl

theorem floatValue?_ofNat {n : Nat} (hn : n < 2 ^ 53) : floatValue? (Float.ofNat n) = some n := by
  have hlit : Float.ofNat n = n.toUInt64.toFloat * 1.0 := by
    show Float.ofScientific n false 0 = _
    unfold Float.ofScientific
    rw [dif_pos ⟨hn, by omega⟩]
    rfl
  rw [hlit]
  exact floatValue?_mul_one (floatValue?_toFloat hn)

theorem floatValue?_floatOfAmount {n : Int64} (hnonneg : 0 ≤ n.toInt) (hlt : n.toInt < 2 ^ 53) :
    floatValue? (floatOfAmount n) = some (n.toInt : ℚ) := by
  obtain ⟨k, hk⟩ := Int.eq_ofNat_of_zero_le hnonneg
  rw [floatOfAmount, hk]
  exact floatValue?_ofNat (by omega)

theorem scaled_eq_div (m : Nat) (e : Int) :
    (m : ℚ) * 2 ^ e = ((m * 2 ^ e.toNat : Nat) : ℚ) / ((2 ^ (-e).toNat : Nat) : ℚ) := by
  rcases le_or_gt 0 e with hnonneg | hneg
  · obtain ⟨k, rfl⟩ := Int.eq_ofNat_of_zero_le hnonneg
    simp
  · obtain ⟨k, hk⟩ := Int.eq_ofNat_of_zero_le (Int.neg_nonneg.mpr hneg.le)
    obtain rfl : e = -k := by omega
    simp [div_eq_mul_inv]

theorem scaled_false (mode : Rounding) (m : Nat) (e : Int) :
    mode.scaled false m e =
      ((if mode.lifts false (m * 2 ^ e.toNat % 2 ^ (-e).toNat) (2 ^ (-e).toNat)
        then m * 2 ^ e.toNat / 2 ^ (-e).toNat + 1
        else m * 2 ^ e.toNat / 2 ^ (-e).toNat : Nat) : Int) := rfl

/-- Rounding halves up stays at `C` below `C + 1 / 2`. -/
theorem lifted_le {magnitude unit C : Nat} (h : 2 * magnitude < (2 * C + 1) * unit) :
    (if unit ≤ 2 * (magnitude % unit) then magnitude / unit + 1 else magnitude / unit) ≤ C := by
  have hpos : 0 < unit := Nat.pos_of_ne_zero (by rintro rfl; omega)
  have hwhole : magnitude / unit < C + 1 := by
    rw [Nat.div_lt_iff_lt_mul hpos]
    nlinarith
  split
  · next hlift =>
    by_contra hover
    obtain hfull : magnitude / unit = C := by omega
    have hsplit := Nat.div_add_mod magnitude unit
    rw [hfull] at hsplit
    nlinarith
  · omega

theorem scaled_nearest_le {m C : Nat} {e : Int} (h : (m : ℚ) * 2 ^ e < C + 1 / 2) :
    Rounding.nearest.scaled false m e ≤ C := by
  have hunit : (0 : ℚ) < (2 ^ (-e).toNat : Nat) := by positivity
  rw [scaled_eq_div, div_lt_iff₀ hunit] at h
  have hbelow : 2 * (m * 2 ^ e.toNat) < (2 * C + 1) * 2 ^ (-e).toNat := by
    have : (2 : ℚ) * (m * 2 ^ e.toNat : Nat) < (2 * C + 1) * (2 ^ (-e).toNat : Nat) := by linarith
    exact_mod_cast this
  have hlifted := lifted_le hbelow
  rw [scaled_false, Rounding.lifts]
  simp only [decide_eq_true_eq]
  exact_mod_cast hlifted

theorem scaled_down_le {m C : Nat} {e : Int} (h : (m : ℚ) * 2 ^ e < C + 1) :
    Rounding.down.scaled false m e ≤ C := by
  have hunit : (0 : ℚ) < (2 ^ (-e).toNat : Nat) := by positivity
  rw [scaled_eq_div, div_lt_iff₀ hunit] at h
  have hbelow : m * 2 ^ e.toNat / 2 ^ (-e).toNat < C + 1 := by
    rw [Nat.div_lt_iff_lt_mul (Nat.two_pow_pos _)]
    exact_mod_cast h
  rw [scaled_false, Rounding.lifts, Bool.false_and, if_neg Bool.false_ne_true]
  omega

theorem scaled_nonneg (mode : Rounding) (m : Nat) (e : Int) : 0 ≤ mode.scaled false m e :=
  Int.natCast_nonneg _

/-- What an amount becomes that is rounded from a number that is not negative. -/
theorem unpacked_of_nonneg (mode : Rounding) {x : Float} {q : ℚ} (hx : floatValue? x = some q)
    (hnonneg : 0 ≤ q) :
    mode.unpacked x.toModel.unpack = 0 ∨
      ∃ (m : Nat) (e : Int), q = m * 2 ^ e ∧
        mode.unpacked x.toModel.unpack = saturate (mode.scaled false m e) := by
  obtain ⟨s, hu, rfl⟩ | ⟨m, e, hm, hu, rfl⟩ | ⟨m, e, hm, hu, rfl⟩ := floatValue?_cases hx
  · rw [hu]
    exact .inl rfl
  · rw [hu]
    exact .inr ⟨m, e, rfl, rfl⟩
  · have := scaled_pos e hm
    linarith

theorem toInt_saturate_le {n C : Int} (hnonneg : 0 ≤ n) (hle : n ≤ C) :
    0 ≤ (saturate n).toInt ∧ (saturate n).toInt ≤ C := by
  have hleast : Int64.minValue.toInt ≤ 0 := by decide
  have hgreatest : 0 ≤ Int64.maxValue.toInt := by decide
  rw [toInt_saturate]
  omega

theorem roundAmount_le {x : Float} {q : ℚ} {C : Nat} (hx : floatValue? x = some q)
    (hnonneg : 0 ≤ q) (hlt : q < C + 1 / 2) :
    0 ≤ (roundAmount x).toInt ∧ (roundAmount x).toInt ≤ C := by
  rw [roundAmount]
  obtain hzero | ⟨m, e, rfl, hscaled⟩ := unpacked_of_nonneg .nearest hx hnonneg
  · rw [hzero]
    exact ⟨by decide, by simp⟩
  · rw [hscaled]
    exact toInt_saturate_le (scaled_nonneg ..) (scaled_nearest_le hlt)

theorem floorAmount_le {x : Float} {q : ℚ} {C : Nat} (hx : floatValue? x = some q)
    (hnonneg : 0 ≤ q) (hlt : q < C + 1) :
    0 ≤ (floorAmount x).toInt ∧ (floorAmount x).toInt ≤ C := by
  rw [floorAmount]
  obtain hzero | ⟨m, e, rfl, hscaled⟩ := unpacked_of_nonneg .down hx hnonneg
  · rw [hzero]
    exact ⟨by decide, by simp⟩
  · rw [hscaled]
    exact toInt_saturate_le (scaled_nonneg ..) (scaled_down_le hlt)

/-- Below zero, be it without end. -/
def LiesBelowZero : UnpackedFloat → Prop
  | .infinity .negative | .finite .negative .. => True
  | _ => False

theorem not_below_unpack_packComponents (e : BitVec 11) (m : BitVec 52) :
    ¬LiesBelowZero (unpack Format.binary64 (packComponents Format.binary64 .positive e m)) := by
  rw [unpack_packComponents]
  obtain hu | hu | hu | ⟨m', e', hm', hu, -⟩ := unpackedOfFields_cases .positive e m <;>
    rw [hu] <;> exact id

theorem not_below_pack {u : UnpackedFloat} (h : ¬LiesBelowZero u) :
    ¬LiesBelowZero (Float.Model.pack u).unpack := by
  cases u with
  | notANumber => exact not_below_unpack_packComponents _ _
  | zero s =>
    rw [unpack_pack_zero]
    exact id
  | infinity s =>
    cases s with
    | negative => exact absurd trivial h
    | positive => exact not_below_unpack_packComponents _ _
  | finite s m e hm =>
    cases s with
    | negative => exact absurd trivial h
    | positive =>
      show ¬LiesBelowZero (unpack Format.binary64 (pack Format.binary64 _))
      rw [pack_finite]
      split
      · exact not_below_unpack_packComponents _ _
      · split <;> exact not_below_unpack_packComponents _ _

theorem not_below_roundWithAccuracy (m : Nat) (e : Int) (a : Accuracy) :
    ¬LiesBelowZero (roundWithAccuracy Format.binary64 .positive m e a) := by
  generalize hfirst : shiftToTargetExponent Format.binary64 m e a = first
  generalize hsecond :
    shiftToTargetExponent Format.binary64 first.1.roundedMantissa first.2 .exact = second
  rw [roundWithAccuracy_of_shifts .positive hfirst hsecond]
  by_cases hzero : second.1.mantissa = 0
  · rw [dif_pos hzero]
    exact id
  · rw [dif_neg hzero]
    exact id

theorem not_below_div {x y : Float} {p q : ℚ} (hx : floatValue? x = some p) (hp : 0 ≤ p)
    (hy : floatValue? y = some q) (hq : 0 < q) : ¬LiesBelowZero (x / y).toModel.unpack := by
  show ¬LiesBelowZero (Float.Model.pack
    (UnpackedFloat.div Format.binary64 x.toModel.unpack y.toModel.unpack)).unpack
  apply not_below_pack
  obtain ⟨s', hv, rfl⟩ | ⟨m', e', hm', hv, rfl⟩ | ⟨m', e', hm', hv, rfl⟩ := floatValue?_cases hy
  · exact absurd hq (lt_irrefl _)
  · obtain ⟨s, hu, rfl⟩ | ⟨m, e, hm, hu, rfl⟩ | ⟨m, e, hm, hu, rfl⟩ := floatValue?_cases hx
    · rw [hu, hv]
      exact id
    · rw [hu, hv]
      exact not_below_roundWithAccuracy _ _ _
    · have := scaled_pos e hm
      linarith
  · have := scaled_pos e' hm'
    linarith

theorem ceilAmount_nonneg {x : Float} (h : ¬LiesBelowZero x.toModel.unpack) :
    0 ≤ (ceilAmount x).toInt := by
  rw [ceilAmount]
  generalize x.toModel.unpack = u at h
  cases u with
  | notANumber => decide
  | zero s => exact Int.le_refl 0
  | infinity s =>
    cases s with
    | negative => exact absurd trivial h
    | positive => decide
  | finite s m e hm =>
    cases s with
    | negative => exact absurd trivial h
    | positive => exact (toInt_saturate_le (scaled_nonneg ..) le_rfl).1

theorem larger_eq {x y : Float} (hx : x.isNaN = false) (hy : y.isNaN = false) :
    larger x y = if x < y then y else x := by
  rw [larger, hx, hy]
  rfl

theorem larger_pos {x y : Float} {p q : ℚ} (hx : floatValue? x = some p)
    (hy : floatValue? y = some q) (hq : 0 < q) :
    ∃ r, floatValue? (larger x y) = some r ∧ 0 < r := by
  rw [larger_eq (isNaN_eq_false hx) (isNaN_eq_false hy)]
  split
  · exact ⟨q, hy, hq⟩
  · next hnot =>
    rw [float_lt_iff hx hy, not_lt] at hnot
    exact ⟨p, hx, hq.trans_le hnot⟩

end Hostility
