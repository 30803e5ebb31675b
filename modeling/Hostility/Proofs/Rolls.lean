import Hostility.Proofs.AmountRounding
import Hostility.Random.Source

/-!
Floats that are drawn below a whole number. The bits behind a leading one are a number from one up
to two; one less and times the whole number they are a number from zero up to that.
-/
namespace Hostility

open Float.Model (UnpackedFloat Format)
open Float.Model.UnpackedFloat

namespace RandomSource

theorem shifted_lt (w : UInt64) : (w >>> 12).toNat < 2 ^ 52 := by
  have h := w.toNat_lt
  rw [UInt64.toNat_shiftRight]
  show w.toNat >>> 12 < _
  rw [Nat.shiftRight_eq_div_pow]
  omega

/-- The bits behind the leading one are the mantissa. -/
theorem toBitVec_leading (w : UInt64) :
    ((0x3ff0000000000000 : UInt64) ||| w >>> 12).toBitVec =
      packComponents Format.binary64 .positive 1023#11 (BitVec.ofNat 52 (w >>> 12).toNat) := by
  apply BitVec.eq_of_toNat_eq
  show ((0x3ff0000000000000 : UInt64) ||| w >>> 12).toNat =
    (0#1 ++ 1023#11 ++ BitVec.ofNat 52 (w >>> 12).toNat).toNat
  rw [UInt64.toNat_or, BitVec.toNat_append, BitVec.toNat_ofNat, Nat.mod_eq_of_lt (shifted_lt w)]
  rfl

theorem value_leading (w : UInt64) :
    floatValue? (Float.ofBits ((0x3ff0000000000000 : UInt64) ||| w >>> 12))
      = some ((1 : ℚ) + (w >>> 12).toNat / 2 ^ 52) := by
  have hlt := shifted_lt w
  have hmantissa : (1#1 ++ BitVec.ofNat 52 (w >>> 12).toNat).toNat = 2 ^ 52 + (w >>> 12).toNat := by
    rw [toNat_implicit_append, BitVec.toNat_ofNat, Nat.mod_eq_of_lt hlt]
  have hunpack : unpack Format.binary64 ((0x3ff0000000000000 : UInt64) ||| w >>> 12).toBitVec
      = .finite .positive (2 ^ 52 + (w >>> 12).toNat) (-52) (by omega) := by
    rw [toBitVec_leading, unpack_packComponents, unpackedOfFields, if_neg (by decide),
      if_neg (by decide), UnpackedFloat.finite.injEq]
    exact ⟨rfl, hmantissa, rfl⟩
  show unpackedValue? (Float.Model.pack
    (unpack Format.binary64 ((0x3ff0000000000000 : UInt64) ||| w >>> 12).toBitVec)).unpack = _
  rw [hunpack, unpack_pack_finite _ _ ⟨by omega, by norm_num, by norm_num, .inl (by omega)⟩]
  refine congrArg some ?_
  show ((((2 ^ 52 + (w >>> 12).toNat : Nat) : Int)) : ℚ) * 2 ^ (-52 : Int) = _
  rw [zpow_neg]
  push_cast
  ring

/-- Without its leading one it is a whole number of units, and less than one. -/
theorem value_fraction (w : UInt64) :
    ∃ f : ℚ,
      floatValue? (Float.ofBits ((0x3ff0000000000000 : UInt64) ||| w >>> 12) - 1.0) = some f ∧
      0 ≤ f ∧ f ≤ 1 - 1 / 2 ^ 52 := by
  have hlt := shifted_lt w
  have hvalue := value_leading w
  generalize (w >>> 12).toNat = j at hlt hvalue
  have hle : (j : ℚ) + 1 ≤ 2 ^ 52 := by exact_mod_cast hlt
  have hunits : 1 + (j : ℚ) / 2 ^ 52 - 1 = j * 2 ^ (-52 : Int) := by
    rw [zpow_neg, add_sub_cancel_left, div_eq_mul_inv]
    norm_num
  refine ⟨_, value_sub_exact hvalue floatValue?_one ?_, ?_, ?_⟩
  · rw [hunits]
    exact isRepresentable_scaled (by omega) (by norm_num) (by norm_num)
  · rw [hunits]
    positivity
  · rw [add_sub_cancel_left, div_le_iff₀ (by positivity)]
    norm_num at hle ⊢
    linarith

/-- A float that is drawn below a whole number is a number from zero up to there. -/
theorem within_value (r : RandomSource) {n : Nat} (hpos : 0 < n) (hlt : n < 2 ^ 53) :
    ∃ x, floatValue? (r.within (Float.ofNat n)).1 = some x ∧ 0 ≤ x ∧ x < n := by
  obtain ⟨f, hf, hf0, hf1⟩ := value_fraction r.next64.1
  have hn : floatValue? (Float.ofNat n) = some n := floatValue?_ofNat hlt
  have hn0 : (1 : ℚ) ≤ n := by exact_mod_cast hpos
  have hn1 : (n : ℚ) ≤ 2 ^ 53 := by exact_mod_cast hlt.le
  have hproduct : f * n ≤ (1 - 1 / 2 ^ 52) * n := mul_le_mul_of_nonneg_right hf1 (by linarith)
  have hleast : (2 : ℚ) ^ (-1022 : Int) ≤ (1 - 1 / 2 ^ 52) * n := by
    calc (2 : ℚ) ^ (-1022 : Int) ≤ 2 ^ (-1 : Int) :=
          zpow_le_zpow_right₀ (by norm_num) (by norm_num)
      _ ≤ (1 - 1 / 2 ^ 52) * n := by norm_num; linarith
  -- One unit less than the whole number and one unit more than that is still less.
  obtain ⟨y, hy, hy0, hy1⟩ := ((lands_mul hleast hf hn
    (by rwa [abs_of_nonneg (by positivity)])).rounds (by linarith)).upper (by positivity)
  refine ⟨y, ?_, hy0, by nlinarith⟩
  have hexact := value_add_exact hy floatValue?_zero
    (by rw [add_zero]; exact isRepresentable_of_value hy hy0)
  rwa [add_zero] at hexact

end RandomSource

end Hostility
