import Hostility.Proofs.FloatRounding

/-!
What rounding leaves alone. A sum or a difference that a double can hold is that double, and zero
and what is divided by infinity have no share that could be rounded.
-/
namespace Hostility

open Float.Model (UnpackedFloat Format totalExponent)
open Float.Model.UnpackedFloat

/-- Zeros shifted out leave nothing to round. -/
theorem shiftRight_exact (m k : Nat) :
    (ExtendedMantissa.mk (m * 2 ^ k) false false) >>> k = ExtendedMantissa.mk m false false := by
  show k.repeat ExtendedMantissa.shiftRightOne _ = _
  induction k generalizing m with
  | zero => simp [Nat.repeat]
  | succ k ih =>
    have hdouble : m * 2 ^ (k + 1) = m * 2 * 2 ^ k := by ring
    rw [hdouble, Nat.repeat, ih]
    simp [ExtendedMantissa.shiftRightOne]

theorem shiftToTargetExponent_exact {m k : Nat} {e : Int}
    (h : (ulpExponent (m * 2 ^ k) e - e).toNat = k) :
    shiftToTargetExponent Format.binary64 (m * 2 ^ k) e .exact
      = (ExtendedMantissa.mk m false false, e + k) := by
  unfold shiftToTargetExponent shiftToExponent
  rw [targetExponent_eq]
  dsimp only
  rw [h]
  exact Prod.ext (shiftRight_exact m k) rfl

/-- What is rounded is shifted twice, because the rounding may have carried. -/
theorem roundWithAccuracy_of_shifts (s : Sign) {m : Nat} {e : Int} {a : Accuracy}
    {first second : ExtendedMantissa × Int}
    (hfirst : shiftToTargetExponent Format.binary64 m e a = first)
    (hsecond : shiftToTargetExponent Format.binary64 first.1.roundedMantissa first.2 .exact
      = second) :
    roundWithAccuracy Format.binary64 s m e a =
      if h : second.1.mantissa = 0 then .zero s
      else .finite s second.1.mantissa second.2 (Nat.pos_of_ne_zero h) := by
  subst hfirst hsecond
  rfl

/-- A number that fits into the 53 bits is not moved. -/
theorem roundWithAccuracy_exact (s : Sign) {m k : Nat} {e : Int} (hm : 0 < m) (hlt : m < 2 ^ 53)
    (hleast : -1074 ≤ e + k) (h : (ulpExponent (m * 2 ^ k) e - e).toNat = k) :
    roundWithAccuracy Format.binary64 s (m * 2 ^ k) e .exact = .finite s m (e + k) hm := by
  have hagain : shiftToTargetExponent Format.binary64 m (e + k) .exact
      = (ExtendedMantissa.mk m false false, e + k) := by
    have hnone : (ulpExponent (m * 2 ^ 0) (e + k) - (e + k)).toNat = 0 := by
      rw [Nat.pow_zero, Nat.mul_one]
      have := ulpExponent_le hlt hleast
      omega
    simpa using shiftToTargetExponent_exact hnone
  exact (roundWithAccuracy_of_shifts s (shiftToTargetExponent_exact h) hagain).trans
    (dif_neg hm.ne')

/-- A double that is not negative stands for the number. -/
def IsRepresentable (v : ℚ) : Prop :=
  v = 0 ∨ ∃ (m : Nat) (e : Int), 0 < m ∧ IsCanonical m e ∧ v = m * 2 ^ e

theorem isRepresentable_of_value {x : Float} {p : ℚ} (hx : floatValue? x = some p) (hp : 0 ≤ p) :
    IsRepresentable p := by
  obtain ⟨s, hu, rfl⟩ | ⟨m, e, hm, hu, rfl⟩ | ⟨m, e, hm, hu, rfl⟩ := floatValue?_cases hx
  · exact .inl rfl
  · exact .inr ⟨m, e, hm, canonical_of_unpack hu, rfl⟩
  · have := scaled_pos e hm
    linarith

/-- A mantissa of at most 53 bits fits after it has been shifted up as far as it goes. -/
theorem isRepresentable_scaled {n : Nat} {e : Int} (hn : n < 2 ^ 53) (hleast : -1074 ≤ e)
    (hgreatest : e ≤ 971) : IsRepresentable (n * 2 ^ e) := by
  rcases Nat.eq_zero_or_pos n with rfl | hpos
  · exact .inl (by simp)
  have hlog : n.log2 < 53 := (Nat.log2_lt (by omega)).mpr hn
  obtain ⟨k, hk⟩ : ∃ k : Nat, (k : Int) = min ((52 : Int) - n.log2) (e + 1074) :=
    ⟨(min ((52 : Int) - n.log2) (e + 1074)).toNat, by omega⟩
  have hshifted := log2_shiftLeft hpos k
  have hpos' : 0 < n <<< k := by
    rw [Nat.shiftLeft_eq]
    positivity
  have hbounds := (Nat.log2_eq_iff (by omega)).mp hshifted
  refine .inr ⟨n <<< k, e - k, hpos', ⟨?_, by omega, by omega, ?_⟩, (shiftLeft_scaled n e k).symm⟩
  · exact hbounds.2.trans_le (Nat.pow_le_pow_right (by decide) (by omega))
  · by_cases hfull : n.log2 + k = 52
    · rw [hfull] at hbounds
      exact .inl hbounds.1
    · exact .inr (by omega)

theorem isRepresentable_nat {n : Nat} (hn : n < 2 ^ 53) : IsRepresentable n := by
  have h := isRepresentable_scaled (e := 0) hn (by norm_num) (by norm_num)
  rwa [zpow_zero, mul_one] at h

/-- Of two forms of one number the one is the other shifted up. -/
theorem eq_shiftLeft_of_scaled_eq {m m' : Nat} {e e' : Int} (h : (m : ℚ) * 2 ^ e = m' * 2 ^ e')
    (hle : e ≤ e') : m = m' <<< (e' - e).toNat := by
  have hexponent : e' - (e' - e).toNat = e := by omega
  have hshift := shiftLeft_scaled m' e' (e' - e).toNat
  rw [hexponent, ← h] at hshift
  have hcast := mul_right_cancel₀ (two_zpow_pos e).ne' hshift
  exact_mod_cast hcast.symm

/-- The last place belongs to the number, not to the form. -/
theorem ulpExponent_congr {m m' : Nat} {e e' : Int} (hm : 0 < m) (hm' : 0 < m')
    (h : (m : ℚ) * 2 ^ e = m' * 2 ^ e') : ulpExponent m e = ulpExponent m' e' := by
  rcases le_total e e' with hle | hle
  · have hshift := ulpExponent_shiftLeft hm' e' (e' - e).toNat
    rw [← eq_shiftLeft_of_scaled_eq h hle] at hshift
    rwa [show e' - (e' - e).toNat = e by omega] at hshift
  · have hshift := ulpExponent_shiftLeft hm e (e - e').toNat
    rw [← eq_shiftLeft_of_scaled_eq h.symm hle] at hshift
    rw [show e - (e - e').toNat = e' by omega] at hshift
    exact hshift.symm

/-- A number that a double holds is not moved, in whatever form it comes. -/
theorem round_of_canonical (s : Sign) {M m : Nat} {e e' : Int} (hM : 0 < M) (hm : 0 < m)
    (hcanonical : IsCanonical m e') (h : (M : ℚ) * 2 ^ e = m * 2 ^ e') :
    UnpackedFloat.round Format.binary64 s M e = .finite s m e' hm := by
  have hulp : ulpExponent M e = e' :=
    (ulpExponent_congr hM hm h).trans (ulpExponent_of_canonical hm hcanonical)
  unfold UnpackedFloat.round decreaseExponent
  rw [targetExponent_eq, hulp]
  dsimp only
  rcases le_total e e' with hle | hle
  · have hform := eq_shiftLeft_of_scaled_eq h hle
    rw [Nat.shiftLeft_eq] at hform
    generalize hk : (e' - e).toNat = k at hform
    have hnone : (e - e').toNat = 0 := by omega
    have hexponent : e + k = e' := by omega
    rw [hnone, Nat.shiftLeft_zero, Nat.cast_zero, Int.sub_zero]
    subst hform
    have hexact := roundWithAccuracy_exact s (e := e) (k := k) hm hcanonical.lt
      (hexponent ▸ hcanonical.least) (by rw [hulp]; exact hk)
    rwa [hexponent] at hexact
  · have hform := eq_shiftLeft_of_scaled_eq h.symm hle
    generalize hk : (e - e').toNat = k at hform
    have hexponent : e - k = e' := by omega
    rw [← hform, hexponent]
    have hexact := roundWithAccuracy_exact s (e := e') (k := 0) hm hcanonical.lt
      (by simpa using hcanonical.least)
      (by rw [Nat.pow_zero, Nat.mul_one, ulpExponent_of_canonical hm hcanonical]; omega)
    rwa [Nat.pow_zero, Nat.mul_one, Nat.cast_zero, Int.add_zero] at hexact

theorem value_normalize {M : Int} {e : Int} {v : ℚ} (hv : IsRepresentable v)
    (h : (M : ℚ) * 2 ^ e = v) :
    unpackedValue? (Float.Model.pack
      (UnpackedFloat.normalize Format.binary64 M e .positive)).unpack = some v := by
  unfold UnpackedFloat.normalize
  obtain rfl | ⟨m, e', hm, hcanonical, rfl⟩ := hv
  · obtain rfl : M = 0 := by
      have := (mul_eq_zero.mp h).resolve_right (two_zpow_pos e).ne'
      exact_mod_cast this
    rw [compare_eq_iff_eq.mpr rfl]
    show unpackedValue? (Float.Model.pack (.zero .positive)).unpack = _
    rw [unpack_pack_zero]
    rfl
  · have hpos : 0 < M := by
      have : (0 : ℚ) < M := pos_of_mul_pos_left (h ▸ scaled_pos e' hm) (two_zpow_pos e).le
      exact_mod_cast this
    obtain ⟨n, rfl⟩ := Int.eq_ofNat_of_zero_le hpos.le
    rw [compare_gt_iff_gt.mpr hpos]
    dsimp only
    rw [Int.toNat_natCast,
      round_of_canonical .positive (by omega) hm hcanonical (by exact_mod_cast h),
      unpack_pack_finite .positive hm hcanonical]
    rfl

section Exact

variable {x y : Float} {p q : ℚ}

/-- A float is packed again as it is, with either sign. -/
theorem value_pack_of_unpack {s s' : Sign} {m : Nat} {e : Int} {hm : 0 < m} {z : Float.Model}
    {v : ℚ} (hz : z.unpack = .finite s' m e hm) (hv : ((s.apply m : Int) : ℚ) * 2 ^ e = v) :
    unpackedValue? (Float.Model.pack (.finite s m e hm)).unpack = some v := by
  rw [unpack_pack_finite s hm (canonical_of_unpack hz), ← hv]
  rfl

theorem value_add_exact (hx : floatValue? x = some p) (hy : floatValue? y = some q)
    (h : IsRepresentable (p + q)) : floatValue? (x + y) = some (p + q) := by
  show unpackedValue? (Float.Model.pack
    (UnpackedFloat.add Format.binary64 x.toModel.unpack y.toModel.unpack)).unpack = _
  obtain ⟨s, hu, rfl⟩ | ⟨s, m, e, hm, hu, rfl⟩ := floatValue?_shape hx <;>
    obtain ⟨s', hv, rfl⟩ | ⟨s', m', e', hm', hv, rfl⟩ := floatValue?_shape hy <;>
    rw [hu, hv]
  · show unpackedValue? (Float.Model.pack (if s == s' then .zero s else .zero .positive)).unpack = _
    split <;> rw [unpack_pack_zero, add_zero] <;> rfl
  · exact value_pack_of_unpack hv (zero_add _).symm
  · exact value_pack_of_unpack hu (add_zero _).symm
  · rw [← aligned_scaled s m (min_le_left e e'), ← aligned_scaled s' m' (min_le_right e e'),
      ← add_mul, ← Int.cast_add] at h ⊢
    exact value_normalize h rfl

theorem value_sub_exact (hx : floatValue? x = some p) (hy : floatValue? y = some q)
    (h : IsRepresentable (p - q)) : floatValue? (x - y) = some (p - q) := by
  show unpackedValue? (Float.Model.pack
    (UnpackedFloat.sub Format.binary64 x.toModel.unpack y.toModel.unpack)).unpack = _
  obtain ⟨s, hu, rfl⟩ | ⟨s, m, e, hm, hu, rfl⟩ := floatValue?_shape hx <;>
    obtain ⟨s', hv, rfl⟩ | ⟨s', m', e', hm', hv, rfl⟩ := floatValue?_shape hy <;>
    rw [hu, hv]
  · show unpackedValue?
      (Float.Model.pack (if s == -s' then .zero s else .zero .positive)).unpack = _
    split <;> rw [unpack_pack_zero, sub_zero] <;> rfl
  · refine value_pack_of_unpack (s := -s') hv ?_
    cases s' <;> simp [Sign.apply]
  · exact value_pack_of_unpack hu (sub_zero _).symm
  · rw [← aligned_scaled s m (min_le_left e e'), ← aligned_scaled s' m' (min_le_right e e'),
      ← sub_mul, ← Int.cast_sub] at h ⊢
    exact value_normalize h rfl

theorem value_zero_div (hx : floatValue? x = some 0) (hy : floatValue? y = some q) (hq : q ≠ 0) :
    floatValue? (x / y) = some 0 := by
  show unpackedValue? (Float.Model.pack
    (UnpackedFloat.div Format.binary64 x.toModel.unpack y.toModel.unpack)).unpack = _
  obtain ⟨s, hu, -⟩ | ⟨s, m, e, hm, hu, hzero⟩ := floatValue?_shape hx
  · obtain ⟨s', hv, rfl⟩ | ⟨s', m', e', hm', hv, -⟩ := floatValue?_shape hy
    · exact absurd rfl hq
    · rw [hu, hv]
      show unpackedValue? (Float.Model.pack (.zero (s / s'))).unpack = _
      rw [unpack_pack_zero]
      rfl
  · have hscaled := abs_apply_scaled s m e
    rw [← hzero, abs_zero] at hscaled
    exact absurd hscaled (scaled_pos e hm).ne

theorem value_div_infinity {s : Sign} (hx : floatValue? x = some p)
    (hy : y.toModel.unpack = .infinity s) : floatValue? (x / y) = some 0 := by
  show unpackedValue? (Float.Model.pack
    (UnpackedFloat.div Format.binary64 x.toModel.unpack y.toModel.unpack)).unpack = _
  obtain ⟨s', hu, -⟩ | ⟨s', m, e, hm, hu, -⟩ := floatValue?_shape hx <;> rw [hu, hy]
  all_goals
    show unpackedValue? (Float.Model.pack (.zero (s' / s))).unpack = _
    rw [unpack_pack_zero]
    rfl

end Exact

end Hostility
