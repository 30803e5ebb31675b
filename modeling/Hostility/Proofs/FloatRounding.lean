import Hostility.Proofs.FloatValue
import Mathlib.Algebra.Order.Field.Power
import Mathlib.Data.Nat.Cast.Order.Field
import Mathlib.Tactic.Linarith

/-!
How far rounding moves a number. A sum, a difference, a product or a quotient of floats is the exact
result moved by no more than one unit in its last place, and never across zero, or it is too large
for a float. A full unit is twice what rounding to the nearest allows, but needs no account of the
bits that are cut off.
-/
namespace Hostility

open Float.Model (UnpackedFloat Format totalExponent)
open Float.Model.UnpackedFloat

/-- The exponent of the last place of a double near `m * 2 ^ e`. -/
def ulpExponent (m : Nat) (e : Int) : Int := max (m.log2 + e - 52) (-1074)

theorem targetExponent_binary64 (t : Int) :
    Format.binary64.targetExponent t = max (t - (53 : Nat)) (-1074) := rfl

theorem targetExponent_eq (m : Nat) (e : Int) :
    Format.binary64.targetExponent (totalExponent m e) = ulpExponent m e := by
  rw [targetExponent_binary64, totalExponent, ulpExponent]
  omega

theorem least_le_ulpExponent (m : Nat) (e : Int) : -1074 ≤ ulpExponent m e := by
  unfold ulpExponent
  omega

theorem ulpExponent_of_canonical {m : Nat} {e : Int} (hm : 0 < m) (h : IsCanonical m e) :
    ulpExponent m e = e := by
  have hlog : m.log2 < 53 := (Nat.log2_lt (by omega)).mpr h.lt
  have hleast := h.least
  unfold ulpExponent
  rcases h.full with hfull | rfl
  · have hlog' : 52 ≤ m.log2 := (Nat.le_log2 (by omega)).mpr hfull
    omega
  · omega

theorem mantissa_shiftRight (em : ExtendedMantissa) (k : Nat) :
    (em >>> k).mantissa = em.mantissa / 2 ^ k := by
  show (k.repeat ExtendedMantissa.shiftRightOne em).mantissa = _
  induction k with
  | zero => simp [Nat.repeat]
  | succ k ih =>
    show (k.repeat ExtendedMantissa.shiftRightOne em).mantissa / 2 = _
    rw [ih, Nat.div_div_eq_div_mul, Nat.pow_succ]

theorem mantissa_ofMantissaAndAccuracy (m : Nat) (a : Accuracy) :
    (ExtendedMantissa.ofMantissaAndAccuracy m a).mantissa = m := by
  cases a with
  | exact => rfl
  | inexact o => cases o <;> rfl

theorem roundedMantissa_bounds (em : ExtendedMantissa) :
    em.mantissa ≤ em.roundedMantissa ∧ em.roundedMantissa ≤ em.mantissa + 1 := by
  obtain ⟨m, r, s⟩ := em
  cases r <;> cases s <;>
    simp [ExtendedMantissa.roundedMantissa, ExtendedMantissa.accuracy, Accuracy.roundToNearestEven]
  omega

/-- The mantissa cut off at the last place. -/
def cutMantissa (m : Nat) (e : Int) : Nat := m / 2 ^ (ulpExponent m e - e).toNat

theorem cutMantissa_lt (m : Nat) (e : Int) : cutMantissa m e < 2 ^ 53 := by
  rw [cutMantissa, Nat.div_lt_iff_lt_mul (Nat.two_pow_pos _), ← Nat.pow_add]
  refine Nat.lt_of_lt_of_le Nat.lt_log2_self (Nat.pow_le_pow_right (by decide) ?_)
  unfold ulpExponent
  omega

/-- A mantissa that is cut above the least exponent has bits to be cut. -/
theorem ne_zero_of_least_lt {m : Nat} {e : Int} (he : e ≤ ulpExponent m e)
    (hmore : -1074 < ulpExponent m e) : m ≠ 0 := by
  rintro rfl
  rw [ulpExponent, Nat.log2_zero] at he hmore
  omega

theorem le_cutMantissa {m : Nat} {e : Int} (he : e ≤ ulpExponent m e)
    (hmore : -1074 < ulpExponent m e) : 2 ^ 52 ≤ cutMantissa m e := by
  have hm := ne_zero_of_least_lt he hmore
  rw [cutMantissa, Nat.le_div_iff_mul_le (Nat.two_pow_pos _), ← Nat.pow_add]
  refine Nat.le_trans (Nat.pow_le_pow_right (by decide) ?_) (Nat.log2_self_le hm)
  unfold ulpExponent at he hmore ⊢
  omega

theorem mantissa_shiftToTargetExponent (m : Nat) (e : Int) (a : Accuracy) :
    (shiftToTargetExponent Format.binary64 m e a).1.mantissa = cutMantissa m e := by
  unfold shiftToTargetExponent shiftToExponent
  rw [targetExponent_eq, mantissa_shiftRight, mantissa_ofMantissaAndAccuracy]
  rfl

theorem exponent_shiftToTargetExponent (m : Nat) (e : Int) (a : Accuracy) :
    (shiftToTargetExponent Format.binary64 m e a).2 = max e (ulpExponent m e) := by
  unfold shiftToTargetExponent shiftToExponent
  rw [targetExponent_eq]
  dsimp only
  omega

/-- A mantissa that fits is not cut again. -/
theorem ulpExponent_le {r : Nat} {t : Int} (hr : r < 2 ^ 53) (ht : -1074 ≤ t) :
    ulpExponent r t ≤ t := by
  have hlog : r.log2 ≤ 52 := by
    by_cases h : r = 0
    · simp [h]
    · exact Nat.le_of_lt_succ ((Nat.log2_lt h).mpr hr)
  unfold ulpExponent
  omega

theorem cutMantissa_of_le {r : Nat} {t : Int} (h : ulpExponent r t ≤ t) : cutMantissa r t = r := by
  rw [cutMantissa, Int.toNat_of_nonpos (by omega), Nat.pow_zero, Nat.div_one]

theorem ulpExponent_carried {t : Int} (ht : -1074 ≤ t) : ulpExponent (2 ^ 53) t = t + 1 := by
  rw [ulpExponent, Nat.log2_two_pow]
  omega

theorem cutMantissa_carried {t : Int} (ht : -1074 ≤ t) : cutMantissa (2 ^ 53) t = 2 ^ 52 := by
  have hone : (t + 1 - t).toNat = 1 := by omega
  rw [cutMantissa, ulpExponent_carried ht, hone]
  rfl

/-- A rounding whose mantissa has grown to 54 bits is shifted once more. -/
theorem roundWithAccuracy_cases (s : Sign) {m : Nat} {e : Int} (a : Accuracy)
    (he : e ≤ ulpExponent m e) :
    ∃ r, cutMantissa m e ≤ r ∧ r ≤ cutMantissa m e + 1 ∧
      (r = 0 ∧ roundWithAccuracy Format.binary64 s m e a = .zero s ∨
      r < 2 ^ 53 ∧ (∃ hr, roundWithAccuracy Format.binary64 s m e a
        = .finite s r (ulpExponent m e) hr) ∨
      r = 2 ^ 53 ∧ ∃ hr, roundWithAccuracy Format.binary64 s m e a
        = .finite s (2 ^ 52) (ulpExponent m e + 1) hr) := by
  have hleast := least_le_ulpExponent m e
  have hmantissa := mantissa_shiftToTargetExponent m e a
  have hexponent := exponent_shiftToTargetExponent m e a
  rw [max_eq_right he] at hexponent
  have hcut := cutMantissa_lt m e
  unfold roundWithAccuracy
  generalize shiftToTargetExponent Format.binary64 m e a = first at hmantissa hexponent ⊢
  obtain ⟨em, t⟩ := first
  dsimp only at hmantissa hexponent ⊢
  subst hexponent
  have hbounds := roundedMantissa_bounds em
  rw [hmantissa] at hbounds
  refine ⟨em.roundedMantissa, hbounds.1, hbounds.2, ?_⟩
  generalize em.roundedMantissa = r at hbounds ⊢
  generalize ulpExponent m e = t at hleast ⊢
  have hmantissa' := mantissa_shiftToTargetExponent r t .exact
  have hexponent' := exponent_shiftToTargetExponent r t .exact
  generalize shiftToTargetExponent Format.binary64 r t .exact = second at hmantissa' hexponent' ⊢
  obtain ⟨⟨m', b, b'⟩, t'⟩ := second
  dsimp only at hmantissa' hexponent' ⊢
  -- The second shift does nothing, or takes the carry back by one place.
  by_cases hfits : r < 2 ^ 53
  · have hle := ulpExponent_le hfits hleast
    rw [cutMantissa_of_le hle] at hmantissa'
    rw [max_eq_left hle] at hexponent'
    subst hmantissa' hexponent'
    by_cases hzero : m' = 0
    · exact .inl ⟨hzero, dif_pos hzero⟩
    · exact .inr (.inl ⟨hfits, Nat.pos_of_ne_zero hzero, dif_neg hzero⟩)
  · obtain rfl : r = 2 ^ 53 := by omega
    rw [cutMantissa_carried hleast] at hmantissa'
    rw [ulpExponent_carried hleast, max_eq_right (by omega)] at hexponent'
    subst hmantissa' hexponent'
    exact .inr (.inr ⟨rfl, by decide, rfl⟩)

/-- Cutting off the places below the last one, or going one up from there, is less than one unit
away, also from a number that goes on behind the mantissa. -/
theorem abs_sub_le_of_cut {m r k : Nat} {y : ℚ} (hy : m ≤ y) (hy' : y < m + 1)
    (h : m / 2 ^ k ≤ r) (h' : r ≤ m / 2 ^ k + 1) : |(r : ℚ) * 2 ^ k - y| ≤ 2 ^ k := by
  have hbelow : m / 2 ^ k * 2 ^ k ≤ m := Nat.div_mul_le_self m _
  have habove : m < (m / 2 ^ k + 1) * 2 ^ k :=
    Nat.lt_mul_of_div_lt (Nat.lt_succ_self _) (by positivity)
  have hupper : r * 2 ^ k ≤ m + 2 ^ k := by nlinarith
  have hlower : m + 1 ≤ r * 2 ^ k + 2 ^ k := by nlinarith
  have hupper' : (r : ℚ) * 2 ^ k ≤ m + 2 ^ k := by exact_mod_cast hupper
  have hlower' : (m : ℚ) + 1 ≤ r * 2 ^ k + 2 ^ k := by exact_mod_cast hlower
  rw [abs_le]
  constructor <;> linarith

theorem abs_scaled_sub_le {m r : Nat} {e : Int} {y : ℚ} (he : e ≤ ulpExponent m e) (hy : m ≤ y)
    (hy' : y < m + 1) (h : cutMantissa m e ≤ r) (h' : r ≤ cutMantissa m e + 1) :
    |(r : ℚ) * 2 ^ ulpExponent m e - y * 2 ^ e| ≤ 2 ^ ulpExponent m e := by
  unfold cutMantissa at h h'
  generalize hk : (ulpExponent m e - e).toNat = k at h h'
  have hulp : ulpExponent m e = k + e := by omega
  have hcut := mul_le_mul_of_nonneg_right (abs_sub_le_of_cut hy hy' h h') (two_zpow_pos e).le
  have hsplit : (2 : ℚ) ^ ulpExponent m e = 2 ^ k * 2 ^ e := by
    rw [hulp, zpow_add₀ (by norm_num), zpow_natCast]
  rw [hsplit]
  calc |(r : ℚ) * (2 ^ k * 2 ^ e) - y * 2 ^ e| = |((r : ℚ) * 2 ^ k - y) * 2 ^ e| := by
        congr 1
        ring
    _ = |(r : ℚ) * 2 ^ k - y| * 2 ^ e := by rw [abs_mul, abs_of_pos (two_zpow_pos e)]
    _ ≤ 2 ^ k * 2 ^ e := hcut

/-- What is packed after a rounding stands for the mantissa that was cut, or for the one above it,
unless it is too large. -/
theorem pack_roundWithAccuracy (s : Sign) {m : Nat} {e : Int} (a : Accuracy)
    (he : e ≤ ulpExponent m e) :
    let z := (Float.Model.pack (roundWithAccuracy Format.binary64 s m e a)).unpack
    (∃ r : Nat, cutMantissa m e ≤ r ∧ r ≤ cutMantissa m e + 1 ∧
      unpackedValue? z = some (((s.apply r : Int) : ℚ) * 2 ^ ulpExponent m e)) ∨
    970 < ulpExponent m e ∧ z = .infinity s := by
  have hleast := least_le_ulpExponent m e
  dsimp only
  obtain ⟨r, hcut, hcut', ⟨rfl, hround⟩ | ⟨hlt, hr, hround⟩ | ⟨rfl, hr, hround⟩⟩ :=
    roundWithAccuracy_cases s a he <;> rw [hround]
  · refine .inl ⟨0, hcut, hcut', ?_⟩
    rw [unpack_pack_zero, unpackedValue?_zero]
    cases s <;> simp [Sign.apply]
  · by_cases hfits : ulpExponent m e ≤ 971
    · -- Above the least exponent the bits that are left fill the mantissa.
      have hcanonical : IsCanonical r (ulpExponent m e) := by
        refine ⟨hlt, hleast, hfits, ?_⟩
        rcases lt_or_eq_of_le hleast with hmore | heq
        · exact .inl ((le_cutMantissa he hmore).trans hcut)
        · exact .inr heq.symm
      refine .inl ⟨r, hcut, hcut', ?_⟩
      rw [unpack_pack_finite s _ hcanonical, unpackedValue?_finite]
    · exact .inr ⟨by omega, unpack_pack_overflow s _ (by omega)⟩
  · by_cases hfits : ulpExponent m e ≤ 970
    · have hcanonical : IsCanonical (2 ^ 52) (ulpExponent m e + 1) :=
        ⟨by norm_num, by omega, by omega, .inl le_rfl⟩
      refine .inl ⟨2 ^ 53, hcut, hcut', ?_⟩
      rw [unpack_pack_finite s _ hcanonical, unpackedValue?_finite, zpow_add_one₀ (by norm_num)]
      cases s <;> simp [Sign.apply] <;> ring
    · exact .inr ⟨by omega, unpack_pack_overflow s _ (by omega)⟩

/-- The last place of a number of at most `B` is worth at most `B / 2 ^ 52`, unless this is less
than the least double. -/
theorem two_zpow_ulpExponent_le {m : Nat} {e : Int} {B : ℚ} (he : e ≤ ulpExponent m e)
    (hB : 2 ^ (-1022 : Int) ≤ B) (h : (m : ℚ) * 2 ^ e ≤ B) :
    (2 : ℚ) ^ ulpExponent m e ≤ B / 2 ^ 52 := by
  rw [le_div_iff₀ (by positivity)]
  rcases le_or_gt ((m.log2 : Int) + e - 52) (-1074) with hleast | hmore
  · have hulp : ulpExponent m e = -1074 := by
      unfold ulpExponent
      omega
    rw [hulp]
    calc (2 : ℚ) ^ (-1074 : Int) * 2 ^ 52 = 2 ^ (-1022 : Int) := by
          rw [← zpow_natCast (2 : ℚ) 52, ← zpow_add₀ (by norm_num)]
          rfl
      _ ≤ B := hB
  · have hulp : ulpExponent m e + 52 = m.log2 + e := by
      unfold ulpExponent
      omega
    have hm := ne_zero_of_least_lt he (by omega)
    have hlog : (2 : ℚ) ^ m.log2 ≤ m := by exact_mod_cast Nat.log2_self_le hm
    calc (2 : ℚ) ^ ulpExponent m e * 2 ^ 52 = 2 ^ (ulpExponent m e + 52) := by
          rw [zpow_add₀ (by norm_num)]
          norm_num
      _ = 2 ^ m.log2 * 2 ^ e := by rw [hulp, zpow_add₀ (by norm_num), zpow_natCast]
      _ ≤ m * 2 ^ e := mul_le_mul_of_nonneg_right hlog (two_zpow_pos e).le
      _ ≤ B := h

/-- What has its last place above that of the greatest double is far above `2 ^ 200`. -/
theorem lt_of_ulpExponent {m : Nat} {e : Int} {B : ℚ} (he : e ≤ ulpExponent m e)
    (hB : 2 ^ (-1022 : Int) ≤ B) (h : (m : ℚ) * 2 ^ e ≤ B) (hover : 970 < ulpExponent m e) :
    2 ^ 200 < B := by
  by_contra hfits
  have hpos : 0 < B := (two_zpow_pos _).trans_le hB
  have hpow : (2 : ℚ) ^ ulpExponent m e ≤ 2 ^ (970 : Int) := by
    calc (2 : ℚ) ^ ulpExponent m e ≤ B / 2 ^ 52 := two_zpow_ulpExponent_le he hB h
      _ ≤ B := div_le_self hpos.le (by norm_num)
      _ ≤ 2 ^ (200 : Int) := by exact_mod_cast not_lt.mp hfits
      _ ≤ 2 ^ (970 : Int) := zpow_le_zpow_right₀ (by norm_num) (by norm_num)
  exact absurd ((zpow_le_zpow_iff_right₀ (by norm_num)).mp hpow) (not_le.mpr hover)

/-- A float that stands for a number near `x`: at most `B / 2 ^ 52` away, and not below zero if `x`
is not. -/
def Rounds (B x : ℚ) (y : Float.Model) : Prop :=
  ∃ q, unpackedValue? y.unpack = some q ∧ |q - x| ≤ B / 2 ^ 52 ∧ (0 ≤ x → 0 ≤ q)

/-- A float that stands for a number near `x`, or an infinity on the side of `x` if that is out of
reach. -/
def Lands (B x : ℚ) (y : Float.Model) : Prop :=
  Rounds B x y ∨ 2 ^ 200 < B ∧ ∃ s, y.unpack = .infinity s ∧ (0 ≤ x → s = .positive)

variable {B : ℚ}

theorem Lands.rounds {x : ℚ} {y : Float.Model} (h : Lands B x y) (hfits : B ≤ 2 ^ 200) :
    Rounds B x y :=
  h.resolve_right fun hover => absurd hover.1 (not_lt.mpr hfits)

/-- A number that goes on behind the mantissa lands as the mantissa does. -/
theorem lands_pack_between (hB : 2 ^ (-1022 : Int) ≤ B) {m : Nat} {e : Int} {y : ℚ} (a : Accuracy)
    (he : e ≤ ulpExponent m e) (hy : m ≤ y) (hy' : y < m + 1) (h : y * 2 ^ e ≤ B) :
    Lands B (y * 2 ^ e)
      (Float.Model.pack (roundWithAccuracy Format.binary64 .positive m e a)) := by
  have hpos := two_zpow_pos (ulpExponent m e)
  have hle : (m : ℚ) * 2 ^ e ≤ B := (mul_le_mul_of_nonneg_right hy (two_zpow_pos e).le).trans h
  rcases pack_roundWithAccuracy .positive a he with ⟨r, hcut, hcut', hvalue⟩ | ⟨hover, hinfinite⟩
  · have herror :=
      (abs_scaled_sub_le he hy hy' hcut hcut').trans (two_zpow_ulpExponent_le he hB hle)
    refine .inl ⟨_, hvalue, ?_⟩
    simp only [Sign.apply, Int.cast_natCast]
    exact ⟨herror, fun _ => by positivity⟩
  · exact .inr ⟨lt_of_ulpExponent he hB hle hover, .positive, hinfinite, fun _ => rfl⟩

theorem lands_pack (hB : 2 ^ (-1022 : Int) ≤ B) (s : Sign) {m : Nat} {e : Int} (hm : 0 < m)
    (he : e ≤ ulpExponent m e) (h : (m : ℚ) * 2 ^ e ≤ B) :
    Lands B (((s.apply m : Int) : ℚ) * 2 ^ e)
      (Float.Model.pack (roundWithAccuracy Format.binary64 s m e .exact)) := by
  cases s with
  | positive => exact lands_pack_between hB .exact he le_rfl (lt_add_one _) h
  | negative =>
    have hscaled := scaled_pos e hm
    have hneg : ¬0 ≤ ((Sign.negative.apply m : Int) : ℚ) * 2 ^ e := by
      simp only [Sign.apply, Int.cast_neg, Int.cast_natCast]
      linarith
    rcases pack_roundWithAccuracy .negative .exact he with
      ⟨r, hcut, hcut', hvalue⟩ | ⟨hover, hinfinite⟩
    · have herror := (abs_scaled_sub_le he le_rfl (lt_add_one _) hcut hcut').trans
        (two_zpow_ulpExponent_le he hB h)
      refine .inl ⟨_, hvalue, ?_, fun hnonneg => absurd hnonneg hneg⟩
      simp only [Sign.apply, Int.cast_neg, Int.cast_natCast]
      rw [abs_sub_comm, neg_mul, neg_mul, neg_sub_neg]
      exact herror
    · exact .inr ⟨lt_of_ulpExponent he hB h hover, .negative, hinfinite, fun hnonneg =>
        absurd hnonneg hneg⟩

theorem lands_zero (hB : 2 ^ (-1022 : Int) ≤ B) (s : Sign) :
    Lands B 0 (Float.Model.pack (.zero s)) := by
  have hpos : 0 < B := (two_zpow_pos _).trans_le hB
  refine .inl ⟨0, by rw [unpack_pack_zero]; rfl, ?_, fun _ => le_rfl⟩
  rw [sub_zero, abs_zero]
  positivity

theorem log2_shiftLeft {m : Nat} (hm : 0 < m) (k : Nat) : (m <<< k).log2 = m.log2 + k := by
  rw [Nat.shiftLeft_eq, Nat.log2_eq_iff (by positivity)]
  have hbounds := (Nat.log2_eq_iff (k := m.log2) (by omega : m ≠ 0)).mp rfl
  constructor
  · rw [Nat.pow_add]
    exact Nat.mul_le_mul_right _ hbounds.1
  · rw [Nat.add_right_comm, Nat.pow_add]
    exact Nat.mul_lt_mul_of_pos_right hbounds.2 (Nat.two_pow_pos k)

theorem ulpExponent_shiftLeft {m : Nat} (hm : 0 < m) (e : Int) (k : Nat) :
    ulpExponent (m <<< k) (e - k) = ulpExponent m e := by
  rw [ulpExponent, log2_shiftLeft hm, ulpExponent]
  omega

theorem shiftLeft_scaled (m : Nat) (e : Int) (k : Nat) :
    ((m <<< k : Nat) : ℚ) * 2 ^ (e - k) = m * 2 ^ e := by
  rw [Nat.shiftLeft_eq, zpow_sub₀ (by norm_num), zpow_natCast]
  push_cast
  rw [mul_assoc, mul_div_cancel₀ _ (by positivity)]

theorem apply_shiftLeft_scaled (s : Sign) (m : Nat) (e : Int) (k : Nat) :
    ((s.apply (m <<< k : Nat) : Int) : ℚ) * 2 ^ (e - k) = ((s.apply m : Int) : ℚ) * 2 ^ e := by
  have hscaled := shiftLeft_scaled m e k
  cases s with
  | positive => simpa only [Sign.apply, Int.cast_natCast] using hscaled
  | negative =>
    have hneg := congrArg Neg.neg hscaled
    simpa only [Sign.apply, Int.cast_neg, Int.cast_natCast, neg_mul] using hneg

theorem abs_apply_scaled (s : Sign) (m : Nat) (e : Int) :
    |((s.apply m : Int) : ℚ) * 2 ^ e| = m * 2 ^ e := by
  have hnonneg : (0 : ℚ) ≤ m * 2 ^ e := by positivity
  cases s with
  | positive => simpa only [Sign.apply, Int.cast_natCast] using abs_of_nonneg hnonneg
  | negative =>
    simpa only [Sign.apply, Int.cast_neg, Int.cast_natCast, neg_mul, abs_neg] using
      abs_of_nonneg hnonneg

theorem lands_round (hB : 2 ^ (-1022 : Int) ≤ B) (s : Sign) {m : Nat} {e : Int} (hm : 0 < m)
    (h : (m : ℚ) * 2 ^ e ≤ B) :
    Lands B (((s.apply m : Int) : ℚ) * 2 ^ e)
      (Float.Model.pack (UnpackedFloat.round Format.binary64 s m e)) := by
  unfold UnpackedFloat.round decreaseExponent
  rw [targetExponent_eq]
  dsimp only
  generalize hk : (e - ulpExponent m e).toNat = k
  have he : e - k ≤ ulpExponent (m <<< k) (e - k) := by
    rw [ulpExponent_shiftLeft hm]
    omega
  have hpos : 0 < m <<< k := by
    rw [Nat.shiftLeft_eq]
    positivity
  have hscaled := shiftLeft_scaled m e k
  have hlands := lands_pack hB s hpos he (by rw [hscaled]; exact h)
  rwa [apply_shiftLeft_scaled] at hlands

theorem lands_normalize (hB : 2 ^ (-1022 : Int) ≤ B) (M : Int) (e : Int)
    (h : |(M : ℚ) * 2 ^ e| ≤ B) :
    Lands B ((M : ℚ) * 2 ^ e)
      (Float.Model.pack (UnpackedFloat.normalize Format.binary64 M e .positive)) := by
  rw [abs_mul, abs_of_pos (two_zpow_pos e)] at h
  unfold UnpackedFloat.normalize
  rcases lt_trichotomy M 0 with hneg | rfl | hpos
  · have habs : (((-M).toNat : Nat) : ℚ) = |(M : ℚ)| := by
      rw [abs_of_neg (by exact_mod_cast hneg)]
      exact_mod_cast Int.toNat_of_nonneg (by omega)
    have hlands := lands_round hB .negative (m := (-M).toNat) (e := e) (by omega) (by rwa [habs])
    have happly : (Sign.negative.apply ((-M).toNat : Nat) : Int) = M := by
      show -(((-M).toNat : Nat) : Int) = M
      omega
    rw [happly] at hlands
    rw [compare_lt_iff_lt.mpr hneg]
    exact hlands
  · rw [compare_eq_iff_eq.mpr rfl, Int.cast_zero, zero_mul]
    exact lands_zero hB .positive
  · have habs : ((M.toNat : Nat) : ℚ) = |(M : ℚ)| := by
      rw [abs_of_pos (by exact_mod_cast hpos)]
      exact_mod_cast Int.toNat_of_nonneg hpos.le
    have hlands := lands_round hB .positive (m := M.toNat) (e := e) (by omega) (by rwa [habs])
    have happly : (Sign.positive.apply (M.toNat : Nat) : Int) = M := Int.toNat_of_nonneg hpos.le
    rw [happly] at hlands
    rw [compare_gt_iff_gt.mpr hpos]
    exact hlands

section Arithmetic

variable {x y : Float} {p q : ℚ}

theorem lands_finite (hB : 2 ^ (-1022 : Int) ≤ B) (s : Sign) {m : Nat} {e : Int} (hm : 0 < m)
    (h : IsCanonical m e) :
    Lands B (((s.apply m : Int) : ℚ) * 2 ^ e) (Float.Model.pack (.finite s m e hm)) := by
  have hpos : 0 < B := (two_zpow_pos _).trans_le hB
  refine .inl ⟨_, by rw [unpack_pack_finite s hm h]; rfl, ?_, id⟩
  rw [sub_self, abs_zero]
  positivity

theorem apply_mul (s s' : Sign) (m m' : Nat) :
    (s * s').apply (m * m' : Nat) = s.apply m * s'.apply m' := by
  cases s <;> cases s'
  · show ((m * m' : Nat) : Int) = -(m : Int) * -(m' : Int)
    push_cast
    ring
  · show -((m * m' : Nat) : Int) = -(m : Int) * m'
    push_cast
    ring
  · show -((m * m' : Nat) : Int) = (m : Int) * -(m' : Int)
    push_cast
    ring
  · exact Nat.cast_mul m m'

/-- The product of two doubles has more than enough bits, unless it lies below the least
exponent. -/
theorem exponent_mul_le {m m' : Nat} {e e' : Int} (hm : 0 < m) (hm' : 0 < m')
    (h : IsCanonical m e) (h' : IsCanonical m' e') : e + e' ≤ ulpExponent (m * m') (e + e') := by
  by_cases hfull : 2 ^ 52 ≤ m * m'
  · have hlog : 52 ≤ (m * m').log2 := (Nat.le_log2 (by positivity)).mpr hfull
    unfold ulpExponent
    omega
  · have hsmall : m < 2 ^ 52 := by nlinarith
    have hsmall' : m' < 2 ^ 52 := by nlinarith
    have he := h.full.resolve_left (by omega)
    have he' := h'.full.resolve_left (by omega)
    unfold ulpExponent
    omega

theorem lands_mul (hB : 2 ^ (-1022 : Int) ≤ B) (hx : floatValue? x = some p)
    (hy : floatValue? y = some q) (h : |p * q| ≤ B) : Lands B (p * q) (x * y).toModel := by
  show Lands B _ (Float.Model.pack
    (UnpackedFloat.mul Format.binary64 x.toModel.unpack y.toModel.unpack))
  obtain ⟨s, hu, rfl⟩ | ⟨s, m, e, hm, hu, rfl⟩ := floatValue?_shape hx <;>
    obtain ⟨s', hv, rfl⟩ | ⟨s', m', e', hm', hv, rfl⟩ := floatValue?_shape hy <;>
    rw [hu, hv]
  · rw [zero_mul]
    exact lands_zero hB _
  · rw [zero_mul]
    exact lands_zero hB _
  · rw [mul_zero]
    exact lands_zero hB _
  · have hproduct : ((s.apply m : Int) : ℚ) * 2 ^ e * (((s'.apply m' : Int) : ℚ) * 2 ^ e')
        = (((s * s').apply (m * m' : Nat) : Int) : ℚ) * 2 ^ (e + e') := by
      rw [apply_mul, zpow_add₀ (by norm_num)]
      push_cast
      ring
    rw [hproduct] at h ⊢
    refine lands_pack hB (s * s') (Nat.mul_pos hm hm')
      (exponent_mul_le hm hm' (canonical_of_unpack hu) (canonical_of_unpack hv)) ?_
    exact (abs_apply_scaled (s * s') (m * m') (e + e')).symm.le.trans h

/-- A float brought down to a smaller exponent, as sums need it. -/
theorem aligned_scaled (s : Sign) (m : Nat) {e t : Int} (ht : t ≤ e) :
    ((s.apply (decreaseExponent m e t).1 : Int) : ℚ) * 2 ^ t = ((s.apply m : Int) : ℚ) * 2 ^ e := by
  have hexponent : t = e - (e - t).toNat := by omega
  rw [← apply_shiftLeft_scaled s m e (e - t).toNat, ← hexponent]
  rfl

theorem lands_add (hB : 2 ^ (-1022 : Int) ≤ B) (hx : floatValue? x = some p)
    (hy : floatValue? y = some q) (h : |p + q| ≤ B) : Lands B (p + q) (x + y).toModel := by
  show Lands B _ (Float.Model.pack
    (UnpackedFloat.add Format.binary64 x.toModel.unpack y.toModel.unpack))
  obtain ⟨s, hu, rfl⟩ | ⟨s, m, e, hm, hu, rfl⟩ := floatValue?_shape hx <;>
    obtain ⟨s', hv, rfl⟩ | ⟨s', m', e', hm', hv, rfl⟩ := floatValue?_shape hy <;>
    rw [hu, hv]
  · show Lands B (0 + 0) (Float.Model.pack (if s == s' then .zero s else .zero .positive))
    rw [zero_add]
    split <;> exact lands_zero hB _
  · rw [zero_add]
    exact lands_finite hB s' hm' (canonical_of_unpack hv)
  · rw [add_zero]
    exact lands_finite hB s hm (canonical_of_unpack hu)
  · rw [← aligned_scaled s m (min_le_left e e'), ← aligned_scaled s' m' (min_le_right e e'),
      ← add_mul, ← Int.cast_add] at h ⊢
    exact lands_normalize hB _ _ h

theorem lands_sub (hB : 2 ^ (-1022 : Int) ≤ B) (hx : floatValue? x = some p)
    (hy : floatValue? y = some q) (h : |p - q| ≤ B) : Lands B (p - q) (x - y).toModel := by
  show Lands B _ (Float.Model.pack
    (UnpackedFloat.sub Format.binary64 x.toModel.unpack y.toModel.unpack))
  obtain ⟨s, hu, rfl⟩ | ⟨s, m, e, hm, hu, rfl⟩ := floatValue?_shape hx <;>
    obtain ⟨s', hv, rfl⟩ | ⟨s', m', e', hm', hv, rfl⟩ := floatValue?_shape hy <;>
    rw [hu, hv]
  · show Lands B (0 - 0) (Float.Model.pack (if s == -s' then .zero s else .zero .positive))
    rw [sub_zero]
    split <;> exact lands_zero hB _
  · have hneg : (0 : ℚ) - ((s'.apply m' : Int) : ℚ) * 2 ^ e'
        = (((-s').apply m' : Int) : ℚ) * 2 ^ e' := by
      cases s' with
      | positive => simp [Sign.apply]
      | negative => simp [Sign.apply]
    rw [hneg]
    exact lands_finite hB (-s') hm' (canonical_of_unpack hv)
  · rw [sub_zero]
    exact lands_finite hB s hm (canonical_of_unpack hu)
  · rw [← aligned_scaled s m (min_le_left e e'), ← aligned_scaled s' m' (min_le_right e e'),
      ← sub_mul, ← Int.cast_sub] at h ⊢
    exact lands_normalize hB _ _ h

/-- The exponent from which a quotient has enough bits. -/
def quotientExponent (m m' : Nat) (e e' : Int) : Int :=
  min (e - e') (max ((m.log2 + e) - (m'.log2 + e') - 53) (-1074))

theorem divCore_eq (m m' : Nat) (e e' : Int) :
    divCore Format.binary64 m e m' e' =
      let t := quotientExponent m m' e e'
      let shifted := m <<< (e - e' - t).toNat
      (shifted / m', t, accuracyOfFraction (shifted % m') m') := by
  have ht : min (e - e') (Format.binary64.targetExponent (totalExponent m e - totalExponent m' e'))
      = quotientExponent m m' e e' := by
    rw [targetExponent_binary64, totalExponent, totalExponent, quotientExponent]
    omega
  rw [divCore, ht]

theorem exponent_quotient_le {m m' : Nat} (e e' : Int) (hm : 0 < m) (hm' : 0 < m') :
    let t := quotientExponent m m' e e'
    t ≤ ulpExponent (m <<< (e - e' - t).toNat / m') t := by
  intro t
  by_cases hleast : t ≤ -1074
  · exact hleast.trans (least_le_ulpExponent _ _)
  have ht : t ≤ (m.log2 + e) - (m'.log2 + e') - 53 ∧ t ≤ e - e' := by
    unfold t quotientExponent at hleast ⊢
    omega
  generalize hk : (e - e' - t).toNat = k
  have hbits : 53 + m'.log2 ≤ (m <<< k).log2 := by
    rw [log2_shiftLeft hm]
    omega
  have hpos : m <<< k ≠ 0 := by
    rw [Nat.shiftLeft_eq]
    positivity
  have hquotient : 2 ^ 52 ≤ m <<< k / m' := by
    rw [Nat.le_div_iff_mul_le hm']
    calc 2 ^ 52 * m' ≤ 2 ^ 52 * 2 ^ (m'.log2 + 1) := Nat.mul_le_mul_left _ Nat.lt_log2_self.le
      _ = 2 ^ (53 + m'.log2) := by rw [← Nat.pow_add]; congr 1; omega
      _ ≤ 2 ^ (m <<< k).log2 := Nat.pow_le_pow_right (by decide) hbits
      _ ≤ m <<< k := Nat.log2_self_le hpos
  have hlog : 52 ≤ (m <<< k / m').log2 := (Nat.le_log2 (by omega)).mpr hquotient
  unfold ulpExponent
  omega

theorem quotient_scaled (m m' : Nat) {e e' t : Int} (ht : t ≤ e - e') :
    ((m <<< (e - e' - t).toNat : Nat) : ℚ) / m' * 2 ^ t = m * 2 ^ e / (m' * 2 ^ e') := by
  have hshift := shiftLeft_scaled m (e - e') (e - e' - t).toNat
  have hexponent : e - e' - (e - e' - t).toNat = t := by omega
  rw [hexponent, zpow_sub₀ (by norm_num)] at hshift
  rw [div_mul_eq_mul_div, hshift]
  ring

theorem lands_div (hB : 2 ^ (-1022 : Int) ≤ B) (hx : floatValue? x = some p)
    (hy : floatValue? y = some q) (hp : 0 ≤ p) (hq : 0 < q) (h : p / q ≤ B) :
    Lands B (p / q) (x / y).toModel := by
  show Lands B _ (Float.Model.pack
    (UnpackedFloat.div Format.binary64 x.toModel.unpack y.toModel.unpack))
  obtain ⟨s', hv, rfl⟩ | ⟨m', e', hm', hv, rfl⟩ | ⟨m', e', hm', hv, rfl⟩ := floatValue?_cases hy
  · exact absurd hq (lt_irrefl _)
  · obtain ⟨s, hu, rfl⟩ | ⟨m, e, hm, hu, rfl⟩ | ⟨m, e, hm, hu, rfl⟩ := floatValue?_cases hx
    · rw [hu, hv, zero_div]
      exact lands_zero hB _
    · rw [hu, hv]
      show Lands B _ (Float.Model.pack (roundWithAccuracy Format.binary64 .positive
        (divCore Format.binary64 m e m' e').1 (divCore Format.binary64 m e m' e').2.1
        (divCore Format.binary64 m e m' e').2.2))
      rw [divCore_eq]
      have hexponent := exponent_quotient_le e e' hm hm'
      have ht : quotientExponent m m' e e' ≤ e - e' := min_le_left _ _
      dsimp only at hexponent ⊢
      rw [← quotient_scaled m m' ht] at h ⊢
      have hpos : (0 : ℚ) < m' := by exact_mod_cast hm'
      refine lands_pack_between hB _ hexponent ?_ ?_ h
      · exact Nat.cast_div_le
      · rw [div_lt_iff₀ hpos]
        exact_mod_cast Nat.lt_mul_of_div_lt (Nat.lt_succ_self _) hm'
    · have := scaled_pos e hm
      linarith
  · have := scaled_pos e' hm'
    linarith

/-- What is not negative stays so, and gains one unit of the last place of `B` at most. -/
theorem Rounds.upper {x : ℚ} {z : Float} (h : Rounds B x z.toModel) (hnonneg : 0 ≤ x) :
    ∃ r, floatValue? z = some r ∧ 0 ≤ r ∧ r ≤ x + B / 2 ^ 52 := by
  obtain ⟨r, hr, herror, hsign⟩ := h
  exact ⟨r, hr, hsign hnonneg, by linarith [(abs_le.mp herror).2]⟩

theorem least_le_of_one_le (hB : 1 ≤ B) : 2 ^ (-1022 : Int) ≤ B :=
  (zpow_le_one_of_nonpos₀ (by norm_num) (by norm_num)).trans hB

theorem value_mul_le (hB : 1 ≤ B) (hfits : B ≤ 2 ^ 200) (hx : floatValue? x = some p)
    (hy : floatValue? y = some q) (hp : 0 ≤ p) (hq : 0 ≤ q) (h : p * q ≤ B) :
    ∃ r, floatValue? (x * y) = some r ∧ 0 ≤ r ∧ r ≤ p * q + B / 2 ^ 52 := by
  have hnonneg := mul_nonneg hp hq
  have hlands := lands_mul (least_le_of_one_le hB) hx hy (by rwa [abs_of_nonneg hnonneg])
  exact (hlands.rounds hfits).upper hnonneg

theorem value_add_le (hB : 1 ≤ B) (hfits : B ≤ 2 ^ 200) (hx : floatValue? x = some p)
    (hy : floatValue? y = some q) (hp : 0 ≤ p) (hq : 0 ≤ q) (h : p + q ≤ B) :
    ∃ r, floatValue? (x + y) = some r ∧ 0 ≤ r ∧ r ≤ p + q + B / 2 ^ 52 := by
  have hnonneg := add_nonneg hp hq
  have hlands := lands_add (least_le_of_one_le hB) hx hy (by rwa [abs_of_nonneg hnonneg])
  exact (hlands.rounds hfits).upper hnonneg

theorem value_sub_le (hB : 1 ≤ B) (hfits : B ≤ 2 ^ 200) (hx : floatValue? x = some p)
    (hy : floatValue? y = some q) (hpq : q ≤ p) (h : p - q ≤ B) :
    ∃ r, floatValue? (x - y) = some r ∧ 0 ≤ r ∧ r ≤ p - q + B / 2 ^ 52 := by
  have hnonneg := sub_nonneg.mpr hpq
  have hlands := lands_sub (least_le_of_one_le hB) hx hy (by rwa [abs_of_nonneg hnonneg])
  exact (hlands.rounds hfits).upper hnonneg

end Arithmetic

end Hostility
