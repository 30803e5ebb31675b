import Hostility.Number.Rounding
import Mathlib.Data.Rat.Cast.Order
import Mathlib.Tactic.Ring

/-!
What a float stands for. A finite float is a sign, a mantissa and a power of two, in the one form
that the 64 bits can hold; packing keeps that form, and the order of floats is the order of the
rational numbers they stand for.
-/
namespace Hostility

open Float.Model (UnpackedFloat Format)
open Float.Model.UnpackedFloat (Sign)

/-- The rational number that an unpacked float stands for, if it is finite. -/
def unpackedValue? : UnpackedFloat → Option ℚ
  | .notANumber | .infinity _ => none
  | .zero _ => some 0
  | .finite s m e _ => some (s.apply m * 2 ^ e)

theorem unpackedValue?_zero (s : Sign) : unpackedValue? (.zero s) = some 0 := rfl

theorem unpackedValue?_finite (s : Sign) {m : Nat} {e : Int} (hm : 0 < m) :
    unpackedValue? (.finite s m e hm) = some (((s.apply m : Int) : ℚ) * 2 ^ e) := rfl

def floatValue? (x : Float) : Option ℚ := unpackedValue? x.toModel.unpack

/-- A float that stands for a number is a zero or a signed mantissa times a power of two. -/
theorem floatValue?_shape {x : Float} {p : ℚ} (h : floatValue? x = some p) :
    (∃ s, x.toModel.unpack = .zero s ∧ p = 0) ∨
    (∃ s m e hm, x.toModel.unpack = .finite s m e hm ∧ p = ((s.apply m : Int) : ℚ) * 2 ^ e) := by
  unfold floatValue? at h
  generalize x.toModel.unpack = u at h ⊢
  cases u with
  | notANumber => cases h
  | infinity s => cases h
  | zero s => exact .inl ⟨s, rfl, (Option.some.inj h).symm⟩
  | finite s m e hm => exact .inr ⟨s, m, e, hm, rfl, (Option.some.inj h).symm⟩

theorem floatValue?_cases {x : Float} {p : ℚ} (h : floatValue? x = some p) :
    (∃ s, x.toModel.unpack = .zero s ∧ p = 0) ∨
    (∃ m e hm, x.toModel.unpack = .finite .positive m e hm ∧ p = m * 2 ^ e) ∨
    (∃ m e hm, x.toModel.unpack = .finite .negative m e hm ∧ p = -(m * 2 ^ e)) := by
  obtain hzero | ⟨s, m, e, hm, hu, rfl⟩ := floatValue?_shape h
  · exact .inl hzero
  · cases s with
    | positive => exact .inr (.inl ⟨m, e, hm, hu, by simp [Sign.apply]⟩)
    | negative => exact .inr (.inr ⟨m, e, hm, hu, by simp [Sign.apply]⟩)

/-- A mantissa and an exponent as a double holds them: the mantissa fills its 53 bits unless the
exponent is the least one. -/
structure IsCanonical (m : Nat) (e : Int) : Prop where
  lt : m < 2 ^ 53
  least : -1074 ≤ e
  greatest : e ≤ 971
  full : 2 ^ 52 ≤ m ∨ e = -1074

section Packing

open Float.Model.UnpackedFloat

theorem toNat_implicit_append (m : BitVec 52) : (1#1 ++ m).toNat = 2 ^ 52 + m.toNat := by
  rw [BitVec.toNat_append, ← Nat.shiftLeft_add_eq_or_of_lt m.isLt]
  rfl

/-- An exponent field that is neither the least nor the greatest has its biased value. -/
theorem exponentField_of_lt {b : Nat} (hpos : 0 < b) (hlt : b < 2047) :
    (BitVec.ofNat 11 b).toNat = b ∧ BitVec.ofNat 11 b ≠ 0#11 ∧ BitVec.ofNat 11 b ≠ -1#11 := by
  have hvalue : (BitVec.ofNat 11 b).toNat = b := by
    rw [BitVec.toNat_ofNat]
    omega
  refine ⟨hvalue, fun h => ?_, fun h => ?_⟩
  · rw [h] at hvalue
    exact absurd hvalue (by simp; omega)
  · rw [h] at hvalue
    exact absurd hvalue (by simp; omega)

theorem sign_packComponents (s : Sign) (exponent : BitVec 11) (mantissa : BitVec 52) :
    Sign.ofBitVec (unpackSign (packComponents Format.binary64 s exponent mantissa)) = s := by
  unfold unpackSign packComponents BitVec.extractLsb
  rw [BitVec.extractLsb'_append_eq_of_le (by decide),
    BitVec.extractLsb'_append_eq_of_le (by decide)]
  cases s <;> rfl

/-- What the three fields of a double stand for. -/
def unpackedOfFields (s : Sign) (exponent : BitVec 11) (mantissa : BitVec 52) : UnpackedFloat :=
  if exponent = -1#11 then
    if mantissa = 0#52 then .infinity s else .notANumber
  else if exponent = 0#11 then
    if h : mantissa = 0#52 then .zero s
    else .finite s mantissa.toNat (exponent.toNat - ((1023 : Nat) + (52 : Nat)) + 1)
      (Nat.pos_of_ne_zero fun hzero => h (BitVec.eq_of_toNat_eq hzero))
  else .finite s (1#1 ++ mantissa).toNat (exponent.toNat - ((1023 : Nat) + (52 : Nat)))
    (by rw [toNat_implicit_append]; omega)

theorem unpack_eq (bits : BitVec 64) :
    unpack Format.binary64 bits = unpackedOfFields
      (Sign.ofBitVec (@unpackSign Format.binary64 bits))
      (@unpackExponent Format.binary64 bits) (@unpackMantissa Format.binary64 bits) := rfl

theorem unpack_packComponents (s : Sign) (exponent : BitVec 11) (mantissa : BitVec 52) :
    unpack Format.binary64 (packComponents Format.binary64 s exponent mantissa)
      = unpackedOfFields s exponent mantissa := by
  rw [unpack_eq, sign_packComponents, unpackExponent_packComponents, unpackMantissa_packComponents]

theorem pack_finite (s : Sign) {m : Nat} {e : Int} (hm : 0 < m) :
    pack Format.binary64 (.finite s m e hm) =
      if 2 ^ 11 ≤ (e + (1023 : Nat) + (52 : Nat)).toNat + 1 then packedInfinity Format.binary64 s
      else if m.log2 + 1 = 53 then packComponents Format.binary64 s
        (BitVec.ofNat 11 (e + (1023 : Nat) + (52 : Nat)).toNat) (BitVec.ofNat 52 m)
      else packComponents Format.binary64 s 0#11 (BitVec.ofNat 52 m) := rfl

theorem unpack_pack_normal (s : Sign) {m : Nat} {e : Int} (hm : 0 < m) (hfull : 2 ^ 52 ≤ m)
    (hlt : m < 2 ^ 53) (hleast : -1074 ≤ e) (hgreatest : e ≤ 971) :
    (Float.Model.pack (.finite s m e hm)).unpack = .finite s m e hm := by
  have hlog : m.log2 = 52 := (Nat.log2_eq_iff (by omega)).mpr ⟨hfull, hlt⟩
  obtain ⟨b, hb⟩ : ∃ b : Nat, (e + (1023 : Nat) + (52 : Nat)).toNat = b := ⟨_, rfl⟩
  obtain ⟨hvalue, hnonzero, hfinite⟩ := exponentField_of_lt (b := b) (by omega) (by omega)
  have hmantissa : (1#1 ++ BitVec.ofNat 52 m).toNat = m := by
    rw [toNat_implicit_append, BitVec.toNat_ofNat]
    omega
  show unpack Format.binary64 (pack Format.binary64 (.finite s m e hm)) = _
  rw [pack_finite, hb, if_neg (by omega), if_pos (by omega), unpack_packComponents,
    unpackedOfFields, if_neg hfinite, if_neg hnonzero, UnpackedFloat.finite.injEq]
  exact ⟨rfl, hmantissa, by omega⟩

theorem unpack_pack_subnormal (s : Sign) {m : Nat} (hm : 0 < m) (hlt : m < 2 ^ 52) :
    (Float.Model.pack (.finite s m (-1074) hm)).unpack = .finite s m (-1074) hm := by
  have hlog : m.log2 < 52 := (Nat.log2_lt (by omega)).mpr hlt
  have hmantissa : (BitVec.ofNat 52 m).toNat = m := by
    rw [BitVec.toNat_ofNat]
    omega
  have hnonzero : BitVec.ofNat 52 m ≠ 0#52 := fun h => by
    rw [h] at hmantissa
    exact absurd hmantissa (by simp; omega)
  show unpack Format.binary64 (pack Format.binary64 (.finite s m (-1074) hm)) = _
  rw [pack_finite, if_neg (by decide), if_neg (by omega), unpack_packComponents, unpackedOfFields,
    if_neg (by decide), if_pos rfl, dif_neg hnonzero, UnpackedFloat.finite.injEq]
  exact ⟨rfl, hmantissa, rfl⟩

theorem unpack_pack_finite (s : Sign) {m : Nat} {e : Int} (hm : 0 < m) (h : IsCanonical m e) :
    (Float.Model.pack (.finite s m e hm)).unpack = .finite s m e hm := by
  by_cases hfull : 2 ^ 52 ≤ m
  · exact unpack_pack_normal s hm hfull h.lt h.least h.greatest
  · obtain rfl := h.full.resolve_left hfull
    exact unpack_pack_subnormal s hm (by omega)

theorem unpack_pack_zero (s : Sign) : (Float.Model.pack (.zero s)).unpack = .zero s := by
  cases s <;> rfl

theorem unpack_pack_infinity (s : Sign) :
    (Float.Model.pack (.infinity s)).unpack = .infinity s := by
  cases s <;> rfl

/-- A number with a greater exponent than a double can have becomes an infinity. -/
theorem unpack_pack_overflow (s : Sign) {m : Nat} {e : Int} (hm : 0 < m) (h : 971 < e) :
    (Float.Model.pack (.finite s m e hm)).unpack = .infinity s := by
  show unpack Format.binary64 (pack Format.binary64 (.finite s m e hm)) = _
  rw [pack_finite, if_pos (by omega)]
  exact unpack_pack_infinity s

/-- Fields stand for a float of their sign, if for a number, then for a canonical one. -/
theorem unpackedOfFields_cases (s : Sign) (exponent : BitVec 11) (mantissa : BitVec 52) :
    unpackedOfFields s exponent mantissa = .notANumber ∨
    unpackedOfFields s exponent mantissa = .infinity s ∨
    unpackedOfFields s exponent mantissa = .zero s ∨
    ∃ m e hm, unpackedOfFields s exponent mantissa = .finite s m e hm ∧ IsCanonical m e := by
  have hmantissa := mantissa.isLt
  have hexponent := exponent.isLt
  unfold unpackedOfFields
  by_cases hgreatest : exponent = -1#11
  · rw [if_pos hgreatest]
    by_cases hzero : mantissa = 0#52
    · exact .inr (.inl (if_pos hzero))
    · exact .inl (if_neg hzero)
  rw [if_neg hgreatest]
  by_cases hleast : exponent = 0#11
  · rw [if_pos hleast]
    by_cases hzero : mantissa = 0#52
    · exact .inr (.inr (.inl (dif_pos hzero)))
    · subst hleast
      exact .inr (.inr (.inr ⟨_, _, _, dif_neg hzero,
        by omega, by decide, by decide, .inr (by decide)⟩))
  · have hpos : exponent.toNat ≠ 0 := fun h => hleast (BitVec.eq_of_toNat_eq h)
    have hnot : exponent.toNat ≠ 2047 := fun h => hgreatest (BitVec.eq_of_toNat_eq h)
    have hvalue := toNat_implicit_append mantissa
    exact .inr (.inr (.inr ⟨_, _, _, if_neg hleast,
      by omega, by omega, by omega, .inl (by omega)⟩))

/-- What a float unpacks to is canonical. -/
theorem canonical_of_unpack {x : Float.Model} {s : Sign} {m : Nat} {e : Int} {hm : 0 < m}
    (h : x.unpack = .finite s m e hm) : IsCanonical m e := by
  unfold Float.Model.unpack at h
  rw [unpack_eq] at h
  obtain hfields | hfields | hfields | ⟨m', e', hm', hfields, hcanonical⟩ :=
    unpackedOfFields_cases (Sign.ofBitVec (@unpackSign Format.binary64 x.toBits.toBitVec))
      (@unpackExponent Format.binary64 x.toBits.toBitVec)
      (@unpackMantissa Format.binary64 x.toBits.toBitVec) <;>
    rw [hfields] at h <;> cases h
  exact hcanonical

end Packing

section Order

theorem two_zpow_pos (e : Int) : (0 : ℚ) < 2 ^ e := zpow_pos (by norm_num) e

theorem scaled_pos {m : Nat} (e : Int) (hm : 0 < m) : (0 : ℚ) < m * 2 ^ e :=
  mul_pos (by exact_mod_cast hm) (two_zpow_pos e)

/-- The exponent decides first: only the least exponent leaves bits of the mantissa free. -/
theorem scaled_lt_of_exponent_lt {m m' : Nat} {e e' : Int} (h : IsCanonical m e)
    (h' : IsCanonical m' e') (hlt : e < e') : (m : ℚ) * 2 ^ e < m' * 2 ^ e' := by
  have hm : (m : ℚ) < 2 ^ 53 := by exact_mod_cast h.lt
  have hm' : (2 ^ 52 : ℚ) ≤ m' := by
    have := h.least
    exact_mod_cast h'.full.resolve_right (by omega)
  calc (m : ℚ) * 2 ^ e < 2 ^ 53 * 2 ^ e := mul_lt_mul_of_pos_right hm (two_zpow_pos e)
    _ = 2 ^ 52 * 2 ^ (e + 1) := by rw [zpow_add_one₀ (by norm_num)]; ring
    _ ≤ m' * 2 ^ e' := mul_le_mul hm' (zpow_le_zpow_right₀ (by norm_num) hlt)
        (two_zpow_pos _).le (by positivity)

theorem compare_scaled {m m' : Nat} {e e' : Int} (h : IsCanonical m e) (h' : IsCanonical m' e') :
    (compare e e').then (compare m m') = compare ((m : ℚ) * 2 ^ e) (m' * 2 ^ e') := by
  rcases lt_trichotomy e e' with hlt | rfl | hgt
  · rw [compare_lt_iff_lt.mpr hlt, compare_lt_iff_lt.mpr (scaled_lt_of_exponent_lt h h' hlt)]
    rfl
  · rw [compare_eq_iff_eq.mpr rfl, Ordering.eq_then]
    rcases lt_trichotomy m m' with hlt | rfl | hgt
    · have hscaled : (m : ℚ) * 2 ^ e < m' * 2 ^ e :=
        mul_lt_mul_of_pos_right (by exact_mod_cast hlt) (two_zpow_pos e)
      rw [compare_lt_iff_lt.mpr hlt, compare_lt_iff_lt.mpr hscaled]
    · rw [compare_eq_iff_eq.mpr rfl, compare_eq_iff_eq.mpr rfl]
    · have hscaled : (m' : ℚ) * 2 ^ e < m * 2 ^ e :=
        mul_lt_mul_of_pos_right (by exact_mod_cast hgt) (two_zpow_pos e)
      rw [compare_gt_iff_gt.mpr hgt, compare_gt_iff_gt.mpr hscaled]
  · rw [compare_gt_iff_gt.mpr hgt, compare_gt_iff_gt.mpr (scaled_lt_of_exponent_lt h' h hgt)]
    rfl

theorem compare_neg_neg (p q : ℚ) : compare (-p) (-q) = (compare p q).swap := by
  rcases lt_trichotomy p q with hlt | rfl | hgt
  · rw [compare_lt_iff_lt.mpr hlt, compare_gt_iff_gt.mpr (neg_lt_neg hlt)]
    rfl
  · rw [compare_eq_iff_eq.mpr rfl, compare_eq_iff_eq.mpr rfl]
    rfl
  · rw [compare_gt_iff_gt.mpr hgt, compare_lt_iff_lt.mpr (neg_lt_neg hgt)]
    rfl

/-- Floats compare as the numbers they stand for. -/
theorem compare_unpack {x y : Float} {p q : ℚ} (hx : floatValue? x = some p)
    (hy : floatValue? y = some q) :
    UnpackedFloat.compare x.toModel.unpack y.toModel.unpack = some (compare p q) := by
  obtain ⟨s, hu, rfl⟩ | ⟨m, e, hm, hu, rfl⟩ | ⟨m, e, hm, hu, rfl⟩ := floatValue?_cases hx <;>
    obtain ⟨s', hv, rfl⟩ | ⟨m', e', hm', hv, rfl⟩ | ⟨m', e', hm', hv, rfl⟩ :=
      floatValue?_cases hy <;>
    rw [hu, hv]
  · rw [compare_eq_iff_eq.mpr rfl]
    rfl
  · rw [compare_lt_iff_lt.mpr (scaled_pos e' hm')]
    rfl
  · rw [compare_gt_iff_gt.mpr (neg_neg_of_pos (scaled_pos e' hm'))]
    rfl
  · rw [compare_gt_iff_gt.mpr (scaled_pos e hm)]
    rfl
  · rw [← compare_scaled (canonical_of_unpack hu) (canonical_of_unpack hv)]
    rfl
  · have hneg := (neg_neg_of_pos (scaled_pos e' hm')).trans (scaled_pos e hm)
    rw [compare_gt_iff_gt.mpr hneg]
    rfl
  · rw [compare_lt_iff_lt.mpr (neg_neg_of_pos (scaled_pos e hm))]
    rfl
  · have hneg := (neg_neg_of_pos (scaled_pos e hm)).trans (scaled_pos e' hm')
    rw [compare_lt_iff_lt.mpr hneg]
    rfl
  · rw [compare_neg_neg, ← compare_scaled (canonical_of_unpack hu) (canonical_of_unpack hv)]
    rfl

theorem lt_iff_unpack (x y : Float) :
    x < y ↔ UnpackedFloat.lt x.toModel.unpack y.toModel.unpack = true := decide_eq_true_iff

theorem le_iff_unpack (x y : Float) :
    x ≤ y ↔ UnpackedFloat.le x.toModel.unpack y.toModel.unpack = true := decide_eq_true_iff

theorem float_lt_iff {x y : Float} {p q : ℚ} (hx : floatValue? x = some p)
    (hy : floatValue? y = some q) : x < y ↔ p < q := by
  rw [lt_iff_unpack, UnpackedFloat.lt, compare_unpack hx hy, ← compare_lt_iff_lt]
  simp

theorem float_le_iff {x y : Float} {p q : ℚ} (hx : floatValue? x = some p)
    (hy : floatValue? y = some q) : x ≤ y ↔ p ≤ q := by
  rw [le_iff_unpack, UnpackedFloat.le, compare_unpack hx hy, ← compare_le_iff_le]
  cases compare p q <;> simp

theorem compare_sign_swap (s s' : Sign) : compare s' s = (compare s s').swap := by
  cases s <;> cases s' <;> rfl

theorem compare_unpacked_swap (u v : UnpackedFloat) :
    UnpackedFloat.compare v u = (UnpackedFloat.compare u v).map Ordering.swap := by
  cases u with
  | notANumber => cases v <;> rfl
  | infinity s =>
    cases v with
    | infinity s' => exact congrArg some (compare_sign_swap s s')
    | _ => cases s <;> rfl
  | zero s =>
    cases v with
    | infinity s' => cases s' <;> rfl
    | finite s' m' e' hm' => cases s' <;> rfl
    | _ => rfl
  | finite s m e hm =>
    cases v with
    | finite s' m' e' hm' =>
      have hswap : (compare e' e).then (compare m' m)
          = ((compare e e').then (compare m m')).swap := by
        rw [Ordering.swap_then, ← Std.OrientedOrd.eq_swap, ← Std.OrientedOrd.eq_swap]
      cases s <;> cases s'
      · exact congrArg some (congrArg Ordering.swap hswap)
      · rfl
      · rfl
      · exact congrArg some hswap
    | infinity s' => cases s <;> cases s' <;> rfl
    | _ => cases s <;> rfl

/-- Only what is not a number has no place in the order. -/
theorem compare_unpacked_eq_none {u v : UnpackedFloat} :
    UnpackedFloat.compare u v = none ↔ u.isNaN = true ∨ v.isNaN = true := by
  constructor
  · intro h
    cases u with
    | notANumber => exact .inl rfl
    | infinity s =>
      cases v with
      | notANumber => exact .inr rfl
      | infinity s' => cases h
      | _ => cases s <;> cases h
    | zero s =>
      cases v with
      | notANumber => exact .inr rfl
      | zero s' => cases h
      | _ s' => cases s' <;> cases h
    | finite s m e hm =>
      cases v with
      | notANumber => exact .inr rfl
      | zero s' => cases s <;> cases h
      | _ s' => cases s <;> cases s' <;> cases h
  · rintro (h | h)
    · cases u with
      | notANumber => cases v <;> rfl
      | _ => cases h
    · cases v with
      | notANumber => cases u <;> rfl
      | _ => cases h

/-- Numbers and infinities are ordered one way or the other. -/
theorem not_float_le {x y : Float} : ¬x ≤ y ↔ y < x ∨ x.isNaN = true ∨ y.isNaN = true := by
  rw [le_iff_unpack, lt_iff_unpack, UnpackedFloat.le, UnpackedFloat.lt,
    compare_unpacked_swap x.toModel.unpack]
  show _ ↔ _ ∨ x.toModel.unpack.isNaN = true ∨ y.toModel.unpack.isNaN = true
  rw [← compare_unpacked_eq_none]
  cases UnpackedFloat.compare x.toModel.unpack y.toModel.unpack with
  | none => simp
  | some o => cases o <;> simp

theorem not_float_lt {x y : Float} : ¬x < y ↔ y ≤ x ∨ x.isNaN = true ∨ y.isNaN = true := by
  rw [le_iff_unpack, lt_iff_unpack, UnpackedFloat.le, UnpackedFloat.lt,
    compare_unpacked_swap x.toModel.unpack]
  show _ ↔ _ ∨ x.toModel.unpack.isNaN = true ∨ y.toModel.unpack.isNaN = true
  rw [← compare_unpacked_eq_none]
  cases UnpackedFloat.compare x.toModel.unpack y.toModel.unpack with
  | none => simp
  | some o => cases o <;> simp

/-- What lies between two numbers is a number. -/
theorem floatValue?_of_between {x y z : Float} {p q : ℚ} (hx : floatValue? x = some p)
    (hz : floatValue? z = some q) (hxy : x ≤ y) (hyz : y ≤ z) :
    ∃ r, floatValue? y = some r ∧ p ≤ r ∧ r ≤ q := by
  have hfinite : ∃ r, floatValue? y = some r := by
    rw [le_iff_unpack] at hxy hyz
    unfold floatValue?
    cases hv : y.toModel.unpack with
    | notANumber =>
      rw [hv] at hyz
      cases hyz
    | infinity s =>
      rw [hv] at hxy hyz
      cases s with
      | positive =>
        obtain ⟨s, hw, -⟩ | ⟨m, e, hm, hw, -⟩ | ⟨m, e, hm, hw, -⟩ := floatValue?_cases hz <;>
          rw [hw] at hyz <;> cases hyz
      | negative =>
        obtain ⟨s, hu, -⟩ | ⟨m, e, hm, hu, -⟩ | ⟨m, e, hm, hu, -⟩ := floatValue?_cases hx <;>
          rw [hu] at hxy <;> cases hxy
    | zero s => exact ⟨_, rfl⟩
    | finite s m e hm => exact ⟨_, rfl⟩
  obtain ⟨r, hy⟩ := hfinite
  exact ⟨r, hy, (float_le_iff hx hy).mp hxy, (float_le_iff hy hz).mp hyz⟩

theorem isNaN_eq_false {x : Float} {p : ℚ} (hx : floatValue? x = some p) : x.isNaN = false := by
  show x.toModel.unpack.isNaN = false
  obtain ⟨s, hu, -⟩ | ⟨s, m, e, hm, hu, -⟩ := floatValue?_shape hx <;> rw [hu] <;> rfl

theorem isFinite_iff_value {x : Float} : x.isFinite = true ↔ ∃ v, floatValue? x = some v := by
  show x.toModel.unpack.isFinite = true ↔ ∃ v, unpackedValue? x.toModel.unpack = some v
  cases x.toModel.unpack with
  | notANumber => exact ⟨nofun, nofun⟩
  | infinity s => exact ⟨nofun, nofun⟩
  | zero s => exact ⟨fun _ => ⟨_, rfl⟩, fun _ => rfl⟩
  | finite s m e hm => exact ⟨fun _ => ⟨_, rfl⟩, fun _ => rfl⟩

theorem floatValue?_of_infinity {x : Float} {s : Sign} (hx : x.toModel.unpack = .infinity s) :
    floatValue? x = none := by
  rw [floatValue?, hx]
  rfl

/-- Nothing is above infinity. -/
theorem not_lt_of_infinity {x y : Float} (hx : x.toModel.unpack = .infinity .positive) :
    ¬x < y := by
  rw [lt_iff_unpack, UnpackedFloat.lt, hx]
  cases y.toModel.unpack with
  | infinity s => cases s <;> exact Bool.false_ne_true
  | _ => exact Bool.false_ne_true

theorem floatValue?_zero : floatValue? 0.0 = some 0 := by decide +kernel

theorem floatValue?_one : floatValue? 1.0 = some 1 := by decide +kernel

end Order

end Hostility
