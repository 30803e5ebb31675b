/-!
Sums, differences and products of 64-bit amounts that stop at the end of the range they would
leave, so that threat never wraps from very high to very low.
-/
namespace Hostility

/-- The amount nearest to a whole number. -/
def saturate (n : Int) : Int64 := Int64.ofIntClamp n

def satAdd (a b : Int64) : Int64 := saturate (a.toInt + b.toInt)

def satSub (a b : Int64) : Int64 := saturate (a.toInt - b.toInt)

def satMul (a b : Int64) : Int64 := saturate (a.toInt * b.toInt)

/-- The sum of a list, stopping at either end of the range after every term. -/
def satSum (amounts : List Int64) : Int64 := amounts.foldl satAdd 0

theorem toInt_saturate (n : Int) :
    (saturate n).toInt = max Int64.minValue.toInt (min n Int64.maxValue.toInt) := by
  have hrange : Int64.minValue.toInt ≤ Int64.maxValue.toInt := by decide
  unfold saturate Int64.ofIntClamp
  split
  · next hlow =>
    split
    · next hhigh => rw [Int64.toInt_ofIntLE]; omega
    · next hhigh => omega
  · next hlow => omega

theorem toInt_max (a b : Int64) : (max a b).toInt = max a.toInt b.toInt := by
  show (if a ≤ b then b else a).toInt = _
  split
  · next h => rw [Int64.le_iff_toInt_le] at h; omega
  · next h => rw [Int64.le_iff_toInt_le] at h; omega

theorem toInt_min (a b : Int64) : (min a b).toInt = min a.toInt b.toInt := by
  show (if a ≤ b then a else b).toInt = _
  split
  · next h => rw [Int64.le_iff_toInt_le] at h; omega
  · next h => rw [Int64.le_iff_toInt_le] at h; omega

/-- Neither number is negative, so the difference does not wrap. -/
theorem toInt_sub_of_nonneg {a b : Int64} (ha : 0 ≤ a.toInt) (hb : 0 ≤ b.toInt) :
    (a - b).toInt = a.toInt - b.toInt := by
  have ha' := a.toInt_lt
  have hb' := b.toInt_lt
  rw [Int64.toInt_sub]
  exact Int.bmod_eq_of_le (by omega) (by omega)

instance lawfulOrderMaxInt64 : Std.LawfulOrderMax Int64 where
  max_le_iff a b c := by
    simp only [Int64.le_iff_toInt_le, toInt_max]
    omega
  max_eq_or a b := by
    show (if a ≤ b then b else a) = a ∨ (if a ≤ b then b else a) = b
    split
    · exact .inr rfl
    · exact .inl rfl

end Hostility
