import Hostility.Proofs.FloatExact

/-!
A float added to itself again and again. Each addition is moved by one unit in the last place at
most, so some millions of them come near the product; only zeros and ones are added without any
error.
-/
namespace Hostility

open Float.Model (UnpackedFloat Format)
open Float.Model.UnpackedFloat

/-- So many times the same float, added one after the other. -/
def piled (w : Float) : Nat → Float
  | 0 => 0.0
  | n + 1 => piled w n + w

variable {w x y : Float} {q c : ℚ}

theorem infinity_add (hx : x.toModel.unpack = .infinity .positive) (hy : floatValue? y = some q) :
    (x + y).toModel.unpack = .infinity .positive := by
  show (Float.Model.pack
    (UnpackedFloat.add Format.binary64 x.toModel.unpack y.toModel.unpack)).unpack = _
  obtain ⟨s, hv, -⟩ | ⟨s, m, e, hm, hv, -⟩ := floatValue?_shape hy <;> rw [hx, hv] <;>
    exact unpack_pack_infinity .positive

/-- How far `n` additions may move a pile of numbers that are one at most: each by one unit in the
last place of what the pile has grown to. -/
def pileError (n : Nat) : ℚ := (n ^ 2 + 3 * n) / 2 ^ 53

theorem pileError_succ (n : Nat) : pileError (n + 1) = pileError n + (n + 2) / 2 ^ 52 := by
  unfold pileError
  push_cast
  ring

theorem pileError_nonneg (n : Nat) : 0 ≤ pileError n := by
  unfold pileError
  positivity

theorem pileError_mono {m n : Nat} (h : m ≤ n) : pileError m ≤ pileError n := by
  have hcast : (m : ℚ) ≤ n := by exact_mod_cast h
  unfold pileError
  gcongr

theorem le_of_pileError_le_one {n : Nat} (h : pileError n ≤ 1) : n ≤ 2 ^ 27 := by
  by_contra hmore
  have hlarge := pileError_mono (not_le.mp hmore).le
  norm_num [pileError] at h hlarge
  linarith

/-- A pile of numbers that are not negative stays so, or grows beyond all floats. -/
theorem piled_cases (hw : floatValue? w = some q) (hq : 0 ≤ q) (n : Nat) :
    (∃ v, floatValue? (piled w n) = some v ∧ 0 ≤ v) ∨
      (piled w n).toModel.unpack = .infinity .positive := by
  induction n with
  | zero => exact .inl ⟨0, floatValue?_zero, le_rfl⟩
  | succ n ih =>
    rcases ih with ⟨v, hv, hv0⟩ | hinfinite
    · have hsum : 0 ≤ v + q := add_nonneg hv0 hq
      have hlands := lands_add (least_le_of_one_le (by linarith : 1 ≤ v + q + 1)) hv hw
        (by rw [abs_of_nonneg hsum]; linarith)
      rcases hlands with ⟨v', hv', -, hsign⟩ | ⟨-, s, hinfinite, hs⟩
      · exact .inl ⟨v', hv', hsign hsum⟩
      · exact .inr (by rwa [hs hsum] at hinfinite)
    · exact .inr (infinity_add hinfinite hw)

/-- As long as the error is one number at most, a pile is near the product. -/
theorem piled_near (hw : floatValue? w = some q) (hq : 0 ≤ q) (hle : q ≤ c)
    (hc : 2 ^ (-1022 : Int) ≤ c) {n : Nat} (hn : pileError n ≤ 1) :
    (∃ v, floatValue? (piled w n) = some v ∧ 0 ≤ v ∧ |v - n * q| ≤ pileError n * c) ∨
    2 ^ 200 < (n + 2) * c ∧ (piled w n).toModel.unpack = .infinity .positive := by
  have hpos : 0 < c := (two_zpow_pos _).trans_le hc
  induction n with
  | zero => exact .inl ⟨0, floatValue?_zero, le_rfl, by simp [pileError]⟩
  | succ n ih =>
    have hn0 : (0 : ℚ) ≤ n := Nat.cast_nonneg n
    have hbefore : pileError n ≤ 1 := (pileError_mono (Nat.le_succ n)).trans hn
    rcases ih hbefore with ⟨v, hv, hv0, hnear⟩ | ⟨hover, hinfinite⟩
    · have hbound : v + q ≤ (n + 2) * c := by
        have hupper := (abs_le.mp hnear).2
        nlinarith
      have hleast : 2 ^ (-1022 : Int) ≤ (n + 2) * c := by nlinarith
      have hlands := lands_add hleast hv hw (by rwa [abs_of_nonneg (by positivity)])
      rcases hlands with ⟨v', hv', herror, hsign⟩ | ⟨hover, s, hinfinite, hs⟩
      · refine .inl ⟨v', hv', hsign (by positivity), ?_⟩
        have hsplit : v' - ((n + 1 : Nat) : ℚ) * q = (v' - (v + q)) + (v - n * q) := by
          push_cast
          ring
        rw [hsplit, pileError_succ, add_mul]
        calc |v' - (v + q) + (v - n * q)| ≤ |v' - (v + q)| + |v - n * q| := abs_add_le _ _
          _ ≤ (n + 2) * c / 2 ^ 52 + pileError n * c := add_le_add herror hnear
          _ = pileError n * c + (n + 2) / 2 ^ 52 * c := by ring
      · rw [hs (by positivity)] at hinfinite
        refine .inr ⟨?_, hinfinite⟩
        push_cast
        linarith
    · refine .inr ⟨?_, infinity_add hinfinite hw⟩
      push_cast
      linarith

theorem near_of_piled_value (hw : floatValue? w = some q) (hq : 0 ≤ q) (hle : q ≤ c)
    (hc : 2 ^ (-1022 : Int) ≤ c) {n : Nat} (hn : pileError n ≤ 1) {v : ℚ}
    (hv : floatValue? (piled w n) = some v) : |v - n * q| ≤ pileError n * c := by
  rcases piled_near hw hq hle hc hn with ⟨v', hv', -, hnear⟩ | ⟨-, hinfinite⟩
  · rw [hv] at hv'
    cases hv'
    exact hnear
  · rw [floatValue?_of_infinity hinfinite] at hv
    cases hv

/-- Zeros pile up to zero. -/
theorem piled_zero (hw : floatValue? w = some 0) (n : Nat) : floatValue? (piled w n) = some 0 := by
  induction n with
  | zero => exact floatValue?_zero
  | succ n ih =>
    have h := value_add_exact ih hw (.inl (add_zero 0))
    rwa [add_zero] at h

/-- Ones are counted exactly. -/
theorem piled_one (hw : floatValue? w = some 1) {n : Nat} (hn : n < 2 ^ 53) :
    floatValue? (piled w n) = some (n : ℚ) := by
  induction n with
  | zero => exact floatValue?_zero
  | succ n ih =>
    have hexact := isRepresentable_nat hn
    push_cast at hexact ⊢
    exact value_add_exact (ih (by omega)) hw hexact

end Hostility
