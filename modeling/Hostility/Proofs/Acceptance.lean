import Hostility.Config.Load
import Hostility.Proofs.FloatValue

/-!
What an accepted configuration keeps. Its constants lie in their ranges and its objectives have
thresholds. An actor's ranges are refused if they are out of bounds, and what is not a number is
never out of bounds; so an accepted actor keeps the bounds exactly if its ranges are numbers.
-/
namespace Hostility

/-- The ranges of the constants. What is not a number lies in none of them. -/
structure Tuning.KeepsBounds (t : Tuning) : Prop where
  decayFraction : 0.0 ≤ t.decayFraction ∧ t.decayFraction < 1.0
  passiveTargetPct : 0.0 ≤ t.passiveTargetPct ∧ t.passiveTargetPct < 1.0
  passivePlayerFavor : 0.0 ≤ t.passivePlayerFavor ∧ t.passivePlayerFavor < 1.0
  passiveSmoothing : 0.0 < t.passiveSmoothing ∧ t.passiveSmoothing ≤ 1.0
  aggroRangeFraction : 0.0 < t.aggroRangeFraction ∧ t.aggroRangeFraction < 1.0
  threatMinimum : 1 ≤ t.threatMinimum

/-- An actor sees something, hears no less than nothing, and chases as far as it sees. -/
structure Profile.KeepsBounds (p : Profile) : Prop where
  visual : 0.0 < p.visualRange
  aural : 0.0 ≤ p.auralRange
  chase : p.visualRange ≤ p.chaseRange

/-- Each of the bounds, unless a range that it is about is not a number. -/
structure Profile.IsWithinBounds (p : Profile) : Prop where
  visual : 0.0 < p.visualRange ∨ p.visualRange.isNaN = true
  aural : 0.0 ≤ p.auralRange ∨ p.auralRange.isNaN = true
  chase : p.visualRange ≤ p.chaseRange ∨ p.chaseRange.isNaN = true ∨ p.visualRange.isNaN = true

structure Profile.HasNumbers (p : Profile) : Prop where
  visual : p.visualRange.isNaN = false
  aural : p.auralRange.isNaN = false
  chase : p.chaseRange.isNaN = false

theorem isNaN_zero : (0.0 : Float).isNaN = false := by decide

/-- What is not a number is on neither side of a comparison. -/
theorem isNaN_of_le {x y : Float} (h : x ≤ y) : x.isNaN = false ∧ y.isNaN = false := by
  rw [← Bool.not_eq_true, ← Bool.not_eq_true]
  exact ⟨fun hx => not_float_le.mpr (.inr (.inl hx)) h,
    fun hy => not_float_le.mpr (.inr (.inr hy)) h⟩

theorem Profile.keepsBounds_iff {p : Profile} :
    p.KeepsBounds ↔ p.IsWithinBounds ∧ p.HasNumbers := by
  constructor
  · rintro ⟨hvisual, haural, hchase⟩
    exact ⟨⟨.inl hvisual, .inl haural, .inl hchase⟩,
      ⟨(isNaN_of_le hchase).1, (isNaN_of_le haural).2, (isNaN_of_le hchase).2⟩⟩
  · rintro ⟨⟨hvisual, haural, hchase⟩, ⟨hseen, hheard, hchased⟩⟩
    rw [hseen] at hvisual
    rw [hheard] at haural
    rw [hseen, hchased] at hchase
    exact ⟨by simpa using hvisual, by simpa using haural, by simpa using hchase⟩

theorem isShare_iff {x : Float} : isShare x = true ↔ 0.0 ≤ x ∧ x < 1.0 := by
  rw [isShare, Bool.and_eq_true, decide_eq_true_eq, decide_eq_true_eq]

theorem Tuning.fault?_eq_none {t : Tuning} : t.fault? = none ↔ t.KeepsBounds := by
  unfold Tuning.fault?
  constructor
  · intro h
    split_ifs at h with hdecay htarget hfavor hsmoothing hrange hfloor
    simp only [Bool.not_eq_true', Bool.not_eq_false, Bool.and_eq_true, decide_eq_true_eq,
      isShare_iff] at hdecay htarget hfavor hsmoothing hrange
    exact ⟨hdecay, htarget, hfavor, hsmoothing, hrange, Int64.not_lt.mp hfloor⟩
  · rintro ⟨hdecay, htarget, hfavor, hsmoothing, hrange, hfloor⟩
    rw [isShare_iff.mpr hdecay, isShare_iff.mpr htarget, isShare_iff.mpr hfavor,
      decide_eq_true hsmoothing.1, decide_eq_true hsmoothing.2, decide_eq_true hrange.1,
      decide_eq_true hrange.2, if_neg (Int64.not_lt.mpr hfloor)]
    rfl

theorem ActorTemplate.fault?_eq_none {a : ActorTemplate} :
    a.fault? = none ↔ a.profile.IsWithinBounds := by
  have hvisual : ¬a.profile.visualRange ≤ 0.0
      ↔ 0.0 < a.profile.visualRange ∨ a.profile.visualRange.isNaN = true := by
    simp only [not_float_le, isNaN_zero, Bool.false_eq_true, or_false]
  have haural : ¬a.profile.auralRange < 0.0
      ↔ 0.0 ≤ a.profile.auralRange ∨ a.profile.auralRange.isNaN = true := by
    simp only [not_float_lt, isNaN_zero, Bool.false_eq_true, or_false]
  unfold ActorTemplate.fault?
  dsimp only
  constructor
  · intro h
    split_ifs at h with hawareness hshort
    rw [not_or, hvisual, haural] at hawareness
    exact ⟨hawareness.1, hawareness.2, not_float_lt.mp hshort⟩
  · rintro ⟨hsees, hhears, hchases⟩
    rw [if_neg (not_or.mpr ⟨hvisual.mpr hsees, haural.mpr hhears⟩),
      if_neg (not_float_lt.mpr hchases)]

theorem CandidateTemplate.fault?_eq_none {d : CandidateTemplate} :
    d.fault? = none ↔ (d.kind = .objective → d.passiveThreshold.isSome = true) := by
  unfold CandidateTemplate.fault?
  cases d.passiveThreshold <;> simp

namespace Configuration

/-- A configuration is accepted exactly if its constants lie in their ranges, the ranges of its
actors keep the bounds as far as they are numbers, and every objective has a threshold. -/
theorem accepted_iff_within_bounds (c : Configuration) :
    (c.fault? = none ↔
      c.tuning.KeepsBounds ∧ (∀ a ∈ c.scenario.actors, a.profile.IsWithinBounds) ∧
        ∀ d ∈ c.scenario.candidates, d.kind = .objective → d.passiveThreshold.isSome = true) ∧
    (c.fault? = none →
      ∀ a ∈ c.scenario.actors, a.profile.KeepsBounds ↔ a.profile.HasNumbers) := by
  have haccepted : c.fault? = none ↔
      c.tuning.KeepsBounds ∧ (∀ a ∈ c.scenario.actors, a.profile.IsWithinBounds) ∧
        ∀ d ∈ c.scenario.candidates, d.kind = .objective → d.passiveThreshold.isSome = true := by
    rw [Configuration.fault?, Option.or_eq_none_iff, Option.or_eq_none_iff,
      List.findSome?_eq_none_iff, List.findSome?_eq_none_iff, Tuning.fault?_eq_none]
    simp only [ActorTemplate.fault?_eq_none, CandidateTemplate.fault?_eq_none]
  refine ⟨haccepted, fun h a ha => ?_⟩
  rw [Profile.keepsBounds_iff, and_iff_right ((haccepted.mp h).2.1 a ha)]

/-- A document that gives an actor something else than a number to see by. -/
def blindfold : String :=
  "\x7b\"scenario\":\x7b\"actors\":[\x7b\"name\":\"Grunt\",\"position\":[0,0,0],"
    ++ "\"profile\":\x7b\"visual_range\":.nan\x7d\x7d]\x7d\x7d"

def blindfolded : Configuration where
  scenario.actors := [{
    name := "Grunt"
    position := ⟨0.0, 0.0, 0.0⟩
    profile.visualRange := 0.0 / 0.0 }]

theorem blindfolded_is_accepted :
    ofText [] blindfold = .ok blindfolded ∧ blindfolded.fault? = none ∧
      ¬∀ a ∈ blindfolded.scenario.actors, 0.0 < a.profile.visualRange :=
  ⟨by decide +kernel, by decide +kernel, by decide +kernel⟩

end Configuration

end Hostility
