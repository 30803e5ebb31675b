import Hostility.Proofs.Floor
import Hostility.Proofs.PressureBounds
import Mathlib.Data.Finset.Max

/-!
How high a bias pass may raise a passive source. The pressure of one pass is cut off at its ceiling,
but what is offered to the ledger is an average over all passes of the source. A raise is therefore
covered by the floor of the source, by the ceiling of its own pass, or by the higher ceiling of an
earlier one, and the last case occurs: when the strongest real threat is gone and decay has lowered
the source, the next pass lifts it above every candidate that is left.
-/
namespace Hostility

/-- What one actor holds against others. -/
structure Grudge where
  ledger : Ledger := .empty
  bias : PassiveBias := ∅

/-- What happens to a grudge: threat is seeded, added and lowered, and the passive sources among the
candidates of a selection are raised before it and have their streaks noted after it. -/
inductive Deed where
  | seed (e : Entity)
  | add (e : Entity) (amount : Int64)
  | decay (threshold : Entity → Option Int64)
  | select (candidates : List Candidate) (chosen : Option Entity)

namespace Grudge

variable {t : Tuning} {g : Grudge} {e : Entity} {C : Nat} {s : ℚ}

def after (t : Tuning) (g : Grudge) : Deed → Grudge
  | .seed e => { g with ledger := (g.ledger.seed e t.threatMinimum).1 }
  | .add e amount => { g with ledger := (g.ledger.add e amount t.threatMinimum).1 }
  | .decay threshold =>
    { g with ledger := (g.ledger.decay t.threatMinimum t.decayFraction threshold).1 }
  | .select candidates chosen =>
    let (_, raised, biased) := BiasPass.apply t g.ledger g.bias candidates
    ⟨raised, biased.recordSelection chosen⟩

def afterAll (t : Tuning) (g : Grudge) (deeds : List Deed) : Grudge := deeds.foldl (after t) g

/-- The strongest real threat of a selection that has `e` among its passive sources. -/
def strength? (t : Tuning) (e : Entity) (g : Grudge) : Deed → Option Int64
  | .select candidates _ =>
    if candidates.any fun c => c.isPassive && decide (c.entity = e) then
      some (BiasPass.maxActive t g.ledger candidates)
    else
      none
  | _ => none

/-- The strongest real threat of each bias pass that a passive source took part in. -/
def strengths (t : Tuning) (e : Entity) : Grudge → List Deed → List Int64
  | _, [] => []
  | g, deed :: rest => (g.strength? t e deed).toList ++ strengths t e (g.after t deed) rest

theorem after_atLeast (h : g.ledger.AtLeast t.threatMinimum) (deed : Deed) :
    (g.after t deed).ledger.AtLeast t.threatMinimum := by
  cases deed with
  | seed e => exact h.seed e
  | add e amount => exact h.add e amount
  | decay threshold => exact .decay g.ledger _ _ threshold
  | select candidates chosen => exact h.biasPass t g.bias candidates

theorem afterAll_atLeast (h : g.ledger.AtLeast t.threatMinimum) (deeds : List Deed) :
    (g.afterAll t deeds).ledger.AtLeast t.threatMinimum := by
  induction deeds generalizing g with
  | nil => exact h
  | cons deed rest ih => exact ih (after_atLeast h deed)

theorem le_maxActive {l : Ledger} (h : l.AtLeast t.threatMinimum) (candidates : List Candidate) :
    t.threatMinimum ≤ BiasPass.maxActive t l candidates := by
  unfold BiasPass.maxActive
  dsimp only
  cases hmax : ((candidates.filter fun c => !c.isPassive).filterMap
    fun c => l.value? c.entity).max? with
  | none => exact Int64.le_refl _
  | some m =>
    obtain ⟨c, -, hc⟩ := List.mem_filterMap.mp (List.max?_mem hmax)
    exact h c.entity m hc

end Grudge

namespace BiasPass

variable {t : Tuning} {m : Int64} {C : Nat} {s : ℚ} {e : Entity}

/-- The average of `e`, if there is one, rounds to `C` at most. -/
def Holds (C : Nat) (e : Entity) (b : PassiveBias) : Prop :=
  ∀ x ∈ (b.entry e).average, IsHeld C x

/-- What a pass with pressure `C` at most needs of its tuning. -/
structure Tames (t : Tuning) (C : Nat) : Prop where
  sound : t.IsSound
  positive : 1 ≤ C
  small : ∀ s, floatValue? t.passiveSmoothing = some s → (C : ℚ) ≤ 2 ^ 47 * s
  penalty : 0 ≤ t.passiveStreakPenalty.toInt

theorem toInt_le_of_small (ht : t.IsSound) (hs : floatValue? t.passiveSmoothing = some s)
    (hsmall : (m.toInt : ℚ) ≤ 2 ^ 47 * s) : m.toInt ≤ 2 ^ 47 := by
  obtain ⟨s', hs', -, hs1⟩ := ht.smoothing
  obtain rfl : s' = s := Option.some.inj (hs'.symm.trans hs)
  have hle : (m.toInt : ℚ) ≤ 2 ^ 47 := by nlinarith
  exact_mod_cast hle

/-- A tuning tames the ceiling of a strength that is small beside its smoothing. -/
theorem tames_of_small (ht : t.IsSound) (hpenalty : 0 ≤ t.passiveStreakPenalty.toInt)
    (hs : floatValue? t.passiveSmoothing = some s) (hone : 1 ≤ m.toInt)
    (hsmall : (m.toInt : ℚ) ≤ 2 ^ 47 * s) : Tames t (max 1 (ceiling t m).toInt).toNat where
  sound := ht
  positive := by omega
  small r hr := by
    obtain rfl : s = r := Option.some.inj (hs.symm.trans hr)
    have hceiling := ceiling_bounds ht (by omega) (toInt_le_of_small ht hs hsmall)
    have hle : ((max 1 (ceiling t m).toInt).toNat : Int) ≤ m.toInt := by omega
    have hle' : ((max 1 (ceiling t m).toInt).toNat : ℚ) ≤ m.toInt := by exact_mod_cast hle
    exact hle'.trans hsmall
  penalty := hpenalty

theorem le_minFloor (t : Tuning) (threshold : Int64) : t.threatMinimum ≤ minFloor t threshold := by
  have hlt := t.threatMinimum.toInt_le
  rw [Int64.le_iff_toInt_le, toInt_minFloor]
  omega

theorem Tames.average_isHeld (h : Tames t C) {d : Int64} (hnonneg : 0 ≤ d.toInt)
    (hle : d.toInt ≤ C) {previous : Option Float} (hprevious : ∀ x ∈ previous, IsHeld C x) :
    IsHeld C (average t d previous) := by
  obtain ⟨s, hs, hs0, hs1⟩ := h.sound.smoothing
  exact BiasPass.average_isHeld hs hs0 hs1 h.positive (h.small s hs) hnonneg hle hprevious

theorem IsHeld.roundAmount_le {x : Float} (h : IsHeld C x) :
    0 ≤ (roundAmount x).toInt ∧ (roundAmount x).toInt ≤ C := by
  obtain ⟨p, hp, hnonneg, hle⟩ := h
  exact Hostility.roundAmount_le hp hnonneg (by linarith)

/-- What is offered to the ledger is at most `C`, or the floor of the source. -/
theorem applied_le (h : Tames t C) (hnonneg : 0 ≤ (desired t m).toInt)
    (hle : (desired t m).toInt ≤ C) {c : Candidate} {b : PassiveBias}
    (hholds : Holds C c.entity b) (threshold : Int64) (l : Ledger) :
    (applyOne t m c threshold l b).1.applied.toInt
      ≤ max (C : Int) (minFloor t threshold).toInt := by
  have hround := (h.average_isHeld hnonneg hle hholds).roundAmount_le
  have hpenalty := h.penalty
  unfold applyOne
  dsimp only
  rw [toInt_max]
  split
  · rw [toInt_sub_of_nonneg hround.1 hpenalty]
    omega
  · omega

theorem holds_applyOne (h : Tames t C) (hnonneg : 0 ≤ (desired t m).toInt)
    (hle : (desired t m).toInt ≤ C) {b : PassiveBias} (hholds : Holds C e b) (c : Candidate)
    (threshold : Int64) (l : Ledger) : Holds C e (applyOne t m c threshold l b).2.2 := by
  intro x hx
  unfold applyOne at hx
  dsimp only at hx
  rw [entry_insert] at hx
  split at hx
  · next hsame =>
    obtain rfl := Option.mem_some.mp hx
    exact h.average_isHeld hnonneg hle (hsame ▸ hholds)
  · exact hholds x hx

theorem holds_applyAll (h : Tames t C) (hnonneg : 0 ≤ (desired t m).toInt)
    (hle : (desired t m).toInt ≤ C) (candidates : List Candidate) (l : Ledger) {b : PassiveBias}
    (hholds : Holds C e b) : Holds C e (applyAll t m candidates l b).2.2 := by
  induction candidates generalizing l b with
  | nil => exact hholds
  | cons c rest ih =>
    cases hpassive : c.passive with
    | none =>
      rw [applyAll_cons_of_none hpassive]
      exact ih l hholds
    | some threshold =>
      rw [applyAll_cons_of_some hpassive]
      exact ih _ (holds_applyOne h hnonneg hle hholds c threshold l)

/-- A pass that `e` takes no part in leaves its average alone. -/
theorem entry_applyAll {candidates : List Candidate}
    (hnot : (candidates.any fun c => c.isPassive && decide (c.entity = e)) = false) (l : Ledger)
    (b : PassiveBias) : (applyAll t m candidates l b).2.2.entry e = b.entry e := by
  induction candidates generalizing l b with
  | nil => rfl
  | cons c rest ih =>
    rw [List.any_cons, Bool.or_eq_false_iff] at hnot
    cases hpassive : c.passive with
    | none =>
      rw [applyAll_cons_of_none hpassive]
      exact ih hnot.2 l b
    | some threshold =>
      have hother : c.entity ≠ e := by
        simpa [Candidate.isPassive, hpassive] using hnot.1
      rw [applyAll_cons_of_some hpassive]
      refine (ih hnot.2 _ _).trans ?_
      rw [applyOne, entry_insert, if_neg hother]

/-- What a pass makes of an entry: it stays, or some candidate of its own raised it. -/
theorem value?_applyAll (h : Tames t C) (hnonneg : 0 ≤ (desired t m).toInt)
    (hle : (desired t m).toInt ≤ C) {candidates : List Candidate} {l : Ledger} {b : PassiveBias}
    (hholds : Holds C e b) {u v : Int64} (hu : l.value? e = some u)
    (hv : (applyAll t m candidates l b).2.1.value? e = some v) :
    v = u ∨ ∃ c ∈ candidates, c.entity = e ∧ ∃ threshold, c.passive = some threshold ∧
      v.toInt ≤ max (C : Int) (minFloor t threshold).toInt := by
  induction candidates generalizing l b u with
  | nil => exact .inl (Option.some.inj (hv.symm.trans hu))
  | cons c rest ih =>
    cases hpassive : c.passive with
    | none =>
      rw [applyAll_cons_of_none hpassive] at hv
      obtain hsame | ⟨c', hc', hraised⟩ := ih hholds hu hv
      · exact .inl hsame
      · exact .inr ⟨c', List.mem_cons_of_mem c hc', hraised⟩
    | some threshold =>
      rw [applyAll_cons_of_some hpassive] at hv
      have hnext := holds_applyOne h hnonneg hle hholds c threshold l
      have hoffer : (applyOne t m c threshold l b).2.1.value? e
          = some (if e = c.entity ∧ u < (applyOne t m c threshold l b).1.applied
            then (applyOne t m c threshold l b).1.applied else u) :=
        (Ledger.value?_raiseTo l c.entity e _).trans (by rw [hu]; rfl)
      obtain hsame | ⟨c', hc', hraised⟩ := ih hnext hoffer hv
      · split at hsame
        · next hown =>
          obtain ⟨rfl, -⟩ := hown
          refine .inr ⟨c, List.mem_cons_self, rfl, threshold, hpassive, ?_⟩
          rw [hsame]
          exact applied_le h hnonneg hle hholds threshold l
        · exact .inl hsame
      · exact .inr ⟨c', List.mem_cons_of_mem c hc', hraised⟩

end BiasPass

namespace Grudge

open BiasPass (Holds Tames)

variable {t : Tuning} {g : Grudge} {e : Entity} {C : Nat}

theorem average_recordSelection (b : PassiveBias) (chosen : Option Entity) (e : Entity) :
    ((b.recordSelection chosen).entry e).average = (b.entry e).average := by
  unfold PassiveBias.recordSelection PassiveBias.entry
  rw [EntityMap.get?_map]
  cases EntityMap.get? b e <;> rfl

/-- One deed: only a pass that the source takes part in moves its average, and by a pressure of
`C` at most. -/
theorem holds_after (h : Tames t C) (hfloor : g.ledger.AtLeast t.threatMinimum) {deed : Deed}
    (hstrength : ∀ m ∈ g.strength? t e deed, m.toInt ≤ 2 ^ 47 ∧ (BiasPass.ceiling t m).toInt ≤ C)
    (hholds : Holds C e g.bias) : Holds C e (g.after t deed).bias := by
  cases deed with
  | seed e' => exact hholds
  | add e' amount => exact hholds
  | decay threshold => exact hholds
  | select candidates chosen =>
    intro x hx
    rw [after, average_recordSelection] at hx
    cases hpart : candidates.any fun c => c.isPassive && decide (c.entity = e) with
    | false =>
      rw [BiasPass.apply, BiasPass.entry_applyAll hpart] at hx
      exact hholds x hx
    | true =>
      obtain ⟨hsmall, hceiling⟩ := hstrength _ (by rw [strength?, hpart]; rfl)
      have hpositive : 0 ≤ (BiasPass.maxActive t g.ledger candidates).toInt := by
        have hle := Int64.le_iff_toInt_le.mp (le_maxActive hfloor candidates)
        have hone := h.sound.floor
        omega
      have hdesired := BiasPass.desired_bounds h.sound hpositive hsmall
      exact BiasPass.holds_applyAll h hdesired.1 (hdesired.2.trans hceiling) candidates g.ledger
        hholds x hx

theorem le_strengths (hfloor : g.ledger.AtLeast t.threatMinimum) (deeds : List Deed) :
    ∀ m ∈ strengths t e g deeds, t.threatMinimum ≤ m := by
  induction deeds generalizing g with
  | nil => exact fun m hm => nomatch hm
  | cons deed rest ih =>
    intro m hm
    rcases List.mem_append.mp hm with hm | hm
    · cases deed with
      | seed e' => cases hm
      | add e' amount => cases hm
      | decay threshold => cases hm
      | select candidates chosen =>
        rw [strength?] at hm
        split at hm
        · obtain rfl : m = _ := by simpa using hm
          exact le_maxActive hfloor candidates
        · cases hm
    · exact ih (after_atLeast hfloor deed) m hm

theorem holds_afterAll (h : Tames t C) (hfloor : g.ledger.AtLeast t.threatMinimum)
    {deeds : List Deed}
    (hstrengths : ∀ m ∈ strengths t e g deeds,
      m.toInt ≤ 2 ^ 47 ∧ (BiasPass.ceiling t m).toInt ≤ C)
    (hholds : Holds C e g.bias) : Holds C e (g.afterAll t deeds).bias := by
  induction deeds generalizing g with
  | nil => exact hholds
  | cons deed rest ih =>
    refine ih (after_atLeast hfloor deed) (fun m hm => hstrengths m ?_)
      (holds_after h hfloor (fun m hm => hstrengths m ?_) hholds)
    · exact List.mem_append_right _ hm
    · exact List.mem_append_left _ (Option.mem_toList.mpr hm)

/-- The strongest real threat of a selection after some deeds of a fresh grudge. -/
def strongest (t : Tuning) (deeds : List Deed) (candidates : List Candidate) : Int64 :=
  BiasPass.maxActive t (afterAll t {} deeds).ledger candidates

/-- The bias pass of a selection after some deeds raises a passive candidate from `u` to `v`. -/
structure Raises (t : Tuning) (deeds : List Deed) (candidates : List Candidate) (c : Candidate)
    (threshold u v : Int64) : Prop where
  mem : c ∈ candidates
  passive : c.passive = some threshold
  old : (afterAll t {} deeds).ledger.value? c.entity = some u
  new : (BiasPass.apply t (afterAll t {} deeds).ledger (afterAll t {} deeds).bias
    candidates).2.1.value? c.entity = some v
  lt : u < v

/-- The strongest real threats that a source has met, that of the coming selection first. -/
def met (t : Tuning) (e : Entity) (deeds : List Deed) (candidates : List Candidate) : List Int64 :=
  strongest t deeds candidates :: strengths t e {} deeds

variable {deeds : List Deed} {candidates : List Candidate} {c : Candidate} {threshold u v m : Int64}

theorem fresh_atLeast (t : Tuning) : ({} : Grudge).ledger.AtLeast t.threatMinimum := .empty _

theorem one_le_of_mem_met (ht : t.IsSound) (hm : m ∈ met t e deeds candidates) : 1 ≤ m.toInt := by
  have hone := ht.floor
  have hle : t.threatMinimum ≤ m := by
    rcases List.mem_cons.mp hm with rfl | hm
    · exact le_maxActive (afterAll_atLeast (fresh_atLeast t) deeds) candidates
    · exact le_strengths (fresh_atLeast t) deeds m hm
  rw [Int64.le_iff_toInt_le] at hle
  omega

theorem exists_highest_ceiling (t : Tuning) (e : Entity) (deeds : List Deed)
    (candidates : List Candidate) :
    ∃ top ∈ met t e deeds candidates, ∀ m ∈ met t e deeds candidates,
      (BiasPass.ceiling t m).toInt ≤ (BiasPass.ceiling t top).toInt := by
  obtain ⟨top, htop, hmax⟩ := (met t e deeds candidates).toFinset.exists_max_image
    (fun m => (BiasPass.ceiling t m).toInt) ⟨strongest t deeds candidates, by simp [met]⟩
  rw [List.mem_toFinset] at htop
  exact ⟨top, htop, fun m hm => hmax m (List.mem_toFinset.mpr hm)⟩

/-- A raise stays below whatever bounds the ceilings of all passes. -/
theorem raise_le (h : Tames t C)
    (hmet : ∀ m ∈ met t c.entity deeds candidates,
      m.toInt ≤ 2 ^ 47 ∧ (BiasPass.ceiling t m).toInt ≤ C)
    (hdistinct : (candidates.map (·.entity)).Nodup)
    (hraises : Raises t deeds candidates c threshold u v) :
    v.toInt ≤ max (C : Int) (BiasPass.minFloor t threshold).toInt := by
  have hholds : Holds C c.entity (afterAll t {} deeds).bias :=
    holds_afterAll h (fresh_atLeast t) (fun m hm => hmet m (List.mem_cons_of_mem _ hm))
      (fun x hx => nomatch hx)
  have hnow : strongest t deeds candidates ∈ met t c.entity deeds candidates :=
    List.mem_cons_self
  have hpositive := one_le_of_mem_met h.sound hnow
  obtain ⟨hsmall, hceiling⟩ := hmet _ hnow
  have hdesired := BiasPass.desired_bounds h.sound (by omega) hsmall
  obtain hsame | ⟨c', hc', hentity, threshold', hpassive', hcovered⟩ :=
    BiasPass.value?_applyAll h hdesired.1 (hdesired.2.trans hceiling) hholds hraises.old
      hraises.new
  · exact absurd (hsame ▸ hraises.lt) Int64.lt_irrefl
  · obtain rfl : c' = c := List.inj_on_of_nodup_map hdistinct hc' hraises.mem hentity
    obtain rfl : threshold' = threshold :=
      Option.some.inj (hpassive'.symm.trans hraises.passive)
    exact hcovered

/-- Whatever a bias pass raises is covered by the floor of the source, by the ceiling of this pass,
or by the higher ceiling of an earlier pass of the same source. -/
theorem raise_covered (hvalid : t.fault? = none) (hpenalty : 0 ≤ t.passiveStreakPenalty)
    {s : ℚ} (hs : floatValue? t.passiveSmoothing = some s)
    (hsmall : ∀ m ∈ met t c.entity deeds candidates, (m.toInt : ℚ) ≤ 2 ^ 47 * s)
    (hdistinct : (candidates.map (·.entity)).Nodup)
    (hraises : Raises t deeds candidates c threshold u v) :
    v ≤ max (BiasPass.ceiling t (strongest t deeds candidates)) (BiasPass.minFloor t threshold) ∨
      ∃ m ∈ strengths t c.entity {} deeds,
        BiasPass.ceiling t (strongest t deeds candidates) < BiasPass.ceiling t m ∧
          v ≤ BiasPass.ceiling t m := by
  have hsound := Tuning.isSound_of_fault? hvalid
  have hbounded := fun m hm => BiasPass.toInt_le_of_small hsound hs (hsmall m hm)
  obtain ⟨top, htop, hmax⟩ := exists_highest_ceiling t c.entity deeds candidates
  have htames := BiasPass.tames_of_small hsound (Int64.le_iff_toInt_le.mp hpenalty) hs
    (one_le_of_mem_met hsound htop) (hsmall top htop)
  have hle := raise_le htames
    (fun m hm => ⟨hbounded m hm, by have := hmax m hm; omega⟩) hdistinct hraises
  have hfloor := BiasPass.le_minFloor t threshold
  have hone := hsound.floor
  by_cases hcase : v ≤ max (BiasPass.ceiling t (strongest t deeds candidates))
      (BiasPass.minFloor t threshold)
  · exact .inl hcase
  · right
    simp only [Int64.le_iff_toInt_le, Int64.lt_iff_toInt_lt, toInt_max] at hcase hfloor ⊢
    rcases List.mem_cons.mp htop with rfl | htop
    · omega
    · exact ⟨top, htop, by omega, by omega⟩

/-- A player strikes, and a banner beside it is raised towards its threat. -/
def strike : List Deed :=
  [.seed ⟨1, 1⟩, .seed ⟨2, 1⟩, .seed ⟨3, 1⟩, .add ⟨1, 1⟩ 3000, .decay fun _ => none,
    .select [⟨⟨1, 1⟩, 3.0, .player, none⟩, ⟨⟨3, 1⟩, 4.0, .creature, some 0⟩,
      ⟨⟨2, 1⟩, 5.0, .player, none⟩] (some ⟨3, 1⟩),
    .decay fun _ => none]

def banner : Candidate := ⟨⟨3, 1⟩, 4.0, .creature, some 0⟩

/-- The player is gone; a bystander is the strongest real threat now. -/
def leftBehind : List Candidate := [banner, ⟨⟨2, 1⟩, 5.0, .player, none⟩]

theorem leftBehind_raises : Raises {} strike leftBehind banner 0 1385 1417 where
  mem := by decide
  passive := rfl
  old := by decide +kernel
  new := by decide +kernel
  lt := by decide

/-- The first selection had the ceiling that covers the banner. -/
theorem banner_covered_by_first_pass :
    ∃ m ∈ strengths {} banner.entity {} strike,
      BiasPass.ceiling {} (strongest {} strike leftBehind) < BiasPass.ceiling {} m ∧
        1417 ≤ BiasPass.ceiling {} m := by
  have hs : floatValue? ({} : Tuning).passiveSmoothing
      = some (3602879701896397 / 18014398509481984) := by decide +kernel
  have hmet : met {} banner.entity strike leftBehind = [100, 2100] := by decide +kernel
  have hsmall : ∀ m ∈ met {} banner.entity strike leftBehind,
      (m.toInt : ℚ) ≤ 2 ^ 47 * (3602879701896397 / 18014398509481984) := by
    have h100 : (100 : Int64).toInt = 100 := rfl
    have h2100 : (2100 : Int64).toInt = 2100 := rfl
    rw [hmet]
    intro m hm
    rcases List.mem_pair.mp hm with rfl | rfl
    · rw [h100]
      norm_num
    · rw [h2100]
      norm_num
  have hcovered := raise_covered (t := {}) (by decide +kernel) (by decide) hs hsmall (by decide)
    leftBehind_raises
  exact hcovered.resolve_left (by decide +kernel)

/-- The banner is raised again, from 1385 to 1417, though neither its ceiling nor its floor is above
100. -/
theorem leftBehind_raises_above_ceiling :
    ({} : Tuning).fault? = none ∧ (leftBehind.map (·.entity)).Nodup ∧
      Raises {} strike leftBehind banner 0 1385 1417 ∧
      max (BiasPass.ceiling {} (strongest {} strike leftBehind)) (BiasPass.minFloor {} 0) = 100 :=
  ⟨by decide +kernel, by decide, leftBehind_raises, by decide +kernel⟩

end Grudge

end Hostility
