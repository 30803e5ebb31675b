import Hostility.Proofs.LedgerView
import Hostility.Proofs.Provocations

/-!
What an increase of threat makes of the world. If the source has a skip armed, the skip is used up
and that is all. Otherwise the entry of the source in the ledger of the actor rises by the amount
that is told, a doubling is used up, and whatever else anybody is made of stays as it is.
-/
namespace Hostility

open Hostility.Action

variable {t : Tuning} {actor source e : Entity} {w w' : World} {s : State} {c : Controller}

namespace Modifiers

variable {m : Modifiers}

theorem spent_of_skip (h : m.skipNext = true) (t : Tuning) (base : Int64) :
    (m.apply t base).2 = { m with skipNext := false } := by
  simp [apply, h]

theorem spent_of_no_skip (h : m.skipNext = false) (t : Tuning) (base : Int64) :
    (m.apply t base).2 = { m with doubleNext := false } := by
  simp [apply, h]

end Modifiers

namespace World.SameButModifiers

/-- What was made of the modifiers of the source is what was made of those that it has. -/
theorem get?_eq {f : Modifiers → Modifiers}
    (h : w.SameButModifiers source (f (w.modifiersOf source)) w') (e : Entity) :
    w'.get? e = (w.get? e).map fun parts =>
      { parts with
        modifiers := if e = source then parts.modifiers.map f else parts.modifiers } := by
  rw [h e]
  cases hparts : w.get? e with
  | none => rfl
  | some parts =>
    rw [Option.map_some, Option.map_some]
    by_cases he : e = source
    · subst he
      rw [if_pos rfl, if_pos rfl]
      cases hm : parts.modifiers with
      | none => rfl
      | some m =>
        have hown : w.modifiersOf e = m := by simp [modifiersOf, hparts, hm]
        rw [Option.map_some, Option.map_some, hown]
    · rw [if_neg he, if_neg he]

theorem ledger?_eq {m : Modifiers} (h : w.SameButModifiers source m w') (e : Entity) :
    w'.ledger? e = w.ledger? e := by
  rw [ledger?, h e, ledger?]
  cases w.get? e with
  | none => rfl
  | some parts =>
    rw [Option.map_some]
    split <;> rfl

end World.SameButModifiers

/-- An amount that is not negative lowers no entry. -/
theorem Ledger.le_of_value?_add {l : Ledger} {v amount : Int64} (h : l.value? e = some v)
    (hamount : 0 ≤ amount) (source : Entity) (floor : Int64) :
    ∃ v', (l.add source amount floor).1.value? e = some v' ∧ v ≤ v' := by
  rw [value?_add]
  by_cases he : e = source
  · subst he
    have hsum : v ≤ satAdd v amount := by
      have hmax := v.toInt_le
      have hpositive : 0 ≤ amount.toInt := Int64.le_iff_toInt_le.mp hamount
      rw [Int64.le_iff_toInt_le, satAdd, toInt_saturate]
      omega
    rw [if_pos rfl, h, Option.getD_some]
    exact ⟨_, rfl, Int64.le_trans hsum Std.left_le_max⟩
  · rw [if_neg he]
    exact ⟨v, h, Int64.le_refl v⟩

namespace Threat

/-- A source with a skip armed loses the skip, and that is told. -/
theorem increase_of_skip (h : s.world.notes t actor source = true)
    (hskip : (s.world.modifiersOf source).skipNext = true) (base : Int64) :
    ∃ w', increase t actor source base s =
        ⟨.ok none, { s with world := w' }, [.threatSkipped actor source]⟩ ∧
      ∀ e, w'.get? e = (s.world.get? e).map fun parts =>
        { parts with
          modifiers :=
            if e = source then parts.modifiers.map fun m => { m with skipNext := false }
            else parts.modifiers } := by
  obtain ⟨w', -, -, hsame, hrun⟩ := increase_of_noted h base
  rw [Modifiers.apply_of_skip hskip] at hrun
  rw [Modifiers.spent_of_skip hskip] at hsame
  exact ⟨w', hrun, hsame.get?_eq (f := fun m => { m with skipNext := false })⟩

/-- A source without a skip loses a doubling, and an amount for it enters the ledger. -/
theorem increase_of_no_skip (h : s.world.notes t actor source = true)
    (hskip : (s.world.modifiersOf source).skipNext = false) (base : Int64) :
    ∃ amount w', ((s.world.modifiersOf source).apply t base).1 = some amount ∧
      let added := ((s.world.ledger? actor).getD .empty).add source amount t.threatMinimum
      increase t actor source base s =
        ⟨.ok (some added.2), { s with world := w' },
          [.threatIncreased actor source amount added.2]⟩ ∧
      ∀ e, w'.get? e = (s.world.get? e).map fun parts =>
        { parts with
          modifiers :=
            if e = source then parts.modifiers.map fun m => { m with doubleNext := false }
            else parts.modifiers
          ledger := if e = actor then some added.1 else parts.ledger } := by
  obtain ⟨amount, hamount⟩ := Modifiers.apply_of_no_skip hskip t base
  obtain ⟨w, -, hfolk, hsame, hrun⟩ := increase_of_noted h base
  rw [hamount] at hrun
  rw [Modifiers.spent_of_no_skip hskip] at hsame
  have hspent := hsame.get?_eq (f := fun m => { m with doubleNext := false })
  have hactor : w.contains actor = true :=
    (hfolk.contains actor).trans (World.contains_of_notes h)
  obtain ⟨w', hentered, -, hview⟩ :=
    enter_run (s := { s with world := w }) t hactor source amount
  rw [hsame.ledger?_eq] at hentered hview
  refine ⟨amount, w', hamount, hrun.trans hentered, fun e => ?_⟩
  rw [hview, hspent, Option.map_map]
  congr 1
  funext parts
  by_cases he : e = actor <;> simp [he]

/-- Let an actor go by threat, and a source be there and bear no reserved name. A skip of the source
that is armed is used up, and all else that happens is that this is told. Otherwise the actor tells
of one amount, which is not below the least gain: the entry of the source, or the floor if there is
none, grows by it and is the floor at least, the gain grows by it, and a doubling is used up. Other
entries and the outlook stay as they are, and so does whatever else anybody is made of. Hence no
entry is lowered, unless the least gain is negative. -/
theorem increase_exact (hc : s.world.controller? actor = some c)
    (hmode : c.profile.legacyMode = false) (hsource : s.world.contains source = true)
    (hname : isReserved t s.world source = false) (base : Int64) :
    let m := s.world.modifiersOf source
    let l := (s.world.ledger? actor).getD .empty
    (m.skipNext = true → ∃ w',
      increase t actor source base s =
        ⟨.ok none, { s with world := w' }, [.threatSkipped actor source]⟩ ∧
      ∀ e, w'.get? e = (s.world.get? e).map fun parts =>
        { parts with
          modifiers :=
            if e = source then parts.modifiers.map fun m => { m with skipNext := false }
            else parts.modifiers }) ∧
    (m.skipNext = false → ∃ amount total l' w',
      increase t actor source base s =
        ⟨.ok (some total), { s with world := w' }, [.threatIncreased actor source amount total]⟩ ∧
      (m.apply t base).1 = some amount ∧ t.minimumThreatGain ≤ amount ∧
      total = max (saturate (((l.value? source).getD t.threatMinimum).toInt + amount.toInt))
        t.threatMinimum ∧
      w'.ledger? actor = some l' ∧ l'.value? source = some total ∧
      (∀ e, e ≠ source → l'.value? e = l.value? e) ∧
      l'.gained = saturate (l.gained.toInt + amount.toInt) ∧ l'.outlook = l.outlook ∧
      (0 ≤ t.minimumThreatGain →
        ∀ e v, l.value? e = some v → ∃ v', l'.value? e = some v' ∧ v ≤ v') ∧
      ∀ e, w'.get? e = (s.world.get? e).map fun parts =>
        { parts with
          modifiers :=
            if e = source then parts.modifiers.map fun m => { m with doubleNext := false }
            else parts.modifiers
          ledger := if e = actor then some l' else parts.ledger }) := by
  intro m l
  have hnoted : s.world.notes t actor source = true := by
    rw [World.notes_of_controller hc, hmode, hsource, hname]
    rfl
  refine ⟨fun hskip => increase_of_skip hnoted hskip base, fun hskip => ?_⟩
  obtain ⟨amount, w', hamount, hrun, hview⟩ := increase_of_no_skip hnoted hskip base
  have hleast := Modifiers.le_of_apply hamount
  let added := l.add source amount t.threatMinimum
  have hledger : w'.ledger? actor = some added.1 := by
    obtain ⟨parts, hparts, -⟩ := Option.bind_eq_some_iff.mp hc
    simp [World.ledger?, hview, hparts, added, l]
  have hvalue : added.1.value? source = some added.2 := by
    rw [Ledger.value?_add, if_pos rfl]
    rfl
  refine ⟨amount, added.2, added.1, w', hrun, hamount, hleast, rfl, hledger, hvalue, ?_, rfl, rfl,
    ?_, hview⟩
  · intro e he
    rw [Ledger.value?_add, if_neg he]
  · intro hminimum e v hv
    exact Ledger.le_of_value?_add hv (Int64.le_trans hminimum hleast) source t.threatMinimum

/-- An orc that already holds something against Aria, whose next threat is doubled. -/
def taunt : State where
  world :=
    let orc : Components :=
      { controller := some (.ofProfile {})
        ledger := some (Ledger.empty.add ⟨1, 1⟩ 50 100).1 }
    let aria : Components :=
      { name := some "Aria"
        modifiers := some { doubleNext := true } }
    ((World.empty.spawn orc).2.spawn aria).2
  random := .cycle [0]
  now := 0
  alerts := ∅

/-- Thirty count as sixty, on top of a hundred and fifty. -/
theorem taunt_increase_exact :
    let c := Controller.ofProfile {}
    taunt.world.controller? ⟨0, 1⟩ = some c ∧ c.profile.legacyMode = false ∧
      taunt.world.contains ⟨1, 1⟩ = true ∧ isReserved {} taunt.world ⟨1, 1⟩ = false ∧
      (taunt.world.modifiersOf ⟨1, 1⟩).skipNext = false ∧
      ∃ w', increase {} ⟨0, 1⟩ ⟨1, 1⟩ 30 taunt =
          ⟨.ok (some 210), { taunt with world := w' }, [.threatIncreased ⟨0, 1⟩ ⟨1, 1⟩ 60 210]⟩ ∧
        ∃ l', w'.ledger? ⟨0, 1⟩ = some l' ∧ l'.value? ⟨1, 1⟩ = some 210 ∧ l'.gained = 110 := by
  intro c
  have hc : taunt.world.controller? ⟨0, 1⟩ = some c := by decide +kernel
  have hsource : taunt.world.contains ⟨1, 1⟩ = true := by decide +kernel
  have hname : isReserved {} taunt.world ⟨1, 1⟩ = false := by decide +kernel
  have hskip : (taunt.world.modifiersOf ⟨1, 1⟩).skipNext = false := by decide +kernel
  obtain ⟨-, hraised⟩ := increase_exact hc rfl hsource hname 30
  obtain ⟨amount, total, l', w', hrun, hamount, -, htotal, hledger, hvalue, -, hgained, -⟩ :=
    hraised hskip
  obtain rfl : amount = 60 := by
    have happlied : ((taunt.world.modifiersOf ⟨1, 1⟩).apply {} 30).1 = some 60 := by
      decide +kernel
    exact Option.some.inj (hamount.symm.trans happlied)
  obtain rfl : total = 210 := htotal.trans (by decide +kernel)
  exact ⟨hc, rfl, hsource, hname, hskip, w', hrun, l', hledger, hvalue,
    hgained.trans (by decide +kernel)⟩

end Threat

end Hostility
