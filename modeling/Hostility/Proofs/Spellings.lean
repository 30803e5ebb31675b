import Hostility.Proofs.Admissions
import Mathlib.Data.List.DropRight

/-!
Spellings of reserved names. A name may be spelled in either case and with blanks around it, and all
spellings of one name are reserved or none is. The reserved names themselves are taken as they are
listed: one with blanks at its ends matches no name at all, and each of the others keeps whoever
bears it, however it is spelled, out of every ledger.
-/
namespace Hostility

open Hostility.Action

theorem toNat_toLower {c : Char} (h : 65 ≤ c.toNat ∧ c.toNat ≤ 90) :
    c.toLower.toNat = c.toNat + 32 := by
  have hupper : c.val ≥ 'A'.val ∧ c.val ≤ 'Z'.val := h
  have hsmall : c.val.toNat + 32 < 2 ^ 32 := by
    have hle : c.val.toNat ≤ 90 := h.2
    omega
  have hlower : c.toLower.val = c.val + 32 := congrArg Char.val (dif_pos hupper)
  calc c.toLower.toNat = (c.val + 32).toNat := congrArg UInt32.toNat hlower
    _ = (c.val.toNat + 32) % 2 ^ 32 := UInt32.toNat_add c.val 32
    _ = c.toNat + 32 := Nat.mod_eq_of_lt hsmall

theorem isBlank_toLower (c : Char) : isBlank c.toLower = isBlank c := by
  by_cases hupper : 65 ≤ c.toNat ∧ c.toNat ≤ 90
  · refine Bool.eq_iff_iff.mpr ?_
    simp only [isBlank, toNat_toLower hupper, Bool.or_eq_true, Bool.and_eq_true,
      decide_eq_true_eq, beq_iff_eq]
    omega
  · have hlower : c.toLower = c :=
      dif_neg (fun h : c.val ≥ 'A'.val ∧ c.val ≤ 'Z'.val => hupper h)
    rw [hlower]

section Trim

variable {before after : List Char}

theorem trimBlanks_eq_rdropWhile (name : List Char) :
    trimBlanks name = (name.dropWhile isBlank).rdropWhile isBlank := rfl

theorem toLower_trimBlanks (name : List Char) :
    (trimBlanks name).map Char.toLower = trimBlanks (name.map Char.toLower) := by
  have hblank : isBlank ∘ Char.toLower = isBlank := funext isBlank_toLower
  simp only [trimBlanks, List.dropWhile_map, hblank, ← List.map_reverse]

/-- A name is what is left of it without its blanks, between blanks. -/
theorem exists_trimBlanks (name : List Char) :
    ∃ before after, name = before ++ trimBlanks name ++ after ∧
      (∀ c ∈ before, isBlank c = true) ∧ ∀ c ∈ after, isBlank c = true := by
  refine ⟨name.takeWhile isBlank, (name.dropWhile isBlank).rtakeWhile isBlank, ?_, ?_, ?_⟩
  · rw [trimBlanks_eq_rdropWhile, List.append_assoc, List.rdropWhile_append_rtakeWhile,
      List.takeWhile_append_dropWhile]
  · exact fun c hc => List.mem_takeWhile_imp hc
  · exact fun c hc => List.mem_rtakeWhile_imp hc

theorem trimBlanks_between (hbefore : ∀ c ∈ before, isBlank c = true)
    (hafter : ∀ c ∈ after, isBlank c = true) (core : List Char) :
    trimBlanks (before ++ core ++ after) = trimBlanks core := by
  have hreverse : ∀ c ∈ after.reverse, isBlank c = true := by simpa using hafter
  rw [List.append_assoc, trimBlanks, trimBlanks, List.dropWhile_append_of_pos hbefore,
    List.dropWhile_append]
  split
  · next hblank =>
    rw [List.isEmpty_iff.mp hblank, List.dropWhile_eq_nil_iff.mpr hafter]
  · rw [List.reverse_append, List.dropWhile_append_of_pos hreverse]

theorem trimBlanks_trimBlanks (name : List Char) :
    trimBlanks (trimBlanks name) = trimBlanks name := by
  obtain ⟨before, after, hname, hbefore, hafter⟩ := exists_trimBlanks name
  conv_rhs => rw [hname, trimBlanks_between hbefore hafter]

end Trim

/-- The name is spelled with its letters in either case and with blanks around them. -/
def IsSpelling (name spelling : String) : Prop :=
  ∃ before core after, spelling.toList = before ++ core ++ after ∧
    sameLetters name.toList core = true ∧
    (∀ c ∈ before, isBlank c = true) ∧ ∀ c ∈ after, isBlank c = true

/-- The name has no blanks at its ends. -/
def IsBare (name : String) : Prop := trimBlanks name.toList = name.toList

variable {name spelling : String}

theorem sameLetters_iff {x y : List Char} :
    sameLetters x y = true ↔ x.map Char.toLower = y.map Char.toLower := beq_iff_eq

theorem IsSpelling.toLower_trimBlanks (h : IsSpelling name spelling) :
    (trimBlanks spelling.toList).map Char.toLower = (trimBlanks name.toList).map Char.toLower := by
  obtain ⟨before, core, after, hspelling, hletters, hbefore, hafter⟩ := h
  rw [hspelling, trimBlanks_between hbefore hafter, Hostility.toLower_trimBlanks,
    Hostility.toLower_trimBlanks, sameLetters_iff.mp hletters]

/-- A name with the letters of something that has no blanks at its ends has none there either. -/
theorem isBare_of_toLower_eq {x : List Char}
    (h : name.toList.map Char.toLower = (trimBlanks x).map Char.toLower) : IsBare name := by
  obtain ⟨before, after, hname, -⟩ := exists_trimBlanks name.toList
  have hletters : (trimBlanks name.toList).map Char.toLower = name.toList.map Char.toLower := by
    rw [toLower_trimBlanks, h, ← toLower_trimBlanks, trimBlanks_trimBlanks]
  have hlength := congrArg List.length hletters
  have hsplit := congrArg List.length hname
  simp only [List.length_map, List.length_append] at hlength hsplit
  have hbefore : before = [] := List.length_eq_zero_iff.mp (by omega)
  have hafter : after = [] := List.length_eq_zero_iff.mp (by omega)
  rw [hbefore, hafter, List.nil_append, List.append_nil] at hname
  exact hname.symm

namespace Tuning

variable {t : Tuning}

theorem isReservedName_iff_toLower :
    t.isReservedName name = true ↔
      ∃ r ∈ t.reservedNames,
        r.toList.map Char.toLower = (trimBlanks name.toList).map Char.toLower := by
  rw [isReservedName, List.any_eq_true]
  simp only [sameLetters_iff]

theorem isReservedName_of_isSpelling (h : IsSpelling name spelling) :
    t.isReservedName spelling = t.isReservedName name := by
  rw [Bool.eq_iff_iff, isReservedName_iff_toLower, isReservedName_iff_toLower, h.toLower_trimBlanks]

/-- The spellings of the reserved names without blanks at their ends are what is reserved. -/
theorem isReservedName_iff :
    t.isReservedName name = true ↔ ∃ r ∈ t.reservedNames, IsBare r ∧ IsSpelling r name := by
  rw [isReservedName_iff_toLower]
  constructor
  · rintro ⟨r, hr, hletters⟩
    obtain ⟨before, after, hname, hbefore, hafter⟩ := exists_trimBlanks name.toList
    exact ⟨r, hr, isBare_of_toLower_eq hletters, before, trimBlanks name.toList, after, hname,
      sameLetters_iff.mpr hletters, hbefore, hafter⟩
  · rintro ⟨r, hr, hbare, hspelling⟩
    exact ⟨r, hr, by rw [hspelling.toLower_trimBlanks, hbare]⟩

end Tuning

section Bearer

variable {t : Tuning} {setting : Setting} {s : State} {actor e : Entity}

theorem Threat.increase_of_reserved {c : Controller} (hc : s.world.controller? actor = some c)
    (hreserved : isReserved t s.world e = true) (hcontains : s.world.contains e = true)
    (base : Int64) : increase t actor e base s = ⟨.ok none, s, []⟩ := by
  unfold increase
  rw [bind_of_ok (by rw [controllerOf_eq hc]), controllerOf_eq hc]
  dsimp only
  rw [world_bind, hcontains, hreserved]
  cases c.profile.legacyMode <;> rfl

/-- Seeding passes over whoever bears a reserved name. -/
theorem Threat.seedCandidates_of_reserved (hreserved : isReserved t s.world e = true)
    (actor : Entity) (candidates : List Candidate) :
    seedCandidates t actor candidates s =
      seedCandidates t actor (candidates.filter fun k => k.entity ≠ e) s := by
  have hseedable : (candidates.map (·.entity)).filter (fun k => !isReserved t s.world k) =
      ((candidates.filter fun k => k.entity ≠ e).map (·.entity)).filter
        fun k => !isReserved t s.world k := by
    rw [List.filter_map, List.filter_map, List.filter_filter]
    congr 1
    refine List.filter_congr fun k _ => ?_
    by_cases hk : k.entity = e <;> simp [hk, hreserved]
  unfold seedCandidates
  rw [world_bind, world_bind]
  dsimp only
  rw [hseedable]

/-- Whatever the host asks for, nobody begins to track it. -/
theorem Request.tracks_of_reserved (request : Request)
    (hreserved : Threat.isReserved setting.tuning s.world e = true)
    (htracks : (request.perform setting s).state.world.tracks actor e = true) :
    s.world.tracks actor e = true := by
  have hadmits : s.world.Admitting setting.tuning request (request.perform setting s).state.world :=
    (admitting_warranted setting request).perform s
  refine (hadmits.tracks actor e htracks).resolve_right fun hwelcome => ?_
  rw [hwelcome.unreserved] at hreserved
  cases hreserved

end Bearer

/-- All spellings of a name are reserved or none is. Reserved are the spellings of those reserved
names that have no blanks at their ends, and of no others. Who bears one adds to nobody's threat, is
passed over when candidates are seeded, and enters no ledger whatever the host asks for. -/
theorem bare_reserved_names_stay_out (setting : Setting) :
    let t := setting.tuning
    (∀ name spelling, IsSpelling name spelling →
      t.isReservedName spelling = t.isReservedName name) ∧
    (∀ name, t.isReservedName name = true ↔ ∃ r ∈ t.reservedNames, IsBare r ∧ IsSpelling r name) ∧
    ∀ r ∈ t.reservedNames, IsBare r → ∀ s e name, s.world.name? e = some name → IsSpelling r name →
      (∀ actor c base, s.world.controller? actor = some c →
        Threat.increase t actor e base s = ⟨.ok none, s, []⟩) ∧
      (∀ actor candidates, Threat.seedCandidates t actor candidates s =
        Threat.seedCandidates t actor (candidates.filter fun k => k.entity ≠ e) s) ∧
      ∀ (request : Request) actor, (request.perform setting s).state.world.tracks actor e = true →
        s.world.tracks actor e = true := by
  intro t
  refine ⟨fun _ _ => Tuning.isReservedName_of_isSpelling, fun _ => Tuning.isReservedName_iff, ?_⟩
  intro r hr hbare s e name hname hspelling
  have hreserved : Threat.isReserved t s.world e = true := by
    rw [Threat.isReserved, hname]
    exact Tuning.isReservedName_iff.mpr ⟨r, hr, hbare, hspelling⟩
  have hcontains : s.world.contains e = true := World.contains_of_bind hname
  exact ⟨fun actor c base hc => Threat.increase_of_reserved hc hreserved hcontains base,
    Threat.seedCandidates_of_reserved hreserved, fun request actor =>
    request.tracks_of_reserved hreserved⟩

/-- An orc and somebody of the given name. -/
def doorstep (name : String) : State where
  world :=
    ((World.empty.spawn { name := some "orc", controller := some (.ofProfile {}) }).2.spawn
      { name := some name }).2
  random := .cycle [0]
  now := 0
  alerts := ∅

theorem disguised_placeholder_stays_out :
    let s := doorstep "\tPlaceHOLDER "
    s.world.name? ⟨1, 1⟩ = some "\tPlaceHOLDER " ∧ IsBare "placeholder" ∧
      IsSpelling "placeholder" "\tPlaceHOLDER " ∧
      Threat.increase {} ⟨0, 1⟩ ⟨1, 1⟩ 50 s = ⟨.ok none, s, []⟩ := by
  intro s
  have hname : s.world.name? ⟨1, 1⟩ = some "\tPlaceHOLDER " := rfl
  have hactor : s.world.controller? ⟨0, 1⟩ = some (.ofProfile {}) := rfl
  have hbare : IsBare "placeholder" := by unfold IsBare; decide
  have hspelling : IsSpelling "placeholder" "\tPlaceHOLDER " :=
    ⟨['\t'], "PlaceHOLDER".toList, [' '], by decide, by decide,
      List.forall_mem_singleton.mpr rfl, List.forall_mem_singleton.mpr rfl⟩
  obtain ⟨hraises, -⟩ := (bare_reserved_names_stay_out {}).2.2 "placeholder" (by decide) hbare s
    ⟨1, 1⟩ _ hname hspelling
  exact ⟨hname, hbare, hspelling, hraises ⟨0, 1⟩ _ 50 hactor⟩

/-- A reserved name that is listed with blanks around it does not even match itself, and an actor
takes note of somebody who bears it. -/
theorem padded_reserved_name_is_not_honoured :
    let t : Tuning := { reservedNames := [" npc "] }
    let s := doorstep " npc "
    " npc " ∈ t.reservedNames ∧ t.isReservedName " npc " = false ∧
      s.world.name? ⟨1, 1⟩ = some " npc " ∧
      (Threat.increase t ⟨0, 1⟩ ⟨1, 1⟩ 50 s).result = .ok (some 150) := by
  refine ⟨by decide, by decide, rfl, ?_⟩
  decide +kernel

end Hostility
