import Hostility.Proofs.Casting
import Hostility.World.Edit

/-!
Which scenarios can be built, what the others are refused for, and who is there before the first
tick: nobody but the bearers of the names, each made of the parts of its template.
-/
namespace Hostility

theorem firstRepeated_eq_some {seen names : List String} {n : String} :
    firstRepeated seen names = some n ↔
      ∃ before after, names = before ++ n :: after ∧ firstRepeated seen before = none ∧
        (n ∈ seen ∨ n ∈ before) := by
  constructor
  · intro h
    induction names generalizing seen with
    | nil => cases h
    | cons m rest ih =>
      by_cases hm : m ∈ seen
      · rw [firstRepeated, if_pos hm] at h
        obtain rfl := Option.some.inj h
        exact ⟨[], rest, rfl, rfl, .inl hm⟩
      · rw [firstRepeated, if_neg hm] at h
        obtain ⟨before, after, rfl, hnone, hn⟩ := ih h
        refine ⟨m :: before, after, rfl, by rwa [firstRepeated, if_neg hm], ?_⟩
        grind
  · rintro ⟨before, after, rfl, hnone, hn⟩
    have hseen : n ∈ before.reverse ++ seen := by simpa [or_comm] using hn
    rw [firstRepeated_append, hnone, Option.none_or, firstRepeated, if_pos hseen]

example : firstRepeated [] ["orc", "Aria", "wolf", "Aria", "orc"] = some "Aria" := by decide

namespace Scenario

/-- The first name, in the order of the entrances, that is borne already. -/
def IsFirstRepeated (s : Scenario) (n : String) : Prop :=
  ∃ before after, s.names = before ++ n :: after ∧ before.Nodup ∧ n ∈ before

/-- The first name of the script, the attacker's of a hit before the victim's, that nobody bears. -/
def IsFirstUnknown (s : Scenario) (n : String) : Prop :=
  ∃ before after, s.scriptedNames = before ++ n :: after ∧ (∀ m ∈ before, m ∈ s.names) ∧
    n ∉ s.names

variable {s : Scenario} {n : String}

theorem isFirstRepeated_iff : s.IsFirstRepeated n ↔ firstRepeated [] s.names = some n := by
  simp [IsFirstRepeated, firstRepeated_eq_some, firstRepeated_eq_none]

theorem isFirstUnknown_iff :
    s.IsFirstUnknown n ↔ firstUnknown s.names s.scriptedNames = some n := by
  unfold IsFirstUnknown firstUnknown
  rw [List.find?_eq_some_iff_append]
  constructor
  · rintro ⟨before, after, hsplit, hknown, hn⟩
    exact ⟨by simpa using hn, before, after, hsplit, fun m hm => by simpa using hknown m hm⟩
  · rintro ⟨hn, before, after, hsplit, hknown⟩
    exact ⟨before, after, hsplit, fun m hm => by simpa using hknown m hm, by simpa using hn⟩

theorem fault?_eq_duplicateName : s.fault? = some (.duplicateName n) ↔ s.IsFirstRepeated n := by
  rw [isFirstRepeated_iff]
  unfold fault?
  cases firstRepeated [] s.names <;> simp

theorem fault?_eq_unknownName :
    s.fault? = some (.unknownName n) ↔ s.names.Nodup ∧ s.IsFirstUnknown n := by
  have hnodup : s.names.Nodup ↔ firstRepeated [] s.names = none := by simp [firstRepeated_eq_none]
  rw [hnodup, isFirstUnknown_iff]
  unfold fault?
  cases firstRepeated [] s.names <;> simp

/-- Every attacker and every victim of the script is in the scenario. -/
theorem scriptedNames_known :
    (∀ m ∈ s.scriptedNames, m ∈ s.names) ↔
      ∀ h ∈ s.damage, h.attacker ∈ s.names ∧ h.victim ∈ s.names := by
  simp only [scriptedNames, List.mem_flatMap]
  grind

end Scenario

theorem World.update_congr {w : World} {e : Entity} {c : Components}
    {f g : Components → Components} (h : w.get? e = some c) (hsame : f c = g c) :
    w.update e f = w.update e g := by
  obtain ⟨seat, hslot⟩ := World.get?_eq_some_iff.mp h
  unfold World.update
  simp only [hslot, hsame]

theorem World.insert?_of_get? {w : World} {e : Entity} {c : Components} (h : w.get? e = some c)
    (parts : Components) : w.insert? e parts = some (w.update e (·.overlay parts)) := by
  have hsame : w.update e (fun _ => c.overlay parts) = w.update e (·.overlay parts) :=
    World.update_congr h rfl
  simp [World.insert?, World.edit?, h, hsame]

/-- An entrance that fails if nobody is there to take the further parts. -/
def CandidateTemplate.enter? (c : CandidateTemplate) (w : World) : Option (Entity × World) := do
  let (e, w) := w.spawn c.parts
  let w ←
    match c.passiveThreshold with
    | some threshold => w.insert? e { passive := some threshold }
    | none => some w
  let w ←
    if c.hides then w.insert? e { concealment := some (.ofHiding c.deception) } else some w
  return (e, w)

/-- No part of a candidate is inserted in vain. -/
theorem CandidateTemplate.enter?_eq (c : CandidateTemplate) (w : World) :
    c.enter? w = some (c.enter w) := by
  obtain ⟨⟨e, entered⟩, hspawn⟩ : ∃ p, w.spawn c.parts = p := ⟨_, rfl⟩
  have hnew : entered.get? e = some c.parts := by
    have hview := World.get?_spawn w c.parts e
    rwa [hspawn, if_pos rfl] at hview
  unfold enter? enter
  rw [hspawn]
  cases c.passiveThreshold with
  | none =>
    cases c.hides with
    | false => rfl
    | true =>
      show (entered.insert? e _ >>= _) = _
      rw [World.insert?_of_get? hnew]
      rfl
  | some threshold =>
    have hrevised := World.get?_update entered e e (·.overlay { passive := some threshold })
    rw [hnew, if_pos rfl] at hrevised
    show (entered.insert? e _ >>= _) = _
    rw [World.insert?_of_get? hnew]
    cases c.hides with
    | false => rfl
    | true =>
      show ((entered.update e _).insert? e _ >>= _) = _
      rw [World.insert?_of_get? hrevised]
      rfl

/-- Nobody but the newcomers is new. -/
theorem World.Admitted.contains_iff {α : Type} {parts : α → Components} {newcomers : List α}
    {taken : List Entity} {w w' : World} (h : w.Admitted parts newcomers taken w') {e : Entity} :
    w'.contains e = true ↔ e ∈ taken ∨ w.contains e = true := by
  by_cases he : e ∈ taken
  · simp [he, h.contains he]
  · simp [World.contains, he, h.others e he]

namespace Simulation

section Roster

variable (s : Scenario) (setting : Setting) (random : RandomSource) (tickSeconds : Float32)

/-- The world of a scenario begins with those on the roster and nobody else. -/
theorem start_contains_iff (e : Entity) :
    (start s setting random tickSeconds).state.world.contains e = true ↔
      e ∈ (start s setting random tickSeconds).roster.map (·.2) := by
  obtain ⟨w, candidates, hactors, hcandidates, hroster, hlength⟩ :=
    start_admitted s setting random tickSeconds
  have hempty : World.empty.contains e = false := rfl
  rw [hcandidates.contains_iff, hactors.contains_iff, hempty, hroster,
    List.map_snd_zip (Nat.le_of_eq hlength), List.mem_append]
  simp [or_comm]

theorem entity?_isSome_iff (n : String) :
    ((start s setting random tickSeconds).entity? n).isSome ↔ n ∈ s.names := by
  rw [entity?, lookup_isSome_iff_mem, start_names]

end Roster

variable {s : Scenario} {setting : Setting} {random : RandomSource} {tickSeconds : Float32}

/-- With distinct names nobody on the roster is hidden by an earlier one. -/
theorem entity?_of_mem_roster (hnodup : s.names.Nodup) {n : String} {e : Entity}
    (h : (n, e) ∈ (start s setting random tickSeconds).roster) :
    (start s setting random tickSeconds).entity? n = some e := by
  rw [← start_names s setting random tickSeconds] at hnodup
  obtain ⟨k, hk⟩ := Option.isSome_iff_exists.mp
    (lookup_isSome_iff_mem.mpr (List.mem_map_of_mem (f := Prod.fst) h))
  obtain rfl : e = k :=
    congrArg Prod.snd (List.inj_on_of_nodup_map hnodup h (mem_roster_of_entity? hk) rfl)
  exact hk

/-- An encounter in which every name of a scenario has a bearer of its own and nobody else is
present. Each bearer has the parts that its template asks for and no others: only actors have a
controller, and it sleeps. -/
structure IsCastOf (sim : Simulation) (s : Scenario) : Prop where
  named : ∀ n, (sim.entity? n).isSome ↔ n ∈ s.names
  injective : ∀ n m e, sim.entity? n = some e → sim.entity? m = some e → n = m
  present : ∀ e, sim.state.world.contains e = true ↔ ∃ n, sim.entity? n = some e
  actor : ∀ a ∈ s.actors, ∃ e, sim.entity? a.name = some e ∧
    sim.state.world.get? e = some
      { name := a.name
        position := a.position
        allegiance := some ⟨a.faction, a.kinship⟩
        level := a.level
        health := some (.full 100.0)
        controller := some
          { profile := a.profile
            state := .idle
            target := none
            retaliation := ∅
            lastLegacyMode := none
            sinceThink := a.profile.thinkInterval } }
  candidate : ∀ c ∈ s.candidates, ∃ e, sim.entity? c.name = some e ∧
    sim.state.world.get? e = some
      { name := c.name
        position := c.position
        allegiance := some ⟨c.faction, default⟩
        level := c.level
        health := some (.full 100.0)
        targetable := some c.kind.targetable
        passive := c.passiveThreshold
        concealment := if c.hides then some { hides := true, deception := c.deception } else none }

theorem start_isCastOf (hnodup : s.names.Nodup) :
    (start s setting random tickSeconds).IsCastOf s where
  named := entity?_isSome_iff s setting random tickSeconds
  injective _ _ _ := entity?_injective
  present e := by
    rw [start_contains_iff, List.mem_map]
    constructor
    · rintro ⟨⟨n, k⟩, hmem, rfl⟩
      exact ⟨n, entity?_of_mem_roster hnodup hmem⟩
    · rintro ⟨n, hn⟩
      exact ⟨(n, e), mem_roster_of_entity? hn, rfl⟩
  actor a ha := by
    have hname : a.name ∈ s.names := List.mem_append_left _ (List.mem_map_of_mem ha)
    obtain ⟨e, he⟩ := exists_entity? hname
    exact ⟨e, he, get?_of_actor hnodup ha he⟩
  candidate c hc := by
    have hname : c.name ∈ s.names := List.mem_append_right _ (List.mem_map_of_mem hc)
    obtain ⟨e, he⟩ := exists_entity? hname
    exact ⟨e, he, get?_of_candidate hnodup hc he⟩

theorem build_eq_error {fault : ScenarioFault} :
    build s setting random tickSeconds = .error fault ↔ s.fault? = some fault := by
  rw [build_eq]
  cases s.fault? with
  | none => simp
  | some other => simp

/-- A scenario is built exactly when its names are distinct and its script mentions no others. Else
it is refused for the first name that repeats an earlier one, or if there is none, for the first
name of the script that nobody bears. What is built is the cast of the scenario. -/
theorem build_accepts_consistent (s : Scenario) (setting : Setting) (random : RandomSource)
    (tickSeconds : Float32) :
    let built := build s setting random tickSeconds
    ((∃ sim, built = .ok sim) ↔
      s.names.Nodup ∧ ∀ h ∈ s.damage, h.attacker ∈ s.names ∧ h.victim ∈ s.names) ∧
    (∀ n, built = .error (.duplicateName n) ↔ s.IsFirstRepeated n) ∧
    (∀ n, built = .error (.unknownName n) ↔ s.names.Nodup ∧ s.IsFirstUnknown n) ∧
    ∀ sim, built = .ok sim → sim.IsCastOf s := by
  intro built
  have hfaultless : s.fault? = none ↔
      s.names.Nodup ∧ ∀ h ∈ s.damage, h.attacker ∈ s.names ∧ h.victim ∈ s.names := by
    rw [Scenario.fault?_eq_none, Scenario.scriptedNames_known]
  refine ⟨?_, fun n => ?_, fun n => ?_, fun sim hsim => ?_⟩
  · simp only [built, build_eq_ok, exists_and_left, exists_eq', and_true, hfaultless]
  · rw [show built = _ ↔ _ from build_eq_error, Scenario.fault?_eq_duplicateName]
  · rw [show built = _ ↔ _ from build_eq_error, Scenario.fault?_eq_unknownName]
  · obtain ⟨hfault, rfl⟩ := build_eq_ok.mp hsim
    exact start_isCastOf (hfaultless.mp hfault).1

/-- An orc, a rogue in hiding and a shrine that is hard to overlook. -/
def pilgrimage : Scenario where
  actors := [{ name := "orc", position := ⟨0.0, 0.0, 0.0⟩ }]
  candidates :=
    [{ name := "rogue", position := ⟨3.0, 0.0, 0.0⟩, hides := true, deception := 40 },
      { name := "shrine", position := ⟨5.0, 0.0, 0.0⟩, kind := .objective,
        passiveThreshold := some 60 }]
  damage := [⟨1, "rogue", "orc", 12⟩]

theorem pilgrimage_is_built :
    ∃ sim, build pilgrimage {} (.cycle [0]) 1.0 = .ok sim ∧
      (∃ e c, sim.entity? "rogue" = some e ∧ sim.state.world.get? e = some c ∧
        c.concealment = some { hides := true, deception := 40 } ∧ c.passive = none ∧
        c.controller = none) ∧
      ∃ e c, sim.entity? "shrine" = some e ∧ sim.state.world.get? e = some c ∧
        c.concealment = none ∧ c.passive = some 60 ∧ c.controller = none := by
  obtain ⟨haccepts, -, -, hcast⟩ := build_accepts_consistent pilgrimage {} (.cycle [0]) 1.0
  obtain ⟨sim, hsim⟩ := haccepts.mpr ⟨by decide, by decide⟩
  obtain ⟨rogue, hrogue, hparts⟩ := (hcast sim hsim).candidate _ (.head _)
  obtain ⟨shrine, hshrine, hparts'⟩ := (hcast sim hsim).candidate _ (.tail _ (.head _))
  exact ⟨sim, hsim, ⟨rogue, _, hrogue, hparts, rfl, rfl, rfl⟩,
    ⟨shrine, _, hshrine, hparts', rfl, rfl, rfl⟩⟩

end Simulation

end Hostility
