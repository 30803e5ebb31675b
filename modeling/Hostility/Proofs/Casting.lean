import Mathlib.Data.List.Nodup
import Hostility.Proofs.Newcomers
import Hostility.Simulation.Basic

/-!
Who plays in a scenario. Everyone enters under a handle of its own with the parts of its template,
so the roster of a scenario whose names are pairwise distinct leads from every name to its bearer.

An encounter is built in three loops that share one roster. What they come to can be said without
them: the first fault of the scenario if it has any, and else its start, in which all have entered.
-/
namespace Hostility

variable {α : Type} {w : World}

namespace Scenario

/-- All names in the order in which their bearers enter the world. -/
def names (s : Scenario) : List String := s.actors.map (·.name) ++ s.candidates.map (·.name)

/-- The names in the script, the attacker's before the victim's. -/
def scriptedNames (s : Scenario) : List String := s.damage.flatMap fun h => [h.attacker, h.victim]

end Scenario

/-- The first member of a list that is among `seen` or repeats an earlier one. -/
def firstRepeated (seen : List String) : List String → Option String
  | [] => none
  | n :: rest => if n ∈ seen then some n else firstRepeated (n :: seen) rest

/-- The first member of a list that is not among `known`. -/
def firstUnknown (known : List String) (asked : List String) : Option String :=
  asked.find? fun n => !known.contains n

/-- The fault of a scenario: a repeated name before an unknown one. -/
def Scenario.fault? (s : Scenario) : Option ScenarioFault :=
  match firstRepeated [] s.names with
  | some name => some (.duplicateName name)
  | none => (firstUnknown s.names s.scriptedNames).map .unknownName

/-- Lets newcomers enter a world one after the other. -/
def World.enterAll {α : Type} (enter : α → World → Entity × World) :
    List α → World → List Entity × World
  | [], w => ([], w)
  | a :: rest, w =>
    let (e, w) := enter a w
    let (others, w) := enterAll enter rest w
    (e :: others, w)

/-- A scripted hit between members of a roster. -/
def ScriptedHit.plan? (roster : List (String × Entity)) (h : ScriptedHit) : Option PlannedHit := do
  return ⟨h.tick, ← roster.lookup h.attacker, ← roster.lookup h.victim, h.amount⟩

namespace Simulation

/-- The encounter of a scenario before its first tick, at the start of the clock. -/
def start (s : Scenario) (setting : Setting) (random : RandomSource) (tickSeconds : Float32) :
    Simulation :=
  let (actors, w) := World.enterAll (fun a w => w.spawn a.parts) s.actors .empty
  let (candidates, w) := World.enterAll CandidateTemplate.enter s.candidates w
  let roster := s.names.zip (actors ++ candidates)
  { setting
    tickSeconds
    roster
    actors
    script := s.damage.filterMap (·.plan? roster)
    tick := 0
    state := ⟨w, random, 0, ∅⟩
    queue := [] }

end Simulation

/-- A newcomer enters under a new handle with its parts, and nobody else changes. -/
structure World.Admits (enter : α → World → Entity × World) (parts : α → Components) : Prop where
  fresh : ∀ a (w : World), w.contains (enter a w).1 = false
  get?_enter : ∀ a (w : World) e,
    (enter a w).2.get? e = if e = (enter a w).1 then some (parts a) else w.get? e

/-- A world in which some newcomers have taken their handles. -/
structure World.Admitted (w : World) (parts : α → Components) (newcomers : List α)
    (taken : List Entity) (w' : World) : Prop where
  length : taken.length = newcomers.length
  nodup : taken.Nodup
  fresh : ∀ e ∈ taken, w.contains e = false
  others : ∀ e, e ∉ taken → w'.get? e = w.get? e
  own : ∀ a e, (a, e) ∈ newcomers.zip taken → w'.get? e = some (parts a)

namespace World

theorem not_contains_spawn (w : World) (c : Components) : w.contains (w.spawn c).1 = false := by
  rw [Bool.eq_false_iff]
  exact fun hcontains => not_unborn_of_contains hcontains (unborn_spawn w c)

theorem admits_spawn (parts : α → Components) : Admits (fun a w => w.spawn (parts a)) parts where
  fresh a w := not_contains_spawn w (parts a)
  get?_enter a w e := get?_spawn w (parts a) e

namespace Admitted

variable {parts : α → Components} {newcomers : List α} {taken : List Entity} {w' : World}

theorem contains (h : w.Admitted parts newcomers taken w') {e : Entity} (he : e ∈ taken) :
    w'.contains e = true := by
  have hpairs := List.map_snd_zip (Nat.le_of_eq h.length)
  rw [← hpairs, List.mem_map] at he
  obtain ⟨⟨a, k⟩, hmem, rfl⟩ := he
  rw [World.contains, h.own _ _ hmem]
  rfl

end Admitted

@[simp] theorem length_enterAll (enter : α → World → Entity × World) (newcomers : List α)
    (w : World) : (enterAll enter newcomers w).1.length = newcomers.length := by
  induction newcomers generalizing w with
  | nil => rfl
  | cons a rest ih => exact congrArg (· + 1) (ih _)

theorem enterAll_admitted {enter : α → World → Entity × World} {parts : α → Components}
    (h : Admits enter parts) (newcomers : List α) (w : World) :
    w.Admitted parts newcomers (enterAll enter newcomers w).1 (enterAll enter newcomers w).2 := by
  induction newcomers generalizing w with
  | nil => exact ⟨rfl, .nil, by simp [enterAll], fun _ _ => rfl, by simp [enterAll]⟩
  | cons a rest ih =>
    let e := (enter a w).1
    have hrest := ih (enter a w).2
    show w.Admitted parts (a :: rest) (e :: (enterAll enter rest (enter a w).2).1)
      (enterAll enter rest (enter a w).2).2
    have hown : (enter a w).2.get? e = some (parts a) := by rw [h.get?_enter, if_pos rfl]
    have hnew : e ∉ (enterAll enter rest (enter a w).2).1 := by
      intro he
      have hfresh := hrest.fresh e he
      rw [World.contains, hown] at hfresh
      cases hfresh
    refine ⟨length_enterAll enter (a :: rest) w, List.nodup_cons.mpr ⟨hnew, hrest.nodup⟩,
      fun k hk => ?_, fun k hk => ?_, fun b k hk => ?_⟩
    · rcases List.mem_cons.mp hk with rfl | hk
      · exact h.fresh a w
      · have hne : k ≠ e := by
          rintro rfl
          exact hnew hk
        have hfresh := hrest.fresh k hk
        rwa [World.contains, h.get?_enter, if_neg hne] at hfresh
    · obtain ⟨hne, hk⟩ := List.ne_and_not_mem_of_not_mem_cons hk
      rw [hrest.others k hk, h.get?_enter, if_neg hne]
    · rw [List.zip_cons_cons, List.mem_cons, Prod.mk.injEq] at hk
      rcases hk with ⟨rfl, rfl⟩ | hk
      · rw [hrest.others e hnew, hown]
      · exact hrest.own b k hk

end World

/-- The parts of a candidate once it has entered. -/
def CandidateTemplate.allParts (c : CandidateTemplate) : Components :=
  { c.parts with
    passive := c.passiveThreshold
    concealment := if c.hides then some (.ofHiding c.deception) else none }

theorem CandidateTemplate.admits_enter : World.Admits enter allParts where
  fresh c w := by
    unfold enter
    cases c.passiveThreshold <;> cases c.hides <;> exact World.not_contains_spawn w c.parts
  get?_enter c w e := by
    unfold enter allParts
    by_cases he : e = (w.spawn c.parts).1
    · cases c.passiveThreshold <;> cases c.hides <;>
        simp [World.get?_update, World.get?_spawn, he, parts]
    · cases c.passiveThreshold <;> cases c.hides <;>
        simp [World.get?_update, World.get?_spawn, he]

theorem firstRepeated_eq_none {names seen : List String} :
    firstRepeated seen names = none ↔ names.Nodup ∧ ∀ n ∈ names, n ∉ seen := by
  induction names generalizing seen with
  | nil => simp [firstRepeated]
  | cons n rest ih =>
    unfold firstRepeated
    split
    · next hseen => simp [hseen]
    · next hnew =>
      rw [ih]
      grind

theorem firstUnknown_eq_none {known asked : List String} :
    firstUnknown known asked = none ↔ ∀ n ∈ asked, n ∈ known := by
  simp [firstUnknown]

theorem Scenario.fault?_eq_none {s : Scenario} :
    s.fault? = none ↔ s.names.Nodup ∧ ∀ n ∈ s.scriptedNames, n ∈ s.names := by
  unfold fault?
  cases hrepeated : firstRepeated [] s.names with
  | some name =>
    have hnot : ¬ s.names.Nodup := fun hnodup => by
      rw [firstRepeated_eq_none.mpr ⟨hnodup, by simp⟩] at hrepeated
      cases hrepeated
    simp [hnot]
  | none =>
    have hnodup := (firstRepeated_eq_none.mp hrepeated).1
    simp [hnodup, firstUnknown_eq_none]

theorem firstUnknown_cons {known asked : List String} {n : String} :
    firstUnknown known (n :: asked) = if n ∈ known then firstUnknown known asked else some n := by
  by_cases hknown : n ∈ known <;> simp [firstUnknown, hknown]

theorem firstRepeated_append {seen names others : List String} :
    firstRepeated seen (names ++ others) =
      (firstRepeated seen names).or (firstRepeated (names.reverse ++ seen) others) := by
  induction names generalizing seen with
  | nil => rfl
  | cons n rest ih =>
    simp only [List.cons_append, firstRepeated]
    split
    · rfl
    · rw [ih, List.reverse_cons, List.append_assoc, List.singleton_append]

theorem lookup_isSome_iff_mem {roster : List (String × Entity)} {n : String} :
    (roster.lookup n).isSome ↔ n ∈ roster.map (·.1) := by
  simp [List.lookup_isSome_iff, List.mem_map, beq_iff_eq, @eq_comm _ n]

/-- Newcomers are enrolled up to the first whose name is on the roster or repeats an earlier one.
The names on the roster may be listed in any order. -/
theorem enrol_eq {name : α → String} {enter : α → World → Entity × World} {newcomers : List α}
    {roster : List (String × Entity)} (seen : List String)
    (hseen : ∀ n, n ∈ seen ↔ n ∈ roster.map (·.1)) :
    enrol name enter newcomers roster w =
      match firstRepeated seen (newcomers.map name) with
      | some n => .error (.duplicateName n)
      | none =>
        let (taken, w') := World.enterAll enter newcomers w
        .ok (roster ++ (newcomers.map name).zip taken, w') := by
  induction newcomers generalizing roster seen w with
  | nil => simp [enrol, firstRepeated, World.enterAll]
  | cons a rest ih =>
    simp only [enrol, lookup_isSome_iff_mem, ← hseen, List.map_cons, firstRepeated]
    split
    · rfl
    · rw [ih (name a :: seen) (by simp [hseen, or_comm])]
      simp [World.enterAll]

/-- The script is read up to the first name that is not on the roster. -/
theorem mapM_plan (roster : List (String × Entity)) (hits : List ScriptedHit) :
    hits.mapM (·.plan roster) =
      match firstUnknown (roster.map (·.1)) (hits.flatMap fun h => [h.attacker, h.victim]) with
      | some n => .error (.unknownName n)
      | none => .ok (hits.filterMap (·.plan? roster)) := by
  induction hits with
  | nil => rfl
  | cons h rest ih =>
    have hmem (n : String) : n ∈ roster.map (·.1) ↔ (roster.lookup n).isSome :=
      lookup_isSome_iff_mem.symm
    rw [List.mapM_cons, ih]
    simp only [List.flatMap_cons, List.cons_append, List.nil_append, firstUnknown_cons, hmem,
      List.filterMap_cons, ScriptedHit.plan, ScriptedHit.plan?, bearer]
    cases roster.lookup h.attacker with
    | none => rfl
    | some attacker =>
      cases roster.lookup h.victim with
      | none => rfl
      | some victim =>
        cases firstUnknown (roster.map (·.1)) (rest.flatMap fun h => [h.attacker, h.victim]) with
        | none => rfl
        | some n => rfl

namespace Simulation

/-- A scenario with a fault is refused for it; any other is built as it starts. -/
theorem build_eq (s : Scenario) (setting : Setting) (random : RandomSource)
    (tickSeconds : Float32) :
    build s setting random tickSeconds =
      match s.fault? with
      | some fault => .error fault
      | none => .ok (start s setting random tickSeconds) := by
  let actors := s.actors.map (·.name)
  let candidates := s.candidates.map (·.name)
  let entered := World.enterAll (fun (a : ActorTemplate) w => w.spawn a.parts) s.actors .empty
  let joined := World.enterAll CandidateTemplate.enter s.candidates entered.2
  have hentered : actors.length = entered.1.length := by simp [actors, entered]
  have hrepeated : firstRepeated [] s.names =
      (firstRepeated [] actors).or (firstRepeated actors.reverse candidates) := by
    rw [Scenario.names, firstRepeated_append, List.append_nil]
  have hactors : (actors.zip entered.1).map (·.1) = actors :=
    List.map_fst_zip (Nat.le_of_eq hentered)
  have hcast : (actors.zip entered.1).map Prod.snd = entered.1 :=
    List.map_snd_zip (Nat.le_of_eq hentered.symm)
  have hroster : actors.zip entered.1 ++ candidates.zip joined.1 =
      s.names.zip (entered.1 ++ joined.1) := (List.zip_append hentered).symm
  have hnames : (s.names.zip (entered.1 ++ joined.1)).map (·.1) = s.names :=
    List.map_fst_zip (by simp [Scenario.names, entered, joined])
  unfold build Scenario.fault?
  rw [hrepeated, enrol_eq [] (by simp)]
  cases hfirst : firstRepeated [] actors with
  | some n => rfl
  | none =>
    show (enrol CandidateTemplate.name CandidateTemplate.enter s.candidates
      (actors.zip entered.1) entered.2 >>= _) = _
    rw [enrol_eq actors.reverse (by simp [hactors])]
    cases firstRepeated actors.reverse candidates with
    | some n => rfl
    | none =>
      show (s.damage.mapM (·.plan (actors.zip entered.1 ++ candidates.zip joined.1)) >>= _) = _
      rw [mapM_plan, hroster, hnames, ← Scenario.scriptedNames]
      cases firstUnknown s.names s.scriptedNames with
      | some n => rfl
      | none =>
        show Except.ok { start s setting random tickSeconds with
          actors := (actors.zip entered.1).map Prod.snd } = _
        rw [hcast]
        rfl

/-- A scenario without fault is built as it starts. -/
theorem build_eq_ok {s : Scenario} {setting : Setting} {random : RandomSource}
    {tickSeconds : Float32} {sim : Simulation} :
    build s setting random tickSeconds = .ok sim ↔
      s.fault? = none ∧ start s setting random tickSeconds = sim := by
  rw [build_eq]
  cases s.fault? with
  | none => simp
  | some fault => simp

section Roster

variable (s : Scenario) (setting : Setting) (random : RandomSource) (tickSeconds : Float32)

theorem start_admitted :
    let sim := start s setting random tickSeconds
    ∃ w candidates, World.empty.Admitted ActorTemplate.parts s.actors sim.actors w ∧
      w.Admitted CandidateTemplate.allParts s.candidates candidates sim.state.world ∧
      sim.roster = s.names.zip (sim.actors ++ candidates) ∧
      (sim.actors ++ candidates).length = s.names.length := by
  intro sim
  refine ⟨_, _, World.enterAll_admitted (World.admits_spawn ActorTemplate.parts) s.actors .empty,
    World.enterAll_admitted CandidateTemplate.admits_enter s.candidates _, rfl, ?_⟩
  simp [sim, start, Scenario.names]

/-- No two on the roster are the same. -/
theorem start_roster_nodup : ((start s setting random tickSeconds).roster.map (·.2)).Nodup := by
  obtain ⟨w, candidates, hactors, hcandidates, hroster, hlength⟩ :=
    start_admitted s setting random tickSeconds
  rw [hroster, List.map_snd_zip (Nat.le_of_eq hlength)]
  refine List.nodup_append.mpr ⟨hactors.nodup, hcandidates.nodup, fun e he k hk => ?_⟩
  rintro rfl
  have hfresh := hcandidates.fresh e hk
  rw [hactors.contains he] at hfresh
  cases hfresh

theorem start_names : (start s setting random tickSeconds).roster.map (·.1) = s.names := by
  obtain ⟨w, candidates, -, -, hroster, hlength⟩ := start_admitted s setting random tickSeconds
  rw [hroster, List.map_fst_zip (Nat.le_of_eq hlength.symm)]

end Roster

variable {s : Scenario} {setting : Setting} {random : RandomSource} {tickSeconds : Float32}
  {name other : String} {e : Entity}

theorem mem_roster_of_entity? {sim : Simulation} (h : sim.entity? name = some e) :
    (name, e) ∈ sim.roster := by
  obtain ⟨before, after, hroster, -⟩ := List.lookup_eq_some_iff.mp h
  rw [hroster]
  simp

theorem exists_entity? (h : name ∈ s.names) :
    ∃ e, (start s setting random tickSeconds).entity? name = some e := by
  rw [← start_names s setting random tickSeconds, List.mem_map] at h
  obtain ⟨p, hp, rfl⟩ := h
  exact Option.isSome_iff_exists.mp (List.lookup_isSome_iff.mpr ⟨p, hp, by simp⟩)

/-- Different names have different bearers. -/
theorem entity?_injective (h : (start s setting random tickSeconds).entity? name = some e)
    (h' : (start s setting random tickSeconds).entity? other = some e) : name = other := by
  have hsame := List.inj_on_of_nodup_map (start_roster_nodup s setting random tickSeconds)
    (mem_roster_of_entity? h) (mem_roster_of_entity? h') rfl
  exact congrArg Prod.fst hsame

/-- Whoever bears a name is an actor or a candidate of that name, with the parts of its template. -/
theorem entity?_cast (h : (start s setting random tickSeconds).entity? name = some e) :
    let sim := start s setting random tickSeconds
    (∃ a ∈ s.actors, a.name = name ∧ e ∈ sim.actors ∧ sim.state.world.get? e = some a.parts) ∨
      ∃ c ∈ s.candidates, c.name = name ∧ sim.state.world.get? e = some c.allParts := by
  intro sim
  obtain ⟨w, candidates, hactors, hcandidates, hroster, -⟩ :=
    start_admitted s setting random tickSeconds
  have hmem := mem_roster_of_entity? h
  rw [hroster, Scenario.names, List.zip_append (by simp [hactors.length]), List.mem_append,
    List.zip_map_left, List.zip_map_left, List.mem_map, List.mem_map] at hmem
  rcases hmem with ⟨⟨a, k⟩, hcast, hpair⟩ | ⟨⟨c, k⟩, hcast, hpair⟩
  · obtain ⟨rfl, rfl⟩ : a.name = name ∧ k = e := by simpa using hpair
    obtain ⟨ha, hk⟩ := List.of_mem_zip hcast
    refine .inl ⟨a, ha, rfl, hk, ?_⟩
    have hold : k ∉ candidates := by
      intro hcandidate
      have hfresh := hcandidates.fresh k hcandidate
      rw [hactors.contains hk] at hfresh
      cases hfresh
    rw [hcandidates.others k hold]
    exact hactors.own a k hcast
  · obtain ⟨rfl, rfl⟩ : c.name = name ∧ k = e := by simpa using hpair
    exact .inr ⟨c, (List.of_mem_zip hcast).1, rfl, hcandidates.own c k hcast⟩

/-- Everyone with a name is in the world. -/
theorem contains_of_entity? (h : (start s setting random tickSeconds).entity? name = some e) :
    (start s setting random tickSeconds).state.world.contains e = true := by
  rcases entity?_cast h with ⟨a, -, -, -, hget⟩ | ⟨c, -, -, hget⟩
  · rw [World.contains, hget]
    rfl
  · rw [World.contains, hget]
    rfl

/-- The bearer of an actor's name is that actor. -/
theorem get?_of_actor (hnodup : s.names.Nodup) {a : ActorTemplate} (ha : a ∈ s.actors)
    (he : (start s setting random tickSeconds).entity? a.name = some e) :
    (start s setting random tickSeconds).state.world.get? e = some a.parts := by
  obtain ⟨hactors, -, happart⟩ := List.nodup_append.mp hnodup
  rcases entity?_cast he with ⟨a', ha', hname, -, hget⟩ | ⟨c, hc, hname, -⟩
  · rwa [List.inj_on_of_nodup_map hactors ha' ha hname] at hget
  · exact absurd hname.symm (happart _ (List.mem_map_of_mem ha) _ (List.mem_map_of_mem hc))

/-- The bearer of a candidate's name is that candidate. -/
theorem get?_of_candidate (hnodup : s.names.Nodup) {c : CandidateTemplate} (hc : c ∈ s.candidates)
    (he : (start s setting random tickSeconds).entity? c.name = some e) :
    (start s setting random tickSeconds).state.world.get? e = some c.allParts := by
  obtain ⟨-, hcandidates, happart⟩ := List.nodup_append.mp hnodup
  rcases entity?_cast he with ⟨a, ha, hname, -⟩ | ⟨c', hc', hname, hget⟩
  · exact absurd hname (happart _ (List.mem_map_of_mem ha) _ (List.mem_map_of_mem hc))
  · rwa [List.inj_on_of_nodup_map hcandidates hc' hc hname] at hget

end Simulation

end Hostility
