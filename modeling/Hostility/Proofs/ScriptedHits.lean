import Hostility.Config.Validation
import Hostility.Proofs.Beats
import Hostility.Proofs.Casting
import Hostility.Proofs.Ordeals

/-!
Encounters from the first tick on. Nobody in an encounter leaves the world or stops being an actor,
so no tick is refused, and every hit of the script lands in its tick, once and in its order.
-/
namespace Hostility

variable {setting : Setting} {cooldown : Int} {actor : Entity} {s : State} {sim : Simulation}

open Course Hostility.Action

theorem Engine.arriveHome_accepted {c : Controller} (hc : s.world.controller? actor = some c) :
    (arriveHome actor s).result = .ok () := by
  unfold arriveHome
  rw [bind_of_ok (by rw [controllerOf_eq hc]), controllerOf_eq hc]
  dsimp only
  rw [publish_bind, bind_of_ok (by rw [storeController_eq hc]), storeController_eq hc]
  rfl

namespace Simulation

theorem comeHome_accepted (actor : Entity) : (comeHome actor).Accepted := by
  intro s
  unfold comeHome
  rw [world_bind]
  cases hc : s.world.controller? actor with
  | none => exact ⟨(), rfl⟩
  | some c =>
    dsimp only
    cases decide (c.state = .returning) with
    | true => exact ⟨(), Engine.arriveHome_accepted hc⟩
    | false => exact ⟨(), rfl⟩

/-- Hits on people of the world strike, and what else precedes the update hurts nobody. -/
theorem enact_run (setting : Setting) {hits : List PlannedHit}
    (hin : ∀ h ∈ hits, h.InWorld s.world) (actors : List Entity) :
    let enacted := enact setting.tuning hits actors s
    enacted.result = .ok () ∧
      ∀ e, enacted.state.world.ordeal? e = (s.world.ordeal? e).map fun o =>
        hits.foldl (PlannedHit.strike e) o := by
  intro enacted
  obtain ⟨hlanded, hstruck⟩ := forEach_land_run setting.tuning hin
  obtain ⟨_, hhome⟩ := Action.Accepted.forEach comeHome_accepted actors
    (forEach (land setting.tuning) hits s).state
  have hpainless : Follows painless (forEach comeHome actors) :=
    .forEach painless_closed fun actor _ => comeHome_follows (Engine.painless_pieces setting) actor
  have hrun : enacted = _ := bind_of_ok hlanded
  rw [hrun]
  exact ⟨hhome, fun e => (hpainless _ e).trans (hstruck e)⟩

/-- Under a cooldown that is a length of time the engine plays its part to the end. -/
theorem play?_of_cooldown (h : setting.tuning.alertCooldown? = some cooldown)
    {hits : List PlannedHit} (hin : ∀ h ∈ hits, h.InWorld s.world) (actors : List Entity)
    (seconds : Float32) :
    let played := (play? setting hits actors seconds).run s
    (∃ thinkers, played.result = .ok (some thinkers)) ∧
      ∀ e, played.state.world.ordeal? e = (s.world.ordeal? e).map fun o =>
        hits.foldl (PlannedHit.strike e) o := by
  intro played
  let enacted := enact setting.tuning hits actors s
  let updated := Engine.update setting seconds enacted.state
  obtain ⟨hok, hstruck⟩ := enact_run setting hin actors
  have hplayed : played =
      ⟨updated.result.map some, updated.state, enacted.events ++ updated.events⟩ := by
    show (play? setting hits actors seconds).run s = _
    rw [play?_run, bind_of_ok hok, Engine.update?_eq h, lift_run]
  have hupdated : updated = _ := Engine.update_run setting seconds enacted.state
  have hpainless := (Engine.painless_pieces setting).update seconds enacted.state
  rw [hplayed]
  exact ⟨⟨_, by rw [hupdated]; rfl⟩, fun e => (hpainless e).trans (hstruck e)⟩

/-- Without a cooldown the engine panics in its update. -/
theorem play?_of_none (h : setting.tuning.alertCooldown? = none) {hits : List PlannedHit}
    (hin : ∀ h ∈ hits, h.InWorld s.world) (actors : List Entity) (seconds : Float32) :
    ((play? setting hits actors seconds).run s).result = .ok none := by
  obtain ⟨hok, -⟩ := enact_run setting hin actors
  rw [play?_run, bind_of_ok hok, Engine.update?_of_none h]

/-- Everyone in the script is in the world. -/
def Manned (sim : Simulation) : Prop := ∀ h ∈ sim.script, h.InWorld sim.state.world

theorem mem_script_of_mem_dueHits {h : PlannedHit} (hdue : h ∈ sim.dueHits) : h ∈ sim.script :=
  (List.mem_filter.mp hdue).1

theorem Manned.congr {state : State} {f : Entity → Ordeal → Ordeal} (h : sim.Manned)
    (hstruck : ∀ e, state.world.ordeal? e = (sim.state.world.ordeal? e).map (f e)) :
    ∀ hit ∈ sim.script, hit.InWorld state.world :=
  fun hit hhit => (h hit hhit).congr (World.contains_eq_of_ordeal? hstruck)

/-- The hits of a script from one tick on, for some ticks. -/
def hitsFrom (script : List PlannedHit) (tick ticks : Nat) : List PlannedHit :=
  (List.range' tick ticks).flatMap fun k => script.filter fun h => h.tick == k

theorem dueHits_inWorld (h : sim.Manned) : ∀ hit ∈ sim.dueHits, hit.InWorld sim.state.world :=
  fun hit hhit => h hit (mem_script_of_mem_dueHits hhit)

theorem play?_now (setting : Setting) (hits : List PlannedHit) (actors : List Entity)
    (seconds : Float32) (s : State) :
    ((play? setting hits actors seconds).run s).state.now = s.now :=
  play?_follows (timeless_pieces setting) (fun _ _ _ => rfl) timeless_spends hits actors seconds s

/-- A tick whose engine played its part to the end only needs the clock. -/
theorem step_of_played {thinkers : Nat} {state : State} {events : List Event}
    (hplayed : (play? sim.setting sim.dueHits sim.actors sim.tickSeconds).run sim.state =
      ⟨.ok (some thinkers), state, events⟩) :
    sim.step =
      if Clock.Shows (sim.state.now + sim.tickLength) then
        (.ok ⟨sim.tick, thinkers, sim.queue ++ events⟩,
          { sim with
            tick := sim.tick + 1
            state := { state with now := sim.state.now + sim.tickLength }
            queue := [] })
      else (.error (.panicked .clock), { sim with state, queue := sim.queue ++ events }) := by
  have hnow := play?_now sim.setting sim.dueHits sim.actors sim.tickSeconds sim.state
  rw [hplayed] at hnow
  unfold step
  rw [hplayed]
  dsimp only at hnow ⊢
  by_cases hclock : Clock.Shows (sim.state.now + sim.tickLength)
  · rw [hnow, Clock.advance?_of_shows hclock, if_pos hclock]
  · rw [hnow, Clock.advance?_of_not_shows hclock, if_neg hclock]

/-- Under a cooldown that is a length of time a tick comes to its end, if the clock goes on. -/
theorem step_cases (hcooldown : sim.setting.tuning.alertCooldown? = some cooldown)
    (h : sim.Manned) :
    (¬Clock.Shows (sim.state.now + sim.tickLength) ∧ sim.step.1 = .error (.panicked .clock)) ∨
    ∃ report state,
      sim.step = (.ok report, { sim with tick := sim.tick + 1, state, queue := [] }) ∧
      report.tick = sim.tick ∧ state.now = sim.state.now + sim.tickLength ∧
      ∀ e, state.world.ordeal? e = (sim.state.world.ordeal? e).map fun o =>
        sim.dueHits.foldl (PlannedHit.strike e) o := by
  obtain ⟨⟨thinkers, hok⟩, hstruck⟩ :=
    play?_of_cooldown hcooldown (dueHits_inWorld h) sim.actors sim.tickSeconds
  let played := (play? sim.setting sim.dueHits sim.actors sim.tickSeconds).run sim.state
  have hplayed : played = ⟨.ok (some thinkers), played.state, played.events⟩ := by rw [← hok]
  have hstep := step_of_played hplayed
  by_cases hclock : Clock.Shows (sim.state.now + sim.tickLength)
  · rw [if_pos hclock] at hstep
    exact .inr ⟨_, _, hstep, rfl, rfl, hstruck⟩
  · rw [if_neg hclock] at hstep
    exact .inl ⟨hclock, congrArg Prod.fst hstep⟩

/-- Without a cooldown no tick comes to its end. -/
theorem step_panics (hcooldown : sim.setting.tuning.alertCooldown? = none) (h : sim.Manned) :
    sim.step.1 = .error (.panicked .cooldown) := by
  let played := (play? sim.setting sim.dueHits sim.actors sim.tickSeconds).run sim.state
  have hresult : played.result = .ok none :=
    play?_of_none hcooldown (dueHits_inWorld h) sim.actors sim.tickSeconds
  have hplayed : played = ⟨.ok none, played.state, played.events⟩ := by rw [← hresult]
  unfold step
  rw [show (play? sim.setting sim.dueHits sim.actors sim.tickSeconds).run sim.state = _
    from hplayed]

/-- A manned encounter runs for any number of ticks that its clock can show, and all hits of these
ticks strike. -/
theorem run_run (hcooldown : sim.setting.tuning.alertCooldown? = some cooldown) (h : sim.Manned)
    {ticks : Nat} (hclock : ∀ k ≤ ticks, Clock.Shows (sim.state.now + k * sim.tickLength)) :
    ∃ reports state queue,
      sim.run ticks = (.ok reports, { sim with tick := sim.tick + ticks, state, queue }) ∧
      reports.map (·.tick) = List.range' sim.tick ticks ∧
      ∀ e, state.world.ordeal? e = (sim.state.world.ordeal? e).map fun o =>
        (hitsFrom sim.script sim.tick ticks).foldl (PlannedHit.strike e) o := by
  induction ticks generalizing sim with
  | zero => exact ⟨[], sim.state, sim.queue, rfl, rfl, fun e => (Option.map_id' ..).symm⟩
  | succ ticks ih =>
    have hfirst : Clock.Shows (sim.state.now + sim.tickLength) := by
      simpa using hclock 1 (by omega)
    obtain ⟨report, state, hstep, htick, hnow, hstruck⟩ :=
      (step_cases hcooldown h).resolve_left fun hstopped => hstopped.1 hfirst
    let next : Simulation := { sim with tick := sim.tick + 1, state, queue := [] }
    have hmanned : next.Manned := h.congr hstruck
    have hsetting : next.setting.tuning.alertCooldown? = some cooldown := hcooldown
    have hlater : ∀ k ≤ ticks, Clock.Shows (next.state.now + k * next.tickLength) := by
      intro k hk
      have hsplit : next.state.now + k * next.tickLength =
          sim.state.now + (k + 1 : Nat) * sim.tickLength := by
        show state.now + k * sim.tickLength = _
        rw [hnow, Int.natCast_add, Int.add_mul]
        omega
      rw [hsplit]
      exact hclock (k + 1) (by omega)
    obtain ⟨reports, last, queue, hrun, hticks, hlast⟩ := ih hsetting hmanned hlater
    refine ⟨report :: reports, last, queue, ?_, ?_, fun e => (hlast e).trans ?_⟩
    · unfold run
      rw [hstep]
      dsimp only
      rw [hrun]
      simp [next, Except.map, Nat.add_assoc, Nat.add_comm 1]
    · rw [List.map_cons, htick, hticks]
      rfl
    · rw [hstruck, Option.map_map]
      congr 1
      funext o
      show (hitsFrom _ _ _).foldl _ (sim.dueHits.foldl _ o) = _
      rw [← List.foldl_append]
      rfl

theorem run_of_error {fault : TickFault} (hstep : sim.step.1 = .error fault) (ticks : Nat) :
    sim.run (ticks + 1) = (.error fault, sim.step.2) := by
  unfold run
  revert hstep
  rcases sim.step with ⟨_ | report, next⟩
  · exact fun hstep => congrArg (·, next) (congrArg Except.error (Except.error.inj hstep))
  · exact fun hstep => nomatch hstep

theorem run_panics (hcooldown : sim.setting.tuning.alertCooldown? = none) (h : sim.Manned)
    {ticks : Nat} (hticks : 0 < ticks) : (sim.run ticks).1 = .error (.panicked .cooldown) := by
  obtain ⟨rest, rfl⟩ : ∃ rest, ticks = rest + 1 := ⟨ticks - 1, by omega⟩
  rw [run_of_error (step_panics hcooldown h)]

end Simulation

def World.IsBystander (w : World) (e : Entity) : Prop :=
  ∀ o, w.ordeal? e = some o → o.isActor = false

theorem World.IsBystander.controller?_eq {w : World} {e : Entity} (h : w.IsBystander e) :
    w.controller? e = none := by
  cases hc : w.get? e with
  | none => rw [controller?, hc, Option.bind_none]
  | some c =>
    have hactor := h c.ordeal (by rw [ordeal?, hc, Option.map_some])
    rw [controller?, hc]
    simpa [Components.ordeal] using hactor

theorem PlannedHit.isActor_foldl_strike (e : Entity) (hits : List PlannedHit) (o : Ordeal) :
    (hits.foldl (strike e) o).isActor = o.isActor := by
  induction hits generalizing o with
  | nil => rfl
  | cons h hits ih =>
    rw [List.foldl_cons, ih]
    unfold strike
    split <;> rfl

/-- Hits make nobody an actor. -/
theorem World.IsBystander.congr {w w' : World} {e : Entity} (h : w.IsBystander e)
    (hits : List PlannedHit)
    (hstruck : w'.ordeal? e = (w.ordeal? e).map fun o => hits.foldl (PlannedHit.strike e) o) :
    w'.IsBystander e := by
  intro o ho
  rw [hstruck] at ho
  obtain ⟨old, hold, rfl⟩ := Option.map_eq_some_iff.mp ho
  rw [PlannedHit.isActor_foldl_strike]
  exact h old hold

namespace Simulation

/-- Hits on bystanders may be left out. -/
theorem forEach_land_filter (t : Tuning) (p : PlannedHit → Bool) {hits : List PlannedHit}
    (hin : ∀ h ∈ hits, h.InWorld s.world)
    (hspared : ∀ h ∈ hits, p h = false → s.world.IsBystander h.victim) :
    forEach (land t) (hits.filter p) s = forEach (land t) hits s := by
  induction hits generalizing s with
  | nil => rfl
  | cons h hits ih =>
    obtain ⟨hok, hstruck⟩ := land_run t (hin h (by simp))
    have hcontains := World.contains_eq_of_ordeal? hstruck
    have hrest := ih (s := (land t h s).state)
      (fun h' hh' => (hin h' (by simp [hh'])).congr hcontains)
      fun h' hh' hp => (hspared h' (by simp [hh']) hp).congr [h] (hstruck _)
    have hrun : forEach (land t) (h :: hits) s = _ := bind_of_ok hok
    rw [hrun, ← hrest]
    cases hp : p h with
    | true =>
      rw [List.filter_cons_of_pos hp]
      exact bind_of_ok hok
    | false =>
      rw [List.filter_cons_of_neg (by simp [hp]),
        land_of_no_actor t (hin h (by simp)).victim (hspared h (by simp) hp).controller?_eq]
      rfl

/-- The encounter without the hits that `p` refuses. -/
def sparing (p : PlannedHit → Bool) (sim : Simulation) : Simulation :=
  { sim with script := sim.script.filter p }

theorem step_sparing (p : PlannedHit → Bool) (h : sim.Manned)
    (hspared : ∀ hit ∈ sim.script, p hit = false → sim.state.world.IsBystander hit.victim) :
    (sim.sparing p).step = (sim.step.1, sim.step.2.sparing p) := by
  let spared := sim.sparing p
  have hdue : spared.dueHits = sim.dueHits.filter p := List.filter_comm ..
  have hplayed : (play? spared.setting spared.dueHits spared.actors spared.tickSeconds).run
        spared.state =
      (play? sim.setting sim.dueHits sim.actors sim.tickSeconds).run sim.state := by
    have hlanded := forEach_land_filter sim.setting.tuning p (dueHits_inWorld h)
      fun hit hhit => hspared hit (mem_script_of_mem_dueHits hhit)
    have henacted : enact sim.setting.tuning spared.dueHits sim.actors sim.state =
        enact sim.setting.tuning sim.dueHits sim.actors sim.state := by
      show Action.bind (forEach (land sim.setting.tuning) spared.dueHits) _ sim.state = _
      unfold Action.bind
      rw [hdue, hlanded]
      rfl
    show (play? sim.setting spared.dueHits sim.actors sim.tickSeconds).run sim.state = _
    rw [play?_run, play?_run, bind_run, bind_run, henacted]
  unfold step
  rw [hplayed]
  rcases (play? sim.setting sim.dueHits sim.actors sim.tickSeconds).run sim.state with
    ⟨_ | _ | thinkers, state, events⟩
  · rfl
  · rfl
  · have hlength : (sim.sparing p).tickLength = sim.tickLength := rfl
    dsimp only
    rw [hlength]
    cases Clock.advance? state.now sim.tickLength <;> rfl

theorem run_sparing (p : PlannedHit → Bool) (h : sim.Manned)
    (hspared : ∀ hit ∈ sim.script, p hit = false → sim.state.world.IsBystander hit.victim)
    (ticks : Nat) :
    (sim.sparing p).run ticks = ((sim.run ticks).1, (sim.run ticks).2.sparing p) := by
  induction ticks generalizing sim with
  | zero => rfl
  | succ ticks ih =>
    have hsame := step_sparing p h hspared
    have hstopped {fault : TickFault} (hstep : sim.step.1 = .error fault) :
        (sim.sparing p).run (ticks + 1) =
          ((sim.run (ticks + 1)).1, (sim.run (ticks + 1)).2.sparing p) := by
      have hstep' : (sim.sparing p).step.1 = .error fault := by rw [hsame, hstep]
      rw [run_of_error hstep, run_of_error hstep', hsame]
    cases hcooldown : sim.setting.tuning.alertCooldown? with
    | none => exact hstopped (step_panics hcooldown h)
    | some cooldown =>
      obtain ⟨-, hstep⟩ | ⟨report, state, hstep, -, -, hstruck⟩ := step_cases hcooldown h
      · exact hstopped hstep
      · have hmanned : Manned { sim with tick := sim.tick + 1, state, queue := [] } :=
          h.congr hstruck
        have hrest := ih hmanned
          fun hit hhit hp => (hspared hit hhit hp).congr sim.dueHits (hstruck _)
        unfold run
        rw [hsame, hstep]
        dsimp only
        rw [hrest]

end Simulation

/-- The scripted hits on a name in the first ticks: tick by tick, in the order of the script. -/
def Scenario.hitsOn (s : Scenario) (name : String) (ticks : Nat) : List ScriptedHit :=
  (List.range ticks).flatMap fun k => s.damage.filter fun h => h.tick == k && h.victim == name

/-- An actor suffers the hits on it. -/
theorem PlannedHit.foldl_strike {o : Ordeal} (hactor : o.isActor = true) (e : Entity)
    (hits : List PlannedHit) :
    hits.foldl (strike e) o =
      ((hits.filter fun h => h.victim == e).map fun h => (h.attacker, h.amount)).foldl
        Ordeal.suffer o := by
  induction hits generalizing o with
  | nil => rfl
  | cons h hits ih =>
    rw [List.foldl_cons, strike]
    by_cases he : h.victim = e
    · rw [if_pos ⟨he, hactor⟩, ih (o := o.suffer (h.attacker, h.amount)) hactor,
        List.filter_cons_of_pos (by simp [he])]
      rfl
    · rw [if_neg fun hboth => he hboth.1, ih hactor, List.filter_cons_of_neg (by simp [he])]

namespace Simulation

section Build

variable {scenario : Scenario} {random : RandomSource} {tickSeconds : Float32} {name : String}
  {e : Entity}

/-- A hit between names of the scenario is planned between their bearers. -/
theorem plan?_of_known {h : ScriptedHit} (hattacker : h.attacker ∈ scenario.names)
    (hvictim : h.victim ∈ scenario.names) :
    let sim := start scenario setting random tickSeconds
    ∃ attacker victim, sim.entity? h.attacker = some attacker ∧
      sim.entity? h.victim = some victim ∧
      h.plan? sim.roster = some ⟨h.tick, attacker, victim, h.amount⟩ := by
  intro sim
  obtain ⟨attacker, hattacker⟩ : ∃ e, sim.entity? h.attacker = some e := exists_entity? hattacker
  obtain ⟨victim, hvictim⟩ : ∃ e, sim.entity? h.victim = some e := exists_entity? hvictim
  refine ⟨attacker, victim, hattacker, hvictim, ?_⟩
  unfold entity? at hattacker hvictim
  simp [ScriptedHit.plan?, sim, hattacker, hvictim]

theorem filter_planned (hknown : ∀ n ∈ scenario.scriptedNames, n ∈ scenario.names)
    (he : (start scenario setting random tickSeconds).entity? name = some e) (k : Nat) :
    let sim := start scenario setting random tickSeconds
    ((sim.script.filter fun h => h.tick == k).filter fun h => h.victim == e).map
        (fun h => (some h.attacker, h.amount)) =
      (scenario.damage.filter fun h => h.tick == k && h.victim == name).map
        fun h => (sim.entity? h.attacker, h.amount) := by
  intro sim
  have hplanned : ∀ h ∈ scenario.damage,
      h.attacker ∈ scenario.names ∧ h.victim ∈ scenario.names := by
    intro h hh
    constructor
    · exact hknown _ (List.mem_flatMap.mpr ⟨h, hh, by simp⟩)
    · exact hknown _ (List.mem_flatMap.mpr ⟨h, hh, by simp⟩)
  show (((scenario.damage.filterMap (·.plan? sim.roster)).filter _).filter _).map _ = _
  generalize scenario.damage = hits at hplanned ⊢
  induction hits with
  | nil => rfl
  | cons h hits ih =>
    obtain ⟨attacker, victim, hattacker, hvictim, hplan⟩ :
        ∃ attacker victim, sim.entity? h.attacker = some attacker ∧
          sim.entity? h.victim = some victim ∧
          h.plan? sim.roster = some ⟨h.tick, attacker, victim, h.amount⟩ :=
      plan?_of_known (hplanned h (by simp)).1 (hplanned h (by simp)).2
    have hsame : (victim == e) = (h.victim == name) := by
      rw [Bool.eq_iff_iff, beq_iff_eq, beq_iff_eq]
      constructor
      · rintro rfl
        exact entity?_injective hvictim he
      · rintro rfl
        exact Option.some.inj (hvictim.symm.trans he)
    have hrest := ih fun h' hh' => hplanned h' (by simp [hh'])
    rw [List.filterMap_cons_some hplan]
    cases htick : h.tick == k with
    | false => simpa [List.filter_cons, htick] using hrest
    | true =>
      cases hon : h.victim == name with
      | false => simpa [List.filter_cons, htick, hsame, hon] using hrest
      | true => simpa [List.filter_cons, htick, hsame, hon, hattacker] using hrest

theorem filter_hitsFrom (hknown : ∀ n ∈ scenario.scriptedNames, n ∈ scenario.names)
    (he : (start scenario setting random tickSeconds).entity? name = some e) (ticks : Nat) :
    let sim := start scenario setting random tickSeconds
    ((hitsFrom sim.script 0 ticks).filter fun h => h.victim == e).map
        (fun h => (some h.attacker, h.amount)) =
      (scenario.hitsOn name ticks).map fun h => (sim.entity? h.attacker, h.amount) := by
  intro sim
  unfold hitsFrom Scenario.hitsOn
  rw [List.filter_flatMap, List.map_flatMap, List.map_flatMap, List.range_eq_range']
  exact List.flatMap_congr fun k _ => filter_planned hknown he k

theorem entity?_of_plan? {roster : List (String × Entity)} {h : ScriptedHit} {p : PlannedHit}
    (hplan : h.plan? roster = some p) :
    roster.lookup h.attacker = some p.attacker ∧ roster.lookup h.victim = some p.victim := by
  unfold ScriptedHit.plan? at hplan
  obtain ⟨attacker, hattacker, hplan⟩ := Option.bind_eq_some_iff.mp hplan
  obtain ⟨victim, hvictim, hplan⟩ := Option.bind_eq_some_iff.mp hplan
  obtain rfl := Option.some.inj hplan
  exact ⟨hattacker, hvictim⟩

/-- Everyone in the script of a scenario plays in it. -/
theorem start_manned : (start scenario setting random tickSeconds).Manned := by
  intro p hp
  obtain ⟨h, -, hplan⟩ := List.mem_filterMap.mp hp
  obtain ⟨hattacker, hvictim⟩ := entity?_of_plan? hplan
  exact ⟨contains_of_entity? hattacker, contains_of_entity? hvictim⟩

/-- Nothing was done to an actor before the first tick. -/
theorem start_ordeal? (hnodup : scenario.names.Nodup) {a : ActorTemplate} (ha : a ∈ scenario.actors)
    (he : (start scenario setting random tickSeconds).entity? a.name = some e) :
    (start scenario setting random tickSeconds).state.world.ordeal? e = some ⟨true, 32, []⟩ := by
  rw [World.ordeal?, get?_of_actor hnodup ha he]
  rfl

/-- Whoever is hit and is none of the actors is a bystander. -/
theorem start_isBystander {p : PlannedHit}
    (hp : p ∈ (start scenario setting random tickSeconds).script)
    (hno : p.victim ∉ (start scenario setting random tickSeconds).actors) :
    (start scenario setting random tickSeconds).state.world.IsBystander p.victim := by
  obtain ⟨h, -, hplan⟩ := List.mem_filterMap.mp hp
  intro o ho
  rcases entity?_cast (entity?_of_plan? hplan).2 with ⟨a, -, -, hactor, -⟩ | ⟨c, -, -, hget⟩
  · exact absurd hactor hno
  · rw [World.ordeal?, hget] at ho
    obtain rfl := Option.some.inj ho
    rfl

/-- After the hits of the first ticks the log of an actor tells of the last 32 on it. -/
theorem log_of_struck (hnodup : scenario.names.Nodup)
    (hknown : ∀ n ∈ scenario.scriptedNames, n ∈ scenario.names) {a : ActorTemplate}
    (ha : a ∈ scenario.actors) {ticks : Nat} {w : World} :
    let sim := start scenario setting random tickSeconds
    sim.entity? a.name = some e →
    (w.ordeal? e = (sim.state.world.ordeal? e).map fun o =>
      (hitsFrom sim.script 0 ticks).foldl (PlannedHit.strike e) o) →
    ∃ c, w.get? e = some c ∧
      (c.damageLog.getD default).entries.map (fun hit => (some hit.attacker, hit.amount)) =
        ((scenario.hitsOn a.name ticks).map fun h =>
          (sim.entity? h.attacker, h.amount)).rtake 32 := by
  intro sim he hstruck
  let hits := (hitsFrom sim.script 0 ticks).filter fun h => h.victim == e
  let blow (h : PlannedHit) : Entity × Int64 := (h.attacker, h.amount)
  let named (b : Entity × Int64) : Option Entity × Int64 := (some b.1, b.2)
  have hsound : (⟨true, 32, []⟩ : Ordeal).Sound := ⟨by decide, by simp⟩
  rw [show sim.state.world.ordeal? e = _ from start_ordeal? hnodup ha he, Option.map_some,
    PlannedHit.foldl_strike rfl, hsound.foldl_suffer] at hstruck
  obtain ⟨c, hc, hordeal⟩ := Option.map_eq_some_iff.mp hstruck
  have hblows : c.ordeal.blows = (hits.map blow).rtake 32 := congrArg Ordeal.blows hordeal
  refine ⟨c, hc, ?_⟩
  calc (c.damageLog.getD default).entries.map (fun hit => (some hit.attacker, hit.amount))
      = c.ordeal.blows.map named := by
        rw [Components.ordeal, List.map_map]
        rfl
    _ = ((hits.map blow).map named).rtake 32 := by rw [hblows, map_rtake]
    _ = (hits.map fun h => (some h.attacker, h.amount)).rtake 32 := by
      rw [List.map_map]
      rfl
    _ = _ := by rw [show hits.map _ = _ from filter_hitsFrom hknown he ticks]

end Build

/-- The encounter under a clock that has run for a while, with events that nobody has fetched. -/
def under (now : Int) (queue : List Event) (sim : Simulation) : Simulation :=
  { sim with state := { sim.state with now }, queue }

/-- An encounter that could be built is never refused a tick that its clock can show, whatever the
clock says and whatever events are waiting. Every actor's log holds the last 32 of the hits on it in
the ticks so far. Only where the cooldown of its alerts is no length of time, the first tick panics.
In any case all would have happened just so without the hits on others than actors. -/
theorem run_lands_every_hit {scenario : Scenario} {setting : Setting} {random : RandomSource}
    {tickSeconds : Float32} {sim : Simulation}
    (hbuilt : build scenario setting random tickSeconds = .ok sim) (now : Int)
    (queue : List Event) (ticks : Nat) :
    let started := sim.under now queue
    let ran := started.run ticks
    (∀ cooldown, setting.tuning.alertCooldown? = some cooldown →
      (∀ k ≤ ticks, Clock.Shows (now + k * sim.tickLength)) →
      (∃ reports, ran.1 = .ok reports ∧ reports.map (·.tick) = List.range ticks) ∧
      ∀ a ∈ scenario.actors, ∃ e c, sim.entity? a.name = some e ∧
        ran.2.state.world.get? e = some c ∧
        (c.damageLog.getD default).entries.map (fun hit => (some hit.attacker, hit.amount)) =
          ((scenario.hitsOn a.name ticks).map fun h =>
            (sim.entity? h.attacker, h.amount)).rtake 32) ∧
    (setting.tuning.alertCooldown? = none → 0 < ticks →
      ran.1 = .error (.panicked .cooldown)) ∧
    let spared := started.sparing fun h => decide (h.victim ∈ sim.actors)
    (spared.run ticks).1 = ran.1 ∧ (spared.run ticks).2.state = ran.2.state := by
  intro started ran
  obtain ⟨hfault, rfl⟩ := build_eq_ok.mp hbuilt
  obtain ⟨hnodup, hknown⟩ := Scenario.fault?_eq_none.mp hfault
  let sim := start scenario setting random tickSeconds
  have hmanned : sim.Manned := start_manned
  have hstarted : started.Manned := hmanned
  refine ⟨fun cooldown hcooldown hclock => ?_, fun hcooldown hticks => ?_, ?_⟩
  · have hshown : ∀ k ≤ ticks, Clock.Shows (started.state.now + k * started.tickLength) := hclock
    obtain ⟨reports, state, queue', hran, hticks, hstruck⟩ := run_run hcooldown hstarted hshown
    have hran' : ran = _ := hran
    refine ⟨⟨reports, ?_, ?_⟩, fun a ha => ?_⟩
    · rw [hran']
    · rw [hticks]
      exact List.range_eq_range'.symm
    · have hname : a.name ∈ scenario.names := List.mem_append_left _ (List.mem_map_of_mem ha)
      obtain ⟨e, he⟩ : ∃ e, sim.entity? a.name = some e := exists_entity? hname
      obtain ⟨c, hc, hlog⟩ := log_of_struck hnodup hknown ha he (hstruck e)
      refine ⟨e, c, he, ?_, hlog⟩
      rw [hran']
      exact hc
  · have hsetting : started.setting.tuning.alertCooldown? = none := hcooldown
    exact run_panics hsetting hstarted hticks
  · have hothers : ∀ hit ∈ sim.script, hit.victim ∉ sim.actors →
        sim.state.world.IsBystander hit.victim := fun _ => start_isBystander
    have hspared := run_sparing (fun h => decide (h.victim ∈ started.actors)) hstarted
      (fun hit hhit hp => hothers hit hhit (of_decide_eq_false hp)) ticks
    intro spared
    rw [show spared.run ticks = _ from hspared]
    exact ⟨rfl, rfl⟩

/-- An orc that is hurt by Aria and by itself, and hurts her. -/
def duel : Scenario where
  actors := [{ name := "orc", position := ⟨0.0, 0.0, 0.0⟩ }]
  candidates := [{ name := "Aria", position := ⟨3.0, 0.0, 0.0⟩ }]
  damage := [⟨2, "Aria", "orc", 12⟩, ⟨0, "Aria", "orc", 30⟩, ⟨1, "orc", "orc", 5⟩,
    ⟨1, "orc", "Aria", 7⟩]

theorem hitsOn_duel :
    duel.hitsOn "orc" 3 =
      [⟨0, "Aria", "orc", 30⟩, ⟨1, "orc", "orc", 5⟩, ⟨2, "Aria", "orc", 12⟩] := by
  decide +kernel

theorem duel_lands_every_hit :
    let sim := start duel {} (.cycle [0]) 1.0
    build duel {} (.cycle [0]) 1.0 = .ok sim ∧
      (∃ reports, ((sim.under 5000000000 []).run 3).1 = .ok reports ∧
        reports.map (·.tick) = [0, 1, 2]) ∧
      ∃ e c, sim.entity? "orc" = some e ∧
        ((sim.under 5000000000 []).run 3).2.state.world.get? e = some c ∧
        (c.damageLog.getD default).entries.map (fun hit => (some hit.attacker, hit.amount)) =
          [(sim.entity? "Aria", 30), (sim.entity? "orc", 5), (sim.entity? "Aria", 12)] := by
  intro sim
  have hbuilt : build duel {} (.cycle [0]) 1.0 = .ok sim :=
    build_eq_ok.mpr ⟨by decide +kernel, rfl⟩
  obtain ⟨hlands, -⟩ := run_lands_every_hit hbuilt 5000000000 [] 3
  have hclock : ∀ k : Nat, k ≤ 3 → Clock.Shows (5000000000 + k * sim.tickLength) := by
    decide +kernel
  obtain ⟨hreports, hlogs⟩ := hlands 120000000000 (by decide) hclock
  obtain ⟨e, c, he, hc, hlog⟩ := hlogs _ (List.mem_singleton_self _)
  rw [hitsOn_duel] at hlog
  exact ⟨hbuilt, hreports, e, c, he, hc, hlog⟩

/-- A cooldown that passes for a sound one and is longer than any length of time. -/
def endless : Tuning := { alertCooldownSecs := Int64.maxValue }

theorem duel_panics :
    let sim := start duel { tuning := endless } (.cycle [0]) 1.0
    endless.fault? = none ∧ build duel { tuning := endless } (.cycle [0]) 1.0 = .ok sim ∧
      (sim.run 1).1 = .error (.panicked .cooldown) := by
  intro sim
  have hbuilt : build duel { tuning := endless } (.cycle [0]) 1.0 = .ok sim :=
    build_eq_ok.mpr ⟨by decide +kernel, rfl⟩
  exact ⟨by decide +kernel, hbuilt, run_panics (by decide) start_manned (by decide)⟩

end Simulation

end Hostility
