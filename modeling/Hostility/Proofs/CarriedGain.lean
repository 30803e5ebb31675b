import Hostility.Proofs.Beats
import Hostility.Proofs.Decay
import Hostility.Proofs.GainLog
import Hostility.Proofs.ThinkLedger
import Hostility.Proofs.Turns

/-!
How much the gain of an actor may lower its ledger. A decay uses up what was gained since the last
one, so what a think lowers is bounded by what was gained since the think before. A think that finds
nobody left in the ledger decays nothing and keeps the gain for the next one.
-/
namespace Hostility

variable {setting : Setting} {least : Int64} {actor x : Entity} {w : World} {l : Ledger}
  {s s' : State} {events events' : List Event}

open Course Hostility.Action

/-- Nobody has left under the handle: it is borne, or still to be borne. -/
def World.NotGone (w : World) (x : Entity) : Prop := w.contains x = true ∨ w.Unborn x

namespace World

theorem NotGone.of_sameFolk {w' : World} (hfolk : w.SameFolk w') (h : w'.NotGone x) :
    w.NotGone x := by
  unfold NotGone Unborn at *
  rwa [hfolk.contains, hfolk.next] at h

theorem gain_of_not_contains (h : w.contains x = false) : w.gain x = 0 := by
  rw [contains, Option.isSome_eq_false_iff, Option.isNone_iff_eq_none] at h
  rw [gain, h]
  rfl

/-- A handle that nobody has borne yet stands for no gain. -/
theorem Unborn.gain_eq (h : w.Unborn x) : w.gain x = 0 := by
  refine gain_of_not_contains ?_
  rw [Bool.eq_false_iff]
  exact fun hcontains => not_unborn_of_contains hcontains h

end World

namespace Course

/-- The events tell what becomes of the gain of everyone who does not leave, and nothing is gained
below the least amount. -/
def tracking (least : Int64) : Course := fun s events s' =>
  (∀ x, s'.world.NotGone x →
    s.world.NotGone x ∧ s'.world.gain x = gainAfter x (s.world.gain x) events) ∧
  ∀ e ∈ events, e.GainsAtLeast least

theorem tracking_closed (least : Int64) : (tracking least).Closed where
  refl _ := ⟨fun _ hx => ⟨hx, rfl⟩, by simp⟩
  trans h h' := by
    refine ⟨fun x hx => ?_, fun e he => ?_⟩
    · obtain ⟨hx', hgain'⟩ := h'.1 x hx
      obtain ⟨hx'', hgain⟩ := h.1 x hx'
      refine ⟨hx'', ?_⟩
      rw [gainAfter_append, ← hgain, hgain']
    · rcases List.mem_append.mp he with he | he
      · exact h.2 e he
      · exact h'.2 e he

theorem tallying.tracking (h : tallying least s events s') (hfolk : s.world.SameFolk s'.world) :
    tracking least s events s' :=
  ⟨fun x hx => ⟨hx.of_sameFolk hfolk, h.1 x⟩, h.2⟩

end Course

theorem Request.perform_tracking (setting : Setting) (request : Request) :
    Follows (tracking setting.tuning.minimumThreatGain) (request.perform setting) := by
  intro s
  have htallied : Follows (tallying setting.tuning.minimumThreatGain) (request.perform setting) :=
    (Engine.tallying_pieces setting).perform
      (fun actor _ => tallying_update (by intro _; rfl) actor)
      fun source _ => Engine.tallying_spends _ source
  have hsteered : Follows (steering True) (request.perform setting) :=
    request.perform_steering setting fun _ => trivial
  exact (htallied s).tracking (hsteered s).1

theorem Change.apply_tracking {change : Change} (h : change.SparesLedgers) (s : State) :
    tracking least s [] (change.apply s) := by
  refine ⟨fun x hx => ?_, by simp⟩
  show s.world.NotGone x ∧ (change.apply s).world.gain x = s.world.gain x
  cases change with
  | setClock now => exact ⟨hx, rfl⟩
  | setRandom random => exact ⟨hx, rfl⟩
  | edit e f =>
    have hgain (parts : Components) : (f parts).gain = parts.gain := by
      rw [Components.gain, Components.gain, show (f parts).ledger = _ from h parts]
    refine ⟨?_, World.gain_update hgain s.world e x⟩
    change (s.world.update e f).NotGone x at hx
    unfold World.NotGone World.Unborn at *
    rwa [World.contains_update, World.nextGeneration_update] at hx
  | despawn e =>
    have hgot : (s.world.despawn e).get? x = if x = e then none else s.world.get? x :=
      World.get?_despawn ..
    rcases hx with hx | hx
    · have hother : x ≠ e := by
        rintro rfl
        rw [World.contains, show (Change.apply s (.despawn x)).world.get? x = _ from hgot,
          if_pos rfl] at hx
        cases hx
      rw [if_neg hother] at hgot
      refine ⟨.inl ?_, World.gain_of_get? hgot⟩
      rw [World.contains, ← hgot]
      exact hx
    · have hunborn : s.world.Unborn x := by
        have hnext := World.nextGeneration_despawn s.world e x.id
        unfold World.Unborn at *
        rw [← hnext]
        exact hx
      exact ⟨.inr hunborn, hx.gain_eq.trans hunborn.gain_eq.symm⟩
  | spawn parts =>
    have hgot := World.get?_spawn s.world parts x
    rcases hx with hx | hx
    · split at hgot
      · next hnew =>
        have hunborn : s.world.Unborn x := hnew ▸ World.unborn_spawn s.world parts
        refine ⟨.inr hunborn, ?_⟩
        have hnone : parts.ledger = none := h
        rw [hunborn.gain_eq]
        show (s.world.spawn parts).2.gain x = 0
        rw [World.gain, hgot, Option.map_some, Components.gain, hnone]
        rfl
      · refine ⟨.inl ?_, World.gain_of_get? hgot⟩
        rw [World.contains, ← hgot]
        exact hx
    · have hunborn : s.world.Unborn x := World.unborn_of_unborn_spawn hx
      exact ⟨.inr hunborn, hx.gain_eq.trans hunborn.gain_eq.symm⟩

def Beat.SparesLedgers : Beat → Prop
  | .move m => m.SparesLedgers
  | .advance _ => True

theorem Beat.perform_tracking (setting : Setting) {beat : Beat} (h : beat.SparesLedgers) :
    Follows (tracking setting.tuning.minimumThreatGain) (beat.perform setting) := by
  cases beat with
  | move m =>
    cases m with
    | ask request => exact request.perform_tracking setting
    | host change => exact Change.apply_tracking h
  | advance seconds =>
    intro s
    have helapsed := (Engine.tallying_pieces setting).elapse seconds s
    refine ((tallying_closed _).trans helapsed ((Engine.tallying_pieces setting).note _ _)).tracking
      ?_
    exact .updateAll (by intro _; rfl) s.world

/-- The beats of a run spare ledgers if its moves do. -/
theorem beatsOf_spareLedgers {moves : List Move} (h : ∀ move ∈ moves, move.SparesLedgers)
    (s : State) : ∀ beat ∈ beatsOf setting moves s, beat.SparesLedgers := by
  intro beat hbeat
  cases isOf_of_mem_beatsOf hbeat with
  | advance seconds => trivial
  | think actor => trivial
  | move mem single => exact h _ mem

theorem playBeats_tracking {beats : List Beat} (h : ∀ beat ∈ beats, beat.SparesLedgers) :
    Follows (tracking setting.tuning.minimumThreatGain) (playBeats setting beats) :=
  .forEach (tracking_closed _) fun beat hbeat => Beat.perform_tracking setting (h beat hbeat)

/-- What an actor does about its own threat when it thinks gains nobody threat. -/
theorem Event.gainOf?_of_isUpkeepOf {e : Event} (h : e.IsUpkeepOf actor) : e.gainOf? x = none := by
  cases e <;> first | rfl | exact h.elim

namespace Engine

theorem choose_tells_no_decay (setting : Setting) (c : Controller) (candidates : List Candidate)
    (hw : s.world.contains actor = true) :
    (choose setting actor c candidates s).events.filter (Event.tellsDecayOf actor) = [] := by
  have hclosed := alike_closed actor fun _ => True
  cases hmode : c.profile.legacyMode with
  | false =>
    have hleft : LeftWith actor (fun _ => True) _ (choose setting actor c candidates s) :=
      choose_leftWith setting hmode hw fun _ _ _ => trivial
    exact hleft.events
  | true =>
    have hfollows : Follows (alike actor fun _ => True) (choose setting actor c candidates) := by
      unfold choose
      rw [hmode]
      refine .bind hclosed (.pure hclosed ()) fun _ => ?_
      refine .bind hclosed (selectUndeceived_alike setting c _ candidates) fun choice => ?_
      exact .bind hclosed (.pure hclosed ()) fun _ => .pure hclosed choice
    exact (hfollows s).2

theorem upkeep_of_legacy (t : Tuning) {c : Controller} (hc : s.world.controller? actor = some c)
    (hmode : c.profile.legacyMode = true) :
    (upkeep t actor s).events.filter (Event.tellsDecayOf actor) = [] := by
  unfold upkeep
  rw [bind_of_ok (by rw [controllerOf_eq hc]), controllerOf_eq hc]
  dsimp only
  rw [hmode]
  cases c.modeSwitched with
  | true => rfl
  | false => rfl

/-- After its upkeep a think gains nobody threat and lowers no ledger. -/
theorem think_after_upkeep (setting : Setting) {c : Controller}
    (hc : s.world.controller? actor = some c) :
    ∃ rest, (think setting actor s).events = (upkeep setting.tuning actor s).events ++ rest ∧
      ∀ e ∈ rest, (∀ x, e.gainOf? x = none) ∧ e.tellsDecayOf actor = false := by
  have hkept := ((upkeep_tended setting.tuning hc).world.controller?_eq actor).trans hc
  have hother {e : Event} (h : e.LeavesGain) :
      (∀ x, e.gainOf? x = none) ∧ e.tellsDecayOf actor = false := by
    cases e <;> first | exact ⟨fun _ => rfl, rfl⟩ | exact h.elim
  by_cases hfound : found setting (upkeep setting.tuning actor s).state.world actor
      c.noteMode.markThought = []
  · rw [think_of_nobody hc hfound]
    exact ⟨_, rfl, fun e he =>
      hother (Controller.disengage_news _ actor e he).leavesThreat.leavesGain⟩
  · obtain ⟨choice, -, hrun⟩ := think_of_somebody hc hfound
    rw [hrun]
    refine ⟨_, rfl, fun e he => ?_⟩
    simp only [List.mem_append] at he
    rcases he with he | he | he | he
    · exact hother (Controller.rouse_news _ actor e he).leavesThreat.leavesGain
    · have hcontains := World.contains_of_bind hkept
      have hchosen := choose_tended setting (c.noteMode.markThought.rouse actor).1
        (found setting (upkeep setting.tuning actor s).state.world actor c.noteMode.markThought)
        hcontains
      have hundecayed := List.filter_eq_nil_iff.mp
        (choose_tells_no_decay setting _ _ hcontains) e he
      exact ⟨fun x => Event.gainOf?_of_isUpkeepOf (hchosen.events e he), by simpa using hundecayed⟩
    · exact hother (settle_news _ actor choice e he).leavesThreat.leavesGain
    · have hcall := alarm_calls setting actor c.state choice.target? _ e he
      exact hother (by cases e <;> trivial)

/-- The decays of a think are those of its upkeep. -/
theorem think_decays (setting : Setting) {c : Controller}
    (hc : s.world.controller? actor = some c) :
    (think setting actor s).events.filter (Event.tellsDecayOf actor) =
      (upkeep setting.tuning actor s).events.filter (Event.tellsDecayOf actor) := by
  obtain ⟨rest, hrun, hrest⟩ := think_after_upkeep setting hc
  have hnone : rest.filter (Event.tellsDecayOf actor) = [] :=
    List.filter_eq_nil_iff.mpr fun e he => by simp [(hrest e he).2]
  rw [hrun, List.filter_append, hnone, List.append_nil]

theorem think_gains_nothing (setting : Setting) (actor x : Entity) (s : State) :
    ∀ e ∈ (think setting actor s).events, e.gainOf? x = none := by
  intro e he
  cases hc : s.world.controller? actor with
  | none =>
    obtain ⟨refusal, hrefused⟩ := think_of_no_controller setting hc
    rw [hrefused] at he
    cases he
  | some c =>
    obtain ⟨rest, hrun, hrest⟩ := think_after_upkeep setting hc
    rw [hrun] at he
    rcases List.mem_append.mp he with he | he
    · exact Event.gainOf?_of_isUpkeepOf ((upkeep_tended setting.tuning hc).events e he)
    · exact (hrest e he).1 x

theorem upkeep_subset_think (setting : Setting) {c : Controller}
    (hc : s.world.controller? actor = some c) :
    (upkeep setting.tuning actor s).events ⊆ (think setting actor s).events := by
  obtain ⟨rest, hrun, -⟩ := think_after_upkeep setting hc
  rw [hrun]
  exact List.subset_append_left ..

/-- An actor that keeps a ledger uses up its gain when it thinks, unless nobody is left in it. -/
theorem think_spends (setting : Setting) {c : Controller} (hc : s.world.controller? x = some c)
    (hmode : c.profile.legacyMode = false)
    (hleft : ((s.world.ledger? x).getD .empty).tracked.filter s.world.isPresent ≠ []) :
    ∃ e ∈ (think setting x s).events, e.spendsGainOf x = true := by
  obtain ⟨e, he, hspends⟩ :
      ∃ e ∈ (upkeep setting.tuning x s).events, e.spendsGainOf x = true := by
    cases hswitched : c.modeSwitched with
    | true =>
      rw [upkeep_eq setting.tuning hc hmode, hswitched, Action.when_true]
      exact ⟨.ledgerReset x, List.mem_append_left _ (by rw [(Threat.reset_run x s).2]; simp),
        by simp [Event.spendsGainOf]⟩
    | false =>
      have hsame : c.lastLegacyMode ≠ some true := by
        intro hlast
        rw [Controller.modeSwitched, hlast, hmode] at hswitched
        cases hswitched
      obtain ⟨-, -, hdecays⟩ := upkeep_ledger setting.tuning hc hmode
      rw [if_neg hsame] at hdecays
      obtain ⟨amount, -, htold, -⟩ := hdecays hleft
      have hdecay := List.mem_filter.mp (htold ▸ List.mem_singleton_self _)
      exact ⟨_, hdecay.1, by simp [Event.spendsGainOf]⟩
  exact ⟨e, upkeep_subset_think setting hc he, hspends⟩

/-- A think that tells of a decay lowered a ledger that was not empty after pruning, by the amount
that it tells. -/
theorem decay_of_mem_think {amount : Int64} {entries : Nat}
    (h : .threatDecayed x amount entries ∈ (think setting x s).events) :
    ∃ l, s.world.ledger? x = some l ∧ (Threat.pruned s.world l).isEmpty = false ∧
      amount = (Threat.pruned s.world l).decayAmount setting.tuning.threatMinimum
        setting.tuning.decayFraction := by
  cases hc : s.world.controller? x with
  | none =>
    obtain ⟨refusal, hrefused⟩ := think_of_no_controller setting hc
    rw [hrefused] at h
    cases h
  | some c =>
    have hdecay : .threatDecayed x amount entries ∈
        (upkeep setting.tuning x s).events.filter (Event.tellsDecayOf x) := by
      rw [← think_decays setting hc, List.mem_filter]
      exact ⟨h, by simp [Event.tellsDecayOf]⟩
    cases hmode : c.profile.legacyMode with
    | true =>
      rw [upkeep_of_legacy setting.tuning hc hmode] at hdecay
      cases hdecay
    | false =>
      rw [(upkeep_run setting.tuning hc hmode).2] at hdecay
      cases hstart : startLedger c (s.world.ledger? x) with
      | none =>
        rw [hstart] at hdecay
        cases hdecay
      | some l =>
        rw [hstart] at hdecay
        replace hdecay : .threatDecayed x amount entries ∈ Threat.tellDecay x
          (Threat.pruned s.world l).size (Threat.decayed setting.tuning s.world
            (Threat.pruned s.world l)).2 := hdecay
        have hsome : (Threat.pruned s.world l).isEmpty = false := by
          rw [Bool.eq_false_iff]
          intro hempty
          rw [Threat.decayed, Ledger.decay_of_isEmpty hempty] at hdecay
          cases hdecay
        -- after a switch of modes the ledger is empty, and an empty one does not decay
        have hold : s.world.ledger? x = some l := by
          unfold startLedger at hstart
          split at hstart
          · obtain ⟨old, -, rfl⟩ := Option.map_eq_some_iff.mp hstart
            cases hsome
          · exact hstart
        refine ⟨l, hold, hsome, ?_⟩
        obtain ⟨-, hamount⟩ := Ledger.decay_of_not_isEmpty hsome setting.tuning.threatMinimum
          setting.tuning.decayFraction s.world.passive?
        rw [Threat.decayed, hamount] at hdecay
        rw [Threat.tellDecay, List.mem_singleton, Event.threatDecayed.injEq] at hdecay
        exact hdecay.2.1

end Engine

/-- What an actor has gained some time after a think: what the think left of the gain, and what was
gained since. -/
theorem gained_after_think (setting : Setting) {before : State} {between : List Beat}
    (hspare : ∀ beat ∈ between, beat.SparesLedgers) :
    let thought := Engine.think setting x before
    let waited := playBeats setting between thought.state
    waited.state.world.ledger? x = some l →
      l.gained = gainAfter x (if thought.events.any (Event.spendsGainOf x) then 0
        else before.world.gain x) waited.events ∧
      ∀ e ∈ waited.events, e.GainsAtLeast setting.tuning.minimumThreatGain := by
  intro thought waited hl
  have hthought : tracking setting.tuning.minimumThreatGain before thought.events thought.state :=
    Request.perform_tracking setting (.think x) before
  have hwaited : tracking setting.tuning.minimumThreatGain thought.state waited.events
      waited.state := playBeats_tracking hspare thought.state
  have hfound : waited.state.world.NotGone x := .inl (World.contains_of_bind hl)
  obtain ⟨hstayed, hgain⟩ := hwaited.1 x hfound
  obtain ⟨-, hleft⟩ := hthought.1 x hstayed
  rw [gainAfter_of_ungained (Engine.think_gains_nothing setting x x before)] at hleft
  rw [← World.gain_of_ledger hl, ← hleft]
  exact ⟨hgain, hwaited.2⟩

/-- What had been gained before a think no longer counts once gain was used up, in it or after
it. -/
theorem gainAfter_of_spent_append (h : ∃ e ∈ events ++ events', e.spendsGainOf x = true)
    (gain : Int64) :
    gainAfter x (if events.any (Event.spendsGainOf x) then 0 else gain) events' =
      gainAfter x 0 events' := by
  obtain ⟨e, he, hspends⟩ := h
  rcases List.mem_append.mp he with he | he
  · rw [if_pos (List.any_eq_true.mpr ⟨e, he, hspends⟩)]
  · exact gainAfter_of_spent ⟨e, he, hspends⟩ _ _

theorem gainAfter_of_unspent_append (h : ∀ e ∈ events ++ events', e.spendsGainOf x = false)
    (gain : Int64) :
    gainAfter x (if events.any (Event.spendsGainOf x) then 0 else gain) events' =
      (gainsOf x events').foldl satAdd gain := by
  have hkept : events.any (Event.spendsGainOf x) = false :=
    List.any_eq_false.mpr fun e he => by simp [h e (List.mem_append_left _ he)]
  rw [hkept, if_neg Bool.false_ne_true]
  exact gainAfter_of_unspent (fun e he => h e (List.mem_append_right _ he)) gain

/-- Between two thinks of an actor in a run of a host that leaves ledgers alone, what the second one
lowers is bounded by the gain since the first, or by the least amount. Older gain counts only where
the first think used up none, and it uses up none only if nobody is left in the ledger. -/
theorem playOut_decay_bounded_by_gain (setting : Setting) {s : State} {moves : List Move}
    (hmoves : ∀ move ∈ moves, move.SparesLedgers) {x : Entity} {earlier between later : List Beat}
    (hbeats : beatsOf setting moves s = earlier ++ .think x :: (between ++ .think x :: later)) :
    let before := playBeats setting earlier s
    let thought := Engine.think setting x before.state
    let waited := playBeats setting between thought.state
    let again := Engine.think setting x waited.state
    (∃ rest, (playOut setting moves s).events =
      before.events ++ (thought.events ++ (waited.events ++ (again.events ++ rest)))) ∧
    ∀ amount entries, .threatDecayed x amount entries ∈ again.events →
      ∃ l, waited.state.world.ledger? x = some l ∧
        let least := (Threat.pruned waited.state.world l).minimumSubtraction
          setting.tuning.threatMinimum setting.tuning.decayFraction
        ((∃ e ∈ thought.events ++ waited.events, e.spendsGainOf x = true) →
          amount ≤ max (gainAfter x 0 waited.events) least ∧
          (0 ≤ setting.tuning.minimumThreatGain →
            amount ≤ max (satSum (gainsOf x waited.events)) least)) ∧
        ((∀ e ∈ thought.events ++ waited.events, e.spendsGainOf x = false) →
          amount ≤ max ((gainsOf x waited.events).foldl satAdd (before.state.world.gain x)) least ∧
          ∀ c, before.state.world.controller? x = some c → c.profile.legacyMode = false →
            ((before.state.world.ledger? x).getD .empty).tracked.filter
              before.state.world.isPresent = []) := by
  intro before thought waited again
  refine ⟨playOut_events_around hbeats, fun amount entries hdecay => ?_⟩
  obtain ⟨l, hl, hsome, rfl⟩ := Engine.decay_of_mem_think hdecay
  refine ⟨l, hl, ?_⟩
  intro least
  have hspare : ∀ beat ∈ earlier ++ .think x :: (between ++ .think x :: later),
      beat.SparesLedgers := hbeats ▸ beatsOf_spareLedgers hmoves s
  obtain ⟨hgained, hleasts⟩ :=
    gained_after_think setting (fun beat hbeat => hspare beat (by simp [hbeat])) hl
  have hamount {bound : Int64} (hbound : l.gained ≤ bound) :
      (Threat.pruned waited.state.world l).decayAmount setting.tuning.threatMinimum
        setting.tuning.decayFraction ≤ max bound least := by
    refine Ledger.decayAmount_le hsome ?_ setting.tuning.threatMinimum setting.tuning.decayFraction
    rwa [Threat.pruned, Ledger.gained_removeAll]
  refine ⟨fun hspent => ?_, fun hunspent => ?_⟩
  · rw [gainAfter_of_spent_append hspent] at hgained
    refine ⟨hamount (Int64.le_of_eq hgained), fun hleast => hamount ?_⟩
    rw [hgained]
    exact gainAfter_le_sum hleasts hleast (Int64.le_refl 0) (Int64.le_refl 0)
  · rw [gainAfter_of_unspent_append hunspent] at hgained
    refine ⟨hamount (Int64.le_of_eq hgained), fun c hc hmode => ?_⟩
    refine Decidable.byContradiction fun hleft => ?_
    obtain ⟨e, he, hspends⟩ := Engine.think_spends setting hc hmode hleft
    rw [hunspent e (List.mem_append_left _ he)] at hspends
    cases hspends

section Feud

open Engine

/-- Two players in the sight of an orc that keeps a ledger. -/
def feud : State where
  world :=
    let player (name : String) (x : Float) : Components :=
      { name := some name
        position := some ⟨x, 0.0, 0.0⟩
        health := some (.full 100.0)
        targetable := some .player }
    let orc : Components :=
      { name := some "orc"
        position := some ⟨0.0, 0.0, 0.0⟩
        health := some (.full 100.0)
        controller := some (.ofProfile {}) }
    (((World.empty.spawn (player "Aria" 3.0)).2.spawn (player "Bram" 5.0)).2.spawn orc).2
  random := .cycle [0]
  now := 0
  alerts := ∅

theorem feud_allFresh : feud.world.AllFresh := by
  refine ((World.allFresh_empty.spawn ?_).spawn ?_).spawn ?_
  · rintro c ⟨⟩
  · rintro c ⟨⟩
  · rintro c ⟨⟩
    rfl

/-- Aria hurts the orc and leaves the world. -/
def hitAndRun : List Move := [.ask (.recordDamage ⟨2, 1⟩ ⟨0, 1⟩ 3000), .host (.despawn ⟨0, 1⟩)]

def forsaken : State := (playBeats {} (hitAndRun.map .move) feud).state

/-- The orc thinks after Aria has left. -/
def bereft : State := (think {} ⟨2, 1⟩ forsaken).state

/-- The sort behind the order of the world does not evaluate, so the think is replaced by what it
does with Bram, the only one it finds. -/
theorem bereft_eq :
    bereft = (thinkAmong {} ⟨2, 1⟩ .idle (Controller.ofProfile {}).noteMode.markThought
      [⟨⟨1, 1⟩, 5.0, .player, none⟩]
      (upkeep {} ⟨2, 1⟩ forsaken).state).state := by
  have hcalm : forsaken.world.controller? ⟨2, 1⟩ = some (.ofProfile {}) := by decide +kernel
  have hbram : found {} (upkeep {} ⟨2, 1⟩ forsaken).state.world ⟨2, 1⟩
      (Controller.ofProfile {}).noteMode.markThought = [⟨⟨1, 1⟩, 5.0, .player, none⟩] := by
    rw [found_of_entities rfl (World.entities_of_sorted (by decide +kernel))]
    decide +kernel
  unfold bereft
  rw [think_of_found hcalm hbram (by simp)]
  rfl

theorem controller?_bereft : (bereft.world.controller? ⟨2, 1⟩).isSome = true := by
  rw [bereft_eq]
  decide +kernel

theorem decay_bereft : .threatDecayed ⟨2, 1⟩ 3000 1 ∈ (think {} ⟨2, 1⟩ bereft).events := by
  obtain ⟨c, hc⟩ := Option.isSome_iff_exists.mp controller?_bereft
  refine upkeep_subset_think {} hc ?_
  rw [bereft_eq]
  decide +kernel

theorem least_bereft : (bereft.world.ledger? ⟨2, 1⟩).map (fun l =>
    (Threat.pruned bereft.world l).minimumSubtraction 100 0.1) = some 1 := by
  rw [bereft_eq]
  decide +kernel

/-- The beats of a run in which the orc thinks twice after the hit. -/
theorem beatsOf_hitAndRun :
    beatsOf {} (hitAndRun ++ [.ask (.think ⟨2, 1⟩), .ask (.think ⟨2, 1⟩)]) feud =
      hitAndRun.map .move ++ .think ⟨2, 1⟩ :: ([] ++ .think ⟨2, 1⟩ :: []) := rfl

/-- Nothing is gained between the two thinks, and yet the second lowers Bram by what Aria did before
the first. -/
theorem bereft_decay_exceeds_gain :
    let moves := hitAndRun ++ [.ask (.think ⟨2, 1⟩), .ask (.think ⟨2, 1⟩)]
    feud.world.AllFresh ∧
      beatsOf {} moves feud = hitAndRun.map .move ++ .think ⟨2, 1⟩ :: ([] ++ .think ⟨2, 1⟩ :: []) ∧
      let thought := think {} ⟨2, 1⟩ (playBeats {} (hitAndRun.map .move) feud).state
      let waited := playBeats {} [] thought.state
      let again := think {} ⟨2, 1⟩ waited.state
      .threatDecayed ⟨2, 1⟩ 3000 1 ∈ again.events ∧
        ∃ l, waited.state.world.ledger? ⟨2, 1⟩ = some l ∧
          ¬ 3000 ≤ max (satSum (gainsOf ⟨2, 1⟩ waited.events))
            ((Threat.pruned waited.state.world l).minimumSubtraction 100 0.1) := by
  intro moves
  refine ⟨feud_allFresh, beatsOf_hitAndRun, decay_bereft, ?_⟩
  obtain ⟨l, hl, hleast⟩ := Option.map_eq_some_iff.mp least_bereft
  refine ⟨l, hl, ?_⟩
  show ¬ 3000 ≤ max (satSum []) ((Threat.pruned bereft.world l).minimumSubtraction 100 0.1)
  rw [hleast]
  decide

theorem hitAndRun_decay_bounded_by_gain :
    let before := playBeats {} (hitAndRun.map .move) feud
    let thought := think {} ⟨2, 1⟩ before.state
    let again := think {} ⟨2, 1⟩ thought.state
    .threatDecayed ⟨2, 1⟩ 3000 1 ∈ again.events ∧
      ∃ l, thought.state.world.ledger? ⟨2, 1⟩ = some l ∧
        let least := (Threat.pruned thought.state.world l).minimumSubtraction 100 0.1
        ((∃ e ∈ thought.events ++ [], e.spendsGainOf ⟨2, 1⟩ = true) →
          3000 ≤ max 0 least ∧ ((0 : Int64) ≤ 2 → 3000 ≤ max 0 least)) ∧
        ((∀ e ∈ thought.events ++ [], e.spendsGainOf ⟨2, 1⟩ = false) →
          3000 ≤ max (before.state.world.gain ⟨2, 1⟩) least ∧
          ∀ c, before.state.world.controller? ⟨2, 1⟩ = some c → c.profile.legacyMode = false →
            ((before.state.world.ledger? ⟨2, 1⟩).getD .empty).tracked.filter
              before.state.world.isPresent = []) := by
  have hmoves : ∀ move ∈ hitAndRun ++ [.ask (.think ⟨2, 1⟩), .ask (.think ⟨2, 1⟩)],
      move.SparesLedgers := by
    simp [hitAndRun, Move.SparesLedgers, Change.SparesLedgers]
  obtain ⟨-, hbounded⟩ := playOut_decay_bounded_by_gain {} hmoves beatsOf_hitAndRun
  exact ⟨decay_bereft, hbounded 3000 1 decay_bereft⟩

end Feud

end Hostility
