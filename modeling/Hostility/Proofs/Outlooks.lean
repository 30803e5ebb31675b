import Hostility.Proofs.Casting
import Hostility.Proofs.LedgerLaws
import Hostility.Proofs.Picks
import Hostility.Simulation.Report

/-!
Outlooks beside their ledgers. The lottery makes an outlook from entries of the ledger, and whoever
is dropped from the ledger is dropped from the outlook. So an outlook never tells of anybody who has
no entry, and a report never gives odds for a name without its threat.
-/
namespace Hostility

/-- The outlook tells of entries only, and of none of them twice. -/
structure Ledger.OutlookFits (l : Ledger) : Prop where
  positive : ∀ e, l.outlook.positive.contains e = true → l.contains e = true
  negative : ∀ e, l.outlook.negative.contains e = true → l.contains e = true
  apart : ∀ e, l.outlook.positive.contains e = true → l.outlook.negative.contains e = false

namespace Lottery

variable {t : Tuning} {cut : Int64} {entries : List (Entity × Int64)} {e : Entity}

/-- Only an entry at or above the cut has a share. -/
theorem le_of_contains_shares {l : Lottery} (hbuilt : build t entries = some l)
    (h : (shares l.rungs).contains e = true) : ∃ v, (e, v) ∈ entries ∧ l.cut ≤ v := by
  have hrung := EntityMap.contains_ofList.mp h
  rw [List.map_map] at hrung
  obtain ⟨rung, hmem, rfl⟩ := List.mem_map.mp hrung
  obtain ⟨v, hentry, hcut, -⟩ := exists_entry hbuilt hmem
  exact ⟨v, hentry, hcut⟩

/-- Only an entry below the cut is safe. -/
theorem lt_of_contains_safe (h : (safe cut entries).contains e = true) :
    ∃ v, (e, v) ∈ entries ∧ v < cut := by
  unfold safe at h
  split at h
  · have hsafe := EntityMap.contains_ofList.mp h
    rw [List.map_map] at hsafe
    obtain ⟨a, ha, rfl⟩ := List.mem_map.mp hsafe
    obtain ⟨hentry, hcut⟩ := List.mem_filter.mp ha
    exact ⟨a.2, hentry, by simpa using hcut⟩
  · cases h

end Lottery

namespace Ledger

variable (l : Ledger)

theorem outlook_seedAll (floor : Int64) (es : List Entity) :
    (l.seedAll floor es).1.outlook = l.outlook := by
  induction es generalizing l with
  | nil => rfl
  | cons e es ih =>
    show ((l.seed e floor).1.seedAll floor es).1.outlook = _
    rw [ih, outlook_seed]

theorem outlook_decay (floor : Int64) (fraction : Float) (threshold : Entity → Option Int64) :
    (l.decay floor fraction threshold).1.outlook = l.outlook := by
  unfold decay
  split <;> rfl

end Ledger

namespace Ledger.OutlookFits

variable {l l' : Ledger}

theorem of_outlook_eq (h : l.OutlookFits) (houtlook : l'.outlook = l.outlook)
    (hmore : ∀ e, l.contains e = true → l'.contains e = true) : l'.OutlookFits where
  positive e he := hmore e (h.positive e (houtlook ▸ he))
  negative e he := hmore e (h.negative e (houtlook ▸ he))
  apart e he := by
    rw [houtlook] at he ⊢
    exact h.apart e he

theorem of_empty (h : l.outlook = .empty) : l.OutlookFits := by
  constructor
  all_goals
    intro e he
    rw [h] at he
    cases he

/-- The outlook of a lottery of the ledger's own values. -/
theorem of_lottery {t : Tuning} {entries : List (Entity × Int64)} {lottery : Lottery}
    (hbuilt : Lottery.build t entries = some lottery)
    (hentries : ∀ e v, (e, v) ∈ entries → l.value? e = some v)
    (h : l.outlook = lottery.outlook) : l.OutlookFits := by
  replace h := h.trans (Lottery.isOf_of_build hbuilt).outlook
  constructor
  · intro e he
    rw [h] at he
    obtain ⟨v, hv, -⟩ := Lottery.le_of_contains_shares hbuilt he
    rw [contains_eq, hentries e v hv]
    rfl
  · intro e he
    rw [h] at he
    obtain ⟨v, hv, -⟩ := Lottery.lt_of_contains_safe he
    rw [contains_eq, hentries e v hv]
    rfl
  · intro e he
    rw [h] at he ⊢
    obtain ⟨v, hv, hcut⟩ := Lottery.le_of_contains_shares hbuilt he
    rw [Bool.eq_false_iff]
    intro hsafe
    obtain ⟨v', hv', hcut'⟩ := Lottery.lt_of_contains_safe hsafe
    obtain rfl := Option.some.inj ((hentries e v hv).symm.trans (hentries e v' hv'))
    exact Int64.lt_irrefl (Int64.lt_of_lt_of_le hcut' hcut)

theorem remove (h : l.OutlookFits) (e : Entity) : (l.remove e).OutlookFits := by
  have hentry (k : Entity) (hne : k ≠ e) (hk : l.contains k = true) :
      (l.remove e).contains k = true := by
    rwa [contains_eq, value?_remove, if_neg hne]
  have hleft (m : EntityMap Float) (k : Entity) (hk : (m.erase e).contains k = true) :
      k ≠ e ∧ m.contains k = true := by
    rw [EntityMap.contains, EntityMap.get?_erase] at hk
    split at hk
    · cases hk
    · next hne => exact ⟨hne, hk⟩
  constructor
  · intro k hk
    obtain ⟨hne, hk⟩ := hleft l.outlook.positive k hk
    exact hentry k hne (h.positive k hk)
  · intro k hk
    obtain ⟨hne, hk⟩ := hleft l.outlook.negative k hk
    exact hentry k hne (h.negative k hk)
  · intro k hk
    obtain ⟨-, hk⟩ := hleft l.outlook.positive k hk
    rw [Bool.eq_false_iff]
    intro hk'
    obtain ⟨-, hk'⟩ := hleft l.outlook.negative k hk'
    rw [h.apart k hk] at hk'
    cases hk'

theorem removeAll (h : l.OutlookFits) (gone : List Entity) : (l.removeAll gone).OutlookFits := by
  induction gone generalizing l with
  | nil => exact h
  | cons e rest ih => exact ih (h.remove e)

theorem byThreat (t : Tuning) (l : Ledger) (candidates : List Candidate) (r : RandomSource) :
    (Selection.byThreat t l candidates r).2.1.OutlookFits := by
  rw [Selection.byThreat_eq]
  split
  · next lottery hbuilt =>
    exact of_lottery hbuilt (fun e v hv => (Selection.mem_standings.mp hv).1) rfl
  · exact of_empty rfl

theorem law (t : Tuning) : Law t OutlookFits where
  empty := of_empty rfl
  seedAll {l} es h := h.of_outlook_eq (outlook_seedAll l _ es) fun _ he => contains_seedAll he _ es
  add e amount h := h.of_outlook_eq rfl fun _ he => contains_add he e amount _
  removeAll gone h := h.removeAll gone
  decay {l} threshold h := by
    refine h.of_outlook_eq (outlook_decay ..) fun e he => ?_
    rwa [contains_eq, value?_decay, Option.isSome_map]
  raiseTo {l} e value h :=
    h.of_outlook_eq (outlook_raiseTo ..) fun k hk => (contains_raiseTo l e k value).trans hk
  rate candidates r _ := byThreat t _ candidates r

end Ledger.OutlookFits

open Course Hostility.Action

/-- A report gives odds only for names in its threat list. -/
theorem Simulation.mem_threat_of_mem_odds {sim : Simulation}
    (h : sim.state.world.EveryLedger Ledger.OutlookFits) {r : ActorReport} (hr : r ∈ sim.report)
    {name : String} (hname : name ∈ r.odds.map (·.1)) : name ∈ r.threat.map (·.1) := by
  obtain ⟨actor, -, hactor⟩ := List.mem_filterMap.mp hr
  obtain ⟨c, -, rfl⟩ := Option.map_eq_some_iff.mp hactor
  let ledger := (sim.state.world.ledger? actor).getD .empty
  have hfits : ledger.OutlookFits := by
    unfold ledger
    cases hl : sim.state.world.ledger? actor with
    | none => exact .of_empty rfl
    | some l => exact h actor l hl
  obtain ⟨line, hline, rfl⟩ := List.mem_map.mp hname
  obtain ⟨⟨e, share⟩, hshare, rfl⟩ := List.mem_map.mp hline
  have hpositive : ledger.outlook.positive.contains e = true := by
    rw [EntityMap.contains, EntityMap.get?_eq_some_iff.mpr hshare]
    rfl
  obtain ⟨v, hv⟩ := Option.isSome_iff_exists.mp (hfits.positive e hpositive)
  refine List.mem_map.mpr ⟨(sim.nameOf e, v), ?_, rfl⟩
  rw [List.mem_mergeSort]
  exact List.mem_map.mpr ⟨(e, v), EntityMap.get?_eq_some_iff.mp hv, rfl⟩

/-- From a world without ledgers, and as long as the host leaves ledgers alone, every run leads to
ledgers whose outlooks tell of entries only, and of none of them both ways. So a report on the world
that is reached gives no odds for a name that is not in the threat list. -/
theorem playOut_outlooks_fit (setting : Setting) {s : State}
    (hnone : ∀ e, s.world.ledger? e = none) {moves : List Move}
    (hmoves : ∀ move ∈ moves, move.SparesLedgers) :
    let w := (playOut setting moves s).state.world
    (∀ actor l, w.ledger? actor = some l →
      (∀ e, l.outlook.positive.contains e = true ∨ l.outlook.negative.contains e = true →
        l.contains e = true) ∧
      ∀ e, ¬ (l.outlook.positive.contains e = true ∧ l.outlook.negative.contains e = true)) ∧
    ∀ sim : Simulation, sim.state.world = w → ∀ r ∈ sim.report, ∀ name ∈ r.odds.map (·.1),
      name ∈ r.threat.map (·.1) := by
  intro w
  have hfits : w.EveryLedger Ledger.OutlookFits :=
    (Ledger.OutlookFits.law setting.tuning).playOut hnone hmoves
  refine ⟨fun actor l hl => ⟨fun e he => ?_, fun e he => ?_⟩, fun sim hsim r hr name hname => ?_⟩
  · exact he.elim ((hfits actor l hl).positive e) ((hfits actor l hl).negative e)
  · have hapart := (hfits actor l hl).apart e he.1
    rw [he.2] at hapart
    cases hapart
  · exact Simulation.mem_threat_of_mem_odds (hsim ▸ hfits) hr hname

/-- A wolf is hurt and turns on the traveller, who then leaves the world. -/
def parting : List Move :=
  [.ask (.increase ⟨0, 1⟩ ⟨2, 1⟩ 3000), .ask (.think ⟨0, 1⟩), .host (.despawn ⟨2, 1⟩),
    .ask (.prune ⟨0, 1⟩)]

theorem parting_outlooks_fit :
    (∀ e, encounter.world.ledger? e = none) ∧ (∀ move ∈ parting, move.SparesLedgers) ∧
    let w := (playOut {} parting encounter).state.world
    (∀ actor l, w.ledger? actor = some l →
      (∀ e, l.outlook.positive.contains e = true ∨ l.outlook.negative.contains e = true →
        l.contains e = true) ∧
      ∀ e, ¬ (l.outlook.positive.contains e = true ∧ l.outlook.negative.contains e = true)) ∧
    ∀ sim : Simulation, sim.state.world = w → ∀ r ∈ sim.report, ∀ name ∈ r.odds.map (·.1),
      name ∈ r.threat.map (·.1) := by
  have hmoves : ∀ move ∈ parting, move.SparesLedgers := by
    simp [parting, Move.SparesLedgers, Change.SparesLedgers]
  exact ⟨ledger?_encounter, hmoves, playOut_outlooks_fit {} ledger?_encounter hmoves⟩

/-- Whoever is in the world is a newcomer or was there before. -/
theorem World.Admitted.parts_of_get? {α : Type} {parts : α → Components} {newcomers : List α}
    {taken : List Entity} {w w' : World} (h : w.Admitted parts newcomers taken w') {e : Entity}
    {found : Components} (hfound : w'.get? e = some found) :
    (∃ a ∈ newcomers, found = parts a) ∨ w.get? e = some found := by
  by_cases he : e ∈ taken
  · rw [← List.map_snd_zip (Nat.le_of_eq h.length), List.mem_map] at he
    obtain ⟨⟨a, k⟩, hmem, rfl⟩ := he
    have hown := h.own a k hmem
    exact .inl ⟨a, (List.of_mem_zip hmem).1, Option.some.inj (hfound.symm.trans hown)⟩
  · rw [h.others e he] at hfound
    exact .inr hfound

namespace Simulation

variable {P : Ledger → Prop} {sim : Simulation}

theorem step_everyLedger (h : Ledger.Law sim.setting.tuning P)
    (hs : sim.state.world.EveryLedger P) :
    sim.step.2.setting = sim.setting ∧ sim.step.2.state.world.EveryLedger P := by
  have hplayed := play?_follows h.pieces
    (fun actor _ => lawful_update_other (by intro _; rfl) actor) (lawful_spends P) sim.dueHits
    sim.actors sim.tickSeconds sim.state hs
  unfold step
  revert hplayed
  rcases (play? sim.setting sim.dueHits sim.actors sim.tickSeconds).run sim.state with
    ⟨_ | _ | thinkers, s', events⟩
  · exact fun hplayed => ⟨rfl, hplayed⟩
  · exact fun hplayed => ⟨rfl, hplayed⟩
  · intro hplayed
    dsimp only
    cases Clock.advance? s'.now sim.tickLength <;> exact ⟨rfl, hplayed⟩

theorem run_everyLedger (h : Ledger.Law sim.setting.tuning P)
    (hs : sim.state.world.EveryLedger P) (ticks : Nat) :
    (sim.run ticks).2.state.world.EveryLedger P := by
  induction ticks generalizing sim with
  | zero => exact hs
  | succ ticks ih =>
    obtain ⟨hsetting, hstep⟩ := step_everyLedger h hs
    unfold run
    revert hsetting hstep
    rcases sim.step with ⟨_ | report, next⟩
    · exact fun _ hstep => hstep
    · intro hsetting hstep
      have hlaw : Ledger.Law next.setting.tuning P := hsetting ▸ h
      exact ih hlaw hstep

/-- Nobody enters a scenario with a ledger. -/
theorem start_ledger? (scenario : Scenario) (setting : Setting) (random : RandomSource)
    (tickSeconds : Float32) (e : Entity) :
    (start scenario setting random tickSeconds).state.world.ledger? e = none := by
  obtain ⟨w, candidates, hactors, hcandidates, -⟩ :=
    start_admitted scenario setting random tickSeconds
  rw [World.ledger?, Option.bind_eq_none_iff]
  intro parts hparts
  rcases hcandidates.parts_of_get? hparts with ⟨c, -, rfl⟩ | hparts
  · rfl
  · rcases hactors.parts_of_get? hparts with ⟨a, -, rfl⟩ | hparts
    · rfl
    · simp [World.get?, World.empty] at hparts

/-- However long an encounter runs, its reports give no odds without threat. -/
theorem run_odds_among_threat {scenario : Scenario} {setting : Setting} {random : RandomSource}
    {tickSeconds : Float32} (h : build scenario setting random tickSeconds = .ok sim)
    (ticks : Nat) :
    ∀ r ∈ (sim.run ticks).2.report, ∀ name ∈ r.odds.map (·.1), name ∈ r.threat.map (·.1) := by
  obtain ⟨-, rfl⟩ := build_eq_ok.mp h
  have hstart : (start scenario setting random tickSeconds).state.world.EveryLedger
      Ledger.OutlookFits := .of_none (start_ledger? scenario setting random tickSeconds)
  intro r hr name hname
  exact mem_threat_of_mem_odds (run_everyLedger (Ledger.OutlookFits.law _) hstart ticks) hr hname

end Simulation

end Hostility
