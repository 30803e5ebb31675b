import Hostility.Proofs.Turns
import Hostility.Proofs.Warrants

/-!
Actors in legacy mode. Whoever goes by tactics keeps no count of threat: it never gets a ledger or a
passive state from the engine, no threat of it is told, and whoever hits it uses up nothing.
-/
namespace Hostility

open Course Hostility.Action

variable {setting : Setting} {t : Tuning} {x actor e : Entity} {w : World} {s : State}
  {c : Controller} {events : List Event} {f : Components → Components}

/-- Parts without a ledger and a passive state, and with no controller that goes by threat. -/
structure Components.Carefree (c : Components) : Prop where
  legacy : ∀ k, c.controller = some k → k.profile.legacyMode = true
  ledger : c.ledger = none
  bias : c.bias = none

/-- The change of parts leaves ledger and passive state alone, and keeps the profile. -/
structure Components.KeepsMode (f : Components → Components) : Prop where
  ledger : ∀ c, (f c).ledger = c.ledger
  bias : ∀ c, (f c).bias = c.bias
  profile : ∀ c k, (f c).controller = some k → ∃ old, c.controller = some old ∧
    k.profile = old.profile

theorem Components.Carefree.change {parts : Components} (h : parts.Carefree) (hf : KeepsMode f) :
    (f parts).Carefree where
  legacy k hk := by
    obtain ⟨old, hold, hprofile⟩ := hf.profile parts k hk
    rw [hprofile]
    exact h.legacy old hold
  ledger := (hf.ledger parts).trans h.ledger
  bias := (hf.bias parts).trans h.bias

/-- Nothing comes of a change to a ledger and a passive state that are not there. -/
theorem Components.Carefree.map {parts : Components} (h : parts.Carefree)
    (onLedger : Ledger → Ledger) (onBias : PassiveBias → PassiveBias) :
    Components.Carefree
      { parts with ledger := parts.ledger.map onLedger, bias := parts.bias.map onBias } where
  legacy := h.legacy
  ledger := by
    rw [h.ledger]
    rfl
  bias := by
    rw [h.bias]
    rfl

/-- A change of other parts than ledger, passive state and controller. -/
theorem Components.KeepsMode.of_other (hledger : ∀ c, (f c).ledger = c.ledger)
    (hbias : ∀ c, (f c).bias = c.bias) (hcontroller : ∀ c, (f c).controller = c.controller) :
    KeepsMode f where
  ledger := hledger
  bias := hbias
  profile c k hk := ⟨k, (hcontroller c).symm.trans hk, rfl⟩

namespace World

def Carefree (w : World) (x : Entity) : Prop := ∀ parts, w.get? x = some parts → parts.Carefree

namespace Carefree

theorem legacy (h : w.Carefree x) (hc : w.controller? actor = some c) (hself : actor = x) :
    c.profile.legacyMode = true := by
  obtain ⟨parts, hparts, hown⟩ := Option.bind_eq_some_iff.mp hc
  exact (h parts (hself ▸ hparts)).legacy c hown

theorem ledger?_eq_none (h : w.Carefree x) : w.ledger? x = none :=
  Option.bind_eq_none_iff.mpr fun parts hparts => (h parts hparts).ledger

theorem bias?_eq_none (h : w.Carefree x) : w.bias? x = none :=
  Option.bind_eq_none_iff.mpr fun parts hparts => (h parts hparts).bias

theorem of_none (hlegacy : ∀ c, w.controller? x = some c → c.profile.legacyMode = true)
    (hledger : w.ledger? x = none) (hbias : w.bias? x = none) : w.Carefree x := by
  intro parts hparts
  constructor
  · intro k hk
    exact hlegacy k (by rw [controller?, hparts, Option.bind_some, hk])
  · rwa [ledger?, hparts] at hledger
  · rwa [bias?, hparts] at hbias

theorem update (h : w.Carefree x) (hf : e = x → ∀ parts, parts.Carefree → (f parts).Carefree) :
    (w.update e f).Carefree x := by
  intro parts hparts
  rw [get?_update] at hparts
  split at hparts
  · next hx =>
    obtain ⟨old, hold, rfl⟩ := Option.map_eq_some_iff.mp hparts
    exact hf hx.symm old (h old (hx ▸ hold))
  · exact h parts hparts

theorem updateAll (h : w.Carefree x) (hf : Components.KeepsMode f) :
    (w.updateAll f).Carefree x := by
  intro parts hparts
  rw [get?_updateAll] at hparts
  obtain ⟨old, hold, rfl⟩ := Option.map_eq_some_iff.mp hparts
  exact (h old hold).change hf

theorem setController (h : w.Carefree x) (hc : e = x → c.profile.legacyMode = true) :
    (w.setController e c).Carefree x := by
  refine h.update fun he parts hparts => ⟨?_, hparts.ledger, hparts.bias⟩
  intro k hk
  obtain rfl := Option.some.inj hk
  exact hc he

end Carefree

end World

/-- The event tells of threat that the actor gained, let slip or lost. -/
def Event.IsThreatOf (x : Entity) : Event → Prop
  | .threatIncreased a _ _ _ | .threatSkipped a _ | .threatDecayed a _ _ => a = x
  | _ => False

theorem Event.LeavesThreat.not_isThreatOf {event : Event} (h : event.LeavesThreat) :
    ¬ event.IsThreatOf x := by
  cases event <;> first | exact id | exact h.elim

namespace Course

/-- Whoever is carefree stays so, and no threat of it is told. -/
def carefree (x : Entity) : Course := fun s events s' =>
  s.world.Carefree x → s'.world.Carefree x ∧ ∀ e ∈ events, ¬ e.IsThreatOf x

theorem carefree_closed (x : Entity) : (carefree x).Closed where
  refl s h := ⟨h, by simp⟩
  trans h h' hs := by
    obtain ⟨hmiddle, hevents⟩ := h hs
    obtain ⟨hend, hevents'⟩ := h' hmiddle
    refine ⟨hend, fun e he => ?_⟩
    rcases List.mem_append.mp he with he | he
    · exact hevents e he
    · exact hevents' e he

end Course

theorem carefree_news (h : ∀ e ∈ events, ¬ e.IsThreatOf x) (s : State) :
    carefree x s events s := fun hs => ⟨hs, h⟩

theorem carefree_update (hf : e = x → ∀ parts, parts.Carefree → (f parts).Carefree) (s : State) :
    carefree x s [] { s with world := s.world.update e f } :=
  fun hs => ⟨World.Carefree.update hs hf, by simp⟩

theorem carefree_keeping (hf : Components.KeepsMode f) (e : Entity) (s : State) :
    carefree x s [] { s with world := s.world.update e f } :=
  carefree_update (fun _ _ hparts => hparts.change hf) s

theorem carefree_update_other (hne : e ≠ x) (s : State) :
    carefree x s [] { s with world := s.world.update e f } :=
  carefree_update (fun he => (hne he).elim) s

theorem carefree_setController (hc : e = x → c.profile.legacyMode = true) (s : State) :
    carefree x s [] { s with world := s.world.setController e c } :=
  fun hs => ⟨World.Carefree.setController hs hc, by simp⟩

theorem World.Carefree.ne_of_ledger {l : Ledger} (h : w.Carefree x)
    (hl : w.ledger? actor = some l) : actor ≠ x := by
  rintro rfl
  rw [h.ledger?_eq_none] at hl
  cases hl

theorem World.Carefree.ne_of_bias {b : PassiveBias} (h : w.Carefree x)
    (hb : w.bias? actor = some b) : actor ≠ x := by
  rintro rfl
  rw [h.bias?_eq_none] at hb
  cases hb

theorem World.Carefree.ne_of_goesByThreat (h : w.Carefree x) (hactor : w.GoesByThreat actor) :
    actor ≠ x := by
  intro hself
  obtain ⟨p, hp, hmode⟩ := hactor
  obtain ⟨c, hc, rfl⟩ := Option.map_eq_some_iff.mp hp
  rw [h.legacy hc hself] at hmode
  cases hmode

theorem carefree_setLedger {l : Ledger} (hl : s.world.ledger? actor = some l) (l' : Ledger) :
    carefree x s [] { s with world := s.world.setLedger actor l' } :=
  fun hs => carefree_update_other (hs.ne_of_ledger hl) s hs

theorem carefree_setBias {b : PassiveBias} (hb : s.world.bias? actor = some b) (b' : PassiveBias) :
    carefree x s [] { s with world := s.world.setBias actor b' } :=
  fun hs => carefree_update_other (hs.ne_of_bias hb) s hs

namespace Threat

theorem reset_carefree (actor : Entity) : Follows (carefree x) (reset actor) := by
  intro s
  have htold : carefree x _ [.ledgerReset actor] _ :=
    carefree_news (by simp [Event.IsThreatOf]) (reset actor s).state
  refine (carefree_closed x).trans (carefree_update (fun _ parts hparts => ?_) s) htold
  exact hparts.map (fun _ => .empty) fun _ => ∅

theorem prune_carefree (actor : Entity) : Follows (carefree x) (prune actor) :=
  prune_follows (carefree_closed x) fun s _ => carefree_update (fun _ _ hparts => hparts.map _ _) s

theorem lower_carefree (t : Tuning) (actor : Entity) : Follows (carefree x) (lower t actor) := by
  refine lower_follows (carefree_closed x) fun s l lowered amount hl _ hs => ?_
  have hne := hs.ne_of_ledger hl
  have htold : ∀ s', carefree x s' [.threatDecayed actor amount l.size] s' :=
    carefree_news (by simpa [Event.IsThreatOf] using hne)
  exact (carefree_closed x).trans (carefree_setLedger hl lowered) (htold _) hs

end Threat

/-- Whatever the engine warrants for a piece, it does not for someone carefree. -/
theorem carefree_warranted (setting : Setting) {request : Request}
    (h : ¬ request.SeedsOutright x) : (carefree x).Warranted setting request where
  closed := carefree_closed x
  drawn s _ hs := (carefree_closed x).refl s hs
  news _ hevents := carefree_news fun e he => (hevents e he).not_isThreatOf
  reset := Threat.reset_carefree
  prune := Threat.prune_carefree
  lower := Threat.lower_carefree setting.tuning
  rate _ _ _ _ _ hl := carefree_setLedger hl _
  elapse seconds s hs := by
    refine ⟨hs.updateAll ⟨by intro _; rfl, by intro _; rfl, fun parts k hk => ?_⟩, by simp⟩
    obtain ⟨old, hold, rfl⟩ := Option.map_eq_some_iff.mp hk
    exact ⟨old, hold, rfl⟩
  note s _ hs := (carefree_closed x).refl s hs
  rewrite s actor old c hc hprofile hs := by
    have hmode := hs.legacy hc
    exact carefree_setController (fun hself => by rw [hprofile, hmode hself]) s hs
  log actor _ :=
    carefree_keeping (.of_other (by intro _; rfl) (by intro _; rfl) (by intro _; rfl)) actor
  make actor s hactor _ hs := by
    have hne : actor ≠ x := hactor.elim hs.ne_of_goesByThreat fun hseeds hself =>
      h (hself ▸ hseeds)
    exact carefree_update_other hne s hs
  seedAll _ _ _ _ hl _ := carefree_setLedger hl _
  seedEnemy _ _ s hally _ hs := carefree_update_other (hs.ne_of_goesByThreat hally) s hs
  spend _ source _ s _ :=
    carefree_keeping (.of_other (by intro _; rfl) (by intro _; rfl) (by intro _; rfl)) source s
  skip actor source s hnotes hs := by
    have hne := hs.ne_of_goesByThreat (World.goesByThreat_of_notes hnotes)
    exact carefree_news (by simpa [Event.IsThreatOf] using hne) s hs
  raise actor source s l amount hnotes hl hs := by
    have hne := hs.ne_of_goesByThreat (World.goesByThreat_of_notes hnotes)
    refine (carefree_closed x).trans (carefree_setLedger hl _) (carefree_news ?_ _) hs
    simpa [Event.IsThreatOf] using hne
  makeBias _ s hactor hs := carefree_update_other (hs.ne_of_goesByThreat hactor) s hs
  pass actor s l b candidates hl _ hs := by
    have hne := hs.ne_of_ledger hl
    exact (carefree_closed x).trans (carefree_update_other hne s) (carefree_update_other hne _) hs
  streaks _ _ _ _ hb := carefree_setBias hb _

/-- No threat is noted for someone carefree. -/
theorem Threat.increase_of_carefree (t : Tuning) (hs : s.world.Carefree x) (candidate : Entity)
    (base : Int64) : (increase t x candidate base s).state = s := by
  have hnotes : s.world.notes t x candidate = false := by
    refine Bool.eq_false_iff.mpr fun hnotes => ?_
    exact hs.ne_of_goesByThreat (World.goesByThreat_of_notes hnotes) rfl
  obtain ⟨result, hrun, -⟩ := increase_of_not_noted hnotes base
  rw [hrun]

/-- A hit on someone carefree uses up nobody's flags. -/
theorem Engine.recordDamage_spares_modifiers (setting : Setting) (hs : s.world.Carefree x)
    (attacker : Entity) (amount : Int64) (e : Entity) :
    ((recordDamage setting.tuning x attacker amount s).state.world.get? e).bind (·.modifiers) =
      (s.world.get? e).bind (·.modifiers) := by
  have hcarefree : (carefree x).Warranted setting (.recordDamage x attacker amount) :=
    carefree_warranted setting id
  -- That the victim stays carefree goes along, since the increase comes last.
  let R : Course := fun s events s' => carefree x s events s' ∧ (s.world.Carefree x →
    ∀ e, (s'.world.get? e).bind (·.modifiers) = (s.world.get? e).bind (·.modifiers))
  have hclosed : R.Closed :=
    { refl := fun s => ⟨(carefree_closed x).refl s, fun _ _ => rfl⟩
      trans := fun h h' => ⟨(carefree_closed x).trans h.1 h'.1, fun hs e =>
        (h'.2 (h.1 hs).1 e).trans (h.2 hs e)⟩ }
  have hruns : Follows R (recordDamage setting.tuning x attacker amount) := by
    refine recordDamage_follows hclosed
      (fun hit s => ⟨hcarefree.log x hit s, fun _ e => World.bind_get?_update ?_ s.world x e⟩)
      (fun s c hc => ⟨hcarefree.rewrite s x c _ hc rfl,
        fun _ e => World.bind_get?_update ?_ s.world x e⟩)
      fun s => ⟨hcarefree.increase x attacker amount s, fun hs e => ?_⟩
    · intro _
      rfl
    · intro _
      rfl
    · rw [Threat.increase_of_carefree setting.tuning hs attacker amount]
  exact (hruns s).2 hs e

/-- The property holds at the start of a run and after each of its moves. -/
def Throughout (setting : Setting) (p : State → Prop) (moves : List Move) (s : State) : Prop :=
  ∀ earlier later, moves = earlier ++ later → p (playOut setting earlier s).state

theorem throughout_cons {p : State → Prop} {move : Move} {moves : List Move} :
    Throughout setting p (move :: moves) s ↔
      p s ∧ Throughout setting p moves (move.perform setting s).state := by
  constructor
  · refine fun h => ⟨h [] _ rfl, fun earlier later hmoves => ?_⟩
    have hlater := h (move :: earlier) later (by rw [hmoves]; rfl)
    rwa [playOut_cons] at hlater
  · rintro ⟨hstart, hrest⟩ earlier later hmoves
    rcases List.cons_eq_append_iff.mp hmoves with ⟨rfl, -⟩ | ⟨tail, rfl, htail⟩
    · exact hstart
    · rw [playOut_cons]
      exact hrest tail later htail

/-- A host that leaves ledgers and passive states alone: whoever arrives has none. -/
def Change.SparesThreat : Change → Prop
  | .spawn parts => parts.ledger = none ∧ parts.bias = none
  | .edit _ f => ∀ parts, (f parts).ledger = parts.ledger ∧ (f parts).bias = parts.bias
  | .despawn _ | .setClock _ | .setRandom _ => True

/-- A move that gives an actor neither a ledger nor a passive state outright. -/
def Move.SparesThreatOf (x : Entity) : Move → Prop
  | .ask request => ¬ request.SeedsOutright x
  | .host change => change.SparesThreat

theorem Change.SparesThreat.apply {change : Change} (h : change.SparesThreat)
    (hs : s.world.Carefree x)
    (hlegacy : ∀ c, (change.apply s).world.controller? x = some c → c.profile.legacyMode = true) :
    (change.apply s).world.Carefree x := by
  intro parts hparts
  have hbare : parts.ledger = none ∧ parts.bias = none := by
    rcases Change.get?_apply hparts with hold | ⟨f, old, rfl, hold, rfl⟩ | ⟨rfl, -⟩
    · exact ⟨(hs parts hold).ledger, (hs parts hold).bias⟩
    · rw [(h old).1, (h old).2]
      exact ⟨(hs old hold).ledger, (hs old hold).bias⟩
    · exact h
  refine ⟨fun k hk => hlegacy k ?_, hbare.1, hbare.2⟩
  rw [World.controller?, hparts, Option.bind_some, hk]

theorem Move.perform_carefree {move : Move} (h : move.SparesThreatOf x) (hs : s.world.Carefree x)
    (hlegacy : ∀ c, (move.perform setting s).state.world.controller? x = some c →
      c.profile.legacyMode = true) :
    (move.perform setting s).state.world.Carefree x ∧
      ∀ e ∈ (move.perform setting s).events, ¬ e.IsThreatOf x := by
  cases move with
  | ask request => exact (carefree_warranted setting h).perform s hs
  | host change => exact ⟨h.apply hs hlegacy, by simp [perform]⟩

/-- An actor that goes by tactics throughout a run, and starts carefree, is carefree throughout. -/
theorem playOut_carefree {moves : List Move} (hs : s.world.Carefree x)
    (hmoves : ∀ move ∈ moves, move.SparesThreatOf x)
    (hlegacy : Throughout setting (fun s => ∀ c, s.world.controller? x = some c →
      c.profile.legacyMode = true) moves s) :
    Throughout setting (fun s => s.world.Carefree x) moves s ∧
      ∀ e ∈ (playOut setting moves s).events, ¬ e.IsThreatOf x := by
  induction moves generalizing s with
  | nil =>
    refine ⟨fun earlier later hmoves => ?_, by simp [playOut, forEach, Action.pure]⟩
    obtain ⟨rfl, -⟩ := List.append_eq_nil_iff.mp hmoves.symm
    exact hs
  | cons move moves ih =>
    obtain ⟨-, hrest⟩ := throughout_cons.mp hlegacy
    have hafter : ∀ c, (move.perform setting s).state.world.controller? x = some c →
        c.profile.legacyMode = true := hrest [] moves rfl
    obtain ⟨hstep, hevents⟩ := Move.perform_carefree (hmoves move (by simp)) hs hafter
    obtain ⟨hcarefree, hlater⟩ := ih hstep (fun m hm => hmoves m (by simp [hm])) hrest
    refine ⟨throughout_cons.mpr ⟨hs, hcarefree⟩, fun e he => ?_⟩
    rw [playOut_cons] at he
    rcases List.mem_append.mp he with he | he
    · exact hevents e he
    · exact hlater e he

/-- An actor that goes by tactics throughout a run, and starts without a ledger and a passive state,
never has either, as long as nobody but the engine's own decisions could give it one. No threat of
it is ever told, and no hit on it changes anybody's modifiers. -/
theorem playOut_legacy_actor_keeps_no_threat {moves : List Move}
    (hledger : s.world.ledger? x = none) (hbias : s.world.bias? x = none)
    (hmoves : ∀ move ∈ moves, move.SparesThreatOf x)
    (hlegacy : Throughout setting (fun s => ∀ c, s.world.controller? x = some c →
      c.profile.legacyMode = true) moves s) :
    Throughout setting (fun s => s.world.ledger? x = none ∧ s.world.bias? x = none) moves s ∧
    (∀ e ∈ (playOut setting moves s).events, ¬ e.IsThreatOf x) ∧
    ∀ earlier attacker amount later,
      moves = earlier ++ .ask (.recordDamage x attacker amount) :: later →
      let before := (playOut setting earlier s).state
      let after := ((Request.recordDamage x attacker amount).perform setting before).state
      ∀ e, (after.world.get? e).bind (·.modifiers) = (before.world.get? e).bind (·.modifiers) := by
  have hstart : s.world.Carefree x := .of_none (hlegacy [] moves rfl) hledger hbias
  obtain ⟨hcarefree, hevents⟩ := playOut_carefree hstart hmoves hlegacy
  refine ⟨fun earlier later hsplit => ?_, hevents, ?_⟩
  · have hat := hcarefree earlier later hsplit
    exact ⟨hat.ledger?_eq_none, hat.bias?_eq_none⟩
  · intro earlier attacker amount later hsplit before after e
    exact Engine.recordDamage_spares_modifiers setting (hcarefree earlier _ hsplit)
      attacker amount e

/-- No request changes a profile, so an actor stays in its mode as long as the host is idle. -/
theorem throughout_legacy {requests : List Request}
    (h : ∀ c, s.world.controller? x = some c → c.profile.legacyMode = true) :
    Throughout setting (fun s => ∀ c, s.world.controller? x = some c →
      c.profile.legacyMode = true) (requests.map .ask) s := by
  induction requests generalizing s with
  | nil =>
    intro earlier later hmoves
    obtain ⟨rfl, -⟩ := List.append_eq_nil_iff.mp hmoves.symm
    exact h
  | cons request requests ih =>
    refine throughout_cons.mpr ⟨h, ih fun c' hc' => ?_⟩
    have hsteers : steering True s _ _ := request.perform_steering setting (fun _ => trivial) s
    obtain ⟨c, hc, hprofile⟩ := hsteers.exists_profile hc'
    rw [hprofile]
    exact h c hc

/-- A wolf that goes by tactics, one of its pack that goes by threat, and a traveller whose next
threat is to be doubled. -/
def pair : State where
  world :=
    let wolf (profile : Profile) : Components :=
      { position := some ⟨0.0, 0.0, 0.0⟩
        allegiance := some ⟨.neutral, .ofFriends "wolf" []⟩
        controller := some (.ofProfile profile) }
    let traveller : Components :=
      { position := some ⟨3.0, 0.0, 0.0⟩
        targetable := some .player
        modifiers := some { doubleNext := true } }
    (((World.empty.spawn (wolf { legacyMode := true })).2.spawn (wolf {})).2.spawn traveller).2
  random := .cycle [0]
  now := 0
  alerts := ∅

/-- The wolf that goes by threat turns on the traveller and calls, and the other one is hit, thinks
and comes home. -/
def hunt : List Request :=
  [.think ⟨1, 1⟩, .recordDamage ⟨0, 1⟩ ⟨2, 1⟩ 10, .update 1.0, .increase ⟨0, 1⟩ ⟨2, 1⟩ 50,
    .arriveHome ⟨0, 1⟩]

theorem hunt_legacy_wolf_keeps_no_threat :
    let moves := hunt.map Move.ask
    pair.world.ledger? ⟨0, 1⟩ = none ∧ pair.world.bias? ⟨0, 1⟩ = none ∧
    (∀ move ∈ moves, move.SparesThreatOf ⟨0, 1⟩) ∧
    Throughout {} (fun s => ∀ c, s.world.controller? ⟨0, 1⟩ = some c →
      c.profile.legacyMode = true) moves pair ∧
    Throughout {} (fun s => s.world.ledger? ⟨0, 1⟩ = none ∧ s.world.bias? ⟨0, 1⟩ = none) moves
      pair ∧
    (∀ e ∈ (playOut {} moves pair).events, ¬ e.IsThreatOf ⟨0, 1⟩) ∧
    ∀ earlier attacker amount later,
      moves = earlier ++ .ask (.recordDamage ⟨0, 1⟩ attacker amount) :: later →
      let before := (playOut {} earlier pair).state
      let after := ((Request.recordDamage ⟨0, 1⟩ attacker amount).perform {} before).state
      ∀ e, (after.world.get? e).bind (·.modifiers) =
        (before.world.get? e).bind (·.modifiers) := by
  intro moves
  have hledger : pair.world.ledger? ⟨0, 1⟩ = none := by decide +kernel
  have hbias : pair.world.bias? ⟨0, 1⟩ = none := by decide +kernel
  have hmoves : ∀ move ∈ moves, move.SparesThreatOf ⟨0, 1⟩ := by
    simp [moves, hunt, Move.SparesThreatOf, Request.SeedsOutright]
  have hlegacy : Throughout {} (fun s => ∀ c, s.world.controller? ⟨0, 1⟩ = some c →
      c.profile.legacyMode = true) moves pair := by
    refine throughout_legacy fun c hc => ?_
    have hwolf : pair.world.controller? ⟨0, 1⟩ =
        some (.ofProfile { legacyMode := true }) := by
      decide +kernel
    obtain rfl := Option.some.inj (hwolf.symm.trans hc)
    rfl
  exact ⟨hledger, hbias, hmoves, hlegacy,
    playOut_legacy_actor_keeps_no_threat hledger hbias hmoves hlegacy⟩

end Hostility
