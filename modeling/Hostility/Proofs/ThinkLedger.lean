import Hostility.Proofs.Hosting
import Hostility.Proofs.LedgerView
import Hostility.Proofs.Sightings
import Hostility.Proofs.ThinkStages

/-!
What one think does to the ledger of an actor that keeps one. Whoever died or left is dropped, one
decay lowers what is left, and the candidates found afterwards get entries at the floor. Nothing
else of the think changes a value, but for the bias pass, which raises passive candidates.
-/
namespace Hostility

variable {actor : Entity} {s : State} {loose : Entity → Prop}

/-- Whether an event tells of a decay of an actor's ledger. -/
def Event.tellsDecayOf (actor : Entity) : Event → Bool
  | .threatDecayed a _ _ => decide (a = actor)
  | _ => false

namespace Course

/-- An actor with a ledger keeps one that is alike, and no decay of it is told. -/
def alike (actor : Entity) (loose : Entity → Prop) : Course := fun s events s' =>
  (∀ l, s.world.ledger? actor = some l →
    ∃ l', s'.world.ledger? actor = some l' ∧ l.AlikeBut loose l') ∧
  events.filter (Event.tellsDecayOf actor) = []

theorem alike_closed (actor : Entity) (loose : Entity → Prop) : (alike actor loose).Closed where
  refl _ := ⟨fun l hl => ⟨l, hl, .refl l⟩, rfl⟩
  trans h h' := by
    refine ⟨fun l hl => ?_, by rw [List.filter_append, h.2, h'.2, List.append_nil]⟩
    obtain ⟨l', hl', halike⟩ := h.1 l hl
    obtain ⟨l'', hl'', halike'⟩ := h'.1 l' hl'
    exact ⟨l'', hl'', halike.trans halike'⟩

theorem alike_of_ledger_eq {s' : State} {events : List Event}
    (h : s'.world.ledger? actor = s.world.ledger? actor)
    (hevents : events.filter (Event.tellsDecayOf actor) = []) : alike actor loose s events s' := by
  refine ⟨fun l hl => ⟨l, h.trans hl, .refl l⟩, hevents⟩

end Course

open Course Hostility.Action

/-- A change of other parts than the ledger. -/
theorem alike_update {f : Components → Components} (h : ∀ c, (f c).ledger = c.ledger) (e : Entity)
    (s : State) : alike actor loose s [] { s with world := s.world.update e f } :=
  alike_of_ledger_eq (World.bind_get?_update h s.world e actor) rfl

theorem alike_setBias (b : PassiveBias) (e : Entity) (s : State) :
    alike actor loose s [] { s with world := s.world.setBias e b } := by
  refine alike_update ?_ e s
  intro c
  rfl

theorem alike_setLedger {l l' : Ledger} (hl : s.world.ledger? actor = some l)
    (h : l.AlikeBut loose l') :
    alike actor loose s [] { s with world := s.world.setLedger actor l' } := by
  refine ⟨fun old hold => ⟨l', World.ledger?_setLedger (World.contains_of_bind hl) l', ?_⟩, rfl⟩
  · obtain rfl : l = old := Option.some.inj (hl.symm.trans hold)
    exact h

namespace Engine

/-- The bias pass moves the entries of passive candidates only. -/
theorem biasPass_alike (t : Tuning) {candidates : List Candidate}
    (hloose : ∀ c ∈ candidates, c.isPassive = true → loose c.entity) :
    Follows (alike actor loose) (biasPass t actor candidates) := by
  have hclosed := alike_closed actor loose
  refine .world_bind fun s => ?_
  cases hl : s.world.ledger? actor with
  | none => exact hclosed.refl s
  | some l =>
    cases s.world.bias? actor with
    | none => exact hclosed.refl s
    | some b =>
      have hraised : l.AlikeBut loose (BiasPass.apply t l b candidates).2.1 :=
        BiasPass.applyAll_keeps (fun l' c value hc hpassive h =>
          h.trans (.raiseTo (hloose c hc hpassive) l' value)) (.refl l)
      exact hclosed.trans (alike_setLedger hl hraised) (alike_setBias _ actor _)

theorem ensureBias_alike (hw : s.world.contains actor = true) :
    alike actor loose s (Threat.ensureBias actor s).events (Threat.ensureBias actor s).state := by
  unfold Threat.ensureBias
  rw [world_bind]
  split
  · exact (alike_closed actor loose).refl s
  · rw [insert_of_contains hw]
    refine alike_update ?_ actor s
    intro c
    rfl

theorem selectOnce_alike (setting : Setting) (c : Controller) (candidates : List Candidate) :
    Follows (alike actor loose) (selectOnce setting actor c candidates) := by
  have hclosed := alike_closed actor loose
  refine .world_bind fun s => ?_
  split
  · exact alike_of_ledger_eq rfl rfl
  · cases hl : s.world.ledger? actor with
    | none => exact hclosed.refl s
    | some l =>
      obtain ⟨outlook, hrated⟩ := Selection.byThreat_ledger setting.tuning l candidates s.random
      have halike : l.AlikeBut loose { l with outlook } := ⟨rfl, fun _ => rfl, fun _ _ => rfl⟩
      rw [← hrated] at halike
      exact alike_setLedger hl halike

theorem attempt_alike (setting : Setting) (perception : Nat) (target : Entity) (crowd : Nat) :
    Follows (alike actor loose) (Deception.attempt setting actor perception target crowd) := by
  refine .world_bind fun s => ?_
  cases Deception.attempter? s.world target crowd with
  | none => exact (alike_closed actor loose).refl s
  | some hidden => exact alike_of_ledger_eq rfl rfl

theorem selectUndeceived_alike (setting : Setting) (c : Controller) (tries : Nat)
    (remaining : List Candidate) :
    Follows (alike actor loose) (selectUndeceived setting actor c tries remaining) := by
  apply selectUndeceived_follows (alike_closed actor loose)
  · exact selectOnce_alike setting c
  · exact attempt_alike setting c.profile.perception

theorem recordStreaks_alike (chosen : Option Entity) :
    Follows (alike actor loose) (recordStreaks actor chosen) := by
  refine .world_bind fun s => ?_
  cases s.world.bias? actor with
  | none => exact (alike_closed actor loose).refl s
  | some b => exact alike_setBias _ actor s

end Engine

namespace Alert

theorem answering_ne {radius : Float} {w : World} {caller enemy ally : Entity} {own : Allegiance}
    (h : ally ∈ answering (.proximity radius) w caller enemy own) : ally ≠ caller := by
  obtain ⟨seen, hseen, rfl⟩ := List.mem_map.mp h
  have hvisible := (List.mem_filter.mp (List.mem_filter.mp hseen).1).1
  exact Visibility.ne_of_mem_proximity hvisible

/-- Waking an ally changes the ally only. -/
theorem wake_alike (t : Tuning) (caller enemy : Entity) (callerRetaliates : Bool) {ally : Entity}
    (hne : ally ≠ actor) :
    Follows (alike actor loose) (wake t caller enemy callerRetaliates ally) := by
  refine .world_bind fun s => ?_
  cases hc : s.world.controller? ally with
  | none => exact alike_of_ledger_eq rfl rfl
  | some c =>
    refine alike_of_ledger_eq ?_ rfl
    have hother : ∀ (w : World) (f : Components → Components),
        (w.update ally f).ledger? actor = w.ledger? actor := by
      intro w f
      rw [World.ledger?, World.ledger?, World.get?_update, if_neg (Ne.symm hne)]
    show World.ledger? (if _ then _ else _) actor = _
    split
    · rw [seedEnemy, hother, World.setController, hother]
    · rw [World.setController, hother]

theorem propagate_alike {setting : Setting} {radius : Float}
    (hv : setting.visibility = .proximity radius) (actor enemy : Entity) :
    Follows (alike actor loose) (propagate setting actor enemy) := by
  have hclosed := alike_closed actor loose
  apply propagate_follows hclosed
  · exact fun s table => alike_of_ledger_eq rfl rfl
  · intro retaliates own s
    refine Follows.forEach hclosed (fun ally hally => ?_) s
    rw [hv] at hally
    exact wake_alike _ actor enemy _ (answering_ne hally)

end Alert

theorem Engine.alarm_alike {setting : Setting} {radius : Float}
    (hv : setting.visibility = .proximity radius) (wokeFrom : Awareness) (enemy? : Option Entity) :
    Follows (alike actor loose) (alarm setting actor wokeFrom enemy?) :=
  alarm_follows (alike_closed actor loose) wokeFrom (Alert.propagate_alike hv actor) enemy?

/-- An outcome that leaves an actor a ledger like `l` and tells of no decay of it. -/
structure LeftWith {α : Type} (actor : Entity) (loose : Entity → Prop) (l : Ledger)
    (o : Outcome α) : Prop where
  ledger : ∃ l', o.state.world.ledger? actor = some l' ∧ l.AlikeBut loose l'
  events : o.events.filter (Event.tellsDecayOf actor) = []

theorem LeftWith.bind {α β : Type} {m : Action α} {f : α → Action β} {l : Ledger}
    (hm : LeftWith actor loose l (m s)) (hok : ∃ a, (m s).result = .ok a)
    (hf : ∀ a, alike actor loose (m s).state (f a (m s).state).events (f a (m s).state).state) :
    LeftWith actor loose l ((m >>= f) s) := by
  obtain ⟨a, ha⟩ := hok
  obtain ⟨l', hl', halike⟩ := hm.ledger
  obtain ⟨l'', hl'', halike'⟩ := (hf a).1 l' hl'
  rw [bind_of_ok ha]
  refine ⟨⟨l'', hl'', halike.trans halike'⟩, ?_⟩
  rw [List.filter_append, hm.events, (hf a).2, List.append_nil]

/-- The entities of the candidates whose names are not reserved. -/
def Threat.seedable (t : Tuning) (w : World) (candidates : List Candidate) : List Entity :=
  (candidates.map (·.entity)).filter fun e => !isReserved t w e

theorem Threat.mem_seedable {t : Tuning} {w : World} {candidates : List Candidate} {e : Entity} :
    e ∈ seedable t w candidates ↔
      (∃ k ∈ candidates, k.entity = e) ∧ isReserved t w e = false := by
  simp [seedable]

/-- The ledger of an actor with entries for the candidates that may be seeded. -/
def Threat.seeded (t : Tuning) (w : World) (actor : Entity) (candidates : List Candidate) :
    Ledger :=
  (((w.ledger? actor).getD .empty).seedAll t.threatMinimum (seedable t w candidates)).1

theorem Threat.seedCandidates_leftWith (t : Tuning) (candidates : List Candidate)
    (hw : s.world.contains actor = true) :
    LeftWith actor loose (seeded t s.world actor candidates)
      (seedCandidates t actor candidates s) := by
  have htended := ensureLedger_tended hw
  obtain ⟨_, hok⟩ := htended.accepted
  have hledger := ledger?_ensureLedger hw
  have hcontains := (htended.world.contains_eq actor).trans hw
  unfold seedCandidates
  rw [world_bind, bind_of_ok hok, events_ensureLedger]
  unfold ledgerOf
  rw [bind_assoc, world_bind, hledger]
  refine ⟨⟨_, World.ledger?_setLedger hcontains _, .refl _⟩, rfl⟩

namespace Engine

theorem prepare_leftWith (t : Tuning) {candidates : List Candidate}
    (hw : s.world.contains actor = true)
    (hloose : ∀ c ∈ candidates, c.isPassive = true → loose c.entity) :
    LeftWith actor loose (Threat.seeded t s.world actor candidates)
      (prepare t actor candidates s) := by
  have hclosed := alike_closed actor loose
  have hseed := Threat.seedCandidates_tended t candidates hw
  refine (Threat.seedCandidates_leftWith t candidates hw).bind hseed.accepted fun _ => ?_
  have hcontains := (hseed.world.contains_eq actor).trans hw
  exact hclosed.bind (ensureBias_alike hcontains) fun _ _ => biasPass_alike t hloose _

theorem choose_leftWith (setting : Setting) {c : Controller} {candidates : List Candidate}
    (hmode : c.profile.legacyMode = false) (hw : s.world.contains actor = true)
    (hloose : ∀ k ∈ candidates, k.isPassive = true → loose k.entity) :
    LeftWith actor loose (Threat.seeded setting.tuning s.world actor candidates)
      (choose setting actor c candidates s) := by
  have hclosed := alike_closed actor loose
  unfold choose
  rw [hmode]
  refine (prepare_leftWith setting.tuning hw hloose).bind
    (prepare_tended setting.tuning candidates hw).accepted fun _ => ?_
  refine Follows.bind hclosed (selectUndeceived_alike setting c _ candidates) (fun choice => ?_) _
  exact .bind hclosed (.whenever hclosed (recordStreaks_alike _) _) fun _ => .pure hclosed _

end Engine

/-- One decay under a tuning in a world. -/
def Threat.decayed (t : Tuning) (w : World) (l : Ledger) : Ledger × Option Int64 :=
  l.decay t.threatMinimum t.decayFraction w.passive?

namespace Threat

theorem prune_run (actor : Entity) (s : State) :
    (prune actor s).state.world.ledger? actor = (s.world.ledger? actor).map (pruned s.world) ∧
      (prune actor s).events = [] := by
  cases hl : s.world.ledger? actor with
  | none =>
    rw [prune_of_no_ledger hl]
    exact ⟨hl, rfl⟩
  | some l =>
    rw [prune_of_ledger hl]
    exact ⟨ledger?_after_prune hl, rfl⟩

/-- The events of one decay of an actor's ledger. -/
def tellDecay (actor : Entity) (entries : Nat) : Option Int64 → List Event
  | some amount => [.threatDecayed actor amount entries]
  | none => []

theorem lower_run (t : Tuning) {l : Ledger} (hl : s.world.ledger? actor = some l) :
    (lower t actor s).state.world.ledger? actor = some (decayed t s.world l).1 ∧
      (lower t actor s).events = tellDecay actor l.size (decayed t s.world l).2 := by
  have hstep : decayed t s.world l =
      l.decay t.threatMinimum t.decayFraction s.world.passive? := rfl
  unfold lower lowerBy
  rw [world_bind, world_bind, hl]
  dsimp only
  rw [← hstep]
  cases hempty : l.isEmpty with
  | true =>
    rw [decayed, Ledger.decay_of_isEmpty hempty]
    exact ⟨hl, rfl⟩
  | false =>
    obtain ⟨-, hamount⟩ :=
      Ledger.decay_of_not_isEmpty hempty t.threatMinimum t.decayFraction s.world.passive?
    have hresult : decayed t s.world l =
        ((decayed t s.world l).1, some (l.decayAmount t.threatMinimum t.decayFraction)) :=
      Prod.ext rfl hamount
    rw [hresult]
    exact ⟨World.ledger?_setLedger (World.contains_of_bind hl) _, rfl⟩

theorem decay_run (t : Tuning) (actor : Entity) (s : State) :
    (decay t actor s).state.world.ledger? actor =
        (s.world.ledger? actor).map (fun l => (decayed t s.world (pruned s.world l)).1) ∧
      (decay t actor s).events =
        match s.world.ledger? actor with
        | some l => tellDecay actor (pruned s.world l).size (decayed t s.world (pruned s.world l)).2
        | none => [] := by
  have htended := prune_tended actor s
  obtain ⟨_, hok⟩ := htended.accepted
  obtain ⟨hledger, hevents⟩ := prune_run actor s
  have hpassive : (prune actor s).state.world.passive? = s.world.passive? := by
    funext e
    exact htended.world.bind_eq (fun _ => rfl) e
  have hdecayed : ∀ l, decayed t (prune actor s).state.world l = decayed t s.world l := by
    intro l
    rw [decayed, decayed, hpassive]
  rw [decay_eq, bind_of_ok hok, hevents, List.nil_append]
  cases hl : s.world.ledger? actor with
  | none =>
    rw [hl, Option.map_none] at hledger
    unfold lower lowerBy
    rw [world_bind, world_bind, hledger]
    exact ⟨hledger, rfl⟩
  | some l =>
    rw [hl, Option.map_some] at hledger
    obtain ⟨hlowered, htold⟩ := lower_run t hledger
    rw [hdecayed] at hlowered htold
    exact ⟨hlowered, htold⟩

/-- What pruning and one decay leave of a ledger, and what is told of it. -/
theorem decayed_pruned (t : Tuning) (w : World) (actor : Entity) (l : Ledger) :
    let present := l.tracked.filter w.isPresent
    let after := (decayed t w (pruned w l)).1
    let told := tellDecay actor (pruned w l).size (decayed t w (pruned w l)).2
    after.tracked = present ∧ (present = [] → told = []) ∧
      (present ≠ [] → ∃ amount, 1 ≤ amount ∧
        told = [.threatDecayed actor amount present.length] ∧ after.gained = 0 ∧
        ∀ e ∈ present, w.passive? e = none → ∃ old new, l.value? e = some old ∧
          after.value? e = some new ∧
          new.toInt = max (old.toInt - amount.toInt) t.threatMinimum.toInt) := by
  intro present after told
  have htracked : (pruned w l).tracked = present := tracked_pruned w l
  refine ⟨(Ledger.tracked_decay ..).trans htracked, fun hnobody => ?_, fun hsomebody => ?_⟩
  · have hempty : (pruned w l).isEmpty = true := Ledger.isEmpty_iff.mpr (htracked.trans hnobody)
    show tellDecay actor _ (decayed t w (pruned w l)).2 = []
    rw [decayed, Ledger.decay_of_isEmpty hempty]
    rfl
  · have hsome : (pruned w l).isEmpty = false := by
      rw [Bool.eq_false_iff, Ne, Ledger.isEmpty_iff, htracked]
      exact hsomebody
    obtain ⟨hgained, hamount⟩ :=
      Ledger.decay_of_not_isEmpty hsome t.threatMinimum t.decayFraction w.passive?
    have hleast := Ledger.one_le_decayAmount (pruned w l) t.threatMinimum t.decayFraction
    refine ⟨_, hleast, ?_, hgained, fun e he hpassive => ?_⟩
    · show tellDecay actor _ (decayed t w (pruned w l)).2 = _
      rw [decayed, hamount, Ledger.size_eq, htracked]
      rfl
    · obtain ⟨hkey, hpresent⟩ := List.mem_filter.mp he
      obtain ⟨old, hold⟩ := Option.isSome_iff_exists.mp (Ledger.mem_tracked.mp hkey)
      refine ⟨old, _, hold, ?_, Ledger.toInt_decayed hleast t.threatMinimum old⟩
      show (Ledger.decay ..).1.value? e = _
      have hvalue : l.value? e = some old := hold
      rw [Ledger.value?_decay, value?_pruned hpresent, hpassive, hvalue]
      rfl

theorem reset_run (actor : Entity) (s : State) :
    (reset actor s).state.world.ledger? actor = (s.world.ledger? actor).map (fun _ => .empty) ∧
      (reset actor s).events = [.ledgerReset actor] := by
  refine ⟨?_, rfl⟩
  show (s.world.update actor _).ledger? actor = _
  rw [World.ledger?, World.ledger?, World.get?_update, if_pos rfl]
  cases s.world.get? actor <;> rfl

variable {w w' : World}

theorem decayed_congr (h : w.SameButThreat actor w') (t : Tuning) (l : Ledger) :
    decayed t w' l = decayed t w l := by
  rw [decayed, decayed, h.passive?_eq]

end Threat

namespace Engine

/-- The ledger that an actor starts its think with: none is left of it after a switch of modes. -/
def startLedger (c : Controller) (old : Option Ledger) : Option Ledger :=
  if c.modeSwitched then old.map fun _ => .empty else old

theorem getD_startLedger {c : Controller} (hmode : c.profile.legacyMode = false)
    (old : Option Ledger) :
    (startLedger c old).getD .empty =
      if c.lastLegacyMode = some true then .empty else old.getD .empty := by
  unfold startLedger Controller.modeSwitched
  rw [hmode]
  cases c.lastLegacyMode with
  | none => rfl
  | some legacy =>
    cases legacy with
    | false => rfl
    | true => cases old <;> rfl

/-- The upkeep of an actor that keeps a ledger. -/
theorem upkeep_eq (t : Tuning) {c : Controller} (hc : s.world.controller? actor = some c)
    (hmode : c.profile.legacyMode = false) :
    let switched := Action.when c.modeSwitched (Threat.reset actor) s
    let lowered := Threat.decay t actor switched.state
    upkeep t actor s = ⟨.ok c, lowered.state, switched.events ++ lowered.events⟩ := by
  intro switched lowered
  obtain ⟨_, hswitched⟩ : ∃ a, (Action.when c.modeSwitched (Threat.reset actor) s).result = .ok a :=
    (Tended.whenever fun _ => Threat.reset_tended actor s).accepted
  obtain ⟨_, hlowered⟩ := (Threat.decay_tended t actor switched.state).accepted
  have hstep : ((do
      let _ ← Threat.decay t actor
      pure () : Action Unit) switched.state) = ⟨.ok (), lowered.state, lowered.events⟩ := by
    rw [bind_of_ok hlowered]
    simp [lowered]
  unfold upkeep
  rw [bind_of_ok (by rw [controllerOf_eq hc]), controllerOf_eq hc]
  dsimp only
  rw [bind_of_ok hswitched, hmode, Bool.not_false, when_true, bind_of_ok (by rw [hstep]), hstep]
  simp [switched]

theorem upkeep_run (t : Tuning) {c : Controller} (hc : s.world.controller? actor = some c)
    (hmode : c.profile.legacyMode = false) :
    let start := startLedger c (s.world.ledger? actor)
    (upkeep t actor s).state.world.ledger? actor =
        start.map (fun l => (Threat.decayed t s.world (Threat.pruned s.world l)).1) ∧
      (upkeep t actor s).events.filter (Event.tellsDecayOf actor) =
        match start with
        | some l => Threat.tellDecay actor (Threat.pruned s.world l).size
            (Threat.decayed t s.world (Threat.pruned s.world l)).2
        | none => [] := by
  intro start
  let switched := Action.when c.modeSwitched (Threat.reset actor) s
  have htended : Tended actor s switched := .whenever fun _ => Threat.reset_tended actor s
  obtain ⟨hledger, hevents⟩ : switched.state.world.ledger? actor = start ∧
      switched.events.filter (Event.tellsDecayOf actor) = [] := by
    unfold switched start startLedger
    cases c.modeSwitched with
    | false => exact ⟨rfl, rfl⟩
    | true => exact ⟨(Threat.reset_run actor s).1, rfl⟩
  obtain ⟨hdecay, htold⟩ := Threat.decay_run t actor switched.state
  simp only [hledger, Threat.decayed_congr htended.world, Threat.pruned_congr htended.world]
    at hdecay htold
  rw [upkeep_eq t hc hmode]
  refine ⟨hdecay, ?_⟩
  rw [List.filter_append, hevents, List.nil_append]
  show ((Threat.decay t actor switched.state).events).filter _ = _
  rw [htold]
  cases start with
  | none => rfl
  | some l =>
    dsimp only
    cases (Threat.decayed t s.world (Threat.pruned s.world l)).2 with
    | none => rfl
    | some amount => simp [Threat.tellDecay, Event.tellsDecayOf]

/-- The ledger of an actor after its upkeep, before anyone is seeded: `present` are the entries that
are left of the ledger `before`. -/
theorem upkeep_ledger (t : Tuning) {c : Controller} (hc : s.world.controller? actor = some c)
    (hmode : c.profile.legacyMode = false) :
    let before := if c.lastLegacyMode = some true then Ledger.empty
      else (s.world.ledger? actor).getD .empty
    let present := before.tracked.filter s.world.isPresent
    let after := ((upkeep t actor s).state.world.ledger? actor).getD .empty
    let decays := (upkeep t actor s).events.filter (Event.tellsDecayOf actor)
    after.tracked = present ∧ (present = [] → decays = []) ∧
      (present ≠ [] → ∃ amount, 1 ≤ amount ∧
        decays = [.threatDecayed actor amount present.length] ∧ after.gained = 0 ∧
        ∀ e ∈ present, s.world.passive? e = none → ∃ old new, before.value? e = some old ∧
          after.value? e = some new ∧
          new.toInt = max (old.toInt - amount.toInt) t.threatMinimum.toInt) := by
  intro before present after decays
  obtain ⟨hledger, htold⟩ := upkeep_run t hc hmode
  have hbefore : (startLedger c (s.world.ledger? actor)).getD .empty = before :=
    getD_startLedger hmode _
  cases hstart : startLedger c (s.world.ledger? actor) with
  | none =>
    rw [hstart] at hledger htold hbefore
    have hpresent : present = [] := by
      show before.tracked.filter _ = []
      rw [← hbefore]
      rfl
    have hafter : after = .empty := by
      show Option.getD _ _ = _
      rw [hledger]
      rfl
    rw [hafter]
    exact ⟨hpresent.symm, fun _ => htold, fun h => absurd hpresent h⟩
  | some l =>
    rw [hstart] at hledger htold hbefore
    have hl : l = before := hbefore
    have hafter : after = (Threat.decayed t s.world (Threat.pruned s.world before)).1 := by
      show Option.getD _ _ = _
      rw [hledger, ← hl]
      rfl
    have hdecays : decays = Threat.tellDecay actor (Threat.pruned s.world before).size
        (Threat.decayed t s.world (Threat.pruned s.world before)).2 := by
      rw [← hl]
      exact htold
    rw [hafter, hdecays]
    exact Threat.decayed_pruned t s.world actor before

/-- What a controller tells of itself is no decay. -/
theorem filter_news {self : Entity} {events : List Event} (h : ∀ e ∈ events, e.IsNewsOf self) :
    events.filter (Event.tellsDecayOf actor) = [] := by
  rw [List.filter_eq_nil_iff]
  intro e he
  have hnews := h e he
  cases e <;> first | exact Bool.false_ne_true | exact hnews.elim

/-- The passive ones among candidates. -/
def passiveAmong (candidates : List Candidate) (e : Entity) : Prop :=
  ∃ k ∈ candidates, k.isPassive = true ∧ k.entity = e

/-- After its upkeep an actor seeds those it finds, and nothing else in its think matters to its
ledger but for the passive ones among them. -/
theorem think_alike {setting : Setting} {radius : Float}
    (hv : setting.visibility = .proximity radius) {c : Controller}
    (hc : s.world.controller? actor = some c) (hmode : c.profile.legacyMode = false) :
    let before := upkeep setting.tuning actor s
    let candidates := found setting before.state.world actor c.noteMode.markThought
    let after := ((think setting actor s).state.world.ledger? actor).getD .empty
    (Threat.seeded setting.tuning before.state.world actor candidates).AlikeBut
        (passiveAmong candidates) after ∧
      (think setting actor s).events.filter (Event.tellsDecayOf actor) =
        before.events.filter (Event.tellsDecayOf actor) := by
  intro before candidates after
  have hbefore := upkeep_tended setting.tuning hc
  have hkept := (hbefore.world.controller?_eq actor).trans hc
  by_cases hfound : candidates = []
  · have hrun := think_of_nobody hc hfound
    have hafter : after = (before.state.world.ledger? actor).getD .empty := by
      show (World.ledger? _ actor).getD _ = _
      rw [hrun]
      exact congrArg (Option.getD · .empty) (World.ledger?_setController ..)
    rw [hrun, hafter, hfound]
    refine ⟨.refl _, ?_⟩
    dsimp only
    rw [List.filter_append, filter_news (Controller.disengage_news _ actor), List.append_nil]
  · obtain ⟨choice, -, hrun⟩ := think_of_somebody hc hfound
    let roused := (c.noteMode.markThought.rouse actor).1
    have hroused : roused.profile.legacyMode = false := by
      rw [show roused.profile = c.profile from Controller.profile_rouse ..]
      exact hmode
    have hchosen : LeftWith actor (passiveAmong candidates)
        (Threat.seeded setting.tuning before.state.world actor candidates)
        (choose setting actor roused candidates before.state) :=
      choose_leftWith setting hroused (World.contains_of_bind hkept)
        fun k hk hpassive => ⟨k, hk, hpassive, rfl⟩
    obtain ⟨l', hl', halike⟩ := hchosen.ledger
    let settled := settle roused actor choice
    let stored : State :=
      { (choose setting actor roused candidates before.state).state with
        world := (choose setting actor roused candidates before.state).state.world.setController
          actor settled.1 }
    have hstored : stored.world.ledger? actor = some l' :=
      (World.ledger?_setController ..).trans hl'
    have hcalled : alike actor (passiveAmong candidates) stored _ _ :=
      alarm_alike hv c.state choice.target? stored
    obtain ⟨l'', hl'', halike'⟩ := hcalled.1 l' hstored
    have hafter : after = l'' := by
      show (World.ledger? _ actor).getD _ = _
      rw [hrun]
      exact congrArg (Option.getD · .empty) hl''
    rw [hrun, hafter]
    refine ⟨halike.trans halike', ?_⟩
    dsimp only
    rw [List.filter_append, List.filter_append, List.filter_append, List.filter_append,
      filter_news (Controller.rouse_news _ actor), filter_news (settle_news roused actor choice),
      hcalled.2, hchosen.events]
    exact List.append_nil _

/-- Upkeep makes nobody passive, so whoever is found passive was so before. -/
theorem not_passiveAmong {setting : Setting} {c : Controller} {e : Entity}
    (hc : s.world.controller? actor = some c) (hpassive : s.world.passive? e = none) :
    ¬ passiveAmong (found setting (upkeep setting.tuning actor s).state.world actor
      c.noteMode.markThought) e := by
  rintro ⟨k, hk, hkpassive, rfl⟩
  obtain ⟨parts, hparts, -, hsame⟩ := parts_of_mem_found hk
  have hbefore := (upkeep_tended setting.tuning hc).world
  have hsource := hbefore.bind_eq (p := (·.passive)) (fun _ => rfl) k.entity
  rw [hparts, Option.bind_some, ← hsame] at hsource
  have hnone : (s.world.get? k.entity).bind (·.passive) = none := hpassive
  rw [Candidate.isPassive, hsource, hnone] at hkpassive
  cases hkpassive

/-- One think of an actor that keeps a ledger. The entries left afterwards are those of `present`,
who were tracked and are neither dead nor gone, and of the candidates without reserved names; one
decay lowered the former, and the latter are new at the floor. -/
theorem think_ledger {setting : Setting} {radius : Float}
    (hv : setting.visibility = .proximity radius) {c : Controller}
    (hc : s.world.controller? actor = some c) (hmode : c.profile.legacyMode = false) :
    let before := if c.lastLegacyMode = some true then Ledger.empty
      else (s.world.ledger? actor).getD .empty
    let present := before.tracked.filter s.world.isPresent
    let candidates := found setting (upkeep setting.tuning actor s).state.world actor
      c.noteMode.markThought
    let after := ((think setting actor s).state.world.ledger? actor).getD .empty
    let decays := (think setting actor s).events.filter (Event.tellsDecayOf actor)
    (∃ target, (think setting actor s).result = .ok target) ∧
    (∀ e, after.contains e = true ↔ e ∈ present ∨
      (∃ k ∈ candidates, k.entity = e) ∧ Threat.isReserved setting.tuning s.world e = false) ∧
    (present = [] → decays = []) ∧
    (present ≠ [] → ∃ amount, 1 ≤ amount ∧
      decays = [.threatDecayed actor amount present.length] ∧ after.gained = 0 ∧
      ∀ e ∈ present, s.world.passive? e = none → ∃ old new, before.value? e = some old ∧
        after.value? e = some new ∧
        new.toInt = max (old.toInt - amount.toInt) setting.tuning.threatMinimum.toInt) ∧
    ∀ e, after.contains e = true → e ∉ present → s.world.passive? e = none →
      after.value? e = some setting.tuning.threatMinimum := by
  intro before present candidates after decays
  have htended := upkeep_tended setting.tuning hc
  obtain ⟨halike, hdecays⟩ := think_alike hv hc hmode
  obtain ⟨htracked, hnone, hsome⟩ := upkeep_ledger setting.tuning hc hmode
  let kept := ((upkeep setting.tuning actor s).state.world.ledger? actor).getD .empty
  let seedable :=
    Threat.seedable setting.tuning (upkeep setting.tuning actor s).state.world candidates
  have hkept : ∀ e, (kept.value? e).isSome = true ↔ e ∈ present := by
    intro e
    rw [← Ledger.contains_eq, ← Ledger.mem_tracked, show kept.tracked = present from htracked]
  have hseeded : ∀ e,
      (Threat.seeded setting.tuning (upkeep setting.tuning actor s).state.world actor
        candidates).value? e =
      (kept.value? e).or (if e ∈ seedable then some setting.tuning.threatMinimum else none) :=
    fun e => Ledger.value?_seedAll kept setting.tuning.threatMinimum seedable e
  have hloose : ∀ e, s.world.passive? e = none → ¬ passiveAmong candidates e :=
    fun e => not_passiveAmong hc
  have hseedable : ∀ e, e ∈ seedable ↔
      (∃ k ∈ candidates, k.entity = e) ∧ Threat.isReserved setting.tuning s.world e = false := by
    intro e
    rw [Threat.mem_seedable, htended.world.isReserved_eq]
  have hcontains : ∀ e, after.contains e = true ↔ e ∈ present ∨ e ∈ seedable := by
    intro e
    rw [halike.contains, Ledger.contains_eq, hseeded, Option.isSome_or, Bool.or_eq_true, hkept]
    by_cases he : e ∈ seedable <;> simp [he]
  refine ⟨think_accepted setting hc, fun e => ?_, fun h => hdecays.trans (hnone h), fun h => ?_,
    fun e he hnew hpassive => ?_⟩
  · rw [hcontains, hseedable]
  · obtain ⟨amount, hleast, htold, hgained, hvalues⟩ := hsome h
    refine ⟨amount, hleast, hdecays.trans htold, ?_, fun e he hpassive => ?_⟩
    · exact halike.gained.trans ((Ledger.gained_seedAll ..).trans hgained)
    · obtain ⟨old, new, hold, hvalue, hlowered⟩ := hvalues e he hpassive
      refine ⟨old, new, hold, ?_, hlowered⟩
      rw [halike.value e (hloose e hpassive), hseeded, show kept.value? e = some new from hvalue]
      rfl
  · have hold : kept.value? e = none := by
      rw [← Option.not_isSome_iff_eq_none, hkept]
      exact hnew
    have hseed : e ∈ seedable := ((hcontains e).mp he).resolve_left hnew
    rw [halike.value e (hloose e hpassive), hseeded, hold, if_pos hseed]
    rfl

/-- A wolf that the traveller has hurt before. -/
def grudge : State :=
  { encounter with
    world := encounter.world.setLedger ⟨0, 1⟩ (Ledger.empty.add ⟨2, 1⟩ 50 100).1 }

theorem grudge_think_ledger :
    ∃ amount, 1 ≤ amount ∧
      (think {} ⟨0, 1⟩ grudge).events.filter (Event.tellsDecayOf ⟨0, 1⟩) =
        [.threatDecayed ⟨0, 1⟩ amount 1] ∧
      (((think {} ⟨0, 1⟩ grudge).state.world.ledger? ⟨0, 1⟩).getD .empty).contains ⟨2, 1⟩
        = true := by
  have hvisibility : ({} : Setting).visibility = .proximity 20.0 := rfl
  have hc : grudge.world.controller? ⟨0, 1⟩ = some (.ofProfile {}) := by decide +kernel
  have hpresent : ((grudge.world.ledger? ⟨0, 1⟩).getD .empty).tracked.filter
      grudge.world.isPresent = [⟨2, 1⟩] := by decide +kernel
  obtain ⟨-, hkeys, -, hdecay, -⟩ := think_ledger hvisibility hc rfl
  rw [if_neg (by decide), hpresent] at hdecay
  obtain ⟨amount, hleast, htold, -⟩ := hdecay (by simp)
  refine ⟨amount, hleast, htold, (hkeys ⟨2, 1⟩).mpr (.inl ?_)⟩
  rw [if_neg (by decide), hpresent]
  simp

end Engine

end Hostility
