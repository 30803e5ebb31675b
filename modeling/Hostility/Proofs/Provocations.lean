import Hostility.Proofs.Natures
import Hostility.Proofs.Refusals

/-!
Provocations. An entity that raises the threat of an actor outright, or that hits it, spends a
one-shot flag if the actor takes note of it, and leaves its flags as they are if not: if the call is
refused, if the actor does not go by threat, or if the entity bears a reserved name.
-/
namespace Hostility

/-- What an entity does to draw an actor's threat: its threat is raised outright, or it hits. -/
inductive Provocation where
  | increase (actor : Entity) (base : Int64)
  | hit (actor : Entity) (amount : Int64)

namespace Provocation

def actor : Provocation → Entity
  | increase actor _ | hit actor _ => actor

def base : Provocation → Int64
  | increase _ base => base
  | hit _ amount => amount

def perform (t : Tuning) (source : Entity) : Provocation → Action (Option Int64)
  | increase actor base => Threat.increase t actor source base
  | hit actor amount => Engine.recordDamage t actor source amount

def request (source : Entity) : Provocation → Request
  | increase actor base => .increase actor source base
  | hit actor amount => .recordDamage actor source amount

end Provocation

variable {setting : Setting} {t : Tuning} {actor source e : Entity} {w w' : World} {s : State}

structure OneShots where
  skip : Bool
  double : Bool
  deriving DecidableEq

namespace OneShots

/-- What is left of armed flags once threat has been taken note of `n` times. -/
def after (armed : OneShots) (n : Nat) : OneShots where
  skip := armed.skip && n == 0
  double := armed.double && decide (n ≤ armed.skip.toNat)

/-- How often threat is skipped that is taken note of `n` times. -/
def skipped (armed : OneShots) (n : Nat) : Nat := (armed.skip && decide (0 < n)).toNat

@[simp] theorem after_zero (armed : OneShots) : armed.after 0 = armed := by
  simp [after]

@[simp] theorem skipped_zero (armed : OneShots) : armed.skipped 0 = 0 := by
  simp [skipped]

theorem after_add (armed : OneShots) (m n : Nat) :
    armed.after (m + n) = (armed.after m).after n := by
  rcases armed with ⟨_ | _, _ | _⟩ <;> cases m <;> cases n <;> simp [after]
  omega

theorem skipped_add (armed : OneShots) (m n : Nat) :
    armed.skipped (m + n) = armed.skipped m + (armed.after m).skipped n := by
  cases m with
  | zero => simp
  | succ m =>
    have hpositive : 0 < m + 1 + n := by omega
    simp [skipped, after, hpositive]

end OneShots

def Modifiers.oneShots (m : Modifiers) : OneShots := ⟨m.skipNext, m.doubleNext⟩

theorem Modifiers.apply_of_skip {m : Modifiers} (h : m.skipNext = true) (t : Tuning)
    (base : Int64) : (m.apply t base).1 = none := by
  simp [apply, h]

theorem Modifiers.apply_of_no_skip {m : Modifiers} (h : m.skipNext = false) (t : Tuning)
    (base : Int64) : ∃ amount, (m.apply t base).1 = some amount := by
  simp [apply, h]

theorem Modifiers.oneShots_apply (m : Modifiers) (t : Tuning) (base : Int64) :
    (m.apply t base).2.oneShots = m.oneShots.after 1 := by
  cases hskip : m.skipNext <;> simp [apply, oneShots, OneShots.after, hskip]

/-- The modifiers of an entity. Who has none causes threat as it comes. -/
def World.modifiersOf (w : World) (e : Entity) : Modifiers :=
  ((w.get? e).bind (·.modifiers)).getD {}

def World.oneShots (w : World) (e : Entity) : OneShots := (w.modifiersOf e).oneShots

theorem World.modifiersOf_update {f : Components → Components}
    (h : ∀ c, (f c).modifiers = c.modifiers) (w : World) (actor e : Entity) :
    (w.update actor f).modifiersOf e = w.modifiersOf e := by
  rw [modifiersOf, bind_get?_update h, modifiersOf]

theorem World.modifiersOf_update_of_ne {f : Components → Components} (h : e ≠ actor) (w : World) :
    (w.update actor f).modifiersOf e = w.modifiersOf e := by
  rw [modifiersOf, get?_update, if_neg h, modifiersOf]

theorem World.SameButThreat.modifiersOf_eq (h : w.SameButThreat actor w') (e : Entity) :
    w'.modifiersOf e = w.modifiersOf e := by
  have hsame : (w'.get? e).bind (·.modifiers) = (w.get? e).bind (·.modifiers) :=
    h.bind_eq (fun _ => rfl) e
  rw [modifiersOf, hsame, modifiersOf]

/-- Two worlds that differ in the modifiers of one entity at most, which are `m` if it has any. -/
def World.SameButModifiers (source : Entity) (m : Modifiers) (w w' : World) : Prop :=
  ∀ e, w'.get? e = (w.get? e).map fun parts =>
    if e = source then { parts with modifiers := parts.modifiers.map fun _ => m } else parts

theorem World.SameButModifiers.of_none (h : (w.get? source).bind (·.modifiers) = none)
    (m : Modifiers) : w.SameButModifiers source m w := by
  intro e
  cases hparts : w.get? e with
  | none => rfl
  | some parts =>
    rw [Option.map_some]
    split
    · next he =>
      subst he
      have hnone : none = parts.modifiers := by simpa [hparts, eq_comm] using h
      rw [← hnone, Option.map_none, hnone]
    · rfl

theorem World.SameButModifiers.of_some {old : Modifiers}
    (h : (w.get? source).bind (·.modifiers) = some old) (m : Modifiers) :
    w.SameButModifiers source m (w.update source fun c => { c with modifiers := some m }) := by
  intro e
  rw [get?_update]
  split
  · next he =>
    subst he
    obtain ⟨parts, hparts, hold⟩ := Option.bind_eq_some_iff.mp h
    simp [hparts, hold]
  · cases w.get? e <;> rfl

/-- The actor takes note of the threat of the source: it goes by threat, and the source is there and
has a name of its own. -/
def World.notes (w : World) (t : Tuning) (actor source : Entity) : Bool :=
  match w.controller? actor with
  | some c => !c.profile.legacyMode && w.contains source && !Threat.isReserved t w source
  | none => false

theorem World.notes_of_controller {c : Controller} (h : w.controller? actor = some c) (t : Tuning)
    (source : Entity) :
    w.notes t actor source =
      (!c.profile.legacyMode && w.contains source && !Threat.isReserved t w source) := by
  rw [notes, h]

theorem World.contains_of_notes (h : w.notes t actor source = true) : w.contains actor = true := by
  cases hc : w.controller? actor with
  | none => simp [notes, hc] at h
  | some c => exact contains_of_bind hc

theorem World.notes_eq_false_iff :
    w.notes t actor source = false ↔
      (∃ refusal, w.PairFault actor source refusal) ∨
      (∃ c, w.controller? actor = some c ∧ c.profile.legacyMode = true) ∨
      Threat.isReserved t w source = true := by
  cases hc : w.controller? actor with
  | none =>
    have hfault : ∃ refusal, w.ActorFault actor refusal := by
      by_contra hnone
      obtain ⟨c, hc'⟩ := exists_controller_of_faultless (not_exists.mp hnone)
      simp [hc] at hc'
    obtain ⟨refusal, hfault⟩ := hfault
    simp only [notes, hc, true_iff]
    exact .inl ⟨refusal, .actor hfault⟩
  | some c =>
    simp only [notes_of_controller hc, pairFault_iff hc, exists_eq_left, Option.some.injEq,
      exists_eq_left']
    cases c.profile.legacyMode <;> cases w.contains source <;> simp

theorem World.notes_congr {c c' : Controller} (hc : w.controller? actor = some c)
    (hc' : w'.controller? actor = some c') (hprofile : c'.profile = c.profile)
    (h : w.SameNature w') (t : Tuning) (source : Entity) :
    w'.notes t actor source = w.notes t actor source := by
  rw [notes_of_controller hc', notes_of_controller hc, hprofile, h.contains_eq, h.isReserved_eq]

open Course Hostility.Action

namespace Threat

theorem increase_of_not_noted (h : s.world.notes t actor source = false) (base : Int64) :
    ∃ result, increase t actor source base s = ⟨result, s, []⟩ ∧
      ∀ total, result ≠ .ok (some total) := by
  unfold increase
  cases hc : s.world.controller? actor with
  | none =>
    obtain ⟨refusal, hrefused⟩ := controllerOf_of_none hc
    rw [bind_of_error (by rw [hrefused]), hrefused]
    exact ⟨_, rfl, by simp⟩
  | some c =>
    rw [World.notes_of_controller hc] at h
    rw [bind_of_ok (by rw [controllerOf_eq hc]), controllerOf_eq hc]
    dsimp only
    rw [world_bind]
    split
    · exact ⟨_, rfl, by simp [refuse]⟩
    split
    · exact ⟨_, rfl, by simp⟩
    split
    · exact ⟨_, rfl, by simp⟩
    simp_all

/-- Whatever its flags make of the amount, the source has used them up. -/
theorem modifiedAmount_run (t : Tuning) (source : Entity) (base : Int64) (s : State) :
    let applied := (s.world.modifiersOf source).apply t base
    ∃ w', modifiedAmount t source base s = ⟨.ok applied.1, { s with world := w' }, []⟩ ∧
      w'.modifiersOf source = applied.2 ∧ s.world.SameFolk w' ∧
      s.world.SameButModifiers source applied.2 w' := by
  intro applied
  unfold modifiedAmount
  rw [world_bind]
  cases hm : (s.world.get? source).bind (·.modifiers) with
  | none =>
    have hnone : s.world.modifiersOf source = {} := by rw [World.modifiersOf, hm, Option.getD_none]
    refine ⟨s.world, ?_, ?_, .refl s.world, .of_none hm _⟩
    · simp only [applied, hnone]
      rfl
    · simp only [applied, hnone]
      rfl
  | some m =>
    have hsome : s.world.modifiersOf source = m := by rw [World.modifiersOf, hm, Option.getD_some]
    have hpresent : s.world.contains source = true := World.contains_of_bind hm
    let w' := s.world.update source fun c => { c with modifiers := some (m.apply t base).2 }
    refine ⟨w', ?_, ?_, .update (by intro _; rfl) s.world source, ?_⟩
    · simp only [applied, hsome]
      rfl
    · simp only [applied, hsome]
      obtain ⟨parts, hparts⟩ := Option.isSome_iff_exists.mp hpresent
      simp [w', World.modifiersOf, World.get?_update, hparts]
    · simp only [applied, hsome]
      exact .of_some hm _

/-- The actor enters an amount of threat in its ledger. -/
def enter (t : Tuning) (actor source : Entity) (amount : Int64) : Action (Option Int64) := do
  ensureLedger actor
  let l ← ledgerOf actor
  let (raised, total) := l.add source amount t.threatMinimum
  storeLedger actor raised
  Action.publish [.threatIncreased actor source amount total]
  pure (some total)

theorem increase_of_noted (h : s.world.notes t actor source = true) (base : Int64) :
    let applied := (s.world.modifiersOf source).apply t base
    ∃ w', w'.modifiersOf source = applied.2 ∧ s.world.SameFolk w' ∧
      s.world.SameButModifiers source applied.2 w' ∧
      increase t actor source base s =
        match applied.1 with
        | none => ⟨.ok none, { s with world := w' }, [.threatSkipped actor source]⟩
        | some amount => enter t actor source amount { s with world := w' } := by
  intro applied
  obtain ⟨w', hrun, hspent, hfolk, hsame⟩ := modifiedAmount_run t source base s
  refine ⟨w', hspent, hfolk, hsame, ?_⟩
  cases hc : s.world.controller? actor with
  | none => simp [World.notes, hc] at h
  | some c =>
    rw [World.notes_of_controller hc] at h
    simp only [Bool.and_eq_true, Bool.not_eq_true'] at h
    obtain ⟨⟨hmode, hsource⟩, hname⟩ := h
    unfold increase
    rw [bind_of_ok (by rw [controllerOf_eq hc]), controllerOf_eq hc]
    dsimp only
    rw [world_bind, hsource, hmode, hname]
    simp only [Bool.not_true, Bool.false_eq_true, if_false]
    rw [bind_of_ok (by rw [hrun]), hrun]
    show _ = match applied.1 with
      | none => _
      | some amount => _
    cases applied.1 with
    | none => rfl
    | some amount => rfl

theorem ensureLedger_run (hactor : s.world.contains actor = true) :
    ∃ w', ensureLedger actor s = ⟨.ok (), { s with world := w' }, []⟩ ∧
      ∀ e, w'.get? e = (s.world.get? e).map fun parts =>
        if e = actor then { parts with ledger := some (parts.ledger.getD .empty) } else parts := by
  unfold ensureLedger
  rw [world_bind]
  split
  · next hsome =>
    obtain ⟨l, hl⟩ := Option.isSome_iff_exists.mp hsome
    refine ⟨s.world, rfl, fun e => ?_⟩
    cases hparts : s.world.get? e with
    | none => rfl
    | some parts =>
      rw [Option.map_some]
      split
      · next he =>
        subst he
        have hown : parts.ledger = some l := by simpa [World.ledger?, hparts] using hl
        rw [hown, Option.getD_some, ← hown]
      · rfl
  · next hnone =>
    refine ⟨_, insert_of_contains hactor _, fun e => ?_⟩
    rw [World.get?_update]
    split
    · next he =>
      subst he
      cases hparts : s.world.get? e with
      | none => rfl
      | some parts =>
        have hown : parts.ledger = none := by simpa [World.ledger?, hparts] using hnone
        rw [Option.map_some, Option.map_some, hown, Option.getD_none]
    · cases s.world.get? e <;> rfl

/-- The source ends at what the ledger, or an empty one, makes of the amount. -/
theorem enter_run (t : Tuning) (hactor : s.world.contains actor = true) (source : Entity)
    (amount : Int64) :
    let added := ((s.world.ledger? actor).getD .empty).add source amount t.threatMinimum
    ∃ w', enter t actor source amount s = ⟨.ok (some added.2), { s with world := w' },
        [.threatIncreased actor source amount added.2]⟩ ∧
      s.world.SameButThreat actor w' ∧
      ∀ e, w'.get? e = (s.world.get? e).map fun parts =>
        if e = actor then { parts with ledger := some added.1 } else parts := by
  intro added
  obtain ⟨w, hensured, hview⟩ := ensureLedger_run hactor
  have htended := ensureLedger_tended hactor
  have hledger := ledger?_ensureLedger hactor
  rw [hensured] at htended hledger
  refine ⟨w.setLedger actor added.1, ?_, htended.world.trans (.setLedger _), fun e => ?_⟩
  · unfold enter
    rw [bind_of_ok (by rw [hensured]), hensured]
    unfold ledgerOf
    rw [bind_assoc, world_bind, show w.ledger? actor = _ from hledger]
    rfl
  · rw [World.setLedger, World.get?_update, hview, hview]
    by_cases he : e = actor
    · subst he
      simp only [if_true, Option.map_map]
      rfl
    · simp only [he, if_false]

end Threat

namespace Provocation

theorem perform_request (p : Provocation) :
    (p.request source).perform setting = .regardless (p.perform setting.tuning source) := by
  cases p <;> rfl

theorem perform_refusedFor (t : Tuning) (source : Entity) (p : Provocation) (s : State) :
    RefusedFor (s.world.PairFault p.actor source) (p.perform t source) s := by
  cases p with
  | increase actor base => exact Threat.increase_refusedFor t actor source base s
  | hit actor amount => exact Engine.recordDamage_refusedFor t actor source amount s

end Provocation

/-- A world in which the threat of the source is taken note of just as before, and in which it has
the modifiers that it had. -/
structure World.SameSource (w : World) (t : Tuning) (actor source : Entity) (w' : World) :
    Prop where
  notes : w'.notes t actor source = w.notes t actor source
  modifiers : w'.modifiersOf source = w.modifiersOf source

theorem Engine.register_sameSource {c : Controller} (hc : s.world.controller? actor = some c)
    (t : Tuning) (source : Entity) :
    ∃ w', register actor source s.world s = ⟨.ok (), { s with world := w' }, []⟩ ∧
      s.world.SameSource t actor source w' := by
  unfold register
  cases Alert.sharesFaction s.world actor source with
  | false => exact ⟨s.world, rfl, rfl, rfl⟩
  | true =>
    rw [when_true, bind_of_ok (by rw [controllerOf_eq hc]), controllerOf_eq hc]
    refine ⟨_, rfl, ?_, World.modifiersOf_update (by intro _; rfl) s.world actor source⟩
    have hregistered := World.controller?_setController (World.contains_of_bind hc)
      (c.retaliateAgainst source) actor
    rw [if_pos rfl] at hregistered
    exact World.notes_congr hc hregistered rfl (.update (by intro _; rfl) s.world actor) t source

/-- A hit on an actor raises threat after all else that it does, and that makes no difference to
its threat. -/
theorem Engine.recordDamage_eq_increase {c : Controller} (hc : s.world.controller? actor = some c)
    (hsource : s.world.contains source = true) (t : Tuning) (amount : Int64) :
    ∃ w', recordDamage t actor source amount s =
        Threat.increase t actor source amount { s with world := w' } ∧
      s.world.SameSource t actor source w' := by
  let hit : Hit := ⟨source, amount, s.now⟩
  let logged : State := { s with world := s.world.logHit actor hit }
  have hlogged : logged.world.controller? actor = some c :=
    (World.controller?_logHit ..).trans hc
  obtain ⟨w', hregistered, hsame⟩ := register_sameSource hlogged t source
  refine ⟨w', ?_, ?_, ?_⟩
  · rw [recordDamage_eq t hc hsource, bind_of_ok (by rw [hregistered]), hregistered]
    simp [logged]
  · exact hsame.notes.trans
      (World.notes_congr hc hlogged rfl (.update (by intro _; rfl) s.world actor) t source)
  · exact hsame.modifiers.trans (World.modifiersOf_update (by intro _; rfl) s.world actor source)

namespace Provocation

/-- Whether an actor is hit or its threat is raised outright, the flags of the source are treated
alike. -/
theorem perform_eq_increase (p : Provocation)
    (hfine : ∀ refusal, ¬ s.world.PairFault p.actor source refusal) :
    ∃ w', p.perform t source s = Threat.increase t p.actor source p.base { s with world := w' } ∧
      s.world.SameSource t p.actor source w' := by
  obtain ⟨⟨c, hc⟩, hsource⟩ := World.exists_controller_of_pair_faultless hfine
  cases p with
  | increase actor base => exact ⟨s.world, rfl, rfl, rfl⟩
  | hit actor amount => exact Engine.recordDamage_eq_increase hc hsource t amount

theorem perform_of_not_noted (p : Provocation)
    (h : s.world.notes t p.actor source = false) :
    let call := p.perform t source s
    (∀ total, call.result ≠ .ok (some total)) ∧ call.events = [] ∧
      call.state.world.oneShots source = s.world.oneShots source := by
  intro call
  by_cases hfault : ∃ refusal, s.world.PairFault p.actor source refusal
  · obtain ⟨refusal, hfault⟩ := hfault
    have hrefused := p.perform_refusedFor t source s
    have hcall : call = _ := hrefused.untouched refusal ((hrefused.refused_iff refusal).mpr hfault)
    rw [hcall]
    simp
  · obtain ⟨w', hincrease, hsame⟩ := p.perform_eq_increase (not_exists.mp hfault)
    have hcall : call = _ := hincrease
    obtain ⟨result, hrun, hnothing⟩ :=
      Threat.increase_of_not_noted (s := { s with world := w' }) (hsame.notes.trans h) p.base
    rw [hcall, hrun]
    exact ⟨hnothing, rfl, congrArg Modifiers.oneShots hsame.modifiers⟩

theorem faultless_of_noted (h : w.notes t actor source = true) (refusal : Refusal) :
    ¬ w.PairFault actor source refusal := by
  intro hfault
  rw [World.notes_eq_false_iff.mpr (.inl ⟨refusal, hfault⟩)] at h
  cases h

theorem perform_of_noted (p : Provocation) (h : s.world.notes t p.actor source = true) :
    let applied := (s.world.modifiersOf source).apply t p.base
    let call := p.perform t source s
    call.state.world.oneShots source = (s.world.oneShots source).after 1 ∧
      match applied.1 with
      | none => call.result = .ok none ∧ call.events = [.threatSkipped p.actor source]
      | some amount => ∃ total, call.result = .ok (some total) ∧
          call.events = [.threatIncreased p.actor source amount total] := by
  intro applied call
  obtain ⟨w', hincrease, hsame⟩ := p.perform_eq_increase (faultless_of_noted h)
  have hnoted : w'.notes t p.actor source = true := hsame.notes.trans h
  obtain ⟨w'', hspent, hfolk, -, hrun⟩ :=
    Threat.increase_of_noted (s := { s with world := w' }) hnoted p.base
  rw [hsame.modifiers] at hspent hrun
  have hflags : w''.oneShots source = (s.world.oneShots source).after 1 := by
    rw [World.oneShots, hspent, Modifiers.oneShots_apply, World.oneShots]
  have hcall : call = _ := hincrease.trans hrun
  rw [hcall]
  show _ ∧ match applied.1 with
    | none => _
    | some amount => _
  cases applied.1 with
  | none => exact ⟨hflags, rfl, rfl⟩
  | some amount =>
    have hactor := (hfolk.contains p.actor).trans (World.contains_of_notes hnoted)
    obtain ⟨entered, hentered, hworld, -⟩ :=
      Threat.enter_run (s := { s with world := w'' }) t hactor source amount
    dsimp only
    rw [hentered]
    refine ⟨?_, _, rfl, rfl⟩
    rw [← hflags, World.oneShots, World.oneShots, hworld.modifiersOf_eq]

theorem perform_of_skip (p : Provocation) (h : s.world.notes t p.actor source = true)
    (hskip : (s.world.oneShots source).skip = true) :
    let call := p.perform t source s
    call.result = .ok none ∧ call.events = [.threatSkipped p.actor source] ∧
      call.state.world.oneShots source = (s.world.oneShots source).after 1 := by
  intro call
  obtain ⟨hflags, hcall⟩ := p.perform_of_noted h
  rw [Modifiers.apply_of_skip hskip] at hcall
  exact ⟨hcall.1, hcall.2, hflags⟩

theorem perform_of_no_skip (p : Provocation) (h : s.world.notes t p.actor source = true)
    (hskip : (s.world.oneShots source).skip = false) :
    let call := p.perform t source s
    ∃ amount total, ((s.world.modifiersOf source).apply t p.base).1 = some amount ∧
      call.result = .ok (some total) ∧
      call.events = [.threatIncreased p.actor source amount total] ∧
      call.state.world.oneShots source = (s.world.oneShots source).after 1 := by
  intro call
  obtain ⟨amount, hamount⟩ := Modifiers.apply_of_no_skip hskip t p.base
  obtain ⟨hflags, hcall⟩ := p.perform_of_noted h
  rw [hamount] at hcall
  obtain ⟨total, hresult, hevents⟩ := hcall
  exact ⟨amount, total, hamount, hresult, hevents, hflags⟩

end Provocation

end Hostility
