import Hostility.Proofs.Asides
import Hostility.Proofs.DamageWindow
import Hostility.Proofs.Pieces
import Hostility.Simulation.Run

/-!
What was done to an entity. The blows in its damage log are the last ones that it took, and nothing
but a blow changes them: thinks, updates and homecomings leave everyone's log alone.
-/
namespace Hostility

variable {setting : Setting} {actor attacker e : Entity} {amount : Int64} {w w' : World}
  {s s' : State} {events : List Event}

/-- Whether an entity is an actor, and what its damage log tells of attackers and amounts. -/
structure Ordeal where
  isActor : Bool
  capacity : Nat
  blows : List (Entity × Int64)
  deriving DecidableEq

/-- A log that an entity lacks is taken as empty. -/
def Components.ordeal (c : Components) : Ordeal where
  isActor := c.controller.isSome
  capacity := (c.damageLog.getD default).capacity
  blows := (c.damageLog.getD default).entries.map fun hit => (hit.attacker, hit.amount)

def World.ordeal? (w : World) (e : Entity) : Option Ordeal := (w.get? e).map Components.ordeal

namespace Ordeal

/-- One more blow; whoever remembers as many as it can forgets the oldest. -/
def suffer (o : Ordeal) (blow : Entity × Int64) : Ordeal :=
  { o with blows := (if o.capacity ≤ o.blows.length then o.blows.drop 1 else o.blows) ++ [blow] }

/-- A memory of one blow at least that holds no more than it can. -/
structure Sound (o : Ordeal) : Prop where
  capacity : 1 ≤ o.capacity
  length : o.blows.length ≤ o.capacity

theorem Sound.blows_suffer {o : Ordeal} (h : o.Sound) (blow : Entity × Int64) :
    (o.suffer blow).blows = (o.blows ++ [blow]).rtake o.capacity :=
  slide_eq_rtake h.capacity h.length blow

theorem Sound.suffer {o : Ordeal} (h : o.Sound) (blow : Entity × Int64) :
    (o.suffer blow).Sound where
  capacity := h.capacity
  length := by
    rw [h.blows_suffer]
    exact length_rtake_le _ _

/-- After some blows the last ones are remembered, of those before and the new ones together. -/
theorem Sound.foldl_suffer {o : Ordeal} (h : o.Sound) (blows : List (Entity × Int64)) :
    blows.foldl Ordeal.suffer o = { o with blows := (o.blows ++ blows).rtake o.capacity } := by
  induction blows generalizing o with
  | nil =>
    have hall : o.blows.length - o.capacity = 0 := Nat.sub_eq_zero_of_le h.length
    simp [List.rtake, hall]
  | cons blow blows ih =>
    rw [List.foldl_cons, ih (h.suffer blow), h.blows_suffer]
    show ({ o with blows := ((o.blows ++ [blow]).rtake o.capacity ++ blows).rtake o.capacity } :
      Ordeal) = _
    rw [rtake_rtake_append, List.append_assoc, List.singleton_append]

end Ordeal

theorem Components.ordeal_record (c : Components) (hit : Hit) :
    ({ c with damageLog := some ((c.damageLog.getD default).record hit) } : Components).ordeal =
      c.ordeal.suffer (hit.attacker, hit.amount) := by
  unfold ordeal Ordeal.suffer DamageLog.record
  simp only [Option.getD_some, List.length_map, Ordeal.mk.injEq, true_and, List.map_append,
    List.map_cons, List.map_nil]
  split
  · rw [List.map_drop]
  · rfl

theorem World.ordeal?_update {f : Components → Components} (h : ∀ c, (f c).ordeal = c.ordeal)
    (w : World) (actor e : Entity) : (w.update actor f).ordeal? e = w.ordeal? e := by
  rw [ordeal?, ordeal?, get?_update]
  split
  · next he =>
    rw [he, Option.map_map]
    exact congrArg (Option.map · _) (funext h)
  · rfl

theorem World.isActor_of_ordeal? {o : Ordeal} (h : w.ordeal? e = some o) :
    o.isActor = (w.controller? e).isSome := by
  obtain ⟨c, hc, rfl⟩ := Option.map_eq_some_iff.mp h
  rw [controller?, hc]
  rfl

@[simp] theorem World.isSome_ordeal? (w : World) (e : Entity) :
    (w.ordeal? e).isSome = w.contains e := Option.isSome_map

/-- The world with one more hit in the damage log of an entity. -/
def World.logHit (w : World) (e : Entity) (hit : Hit) : World :=
  w.update e fun c => { c with damageLog := some ((c.damageLog.getD default).record hit) }

theorem World.controller?_logHit (w : World) (actor : Entity) (hit : Hit) (e : Entity) :
    (w.logHit actor hit).controller? e = w.controller? e :=
  bind_get?_update (by intro _; rfl) w actor e

theorem World.ordeal?_logHit (w : World) (actor : Entity) (hit : Hit) (e : Entity) :
    (w.logHit actor hit).ordeal? e = (w.ordeal? e).map fun o =>
      if e = actor then o.suffer (hit.attacker, hit.amount) else o := by
  rw [logHit, ordeal?, get?_update, ordeal?]
  split
  · next he =>
    rw [he]
    cases w.get? actor with
    | none => rfl
    | some c => exact congrArg some (c.ordeal_record hit)
  · exact (Option.map_id' ..).symm

/-- Whatever is done to entities, they stay. -/
theorem World.contains_eq_of_ordeal? {f : Entity → Ordeal → Ordeal}
    (h : ∀ e, w'.ordeal? e = (w.ordeal? e).map (f e)) (e : Entity) :
    w'.contains e = w.contains e := by
  rw [← isSome_ordeal?, h, Option.isSome_map, isSome_ordeal?]

theorem World.SameButThreat.ordeal?_eq (h : w.SameButThreat actor w') (e : Entity) :
    w'.ordeal? e = w.ordeal? e := by
  rw [ordeal?, ordeal?, Option.map_eq_bind, Option.map_eq_bind]
  exact h.bind_eq (fun _ => rfl) e

open Course Hostility.Action

/-- Nothing is done to anyone. -/
def Course.painless : Course := fun s _ s' => ∀ e, s'.world.ordeal? e = s.world.ordeal? e

theorem Course.painless_closed : painless.Closed where
  refl _ _ := rfl
  trans h h' e := (h' e).trans (h e)

theorem Tended.painless {α : Type} {o : Outcome α} (h : Tended actor s o) :
    Course.painless s o.events o.state := h.world.ordeal?_eq

theorem painless_update {f : Components → Components} (h : ∀ c, (f c).ordeal = c.ordeal)
    (actor : Entity) (s : State) :
    painless s events { s with world := s.world.update actor f } := s.world.ordeal?_update h actor

/-- An actor goes on being one with another controller. -/
theorem painless_setController {old : Controller} (hold : s.world.controller? actor = some old)
    (c : Controller) : painless s events { s with world := s.world.setController actor c } := by
  intro e
  show (s.world.update actor fun parts => { parts with controller := some c }).ordeal? e = _
  rw [World.ordeal?, World.get?_update]
  split
  · next he =>
    obtain ⟨parts, hparts, hcontroller⟩ := Option.bind_eq_some_iff.mp hold
    rw [he, World.ordeal?, hparts]
    simp [Components.ordeal, hcontroller]
  · rfl

namespace Engine

/-- Nothing that the engine does of itself hurts anyone. -/
theorem painless_pieces (setting : Setting) : painless.Pieces setting where
  closed := painless_closed
  elapse seconds s e := by
    show (s.world.updateAll (elapse seconds)).ordeal? e = _
    rw [World.ordeal?, World.get?_updateAll, World.ordeal?]
    cases s.world.get? e with
    | none => rfl
    | some c => cases hc : c.controller <;> simp [Components.ordeal, elapse, hc]
  note s _ := painless_closed.refl s
  drawn s _ := painless_closed.refl s
  news _ _ s := painless_closed.refl s
  setBias actor _ s := painless_update (by intro _; rfl) actor s
  rewrite s actor old c hold := painless_setController hold c
  make actor s _ := painless_update (by intro _; rfl) actor s
  reset actor s := (Threat.reset_tended actor s).painless
  prune actor s := (Threat.prune_tended actor s).painless
  lower actor s := (Threat.lower_tended setting.tuning actor s).painless
  raise actor _ s _ _ _ _ := painless_update (by intro _; rfl) actor s
  seedAll actor s _ _ _ := painless_update (by intro _; rfl) actor s
  seedEnemy ally _ s := painless_update (by intro _; rfl) ally s
  bias actor s _ _ _ _ := painless_update (by intro _; rfl) actor s
  rate actor s _ _ _ _ := painless_update (by intro _; rfl) actor s

theorem painless_spends (source : Entity) : painless.Spends source where
  spend _ s := painless_update (by intro _; rfl) source s
  skip _ s := painless_closed.refl s

end Engine

theorem Threat.modifiedAmount_accepted (t : Tuning) (candidate : Entity) (base : Int64) :
    (modifiedAmount t candidate base).Accepted := by
  intro s
  unfold modifiedAmount
  rw [world_bind]
  cases (s.world.get? candidate).bind (·.modifiers) with
  | none => exact ⟨_, rfl⟩
  | some m => exact ⟨_, rfl⟩

/-- An actor may be given threat against anyone in the world. -/
theorem Threat.increase_accepted (t : Tuning) {c : Controller} {candidate : Entity}
    (hc : s.world.controller? actor = some c) (hcandidate : s.world.contains candidate = true)
    (base : Int64) : ∃ raised, (increase t actor candidate base s).result = .ok raised := by
  unfold increase
  rw [bind_of_ok (by rw [controllerOf_eq hc]), controllerOf_eq hc]
  dsimp only
  rw [world_bind, hcandidate, if_neg (by simp)]
  split
  · exact ⟨none, rfl⟩
  split
  · exact ⟨none, rfl⟩
  obtain ⟨amount?, hamount⟩ := modifiedAmount_accepted t candidate base s
  rw [bind_of_ok hamount]
  cases amount? with
  | none => exact ⟨none, rfl⟩
  | some amount =>
    have hactor : (modifiedAmount t candidate base s).state.world.contains actor = true :=
      ((modifiedAmount_aside t candidate base s).1.contains actor).trans
        (World.contains_of_bind hc)
    obtain ⟨_, hensured⟩ := (ensureLedger_tended hactor).accepted
    dsimp only
    rw [bind_of_ok hensured]
    unfold ledgerOf
    rw [bind_assoc, world_bind, ledger?_ensureLedger hactor]
    exact ⟨_, rfl⟩

namespace Engine

/-- Registers an attacker with an actor of its own faction. -/
def register (actor attacker : Entity) (w : World) : Action Unit :=
  Action.when (Alert.sharesFaction w actor attacker) do
    let c ← controllerOf actor
    setWorld (w.setController actor (c.retaliateAgainst attacker))

theorem register_run {c : Controller} (hc : s.world.controller? actor = some c)
    (attacker : Entity) :
    (register actor attacker s.world s).result = .ok () ∧
      (∃ c', (register actor attacker s.world s).state.world.controller? actor = some c') ∧
      painless s [] (register actor attacker s.world s).state := by
  unfold register
  cases Alert.sharesFaction s.world actor attacker with
  | false => exact ⟨rfl, ⟨c, hc⟩, painless_closed.refl s⟩
  | true =>
    rw [when_true, bind_of_ok (by rw [controllerOf_eq hc]), controllerOf_eq hc]
    refine ⟨rfl, ⟨c.retaliateAgainst attacker, ?_⟩, painless_setController hc _⟩
    exact (World.controller?_setController (World.contains_of_bind hc) _ actor).trans (if_pos rfl)

/-- A hit that is not refused is logged first. -/
theorem recordDamage_eq (t : Tuning) {c : Controller} (hc : s.world.controller? actor = some c)
    (hattacker : s.world.contains attacker = true) (amount : Int64) :
    let logged : State := { s with world := s.world.logHit actor ⟨attacker, amount, s.now⟩ }
    recordDamage t actor attacker amount s = (do
      register actor attacker logged.world
      Threat.increase t actor attacker amount : Action (Option Int64)) logged := by
  intro logged
  unfold recordDamage
  rw [bind_of_ok (by rw [controllerOf_eq hc]), controllerOf_eq hc]
  dsimp only
  rw [state_bind, hattacker, if_neg (by simp),
    bind_of_ok (by rw [insert_of_contains (World.contains_of_bind hc)]),
    insert_of_contains (World.contains_of_bind hc)]
  rfl

/-- A hit on an actor by anyone in the world is never refused, and is one more blow for it. -/
theorem recordDamage_run (t : Tuning) {c : Controller} (hc : s.world.controller? actor = some c)
    (hattacker : s.world.contains attacker = true) (amount : Int64) :
    let struck := recordDamage t actor attacker amount s
    (∃ raised, struck.result = .ok raised) ∧
      ∀ e, struck.state.world.ordeal? e = (s.world.ordeal? e).map fun o =>
        if e = actor then o.suffer (attacker, amount) else o := by
  intro struck
  let logged : State := { s with world := s.world.logHit actor ⟨attacker, amount, s.now⟩ }
  have hlogged : logged.world.controller? actor = some c :=
    (World.controller?_logHit ..).trans hc
  obtain ⟨hregistered, ⟨c', hc'⟩, hpainless⟩ := register_run hlogged attacker
  have hstruck e := (hpainless e).trans (World.ordeal?_logHit s.world actor _ e)
  have hincrease : Follows painless (Threat.increase t actor attacker amount) :=
    (painless_pieces { tuning := t }).increase (painless_spends attacker) actor amount
  rw [show struck = _ from recordDamage_eq t hc hattacker amount, bind_of_ok hregistered]
  refine ⟨Threat.increase_accepted t hc' ?_ amount, fun e => (hincrease _ e).trans (hstruck e)⟩
  exact (World.contains_eq_of_ordeal? hstruck attacker).trans hattacker

/-- A hit on someone who is no actor is refused before anything is done. -/
theorem recordDamage_of_no_actor (t : Tuning) (hw : s.world.contains actor = true)
    (hc : s.world.controller? actor = none) (attacker : Entity) (amount : Int64) :
    recordDamage t actor attacker amount s = ⟨.error (.notAnActor actor), s, []⟩ := by
  have hrefused : controllerOf actor s = ⟨.error (.notAnActor actor), s, []⟩ := by
    unfold controllerOf
    rw [if_pos hw, hc]
  unfold recordDamage
  rw [bind_of_error (by rw [hrefused]), hrefused]

end Engine

/-- What a scripted hit does to an entity: a blow to its victim, if that is an actor. -/
def PlannedHit.strike (e : Entity) (o : Ordeal) (h : PlannedHit) : Ordeal :=
  if h.victim = e ∧ o.isActor = true then o.suffer (h.attacker, h.amount) else o

/-- The attacker and the victim of a hit are in the world. -/
structure PlannedHit.InWorld (w : World) (h : PlannedHit) : Prop where
  attacker : w.contains h.attacker = true
  victim : w.contains h.victim = true

theorem PlannedHit.InWorld.congr {h : PlannedHit} (hin : h.InWorld w)
    (hsame : ∀ e, w'.contains e = w.contains e) : h.InWorld w' :=
  ⟨(hsame _).trans hin.attacker, (hsame _).trans hin.victim⟩

namespace Simulation

theorem land_of_no_actor (t : Tuning) {h : PlannedHit} (hvictim : s.world.contains h.victim = true)
    (hc : s.world.controller? h.victim = none) : land t h s = ⟨.ok (), s, []⟩ := by
  unfold land tolerating
  rw [Engine.recordDamage_of_no_actor t hvictim hc]
  rfl

theorem land_of_ok (t : Tuning) {h : PlannedHit} {raised : Option Int64}
    (hok : (Engine.recordDamage t h.victim h.attacker h.amount s).result = .ok raised) :
    let struck := Engine.recordDamage t h.victim h.attacker h.amount s
    land t h s = ⟨.ok (), struck.state, struck.events⟩ := by
  intro struck
  have hstruck : struck = ⟨.ok raised, struck.state, struck.events⟩ := by rw [← hok]
  unfold land tolerating
  rw [show Engine.recordDamage t h.victim h.attacker h.amount s = _ from hstruck]

/-- A hit between members of the world lands, and strikes whom it should. -/
theorem land_run (t : Tuning) {h : PlannedHit} (hin : h.InWorld s.world) :
    (land t h s).result = .ok () ∧
      ∀ e, (land t h s).state.world.ordeal? e = (s.world.ordeal? e).map (h.strike e) := by
  cases hc : s.world.controller? h.victim with
  | none =>
    rw [land_of_no_actor t hin.victim hc]
    refine ⟨rfl, fun e => ?_⟩
    cases ho : s.world.ordeal? e with
    | none => rfl
    | some o =>
      have hspared : ¬ (h.victim = e ∧ o.isActor = true) := by
        rintro ⟨rfl, hactor⟩
        rw [World.isActor_of_ordeal? ho, hc] at hactor
        cases hactor
      rw [Option.map_some, PlannedHit.strike, if_neg hspared]
  | some c =>
    obtain ⟨⟨raised, hraised⟩, hstruck⟩ := Engine.recordDamage_run t hc hin.attacker h.amount
    rw [land_of_ok t hraised]
    refine ⟨rfl, fun e => (hstruck e).trans ?_⟩
    cases ho : s.world.ordeal? e with
    | none => rfl
    | some o =>
      have hactor : e = h.victim → o.isActor = true := by
        rintro rfl
        rw [World.isActor_of_ordeal? ho, hc]
        rfl
      rw [Option.map_some, Option.map_some, PlannedHit.strike]
      by_cases he : e = h.victim
      · rw [if_pos he, if_pos ⟨he.symm, hactor he⟩]
      · rw [if_neg he, if_neg fun hboth => he hboth.1.symm]

theorem forEach_land_run (t : Tuning) {hits : List PlannedHit}
    (hin : ∀ h ∈ hits, h.InWorld s.world) :
    let landed := forEach (land t) hits s
    landed.result = .ok () ∧
      ∀ e, landed.state.world.ordeal? e = (s.world.ordeal? e).map fun o =>
        hits.foldl (PlannedHit.strike e) o := by
  induction hits generalizing s with
  | nil => exact ⟨rfl, fun e => (Option.map_id' ..).symm⟩
  | cons h hits ih =>
    intro landed
    obtain ⟨hok, hstruck⟩ := land_run t (hin h (by simp))
    have hcontains := World.contains_eq_of_ordeal? hstruck
    obtain ⟨hrest, hothers⟩ := ih (s := (land t h s).state) fun h' hh' =>
      (hin h' (by simp [hh'])).congr hcontains
    have hrun : landed = _ := bind_of_ok hok
    rw [hrun]
    refine ⟨hrest, fun e => (hothers e).trans ?_⟩
    rw [hstruck, Option.map_map]
    rfl

end Simulation

end Hostility
