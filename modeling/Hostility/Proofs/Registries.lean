import Hostility.Proofs.FriendlyFire
import Hostility.Proofs.Refusals

/-!
At whom an actor may strike back. Registries only grow: no turn of a controller strikes anybody from
them, not even one that stores a controller read long before. So whoever has hit an actor of its own
faction is never spared by it again.
-/
namespace Hostility

open Course Hostility.Action

variable {rumours : Prop} {w w' w'' : World} {actor attacker e : Entity} {c c' : Controller}
  {events : List Event} {s s' : State} {t : Tuning}

/-- A world as it may become for those who have entered it: whoever is still there has the
allegiance that it had, and has struck nobody from its registry. -/
structure World.Remembers (w w' : World) : Prop where
  born : ∀ e, w'.Unborn e → w.Unborn e
  allegiance : ∀ e, ¬ w.Unborn e → ∀ own, w'.allegiance? e = some own → w.allegiance? e = some own
  registry : ∀ e, ¬ w.Unborn e → ∀ c', w'.controller? e = some c' →
    ∃ c, w.controller? e = some c ∧ ∀ k, c.retaliates k = true → c'.retaliates k = true

namespace World.Remembers

theorem refl (w : World) : w.Remembers w where
  born _ := id
  allegiance _ _ _ := id
  registry _ _ c hc := ⟨c, hc, fun _ => id⟩

theorem trans (h : w.Remembers w') (h' : w'.Remembers w'') : w.Remembers w'' where
  born e he := h.born e (h'.born e he)
  allegiance e he own hown :=
    h.allegiance e he own (h'.allegiance e (fun hunborn => he (h.born e hunborn)) own hown)
  registry e he c'' hc'' := by
    obtain ⟨c', hc', hlater⟩ := h'.registry e (fun hunborn => he (h.born e hunborn)) c'' hc''
    obtain ⟨c, hc, hearlier⟩ := h.registry e he c' hc'
    exact ⟨c, hc, fun k hk => hlater k (hearlier k hk)⟩

/-- Those who share a faction later on shared it before. -/
theorem sharesFaction {a b : Entity} (h : w.Remembers w') (ha : ¬ w.Unborn a) (hb : ¬ w.Unborn b)
    (hshares : Alert.sharesFaction w' a b = true) : Alert.sharesFaction w a b = true := by
  unfold Alert.sharesFaction at *
  cases hx : w'.allegiance? a with
  | none => simp [hx] at hshares
  | some x =>
    cases hy : w'.allegiance? b with
    | none => simp [hx, hy] at hshares
    | some y =>
      rw [hx, hy] at hshares
      rwa [h.allegiance a ha x hx, h.allegiance b hb y hy]

end World.Remembers

/-- No turn strikes anybody from a registry. -/
theorem Turn.retaliates (h : Turn rumours w events actor c c') (he : c.retaliates e = true) :
    c'.retaliates e = true := by
  cases h with
  | elapse seconds => exact he
  | giveUp =>
    rw [Controller.retaliates, Controller.retaliation_disengage]
    exact he
  | settle choice fair =>
    rw [Controller.retaliates, Engine.settle_retaliation, Controller.retaliation_rouse]
    exact he
  | comeHome =>
    rw [Controller.retaliates, Controller.retaliation_transition]
    exact he
  | retaliate attacker =>
    simp only [Controller.retaliates, Controller.retaliateAgainst, EntitySet.contains_add,
      Bool.or_eq_true] at *
    exact .inr he
  | heed other kin call told =>
    unfold Alert.pointAt
    dsimp only
    split
    · simp only [Controller.retaliates, Controller.retaliateAgainst, EntitySet.contains_add,
        Bool.or_eq_true] at *
      exact .inr he
    · exact he

namespace Course

/-- Nobody forgets whom it strikes back at. -/
def remembering : Course := fun s _ s' => s.world.Remembers s'.world

theorem remembering_closed : remembering.Closed where
  refl s := .refl s.world
  trans h h' := h.trans h'

theorem steering.remembers (h : steering rumours s events s') : s.world.Remembers s'.world where
  born e he := by rwa [World.Unborn, ← h.1.next]
  allegiance e _ own hown := (h.1.allegiance? e).symm.trans hown
  registry e _ c' hc' := by
    obtain ⟨c, hc, hturns⟩ := h.2 e c' hc'
    refine ⟨c, hc, fun k hk => ?_⟩
    clear hc hc'
    induction hturns with
    | refl => exact hk
    | tail _ hturn ih => exact hturn.retaliates ih

end Course

namespace Engine

theorem register_registers (hc : s.world.controller? actor = some c) (attacker : Entity) :
    let w' := (register actor attacker s.world s).state.world
    s.world.SameFolk w' ∧ (Alert.sharesFaction s.world actor attacker = true →
      ∀ c', w'.controller? actor = some c' → c'.retaliates attacker = true) := by
  intro w'
  cases hshares : Alert.sharesFaction s.world actor attacker with
  | false =>
    have hkept : w' = s.world := by
      simp only [w', register, hshares, when_false]
      rfl
    rw [hkept]
    exact ⟨.refl s.world, by simp⟩
  | true =>
    have hstored : w' = s.world.setController actor (c.retaliateAgainst attacker) := by
      simp only [w', register, hshares, when_true]
      rw [bind_of_ok (by rw [controllerOf_eq hc]), controllerOf_eq hc]
      rfl
    rw [hstored]
    refine ⟨.setController s.world actor _, fun _ c' hc' => ?_⟩
    rw [World.controller?_setController (World.contains_of_bind hc), if_pos rfl] at hc'
    obtain rfl := Option.some.inj hc'
    simp [Controller.retaliates, Controller.retaliateAgainst, EntitySet.contains_add]

/-- A hit that is not refused is between two who are there, and if they are of one faction the
attacker stands in the registry afterwards. -/
theorem recordDamage_registers {amount : Int64} {raised : Option Int64}
    (hok : (recordDamage t actor attacker amount s).result = .ok raised) :
    let w' := (recordDamage t actor attacker amount s).state.world
    s.world.contains actor = true ∧ s.world.contains attacker = true ∧
      (Alert.sharesFaction w' actor attacker = true →
        ∀ c', w'.controller? actor = some c' → c'.retaliates attacker = true) := by
  intro w'
  have hfine : ∀ refusal, ¬ s.world.PairFault actor attacker refusal := by
    intro refusal hfault
    have hrefused := recordDamage_refusedFor t actor attacker amount s
    rw [(hrefused.refused_iff refusal).mpr hfault] at hok
    cases hok
  obtain ⟨⟨c, hc⟩, hattacker⟩ := World.exists_controller_of_pair_faultless hfine
  let logged : State := { s with world := s.world.logHit actor ⟨attacker, amount, s.now⟩ }
  have hlogged : logged.world.controller? actor = some c := (World.controller?_logHit ..).trans hc
  obtain ⟨hfolk, hregisters⟩ := register_registers hlogged attacker
  let registered := (register actor attacker logged.world logged).state
  have haside := Threat.increase_aside t actor attacker amount registered
  have hw' : w' = (Threat.increase t actor attacker amount registered).state.world := by
    show (recordDamage t actor attacker amount s).state.world = _
    rw [recordDamage_eq t hc hattacker amount, bind_of_ok (register_run hlogged attacker).1]
  refine ⟨World.contains_of_bind hc, hattacker, fun hshares c' hc' => ?_⟩
  rw [hw', haside.1.sharesFaction_eq, hfolk.sharesFaction_eq] at hshares
  rw [hw', haside.2.1] at hc'
  exact hregisters hshares c' hc'

end Engine

/-- A host that leaves allegiances alone, and the registry in every controller. -/
def Change.SparesRegistries : Change → Prop
  | .edit _ f => ∀ parts, (f parts).allegiance = parts.allegiance ∧
    (f parts).controller.map (·.retaliation) = parts.controller.map (·.retaliation)
  | _ => True

def Move.SparesRegistries : Move → Prop
  | .ask _ => True
  | .host change => change.SparesRegistries

theorem Change.remembers {change : Change} (h : change.SparesRegistries) (s : State) :
    s.world.Remembers (change.apply s).world where
  born e he := unborn_of_apply he
  allegiance e he own hown := by
    refine allegiance?_apply ?_ he hown
    cases change with
    | edit k f => exact fun parts => (h parts).1
    | _ => trivial
  registry e he c' hc' := by
    obtain ⟨parts, hparts, hown⟩ := Option.bind_eq_some_iff.mp hc'
    rcases get?_apply hparts with hold | ⟨f, old, rfl, hold, rfl⟩ | ⟨rfl, rfl⟩
    · exact ⟨c', by rw [World.controller?, hold]; exact hown, fun _ => id⟩
    · have hregistry := (h old).2
      rw [hown, Option.map_some] at hregistry
      obtain ⟨c, hc, hsame⟩ := Option.map_eq_some_iff.mp hregistry.symm
      refine ⟨c, by rw [World.controller?, hold]; exact hc, fun k hk => ?_⟩
      rwa [Controller.retaliates, ← hsame]
    · exact (he (World.unborn_spawn s.world parts)).elim

theorem Move.perform_remembers (setting : Setting) {move : Move} (h : move.SparesRegistries) :
    Follows remembering (move.perform setting) := by
  cases move with
  | ask request =>
    have hsteers : Follows (steering True) (request.perform setting) :=
      request.perform_steering setting fun _ => trivial
    exact hsteers.mono fun h => h.remembers
  | host change => exact fun s => change.remembers h s

theorem playOut_remembers (setting : Setting) {moves : List Move}
    (hmoves : ∀ move ∈ moves, move.SparesRegistries) :
    Follows remembering (playOut setting moves) :=
  .forEach remembering_closed fun move hmove => move.perform_remembers setting (hmoves move hmove)

theorem Allegiance.sameFaction_default (a : Allegiance) : sameFaction default a = false := rfl

/-- Whoever is spared as a member of the faction shares it with the observer, and is not in the
observer's registry. -/
theorem Observer.of_evaluate_eq_sameFaction {o : Observer} {seen : Sighting}
    (h : o.evaluate w seen = .error .sameFaction) :
    (∃ theirs, w.allegiance? seen.entity = some theirs ∧
      o.allegiance.sameFaction theirs = true) ∧ o.controller.retaliates seen.entity = false := by
  unfold evaluate at h
  cases hparts : w.get? seen.entity with
  | none => simp [hparts] at h
  | some parts =>
    cases hbroken : o.exclusion? parts seen with
    | none => simp [hparts, hbroken] at h
    | some reason =>
      simp only [hparts, hbroken] at h
      obtain rfl := Except.error.inj h
      have hshares : o.sharesFaction parts = true ∧
          o.controller.retaliates seen.entity = false := by
        unfold exclusion? at hbroken
        grind
      refine ⟨?_, hshares.2⟩
      unfold sharesFaction at hshares
      cases htheirs : parts.allegiance with
      | none => simp [htheirs] at hshares
      | some theirs =>
        rw [htheirs] at hshares
        exact ⟨theirs, by rw [World.allegiance?, hparts, Option.bind_some, htheirs], hshares.1⟩

/-- As long as allegiances stay as they are and nobody but the engine writes registries, every
registry grows along a run, and once a hit on an actor has gone through the actor never again spares
the attacker as one of its own faction, whether it is seen with the eyes of the actor's allegiance
or of nobody's. -/
theorem playOut_never_forgives {setting : Setting} {s : State} {earlier later : List Move}
    (hmoves : ∀ move ∈ later, move.SparesRegistries) :
    let w := (playOut setting earlier s).state.world
    let w' := (playOut setting (earlier ++ later) s).state.world
    (∀ actor c c', w.controller? actor = some c → w'.controller? actor = some c' →
      ∀ e, c.retaliates e = true → c'.retaliates e = true) ∧
    ∀ actor attacker amount rest raised,
      later = .ask (.recordDamage actor attacker amount) :: rest →
      (Engine.recordDamage setting.tuning actor attacker amount
        (playOut setting earlier s).state).result = .ok raised →
      ∀ c', w'.controller? actor = some c' →
        ∀ own, own = default ∨ w'.allegiance? actor = some own →
          ∀ seen : Sighting, seen.entity = attacker →
            (⟨actor, c', own⟩ : Observer).evaluate w' seen ≠ .error .sameFaction := by
  intro w w'
  let before := (playOut setting earlier s).state
  have hw' : w' = (playOut setting later before).state.world := by
    show (playOut setting (earlier ++ later) s).state.world = _
    rw [state_playOut_append]
  constructor
  · intro actor c c' hc hc' e he
    have hremembers : w.Remembers w' := by
      rw [hw']
      exact playOut_remembers setting hmoves before
    have hborn := World.not_unborn_of_contains (World.contains_of_bind hc)
    obtain ⟨old, hold, hgrows⟩ := hremembers.registry actor hborn c' hc'
    obtain rfl := Option.some.inj (hold.symm.trans hc)
    exact hgrows e he
  · rintro actor attacker amount rest raised rfl hok c' hc' own hown seen rfl hspared
    obtain ⟨hactor, hattacker, hregisters⟩ := Engine.recordDamage_registers hok
    let hit := Engine.recordDamage setting.tuning actor seen.entity amount before
    have hborn (e : Entity) (he : before.world.contains e = true) : ¬ hit.state.world.Unborn e := by
      have hsteers : steering True before hit.events hit.state :=
        Engine.recordDamage_steering setting.tuning actor seen.entity amount before
      exact World.not_unborn_of_contains ((hsteers.1.contains e).trans he)
    have hremembers : hit.state.world.Remembers w' := by
      have hafter : hit.state.world.Remembers (playOut setting rest hit.state).state.world :=
        playOut_remembers setting (fun move hmove => hmoves move (by simp [hmove])) hit.state
      have hrest : w' = (playOut setting rest hit.state).state.world := by
        rw [hw', playOut_cons]
        rfl
      rwa [hrest]
    obtain ⟨⟨theirs, htheirs, hsame⟩, hnot⟩ := Observer.of_evaluate_eq_sameFaction hspared
    rcases hown with rfl | hown
    · rw [Allegiance.sameFaction_default] at hsame
      cases hsame
    · have hshares : Alert.sharesFaction w' actor seen.entity = true := by
        rw [Alert.sharesFaction, hown, htheirs]
        exact hsame
      have hthen := hremembers.sharesFaction (hborn actor hactor) (hborn _ hattacker) hshares
      obtain ⟨c, hc, hgrows⟩ := hremembers.registry actor (hborn actor hactor) c' hc'
      rw [hgrows _ (hregisters hthen c hc)] at hnot
      cases hnot

/-- Aria hits the guard of her own faction, the guard turns from tactics to threat, and comes
home. -/
def betrayal : List Move :=
  [.ask (.recordDamage ⟨1, 1⟩ ⟨2, 1⟩ 10),
    .host (.edit ⟨1, 1⟩ fun parts =>
      { parts with controller := parts.controller.map ({ · with profile := {} }) }),
    .ask (.arriveHome ⟨1, 1⟩)]

theorem betrayal_sparesRegistries : ∀ move ∈ betrayal, move.SparesRegistries := by
  have hedit (parts : Components) : (parts.controller.map fun c : Controller =>
      { c with profile := {} }).map (·.retaliation) = parts.controller.map (·.retaliation) := by
    cases parts.controller <;> rfl
  simpa [betrayal, Move.SparesRegistries, Change.SparesRegistries] using hedit

/-- The guard does not spare Aria any more. -/
theorem betrayal_never_forgiven :
    let w' := (playOut {} betrayal frontier).state.world
    (Engine.recordDamage {} ⟨1, 1⟩ ⟨2, 1⟩ 10 frontier).result = .ok none ∧
      Alert.sharesFaction w' ⟨1, 1⟩ ⟨2, 1⟩ = true ∧
      ∃ c', w'.controller? ⟨1, 1⟩ = some c' ∧
        ∀ own, own = default ∨ w'.allegiance? ⟨1, 1⟩ = some own →
          ∀ seen : Sighting, seen.entity = ⟨2, 1⟩ →
            (⟨⟨1, 1⟩, c', own⟩ : Observer).evaluate w' seen ≠ .error .sameFaction := by
  intro w'
  have hok : (Engine.recordDamage {} ⟨1, 1⟩ ⟨2, 1⟩ 10 frontier).result = .ok none := rfl
  have hactor : (w'.controller? ⟨1, 1⟩).isSome = true := by decide +kernel
  obtain ⟨c', hc'⟩ := Option.isSome_iff_exists.mp hactor
  obtain ⟨-, hspares⟩ := @playOut_never_forgives {} frontier [] betrayal betrayal_sparesRegistries
  exact ⟨hok, by decide +kernel, c', hc', hspares _ _ _ _ _ rfl hok c' hc'⟩

end Hostility
