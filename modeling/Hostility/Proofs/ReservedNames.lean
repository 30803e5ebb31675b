import Hostility.Proofs.Admissions
import Hostility.Proofs.FriendlyFire
import Hostility.Proofs.LedgerLaws

/-!
Reserved names and ledgers. Names are looked at when somebody is let into a ledger, and whoever is
in the world then keeps its name. So a host that names nobody but those who have entered the world
never sees a reserved name in a ledger. A handle that nobody has borne yet has no name that could be
reserved: if it were named to an actor, its entry would wait for whoever comes to bear it.
-/
namespace Hostility

open Course Hostility.Action

variable {setting : Setting} {t : Tuning} {actor e : Entity} {s : State} {moves : List Move}
  {move : Move}

/-- A host that leaves names alone. -/
def Change.SparesNames : Change → Prop
  | .edit _ f => ∀ parts, (f parts).name = parts.name
  | _ => True

def Move.SparesNames : Move → Prop
  | .ask _ => True
  | .host change => change.SparesNames

/-- Nobody gets an entry from a host that leaves ledgers alone. -/
theorem Change.tracks_of_apply {change : Change} (h : change.SparesLedgers)
    (htracks : (change.apply s).world.tracks actor e = true) :
    s.world.tracks actor e = true := by
  unfold World.tracks at *
  cases hparts : (change.apply s).world.get? actor with
  | none => simp [hparts] at htracks
  | some parts =>
    rw [hparts] at htracks
    rcases get?_apply hparts with hold | ⟨f, old, rfl, hold, rfl⟩ | ⟨rfl, -⟩
    · rwa [hold]
    · rw [hold]
      rw [Option.any_some, Components.tracks, h old] at htracks
      exact htracks
    · have hnone : parts.ledger = none := h
      simp [Components.tracks, hnone] at htracks

/-- Whoever has entered the world bears a reserved name only if it bore it before. -/
theorem Change.isReserved_of_apply {change : Change} (h : change.SparesNames)
    (hborn : ¬ s.world.Unborn e) (hreserved : Threat.isReserved t (change.apply s).world e = true) :
    Threat.isReserved t s.world e = true := by
  unfold Threat.isReserved World.name? at *
  cases hparts : (change.apply s).world.get? e with
  | none => simp [hparts] at hreserved
  | some parts =>
    rw [hparts] at hreserved
    rcases get?_apply hparts with hold | ⟨f, old, rfl, hold, rfl⟩ | ⟨rfl, rfl⟩
    · rwa [hold]
    · rw [hold]
      rwa [Option.bind_some, h old] at hreserved
    · exact (hborn (World.unborn_spawn s.world parts)).elim

/-- The entity has entered the world, and its name is not reserved. -/
structure World.Vetted (t : Tuning) (w : World) (e : Entity) : Prop where
  born : ¬ w.Unborn e
  unreserved : Threat.isReserved t w e = false

theorem World.Vetted.of_sameNature {w w' : World} (h : w.Vetted t e) (hnature : w.SameNature w') :
    w'.Vetted t e where
  born := by
    rw [Unborn, hnature.next]
    exact h.born
  unreserved := (hnature.isReserved_eq t e).trans h.unreserved

theorem World.Vetted.apply {change : Change} (h : s.world.Vetted t e)
    (hchange : change.SparesNames) : (change.apply s).world.Vetted t e where
  born hunborn := h.born (Change.unborn_of_apply hunborn)
  unreserved := by
    refine Bool.eq_false_iff.mpr fun hreserved => ?_
    have hbefore := Change.isReserved_of_apply hchange h.born hreserved
    rw [h.unreserved] at hbefore
    cases hbefore

/-- In some request of a run the host named an entity to an actor while nobody had borne its handle
yet, and the actor tracked it from then on. -/
def Foretold (setting : Setting) (s : State) (moves : List Move) (actor e : Entity) : Prop :=
  ∃ earlier request later, moves = earlier ++ .ask request :: later ∧ request.Names actor e ∧
    let before := (playOut setting earlier s).state
    before.world.Unborn e ∧ (request.perform setting before).state.world.tracks actor e = true

theorem Foretold.snoc (h : Foretold setting s moves actor e) (move : Move) :
    Foretold setting s (moves ++ [move]) actor e := by
  obtain ⟨earlier, request, later, rfl, hforetold⟩ := h
  exact ⟨earlier, request, later ++ [move], by simp, hforetold⟩

/-- Whoever is tracked was vetted or foretold. -/
theorem vetted_or_foretold_of_tracks (hnone : ∀ e, s.world.ledger? e = none)
    (hledgers : ∀ move ∈ moves, move.SparesLedgers) (hnames : ∀ move ∈ moves, move.SparesNames)
    (htracks : (playOut setting moves s).state.world.tracks actor e = true) :
    (playOut setting moves s).state.world.Vetted setting.tuning e ∨
      Foretold setting s moves actor e := by
  induction moves using List.reverseRecOn with
  | nil =>
    have hstart : s.world.tracks actor e = true := htracks
    rw [World.tracks_eq, hnone] at hstart
    cases hstart
  | append_singleton moves move ih =>
    let before := (playOut setting moves s).state
    have hbefore := ih (fun m hm => hledgers m (by simp [hm])) fun m hm => hnames m (by simp [hm])
    have hlast := state_playOut_snoc setting moves move s
    rw [hlast] at htracks ⊢
    cases move with
    | host change =>
      have hspares : change.SparesNames := hnames (.host change) (by simp)
      have htracked : before.world.tracks actor e = true :=
        Change.tracks_of_apply (hledgers (.host change) (by simp)) htracks
      exact (hbefore htracked).imp (fun hvetted => hvetted.apply hspares) fun hforetold =>
        hforetold.snoc _
    | ask request =>
      have hadmits : before.world.Admitting setting.tuning request
          (request.perform setting before).state.world :=
        (admitting_warranted setting request).perform before
      rcases hadmits.tracks actor e htracks with htracked | hwelcome
      · exact (hbefore htracked).imp (fun hvetted => hvetted.of_sameNature hadmits.nature)
          fun hforetold => hforetold.snoc _
      · by_cases hborn : before.world.Unborn e
        · have hnamed : request.Names actor e := hwelcome.known.resolve_left fun hpresent =>
            World.not_unborn_of_contains hpresent hborn
          exact .inr ⟨moves, request, [], rfl, hnamed, hborn, htracks⟩
        · have hvetted : before.world.Vetted setting.tuning e := ⟨hborn, hwelcome.unreserved⟩
          exact .inl (hvetted.of_sameNature hadmits.nature)

/-- From a world without ledgers, under a host that leaves ledgers and names alone, an actor tracks
somebody with a reserved name only if it was foretold: the host had candidates seeded, or an enemy
cried out, that was still to come, and the actor tracked it from then on. -/
theorem playOut_tracks_reserved_only_if_foretold (hnone : ∀ e, s.world.ledger? e = none)
    (hledgers : ∀ move ∈ moves, move.SparesLedgers) (hnames : ∀ move ∈ moves, move.SparesNames)
    (htracks : (playOut setting moves s).state.world.tracks actor e = true)
    (hreserved :
      Threat.isReserved setting.tuning (playOut setting moves s).state.world e = true) :
    Foretold setting s moves actor e := by
  refine (vetted_or_foretold_of_tracks hnone hledgers hnames htracks).resolve_left fun hvetted => ?_
  rw [hvetted.unreserved] at hreserved
  cases hreserved

/-- The move names only those who have entered the world. -/
def Move.NamesKnown (w : World) : Move → Prop
  | .ask request => ∀ actor e, request.Names actor e → ¬ w.Unborn e
  | .host _ => True

/-- A run in which the host never makes up a handle. -/
def NamesKnown (setting : Setting) : List Move → State → Prop
  | [], _ => True
  | move :: rest, s =>
    move.NamesKnown s.world ∧ NamesKnown setting rest (move.perform setting s).state

theorem NamesKnown.not_unborn {earlier later : List Move} {request : Request}
    (h : NamesKnown setting (earlier ++ .ask request :: later) s) (hnamed : request.Names actor e) :
    ¬ (playOut setting earlier s).state.world.Unborn e := by
  induction earlier generalizing s with
  | nil => exact h.1 actor e hnamed
  | cons move earlier ih =>
    rw [playOut_cons]
    exact ih h.2

/-- From a world without ledgers, under a host that leaves ledgers and names alone and never makes
up a handle, nobody with a reserved name is tracked by any actor. -/
theorem playOut_never_tracks_reserved (hnone : ∀ e, s.world.ledger? e = none)
    (hledgers : ∀ move ∈ moves, move.SparesLedgers) (hnames : ∀ move ∈ moves, move.SparesNames)
    (hknown : NamesKnown setting moves s) :
    let after := (playOut setting moves s).state.world
    ∀ actor e, after.tracks actor e = true → Threat.isReserved setting.tuning after e = false := by
  intro after actor e htracks
  refine Bool.eq_false_iff.mpr fun hreserved => ?_
  obtain ⟨earlier, request, later, rfl, hnamed, hunborn, -⟩ :=
    playOut_tracks_reserved_only_if_foretold hnone hledgers hnames htracks hreserved
  exact hknown.not_unborn hnamed hunborn

/-- An orc on its own. -/
def lair : State where
  world := (World.empty.spawn { name := some "orc", controller := some (.ofProfile {}) }).2
  random := .cycle [0]
  now := 0
  alerts := ∅

theorem ledger?_lair (e : Entity) : lair.world.ledger? e = none := by
  simp only [lair, World.ledger?, World.get?_spawn]
  split
  · rfl
  · rfl

/-- A placeholder and Aria come, and the orc is told of both. -/
def visitors : List Move :=
  [.host (.spawn { name := some " Placeholder " }), .host (.spawn { name := some "Aria" }),
    .ask (.seedCandidates ⟨0, 1⟩ [⟨⟨1, 1⟩, 1.0, .player, none⟩, ⟨⟨2, 1⟩, 2.0, .player, none⟩])]

theorem visitors_never_track_reserved :
    let after := (playOut {} visitors lair).state.world
    (∀ e, lair.world.ledger? e = none) ∧ (∀ move ∈ visitors, move.SparesLedgers) ∧
      (∀ move ∈ visitors, move.SparesNames) ∧ NamesKnown {} visitors lair ∧
      after.tracks ⟨0, 1⟩ ⟨2, 1⟩ = true ∧ Threat.isReserved {} after ⟨2, 1⟩ = false ∧
      Threat.isReserved {} after ⟨1, 1⟩ = true ∧ after.tracks ⟨0, 1⟩ ⟨1, 1⟩ = false := by
  intro after
  have hledgers : ∀ move ∈ visitors, move.SparesLedgers := by
    simp [visitors, Move.SparesLedgers, Change.SparesLedgers]
  have hnames : ∀ move ∈ visitors, move.SparesNames := by
    simp [visitors, Move.SparesNames, Change.SparesNames]
  have hknown : NamesKnown {} visitors lair := by
    refine ⟨trivial, trivial, ?_, trivial⟩
    rintro actor e ⟨-, k, hk, rfl⟩
    simp only [List.mem_cons, List.not_mem_nil, or_false] at hk
    rcases hk with rfl | rfl
    · exact World.not_unborn_of_contains (by decide +kernel)
    · exact World.not_unborn_of_contains (by decide +kernel)
  have hspared := playOut_never_tracks_reserved ledger?_lair hledgers hnames hknown
  have htracks : after.tracks ⟨0, 1⟩ ⟨2, 1⟩ = true := by decide +kernel
  have hreserved : Threat.isReserved {} after ⟨1, 1⟩ = true := by decide +kernel
  refine ⟨ledger?_lair, hledgers, hnames, hknown, htracks, hspared _ _ htracks, hreserved, ?_⟩
  refine Bool.eq_false_iff.mpr fun htracks => ?_
  rw [hspared _ _ htracks] at hreserved
  cases hreserved

end Hostility
