import Hostility.Proofs.LedgerView
import Hostility.Proofs.Pieces

/-!
Laws of ledgers. What holds of an empty ledger, and is kept whenever the engine writes to one, holds
of every ledger that a run leads to, as long as the host leaves ledgers alone.
-/
namespace Hostility

/-- A property that an empty ledger has and that no change of a ledger by the engine breaks. -/
structure Ledger.Law (t : Tuning) (P : Ledger → Prop) : Prop where
  empty : P .empty
  seedAll : ∀ {l} es, P l → P (l.seedAll t.threatMinimum es).1
  add : ∀ {l} e amount, P l → P (l.add e amount t.threatMinimum).1
  removeAll : ∀ {l} gone, P l → P (l.removeAll gone)
  decay : ∀ {l} threshold, P l → P (l.decay t.threatMinimum t.decayFraction threshold).1
  raiseTo : ∀ {l} e value, P l → P (l.raiseTo e value).1
  rate : ∀ {l} candidates r, P l → P (Selection.byThreat t l candidates r).2.1

theorem Ledger.Law.biasPass {t : Tuning} {P : Ledger → Prop} (h : Law t P) {l : Ledger}
    (b : PassiveBias) (candidates : List Candidate) (hl : P l) :
    P (BiasPass.apply t l b candidates).2.1 :=
  BiasPass.applyAll_keeps (fun _ c value _ _ hl => h.raiseTo c.entity value hl) hl

/-- Every ledger in the world has a property. -/
def World.EveryLedger (P : Ledger → Prop) (w : World) : Prop := ∀ e l, w.ledger? e = some l → P l

namespace World.EveryLedger

variable {P : Ledger → Prop} {w : World} {e : Entity} {f : Components → Components}

theorem of_none (h : ∀ e, w.ledger? e = none) : w.EveryLedger P := by
  intro e l hl
  rw [h e] at hl
  cases hl

theorem update (h : w.EveryLedger P)
    (hf : ∀ c, w.get? e = some c → ∀ l, (f c).ledger = some l → P l) :
    (w.update e f).EveryLedger P := by
  intro k l hl
  rw [ledger?, get?_update] at hl
  split at hl
  · obtain ⟨c', hc', hl⟩ := Option.bind_eq_some_iff.mp hl
    obtain ⟨c, hc, rfl⟩ := Option.map_eq_some_iff.mp hc'
    exact hf c hc l hl
  · exact h k l hl

/-- A change of other parts than the ledger. -/
theorem update_other (h : w.EveryLedger P) (hf : ∀ c, (f c).ledger = c.ledger) :
    (w.update e f).EveryLedger P := by
  refine h.update fun c hc l hl => h e l ?_
  rw [ledger?, hc, Option.bind_some, ← hf c, hl]

theorem updateAll (h : w.EveryLedger P) (hf : ∀ c, (f c).ledger = c.ledger) :
    (w.updateAll f).EveryLedger P := by
  intro e l hl
  apply h e l
  rw [← hl, ledger?, ledger?, get?_updateAll]
  cases w.get? e <;> simp [hf]

theorem setLedger {l : Ledger} (h : w.EveryLedger P) (hl : P l) :
    (w.setLedger e l).EveryLedger P := by
  refine h.update fun c _ l' hl' => ?_
  obtain rfl := Option.some.inj hl'
  exact hl

end World.EveryLedger

/-- What every ledger satisfies, every ledger goes on to satisfy. -/
def Course.lawful (P : Ledger → Prop) : Course := keeping fun s => s.world.EveryLedger P

theorem Course.lawful_closed (P : Ledger → Prop) : (lawful P).Closed := keeping_closed _

open Course Hostility.Action

variable {setting : Setting} {t : Tuning} {P : Ledger → Prop} {actor : Entity} {s : State}
  {events : List Event}

theorem lawful_update_other {f : Components → Components} (hf : ∀ c, (f c).ledger = c.ledger)
    (e : Entity) (s : State) :
    lawful P s events { s with world := s.world.update e f } :=
  fun h => World.EveryLedger.update_other h hf

theorem lawful_setLedger {l l' : Ledger} (hl : s.world.ledger? actor = some l)
    (hkeeps : P l → P l') :
    lawful P s events { s with world := s.world.setLedger actor l' } :=
  fun h => World.EveryLedger.setLedger h (hkeeps (h actor l hl))

namespace Ledger.Law

variable (h : Law t P)
include h

theorem reset (actor : Entity) : Follows (lawful P) (Threat.reset actor) := by
  intro s hs
  refine World.EveryLedger.update hs fun c _ l hl => ?_
  obtain ⟨_, -, rfl⟩ := Option.map_eq_some_iff.mp hl
  exact h.empty

theorem prune (actor : Entity) : Follows (lawful P) (Threat.prune actor) := by
  refine Threat.prune_follows (lawful_closed P) fun s gone hs => ?_
  refine World.EveryLedger.update hs fun c hc l hl => ?_
  obtain ⟨old, hold, rfl⟩ := Option.map_eq_some_iff.mp hl
  exact h.removeAll gone (hs actor old (by rw [World.ledger?, hc, Option.bind_some, hold]))

theorem lower (actor : Entity) : Follows (lawful P) (Threat.lower t actor) := by
  refine Threat.lower_follows (lawful_closed P) fun s l lowered amount hl hdecay => ?_
  refine lawful_setLedger hl fun hlawful => ?_
  have hlowered := h.decay s.world.passive? hlawful
  rwa [hdecay] at hlowered

/-- An ally's ledger may be made by the alert. -/
theorem seedEnemy (ally enemy : Entity) (s : State) :
    lawful P s [] { s with world := Alert.seedEnemy t s.world ally enemy } := by
  intro hs
  refine World.EveryLedger.update hs fun c hc l hl => ?_
  obtain rfl := Option.some.inj hl
  refine h.seedAll [enemy] ?_
  cases hledger : c.ledger with
  | none => exact h.empty
  | some old => exact hs ally old (by rw [World.ledger?, hc, Option.bind_some, hledger])

end Ledger.Law

namespace Ledger.Law

theorem pieces (h : Law setting.tuning P) : (lawful P).Pieces setting where
  closed := lawful_closed P
  elapse seconds s hs := World.EveryLedger.updateAll hs (by intro _; rfl)
  note _ _ hs := hs
  drawn _ _ hs := hs
  news _ _ _ hs := hs
  setBias actor _ := lawful_update_other (by intro _; rfl) actor
  rewrite s actor _ _ _ := lawful_update_other (by intro _; rfl) actor s
  make actor s _ hs := World.EveryLedger.update hs fun _ _ l hl => by
    obtain rfl := Option.some.inj hl
    exact h.empty
  reset := h.reset
  prune := h.prune
  lower := h.lower
  raise _ candidate _ _ amount hl _ := lawful_setLedger hl (h.add candidate amount)
  seedAll _ _ _ es hl := lawful_setLedger hl (h.seedAll es)
  seedEnemy := h.seedEnemy
  bias _ _ _ b candidates hl := lawful_setLedger hl (h.biasPass b candidates)
  rate _ _ _ candidates source hl := lawful_setLedger hl (h.rate candidates source)

end Ledger.Law

theorem lawful_spends (P : Ledger → Prop) (source : Entity) : (lawful P).Spends source where
  spend _ := lawful_update_other (by intro _; rfl) source
  skip _ _ hs := hs

/-- A host that leaves ledgers alone: whoever arrives has none. -/
def Change.SparesLedgers : Change → Prop
  | .spawn parts => parts.ledger = none
  | .edit _ f => ∀ parts, (f parts).ledger = parts.ledger
  | .despawn _ | .setClock _ | .setRandom _ => True

def Move.SparesLedgers : Move → Prop
  | .ask _ => True
  | .host change => change.SparesLedgers

theorem World.EveryLedger.apply {change : Change} (h : s.world.EveryLedger P)
    (hchange : change.SparesLedgers) : (change.apply s).world.EveryLedger P := by
  intro e l hl
  obtain ⟨parts, hparts, hown⟩ := Option.bind_eq_some_iff.mp hl
  rcases Change.get?_apply hparts with hold | ⟨f, old, rfl, hold, rfl⟩ | ⟨rfl, -⟩
  · exact h e l (by rw [ledger?, hold, Option.bind_some, hown])
  · exact h e l (by rw [ledger?, hold, Option.bind_some, ← hchange old, hown])
  · rw [show parts.ledger = none from hchange] at hown
    cases hown

namespace Ledger.Law

theorem request (h : Law setting.tuning P) (request : Request) :
    Follows (lawful P) (request.perform setting) :=
  h.pieces.perform (fun actor _ => lawful_update_other (by intro _; rfl) actor)
    fun source _ => lawful_spends P source

theorem move (h : Law setting.tuning P) {move : Move} (hmove : move.SparesLedgers) :
    Follows (lawful P) (move.perform setting) := by
  cases move with
  | ask request => exact h.request request
  | host change => exact fun _ hs => World.EveryLedger.apply hs hmove

/-- A law of ledgers holds of all ledgers that a run from a world without ledgers leads to. -/
theorem playOut (h : Law setting.tuning P) (hnone : ∀ e, s.world.ledger? e = none)
    {moves : List Move} (hmoves : ∀ move ∈ moves, move.SparesLedgers) :
    (playOut setting moves s).state.world.EveryLedger P := by
  have hfollows : Follows (lawful P) (Hostility.playOut setting moves) :=
    .forEach (lawful_closed P) fun move hmove => h.move (hmoves move hmove)
  exact hfollows s (.of_none hnone)

end Ledger.Law

theorem ledger?_encounter (e : Entity) : encounter.world.ledger? e = none := by
  simp only [encounter, World.ledger?, World.get?_spawn]
  split
  · rfl
  · split
    · rfl
    · split
      · rfl
      · rfl

end Hostility
