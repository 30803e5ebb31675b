import Hostility.Proofs.LedgerLaws

/-!
The floor of threat. No entry of any ledger is ever lower than the floor of the tuning, in whatever
order increases, decays, bias passes, selections, alerts and changes of the host come, and whatever
the amounts and the thresholds are.
-/
namespace Hostility

/-- Every entry has at least the value `floor`. -/
def Ledger.AtLeast (floor : Int64) (l : Ledger) : Prop := ∀ e v, l.value? e = some v → floor ≤ v

namespace Ledger.AtLeast

variable {floor : Int64} {l : Ledger}

theorem empty (floor : Int64) : Ledger.empty.AtLeast floor := by
  intro e v hv
  cases hv

theorem congr {l' : Ledger} (h : l.AtLeast floor) (hentries : l'.entries = l.entries) :
    l'.AtLeast floor := by
  intro e v hv
  rw [value?, hentries] at hv
  exact h e v hv

theorem seedAll (h : l.AtLeast floor) (es : List Entity) :
    (l.seedAll floor es).1.AtLeast floor := by
  intro k v hv
  rw [value?_seedAll, Option.or_eq_some_iff] at hv
  rcases hv with hold | ⟨-, hnew⟩
  · exact h k v hold
  · split at hnew
    · obtain rfl := Option.some.inj hnew
      exact Int64.le_refl floor
    · cases hnew

theorem seed (h : l.AtLeast floor) (e : Entity) : (l.seed e floor).1.AtLeast floor :=
  h.seedAll [e]

/-- The sum may saturate at the lower end or fall below the floor; the floor is applied last. -/
theorem add (h : l.AtLeast floor) (e : Entity) (amount : Int64) :
    (l.add e amount floor).1.AtLeast floor := by
  intro k v hv
  rw [value?_add] at hv
  split at hv
  · obtain rfl := Option.some.inj hv
    exact Std.right_le_max
  · exact h k v hv

/-- A raise to a value below the floor finds nothing to raise. -/
theorem raiseTo (h : l.AtLeast floor) (e : Entity) (value : Int64) :
    (l.raiseTo e value).1.AtLeast floor := by
  intro k v hv
  rw [value?_raiseTo] at hv
  obtain ⟨old, hold, rfl⟩ := Option.map_eq_some_iff.mp hv
  have hfloor := h k old hold
  split
  · next hraised => exact Int64.le_trans hfloor (Std.le_of_lt hraised.2)
  · exact hfloor

theorem removeAll (h : l.AtLeast floor) (gone : List Entity) :
    (l.removeAll gone).AtLeast floor := by
  intro k v hv
  rw [value?_removeAll] at hv
  split at hv
  · cases hv
  · exact h k v hv

theorem le_decayed (floor amount : Int64) (threshold : Option Int64) (value : Int64) :
    floor ≤ decayed floor amount threshold value := by
  have hlowered : floor ≤ max (satSub value amount) floor := Std.right_le_max
  unfold decayed
  cases threshold with
  | none => exact hlowered
  | some t =>
    dsimp only
    split
    · exact Int64.le_trans hlowered Std.left_le_max
    · exact hlowered

/-- A decay lifts to the floor what was below it. -/
theorem decay (l : Ledger) (floor : Int64) (fraction : Float) (threshold : Entity → Option Int64) :
    (l.decay floor fraction threshold).1.AtLeast floor := by
  intro k v hv
  rw [value?_decay] at hv
  obtain ⟨old, -, rfl⟩ := Option.map_eq_some_iff.mp hv
  exact le_decayed ..

theorem biasPass (h : l.AtLeast floor) (t : Tuning) (b : PassiveBias)
    (candidates : List Candidate) : (BiasPass.apply t l b candidates).2.1.AtLeast floor :=
  BiasPass.applyAll_keeps (fun _ c value _ _ h => h.raiseTo c.entity value) h

theorem byThreat (h : l.AtLeast floor) (t : Tuning) (candidates : List Candidate)
    (r : RandomSource) : (Selection.byThreat t l candidates r).2.1.AtLeast floor := by
  obtain ⟨outlook, hrated⟩ := Selection.byThreat_ledger t l candidates r
  rw [hrated]
  exact h.congr rfl

end Ledger.AtLeast

theorem Ledger.AtLeast.law (t : Tuning) : Law t (AtLeast t.threatMinimum) where
  empty := .empty _
  seedAll es h := h.seedAll es
  add e amount h := h.add e amount
  removeAll gone h := h.removeAll gone
  decay threshold _ := decay _ t.threatMinimum t.decayFraction threshold
  raiseTo e value h := h.raiseTo e value
  rate candidates r h := h.byThreat t candidates r

/-- Every entry of every ledger has at least the value `floor`. -/
def World.Grounded (floor : Int64) (w : World) : Prop :=
  ∀ e l, w.ledger? e = some l → l.AtLeast floor

/-- What was grounded stays so. -/
def Course.grounded (floor : Int64) : Course := keeping fun s => s.world.Grounded floor

theorem Course.grounded_closed (floor : Int64) : (grounded floor).Closed := keeping_closed _

open Course Hostility.Action

theorem Move.perform_grounded (setting : Setting) {move : Move} (hmove : move.SparesLedgers) :
    Follows (grounded setting.tuning.threatMinimum) (move.perform setting) :=
  (Ledger.AtLeast.law setting.tuning).move hmove

/-- From a world without ledgers, and as long as the host leaves ledgers alone, no run takes an
entry of any ledger below the floor. -/
theorem playOut_values_at_least_floor (setting : Setting) {s : State}
    (hnone : ∀ e, s.world.ledger? e = none) {moves : List Move}
    (hmoves : ∀ move ∈ moves, move.SparesLedgers) :
    ∀ actor l, (playOut setting moves s).state.world.ledger? actor = some l →
      ∀ e v, l.value? e = some v → setting.tuning.threatMinimum ≤ v := by
  have hfollows : Follows (grounded setting.tuning.threatMinimum) (playOut setting moves) :=
    .forEach (grounded_closed _) fun move hmove => move.perform_grounded setting (hmoves move hmove)
  have hstart : s.world.Grounded setting.tuning.threatMinimum := by
    intro e l hl
    rw [hnone e] at hl
    cases hl
  exact hfollows s hstart

/-- A wolf is healed by far more than it was ever hurt, the traveller turns into a passive source
with a threshold below zero, and the wolf thinks. -/
def appeasement : List Move :=
  [.ask (.increase ⟨0, 1⟩ ⟨2, 1⟩ Int64.minValue),
    .host (.edit ⟨2, 1⟩ fun parts => { parts with passive := some (-7) }),
    .ask (.decay ⟨0, 1⟩), .ask (.think ⟨0, 1⟩)]

/-- Constants under which threat may be taken back. -/
def forgiving : Setting := { tuning := { minimumThreatGain := Int64.minValue } }

theorem appeasement_values_at_least_floor :
    (∀ e, encounter.world.ledger? e = none) ∧
    ∀ actor l, (playOut forgiving appeasement encounter).state.world.ledger? actor = some l →
      ∀ e v, l.value? e = some v → 100 ≤ v := by
  have hnone : ∀ e, encounter.world.ledger? e = none := by
    intro e
    simp only [encounter, World.ledger?, World.get?_spawn]
    split
    · rfl
    · split
      · rfl
      · split
        · rfl
        · rfl
  refine ⟨hnone, playOut_values_at_least_floor forgiving hnone ?_⟩
  simp [appeasement, Move.SparesLedgers, Change.SparesLedgers]

end Hostility
