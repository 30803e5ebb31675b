import Hostility.Proofs.Floor

/-!
The gain of a ledger, told by the events. An increase adds to the gain of its actor, a decay and a
reset use it up, and nothing else touches it. A host can take it away only together with the actor.
-/
namespace Hostility

variable {setting : Setting} {t : Tuning} {least : Int64} {actor x : Entity} {w w' : World}
  {s s' : State} {events events' : List Event}

namespace Event

/-- The threat that an actor gains in an event. -/
def gainOf? (x : Entity) : Event → Option Int64
  | threatIncreased a _ amount _ => if a = x then some amount else none
  | _ => none

/-- Whether an event uses up the gain of an actor. -/
def spendsGainOf (x : Entity) : Event → Bool
  | threatDecayed a _ _ | ledgerReset a => decide (a = x)
  | _ => false

/-- The gain of an actor's ledger after one event. -/
def gainAfter (x : Entity) (gain : Int64) (e : Event) : Int64 :=
  match e.gainOf? x with
  | some amount => satAdd gain amount
  | none => if e.spendsGainOf x then 0 else gain

/-- No threat is gained, or at least the least amount that there is. -/
def GainsAtLeast (least : Int64) : Event → Prop
  | threatIncreased _ _ amount _ => least ≤ amount
  | _ => True

theorem LeavesGain.gainAfter_eq {e : Event} (h : e.LeavesGain) (x : Entity) (gain : Int64) :
    e.gainAfter x gain = gain := by
  cases e <;> first | rfl | exact h.elim

theorem LeavesGain.gainsAtLeast {e : Event} (h : e.LeavesGain) : e.GainsAtLeast least := by
  cases e <;> trivial

end Event

/-- The gain of an actor's ledger after some events. -/
def gainAfter (x : Entity) (gain : Int64) (events : List Event) : Int64 :=
  events.foldl (Event.gainAfter x) gain

/-- What an actor gains in some events, in their order. -/
def gainsOf (x : Entity) (events : List Event) : List Int64 := events.filterMap (Event.gainOf? x)

theorem gainAfter_append (x : Entity) (gain : Int64) (events events' : List Event) :
    gainAfter x gain (events ++ events') = gainAfter x (gainAfter x gain events) events' :=
  List.foldl_append

theorem gainAfter_of_leavesGain (h : ∀ e ∈ events, e.LeavesGain) (x : Entity) (gain : Int64) :
    gainAfter x gain events = gain := by
  induction events with
  | nil => rfl
  | cons e events ih =>
    show gainAfter x (e.gainAfter x gain) events = gain
    rw [(h e (by simp)).gainAfter_eq]
    exact ih fun e' he' => h e' (by simp [he'])

theorem gainAfter_of_unspent (h : ∀ e ∈ events, e.spendsGainOf x = false) (gain : Int64) :
    gainAfter x gain events = (gainsOf x events).foldl satAdd gain := by
  induction events generalizing gain with
  | nil => rfl
  | cons e events ih =>
    have hrest := ih fun e' he' => h e' (by simp [he'])
    show gainAfter x (e.gainAfter x gain) events = _
    rw [hrest, Event.gainAfter, h e (by simp), gainsOf, gainsOf]
    cases he : e.gainOf? x with
    | none => simp [he]
    | some amount => simp [he]

/-- Once gain was used up, it does not matter how much there had been. -/
theorem gainAfter_of_spent (h : ∃ e ∈ events, e.spendsGainOf x = true) (gain gain' : Int64) :
    gainAfter x gain events = gainAfter x gain' events := by
  induction events generalizing gain gain' with
  | nil => simp at h
  | cons e events ih =>
    show gainAfter x (e.gainAfter x gain) events = gainAfter x (e.gainAfter x gain') events
    by_cases hlater : ∃ e ∈ events, e.spendsGainOf x = true
    · exact ih hlater _ _
    · obtain ⟨e', he', hspends⟩ := h
      rcases List.mem_cons.mp he' with rfl | he'
      · have hnone : e'.gainOf? x = none := by
          cases e' <;> first | rfl | cases hspends
        rw [Event.gainAfter, Event.gainAfter, hnone]
        simp [hspends]
      · exact absurd ⟨e', he', hspends⟩ hlater

/-- Where nothing is gained, gain is used up or stays. -/
theorem gainAfter_of_ungained (h : ∀ e ∈ events, e.gainOf? x = none) (gain : Int64) :
    gainAfter x gain events = if events.any (Event.spendsGainOf x) then 0 else gain := by
  induction events generalizing gain with
  | nil => rfl
  | cons e events ih =>
    show gainAfter x (e.gainAfter x gain) events = _
    rw [ih fun e' he' => h e' (by simp [he']), Event.gainAfter, h e (by simp), List.any_cons]
    cases e.spendsGainOf x <;> simp

theorem satAdd_mono {a b amount : Int64} (h : a ≤ b) : satAdd a amount ≤ satAdd b amount := by
  rw [Int64.le_iff_toInt_le] at *
  rw [satAdd, satAdd, toInt_saturate, toInt_saturate]
  omega

theorem satAdd_nonneg {a amount : Int64} (ha : 0 ≤ a) (hamount : 0 ≤ amount) :
    0 ≤ satAdd a amount := by
  rw [Int64.le_iff_toInt_le] at *
  rw [satAdd, toInt_saturate]
  have hzero : (0 : Int64).toInt = 0 := by decide
  have hmin : Int64.minValue.toInt ≤ 0 := by decide
  have hmax : 0 ≤ Int64.maxValue.toInt := by decide
  omega

/-- Where nothing negative is gained, what is left of the gain is at most the sum of it all. -/
theorem gainAfter_le_sum (h : ∀ e ∈ events, e.GainsAtLeast least) (hleast : 0 ≤ least)
    {gain bound : Int64} (hgain : gain ≤ bound) (hbound : 0 ≤ bound) :
    gainAfter x gain events ≤ (gainsOf x events).foldl satAdd bound := by
  induction events generalizing gain bound with
  | nil => exact hgain
  | cons e events ih =>
    have hrest : ∀ e' ∈ events, e'.GainsAtLeast least := fun e' he' => h e' (by simp [he'])
    show gainAfter x (e.gainAfter x gain) events ≤ _
    rw [Event.gainAfter, gainsOf]
    cases he : e.gainOf? x with
    | none =>
      rw [List.filterMap_cons_none he]
      refine ih hrest ?_ hbound
      show (if e.spendsGainOf x then 0 else gain) ≤ bound
      split
      · exact hbound
      · exact hgain
    | some amount =>
      have hamount : least ≤ amount := by
        cases e with
        | threatIncreased a candidate amount' total =>
          obtain ⟨-, rfl⟩ : a = x ∧ amount' = amount := by simpa [Event.gainOf?] using he
          exact h (.threatIncreased a candidate amount' total) (by simp)
        | _ => cases he
      rw [List.filterMap_cons_some he]
      exact ih hrest (satAdd_mono hgain)
        (satAdd_nonneg hbound (Int64.le_trans hleast hamount))

/-- What an entity's ledger has gained; nothing without a ledger. -/
def Components.gain (c : Components) : Int64 := (c.ledger.map (·.gained)).getD 0

def World.gain (w : World) (x : Entity) : Int64 := ((w.get? x).map Components.gain).getD 0

namespace World

theorem gain_of_ledger {l : Ledger} (h : w.ledger? x = some l) : w.gain x = l.gained := by
  obtain ⟨c, hc, hl⟩ := Option.bind_eq_some_iff.mp h
  simp [gain, hc, Components.gain, hl]

theorem gain_of_get? (h : w'.get? x = w.get? x) : w'.gain x = w.gain x := by rw [gain, gain, h]

theorem gain_update {f : Components → Components} (h : ∀ c, (f c).gain = c.gain) (w : World)
    (e x : Entity) : (w.update e f).gain x = w.gain x := by
  rw [gain, gain, get?_update]
  split
  · next hx =>
    rw [hx]
    cases w.get? e <;> simp [h]
  · rfl

theorem gain_setLedger (hw : w.contains actor = true) (l : Ledger) (x : Entity) :
    (w.setLedger actor l).gain x = if x = actor then l.gained else w.gain x := by
  split
  · next hx =>
    rw [hx]
    exact gain_of_ledger (ledger?_setLedger hw l)
  · next hx =>
    apply gain_of_get?
    rw [setLedger, get?_update, if_neg hx]

end World

@[simp] theorem Ledger.gained_removeAll (l : Ledger) (gone : List Entity) :
    (l.removeAll gone).gained = l.gained := by
  induction gone generalizing l with
  | nil => rfl
  | cons e gone ih => exact ih (l.remove e)

namespace Course

/-- The events tell what becomes of every gain, and nothing is gained below the least amount. -/
def tallying (least : Int64) : Course := fun s events s' =>
  (∀ x, s'.world.gain x = gainAfter x (s.world.gain x) events) ∧
    ∀ e ∈ events, e.GainsAtLeast least

theorem tallying_closed (least : Int64) : (tallying least).Closed where
  refl _ := ⟨fun _ => rfl, by simp⟩
  trans h h' := by
    refine ⟨fun x => ?_, fun e he => ?_⟩
    · rw [gainAfter_append, ← h.1 x]
      exact h'.1 x
    · rcases List.mem_append.mp he with he | he
      · exact h.2 e he
      · exact h'.2 e he

theorem tallying_of_gain (hgain : ∀ x, s'.world.gain x = s.world.gain x)
    (hevents : ∀ e ∈ events, e.LeavesGain) : tallying least s events s' := by
  refine ⟨fun x => ?_, fun e he => (hevents e he).gainsAtLeast⟩
  rw [gainAfter_of_leavesGain hevents]
  exact hgain x

end Course

open Course Hostility.Action

theorem tallying_update {f : Components → Components} (h : ∀ c, (f c).gain = c.gain) (e : Entity)
    (s : State) : tallying least s [] { s with world := s.world.update e f } :=
  tallying_of_gain (World.gain_update h s.world e) (by simp)

/-- A ledger is replaced by one that has gained as much. -/
theorem tallying_setLedger {l l' : Ledger} (hl : s.world.ledger? actor = some l)
    (hgained : l'.gained = l.gained) :
    tallying least s [] { s with world := s.world.setLedger actor l' } := by
  refine tallying_of_gain (fun x => ?_) (by simp)
  show (s.world.setLedger actor l').gain x = _
  rw [World.gain_setLedger (World.contains_of_bind hl)]
  split
  · next hx => rw [hx, hgained, World.gain_of_ledger hl]
  · rfl

/-- A ledger is replaced, and one event tells what becomes of its gain. -/
theorem tallying_setLedger_telling {l l' : Ledger} {e : Event}
    (hl : s.world.ledger? actor = some l) (hown : l'.gained = e.gainAfter actor l.gained)
    (hothers : ∀ x, x ≠ actor → ∀ gain, e.gainAfter x gain = gain) (hleast : e.GainsAtLeast least) :
    tallying least s [e] { s with world := s.world.setLedger actor l' } := by
  refine ⟨fun x => ?_, by simpa using hleast⟩
  show (s.world.setLedger actor l').gain x = e.gainAfter x (s.world.gain x)
  rw [World.gain_setLedger (World.contains_of_bind hl)]
  split
  · next hx => rw [hx, hown, World.gain_of_ledger hl]
  · next hx => exact (hothers x hx _).symm

namespace Threat

theorem reset_tallying (actor : Entity) : Follows (tallying least) (reset actor) := by
  intro s
  have hcleared : ∀ x, (s.world.update actor fun c => { c with
      ledger := c.ledger.map fun _ => .empty
      bias := c.bias.map fun _ => ∅ }).gain x = if x = actor then 0 else s.world.gain x := by
    intro x
    rw [World.gain, World.get?_update]
    split
    · cases s.world.get? actor with
      | none => rfl
      | some c => cases hl : c.ledger <;> simp [Components.gain, hl, Ledger.empty]
    · rfl
  refine ⟨fun x => (hcleared x).trans ?_, ?_⟩
  · show _ = (Event.ledgerReset actor).gainAfter x (s.world.gain x)
    by_cases hx : x = actor
    · simp [Event.gainAfter, Event.gainOf?, Event.spendsGainOf, hx]
    · simp [Event.gainAfter, Event.gainOf?, Event.spendsGainOf, hx, Ne.symm hx]
  · intro e he
    obtain rfl := List.mem_singleton.mp he
    trivial

theorem prune_tallying (actor : Entity) : Follows (tallying least) (prune actor) := by
  refine prune_follows (tallying_closed least) fun s gone => ?_
  refine tallying_of_gain (fun x => ?_) fun e he => (List.not_mem_nil he).elim
  refine World.gain_update (fun c => ?_) s.world actor x
  cases hl : c.ledger <;> simp [Components.gain, hl]

theorem lower_tallying (t : Tuning) (actor : Entity) :
    Follows (tallying least) (lower t actor) := by
  refine lower_follows (tallying_closed least) fun s l lowered amount hl hdecay => ?_
  have hgained : lowered.gained = 0 := by
    cases hempty : l.isEmpty with
    | true =>
      rw [Ledger.decay_of_isEmpty hempty] at hdecay
      cases hdecay
    | false =>
      have hnone := (Ledger.decay_of_not_isEmpty hempty t.threatMinimum t.decayFraction
        s.world.passive?).1
      rwa [hdecay] at hnone
  refine tallying_setLedger_telling hl ?_ (fun x hx gain => ?_) trivial
  · simp [Event.gainAfter, Event.gainOf?, Event.spendsGainOf, hgained]
  · simp [Event.gainAfter, Event.gainOf?, Event.spendsGainOf, Ne.symm hx]

/-- A new ledger has gained as little as none. -/
theorem make_tallying (actor : Entity) (hnone : s.world.ledger? actor = none) :
    tallying least s [] { s with
      world := s.world.update actor fun c => { c with ledger := some .empty } } := by
  refine tallying_of_gain (fun x => ?_) (by simp)
  show (s.world.update actor _).gain x = _
  rw [World.gain, World.gain, World.get?_update]
  split
  · next hx =>
    rw [hx]
    rw [World.ledger?] at hnone
    cases hc : s.world.get? actor with
    | none => rfl
    | some c =>
      rw [hc, Option.bind_some] at hnone
      simp [Components.gain, hnone, Ledger.empty]
  · rfl

theorem raise_tallying (t : Tuning) {l : Ledger} (hl : s.world.ledger? actor = some l)
    {amount : Int64} (hamount : t.minimumThreatGain ≤ amount) (candidate : Entity) :
    let raised := l.add candidate amount t.threatMinimum
    tallying t.minimumThreatGain s [.threatIncreased actor candidate amount raised.2]
      { s with world := s.world.setLedger actor raised.1 } := by
  have hgained : (l.add candidate amount t.threatMinimum).1.gained = satAdd l.gained amount := rfl
  refine tallying_setLedger_telling hl ?_ (fun x hx gain => ?_) hamount
  · simp [Event.gainAfter, Event.gainOf?, hgained]
  · simp [Event.gainAfter, Event.gainOf?, Event.spendsGainOf, Ne.symm hx]

end Threat

/-- All that the engine is made of tells what it does to a gain. -/
theorem Engine.tallying_pieces (setting : Setting) :
    (tallying setting.tuning.minimumThreatGain).Pieces setting where
  closed := tallying_closed _
  elapse seconds s := by
    refine tallying_of_gain (fun x => ?_) (by simp)
    show (s.world.updateAll (elapse seconds)).gain x = _
    rw [World.gain, World.get?_updateAll, World.gain]
    cases s.world.get? x <;> rfl
  note _ _ := tallying_of_gain (fun _ => rfl) (by simp)
  drawn _ _ := tallying_of_gain (fun _ => rfl) (by simp)
  news _ h _ := tallying_of_gain (fun _ => rfl) fun e he => (h e he).leavesGain
  setBias actor _ s := tallying_update (by intro _; rfl) actor s
  rewrite s actor _ _ _ := tallying_update (by intro _; rfl) actor s
  make actor _ hnone := Threat.make_tallying actor hnone
  reset := Threat.reset_tallying
  prune := Threat.prune_tallying
  lower := Threat.lower_tallying setting.tuning
  raise _ candidate _ _ _ hl hamount := Threat.raise_tallying setting.tuning hl hamount candidate
  seedAll _ _ l _ hl := tallying_setLedger hl (l.gained_seedAll _ _)
  seedEnemy ally enemy s := by
    refine tallying_update (fun c => ?_) ally s
    cases hl : c.ledger <;> simp [Components.gain, hl, Ledger.empty]
  bias _ _ _ _ _ hl := tallying_setLedger hl
    (BiasPass.applyAll_keeps (fun l c value _ _ h => (l.gained_raiseTo c.entity value).trans h) rfl)
  rate _ _ l candidates source hl := by
    obtain ⟨outlook, hrated⟩ := Selection.byThreat_ledger setting.tuning l candidates source
    exact tallying_setLedger hl (by rw [hrated])

theorem Engine.tallying_spends (least : Int64) (source : Entity) :
    (tallying least).Spends source where
  spend _ s := tallying_update (by intro _; rfl) source s
  skip _ _ := tallying_of_gain (fun _ => rfl) (by simp [Event.LeavesGain])

end Hostility
