import Hostility.Proofs.RollCall

/-!
What is true of every run of an action. A course relates the state before, the events published on
the way, and the state after. A course that holds of doing nothing and of one thing after another
is followed by whatever is made of actions that follow it.
-/
namespace Hostility

abbrev Course := State → List Event → State → Prop

namespace Course

structure Closed (R : Course) : Prop where
  refl : ∀ s, R s [] s
  trans : ∀ {s s' s'' events events'}, R s events s' → R s' events' s'' →
    R s (events ++ events') s''

/-- The course of keeping a property of the state. -/
def keeping (I : State → Prop) : Course := fun s _ s' => I s → I s'

theorem keeping_closed (I : State → Prop) : (keeping I).Closed := ⟨fun _ => id, fun h h' => h' ∘ h⟩

/-- The course of telling events of one kind only. -/
def telling (p : Event → Prop) : Course := fun _ events _ => ∀ e ∈ events, p e

theorem telling_closed (p : Event → Prop) : (telling p).Closed where
  refl _ := by simp [telling]
  trans h h' := by
    intro e he
    rcases List.mem_append.mp he with he | he
    · exact h e he
    · exact h' e he

end Course

/-- One action after the other, from a given state. -/
theorem Course.Closed.bind {α β : Type} {R : Course} (hR : R.Closed) {m : Action α}
    {f : α → Action β} {s : State} (hm : R s (m s).events (m s).state)
    (hf : ∀ a, (m s).result = .ok a →
      R (m s).state (f a (m s).state).events (f a (m s).state).state) :
    R s ((m >>= f) s).events ((m >>= f) s).state := by
  cases h : (m s).result with
  | error refusal =>
    rw [Action.bind_of_error h]
    exact hm
  | ok a =>
    rw [Action.bind_of_ok h]
    exact hR.trans hm (hf a h)

theorem Course.Closed.controllerOf_bind {β : Type} {R : Course} (hR : R.Closed) {actor : Entity}
    {f : Controller → Action β} {s : State}
    (hf : ∀ c, s.world.controller? actor = some c → R s (f c s).events (f c s).state) :
    R s ((Action.controllerOf actor >>= f) s).events
      ((Action.controllerOf actor >>= f) s).state := by
  cases hc : s.world.controller? actor with
  | some c =>
    rw [Action.bind_of_ok (by rw [Action.controllerOf_eq hc]), Action.controllerOf_eq hc]
    exact hf c hc
  | none =>
    obtain ⟨refusal, hrefused⟩ := Action.controllerOf_of_none hc
    rw [Action.bind_of_error (by rw [hrefused]), hrefused]
    exact hR.refl s

theorem Course.Closed.ledgerOf_bind {β : Type} {R : Course} (hR : R.Closed) {actor : Entity}
    {f : Ledger → Action β} {s : State}
    (hf : ∀ l, s.world.ledger? actor = some l → R s (f l s).events (f l s).state) :
    R s ((Threat.ledgerOf actor >>= f) s).events ((Threat.ledgerOf actor >>= f) s).state := by
  refine hR.bind ?_ ?_
  · unfold Threat.ledgerOf
    rw [Action.world_bind]
    cases s.world.ledger? actor with
    | some l => exact hR.refl s
    | none => exact hR.refl s
  · unfold Threat.ledgerOf
    rw [Action.world_bind]
    cases hl : s.world.ledger? actor with
    | some l =>
      rintro a ⟨⟩
      exact hf l hl
    | none => rintro a ⟨⟩

namespace Action

variable {α β : Type} {R : Course}

/-- An action runs along a course from every state, also when it is refused. -/
def Follows (R : Course) (m : Action α) : Prop := ∀ s, R s (m s).events (m s).state

namespace Follows

theorem pure (hR : R.Closed) (a : α) : Follows R (Pure.pure a : Action α) := hR.refl

theorem bind (hR : R.Closed) {m : Action α} {f : α → Action β} (hm : Follows R m)
    (hf : ∀ a, Follows R (f a)) : Follows R (m >>= f) :=
  fun s => hR.bind (hm s) fun a _ => hf a (m s).state

theorem mono {R' : Course} (hR : ∀ {s events s'}, R s events s' → R' s events s') {m : Action α}
    (hm : Follows R m) : Follows R' m := fun s => hR (hm s)

/-- What comes after a look at the world may depend on what was seen. -/
theorem world_bind {f : World → Action β} (hf : ∀ s, R s (f s.world s).events (f s.world s).state) :
    Follows R (Action.world >>= f) := hf

theorem whenever (hR : R.Closed) {m : Action Unit} (hm : Follows R m) (condition : Bool) :
    Follows R (Action.when condition m) := by
  cases condition with
  | true => exact hm
  | false => exact pure hR ()

theorem insert (hR : R.Closed) {e : Entity} {f : Components → Components}
    (h : ∀ s, R s [] { s with world := s.world.update e f }) : Follows R (Action.insert e f) := by
  intro s
  unfold Action.insert
  split
  · exact h s
  · exact hR.refl s

theorem regardless {m : Action α} (hm : Follows R m) : Follows R (Action.regardless m) := hm

theorem forEach (hR : R.Closed) {f : β → Action Unit} {l : List β} (hf : ∀ b ∈ l, Follows R (f b)) :
    Follows R (Action.forEach f l) := by
  induction l with
  | nil => exact pure hR ()
  | cons b l ih =>
    exact bind hR (hf b (by simp)) fun _ => ih fun b' hb' => hf b' (by simp [hb'])

end Follows

end Action

section Composites

open Hostility.Action

variable {R : Course} {setting : Setting} {t : Tuning} {actor candidate enemy : Entity}

theorem Threat.ensureLedger_follows (hR : R.Closed)
    (hmake : ∀ s, s.world.ledger? actor = none →
      R s [] { s with world := s.world.update actor fun c => { c with ledger := some .empty } }) :
    Follows R (ensureLedger actor) := by
  refine .world_bind fun s => ?_
  split
  · exact hR.refl s
  · next hnone =>
    unfold Action.insert
    split
    · exact hmake s (Option.not_isSome_iff_eq_none.mp hnone)
    · exact hR.refl s

/-- Pruning takes whoever is gone out of the ledger and the passive state, and does nothing else. -/
theorem Threat.prune_follows (hR : R.Closed)
    (hforget : ∀ s gone, R s [] { s with world := s.world.update actor fun c =>
      { c with
        ledger := c.ledger.map (·.removeAll gone)
        bias := c.bias.map fun b => gone.foldl EntityMap.erase b } }) :
    Follows R (prune actor) := by
  refine .world_bind fun s => ?_
  cases s.world.ledger? actor with
  | none => exact hR.refl s
  | some l =>
    show R s _ { s with world := forget s.world actor (departed s.world l) }
    unfold forget
    split
    · exact hR.refl s
    · exact hforget s _

/-- A decay step that takes nothing away changes nothing. -/
theorem Threat.lower_follows (hR : R.Closed)
    (hdecay : ∀ s l lowered amount, s.world.ledger? actor = some l →
      l.decay t.threatMinimum t.decayFraction s.world.passive? = (lowered, some amount) →
      R s [.threatDecayed actor amount l.size]
        { s with world := s.world.setLedger actor lowered }) :
    Follows R (lower t actor) := by
  refine .world_bind fun s => ?_
  unfold lowerBy
  rw [Action.world_bind]
  cases hl : s.world.ledger? actor with
  | none => exact hR.refl s
  | some l =>
    have hlowers := hdecay s l
    dsimp only
    revert hlowers
    rcases l.decay _ _ _ with ⟨lowered, _ | amount⟩
    · exact fun _ => hR.refl s
    · exact fun hlowers => hlowers lowered amount hl rfl

theorem Threat.seedCandidates_follows (hR : R.Closed) (hensure : Follows R (ensureLedger actor))
    (hseed : ∀ s l es, s.world.ledger? actor = some l →
      R s [] { s with world := s.world.setLedger actor (l.seedAll t.threatMinimum es).1 })
    (candidates : List Candidate) : Follows R (seedCandidates t actor candidates) := by
  refine .world_bind fun s => ?_
  refine hR.bind (hensure s) fun _ _ => ?_
  exact hR.ledgerOf_bind fun l hl => hseed _ l _ hl

theorem Threat.modifiedAmount_follows (hR : R.Closed)
    (hspend : ∀ s spent, R s [] { s with
      world := s.world.update candidate fun c => { c with modifiers := some spent } })
    (base : Int64) : Follows R (modifiedAmount t candidate base) := by
  refine .world_bind fun s => ?_
  cases (s.world.get? candidate).bind (·.modifiers) with
  | none => exact hR.refl s
  | some m => exact hspend s (m.apply t base).2

theorem Modifiers.le_of_apply {m : Modifiers} {base amount : Int64}
    (h : (m.apply t base).1 = some amount) : t.minimumThreatGain ≤ amount := by
  unfold apply at h
  split at h
  · cases h
  · obtain rfl := Option.some.inj h
    exact Std.right_le_max

theorem Threat.le_of_modifiedAmount {base amount : Int64} {s : State}
    (h : (modifiedAmount t candidate base s).result = .ok (some amount)) :
    t.minimumThreatGain ≤ amount := by
  unfold modifiedAmount at h
  rw [world_bind] at h
  cases hm : (s.world.get? candidate).bind (·.modifiers) with
  | none =>
    rw [hm] at h
    exact Modifiers.le_of_apply (Except.ok.inj h)
  | some m =>
    rw [hm] at h
    exact Modifiers.le_of_apply (Except.ok.inj h)

/-- What is added to a ledger is never less than the least gain. -/
theorem Threat.increase_follows (hR : R.Closed) {base : Int64}
    (hmodified : Follows R (modifiedAmount t candidate base))
    (hensure : Follows R (ensureLedger actor)) (hskip : ∀ s, R s [.threatSkipped actor candidate] s)
    (hraise : ∀ s l amount, s.world.ledger? actor = some l → t.minimumThreatGain ≤ amount →
      let raised := l.add candidate amount t.threatMinimum
      R s [.threatIncreased actor candidate amount raised.2]
        { s with world := s.world.setLedger actor raised.1 }) :
    Follows R (increase t actor candidate base) := by
  intro s
  refine hR.controllerOf_bind fun c _ => ?_
  rw [world_bind]
  split
  · exact hR.refl s
  split
  · exact hR.refl s
  split
  · exact hR.refl s
  refine hR.bind (hmodified s) fun amount? hamount => ?_
  cases amount? with
  | none => exact hskip _
  | some amount =>
    refine hR.bind (hensure _) fun _ _ => ?_
    exact hR.ledgerOf_bind fun l hl => hraise _ l amount hl (le_of_modifiedAmount hamount)

theorem Engine.recordDamage_follows (hR : R.Closed) {attacker : Entity} {amount : Int64}
    (hlog : ∀ hit s, R s [] { s with world := s.world.update actor fun c =>
      { c with damageLog := some ((c.damageLog.getD default).record hit) } })
    (hregister : ∀ s c, s.world.controller? actor = some c →
      R s [] { s with world := s.world.setController actor (c.retaliateAgainst attacker) })
    (hincrease : Follows R (Threat.increase t actor attacker amount)) :
    Follows R (recordDamage t actor attacker amount) := by
  intro s
  refine hR.controllerOf_bind fun _ _ => ?_
  rw [state_bind]
  split
  · exact hR.refl s
  refine hR.bind (Follows.insert hR (hlog _) s) fun _ _ => ?_
  rw [world_bind]
  refine hR.bind ?_ fun _ _ => hincrease _
  generalize (Action.insert actor _ s).state = s'
  cases Alert.sharesFaction s'.world actor attacker with
  | false => exact hR.refl s'
  | true => exact hR.controllerOf_bind fun c hc => hregister s' c hc

theorem Alert.propagate_follows (hR : R.Closed)
    (hnote : ∀ s table, R s [] { s with alerts := table })
    (hwake : ∀ retaliates own s,
      let allies := answering setting.visibility s.world actor enemy own
      let woken := Action.forEach (wake setting.tuning actor enemy retaliates) allies s
      R s woken.events woken.state) :
    Follows R (propagate setting actor enemy) := by
  intro s
  unfold propagate
  rw [state_bind]
  split
  · exact hR.refl s
  · refine hR.bind (hnote s _) fun _ _ => ?_
    cases s.world.allegiance? actor with
    | none => exact hR.refl _
    | some own =>
      exact hR.bind (hwake _ own _) fun _ _ => hR.refl _

theorem Engine.alarm_follows (hR : R.Closed) (wokeFrom : Awareness)
    (hcall : ∀ enemy, Follows R (Alert.propagate setting actor enemy)) (enemy? : Option Entity) :
    Follows R (alarm setting actor wokeFrom enemy?) := by
  cases enemy? with
  | none => exact .pure hR ()
  | some enemy =>
    apply Follows.whenever hR
    exact .bind hR (hcall enemy) fun _ => .pure hR ()

/-- Whether somebody slips away or not, there are only selections and attempts at deception. -/
theorem Engine.selectUndeceived_follows {c : Controller} (hR : R.Closed)
    (hselect : ∀ remaining, Follows R (selectOnce setting actor c remaining))
    (hattempt : ∀ target crowd,
      Follows R (Deception.attempt setting actor c.profile.perception target crowd))
    (tries : Nat) (remaining : List Candidate) :
    Follows R (selectUndeceived setting actor c tries remaining) := by
  induction tries generalizing remaining with
  | zero => exact hselect remaining
  | succ tries ih =>
    refine .bind hR (hselect remaining) fun choice => ?_
    cases choice with
    | kept target => exact .pure hR _
    | rejected bits => exact .pure hR _
    | empty => exact .pure hR _
    | chosen target =>
      refine .bind hR (hattempt target _) fun attempt => ?_
      dsimp only
      split
      · split
        · exact .pure hR _
        · exact ih _
      · exact .pure hR _

theorem Engine.update_follows (hR : R.Closed) (seconds : Float32)
    (helapse : ∀ s, R s [] { s with world := s.world.updateAll (elapse seconds) })
    (hnote : ∀ s table, R s [] { s with alerts := table })
    (hthink : ∀ actor, Follows R (think setting actor)) : Follows R (update setting seconds) := by
  intro s
  unfold update
  rw [state_bind]
  refine hR.bind (helapse s) fun _ _ => ?_
  refine hR.bind (hnote _ _) fun _ _ => ?_
  have hall : ∀ due, Follows R (forEach (fun actor => regardless (think setting actor)) due) :=
    fun due => .forEach hR fun actor _ => .regardless (hthink actor)
  exact Follows.bind hR (hall _) (fun _ => .pure hR _) _

end Composites

def Action.Accepted {α : Type} (m : Action α) : Prop := ∀ s, ∃ a, (m s).result = .ok a

namespace Action.Accepted

variable {α β : Type}

theorem pure (a : α) : (Pure.pure a : Action α).Accepted := fun _ => ⟨a, rfl⟩

theorem bind {m : Action α} {f : α → Action β} (hm : m.Accepted) (hf : ∀ a, (f a).Accepted) :
    (m >>= f).Accepted := by
  intro s
  obtain ⟨a, ha⟩ := hm s
  rw [bind_of_ok ha]
  exact hf a _

theorem regardless (m : Action α) : (Action.regardless m).Accepted := fun _ => ⟨(), rfl⟩

theorem forEach {f : β → Action Unit} (hf : ∀ b, (f b).Accepted) (l : List β) :
    (Action.forEach f l).Accepted := by
  induction l with
  | nil => exact pure ()
  | cons b l ih => exact bind (hf b) fun _ => ih

end Action.Accepted

end Hostility
