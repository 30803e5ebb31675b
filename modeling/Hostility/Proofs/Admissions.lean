import Hostility.Proofs.Recollection
import Hostility.Proofs.Warrants

/-!
Who enters a ledger. Candidates, attackers and enemies that are cried out are let in, and only if
their names are not reserved; whatever else the engine does to a ledger lets nobody in. Candidates
that an actor finds and attackers are in the world. Those that a host seeds or cries out need not
be.
-/
namespace Hostility

open Course Hostility.Action

variable {setting : Setting} {t : Tuning} {request : Request} {actor source e k : Entity}
  {w w' w'' : World} {s : State} {events : List Event} {f : Components → Components}

namespace Ledger

variable {l : Ledger} {floor amount : Int64}

theorem contains_of_seed (h : (l.seed e floor).1.contains k = true) :
    l.contains k = true ∨ k = e := by
  rw [contains_eq, value?_seed, Option.isSome_or, Bool.or_eq_true] at h
  refine h.imp_right fun hseeded => ?_
  by_contra hne
  simp [hne] at hseeded

theorem contains_of_seedAll {es : List Entity} (h : (l.seedAll floor es).1.contains k = true) :
    l.contains k = true ∨ k ∈ es := by
  rw [contains_eq, value?_seedAll, Option.isSome_or, Bool.or_eq_true] at h
  refine h.imp_right fun hseeded => ?_
  by_contra hne
  simp [hne] at hseeded

theorem contains_of_add (h : (l.add e amount floor).1.contains k = true) :
    l.contains k = true ∨ k = e := by
  rw [contains_eq, value?_add] at h
  by_cases hself : k = e
  · exact .inr hself
  · rw [if_neg hself] at h
    exact .inl h

end Ledger

/-- Everybody keeps its nature, and whoever is tracked anew is welcome. -/
structure World.Admitting (t : Tuning) (request : Request) (w w' : World) : Prop where
  nature : w.SameNature w'
  tracks : ∀ actor e, w'.tracks actor e = true →
    w.tracks actor e = true ∨ w.Welcomes t request actor e

namespace World.Admitting

theorem refl (w : World) : w.Admitting t request w := ⟨.refl w, fun _ _ => .inl⟩

theorem trans (h : w.Admitting t request w') (h' : w'.Admitting t request w'') :
    w.Admitting t request w'' where
  nature := h.nature.trans h'.nature
  tracks actor e he := by
    rcases h'.tracks actor e he with hbefore | ⟨hname, hknown⟩
    · exact h.tracks actor e hbefore
    · rw [h.nature.isReserved_eq] at hname
      rw [h.nature.contains_eq] at hknown
      exact .inr ⟨hname, hknown⟩

theorem update (hnature : ∀ c, (f c).nature = c.nature)
    (htracks : ∀ c, w.get? k = some c → ∀ e, (f c).tracks e = true →
      c.tracks e = true ∨ w.Welcomes t request k e) : w.Admitting t request (w.update k f) where
  nature := .update hnature w k
  tracks actor e he := by
    rw [World.tracks, get?_update] at he
    split at he
    · next hself =>
      subst hself
      cases hc : w.get? actor with
      | none => simp [hc] at he
      | some c =>
        rw [hc] at he
        exact (htracks c hc e he).imp_left fun h => by rwa [World.tracks, hc]
    · exact .inl he

theorem updateAll (hnature : ∀ c, (f c).nature = c.nature) (hledger : ∀ c, (f c).ledger = c.ledger)
    (w : World) : w.Admitting t request (w.updateAll f) where
  nature := .updateAll hnature w
  tracks actor e he := by
    rw [tracks_eq, ledger?, get?_updateAll] at he
    rw [tracks_eq, ledger?]
    cases hc : w.get? actor with
    | none => simp [hc] at he
    | some c => exact .inl (by simpa [hc, hledger] using he)

/-- A change of other parts than the ledger. -/
theorem update_other (hnature : ∀ c, (f c).nature = c.nature)
    (hledger : ∀ c, (f c).ledger = c.ledger) (w : World) (k : Entity) :
    w.Admitting t request (w.update k f) := by
  refine .update hnature fun c _ e he => .inl ?_
  rwa [Components.tracks, hledger] at he

theorem setLedger {l l' : Ledger} (hl : w.ledger? actor = some l)
    (h : ∀ e, l'.contains e = true → l.contains e = true ∨ w.Welcomes t request actor e) :
    w.Admitting t request (w.setLedger actor l') := by
  refine .update (by intro _; rfl) fun c hc e he => ?_
  have hown : c.ledger = some l := by rwa [ledger?, hc, Option.bind_some] at hl
  refine (h e he).imp_left fun htracked => ?_
  rw [Components.tracks, hown]
  exact htracked

end World.Admitting

/-- Threat that is taken note of was caused by somebody who is welcome. -/
theorem World.welcomes_of_notes (h : w.notes t actor source = true) :
    w.Welcomes t request actor source := by
  cases hc : w.controller? actor with
  | none => simp [notes, hc] at h
  | some c =>
    rw [notes_of_controller hc] at h
    simp only [Bool.and_eq_true, Bool.not_eq_true'] at h
    exact ⟨h.2, .inl h.1.2⟩

namespace Course

def admitting (t : Tuning) (request : Request) : Course := fun s _ s' =>
  s.world.Admitting t request s'.world

theorem admitting_closed (t : Tuning) (request : Request) : (admitting t request).Closed where
  refl s := .refl s.world
  trans h h' := h.trans h'

end Course

namespace Threat

theorem reset_admitting (actor : Entity) : Follows (admitting t request) (reset actor) := by
  intro s
  refine .update (by intro _; rfl) fun c _ e he => ?_
  unfold Components.tracks at he
  cases hl : c.ledger with
  | none => simp [hl] at he
  | some l => simp [hl, Ledger.contains_eq] at he

theorem prune_admitting (actor : Entity) : Follows (admitting t request) (prune actor) := by
  refine prune_follows (admitting_closed t request) fun s gone => ?_
  refine .update (by intro _; rfl) fun c _ e he => .inl ?_
  unfold Components.tracks at he ⊢
  cases hl : c.ledger with
  | none => simp [hl] at he
  | some l =>
    simp only [hl, Option.map_some, Option.any_some, Ledger.contains_eq,
      Ledger.value?_removeAll] at he ⊢
    split at he
    · cases he
    · exact he

theorem lower_admitting (actor : Entity) : Follows (admitting t request) (lower t actor) := by
  refine lower_follows (admitting_closed t request) fun s l lowered amount hl hdecay => ?_
  exact .setLedger hl fun e he => .inl ((Ledger.contains_of_decay hdecay e).symm.trans he)

end Threat

theorem admitting_warranted (setting : Setting) (request : Request) :
    (admitting setting.tuning request).Warranted setting request where
  closed := admitting_closed _ request
  drawn s _ := .refl s.world
  news _ _ s := .refl s.world
  reset := Threat.reset_admitting
  prune := Threat.prune_admitting
  lower := Threat.lower_admitting
  rate actor s l candidates source hl := by
    obtain ⟨outlook, hrated⟩ := Selection.byThreat_ledger setting.tuning l candidates source
    have hkept : s.world.Admitting setting.tuning request
        (s.world.setLedger actor { l with outlook }) := .setLedger hl fun e he => .inl he
    rwa [← hrated] at hkept
  elapse _ s := .updateAll (by intro _; rfl) (by intro _; rfl) s.world
  note s _ := .refl s.world
  rewrite s actor _ _ _ _ := .update_other (by intro _; rfl) (by intro _; rfl) s.world actor
  log actor _ s := .update_other (by intro _; rfl) (by intro _; rfl) s.world actor
  make actor s _ _ := by
    refine .update (by intro _; rfl) fun c _ e he => ?_
    cases he
  seedAll actor s l es hl hes := by
    exact .setLedger hl fun e he => (Ledger.contains_of_seedAll he).imp_right (hes e)
  seedEnemy ally enemy s _ henemy := by
    refine .update (by intro _; rfl) fun c _ e he => ?_
    rcases Ledger.contains_of_seed he with hbefore | rfl
    · cases hl : c.ledger with
      | none => simp [hl, Ledger.contains_eq] at hbefore
      | some l =>
        rw [hl] at hbefore
        exact .inl (by simpa [Components.tracks, hl] using hbefore)
    · exact .inr henemy
  spend _ source _ s _ := .update_other (by intro _; rfl) (by intro _; rfl) s.world source
  skip _ _ s _ := .refl s.world
  raise actor source s l amount hnotes hl := by
    refine .setLedger hl fun e he => (Ledger.contains_of_add he).imp_right ?_
    rintro rfl
    exact World.welcomes_of_notes hnotes
  makeBias actor s _ := .update_other (by intro _; rfl) (by intro _; rfl) s.world actor
  pass actor s l b candidates hl _ := by
    -- A bias pass raises entries and makes none.
    have hraised : ∀ e, (BiasPass.apply setting.tuning l b candidates).2.1.contains e = true →
        l.contains e = true :=
      BiasPass.applyAll_keeps (P := fun l' => ∀ e, l'.contains e = true → l.contains e = true)
        (fun l' c value _ _ h e he => h e ((l'.contains_raiseTo c.entity e value).symm.trans he))
        fun _ => id
    exact World.Admitting.trans (.setLedger hl fun e he => .inl (hraised e he))
      (.update_other (by intro _; rfl) (by intro _; rfl) _ actor)
  streaks actor s _ _ _ := .update_other (by intro _; rfl) (by intro _; rfl) s.world actor

end Hostility
