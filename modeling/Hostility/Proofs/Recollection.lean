import Hostility.Proofs.Natures
import Hostility.Proofs.ThinkLedger

/-!
What an actor recalls of passive sources beside what it tracks in its ledger. Only a bias pass makes
an actor recall somebody new. Everything else that the engine does keeps the two in step: whoever is
dropped from the ledger is not recalled either.
-/
namespace Hostility

variable {setting : Setting} {t : Tuning} {actor e : Entity} {w w' w'' : World}
  {c c' : Components} {s : State} {events : List Event}

open Course Hostility.Action

/-- Whether the passive state has an entry for somebody. -/
def Components.recalls (c : Components) (e : Entity) : Bool :=
  c.bias.any fun b => EntityMap.contains b e

/-- Whether the ledger has one. -/
def Components.tracks (c : Components) (e : Entity) : Bool := c.ledger.any (·.contains e)

namespace World

def recalls (w : World) (actor e : Entity) : Bool := (w.get? actor).any (·.recalls e)

def tracks (w : World) (actor e : Entity) : Bool := (w.get? actor).any (·.tracks e)

theorem tracks_eq (w : World) (actor e : Entity) :
    w.tracks actor e = (w.ledger? actor).any (·.contains e) := by
  rw [tracks, ledger?]
  cases w.get? actor <;> rfl

end World

/-- Nobody new is recalled, and whoever is still recalled is still tracked. -/
def Components.TidiesTo (c c' : Components) : Prop :=
  ∀ e, c'.recalls e = true → c.recalls e = true ∧ (c.tracks e = true → c'.tracks e = true)

namespace Components.TidiesTo

theorem of_ledger (hbias : c'.bias = c.bias)
    (hledger : ∀ e, c.tracks e = true → c'.tracks e = true) : c.TidiesTo c' := by
  intro e he
  rw [recalls, hbias] at he
  exact ⟨he, hledger e⟩

theorem of_same (hbias : c'.bias = c.bias) (hledger : c'.ledger = c.ledger) : c.TidiesTo c' :=
  .of_ledger hbias fun e he => by rwa [tracks, hledger]

theorem of_nobody (h : ∀ e, c'.recalls e = false) : c.TidiesTo c' := by
  intro e he
  rw [h e] at he
  cases he

end Components.TidiesTo

/-- An actor recalled somebody before, and did not lose it from its ledger. -/
structure World.StillRecalls (w w' : World) (actor e : Entity) : Prop where
  recalls : w.recalls actor e = true
  tracks : w.tracks actor e = true → w'.tracks actor e = true

namespace World.StillRecalls

theorem trans (h : w.StillRecalls w' actor e) (h' : w'.StillRecalls w'' actor e) :
    w.StillRecalls w'' actor e :=
  ⟨h.recalls, fun htracked => h'.tracks (h.tracks htracked)⟩

theorem of_parts (hc : w.get? actor = some c) (hc' : w'.get? actor = some c')
    (htidies : c.TidiesTo c') (h : w'.recalls actor e = true) : w.StillRecalls w' actor e := by
  rw [World.recalls, hc'] at h
  obtain ⟨hrecalls, htracks⟩ := htidies e h
  constructor
  · rwa [World.recalls, hc]
  · rwa [World.tracks, World.tracks, hc, hc']

theorem of_same (hsame : w'.get? actor = w.get? actor) (h : w'.recalls actor e = true) :
    w.StillRecalls w' actor e := by
  constructor
  · rwa [World.recalls, ← hsame]
  · rw [World.tracks, World.tracks, hsame]
    exact id

end World.StillRecalls

def World.TidiesTo (w w' : World) : Prop :=
  ∀ actor e, w'.recalls actor e = true → w.StillRecalls w' actor e

namespace World.TidiesTo

theorem refl (w : World) : w.TidiesTo w := fun _ _ he => ⟨he, id⟩

theorem trans (h : w.TidiesTo w') (h' : w'.TidiesTo w'') : w.TidiesTo w'' := by
  intro actor e he
  have hstill := h' actor e he
  exact (h actor e hstill.recalls).trans hstill

theorem update {f : Components → Components} {k : Entity}
    (h : ∀ c, w.get? k = some c → c.TidiesTo (f c)) : w.TidiesTo (w.update k f) := by
  intro actor e he
  by_cases hk : actor = k
  · subst hk
    cases hc : w.get? actor with
    | none => simp [recalls, get?_update, hc] at he
    | some c => exact .of_parts hc (by simp [get?_update, hc]) (h c hc) he
  · exact .of_same (by simp [get?_update, hk]) he

theorem updateAll {f : Components → Components} (h : ∀ c : Components, c.TidiesTo (f c))
    (w : World) : w.TidiesTo (w.updateAll f) := by
  intro actor e he
  cases hc : w.get? actor with
  | none => simp [recalls, get?_updateAll, hc] at he
  | some c => exact .of_parts hc (by simp [get?_updateAll, hc]) (h c) he

end World.TidiesTo

def Course.tidy : Course := fun s _ s' => s.world.TidiesTo s'.world

theorem Course.tidy_closed : tidy.Closed where
  refl s := .refl s.world
  trans h h' := h.trans h'

/-- A change of other parts than the ledger and the passive state. -/
theorem tidy_update_other {f : Components → Components} (hbias : ∀ c, (f c).bias = c.bias)
    (hledger : ∀ c, (f c).ledger = c.ledger) (k : Entity) (s : State) :
    tidy s events { s with world := s.world.update k f } :=
  .update fun c _ => .of_same (hbias c) (hledger c)

/-- A ledger that loses nobody. -/
theorem tidy_setLedger {l l' : Ledger} (hl : s.world.ledger? actor = some l)
    (h : ∀ e, l.contains e = true → l'.contains e = true) :
    tidy s events { s with world := s.world.setLedger actor l' } := by
  refine .update fun c hc => .of_ledger rfl fun e he => ?_
  rw [World.ledger?, hc, Option.bind_some] at hl
  rw [Components.tracks, hl] at he
  exact h e he

namespace EntityMap

theorem get?_foldl_erase {α : Type} (m : EntityMap α) (gone : List Entity) (k : Entity) :
    (gone.foldl erase m).get? k = if k ∈ gone then none else m.get? k := by
  induction gone generalizing m with
  | nil => simp
  | cons e gone ih =>
    rw [List.foldl_cons, ih, get?_erase]
    by_cases hk : k = e <;> simp [hk]

end EntityMap

namespace Threat

theorem reset_tidy (actor : Entity) : Follows tidy (reset actor) := by
  refine fun s => World.TidiesTo.update fun c _ => .of_nobody fun e => ?_
  show (c.bias.map fun _ => (∅ : PassiveBias)).any _ = false
  cases c.bias <;> rfl

/-- Pruning drops the same entities from both. -/
theorem prune_tidy (actor : Entity) : Follows tidy (prune actor) := by
  refine prune_follows tidy_closed fun s gone => .update fun c _ e he => ?_
  have hkept : e ∉ gone ∧ c.recalls e = true := by
    unfold Components.recalls at he ⊢
    cases hbias : c.bias with
    | none => simp [hbias] at he
    | some b =>
      by_cases hgone : e ∈ gone
      · simp [hbias, EntityMap.contains, EntityMap.get?_foldl_erase, hgone] at he
      · simpa [hbias, EntityMap.contains, EntityMap.get?_foldl_erase, hgone] using he
  refine ⟨hkept.2, fun htracked => ?_⟩
  unfold Components.tracks at htracked ⊢
  cases hledger : c.ledger with
  | none => simp [hledger] at htracked
  | some l =>
    simpa [hledger, Ledger.contains_eq, Ledger.value?_removeAll, hkept.1] using htracked

theorem lower_tidy (t : Tuning) (actor : Entity) : Follows tidy (lower t actor) := by
  refine lower_follows tidy_closed fun s l lowered amount hl hdecay => ?_
  refine tidy_setLedger hl fun e he => ?_
  rwa [Ledger.contains_of_decay hdecay]

end Threat

theorem Alert.seedEnemy_tidy (t : Tuning) (ally enemy : Entity) (s : State) :
    tidy s events { s with world := seedEnemy t s.world ally enemy } := by
  refine .update fun c _ => .of_ledger rfl fun e he => ?_
  show ((c.ledger.getD .empty).seed enemy t.threatMinimum).1.contains e = true
  unfold Components.tracks at he
  cases hl : c.ledger with
  | none => simp [hl] at he
  | some l =>
    rw [hl] at he
    exact Ledger.contains_seedAll he t.threatMinimum [enemy]

namespace Engine

theorem tidy_corePieces (setting : Setting) : tidy.CorePieces setting where
  closed := tidy_closed
  elapse seconds s := .updateAll (by intro _; exact .of_same rfl rfl) s.world
  note s _ := tidy_closed.refl s
  drawn s _ := tidy_closed.refl s
  news _ _ s := tidy_closed.refl s
  rewrite s actor _ _ _ := tidy_update_other (by intro _; rfl) (by intro _; rfl) actor s
  make actor s hnone := .update fun c hc => .of_ledger rfl fun e he => by
    rw [World.ledger?, hc, Option.bind_some] at hnone
    simp [Components.tracks, hnone] at he
  reset := Threat.reset_tidy
  prune := Threat.prune_tidy
  lower := Threat.lower_tidy setting.tuning
  raise _ candidate _ _ amount hl _ :=
    tidy_setLedger hl fun _ h => Ledger.contains_add h candidate amount _
  seedAll _ _ _ es hl := tidy_setLedger hl fun _ h => Ledger.contains_seedAll h _ es
  seedEnemy := Alert.seedEnemy_tidy setting.tuning
  rate _ s l candidates source hl := tidy_setLedger hl fun e h => by
    obtain ⟨outlook, hrated⟩ := Selection.byThreat_ledger setting.tuning l candidates source
    rw [hrated]
    exact h

theorem tidy_spends (source : Entity) : tidy.Spends source where
  spend _ := tidy_update_other (by intro _; rfl) (by intro _; rfl) source
  skip _ s := tidy_closed.refl s

end Engine

/-- A request that meets no passive sources makes nobody recall anybody new. -/
theorem Request.perform_tidy (setting : Setting) {request : Request}
    (h : ¬ request.MeetsPassive) : Follows tidy (request.perform setting) :=
  (Engine.tidy_corePieces setting).perform
    (fun actor _ => tidy_update_other (by intro _; rfl) (by intro _; rfl) actor)
    (fun source _ => Engine.tidy_spends source) h

namespace BiasPass

/-- A pass makes an actor recall its passive candidates, and nobody else. -/
theorem contains_applyAll {maxActive : Int64} {candidates : List Candidate} {l : Ledger}
    {b : PassiveBias} :
    EntityMap.contains (applyAll t maxActive candidates l b).2.2 e = true ↔
      EntityMap.contains b e = true ∨ Engine.passiveAmong candidates e := by
  induction candidates generalizing l b with
  | nil => simp [applyAll, Engine.passiveAmong]
  | cons c rest ih =>
    have hcons : Engine.passiveAmong (c :: rest) e ↔
        c.isPassive = true ∧ c.entity = e ∨ Engine.passiveAmong rest e := by
      simp [Engine.passiveAmong]
    cases hpassive : c.passive with
    | none =>
      rw [applyAll_cons_of_none hpassive, ih, hcons]
      simp [Candidate.isPassive, hpassive]
    | some threshold =>
      have hentry : EntityMap.contains (applyOne t maxActive c threshold l b).2.2 e = true ↔
          EntityMap.contains b e = true ∨ c.entity = e := by
        rw [applyOne, EntityMap.contains, EntityMap.get?_insert, EntityMap.contains]
        by_cases hown : c.entity = e <;> simp [hown]
      rw [applyAll_cons_of_some hpassive, ih, hcons, hentry]
      simp only [Candidate.isPassive, hpassive, Option.isSome_some, true_and]
      exact or_assoc

theorem contains_ledger_applyAll {maxActive : Int64} {candidates : List Candidate} {l : Ledger}
    {b : PassiveBias} (h : l.contains e = true) :
    (applyAll t maxActive candidates l b).2.1.contains e = true :=
  applyAll_keeps (P := (·.contains e = true))
    (fun l c value _ _ h => (l.contains_raiseTo c.entity e value).trans h) h

end BiasPass

namespace Engine

/-- A bias pass drops nobody, and makes the actor recall the passive ones among the candidates. -/
theorem biasPass_recalls {candidates : List Candidate} {k : Entity}
    (h : (biasPass t actor candidates s).state.world.recalls k e = true) :
    s.world.StillRecalls (biasPass t actor candidates s).state.world k e ∨
      k = actor ∧ passiveAmong candidates e := by
  unfold biasPass at h ⊢
  rw [world_bind] at h ⊢
  cases hl : s.world.ledger? actor with
  | none =>
    rw [hl] at h
    exact .inl ⟨h, id⟩
  | some l =>
    cases hb : s.world.bias? actor with
    | none =>
      rw [hl, hb] at h
      exact .inl ⟨h, id⟩
    | some b =>
      obtain ⟨c, hc, hledger⟩ := Option.bind_eq_some_iff.mp hl
      have hbias : c.bias = some b := by rwa [World.bias?, hc, Option.bind_some] at hb
      let passed := BiasPass.apply t l b candidates
      let w' := (s.world.setLedger actor passed.2.1).setBias actor passed.2.2
      replace h : w'.recalls k e = true := by rwa [hl, hb] at h
      show s.world.StillRecalls w' k e ∨ _
      by_cases hk : k = actor
      · subst hk
        have hown : w'.get? k =
            some { c with ledger := some passed.2.1, bias := some passed.2.2 } := by
          simp [w', World.setBias, World.setLedger, World.get?_update, hc]
        rw [World.recalls, hown] at h
        refine (BiasPass.contains_applyAll.mp h).imp (fun hheld => ⟨?_, fun htracked => ?_⟩)
          fun hpassive => ⟨rfl, hpassive⟩
        · simpa [World.recalls, hc, Components.recalls, hbias] using hheld
        · rw [World.tracks, hown]
          replace htracked : l.contains e = true := by
            simpa [World.tracks, hc, Components.tracks, hledger] using htracked
          exact BiasPass.contains_ledger_applyAll htracked
      · have hother : w'.get? k = s.world.get? k := by
          simp [w', World.setBias, World.setLedger, World.get?_update, hk]
        exact .inl (.of_same hother h)

theorem ensureBias_tidy (actor : Entity) : Follows tidy (Threat.ensureBias actor) := by
  refine .world_bind fun s => ?_
  split
  · exact tidy_closed.refl s
  · exact Follows.insert tidy_closed (fun _ => .update fun _ _ => .of_nobody fun _ => rfl) s

theorem recordStreaks_tidy (actor : Entity) (chosen : Option Entity) :
    Follows tidy (recordStreaks actor chosen) := by
  refine .world_bind fun s => ?_
  cases hb : s.world.bias? actor with
  | none => exact tidy_closed.refl s
  | some b =>
    refine .update fun c hc e he => ⟨?_, id⟩
    rw [World.bias?, hc, Option.bind_some] at hb
    replace he : ((b.recordSelection chosen).get? e).isSome = true := he
    rw [PassiveBias.recordSelection, EntityMap.get?_map, Option.isSome_map] at he
    rwa [Components.recalls, hb]

end Engine

/-- How an actor comes to recall somebody after it has looked at some candidates: it did so before,
or it meets a passive one, which it tracks then unless the name is reserved. -/
inductive World.Recollects (t : Tuning) (actor : Entity) (candidates : List Candidate)
    (w w' : World) (k e : Entity) : Prop
  | still (recalled : w.StillRecalls w' k e)
  | met (self : k = actor) (passive : Engine.passiveAmong candidates e)
      (tracked : Threat.isReserved t w e = true ∨ w'.tracks k e = true)

theorem World.Recollects.trans {candidates : List Candidate} {k : Entity}
    (h : w.Recollects t actor candidates w' k e) (h' : w'.StillRecalls w'' k e) :
    w.Recollects t actor candidates w'' k e := by
  cases h with
  | still recalled => exact .still (recalled.trans h')
  | met self passive tracked => exact .met self passive (tracked.imp_right h'.tracks)

namespace Engine

/-- Whoever is met is seeded before the bias pass, unless its name is reserved. -/
theorem prepare_recalls {candidates : List Candidate} {k : Entity}
    (hw : s.world.contains actor = true)
    (h : (prepare t actor candidates s).state.world.recalls k e = true) :
    s.world.Recollects t actor candidates (prepare t actor candidates s).state.world k e := by
  have hseed := Threat.seedCandidates_tended t candidates hw
  obtain ⟨_, hseeded⟩ := hseed.accepted
  let seeded := (Threat.seedCandidates t actor candidates s).state
  have hcontains : seeded.world.contains actor = true := (hseed.world.contains_eq actor).trans hw
  obtain ⟨_, hensured⟩ := (Threat.ensureBias_tended hcontains).accepted
  let ensured := (Threat.ensureBias actor seeded).state
  have hstate : (prepare t actor candidates s).state =
      (biasPass t actor candidates ensured).state := by
    unfold prepare
    rw [bind_of_ok hseeded, bind_of_ok hensured]
  have htidy : s.world.TidiesTo ensured.world :=
    tidy_closed.trans ((tidy_corePieces { tuning := t }).seedCandidates actor candidates s)
      (ensureBias_tidy actor seeded)
  rw [hstate] at h
  rcases biasPass_recalls h with hstill | ⟨rfl, hpassive⟩
  · rw [hstate]
    exact .still ((htidy k e hstill.recalls).trans hstill)
  · refine .met rfl hpassive ?_
    cases hreserved : Threat.isReserved t s.world e with
    | true => exact .inl rfl
    | false =>
      right
      have hprepared : LeftWith k (fun _ => True) (Threat.seeded t s.world k candidates)
          (prepare t k candidates s) := prepare_leftWith t hw fun _ _ _ => trivial
      obtain ⟨l, hl, halike⟩ := hprepared.ledger
      obtain ⟨met, hmet, -, hentity⟩ := hpassive
      rw [World.tracks_eq, hl]
      show l.contains e = true
      rw [halike.contains, Threat.seeded, Ledger.contains_eq, Ledger.value?_seedAll,
        if_pos (Threat.mem_seedable.mpr ⟨⟨met, hmet, hentity⟩, hreserved⟩)]
      simp

theorem choose_recalls {c : Controller} {candidates : List Candidate} {k : Entity}
    (hw : s.world.contains actor = true)
    (h : (choose setting actor c candidates s).state.world.recalls k e = true) :
    s.world.Recollects setting.tuning actor candidates
      (choose setting actor c candidates s).state.world k e := by
  obtain ⟨_, hprepared⟩ : ∃ a, (Action.when (!c.profile.legacyMode)
      (prepare setting.tuning actor candidates) s).result = .ok a :=
    (Tended.whenever fun _ => prepare_tended _ candidates hw).accepted
  have hrest : (Action.when (!c.profile.legacyMode)
      (prepare setting.tuning actor candidates) s).state.world.TidiesTo
        (choose setting actor c candidates s).state.world := by
    have hselect := (tidy_corePieces setting).routine.selectUndeceived actor c
    unfold choose
    rw [bind_of_ok hprepared]
    refine Follows.bind tidy_closed (hselect _ candidates) (fun choice => ?_) _
    exact .bind tidy_closed (.whenever tidy_closed (recordStreaks_tidy actor _) _) fun _ =>
      .pure tidy_closed _
  have hstill := hrest k e h
  refine World.Recollects.trans ?_ hstill
  have hrecalled := hstill.recalls
  cases hmode : c.profile.legacyMode with
  | true =>
    rw [hmode] at hrecalled
    exact .still ⟨hrecalled, id⟩
  | false =>
    rw [hmode] at hrecalled
    exact prepare_recalls hw hrecalled

/-- Whom anybody recalls after a think was recalled after the upkeep, or is met by the actor. -/
theorem think_recalls {c : Controller} (hc : s.world.controller? actor = some c) {k : Entity} :
    let before := (upkeep setting.tuning actor s).state.world
    let after := (think setting actor s).state.world
    after.recalls k e = true → before.Recollects setting.tuning actor
      (found setting before actor c.noteMode.markThought) after k e := by
  intro before after h
  have hcore := tidy_corePieces setting
  have hkept := ((upkeep_tended setting.tuning hc).world.controller?_eq actor).trans hc
  by_cases hfound : found setting before actor c.noteMode.markThought = []
  · have htidy : before.TidiesTo after := by
      unfold after
      rw [think_of_nobody hc hfound]
      exact hcore.rewrite _ actor c _ hkept
    exact .still (htidy k e h)
  · obtain ⟨choice, -, hrun⟩ := think_of_somebody hc hfound
    let candidates := found setting before actor c.noteMode.markThought
    let roused := (c.noteMode.markThought.rouse actor).1
    let chosen := (choose setting actor roused candidates
      (upkeep setting.tuning actor s).state).state
    have hend : chosen.world.TidiesTo after := by
      let settled := (settle roused actor choice).1
      have hchosen := choose_tended setting roused candidates (World.contains_of_bind hkept)
      have hstored : chosen.world.TidiesTo (chosen.world.setController actor settled) :=
        hcore.rewrite chosen actor c settled ((hchosen.world.controller?_eq actor).trans hkept)
      have hcalled := alarm_follows tidy_closed c.state (hcore.propagate actor) choice.target?
      unfold after
      rw [hrun]
      exact hstored.trans (hcalled _)
    have hstill := hend k e h
    exact (choose_recalls (World.contains_of_bind hkept) hstill.recalls).trans hstill

/-- After its upkeep the ledger of an actor tracks nobody who died or left. -/
theorem isPresent_of_tracks_upkeep (t : Tuning) {c : Controller}
    (hc : s.world.controller? actor = some c) (hmode : c.profile.legacyMode = false)
    (h : (upkeep t actor s).state.world.tracks actor e = true) : s.world.isPresent e = true := by
  obtain ⟨htracked, -⟩ := upkeep_ledger t hc hmode
  rw [World.tracks_eq] at h
  cases hl : (upkeep t actor s).state.world.ledger? actor with
  | none => simp [hl] at h
  | some l =>
    rw [hl] at h htracked
    have hmem : e ∈ l.tracked := Ledger.mem_tracked.mpr h
    rw [show l.tracked = _ from htracked] at hmem
    exact (List.mem_filter.mp hmem).2

end Engine

end Hostility
