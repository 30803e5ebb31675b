import Hostility.Proofs.Beats
import Hostility.Proofs.Recollection

/-!
Passive states that outlive their sources. A think in threat mode drops from the ledger whoever died
or left, and the passive state loses the same entries. So an actor recalls somebody who is gone only
if the ledger never had it: a passive source whose reserved name kept it from being seeded, or one
of a bias pass that was asked for outright.
-/
namespace Hostility

variable {setting : Setting} {t : Tuning} {actor e k : Entity} {w w' : World} {s : State}
  {candidates : List Candidate} {known known' : Entity → Entity → Prop}

open Course Hostility.Action

/-- The passive state of an actor has an entry for somebody, and the ledger has none. -/
structure World.Stray (w : World) (actor e : Entity) : Prop where
  recalled : w.recalls actor e = true
  untracked : w.tracks actor e = false

theorem World.StillRecalls.stray (h : w.StillRecalls w' actor e)
    (huntracked : w'.tracks actor e = false) : w.Stray actor e where
  recalled := h.recalls
  untracked := by
    rw [Bool.eq_false_iff]
    intro htracked
    rw [h.tracks htracked] at huntracked
    cases huntracked

theorem World.TidiesTo.stray (h : w.TidiesTo w') (hs : w'.Stray actor e) : w.Stray actor e :=
  (h actor e hs.recalled).stray hs.untracked

theorem World.Recollects.stray (h : w.Recollects t actor candidates w' k e)
    (huntracked : w'.tracks k e = false) :
    w.Stray k e ∨
      k = actor ∧ Engine.passiveAmong candidates e ∧ Threat.isReserved t w e = true := by
  cases h with
  | still recalled => exact .inl (recalled.stray huntracked)
  | met self passive tracked =>
    refine .inr ⟨self, passive, tracked.resolve_right ?_⟩
    rw [huntracked]
    exact Bool.false_ne_true

/-- A think leaves the thinking actor a stray entry for a passive source with a reserved name. -/
theorem Engine.think_stray (setting : Setting)
    (h : (think setting actor s).state.world.Stray k e) :
    s.world.Stray k e ∨ k = actor ∧ Threat.isReserved setting.tuning s.world e = true ∧
      (s.world.passive? e).isSome = true := by
  cases hc : s.world.controller? actor with
  | none =>
    obtain ⟨refusal, hrefused⟩ := think_of_no_controller setting hc
    rw [hrefused] at h
    exact .inl h
  | some c =>
    have hupkeep := upkeep_tended setting.tuning hc
    have htidy : tidy s _ (upkeep setting.tuning actor s).state :=
      (tidy_corePieces setting).routine.upkeep actor s
    rcases (think_recalls hc h.recalled).stray h.untracked with hold | ⟨hself, hpassive, hreserved⟩
    · exact .inl (htidy.stray hold)
    · rw [hupkeep.world.isReserved_eq] at hreserved
      refine .inr ⟨hself, hreserved, ?_⟩
      rw [← Option.ne_none_iff_isSome]
      exact fun hnone => not_passiveAmong hc hnone hpassive

theorem Engine.biasPass_stray (h : (biasPass t actor candidates s).state.world.Stray k e) :
    s.world.Stray k e ∨ k = actor ∧ passiveAmong candidates e :=
  (biasPass_recalls h.recalled).imp_left fun hstill => hstill.stray h.untracked

/-- The beat makes an actor look at a passive source that may be missing from its ledger: in a think
at one with a reserved name, in a bias pass of its own at any. -/
inductive Beat.Overlooks (t : Tuning) (w : World) (actor e : Entity) : Beat → Prop
  | think (reserved : Threat.isReserved t w e = true) (passive : (w.passive? e).isSome = true) :
    Overlooks t w actor e (.think actor)
  | bias {candidates : List Candidate} (passive : Engine.passiveAmong candidates e) :
    Overlooks t w actor e (.move (.ask (.bias actor candidates)))

/-- The beat overlooks a source and leaves a stray entry for it. -/
structure Beat.Strays (setting : Setting) (s : State) (beat : Beat) (actor e : Entity) : Prop where
  overlooks : beat.Overlooks setting.tuning s.world actor e
  stray : (beat.perform setting s).state.world.Stray actor e

/-- Every stray entry is a known one. -/
def World.StraysOnly (w : World) (known : Entity → Entity → Prop) : Prop :=
  ∀ actor e, w.Stray actor e → known actor e

theorem World.StraysOnly.mono (h : w.StraysOnly known) (hknown : ∀ k e, known k e → known' k e) :
    w.StraysOnly known' := fun k e hs => hknown k e (h k e hs)

/-- A host that keeps passive states and ledgers in step. -/
def Change.KeepsStep : Change → Prop
  | .spawn parts => ∀ e, parts.recalls e = true → parts.tracks e = true
  | .edit _ f => ∀ parts : Components, parts.TidiesTo (f parts)
  | _ => True

def Move.KeepsStep : Move → Prop
  | .ask _ => True
  | .host change => change.KeepsStep

theorem Change.stray_apply {change : Change} (hchange : change.KeepsStep)
    (h : (change.apply s).world.Stray actor e) : s.world.Stray actor e := by
  have hrecalled := h.recalled
  have huntracked := h.untracked
  unfold World.recalls at hrecalled
  unfold World.tracks at huntracked
  cases hparts : (change.apply s).world.get? actor with
  | none => simp [hparts] at hrecalled
  | some parts =>
    rcases get?_apply hparts with hold | ⟨f, old, rfl, hold, rfl⟩ | ⟨rfl, -⟩
    · exact (World.StillRecalls.of_same (hparts.trans hold.symm) h.recalled).stray h.untracked
    · exact (World.StillRecalls.of_parts hold hparts (hchange old) h.recalled).stray h.untracked
    · rw [hparts] at hrecalled huntracked
      rw [Option.any_some, hchange e hrecalled] at huntracked
      cases huntracked

/-- Only thinks and bias passes leave new stray entries. -/
theorem Request.perform_stray {request : Request} (hsingle : ∀ seconds, request ≠ .update seconds)
    (h : (request.perform setting s).state.world.Stray k e) :
    s.world.Stray k e ∨ (Beat.move (.ask request)).Overlooks setting.tuning s.world k e := by
  by_cases hmeets : request.MeetsPassive
  · cases request with
    | think thinker =>
      rcases Engine.think_stray setting h with hold | ⟨rfl, hreserved, hpassive⟩
      · exact .inl hold
      · exact .inr (.think hreserved hpassive)
    | update seconds => exact (hsingle seconds rfl).elim
    | bias passer candidates =>
      rcases Engine.biasPass_stray h with hold | ⟨rfl, hpassive⟩
      · exact .inl hold
      · exact .inr (.bias hpassive)
    | _ => exact hmeets.elim
  · have htidy : tidy s _ (request.perform setting s).state :=
      request.perform_tidy setting hmeets s
    exact .inl (htidy.stray h)

theorem Beat.perform_straysOnly {moves : List Move} (hmoves : ∀ move ∈ moves, move.KeepsStep)
    {beat : Beat} (hbeat : beat.IsOf moves) (h : s.world.StraysOnly known)
    (hknown : ∀ actor e, beat.Strays setting s actor e → known actor e) :
    (beat.perform setting s).state.world.StraysOnly known := by
  intro k e hs
  have hask {request : Request} (hbeat : beat = .move (.ask request))
      (hsingle : ∀ seconds, request ≠ .update seconds) : known k e := by
    subst hbeat
    rcases Request.perform_stray hsingle hs with hold | hoverlooks
    · exact h k e hold
    · exact hknown k e ⟨hoverlooks, hs⟩
  cases hbeat with
  | advance seconds => exact h k e (((Engine.tidy_corePieces setting).elapse seconds s).stray hs)
  | think thinker => exact hask rfl (by simp)
  | @move m mem single =>
    cases m with
    | host change => exact h k e (Change.stray_apply (hmoves _ mem) hs)
    | ask request => exact hask rfl fun seconds hupdate => single seconds (by rw [hupdate])

theorem playBeats_straysOnly {moves : List Move} (hmoves : ∀ move ∈ moves, move.KeepsStep)
    {beats : List Beat} (hbeats : ∀ beat ∈ beats, beat.IsOf moves)
    (hnone : ∀ k e, ¬ s.world.Stray k e) :
    (playBeats setting beats s).state.world.StraysOnly
      (Blamed setting (Beat.Strays setting) s beats) :=
  playBeats_but_blamed (fun known s => s.world.StraysOnly known) (fun hknown h => h.mono hknown)
    (fun hbeat hstrays h => Beat.perform_straysOnly hmoves hbeat h hstrays) hbeats hnone

/-- Whom an actor in threat mode recalls after a think is in the world and alive, or had a stray
entry before the think. -/
theorem Engine.isPresent_of_think_recalls (setting : Setting) {c : Controller}
    (hc : s.world.controller? actor = some c) (hmode : c.profile.legacyMode = false)
    (h : (think setting actor s).state.world.recalls actor e = true) :
    (think setting actor s).state.world.isPresent e = true ∨ s.world.Stray actor e := by
  have hnature : s.world.SameNature (think setting actor s).state.world :=
    (natural_pieces setting).think actor s
  have htidy : tidy s _ (upkeep setting.tuning actor s).state :=
    (tidy_corePieces setting).routine.upkeep actor s
  rw [hnature.isPresent_eq]
  cases think_recalls hc h with
  | still recalled =>
    cases htracked : (upkeep setting.tuning actor s).state.world.tracks actor e with
    | true => exact .inl (isPresent_of_tracks_upkeep setting.tuning hc hmode htracked)
    | false => exact .inr (htidy.stray ⟨recalled.recalls, htracked⟩)
  | met self passive tracked =>
    obtain ⟨seen, hseen, -, rfl⟩ := passive
    obtain ⟨parts, hparts, halive, -⟩ := parts_of_mem_found hseen
    rw [← (upkeep_tended setting.tuning hc).world.isPresent_eq, World.isPresent, hparts]
    exact .inl halive

/-- From a world without stray entries, as long as the host keeps passive states and ledgers in
step, whoever has an entry in the passive state of an actor after a think in threat mode is in the
world and alive, unless an earlier beat overlooked it and left a stray entry. -/
theorem playOut_recalls_gone_only_if_strayed (hnone : ∀ k e, ¬ s.world.Stray k e)
    {moves : List Move} (hmoves : ∀ move ∈ moves, move.KeepsStep) {past later : List Beat}
    (hbeats : beatsOf setting moves s = past ++ .think actor :: later) {c : Controller}
    (hc : (playBeats setting past s).state.world.controller? actor = some c)
    (hmode : c.profile.legacyMode = false) :
    let after := (Engine.think setting actor (playBeats setting past s).state).state.world
    after.recalls actor e = true → after.isPresent e = true ∨
      ∃ earlier beat rest, past = earlier ++ beat :: rest ∧
        beat.Strays setting (playBeats setting earlier s).state actor e := by
  intro after h
  have hpast : ∀ beat ∈ past, beat.IsOf moves := by
    intro beat hbeat
    have hmem : beat ∈ beatsOf setting moves s := by
      rw [hbeats]
      exact List.mem_append_left _ hbeat
    exact isOf_of_mem_beatsOf hmem
  exact (Engine.isPresent_of_think_recalls setting hc hmode h).imp_right
    (playBeats_straysOnly hmoves hpast hnone actor e)

/-- Aria, a player, an orc that keeps a ledger, and a banner with a reserved name. -/
def rally : State where
  world :=
    let aria : Components :=
      { position := some ⟨3.0, 0.0, 0.0⟩
        targetable := some .player }
    let orc : Components :=
      { position := some ⟨0.0, 0.0, 0.0⟩
        controller := some (.ofProfile {}) }
    let banner : Components :=
      { name := some "placeholder"
        position := some ⟨4.0, 0.0, 0.0⟩
        targetable := some .inert
        passive := some 0 }
    (((World.empty.spawn aria).2.spawn orc).2.spawn banner).2
  random := .cycle [0]
  now := 0
  alerts := ∅

theorem rally_not_stray (actor e : Entity) : ¬ rally.world.Stray actor e := by
  rintro ⟨hrecalled, -⟩
  simp only [rally, World.recalls, World.get?_spawn] at hrecalled
  split at hrecalled
  · cases hrecalled
  · split at hrecalled
    · cases hrecalled
    · split at hrecalled
      · cases hrecalled
      · cases hrecalled

/-- The orc thinks, and the banner is taken down. -/
def rallyBreaks : List Move := [.ask (.think ⟨1, 1⟩), .host (.despawn ⟨2, 1⟩)]

/-- The rally without its banner. -/
def strippedRally : State := (playOut {} rallyBreaks rally).state

/-- What the orc finds at first. -/
def rallySeen : List Candidate := [⟨⟨0, 1⟩, 3.0, .player, none⟩, ⟨⟨2, 1⟩, 4.0, .creature, some 0⟩]

/-- The sort behind the order of the world does not evaluate, so the search of the first think is
replaced by what it finds. -/
theorem strippedRally_eq :
    strippedRally = (Change.despawn ⟨2, 1⟩).apply
      (Engine.thinkAmong {} ⟨1, 1⟩ .idle (Controller.ofProfile {}).noteMode.markThought rallySeen
        (Engine.upkeep {} ⟨1, 1⟩ rally).state).state := by
  have hfresh : rally.world.controller? ⟨1, 1⟩ = some (.ofProfile {}) := by decide +kernel
  have hfound : Engine.found {} (Engine.upkeep {} ⟨1, 1⟩ rally).state.world ⟨1, 1⟩
      (Controller.ofProfile {}).noteMode.markThought = rallySeen := by
    rw [Engine.found_of_entities rfl (World.entities_of_sorted (by decide +kernel))]
    decide +kernel
  have hplayed : strippedRally =
      (Change.despawn ⟨2, 1⟩).apply (Engine.think {} ⟨1, 1⟩ rally).state := rfl
  rw [hplayed, Engine.think_of_found hfresh hfound (by simp [rallySeen])]
  rfl

/-- The orc of the rally, hunting Aria. -/
def huntingOrc : Controller :=
  { Controller.ofProfile {} with
    state := .engaged, target := some ⟨0, 1⟩, lastLegacyMode := some false, sinceThink := 0.0 }

theorem controller?_strippedRally : strippedRally.world.controller? ⟨1, 1⟩ = some huntingOrc := by
  rw [strippedRally_eq]
  decide +kernel

theorem found_strippedRally :
    Engine.found {} (Engine.upkeep {} ⟨1, 1⟩ strippedRally).state.world ⟨1, 1⟩
      huntingOrc.noteMode.markThought = [⟨⟨0, 1⟩, 3.0, .player, none⟩] := by
  rw [strippedRally_eq,
    Engine.found_of_entities rfl (World.entities_of_sorted (by decide +kernel))]
  decide +kernel

/-- The orc thinks again, and still recalls the banner. -/
theorem strippedRally_think_recalls :
    let after := (Engine.think {} ⟨1, 1⟩ strippedRally).state.world
    after.recalls ⟨1, 1⟩ ⟨2, 1⟩ = true ∧ after.isPresent ⟨2, 1⟩ = false := by
  rw [Engine.think_of_found controller?_strippedRally found_strippedRally (by simp),
    strippedRally_eq]
  decide +kernel

/-- The beats of those moves. -/
def rallyBeats : List Beat := [.think ⟨1, 1⟩, .move (.host (.despawn ⟨2, 1⟩))]

/-- The orc recalls a banner that is gone, so the banner strayed before. -/
theorem rally_banner_strayed :
    ∃ earlier beat rest, rallyBeats = earlier ++ beat :: rest ∧
      beat.Strays {} (playBeats {} earlier rally).state ⟨1, 1⟩ ⟨2, 1⟩ := by
  have hmoves : ∀ move ∈ rallyBreaks ++ [.ask (.think ⟨1, 1⟩)], move.KeepsStep := by
    simp [rallyBreaks, Move.KeepsStep, Change.KeepsStep]
  have hbeats : beatsOf {} (rallyBreaks ++ [.ask (.think ⟨1, 1⟩)]) rally =
      rallyBeats ++ .think ⟨1, 1⟩ :: [] := rfl
  obtain ⟨hrecalls, hgone⟩ := strippedRally_think_recalls
  have hwhy := playOut_recalls_gone_only_if_strayed rally_not_stray hmoves hbeats
    controller?_strippedRally rfl hrecalls
  refine hwhy.resolve_left ?_
  rw [Bool.not_eq_true]
  exact hgone

/-- From a world without stray entries a think in threat mode ends with an entry for a banner that
has left the world. -/
theorem rally_banner_outlived :
    (∀ actor e, ¬ rally.world.Stray actor e) ∧
      let before := (playOut {} rallyBreaks rally).state
      let thought := Engine.think {} ⟨1, 1⟩ before
      (∃ c, before.world.controller? ⟨1, 1⟩ = some c ∧ c.profile.legacyMode = false) ∧
        (∃ target, thought.result = .ok target) ∧
        thought.state.world.recalls ⟨1, 1⟩ ⟨2, 1⟩ = true ∧
        thought.state.world.isPresent ⟨2, 1⟩ = false :=
  ⟨rally_not_stray, ⟨huntingOrc, controller?_strippedRally, rfl⟩,
    Engine.think_accepted {} controller?_strippedRally, strippedRally_think_recalls⟩

end Hostility
