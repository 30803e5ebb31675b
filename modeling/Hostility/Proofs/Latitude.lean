import Hostility.Proofs.Sightings

/-!
The latitude of an observer. Every rule of eligibility looks at one sighting, and none of them shuts
out more entities when the observer may strike back at more of its own faction, perceives more, or
puts up with less. So it finds at least the candidates that it found before, in the same order.
-/
namespace Hostility

/-- A controller that differs from another in this alone: it may strike back at more of its own
faction, it perceives more, and it puts up with less. -/
structure Controller.WidensTo (c c' : Controller) : Prop where
  retaliation : ∀ e, c.retaliates e = true → c'.retaliates e = true
  perception : c.profile.perception ≤ c'.profile.perception
  tolerances : ∀ t, c'.profile.tolerances.contains t = true → c.profile.tolerances.contains t = true
  otherwise : c' = { c with
    retaliation := c'.retaliation
    profile := { c.profile with
      perception := c'.profile.perception
      tolerances := c'.profile.tolerances } }

theorem Concealment.detectedBy_mono {hidden : Concealment} {perception sharper : Nat}
    (hle : perception ≤ sharper) (h : hidden.detectedBy perception = true) :
    hidden.detectedBy sharper = true := by
  unfold detectedBy at h ⊢
  rw [Bool.or_eq_true, decide_eq_true_iff] at h ⊢
  exact h.imp_right fun hstealth => Nat.le_trans hstealth hle

/-- A function that answers whenever another does, and in the same way, keeps at least as much. -/
theorem filterMap_sublist_filterMap {α β : Type} {f g : α → Option β}
    (h : ∀ a b, f a = some b → g a = some b) (l : List α) :
    (l.filterMap f).Sublist (l.filterMap g) := by
  induction l with
  | nil => exact .slnil
  | cons a rest ih =>
    cases hf : f a with
    | some b =>
      rw [List.filterMap_cons_some hf, List.filterMap_cons_some (h a b hf)]
      exact ih.cons_cons b
    | none =>
      rw [List.filterMap_cons_none hf]
      cases hg : g a with
      | none => rwa [List.filterMap_cons_none hg]
      | some b =>
        rw [List.filterMap_cons_some hg]
        exact ih.cons b

namespace Controller.WidensTo

variable {c c' : Controller} {actor : Entity} {allegiance : Allegiance} {parts : Components}
  {seen : Sighting} {w : World}

theorem target_eq (h : c.WidensTo c') : c'.target = c.target := by rw [h.otherwise]

/-- How far the observer sees and chases is the same. -/
theorem rangeSquared_eq (h : c.WidensTo c') (e : Entity) :
    Observer.rangeSquared ⟨actor, c', allegiance⟩ parts e =
      Observer.rangeSquared ⟨actor, c, allegiance⟩ parts e := by
  rw [h.otherwise]
  rfl

theorem accepts (h : c.WidensTo c')
    (haccepts : Observer.Accepts ⟨actor, c, allegiance⟩ parts seen) :
    Observer.Accepts ⟨actor, c', allegiance⟩ parts seen where
  alive := haccepts.alive
  targetable := haccepts.targetable
  here := haccepts.here
  unevaded := haccepts.unevaded
  detected := by
    have hdetected := haccepts.detected
    unfold Observer.detects at hdetected ⊢
    cases hhidden : parts.concealment with
    | none => rfl
    | some hidden =>
      rw [hhidden] at hdetected
      exact Concealment.detectedBy_mono h.perception hdetected
  near := by
    rw [h.rangeSquared_eq]
    exact haccepts.near
  fairGame hshares := h.retaliation seen.entity (haccepts.fairGame hshares)
  unlocked := by
    have hunlocked := haccepts.unlocked
    unfold Observer.isLockedAway at hunlocked ⊢
    dsimp only at hunlocked ⊢
    rw [h.target_eq]
    cases hlocked : c'.profile.lockedToTarget with
    | false => rfl
    | true =>
      have hbefore : c.profile.lockedToTarget = true := h.tolerances _ hlocked
      rwa [hbefore] at hunlocked
  prey hmonsters := haccepts.prey (h.tolerances _ hmonsters)

theorem evaluate (h : c.WidensTo c') {k : Candidate}
    (hk : Observer.evaluate ⟨actor, c, allegiance⟩ w seen = .ok k) :
    Observer.evaluate ⟨actor, c', allegiance⟩ w seen = .ok k := by
  obtain ⟨parts, hparts, haccepts, rfl⟩ := Observer.evaluate_eq_ok_iff.mp hk
  exact Observer.evaluate_eq_ok_iff.mpr ⟨parts, hparts, h.accepts haccepts, rfl⟩

theorem candidates_sublist (h : c.WidensTo c') (w : World) (sightings : List Sighting) :
    (Observer.candidates ⟨actor, c, allegiance⟩ w sightings).Sublist
      (Observer.candidates ⟨actor, c', allegiance⟩ w sightings) := by
  refine filterMap_sublist_filterMap (fun seen k hk => ?_) _
  cases hbefore : Observer.evaluate ⟨actor, c, allegiance⟩ w seen with
  | error reason =>
    rw [hbefore] at hk
    cases hk
  | ok k' =>
    rw [hbefore] at hk
    rw [h.evaluate hbefore]
    exact hk

end Controller.WidensTo

namespace Observer

theorem candidates_append (o : Observer) (w : World) (sightings more : List Sighting) :
    o.candidates w (sightings ++ more) = o.candidates w sightings ++ o.candidates w more := by
  rw [candidates, List.filter_append, List.filterMap_append]
  rfl

/-- More latitude never loses a candidate and never changes the order of those there were. Sightings
are judged one by one; nobody finds itself, and whoever is locked to a target finds nobody else. -/
theorem candidates_widen {c c' : Controller} (h : c.WidensTo c') (w : World) (actor : Entity)
    (sightings more : List Sighting) :
    let found := fun controller seen => (ofActor w actor controller).candidates w seen
    (found c sightings).Sublist (found c' sightings) ∧
      found c (sightings ++ more) = found c sightings ++ found c more ∧
      ∀ k ∈ found c sightings, k.entity ≠ actor ∧ ∀ target,
        c.profile.lockedToTarget = true → c.target = some target → k.entity = target := by
  intro found
  refine ⟨h.candidates_sublist w sightings, candidates_append _ w sightings more, fun k hk => ?_⟩
  obtain ⟨seen, -, hother, hok⟩ := mem_candidates.mp hk
  obtain ⟨parts, -, -, rfl⟩ := evaluate_eq_ok_iff.mp hok
  exact ⟨hother, fun target hlocked htarget => entity_eq_of_locked hlocked htarget hk⟩

/-- A sentry, a comrade of its own faction, a cloaked player and a troll. -/
def stakeout : World :=
  let member : Components := { allegiance := some ⟨⟨1⟩, default⟩, targetable := some .creature }
  let sneak : Components :=
    { targetable := some .player, concealment := some { stealthed := true, stealth := 12 } }
  let troll : Components := { targetable := some .creature }
  ((((World.empty.spawn member).2.spawn member).2.spawn sneak).2.spawn troll).2

/-- A sentry that is locked to the troll and hunts monsters only finds the troll; one that was
betrayed, looks closer and puts up with nothing finds its comrade and the player as well. -/
theorem stakeout_candidates_widen :
    let strict : Controller :=
      { Controller.ofProfile { tolerances := ⟨3⟩ } with target := some ⟨3, 1⟩ }
    let wide : Controller :=
      { (Controller.ofProfile { perception := 15 }).retaliateAgainst ⟨1, 1⟩ with
        target := some ⟨3, 1⟩ }
    let seen : List Sighting := [⟨⟨0, 1⟩, 0.0⟩, ⟨⟨1, 1⟩, 2.0⟩, ⟨⟨2, 1⟩, 3.0⟩]
    let more : List Sighting := [⟨⟨3, 1⟩, 15.0⟩]
    let found := fun controller seen =>
      (ofActor stakeout ⟨0, 1⟩ controller).candidates stakeout seen
    strict.WidensTo wide ∧ (found strict (seen ++ more)).Sublist (found wide (seen ++ more)) ∧
      found strict (seen ++ more) = [⟨⟨3, 1⟩, 15.0, .creature, none⟩] ∧
      found wide (seen ++ more) = [⟨⟨1, 1⟩, 2.0, .creature, none⟩, ⟨⟨2, 1⟩, 3.0, .player, none⟩,
        ⟨⟨3, 1⟩, 15.0, .creature, none⟩] := by
  intro strict wide seen more found
  have hwidens : strict.WidensTo wide := by
    refine ⟨fun e he => ?_, by decide, fun t ht => ?_, rfl⟩
    · cases he
    · exact absurd ht (by cases t <;> decide)
  exact ⟨hwidens, (candidates_widen hwidens stakeout ⟨0, 1⟩ (seen ++ more) []).1, by decide +kernel,
    by decide +kernel⟩

end Observer

end Hostility
