import Hostility.Proofs.KeptTarget
import Hostility.Proofs.Natures

/-!
Selections that are repeated because somebody slipped away. Every time there is a candidate less, so
the repetition ends: after as many deceptions as are allowed, or when only one is left, who has
nobody to hide behind. Whoever slipped away was a player in hiding, does not slip away twice, and is
not the one who is acquired in the end.
-/
namespace Hostility

variable {setting : Setting} {actor : Entity} {c : Controller} {s : State}

/-- An action that is done again, each time with what it left to go on with, until it comes to an
end. -/
inductive Action.Loops {α β : Type} (body : α → Action (β ⊕ α)) :
    α → State → Outcome β → Prop where
  | done {a : α} {s : State} {b : β} (h : (body a s).result = .ok (.inl b)) :
      Loops body a s ⟨.ok b, (body a s).state, (body a s).events⟩
  | again {a next : α} {s : State} {o : Outcome β} (h : (body a s).result = .ok (.inr next))
      (hnext : Loops body next (body a s).state o) :
      Loops body a s ⟨o.result, o.state, (body a s).events ++ o.events⟩

/-- A loop ends in one way only. -/
theorem Action.Loops.unique {α β : Type} {body : α → Action (β ⊕ α)} {a : α} {s : State}
    {o o' : Outcome β} (h : Loops body a s o) (h' : Loops body a s o') : o' = o := by
  induction h generalizing o' with
  | done hdone =>
    cases h' with
    | done hdone' =>
      obtain rfl := Sum.inl.inj (Except.ok.inj (hdone.symm.trans hdone'))
      rfl
    | again hagain' _ => cases hdone.symm.trans hagain'
  | again hagain _ ih =>
    cases h' with
    | done hdone' => cases hagain.symm.trans hdone'
    | again hagain' hnext' =>
      obtain rfl := Sum.inr.inj (Except.ok.inj (hagain.symm.trans hagain'))
      rw [ih hnext']

open Hostility.Action

/-- A player who tries to slip out of attention. -/
def Components.isHidingPlayer (c : Components) : Bool :=
  c.targetable.any (·.kind.isPlayer) && c.concealment.any (·.hides)

def World.HidesPlayer (w : World) (e : Entity) : Prop :=
  ∃ parts, w.get? e = some parts ∧ parts.isHidingPlayer = true

theorem World.HidesPlayer.of_sameNature {w w' : World} {e : Entity} (h : w'.HidesPlayer e)
    (hnature : w.SameNature w') : w.HidesPlayer e := by
  obtain ⟨parts, hparts, hhides⟩ := h
  have heq := hnature.bind_eq (p := fun c => some c.isHidingPlayer) (fun _ => rfl) e
  rw [hparts, Option.bind_some, hhides] at heq
  obtain ⟨parts', hparts', hhides'⟩ := Option.bind_eq_some_iff.mp heq.symm
  exact ⟨parts', hparts', Option.some.inj hhides'⟩

/-- Who tried to slip away, and whether it succeeded. -/
def Event.attempt? : Event → Option (Entity × Bool)
  | deceptionAttempted _ target _ succeeded => some (target, succeeded)
  | _ => none

namespace Deception

def attempts (events : List Event) : List (Entity × Bool) := events.filterMap Event.attempt?

/-- Those who slipped away. -/
def slipped (attempts : List (Entity × Bool)) : List Entity :=
  (attempts.filter (·.2)).map (·.1)

@[simp] theorem slipped_nil : slipped [] = [] := rfl

@[simp] theorem slipped_cons_true (e : Entity) (attempts : List (Entity × Bool)) :
    slipped ((e, true) :: attempts) = e :: slipped attempts := rfl

@[simp] theorem slipped_cons_false (e : Entity) (attempts : List (Entity × Bool)) :
    slipped ((e, false) :: attempts) = slipped attempts := rfl

theorem length_slipped_le (attempts : List (Entity × Bool)) :
    (slipped attempts).length ≤ attempts.length := by
  rw [slipped, List.length_map]
  exact List.length_filter_le _ _

theorem attempts_append (events events' : List Event) :
    attempts (events ++ events') = attempts events ++ attempts events' :=
  List.filterMap_append

theorem attempts_of_quiet {events : List Event} (h : ∀ e ∈ events, e.attempt? = none) :
    attempts events = [] :=
  List.filterMap_eq_nil_iff.mpr h

/-- Only a player in hiding tries to deceive, and only in a crowd. -/
theorem hides_of_attempter? {w : World} {target : Entity} {crowd : Nat} {hidden : Concealment}
    (h : attempter? w target crowd = some hidden) : 1 < crowd ∧ w.HidesPlayer target := by
  unfold attempter? at h
  split at h
  · cases h
  · next hcrowd =>
    constructor
    · omega
    cases hparts : w.get? target with
    | none => simp [hparts] at h
    | some parts =>
      refine ⟨parts, hparts, ?_⟩
      rw [hparts] at h
      unfold Components.isHidingPlayer
      cases htargetable : parts.targetable with
      | none => simp [htargetable] at h
      | some t =>
        cases hconcealment : parts.concealment with
        | none => simp [htargetable, hconcealment] at h
        | some hidden' =>
          simp only [htargetable, hconcealment] at h
          split at h
          · next hhides => exact hhides
          · cases h

/-- Either nobody tries to deceive, or a player in hiding tries in a crowd and the event tells how
it went. -/
theorem attempt_cases (setting : Setting) (actor : Entity) (perception : Nat) (target : Entity)
    (crowd : Nat) (s : State) :
    let attempted := attempt setting actor perception target crowd s
    (attempted.result = .ok none ∧ attempts attempted.events = []) ∨
    ∃ succeeded, attempted.result = .ok (some succeeded) ∧
      attempts attempted.events = [(target, succeeded)] ∧
      1 < crowd ∧ s.world.HidesPlayer target := by
  unfold attempt
  rw [world_bind]
  cases hhidden : attempter? s.world target crowd with
  | none => exact .inl ⟨rfl, rfl⟩
  | some hidden => exact .inr ⟨_, rfl, rfl, hides_of_attempter? hhidden⟩

end Deception

/-- The candidates that are left when somebody has slipped away. -/
def without (target : Entity) (remaining : List Candidate) : List Candidate :=
  remaining.filter fun k => !decide (k.entity = target)

namespace Engine

/-- One round of a selection in which so many have slipped away already. It ends with a choice, or
leaves the others for another round. -/
def round (setting : Setting) (actor : Entity) (c : Controller) (limit : Nat) :
    Nat × List Candidate → Action (Choice ⊕ Nat × List Candidate)
  | (deceived, remaining) => do
    let choice ← selectOnce setting actor c remaining
    match choice with
    | .chosen target =>
      if limit ≤ deceived then
        pure (.inl choice)
      else
        let attempt ←
          Deception.attempt setting actor c.profile.perception target remaining.length
        if attempt = some true then
          let others := without target remaining
          if others.isEmpty then pure (.inl .empty) else pure (.inr (deceived + 1, others))
        else
          pure (.inl choice)
    | _ => pure (.inl choice)

/-- The selection is its first round and whatever that leaves to do. -/
theorem selectUndeceived_eq_round (setting : Setting) (actor : Entity) (c : Controller)
    (limit deceived : Nat) (remaining : List Candidate) :
    selectUndeceived setting actor c (limit - deceived) remaining =
      round setting actor c limit (deceived, remaining) >>= fun
        | .inl choice => pure choice
        | .inr (deceived, others) =>
          selectUndeceived setting actor c (limit - deceived) others := by
  unfold round
  rw [bind_assoc]
  cases htries : limit - deceived with
  | zero =>
    have hlimit : limit ≤ deceived := by omega
    rw [selectUndeceived]
    conv => lhs; rw [← bind_pure (selectOnce setting actor c remaining)]
    congr 1
    funext choice
    cases choice with
    | chosen target => simp only [if_pos hlimit, pure_bind]
    | kept target => rw [pure_bind]
    | rejected bits => rw [pure_bind]
    | empty => rw [pure_bind]
  | succ tries =>
    have hlimit : ¬ limit ≤ deceived := by omega
    have htries' : limit - (deceived + 1) = tries := by omega
    rw [selectUndeceived]
    congr 1
    funext choice
    cases choice with
    | chosen target =>
      simp only [if_neg hlimit, bind_assoc]
      congr 1
      funext attempt
      split
      · split
        · next hothers => simp only [without, hothers, if_true, pure_bind]
        · next hothers =>
          simp only [without, hothers, Bool.false_eq_true, if_false, pure_bind, htries']
      · rw [pure_bind]
    | kept target => rw [pure_bind]
    | rejected bits => rw [pure_bind]
    | empty => rw [pure_bind]

theorem events_selectOnce (setting : Setting) (actor : Entity) (c : Controller)
    (remaining : List Candidate) (s : State) :
    (selectOnce setting actor c remaining s).events = [] := by
  unfold selectOnce
  rw [world_bind]
  split
  · rfl
  · cases s.world.ledger? actor with
    | none => rfl
    | some l => rfl

/-- The target of a choice is a player in hiding, and not the only one who is left. -/
structure Slips (w : World) (remaining : List Candidate) (target : Entity) : Prop where
  crowd : 1 < remaining.length
  mem : ∃ k ∈ remaining, k.entity = target
  hides : w.HidesPlayer target

/-- How a round ends, and the attempts at deception in it. -/
inductive Episode (w : World) (limit deceived : Nat) (remaining : List Candidate) :
    Choice ⊕ Nat × List Candidate → List (Entity × Bool) → Prop where
  | settled {choice : Choice} (hamong : choice.IsAmong remaining) :
      Episode w limit deceived remaining (.inl choice) []
  | noticed {target : Entity} (htry : deceived < limit)
      (hamong : (Choice.chosen target).IsAmong remaining) :
      Episode w limit deceived remaining (.inl (.chosen target)) [(target, false)]
  | emptied {target : Entity} (htry : deceived < limit) (hslips : Slips w remaining target)
      (hothers : without target remaining = []) :
      Episode w limit deceived remaining (.inl .empty) [(target, true)]
  | slipped {target : Entity} (htry : deceived < limit) (hslips : Slips w remaining target)
      (hothers : without target remaining ≠ []) :
      Episode w limit deceived remaining (.inr (deceived + 1, without target remaining))
        [(target, true)]

theorem round_episode (setting : Setting) (actor : Entity) (c : Controller)
    (limit deceived : Nat) (remaining : List Candidate) (s : State) :
    let ended := round setting actor c limit (deceived, remaining) s
    ∃ ending, ended.result = .ok ending ∧
      Episode s.world limit deceived remaining ending (Deception.attempts ended.events) := by
  intro ended
  have hpicked := selectOnce_tended setting actor c remaining s
  obtain ⟨choice, hchoice⟩ := hpicked.accepted
  have hamong := selectOnce_isAmong hchoice
  have hquiet := events_selectOnce setting actor c remaining s
  unfold ended round
  dsimp only
  rw [bind_of_ok hchoice, hquiet, List.nil_append]
  cases choice with
  | kept target => exact ⟨_, rfl, .settled hamong⟩
  | rejected bits => exact ⟨_, rfl, .settled hamong⟩
  | empty => exact ⟨_, rfl, .settled hamong⟩
  | chosen target =>
    dsimp only
    split
    · exact ⟨_, rfl, .settled hamong⟩
    next hlimit =>
    have htry : deceived < limit := by omega
    rcases Deception.attempt_cases setting actor c.profile.perception target remaining.length
        (selectOnce setting actor c remaining s).state with
      ⟨hattempt, htold⟩ | ⟨succeeded, hattempt, htold, hcrowd, hhides⟩
    · rw [bind_of_ok hattempt, if_neg (by simp), pure_run, List.append_nil, htold]
      exact ⟨_, rfl, .settled hamong⟩
    · have hslips : Slips s.world remaining target :=
        ⟨hcrowd, hamong target rfl, hhides.of_sameNature hpicked.world.sameNature⟩
      rw [bind_of_ok hattempt]
      cases succeeded with
      | false =>
        rw [if_neg (by simp), pure_run, List.append_nil, htold]
        exact ⟨_, rfl, .noticed htry hamong⟩
      | true =>
        rw [if_pos rfl]
        dsimp only
        split
        · next hothers =>
          rw [pure_run, List.append_nil, htold]
          exact ⟨_, rfl, .emptied htry hslips (List.isEmpty_iff.mp hothers)⟩
        · next hothers =>
          rw [pure_run, List.append_nil, htold]
          exact ⟨_, rfl, .slipped htry hslips fun h => hothers (List.isEmpty_iff.mpr h)⟩

theorem Episode.deceived_lt {w : World} {limit deceived deceived' : Nat}
    {remaining others : List Candidate} {attempts : List (Entity × Bool)}
    (h : Episode w limit deceived remaining (.inr (deceived', others)) attempts) :
    deceived < limit ∧ deceived' = deceived + 1 := by
  cases h with
  | slipped htry _ _ => exact ⟨htry, rfl⟩

/-- The selection is how the loop over its rounds ends. Every round that leaves something to do uses
up one of the deceptions that are allowed. -/
theorem loops_selectUndeceived (setting : Setting) (actor : Entity) (c : Controller)
    (limit deceived : Nat) (remaining : List Candidate) (s : State) :
    Loops (round setting actor c limit) (deceived, remaining) s
      (selectUndeceived setting actor c (limit - deceived) remaining s) := by
  obtain ⟨ending, hended, hepisode⟩ := round_episode setting actor c limit deceived remaining s
  rw [selectUndeceived_eq_round, bind_of_ok hended]
  rcases ending with choice | ⟨deceived', others⟩
  · simpa using Loops.done hended
  · have hless := hepisode.deceived_lt
    exact .again hended (loops_selectUndeceived setting actor c limit deceived' others _)
termination_by limit - deceived

/-- The loop over the rounds ends from everywhere, and with the selection. -/
theorem loops_iff {limit deceived : Nat} {remaining : List Candidate} {o : Outcome Choice} :
    Loops (round setting actor c limit) (deceived, remaining) s o ↔
      o = selectUndeceived setting actor c (limit - deceived) remaining s := by
  have hloops := loops_selectUndeceived setting actor c limit deceived remaining s
  exact ⟨hloops.unique, fun h => h ▸ hloops⟩

/-- What a selection comes to among candidates of whom so many may slip away. -/
structure Rerolled (w : World) (tries : Nat) (candidates : List Candidate) (choice : Choice)
    (attempts : List (Entity × Bool)) : Prop where
  among : choice.IsAmong candidates
  nodup : (Deception.slipped attempts).Nodup
  hides : ∀ e ∈ Deception.slipped attempts, w.HidesPlayer e
  mem : ∀ e ∈ Deception.slipped attempts, ∃ k ∈ candidates, k.entity = e
  spared : (Deception.slipped attempts).length ≤ candidates.length - 1
  tries : attempts.length ≤ tries
  noticed : ∀ a ∈ attempts.dropLast, a.2 = true
  avoided : ∀ e, choice.target? = some e → e ∉ Deception.slipped attempts

namespace Rerolled

variable {w : World} {limit deceived tries : Nat} {candidates : List Candidate} {choice : Choice}
  {attempts : List (Entity × Bool)}

theorem of_sameNature {w' : World} (h : Rerolled w' tries candidates choice attempts)
    (hnature : w.SameNature w') : Rerolled w tries candidates choice attempts :=
  { h with hides := fun e he => (h.hides e he).of_sameNature hnature }

theorem settled (hamong : choice.IsAmong candidates) : Rerolled w tries candidates choice [] where
  among := hamong
  nodup := List.nodup_nil
  hides := by simp
  mem := by simp
  spared := Nat.zero_le _
  tries := Nat.zero_le _
  noticed := by simp
  avoided := by simp

theorem caught {target : Entity} (htries : 0 < tries)
    (hamong : (Choice.chosen target).IsAmong candidates) :
    Rerolled w tries candidates (.chosen target) [(target, false)] where
  among := hamong
  nodup := List.nodup_nil
  hides := by simp
  mem := by simp
  spared := Nat.zero_le _
  tries := htries
  noticed := by simp
  avoided := by simp

/-- Somebody slips away, and the selection goes on among the others. -/
theorem slip {target : Entity} (hslips : Slips w candidates target)
    (h : Rerolled w tries (without target candidates) choice attempts) :
    Rerolled w (tries + 1) candidates choice ((target, true) :: attempts) := by
  have hothers {e : Entity} (he : ∃ k ∈ without target candidates, k.entity = e) :
      e ≠ target ∧ ∃ k ∈ candidates, k.entity = e := by
    obtain ⟨k, hk, rfl⟩ := he
    obtain ⟨hmem, hne⟩ := List.mem_filter.mp hk
    exact ⟨by simpa using hne, k, hmem, rfl⟩
  constructor
  case among => exact fun e he => (hothers (h.among e he)).2
  case nodup =>
    rw [Deception.slipped_cons_true, List.nodup_cons]
    exact ⟨fun htarget => (hothers (h.mem target htarget)).1 rfl, h.nodup⟩
  case hides =>
    intro e he
    rcases List.mem_cons.mp he with rfl | he
    · exact hslips.hides
    · exact h.hides e he
  case mem =>
    intro e he
    rcases List.mem_cons.mp he with rfl | he
    · exact hslips.mem
    · exact (hothers (h.mem e he)).2
  case spared =>
    have hcrowd := hslips.crowd
    have hspared := h.spared
    have hfewer : (without target candidates).length < candidates.length := by
      obtain ⟨k, hk, hentity⟩ := hslips.mem
      exact List.length_filter_lt_length_iff_exists.mpr ⟨k, hk, by simp [hentity]⟩
    rw [Deception.slipped_cons_true, List.length_cons]
    omega
  case tries => exact Nat.succ_le_succ h.tries
  case noticed =>
    cases attempts with
    | nil => simp
    | cons a rest =>
      intro b hb
      rw [List.dropLast_cons_of_ne_nil (by simp)] at hb
      rcases List.mem_cons.mp hb with rfl | hb
      · rfl
      · exact h.noticed b hb
  case avoided =>
    intro e he hslipped
    rcases List.mem_cons.mp hslipped with rfl | hslipped
    · exact (hothers (h.among e he)).1 rfl
    · exact h.avoided e he hslipped

end Rerolled

theorem Episode.rerolled {w : World} {limit deceived : Nat} {remaining : List Candidate}
    {choice : Choice} {attempts : List (Entity × Bool)}
    (h : Episode w limit deceived remaining (.inl choice) attempts) :
    Rerolled w (limit - deceived) remaining choice attempts := by
  cases h with
  | settled hamong => exact .settled hamong
  | noticed htry hamong => exact .caught (by omega) hamong
  | emptied htry hslips _ =>
    rw [show limit - deceived = limit - (deceived + 1) + 1 by omega]
    exact .slip hslips (.settled (.empty _))

theorem Episode.rerolled_again {w : World} {limit deceived : Nat} {remaining : List Candidate}
    {next : Nat × List Candidate} {attempts attempts' : List (Entity × Bool)} {choice : Choice}
    (h : Episode w limit deceived remaining (.inr next) attempts)
    (hrest : Rerolled w (limit - next.1) next.2 choice attempts') :
    Rerolled w (limit - deceived) remaining choice (attempts ++ attempts') := by
  cases h with
  | slipped htry hslips _ =>
    rw [show limit - deceived = limit - (deceived + 1) + 1 by omega]
    exact hrest.slip hslips

theorem round_natural (setting : Setting) (actor : Entity) (c : Controller) (limit : Nat)
    (a : Nat × List Candidate) : Follows Course.natural (round setting actor c limit a) := by
  have hroutine := (natural_pieces setting).toCorePieces.routine
  refine .bind Course.natural_closed (hroutine.selectOnce actor c a.2) fun choice => ?_
  cases choice with
  | kept target => exact .pure Course.natural_closed _
  | rejected bits => exact .pure Course.natural_closed _
  | empty => exact .pure Course.natural_closed _
  | chosen target =>
    dsimp only
    split
    · exact .pure Course.natural_closed _
    refine .bind Course.natural_closed (hroutine.attempt actor _ target _) fun attempt => ?_
    split
    · split
      · exact .pure Course.natural_closed _
      · exact .pure Course.natural_closed _
    · exact .pure Course.natural_closed _

/-- However many rounds the loop takes. -/
theorem rerolled_of_loops {limit : Nat} {a : Nat × List Candidate} {o : Outcome Choice}
    (h : Loops (round setting actor c limit) a s o) :
    ∃ choice, o.result = .ok choice ∧
      Rerolled s.world (limit - a.1) a.2 choice (Deception.attempts o.events) := by
  induction h with
  | @done a s choice hdone =>
    obtain ⟨ending, hended, hepisode⟩ := round_episode setting actor c limit a.1 a.2 s
    obtain rfl := Except.ok.inj (hended.symm.trans hdone)
    exact ⟨choice, rfl, hepisode.rerolled⟩
  | @again a next s o hagain _ ih =>
    obtain ⟨ending, hended, hepisode⟩ := round_episode setting actor c limit a.1 a.2 s
    obtain rfl := Except.ok.inj (hended.symm.trans hagain)
    obtain ⟨choice, hchoice, hrest⟩ := ih
    refine ⟨choice, hchoice, ?_⟩
    dsimp only
    rw [Deception.attempts_append]
    exact hepisode.rerolled_again (hrest.of_sameNature (round_natural setting actor c limit a s))

open Course

/-- The course on which nobody tries to deceive. -/
def unattempting : Course := telling fun e => e.attempt? = none

theorem unattempting_closed : unattempting.Closed := telling_closed _

theorem unattempting_nil (s s' : State) : unattempting s [] s' := by simp [unattempting, telling]

theorem upkeep_unattempting (t : Tuning) (actor : Entity) :
    Follows unattempting (upkeep t actor) := by
  have hreset : Follows unattempting (Threat.reset actor) := by
    intro s e he
    rw [List.mem_singleton.mp he]
    rfl
  have hdecay : Follows unattempting (Threat.decay t actor) := by
    rw [Threat.decay_eq]
    refine .bind unattempting_closed (Threat.prune_follows unattempting_closed ?_) fun _ =>
      Threat.lower_follows unattempting_closed ?_
    · exact fun s _ => unattempting_nil s _
    · intro s l lowered amount _ _ e he
      rw [List.mem_singleton.mp he]
      rfl
  intro s
  refine unattempting_closed.controllerOf_bind fun c _ => ?_
  refine Follows.bind unattempting_closed (.whenever unattempting_closed hreset _) (fun _ => ?_) s
  refine .bind unattempting_closed (.whenever unattempting_closed ?_ _) fun _ =>
    .pure unattempting_closed _
  exact .bind unattempting_closed hdecay fun _ => .pure unattempting_closed _

theorem prepare_unattempting (t : Tuning) (actor : Entity) (candidates : List Candidate) :
    Follows unattempting (prepare t actor candidates) := by
  have hledger : Follows unattempting (Threat.ensureLedger actor) :=
    Threat.ensureLedger_follows unattempting_closed fun s _ => unattempting_nil s _
  have hbias : Follows unattempting (Threat.ensureBias actor) := by
    refine .world_bind fun s => ?_
    split
    · exact unattempting_nil s _
    · exact Follows.insert unattempting_closed (fun s => unattempting_nil s _) s
  refine .bind unattempting_closed (Threat.seedCandidates_follows unattempting_closed hledger
    (fun s _ _ _ => unattempting_nil s _) candidates) fun _ => ?_
  refine .bind unattempting_closed hbias fun _ => .world_bind fun s => ?_
  cases s.world.ledger? actor with
  | none => exact unattempting_nil s _
  | some l =>
    cases s.world.bias? actor with
    | none => exact unattempting_nil s _
    | some b => exact unattempting_nil s _

theorem recordStreaks_unattempting (actor : Entity) (chosen : Option Entity) :
    Follows unattempting (recordStreaks actor chosen) := by
  refine .world_bind fun s => ?_
  cases s.world.bias? actor with
  | none => exact unattempting_nil s _
  | some b => exact unattempting_nil s _

theorem choose_rerolled (setting : Setting) (c : Controller) (candidates : List Candidate)
    (hw : s.world.contains actor = true) :
    let chosen := choose setting actor c candidates s
    ∃ choice, chosen.result = .ok choice ∧
      Rerolled s.world (min setting.tuning.maxDeceptionRerolls candidates.length) candidates choice
        (Deception.attempts chosen.events) := by
  intro chosen
  let limit := min setting.tuning.maxDeceptionRerolls candidates.length
  let prepared :=
    Action.when (!c.profile.legacyMode) (prepare setting.tuning actor candidates) s
  let selected := selectUndeceived setting actor c limit candidates prepared.state
  have hprepared : Tended actor s prepared :=
    .whenever fun _ => prepare_tended setting.tuning candidates hw
  obtain ⟨_, hready⟩ := hprepared.accepted
  have hunprepared : Deception.attempts prepared.events = [] :=
    Deception.attempts_of_quiet
      (Follows.whenever unattempting_closed (prepare_unattempting _ actor candidates) _ s)
  have hloops := loops_selectUndeceived setting actor c limit 0 candidates prepared.state
  rw [Nat.sub_zero] at hloops
  obtain ⟨choice, hchoice, hrerolled⟩ := rerolled_of_loops hloops
  let recorded :=
    Action.when (!c.profile.legacyMode) (recordStreaks actor choice.target?) selected.state
  obtain ⟨_, hdone⟩ : ∃ a, recorded.result = .ok a :=
    (Tended.whenever fun _ => recordStreaks_tended actor _ selected.state).accepted
  have hunrecorded : Deception.attempts recorded.events = [] :=
    Deception.attempts_of_quiet
      (Follows.whenever unattempting_closed (recordStreaks_unattempting actor _) _ selected.state)
  have hrun : chosen =
      ⟨.ok choice, recorded.state, prepared.events ++ (selected.events ++ recorded.events)⟩ := by
    unfold chosen choose
    rw [bind_of_ok (m := Action.when _ (prepare _ _ _)) hready, bind_of_ok hchoice,
      bind_of_ok (m := Action.when _ (recordStreaks _ _)) hdone]
    simp [prepared, selected, recorded, limit]
  refine ⟨choice, by rw [hrun], ?_⟩
  rw [hrun]
  simp only [Deception.attempts_append, hunprepared, hunrecorded, List.nil_append, List.append_nil]
  exact hrerolled.of_sameNature hprepared.world.sameNature

theorem attempts_news {events : List Event} (h : ∀ e ∈ events, e.IsNewsOf actor) :
    Deception.attempts events = [] := by
  apply Deception.attempts_of_quiet
  intro e he
  have hnews := h e he
  cases e with
  | deceptionAttempted _ _ _ _ => exact hnews.elim
  | _ => rfl

theorem attempts_calls {events : List Event} (h : ∀ e ∈ events, e.IsCallOf actor) :
    Deception.attempts events = [] := by
  apply Deception.attempts_of_quiet
  intro e he
  have hcall := h e he
  cases e with
  | deceptionAttempted _ _ _ _ => exact hcall.elim
  | _ => rfl

/-- The attempts of a think are those of its selection, and only the choice is acquired. -/
theorem think_rerolled (setting : Setting) {c : Controller}
    (hc : s.world.controller? actor = some c) :
    let candidates := found setting (upkeep setting.tuning actor s).state.world actor
      c.noteMode.markThought
    let thought := think setting actor s
    ∃ choice,
      Rerolled s.world (min setting.tuning.maxDeceptionRerolls candidates.length) candidates choice
        (Deception.attempts thought.events) ∧
      ∀ a e, .targetAcquired a e ∈ thought.events →
        e ∉ Deception.slipped (Deception.attempts thought.events) := by
  intro candidates thought
  have hbefore := upkeep_tended setting.tuning hc
  have hunattempted : Deception.attempts (upkeep setting.tuning actor s).events = [] :=
    Deception.attempts_of_quiet (upkeep_unattempting setting.tuning actor s)
  by_cases hfound : candidates = []
  · have hnone : Deception.attempts thought.events = [] := by
      rw [show thought = _ from think_of_nobody hc hfound]
      dsimp only
      rw [Deception.attempts_append, hunattempted,
        attempts_news (Controller.disengage_news _ actor)]
      rfl
    rw [hnone]
    exact ⟨.empty, .settled (.empty _), by simp⟩
  · obtain ⟨choice, hchoice, hrun⟩ := think_of_somebody hc hfound
    let roused := (c.noteMode.markThought.rouse actor).1
    let before := (upkeep setting.tuning actor s).state
    have hstored := (hbefore.world.controller?_eq actor).trans hc
    have hcontains := World.contains_of_bind hstored
    have hchosen := choose_tended setting roused candidates hcontains
    obtain ⟨choice', hchoice', hrerolled⟩ := choose_rerolled setting roused candidates hcontains
    obtain rfl := Except.ok.inj (hchoice'.symm.trans hchoice)
    have hcalls := alarm_calls setting actor c.state choice'.target?
      { (choose setting actor roused candidates before).state with
        world := (choose setting actor roused candidates before).state.world.setController actor
          (settle roused actor choice').1 }
    have hattempts : Deception.attempts thought.events =
        Deception.attempts (choose setting actor roused candidates before).events := by
      rw [show thought = _ from hrun]
      dsimp only
      rw [Deception.attempts_append, Deception.attempts_append, Deception.attempts_append,
        Deception.attempts_append, hunattempted, attempts_news (Controller.rouse_news _ actor),
        attempts_news (settle_news _ actor choice'), attempts_calls hcalls]
      simp only [List.nil_append, List.append_nil, roused, before, candidates]
    rw [hattempts]
    refine ⟨choice', hrerolled.of_sameNature hbefore.world.sameNature, fun a e he => ?_⟩
    refine hrerolled.avoided e ?_
    rw [show thought = _ from hrun] at he
    simp only [List.mem_append] at he
    rcases he with he | he | he | he | he
    · exact False.elim (hbefore.events _ he)
    · cases Controller.eq_of_mem_rouse he
    · exact False.elim (hchosen.events _ he)
    · obtain rfl : a = actor := settle_news _ actor choice' _ he
      exact acquired_mem_settle.mp he
    · exact False.elim (hcalls _ he)

/-- In every think of an actor the selection loop ends, in one way only. Those who slip away in it
are players in hiding among the candidates; nobody slips away twice, no more slip away than are
allowed, and one candidate at least stays. Only the last attempt may fail, and whoever is acquired
has not slipped away. -/
theorem think_rerolls (setting : Setting) {c : Controller}
    (hc : s.world.controller? actor = some c) :
    let candidates := found setting (upkeep setting.tuning actor s).state.world actor
      c.noteMode.markThought
    let thought := think setting actor s
    let attempts := Deception.attempts thought.events
    let slipped := Deception.slipped attempts
    let most := setting.tuning.maxDeceptionRerolls
    (∃ target, thought.result = .ok target) ∧
    (∀ roused limit remaining s' o,
      Loops (round setting actor roused limit) (0, remaining) s' o ↔
        o = selectUndeceived setting actor roused limit remaining s') ∧
    slipped.Nodup ∧
    (∀ e ∈ slipped, s.world.HidesPlayer e ∧ ∃ k ∈ candidates, k.entity = e) ∧
    slipped.length ≤ most ∧ slipped.length ≤ candidates.length - 1 ∧
    attempts.length ≤ min most candidates.length ∧
    (∀ a ∈ attempts.dropLast, a.2 = true) ∧
    ∀ a e, .targetAcquired a e ∈ thought.events → e ∉ slipped := by
  intro candidates thought attempts slipped most
  obtain ⟨choice, hrerolled, hspared⟩ := think_rerolled setting hc
  refine ⟨think_accepted setting hc, fun roused limit remaining s' o => loops_iff,
    hrerolled.nodup, fun e he => ⟨hrerolled.hides e he, hrerolled.mem e he⟩, ?_,
    hrerolled.spared, hrerolled.tries, hrerolled.noticed, hspared⟩
  have htries : attempts.length ≤ min most candidates.length := hrerolled.tries
  have hslipped := Deception.length_slipped_le attempts
  show (Deception.slipped attempts).length ≤ most
  omega

/-- An orc that goes for whoever is nearest, Aria in hiding close by, and Bram in the open. -/
def shadows : State where
  world :=
    let orc : Components :=
      { name := some "orc"
        position := some ⟨0.0, 0.0, 0.0⟩
        health := some (.full 100.0)
        controller := some (.ofProfile (({} : Profile).withLegacyTactics ⟨128⟩)) }
    let player (name : String) (x : Float) (concealment : Option Concealment) : Components :=
      { name := some name
        position := some ⟨x, 0.0, 0.0⟩
        health := some (.full 100.0)
        targetable := some .player
        concealment }
    (((World.empty.spawn orc).2.spawn (player "Aria" 3.0 (some (.ofHiding 10)))).2.spawn
      (player "Bram" 5.0 none)).2
  random := .cycle [0]
  now := 0
  alerts := ∅

/-- The controller of the orc before it thinks. -/
def stalking : Controller := .ofProfile (({} : Profile).withLegacyTactics ⟨128⟩)

theorem shadows_rerolls :
    let thought := think {} ⟨0, 1⟩ shadows
    shadows.world.controller? ⟨0, 1⟩ = some stalking ∧
      Deception.attempts thought.events = [(⟨1, 1⟩, true)] ∧
      .targetAcquired ⟨0, 1⟩ ⟨2, 1⟩ ∈ thought.events ∧
      shadows.world.HidesPlayer ⟨1, 1⟩ ∧ ∀ a, .targetAcquired a ⟨1, 1⟩ ∉ thought.events := by
  intro thought
  have hstalking : shadows.world.controller? ⟨0, 1⟩ = some stalking := by decide +kernel
  have hboth : found {} (upkeep {} ⟨0, 1⟩ shadows).state.world ⟨0, 1⟩
      stalking.noteMode.markThought =
        [⟨⟨1, 1⟩, 3.0, .player, none⟩, ⟨⟨2, 1⟩, 5.0, .player, none⟩] := by
    rw [found_of_entities rfl (World.entities_of_sorted (by decide +kernel))]
    decide +kernel
  have hrun : thought = _ := think_of_found hstalking hboth (by simp)
  have hattempts : Deception.attempts thought.events = [(⟨1, 1⟩, true)] := by
    rw [hrun]
    decide +kernel
  have hacquired : .targetAcquired ⟨0, 1⟩ ⟨2, 1⟩ ∈ thought.events := by
    rw [hrun]
    decide +kernel
  obtain ⟨-, -, -, hhides, -, -, -, -, havoided⟩ := think_rerolls {} hstalking
  rw [show Deception.attempts (think {} ⟨0, 1⟩ shadows).events = _ from hattempts]
    at hhides havoided
  refine ⟨hstalking, hattempts, hacquired, (hhides ⟨1, 1⟩ (by simp)).1, fun a ha => ?_⟩
  exact havoided a ⟨1, 1⟩ ha (by simp)

end Engine

end Hostility
