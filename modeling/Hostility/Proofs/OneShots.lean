import Hostility.Proofs.Beats
import Hostility.Proofs.Provocations

/-!
One-shot flags. An entity may be armed with a skip and a doubling of the threat that it causes next.
Of all its provocations of which an actor takes note, the first goes to an armed skip, and the first
that is not skipped to an armed doubling. Whom it provokes and what else happens meanwhile makes no
difference.
-/
namespace Hostility

variable {setting : Setting} {t : Tuning} {actor source : Entity} {s : State} {events : List Event}

open Course Hostility.Action

def Event.isSkipOf (source : Entity) : Event → Bool
  | .threatSkipped _ e => decide (e = source)
  | _ => false

theorem Event.LeavesThreat.isSkipOf_eq_false {e : Event} (h : e.LeavesThreat) :
    e.isSkipOf source = false := by
  cases e <;> first | rfl | exact h.elim

theorem Event.IsUpkeepOf.isSkipOf_eq_false {e : Event} (h : e.IsUpkeepOf actor) :
    e.isSkipOf source = false := by
  cases e <;> first | rfl | exact h.elim

/-- The source keeps its flags, and no skip of its threat is told. -/
def Course.unspent (source : Entity) : Course := fun s events s' =>
  s'.world.oneShots source = s.world.oneShots source ∧ ∀ e ∈ events, e.isSkipOf source = false

theorem Course.unspent_closed (source : Entity) : (unspent source).Closed where
  refl s := ⟨rfl, by simp⟩
  trans h h' := by
    constructor
    · exact h'.1.trans h.1
    · intro e he
      rcases List.mem_append.mp he with he | he
      · exact h.2 e he
      · exact h'.2 e he

theorem Tended.unspent {α : Type} {o : Outcome α} (h : Tended actor s o) (source : Entity) :
    Course.unspent source s o.events o.state :=
  ⟨congrArg Modifiers.oneShots (h.world.modifiersOf_eq source),
    fun e he => (h.events e he).isSkipOf_eq_false⟩

theorem unspent_update {f : Components → Components} (h : ∀ c, (f c).modifiers = c.modifiers)
    (hevents : ∀ e ∈ events, e.isSkipOf source = false) (e : Entity) (s : State) :
    unspent source s events { s with world := s.world.update e f } :=
  ⟨congrArg Modifiers.oneShots (s.world.modifiersOf_update h e source), hevents⟩

theorem Engine.unspent_pieces (setting : Setting) (source : Entity) :
    (unspent source).Pieces setting where
  closed := unspent_closed source
  elapse seconds s := by
    constructor
    · show (s.world.updateAll (elapse seconds)).oneShots source = _
      rw [World.oneShots, World.modifiersOf, World.get?_updateAll, World.oneShots,
        World.modifiersOf]
      cases s.world.get? source <;> rfl
    · simp
  note s _ := (unspent_closed source).refl s
  drawn s _ := (unspent_closed source).refl s
  news _ h _ := ⟨rfl, fun e he => (h e he).isSkipOf_eq_false⟩
  setBias actor _ := unspent_update (by intro _; rfl) (by simp) actor
  rewrite s actor _ _ _ := unspent_update (by intro _; rfl) (by simp) actor s
  make actor s _ := unspent_update (by intro _; rfl) (by simp) actor s
  reset actor s := (Threat.reset_tended actor s).unspent source
  prune actor s := (Threat.prune_tended actor s).unspent source
  lower actor s := (Threat.lower_tended setting.tuning actor s).unspent source
  raise actor _ s _ _ _ _ := unspent_update (by intro _; rfl) (by simp [Event.isSkipOf]) actor s
  seedAll actor s _ _ _ := unspent_update (by intro _; rfl) (by simp) actor s
  seedEnemy ally _ := unspent_update (by intro _; rfl) (by simp) ally
  bias actor s _ _ _ _ := unspent_update (by intro _; rfl) (by simp) actor s
  rate actor s _ _ _ _ := unspent_update (by intro _; rfl) (by simp) actor s

theorem unspent_spends {other : Entity} (h : other ≠ source) : (unspent source).Spends other where
  spend _ s := ⟨congrArg Modifiers.oneShots (s.world.modifiersOf_update_of_ne h.symm), by simp⟩
  skip _ _ := ⟨rfl, by simp [Event.isSkipOf, h]⟩

/-- A request that records no threat of the source spends none of its flags. -/
theorem Request.perform_unspent (setting : Setting) {request : Request}
    (h : request.source? ≠ some source) :
    Follows (unspent source) (request.perform setting) :=
  (Engine.unspent_pieces setting source).perform
    (fun actor _ => unspent_update (by intro _; rfl) (by simp) actor)
    fun other hother => unspent_spends fun hsame => h (hsame ▸ hother)

/-- The provocation by a source that a move is. -/
def Move.provocation? (source : Entity) : Move → Option Provocation
  | .ask (.increase actor candidate base) =>
    if candidate = source then some (.increase actor base) else none
  | .ask (.recordDamage actor attacker amount) =>
    if attacker = source then some (.hit actor amount) else none
  | _ => none

/-- The move is a provocation by the source of which the actor takes note. -/
def Move.isNoted (t : Tuning) (source : Entity) (w : World) (move : Move) : Bool :=
  match move.provocation? source with
  | some p => w.notes t p.actor source
  | none => false

/-- How often threat of the source is taken note of in a run. -/
def timesNoted (setting : Setting) (source : Entity) : List Move → State → Nat
  | [], _ => 0
  | move :: rest, s => (move.isNoted setting.tuning source s.world).toNat +
      timesNoted setting source rest (move.perform setting s).state

/-- The host never arms or disarms the source in a run. -/
def LeavesOneShots (setting : Setting) (source : Entity) (moves : List Move) (s : State) : Prop :=
  ∀ earlier change later, moves = earlier ++ .host change :: later →
    let before := (playOut setting earlier s).state
    (change.apply before).world.oneShots source = before.world.oneShots source

theorem Move.eq_of_provocation? {move : Move} {p : Provocation}
    (h : move.provocation? source = some p) : move = .ask (p.request source) := by
  unfold provocation? at h
  split at h
  · split at h
    · next hsource =>
      obtain rfl := Option.some.inj h
      rw [hsource]
      rfl
    · cases h
  · split at h
    · next hsource =>
      obtain rfl := Option.some.inj h
      rw [hsource]
      rfl
    · cases h
  · cases h

theorem Request.source?_ne {request : Request}
    (h : (Move.ask request).provocation? source = none) : request.source? ≠ some source := by
  intro hsource
  cases request <;> simp_all [source?, Move.provocation?]

/-- A provocation spends what is spent once if it is taken note of, and nothing otherwise. -/
theorem Provocation.perform_spends (p : Provocation) (t : Tuning) (source : Entity) (s : State) :
    let n := (s.world.notes t p.actor source).toNat
    let call := p.perform t source s
    call.state.world.oneShots source = (s.world.oneShots source).after n ∧
      call.events.countP (Event.isSkipOf source) = (s.world.oneShots source).skipped n := by
  intro n call
  cases hnoted : s.world.notes t p.actor source with
  | false =>
    obtain ⟨-, hevents, hflags⟩ := p.perform_of_not_noted hnoted
    rw [show call.events = [] from hevents]
    simp [n, hnoted, hflags, call]
  | true =>
    have hn : n = 1 := by simp [n, hnoted]
    rw [hn]
    cases hskip : (s.world.oneShots source).skip with
    | true =>
      obtain ⟨-, hevents, hflags⟩ := p.perform_of_skip hnoted hskip
      rw [show call.events = _ from hevents]
      exact ⟨hflags, by simp [Event.isSkipOf, OneShots.skipped, hskip]⟩
    | false =>
      obtain ⟨amount, total, -, -, hevents, hflags⟩ := p.perform_of_no_skip hnoted hskip
      rw [show call.events = _ from hevents]
      exact ⟨hflags, by simp [Event.isSkipOf, OneShots.skipped, hskip]⟩

theorem Move.perform_spends (setting : Setting) {move : Move}
    (hhost : ∀ change, move = .host change →
      (change.apply s).world.oneShots source = s.world.oneShots source) :
    let n := (move.isNoted setting.tuning source s.world).toNat
    let moved := move.perform setting s
    moved.state.world.oneShots source = (s.world.oneShots source).after n ∧
      moved.events.countP (Event.isSkipOf source) = (s.world.oneShots source).skipped n := by
  intro n moved
  cases hp : move.provocation? source with
  | some p =>
    obtain rfl := Move.eq_of_provocation? hp
    have hn : n = (s.world.notes setting.tuning p.actor source).toNat := by
      simp only [n, Move.isNoted, hp]
    have hmoved : moved = Action.regardless (p.perform setting.tuning source) s :=
      congrFun p.perform_request s
    rw [hn, hmoved]
    exact p.perform_spends setting.tuning source s
  | none =>
    have hn : n = 0 := by simp only [n, Move.isNoted, hp, Bool.toNat_false]
    rw [hn, OneShots.after_zero, OneShots.skipped_zero]
    cases move with
    | host change => exact ⟨hhost change rfl, rfl⟩
    | ask request =>
      obtain ⟨hflags, hevents⟩ := request.perform_unspent setting (Request.source?_ne hp) s
      exact ⟨hflags, List.countP_eq_zero.mpr fun e he => by simp [hevents e he]⟩

namespace LeavesOneShots

variable {move : Move} {moves : List Move}

theorem head (h : LeavesOneShots setting source (move :: moves) s) (change : Change)
    (hmove : move = .host change) :
    (change.apply s).world.oneShots source = s.world.oneShots source :=
  h [] change moves (by rw [hmove]; rfl)

theorem tail (h : LeavesOneShots setting source (move :: moves) s) :
    LeavesOneShots setting source moves (move.perform setting s).state := by
  intro earlier change later hmoves before
  have hlater := h (move :: earlier) change later (by rw [hmoves]; rfl)
  rwa [playOut_cons] at hlater

theorem of_append {earlier later : List Move}
    (h : LeavesOneShots setting source (earlier ++ later) s) :
    LeavesOneShots setting source earlier s := by
  rintro before change after rfl
  exact h before change (after ++ later) (by simp)

end LeavesOneShots

theorem playOut_spends {moves : List Move} (h : LeavesOneShots setting source moves s) :
    let armed := s.world.oneShots source
    let n := timesNoted setting source moves s
    let ran := playOut setting moves s
    ran.state.world.oneShots source = armed.after n ∧
      ran.events.countP (Event.isSkipOf source) = armed.skipped n := by
  induction moves generalizing s with
  | nil => simp [timesNoted, playOut, forEach, Action.pure]
  | cons move moves ih =>
    obtain ⟨hflags, hskips⟩ := move.perform_spends setting h.head
    obtain ⟨hflags', hskips'⟩ := ih h.tail
    intro armed n ran
    have hn : n = (move.isNoted setting.tuning source s.world).toNat +
        timesNoted setting source moves (move.perform setting s).state := rfl
    have hran : ran = _ := playOut_cons setting move moves s
    rw [hn, hran, OneShots.after_add, OneShots.skipped_add, List.countP_append]
    constructor
    · rw [hflags', hflags]
    · rw [hskips, hskips', hflags]

/-- A provocation by a source whose flags were `armed` at first, after `n` others of which actors
took note. -/
structure Provocation.InTurn (t : Tuning) (source : Entity) (armed : OneShots) (n : Nat)
    (p : Provocation) (s : State) : Prop where
  unnoted_iff : s.world.notes t p.actor source = false ↔
    (∃ refusal, (p.perform t source s).result = .error refusal) ∨
      (∃ c, s.world.controller? p.actor = some c ∧ c.profile.legacyMode = true) ∨
      Threat.isReserved t s.world source = true
  unnoted : s.world.notes t p.actor source = false →
    let call := p.perform t source s
    (∀ total, call.result ≠ .ok (some total)) ∧ call.events = [] ∧
      call.state.world.oneShots source = armed.after n
  skipped : s.world.notes t p.actor source = true → (armed.skip = true ∧ n = 0) →
    let call := p.perform t source s
    call.result = .ok none ∧ call.events = [.threatSkipped p.actor source] ∧
      call.state.world.oneShots source = armed.after (n + 1)
  recorded : s.world.notes t p.actor source = true → ¬ (armed.skip = true ∧ n = 0) →
    let call := p.perform t source s
    ∃ amount total, ((s.world.modifiersOf source).apply t p.base).1 = some amount ∧
      call.result = .ok (some total) ∧
      call.events = [.threatIncreased p.actor source amount total] ∧
      call.state.world.oneShots source = armed.after (n + 1)

theorem Provocation.inTurn (p : Provocation) {armed : OneShots} {n : Nat}
    (h : s.world.oneShots source = armed.after n) : p.InTurn t source armed n s where
  unnoted_iff := by
    have hrefused := p.perform_refusedFor t source s
    rw [World.notes_eq_false_iff, exists_congr hrefused.refused_iff]
  unnoted hnoted := by
    obtain ⟨hresult, hevents, hflags⟩ := p.perform_of_not_noted hnoted
    exact ⟨hresult, hevents, hflags.trans h⟩
  skipped hnoted := by
    rintro ⟨hskip, rfl⟩
    obtain ⟨hresult, hevents, hflags⟩ := p.perform_of_skip hnoted (by simp [h, hskip])
    exact ⟨hresult, hevents, by rw [hflags, h, ← OneShots.after_add]⟩
  recorded hnoted hlater := by
    have hskip : (s.world.oneShots source).skip = false := by
      rw [h]
      simpa [OneShots.after] using hlater
    obtain ⟨amount, total, hamount, hresult, hevents, hflags⟩ := p.perform_of_no_skip hnoted hskip
    exact ⟨amount, total, hamount, hresult, hevents, by rw [hflags, h, ← OneShots.after_add]⟩

/-- As long as the host neither arms nor disarms a source, its flags are spent once, whoever it
provokes and whatever else happens. Provocations that are refused, that meet an actor of the legacy
mode, or that come from a reserved name spend none. Of the others the first goes to an armed skip
and no other is skipped, and the first that is not skipped goes to an armed doubling. -/
theorem playOut_one_shots_spent_once {moves : List Move}
    (h : LeavesOneShots setting source moves s) :
    let armed := s.world.oneShots source
    let n := timesNoted setting source moves s
    let ran := playOut setting moves s
    ran.state.world.oneShots source = armed.after n ∧
      ran.events.countP (Event.isSkipOf source) = armed.skipped n ∧
      ∀ earlier (p : Provocation) later, moves = earlier ++ .ask (p.request source) :: later →
        p.InTurn setting.tuning source armed (timesNoted setting source earlier s)
          (playOut setting earlier s).state := by
  intro armed n ran
  obtain ⟨hflags, hskips⟩ := playOut_spends h
  refine ⟨hflags, hskips, ?_⟩
  rintro earlier p later rfl
  exact p.inTurn (playOut_spends h.of_append).1

/-- A wolf of the legacy mode, two that go by threat, and a traveller whose next threat is to be
skipped and the one after it doubled. -/
def camp : State where
  world :=
    let wolf (profile : Profile) : Components := { controller := some (.ofProfile profile) }
    let traveller : Components := { modifiers := some { skipNext := true, doubleNext := true } }
    let wolves := ((World.empty.spawn (wolf { legacyMode := true })).2.spawn (wolf {})).2
    ((wolves.spawn (wolf {})).2.spawn traveller).2
  random := .cycle [0]
  now := 0
  alerts := ∅

/-- The traveller provokes the wolf that does not go by threat, somebody who is not there, and both
wolves that do. -/
def feint : List Move :=
  [.ask (.increase ⟨0, 1⟩ ⟨3, 1⟩ 100), .ask (.recordDamage ⟨7, 1⟩ ⟨3, 1⟩ 10),
    .host (.setClock 50), .ask (.recordDamage ⟨1, 1⟩ ⟨3, 1⟩ 10), .ask (.decay ⟨1, 1⟩),
    .ask (.increase ⟨2, 1⟩ ⟨3, 1⟩ 50), .ask (.recordDamage ⟨1, 1⟩ ⟨3, 1⟩ 5)]

theorem feint_leavesOneShots : LeavesOneShots {} ⟨3, 1⟩ feint camp := by
  intro earlier change later hmoves
  have hmem : Move.host change ∈ feint := by simp [hmoves]
  obtain rfl : change = .setClock 50 := by simpa [feint] using hmem
  rfl

/-- The wolf that is hit first skips, and the threat that the other takes note of is doubled. -/
theorem feint_spends_one_shots_once :
    LeavesOneShots {} ⟨3, 1⟩ feint camp ∧
      camp.world.oneShots ⟨3, 1⟩ = ⟨true, true⟩ ∧ timesNoted {} ⟨3, 1⟩ feint camp = 3 ∧
      let ran := playOut {} feint camp
      ran.state.world.oneShots ⟨3, 1⟩ = ⟨false, false⟩ ∧
      ran.events.countP (Event.isSkipOf ⟨3, 1⟩) = 1 ∧
      Provocation.InTurn {} ⟨3, 1⟩ ⟨true, true⟩ 0 (.hit ⟨1, 1⟩ 10)
        (playOut {} (feint.take 3) camp).state ∧
      Provocation.InTurn {} ⟨3, 1⟩ ⟨true, true⟩ 1 (.increase ⟨2, 1⟩ 50)
        (playOut {} (feint.take 5) camp).state := by
  have harmed : camp.world.oneShots ⟨3, 1⟩ = ⟨true, true⟩ := by decide +kernel
  have hnoted : timesNoted {} ⟨3, 1⟩ feint camp = 3 := by decide +kernel
  obtain ⟨hflags, hskips, hcalls⟩ := playOut_one_shots_spent_once feint_leavesOneShots
  have hfirst := hcalls (feint.take 3) (.hit ⟨1, 1⟩ 10) (feint.drop 4) rfl
  have hsecond := hcalls (feint.take 5) (.increase ⟨2, 1⟩ 50) (feint.drop 6) rfl
  rw [harmed] at hflags hskips hfirst hsecond
  rw [hnoted] at hflags hskips
  rw [show timesNoted {} ⟨3, 1⟩ (feint.take 3) camp = 0 by decide +kernel] at hfirst
  rw [show timesNoted {} ⟨3, 1⟩ (feint.take 5) camp = 1 by decide +kernel] at hsecond
  exact ⟨feint_leavesOneShots, harmed, hnoted, hflags, hskips, hfirst, hsecond⟩

end Hostility
