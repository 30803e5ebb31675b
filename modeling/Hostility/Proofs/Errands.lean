import Hostility.Engine.Panic
import Hostility.Proofs.Calls
import Hostility.Proofs.Pieces

/-!
Who calls for help, and when. A think is what it does up to its call, and the call; an update is a
lapse of old alerts and a pass over the due actors. Along a run of errands the calls are written
down, each with its time and with those who answer it, and the alerts that the run publishes are
those of its calls. A run that panics ends there; under a cooldown that is a length of time this
happens only where the clock would have to go beyond its last instant.
-/
namespace Hostility

variable {t : Tuning} {setting : Setting} {cooldown : Int}

open Hostility.Action (PanicsOnlyIf)

namespace Alert

/-- A call for help, and those who answer it. -/
structure Call where
  time : Int
  caller : Entity
  enemy : Entity
  allies : List Entity
  deriving DecidableEq

/-- The call that a caller makes in a state. -/
def Call.made (setting : Setting) (caller enemy : Entity) (s : State) : Call where
  time := s.now
  caller := caller
  enemy := enemy
  allies :=
    match (propagate setting caller enemy s).result with
    | .ok allies => allies
    | .error _ => []

/-- The alerts that a call publishes. -/
def Call.alerts (call : Call) : List Event :=
  call.allies.map fun ally => .allyAlerted call.caller ally call.enemy

/-- Forgets the alerts that are no longer too recent. -/
def lapse (t : Tuning) : Action Unit := do
  let s ← Action.state
  Action.setAlerts (expire t s.alerts s.now)

def lapse? (t : Tuning) : OptionT Action Unit := do
  let s ← Action.state
  let table ← (expire? t s.alerts s.now).getM
  Action.setAlerts table

theorem lapse?_sound (t : Tuning) :
    PanicsOnlyIf (t.alertCooldown? = none) (lapse? t) (lapse t) :=
  .bind (.lift Action.state) fun s => .getM_bind (expire?_cases t s.alerts s.now) (.lift _)

end Alert

def Event.isAlert : Event → Bool
  | .allyAlerted _ _ _ => true
  | _ => false

namespace Engine

/-- The calls of a think: one at most. -/
def thinkCalls (setting : Setting) (actor : Entity) (s : State) : List Alert.Call :=
  match (resolve setting actor s).result with
  | .ok (_, some enemy) => [.made setting actor enemy (resolve setting actor s).state]
  | _ => []

/-- Advances every think timer and lets the due actors think, but forgets no alerts. -/
def pass (setting : Setting) (seconds : Float32) : Action Nat := do
  let before ← Action.world
  let w := before.updateAll (elapse seconds)
  let due := w.entities.filter (isDue w)
  Action.setWorld w
  Action.forEach (fun actor => Action.regardless (think setting actor)) due
  pure due.length

theorem pass_follows {R : Course} (h : R.Pieces setting) (seconds : Float32) :
    Action.Follows R (pass setting seconds) := by
  intro s
  unfold pass
  rw [Action.world_bind]
  refine h.closed.bind (h.elapse seconds s) fun _ _ => ?_
  exact Action.Follows.bind h.closed
    (.forEach h.closed fun actor _ => .regardless (h.think actor)) (fun _ => .pure h.closed _) _

/-- A pass up to the first think that panics. -/
def pass? (setting : Setting) (seconds : Float32) : OptionT Action Nat := do
  let before ← Action.world
  let w := before.updateAll (elapse seconds)
  let due := w.entities.filter (isDue w)
  Action.setWorld w
  thinkEach? setting due
  pure due.length

theorem pass?_sound (setting : Setting) (seconds : Float32) :
    PanicsOnlyIf (setting.tuning.alertCooldown? = none) (pass? setting seconds)
      (pass setting seconds) := by
  refine .bind (.lift Action.world) fun before => ?_
  refine .bind (.lift (Action.setWorld (before.updateAll (elapse seconds)))) fun _ => ?_
  exact .bind (thinkEach?_sound setting _) fun _ => .pure _

theorem update_eq_pass (setting : Setting) (seconds : Float32) :
    update setting seconds = (do
      Alert.lapse setting.tuning
      pass setting seconds) := rfl

/-- The calls of actors that think one after the other. -/
def thinkCallsOf (setting : Setting) : List Entity → State → List Alert.Call
  | [], _ => []
  | actor :: rest, s =>
    thinkCalls setting actor s ++ thinkCallsOf setting rest (think setting actor s).state

def passCalls (setting : Setting) (seconds : Float32) (s : State) : List Alert.Call :=
  let w := s.world.updateAll (elapse seconds)
  thinkCallsOf setting (w.entities.filter (isDue w)) { s with world := w }

end Engine

def Action.advance (duration : Int) : Action Unit := fun s =>
  ⟨.ok (), { s with now := s.now + duration }, []⟩

/-- What is asked of the engine, of its alerts and of the clock. -/
inductive Errand where
  | think (actor : Entity)
  | update (seconds : Float32)
  /-- An update that forgets no alerts. -/
  | pass (seconds : Float32)
  | propagate (caller enemy : Entity)
  | expire
  /-- The clock moves on by some nanoseconds. -/
  | advance (duration : Int)
  /-- Whether an alert about an enemy would come too soon. -/
  | ask (enemy : Entity)

/-- What an errand is answered. -/
inductive Answer where
  | target (answer : Except Refusal (Option Entity))
  | due (count : Except Refusal Nat)
  | allies (answering : Except Refusal (List Entity))
  | onCooldown (tooSoon : Bool)

namespace Errand

/-- How far the clock is moved. -/
def duration : Errand → Int
  | advance duration => duration
  | _ => 0

def GoesForward (errand : Errand) : Prop := 0 ≤ errand.duration

/-- The clock goes as far as the errand moves it. -/
def Fits : Errand → State → Prop
  | advance duration, s => Clock.Shows (s.now + duration)
  | _, _ => True

instance : (errand : Errand) → (s : State) → Decidable (errand.Fits s)
  | advance duration, s => inferInstanceAs (Decidable (Clock.Shows (s.now + duration)))
  | think _, _ | update _, _ | pass _, _ | propagate _ _, _ | expire, _ | ask _, _ =>
    inferInstanceAs (Decidable True)

theorem fits_of_shows {errand : Errand} {s : State}
    (h : Clock.Shows (s.now + errand.duration)) : errand.Fits s := by
  cases errand with
  | advance duration => exact h
  | _ => exact trivial

theorem fits_congr {s s' : State} (h : s'.now = s.now) (errand : Errand) :
    errand.Fits s' ↔ errand.Fits s := by
  cases errand with
  | advance duration => exact iff_of_eq (congrArg (fun now => Clock.Shows (now + duration)) h)
  | _ => exact Iff.rfl

def perform? (setting : Setting) : Errand → OptionT Action (List Answer)
  | think actor => do
    let answer ← Action.catching (Engine.think? setting actor)
    pure [.target answer]
  | update seconds => do
    let count ← Action.catching (Engine.update? setting seconds)
    pure [.due count]
  | pass seconds => do
    let count ← Action.catching (Engine.pass? setting seconds)
    pure [.due count]
  | propagate caller enemy => do
    let answering ← Action.catching (Alert.propagate? setting caller enemy)
    pure [.allies answering]
  | expire => do
    Alert.lapse? setting.tuning
    pure []
  | advance duration => do
    let _ ← Action.advance? duration
    pure []
  | ask enemy => do
    let s ← Action.state
    let tooSoon ← (Alert.onCooldown? setting.tuning s.alerts s.now enemy).getM
    pure [.onCooldown tooSoon]

/-- An errand as if nothing could panic. -/
def perform (setting : Setting) : Errand → Action (List Answer)
  | think actor => do
    let answer ← Action.ending (Engine.think setting actor)
    pure [.target answer]
  | update seconds => do
    let count ← Action.ending (Engine.update setting seconds)
    pure [.due count]
  | pass seconds => do
    let count ← Action.ending (Engine.pass setting seconds)
    pure [.due count]
  | propagate caller enemy => do
    let answering ← Action.ending (Alert.propagate setting caller enemy)
    pure [.allies answering]
  | expire => do
    Alert.lapse setting.tuning
    pure []
  | advance duration => do
    Action.advance duration
    pure []
  | ask enemy => do
    let s ← Action.state
    pure [.onCooldown (Alert.onCooldown setting.tuning s.alerts s.now enemy)]

theorem perform_accepted (setting : Setting) (errand : Errand) :
    (errand.perform setting).Accepted := by
  intro s
  cases errand <;> exact ⟨_, rfl⟩

/-- Without a cooldown an errand may panic. With one only those of the clock may. -/
theorem perform?_sound (setting : Setting) {errand : Errand}
    (hclock : ∀ duration, errand ≠ advance duration) :
    PanicsOnlyIf (setting.tuning.alertCooldown? = none) (errand.perform? setting)
      (errand.perform setting) := by
  cases errand with
  | think actor => exact .bind (Engine.think?_sound setting actor).catching fun _ => .pure _
  | update seconds => exact .bind (Engine.update?_sound setting seconds).catching fun _ => .pure _
  | pass seconds => exact .bind (Engine.pass?_sound setting seconds).catching fun _ => .pure _
  | propagate caller enemy =>
    exact .bind (Alert.propagate?_sound setting caller enemy).catching fun _ => .pure _
  | expire => exact .bind (Alert.lapse?_sound setting.tuning) fun _ => .pure []
  | advance duration => exact absurd rfl (hclock duration)
  | ask enemy =>
    exact .bind (.lift Action.state) fun s =>
      .getM_bind (Alert.onCooldown?_cases setting.tuning s.alerts s.now enemy) (.pure _)

theorem perform?_of_fits (h : setting.tuning.alertCooldown? = some cooldown) {errand : Errand}
    {s : State} (hfits : errand.Fits s) :
    ∃ answers, (errand.perform setting s).result = .ok answers ∧
      (errand.perform? setting).run s =
        ⟨.ok (some answers), (errand.perform setting s).state,
          (errand.perform setting s).events⟩ := by
  by_cases hclock : ∃ duration, errand = advance duration
  · obtain ⟨duration, rfl⟩ := hclock
    exact ⟨[], rfl, Action.bind_run_of_some (Action.advance?_of_shows hfits)⟩
  · obtain ⟨answers, hanswers⟩ := errand.perform_accepted setting s
    refine ⟨answers, hanswers, ?_⟩
    have hsound := perform?_sound setting fun duration heq => hclock ⟨duration, heq⟩
    rw [hsound.eq_lift (by simp [h]), Action.lift_run, hanswers]
    rfl

theorem perform?_of_not_fits {errand : Errand} {s : State} (hfits : ¬errand.Fits s) :
    (errand.perform? setting).run s = ⟨.ok none, s, []⟩ := by
  cases errand with
  | advance duration => exact Action.bind_run_of_none (Action.advance?_of_not_shows hfits) _
  | _ => exact absurd trivial hfits

theorem perform_now (setting : Setting) (errand : Errand) (s : State) :
    (errand.perform setting s).state.now = s.now + errand.duration := by
  have hpieces := Course.timeless_pieces setting
  cases errand with
  | think actor => exact (hpieces.think actor s).trans (Int.add_zero _).symm
  | update seconds => exact (hpieces.update seconds s).trans (Int.add_zero _).symm
  | pass seconds => exact (Engine.pass_follows hpieces seconds s).trans (Int.add_zero _).symm
  | propagate caller enemy => exact (hpieces.propagate caller enemy s).trans (Int.add_zero _).symm
  | advance duration => rfl
  | expire => exact (Int.add_zero _).symm
  | ask enemy => exact (Int.add_zero _).symm

/-- The calls of an errand. -/
def calls (setting : Setting) : Errand → State → List Alert.Call
  | think actor, s => Engine.thinkCalls setting actor s
  | update seconds, s => Engine.passCalls setting seconds (Alert.lapse setting.tuning s).state
  | pass seconds, s => Engine.passCalls setting seconds s
  | propagate caller enemy, s => [.made setting caller enemy s]
  | expire, _ | advance _, _ | ask _, _ => []

end Errand

/-- One errand after the other, with all the answers. -/
def runErrands? (setting : Setting) : List Errand → OptionT Action (List Answer)
  | [] => pure []
  | errand :: rest => do
    let answers ← errand.perform? setting
    let others ← runErrands? setting rest
    pure (answers ++ others)

/-- The calls of a run of errands, in the order in which they are made. -/
def callsOf (setting : Setting) : List Errand → State → List Alert.Call
  | [], _ => []
  | errand :: rest, s =>
    if errand.Fits s then
      errand.calls setting s ++ callsOf setting rest (errand.perform setting s).state
    else []

/-- How far a run moves the clock. -/
def elapsed : List Errand → Int
  | [] => 0
  | errand :: rest => errand.duration + elapsed rest

theorem elapsed_nonneg {errands : List Errand}
    (hforth : ∀ errand ∈ errands, errand.GoesForward) : 0 ≤ elapsed errands := by
  induction errands with
  | nil => exact Int.le_refl 0
  | cons errand errands ih =>
    obtain ⟨hfirst, hrest⟩ := List.forall_mem_cons.mp hforth
    exact Int.add_nonneg hfirst (ih hrest)

section Run

variable {errand : Errand} {errands : List Errand} {s : State}

theorem runErrands?_of_fits (h : setting.tuning.alertCooldown? = some cooldown)
    (hfits : errand.Fits s) (errands : List Errand) :
    let done := errand.perform setting s
    let later := (runErrands? setting errands).run done.state
    ∃ answers, done.result = .ok answers ∧
      (runErrands? setting (errand :: errands)).run s =
        ⟨later.result.map (Option.map (answers ++ ·)), later.state,
          done.events ++ later.events⟩ := by
  intro done later
  obtain ⟨answers, hanswers, hdone⟩ := Errand.perform?_of_fits h hfits
  refine ⟨answers, hanswers, (Action.bind_run_of_some hdone).trans ?_⟩
  rw [Action.map_run]

theorem runErrands?_of_not_fits (hfits : ¬errand.Fits s) (errands : List Errand) :
    (runErrands? setting (errand :: errands)).run s = ⟨.ok none, s, []⟩ :=
  Action.bind_run_of_none (Errand.perform?_of_not_fits hfits) _

/-- A run that goes forward reaches its end if the clock does. -/
theorem runErrands?_goes_through (h : setting.tuning.alertCooldown? = some cooldown)
    (hforth : ∀ errand ∈ errands, errand.GoesForward) (hnow : Clock.earliest ≤ s.now)
    (hlast : s.now + elapsed errands ≤ Clock.latest) :
    ∃ answers, ((runErrands? setting errands).run s).result = .ok (some answers) := by
  induction errands generalizing s with
  | nil => exact ⟨[], rfl⟩
  | cons errand errands ih =>
    obtain ⟨hfirst, hrest⟩ := List.forall_mem_cons.mp hforth
    have hlater := elapsed_nonneg hrest
    unfold Errand.GoesForward at hfirst
    rw [elapsed] at hlast
    have hfits : errand.Fits s := Errand.fits_of_shows ⟨by omega, by omega⟩
    obtain ⟨answers, -, hrun⟩ := runErrands?_of_fits h hfits errands
    have hdone := errand.perform_now setting s
    obtain ⟨others, hothers⟩ := ih hrest (s := (errand.perform setting s).state)
      (by omega) (by omega)
    exact ⟨answers ++ others, by rw [hrun, hothers]; rfl⟩

end Run

end Hostility
