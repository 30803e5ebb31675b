import Hostility.Engine.Think

/-!
The engine as its host meets it. A cooldown in seconds that is no length of time makes the engine
panic wherever it is asked for: when old alerts are forgotten, and when an alert is looked up. An
action that panics answers nothing and keeps what it did up to there; one that does not ends as if
nothing could panic. Under any other cooldown nothing panics but a clock that is sent beyond its
last instant.
-/
namespace Hostility

variable {α β : Type} {setting : Setting} {cooldown : Int}

/-- What is left of an outcome whose refusal counts as an answer. A panic stays a panic. -/
def Outcome.caught (o : Outcome (Option α)) : Outcome (Option (Except Refusal α)) where
  result :=
    match o.result with
    | .ok answer? => .ok (answer?.map .ok)
    | .error refusal => .ok (some (.error refusal))
  state := o.state
  events := o.events

/-- Does `m` and answers how it ended. -/
def Action.ending (m : Action α) : Action (Except Refusal α) := fun s =>
  ⟨.ok (m s).result, (m s).state, (m s).events⟩

/-- As `ending`, but a panic is passed on. -/
def Action.catching (m : OptionT Action α) : OptionT Action (Except Refusal α) :=
  OptionT.mk fun s => (m.run s).caught

/-- Moves the clock, and answers what it shows then. -/
def Action.advance? (duration : Int) : OptionT Action Int :=
  OptionT.mk fun s =>
    match Clock.advance? s.now duration with
    | some now => ⟨.ok (some now), { s with now }, []⟩
    | none => ⟨.ok none, s, []⟩

def Alert.propagate? (setting : Setting) (caller enemy : Entity) :
    OptionT Action (List Entity) := do
  let s ← Action.state
  let _ ← (onCooldown? setting.tuning s.alerts s.now enemy).getM
  propagate setting caller enemy

namespace Engine

/-- A think up to its call. The answer is that of the think, and the enemy that it will cry out. -/
def resolve (setting : Setting) (actor : Entity) : Action (Option Entity × Option Entity) := do
  let c ← upkeep setting.tuning actor
  let thinking := c.noteMode.markThought
  let w ← Action.world
  let candidates := found setting w actor thinking
  if candidates.isEmpty then
    let answer ← giveUp actor thinking
    pure (answer, none)
  else
    let (roused, waking) := thinking.rouse actor
    Action.publish waking
    let choice ← choose setting actor roused candidates
    let (settled, news) := settle roused actor choice
    Action.publish news
    Action.storeController actor settled
    pure (settled.target, if c.state = .idle then choice.target? else none)

def cry (setting : Setting) (actor : Entity) : Option Entity → Action Unit
  | some enemy => do
    let _ ← Alert.propagate setting actor enemy
    pure ()
  | none => pure ()

def cry? (setting : Setting) (actor : Entity) : Option Entity → OptionT Action Unit
  | some enemy => do
    let _ ← Alert.propagate? setting actor enemy
    pure ()
  | none => pure ()

def think? (setting : Setting) (actor : Entity) : OptionT Action (Option Entity) := do
  let (answer, enemy?) ← resolve setting actor
  cry? setting actor enemy?
  pure answer

/-- Lets actors think one after the other, up to the first that panics. -/
def thinkEach? (setting : Setting) : List Entity → OptionT Action Unit
  | [] => pure ()
  | actor :: rest => do
    let _ ← Action.catching (think? setting actor)
    thinkEach? setting rest

def update? (setting : Setting) (seconds : Float32) : OptionT Action Nat := do
  let s ← Action.state
  let w := s.world.updateAll (elapse seconds)
  let due := w.entities.filter (isDue w)
  Action.setWorld w
  let table ← (Alert.expire? setting.tuning s.alerts s.now).getM
  Action.setAlerts table
  thinkEach? setting due
  pure due.length

end Engine

theorem Action.lift_run (m : Action α) (s : State) :
    (OptionT.lift m).run s = ⟨(m s).result.map some, (m s).state, (m s).events⟩ := by
  rw [OptionT.run_lift, bind_run]
  rcases m s with ⟨_ | a, s', events⟩
  · rfl
  · simp [Except.map]

/-- What cannot panic goes first. -/
theorem Action.lift_bind_run (m : Action α) (f : α → OptionT Action β) :
    (OptionT.lift m >>= f).run = m >>= fun a => (f a).run := by
  simp [Option.elimM]

theorem Action.bind_run_of_some {m : OptionT Action α} {f : α → OptionT Action β} {s s' : State}
    {a : α} {events : List Event} (h : m.run s = ⟨.ok (some a), s', events⟩) :
    (m >>= f).run s =
      ⟨((f a).run s').result, ((f a).run s').state, events ++ ((f a).run s').events⟩ := by
  rw [OptionT.run_bind, Option.elimM, bind_run, h]
  rfl

theorem Action.bind_run_of_none {m : OptionT Action α} {s s' : State} {events : List Event}
    (h : m.run s = ⟨.ok none, s', events⟩) (f : α → OptionT Action β) :
    (m >>= f).run s = ⟨.ok none, s', events⟩ := by
  rw [OptionT.run_bind, Option.elimM, bind_run, h]
  exact congrArg (Outcome.mk _ _) (List.append_nil events)

theorem Action.map_run (m : OptionT Action α) (f : α → β) (s : State) :
    (m >>= fun a => pure (f a)).run s =
      ⟨(m.run s).result.map (Option.map f), (m.run s).state, (m.run s).events⟩ := by
  rw [OptionT.run_bind, Option.elimM, bind_run]
  rcases m.run s with ⟨_ | _ | a, s', events⟩
  · rfl
  · exact congrArg (Outcome.mk _ _) (List.append_nil events)
  · exact congrArg (Outcome.mk _ _) (List.append_nil events)

theorem Action.advance?_of_shows {s : State} {duration : Int}
    (h : Clock.Shows (s.now + duration)) :
    (advance? duration).run s =
      ⟨.ok (some (s.now + duration)), { s with now := s.now + duration }, []⟩ := by
  show (match Clock.advance? s.now duration with | some now => _ | none => _) = _
  rw [Clock.advance?_of_shows h]

theorem Action.advance?_of_not_shows {s : State} {duration : Int}
    (h : ¬Clock.Shows (s.now + duration)) : (advance? duration).run s = ⟨.ok none, s, []⟩ := by
  show (match Clock.advance? s.now duration with | some now => _ | none => _) = _
  rw [Clock.advance?_of_not_shows h]

theorem Action.catching_lift (m : Action α) :
    catching (OptionT.lift m) = OptionT.lift (ending m) := by
  refine OptionT.ext (funext fun s => ?_)
  refine (congrArg Outcome.caught (lift_run m s)).trans (Eq.trans ?_ (lift_run (ending m) s).symm)
  unfold ending
  rcases m s with ⟨_ | a, s', events⟩ <;> rfl

/-- The action ends as one does that cannot panic. If `fails`, it may panic instead. -/
def Action.PanicsOnlyIf (fails : Prop) (m : OptionT Action α) (sound : Action α) : Prop :=
  ∀ s, m.run s = (OptionT.lift sound).run s ∨ fails ∧ (m.run s).result = .ok none

namespace Action.PanicsOnlyIf

variable {fails : Prop}

theorem lift (m : Action α) : PanicsOnlyIf fails (OptionT.lift m) m := fun _ => .inl rfl

theorem pure (a : α) : PanicsOnlyIf fails (Pure.pure a) (Pure.pure a) := fun _ => .inl rfl

theorem bind {m : OptionT Action α} {sound : Action α} {f : α → OptionT Action β}
    {next : α → Action β} (hm : PanicsOnlyIf fails m sound)
    (hf : ∀ a, PanicsOnlyIf fails (f a) (next a)) :
    PanicsOnlyIf fails (m >>= f) (sound >>= next) := by
  intro s
  rcases hm s with hsame | ⟨hfails, hpanic⟩
  · rw [OptionT.lift_bind, OptionT.run_bind, OptionT.run_bind, Option.elimM, Option.elimM, bind_run,
      bind_run, hsame]
    rcases (OptionT.lift sound).run s with ⟨_ | _ | a, s', events⟩
    · exact .inl rfl
    · exact .inl rfl
    · rcases hf a s' with hsame | ⟨hfails, hpanic⟩
      · exact .inl (congrArg (fun o => Outcome.mk o.result o.state (events ++ o.events)) hsame)
      · exact .inr ⟨hfails, hpanic⟩
  · have hrun : m.run s = ⟨.ok none, (m.run s).state, (m.run s).events⟩ := by rw [← hpanic]
    exact .inr ⟨hfails, congrArg Outcome.result (bind_run_of_none hrun f)⟩

theorem getM_bind {o : Option β} {b : β} {f : β → OptionT Action α} {sound : Action α}
    (h : o = some b ∨ fails ∧ o = none) (hf : PanicsOnlyIf fails (f b) sound) :
    PanicsOnlyIf fails (o.getM >>= f) sound := by
  rcases h with rfl | ⟨hfails, rfl⟩
  · exact hf
  · exact fun s => .inr ⟨hfails, rfl⟩

theorem state_bind {f : State → OptionT Action α} {sound : Action α}
    (hf : ∀ s, PanicsOnlyIf fails (f s) sound) :
    PanicsOnlyIf fails (OptionT.lift Action.state >>= f) sound := fun s => hf s s

theorem catching {m : OptionT Action α} {sound : Action α} (h : PanicsOnlyIf fails m sound) :
    PanicsOnlyIf fails (catching m) (ending sound) := by
  intro s
  rcases h s with hsame | ⟨hfails, hpanic⟩
  · refine .inl ?_
    rw [← catching_lift]
    exact congrArg Outcome.caught hsame
  · refine .inr ⟨hfails, ?_⟩
    show (m.run s).caught.result = _
    rw [Outcome.caught, hpanic]
    rfl

/-- An action that does not fail cannot panic. -/
theorem eq_lift {m : OptionT Action α} {sound : Action α} (h : PanicsOnlyIf fails m sound)
    (hfails : ¬fails) : m = OptionT.lift sound :=
  OptionT.ext (funext fun s => (h s).resolve_right fun hpanic => hfails hpanic.1)

end Action.PanicsOnlyIf

namespace Alert

variable {t : Tuning}

theorem onCooldown?_cases (t : Tuning) (table : AlertTable) (now : Int) (enemy : Entity) :
    onCooldown? t table now enemy = some (onCooldown t table now enemy) ∨
      t.alertCooldown? = none ∧ onCooldown? t table now enemy = none := by
  unfold onCooldown onCooldown?
  cases EntityMap.get? table enemy <;> cases t.alertCooldown? <;> simp

theorem expire?_cases (t : Tuning) (table : AlertTable) (now : Int) :
    expire? t table now = some (expire t table now) ∨
      t.alertCooldown? = none ∧ expire? t table now = none := by
  unfold expire expire?
  cases t.alertCooldown? <;> simp

theorem expire?_of_none (h : t.alertCooldown? = none) (table : AlertTable) (now : Int) :
    expire? t table now = none := by
  simp [expire?, h]

theorem onCooldown_of_cooldown (h : t.alertCooldown? = some cooldown) (table : AlertTable)
    (now : Int) (enemy : Entity) :
    onCooldown t table now enemy =
      match EntityMap.get? table enemy with
      | some cried => decide (now - cried < cooldown)
      | none => false := by
  unfold onCooldown onCooldown?
  cases EntityMap.get? table enemy <;> simp [h]

theorem expire_of_cooldown (h : t.alertCooldown? = some cooldown) (table : AlertTable)
    (now : Int) :
    expire t table now = EntityMap.filter table fun _ cried => decide (now - cried < cooldown) := by
  simp [expire, expire?, h]

end Alert

section Soundness

variable (setting)

open Hostility.Action (PanicsOnlyIf)

/-- Without a cooldown a call may panic. If it does not, it does what it always does. -/
theorem Alert.propagate?_sound (caller enemy : Entity) :
    PanicsOnlyIf (setting.tuning.alertCooldown? = none) (propagate? setting caller enemy)
      (propagate setting caller enemy) :=
  .state_bind fun s =>
    .getM_bind (onCooldown?_cases setting.tuning s.alerts s.now enemy) (.lift _)

namespace Engine

theorem cry?_sound (actor : Entity) (enemy? : Option Entity) :
    PanicsOnlyIf (setting.tuning.alertCooldown? = none) (cry? setting actor enemy?)
      (cry setting actor enemy?) := by
  cases enemy? with
  | none => exact .pure ()
  | some enemy => exact .bind (Alert.propagate?_sound setting actor enemy) fun _ => .pure ()

theorem alarm_eq_cry (actor : Entity) (wokeFrom : Awareness) (enemy? : Option Entity) :
    alarm setting actor wokeFrom enemy? =
      cry setting actor (if wokeFrom = .idle then enemy? else none) := by
  cases enemy? with
  | none => split <;> rfl
  | some enemy =>
    by_cases h : wokeFrom = .idle
    · simp [alarm, cry, h]
    · simp [alarm, cry, h]

theorem think_eq_resolve (actor : Entity) :
    think setting actor = (do
      let (answer, enemy?) ← resolve setting actor
      cry setting actor enemy?
      pure answer) := by
  unfold think resolve
  simp only [bind_assoc]
  congr 1
  funext c
  congr 1
  funext w
  split
  · simp [cry]
  · simp [thinkAmong, alarm_eq_cry]

theorem think?_sound (actor : Entity) :
    PanicsOnlyIf (setting.tuning.alertCooldown? = none) (think? setting actor)
      (think setting actor) := by
  rw [think_eq_resolve]
  exact .bind (.lift _) fun (answer, enemy?) =>
    .bind (cry?_sound setting actor enemy?) fun _ => .pure answer

theorem thinkEach?_sound (due : List Entity) :
    PanicsOnlyIf (setting.tuning.alertCooldown? = none) (thinkEach? setting due)
      (Action.forEach (fun actor => Action.regardless (think setting actor)) due) := by
  induction due with
  | nil => exact .pure ()
  | cons actor due ih => exact .bind (think?_sound setting actor).catching fun _ => ih

theorem update?_sound (seconds : Float32) :
    PanicsOnlyIf (setting.tuning.alertCooldown? = none) (update? setting seconds)
      (update setting seconds) := by
  refine .bind (.lift Action.state) fun s => ?_
  refine .bind (.lift (Action.setWorld (s.world.updateAll (elapse seconds)))) fun _ => ?_
  refine .getM_bind (Alert.expire?_cases setting.tuning s.alerts s.now) ?_
  refine .bind (.lift (Action.setAlerts (Alert.expire setting.tuning s.alerts s.now))) fun _ => ?_
  exact .bind (thinkEach?_sound setting _) fun _ => .pure _

end Engine

end Soundness

namespace Engine

theorem update?_eq (h : setting.tuning.alertCooldown? = some cooldown) (seconds : Float32) :
    update? setting seconds = OptionT.lift (update setting seconds) :=
  (update?_sound setting seconds).eq_lift (by simp [h])

/-- Without a cooldown the timers advance, and then the update panics. -/
theorem update?_of_none (h : setting.tuning.alertCooldown? = none) (seconds : Float32) (s : State) :
    (update? setting seconds).run s =
      ⟨.ok none, { s with world := s.world.updateAll (elapse seconds) }, []⟩ := by
  unfold update?
  simp only [Alert.expire?_of_none h]
  rfl

end Engine

end Hostility
