import Hostility.Random.Source
import Hostility.World.Basic

/-!
Actions of the engine. An action starts from a state and ends in one; on the way it publishes
events, and it may be refused. A refused action keeps what it did before the refusal.

The state is what decisions change: the world, the random source, the clock and the table of
alerts.
-/
namespace Hostility

/-- Why the engine refuses. Anything odd that it meets in the world on its way is no reason. -/
inductive Refusal where
  | noSuchEntity (e : Entity)
  | notAnActor (e : Entity)
  deriving DecidableEq, Repr

def Refusal.message : Refusal → String
  | .noSuchEntity e => "No such entity: " ++ e.text
  | .notAnActor e => "Entity is not a hostile actor: " ++ e.text

/-- When each enemy was last cried out. -/
abbrev AlertTable := EntityMap Int

structure State where
  world : World
  random : RandomSource
  /-- Nanoseconds since the epoch. -/
  now : Int
  alerts : AlertTable
  deriving DecidableEq

/-- How an action ends. -/
structure Outcome (α : Type) where
  result : Except Refusal α
  state : State
  /-- The published events, oldest first. -/
  events : List Event

def Action (α : Type) : Type := State → Outcome α

namespace Action

variable {α β : Type}

protected def pure (a : α) : Action α := fun s => ⟨.ok a, s, []⟩

protected def bind (m : Action α) (f : α → Action β) : Action β := fun s =>
  match m s with
  | ⟨.error refusal, s', events⟩ => ⟨.error refusal, s', events⟩
  | ⟨.ok a, s', events⟩ =>
    let next := f a s'
    ⟨next.result, next.state, events ++ next.events⟩

instance : Monad Action where
  pure := Action.pure
  bind := Action.bind

def refuse (refusal : Refusal) : Action α := fun s => ⟨.error refusal, s, []⟩

def publish (events : List Event) : Action Unit := fun s => ⟨.ok (), s, events⟩

def state : Action State := fun s => ⟨.ok s, s, []⟩

def world : Action World := fun s => ⟨.ok s.world, s, []⟩

def setWorld (w : World) : Action Unit := fun s => ⟨.ok (), { s with world := w }, []⟩

def setAlerts (table : AlertTable) : Action Unit :=
  fun s => ⟨.ok (), { s with alerts := table }, []⟩

def draw (f : RandomSource → α × RandomSource) : Action α := fun s =>
  ⟨.ok (f s.random).1, { s with random := (f s.random).2 }, []⟩

/-- Gives an entity a part that it may lack. -/
def insert (e : Entity) (f : Components → Components) : Action Unit := fun s =>
  if s.world.contains e then ⟨.ok (), { s with world := s.world.update e f }, []⟩
  else ⟨.error (.noSuchEntity e), s, []⟩

def controllerOf (actor : Entity) : Action Controller := fun s =>
  if s.world.contains actor then
    match s.world.controller? actor with
    | some c => ⟨.ok c, s, []⟩
    | none => ⟨.error (.notAnActor actor), s, []⟩
  else
    ⟨.error (.noSuchEntity actor), s, []⟩

def storeController (actor : Entity) (c : Controller) : Action Unit := fun s =>
  match s.world.controller? actor with
  | some _ => ⟨.ok (), { s with world := s.world.setController actor c }, []⟩
  | none => ⟨.error (.notAnActor actor), s, []⟩

def when (condition : Bool) (m : Action Unit) : Action Unit :=
  if condition then m else Action.pure ()

/-- Does `m` and goes on even if it is refused. -/
def regardless (m : Action α) : Action Unit := fun s => ⟨.ok (), (m s).state, (m s).events⟩

/-- Does `m` and goes on after the refusals that `tolerated` names. -/
def tolerating (tolerated : Refusal → Bool) (m : Action α) : Action Unit := fun s =>
  match m s with
  | ⟨.ok _, s', events⟩ => ⟨.ok (), s', events⟩
  | ⟨.error refusal, s', events⟩ =>
    if tolerated refusal then ⟨.ok (), s', events⟩ else ⟨.error refusal, s', events⟩

def forEach (f : β → Action Unit) : List β → Action Unit
  | [] => Action.pure ()
  | b :: rest => Action.bind (f b) fun _ => forEach f rest

@[simp] theorem pure_run (a : α) (s : State) : (pure a : Action α) s = ⟨.ok a, s, []⟩ := rfl

theorem bind_run (m : Action α) (f : α → Action β) (s : State) :
    (m >>= f) s =
      match m s with
      | ⟨.error refusal, s', events⟩ => ⟨.error refusal, s', events⟩
      | ⟨.ok a, s', events⟩ =>
        ⟨(f a s').result, (f a s').state, events ++ (f a s').events⟩ := rfl

theorem bind_pure_run (m : Action α) : m >>= pure = m := by
  funext s
  rw [bind_run]
  rcases m s with ⟨_ | _, _, _⟩ <;> simp

theorem pure_bind_run (a : α) (f : α → Action β) : (pure a : Action α) >>= f = f a := by
  funext s
  rw [bind_run]
  simp

theorem bind_assoc_run {γ : Type} (m : Action α) (f : α → Action β) (g : β → Action γ) :
    m >>= f >>= g = m >>= fun a => f a >>= g := by
  funext s
  simp only [bind_run]
  rcases m s with ⟨_ | a, s', _⟩
  · rfl
  · rcases h : f a s' with ⟨_ | b, s'', _⟩ <;> simp [h]

instance : LawfulMonad Action :=
  LawfulMonad.mk' Action (fun m => bind_pure_run m) pure_bind_run bind_assoc_run

theorem forEach_append (f : β → Action Unit) (l l' : List β) :
    forEach f (l ++ l') = forEach f l >>= fun _ => forEach f l' := by
  induction l with
  | nil => exact (pure_bind_run () fun _ => forEach f l').symm
  | cons b l ih =>
    show f b >>= (fun _ => forEach f (l ++ l')) = (f b >>= fun _ => forEach f l) >>= _
    rw [bind_assoc_run, ih]

theorem bind_of_ok {m : Action α} {f : α → Action β} {s : State} {a : α}
    (h : (m s).result = .ok a) :
    (m >>= f) s = ⟨(f a (m s).state).result, (f a (m s).state).state,
      (m s).events ++ (f a (m s).state).events⟩ := by
  rw [bind_run]
  rcases hm : m s with ⟨_ | b, s', events⟩
  · simp [hm] at h
  · obtain rfl : b = a := by simpa [hm] using h
    rfl

theorem bind_of_error {m : Action α} {f : α → Action β} {s : State} {refusal : Refusal}
    (h : (m s).result = .error refusal) :
    (m >>= f) s = ⟨.error refusal, (m s).state, (m s).events⟩ := by
  rw [bind_run]
  rcases hm : m s with ⟨r | b, s', events⟩
  · obtain rfl : r = refusal := by simpa [hm] using h
    rfl
  · simp [hm] at h

theorem ok_of_bind_ok {m : Action α} {f : α → Action β} {s : State} {b : β}
    (h : ((m >>= f) s).result = .ok b) :
    ∃ a, (m s).result = .ok a ∧ (f a (m s).state).result = .ok b := by
  cases hm : (m s).result with
  | error refusal =>
    rw [bind_of_error hm] at h
    cases h
  | ok a =>
    rw [bind_of_ok hm] at h
    exact ⟨a, rfl, h⟩

@[simp] theorem state_bind (f : State → Action β) (s : State) : (state >>= f) s = f s s := rfl

@[simp] theorem world_bind (f : World → Action β) (s : State) : (world >>= f) s = f s.world s := rfl

@[simp] theorem setWorld_bind (w : World) (f : Unit → Action β) (s : State) :
    (setWorld w >>= f) s = f () { s with world := w } := rfl

@[simp] theorem setAlerts_bind (table : AlertTable) (f : Unit → Action β) (s : State) :
    (setAlerts table >>= f) s = f () { s with alerts := table } := rfl

@[simp] theorem publish_bind (events : List Event) (f : Unit → Action β) (s : State) :
    (publish events >>= f) s =
      ⟨(f () s).result, (f () s).state, events ++ (f () s).events⟩ := rfl

@[simp] theorem when_true (m : Action Unit) : when true m = m := rfl

@[simp] theorem when_false (m : Action Unit) : when false m = pure () := rfl

theorem insert_of_contains {e : Entity} {s : State} (h : s.world.contains e = true)
    (f : Components → Components) :
    insert e f s = ⟨.ok (), { s with world := s.world.update e f }, []⟩ := by
  simp [insert, h]

theorem controllerOf_eq {actor : Entity} {s : State} {c : Controller}
    (h : s.world.controller? actor = some c) : controllerOf actor s = ⟨.ok c, s, []⟩ := by
  have hw : s.world.contains actor = true := by
    obtain ⟨parts, hparts, -⟩ := Option.bind_eq_some_iff.mp h
    simp [World.contains, hparts]
  simp [controllerOf, hw, h]

theorem controllerOf_of_none {actor : Entity} {s : State} (h : s.world.controller? actor = none) :
    ∃ refusal, controllerOf actor s = ⟨.error refusal, s, []⟩ := by
  unfold controllerOf
  split
  · exact ⟨_, by rw [h]⟩
  · exact ⟨_, rfl⟩

theorem storeController_eq {actor : Entity} {s : State} {old : Controller}
    (h : s.world.controller? actor = some old) (c : Controller) :
    storeController actor c s =
      ⟨.ok (), { s with world := s.world.setController actor c }, []⟩ := by
  simp [storeController, h]

end Action

end Hostility
