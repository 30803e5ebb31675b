import Hostility.Proofs.Courses
import Hostility.World.Lemmas

/-!
Runs of a host. The host asks the engine for operations and changes the world around it by itself,
in any order. What every run keeps or follows is what every single move keeps or follows.
-/
namespace Hostility

/-- What a host asks of the engine. A refusal is noted by nobody. -/
inductive Request where
  | think (actor : Entity)
  | update (seconds : Float32)
  | recordDamage (actor attacker : Entity) (amount : Int64)
  | arriveHome (actor : Entity)
  | increase (actor candidate : Entity) (base : Int64)
  | seedCandidates (actor : Entity) (candidates : List Candidate)
  | decay (actor : Entity)
  | prune (actor : Entity)
  | reset (actor : Entity)
  /-- A bias pass on the ledger and the passive state of an actor that has both. -/
  | bias (actor : Entity) (candidates : List Candidate)
  | propagate (caller enemy : Entity)
  | expire

def Request.perform (setting : Setting) : Request → Action Unit
  | .think actor => .regardless (Engine.think setting actor)
  | .update seconds => .regardless (Engine.update setting seconds)
  | .recordDamage actor attacker amount =>
    .regardless (Engine.recordDamage setting.tuning actor attacker amount)
  | .arriveHome actor => .regardless (Engine.arriveHome actor)
  | .increase actor candidate base =>
    .regardless (Threat.increase setting.tuning actor candidate base)
  | .seedCandidates actor candidates =>
    .regardless (Threat.seedCandidates setting.tuning actor candidates)
  | .decay actor => .regardless (Threat.decay setting.tuning actor)
  | .prune actor => .regardless (Threat.prune actor)
  | .reset actor => .regardless (Threat.reset actor)
  | .bias actor candidates => .regardless (Engine.biasPass setting.tuning actor candidates)
  | .propagate caller enemy => .regardless (Alert.propagate setting caller enemy)
  | .expire => do
    let s ← Action.state
    Action.setAlerts (Alert.expire setting.tuning s.alerts s.now)

/-- What a host changes by itself. -/
inductive Change where
  | spawn (parts : Components)
  | despawn (e : Entity)
  /-- Whatever becomes of the parts of one entity. -/
  | edit (e : Entity) (f : Components → Components)
  | setClock (now : Int)
  | setRandom (random : RandomSource)

def Change.apply (s : State) : Change → State
  | .spawn parts => { s with world := (s.world.spawn parts).2 }
  | .despawn e => { s with world := s.world.despawn e }
  | .edit e f => { s with world := s.world.update e f }
  | .setClock now => { s with now }
  | .setRandom random => { s with random }

/-- What an entity is made of after a change: it was made of it before, was edited, or has just
arrived. -/
theorem Change.get?_apply {s : State} {change : Change} {e : Entity} {parts : Components}
    (h : (change.apply s).world.get? e = some parts) :
    s.world.get? e = some parts ∨
      (∃ f old, change = .edit e f ∧ s.world.get? e = some old ∧ parts = f old) ∨
      change = .spawn parts ∧ e = (s.world.spawn parts).1 := by
  cases change with
  | setClock now => exact .inl h
  | setRandom random => exact .inl h
  | edit k f =>
    rw [apply, World.get?_update] at h
    split at h
    · next hk =>
      subst hk
      obtain ⟨old, hold, rfl⟩ := Option.map_eq_some_iff.mp h
      exact .inr (.inl ⟨f, old, rfl, hold, rfl⟩)
    · exact .inl h
  | despawn k =>
    rw [apply, World.get?_despawn] at h
    split at h
    · cases h
    · exact .inl h
  | spawn newcomer =>
    rw [apply, World.get?_spawn] at h
    split at h
    · next he =>
      obtain rfl := Option.some.inj h
      exact .inr (.inr ⟨rfl, he⟩)
    · exact .inl h

inductive Move where
  | ask (request : Request)
  | host (change : Change)

def Move.perform (setting : Setting) : Move → Action Unit
  | .ask request => request.perform setting
  | .host change => fun s => ⟨.ok (), change.apply s, []⟩

/-- One move after the other. -/
def playOut (setting : Setting) (moves : List Move) : Action Unit :=
  Action.forEach (Move.perform setting) moves

/-- A refused request does not end a run. -/
theorem playOut_accepted (setting : Setting) (moves : List Move) :
    (playOut setting moves).Accepted := by
  refine .forEach (fun move => ?_) moves
  cases move with
  | host change => exact fun _ => ⟨(), rfl⟩
  | ask request =>
    cases request with
    | expire => exact fun _ => ⟨(), rfl⟩
    | _ => exact .regardless _

theorem state_playOut_append (setting : Setting) (earlier later : List Move) (s : State) :
    (playOut setting (earlier ++ later) s).state =
      (playOut setting later (playOut setting earlier s).state).state := by
  obtain ⟨_, hplayed⟩ := playOut_accepted setting earlier s
  have hsplit : playOut setting (earlier ++ later) =
      playOut setting earlier >>= fun _ => playOut setting later := Action.forEach_append _ _ _
  rw [hsplit, Action.bind_of_ok hplayed]

/-- The last move of a run is made in the state that the others lead to. -/
theorem state_playOut_snoc (setting : Setting) (moves : List Move) (move : Move) (s : State) :
    (playOut setting (moves ++ [move]) s).state =
      (move.perform setting (playOut setting moves s).state).state := by
  have hlast : playOut setting [move] = move.perform setting >>= pure := rfl
  rw [state_playOut_append, hlast, bind_pure]

/-- Every actor is as it was when it was made. -/
def World.AllFresh (w : World) : Prop := ∀ e c, w.controller? e = some c → c = .ofProfile c.profile

theorem World.allFresh_empty : World.empty.AllFresh := by
  intro e c hc
  simp [controller?, get?, empty] at hc

theorem World.AllFresh.spawn {w : World} {parts : Components} (h : w.AllFresh)
    (hparts : ∀ c, parts.controller = some c → c = .ofProfile c.profile) :
    (w.spawn parts).2.AllFresh := by
  intro e c hc
  rw [controller?, get?_spawn] at hc
  split at hc
  · exact hparts c hc
  · exact h e c hc

/-- Two wolves of one pack and a traveller in their sight. -/
def encounter : State where
  world :=
    let wolf : Components :=
      { position := some ⟨0.0, 0.0, 0.0⟩
        allegiance := some ⟨.neutral, .ofFriends "wolf" []⟩
        controller := some (.ofProfile {}) }
    let traveller : Components :=
      { position := some ⟨3.0, 0.0, 0.0⟩
        targetable := some .player }
    (((World.empty.spawn wolf).2.spawn wolf).2.spawn traveller).2
  random := .cycle [0]
  now := 0
  alerts := ∅

theorem encounter_allFresh : encounter.world.AllFresh := by
  refine ((World.allFresh_empty.spawn ?_).spawn ?_).spawn ?_
  · rintro c ⟨⟩
    rfl
  · rintro c ⟨⟩
    rfl
  · rintro c ⟨⟩

end Hostility
