import Hostility.Controller

/-!
What a listener makes of the events alone. It starts from the belief that everyone is idle and has
no target, and changes that belief event by event. What a controller publishes when it changes is
true of what such a listener believes, and makes it believe what the controller now holds.
-/
namespace Hostility

/-- What is believed of one actor. -/
structure Belief where
  state : Awareness
  target : Option Entity
  deriving DecidableEq

/-- What is believed of everyone. -/
abbrev Beliefs := Entity → Belief

namespace Beliefs

def initial : Beliefs := fun _ => ⟨.idle, none⟩

def set (b : Beliefs) (e : Entity) (belief : Belief) : Beliefs :=
  fun k => if k = e then belief else b k

/-- The belief after one event. An actor that goes idle has no target any more. -/
def hear (b : Beliefs) : Event → Beliefs
  | .stateChanged a _ after => b.set a ⟨after, if after = .idle then none else (b a).target⟩
  | .newEnemy a _ enemy => b.set a { b a with target := some enemy }
  | .allyAlerted _ ally enemy => b.set ally { b ally with target := some enemy }
  | .targetLost a _ => b.set a { b a with target := none }
  | _ => b

def hearAll (b : Beliefs) (events : List Event) : Beliefs := events.foldl hear b

/-- An event says nothing that is at odds with what was believed before it, and names no target as
acquired that is not believed to be the target afterwards. -/
def Agrees (b : Beliefs) : Event → Prop
  | .stateChanged a before after => before = (b a).state ∧ before ≠ after
  | .newEnemy a previous _ => previous = (b a).target
  | .targetLost a target => some target = (b a).target
  | .targetAcquired a target => some target = (b.hear (.targetAcquired a target) a).target
  | _ => True

/-- Every event agrees with what was believed right before it. -/
def AllAgree (b : Beliefs) : List Event → Prop
  | [] => True
  | e :: rest => b.Agrees e ∧ (b.hear e).AllAgree rest

@[simp] theorem set_apply (b : Beliefs) (e k : Entity) (belief : Belief) :
    b.set e belief k = if k = e then belief else b k := rfl

@[simp] theorem set_set (b : Beliefs) (e : Entity) (x y : Belief) :
    (b.set e x).set e y = b.set e y := by
  funext k
  by_cases h : k = e <;> simp [h]

theorem set_of_eq {b : Beliefs} {e : Entity} {x : Belief} (h : b e = x) : b.set e x = b := by
  funext k
  by_cases hk : k = e <;> simp [hk, h]

@[simp] theorem hearAll_nil (b : Beliefs) : b.hearAll [] = b := rfl

@[simp] theorem hearAll_cons (b : Beliefs) (e : Event) (events : List Event) :
    b.hearAll (e :: events) = (b.hear e).hearAll events := rfl

theorem hearAll_append (b : Beliefs) (events events' : List Event) :
    b.hearAll (events ++ events') = (b.hearAll events).hearAll events' :=
  List.foldl_append

theorem allAgree_append {b : Beliefs} {events events' : List Event} (h : b.AllAgree events)
    (h' : (b.hearAll events).AllAgree events') : b.AllAgree (events ++ events') := by
  induction events generalizing b with
  | nil => exact h'
  | cons e events ih => exact ⟨h.1, ih h.2 h'⟩

theorem agrees_of_allAgree {b : Beliefs} {before after : List Event} {e : Event}
    (h : b.AllAgree (before ++ e :: after)) : (b.hearAll before).Agrees e := by
  induction before generalizing b with
  | nil => exact h.1
  | cons e' before ih => exact ih h.2

end Beliefs

/-- An event that tells a listener nothing of anyone's state or target. -/
def Event.IsQuiet (e : Event) : Prop := ∀ b : Beliefs, b.Agrees e ∧ b.hear e = b

theorem Beliefs.hearAll_of_quiet {events : List Event} (h : ∀ e ∈ events, e.IsQuiet)
    (b : Beliefs) : b.AllAgree events ∧ b.hearAll events = b := by
  induction events with
  | nil => exact ⟨trivial, rfl⟩
  | cons e events ih =>
    have he := h e (by simp) b
    have hrest := ih fun e' he' => h e' (by simp [he'])
    rw [hearAll_cons, he.2]
    exact ⟨⟨he.1, he.2.symm ▸ hrest.1⟩, hrest.2⟩

/-- A controller as a listener sees it. -/
def Controller.belief (c : Controller) : Belief := ⟨c.state, c.target⟩

/-- The events bring a listener who is right about one actor from one controller of it to the
next, and leave it in its belief about everyone else. -/
def Reports (actor : Entity) (c : Controller) (events : List Event) (c' : Controller) : Prop :=
  ∀ b : Beliefs, b actor = c.belief →
    b.AllAgree events ∧ b.hearAll events = b.set actor c'.belief

namespace Reports

variable {actor : Entity} {c c' c'' : Controller} {events events' : List Event}

theorem silent (h : c'.belief = c.belief) (hq : ∀ e ∈ events, e.IsQuiet) :
    Reports actor c events c' := by
  intro b hb
  have hall := b.hearAll_of_quiet hq
  rw [hall.2, h, Beliefs.set_of_eq hb]
  exact ⟨hall.1, rfl⟩

theorem append (h : Reports actor c events c') (h' : Reports actor c' events' c'') :
    Reports actor c (events ++ events') c'' := by
  intro b hb
  obtain ⟨hagree, hheard⟩ := h b hb
  have hnow : b.hearAll events actor = c'.belief := by rw [hheard]; simp
  obtain ⟨hagree', hheard'⟩ := h' _ hnow
  refine ⟨Beliefs.allAgree_append hagree hagree', ?_⟩
  rw [Beliefs.hearAll_append, hheard', hheard, Beliefs.set_set]

end Reports

namespace Controller

variable (actor : Entity) (c : Controller)

/-- A change of state keeps the target, except that the idle have none. -/
theorem transition_reports (next : Awareness) (h : next = .idle → c.target = none) :
    Reports actor c (c.transition actor next).2 (c.transition actor next).1 := by
  unfold transition
  split
  · exact .silent rfl (by simp)
  · next hne =>
    intro b hb
    have htarget : (if next = .idle then none else c.target) = c.target := by
      split
      · next hi => exact (h hi).symm
      · rfl
    simp [Beliefs.AllAgree, Beliefs.Agrees, Beliefs.hear, hb, belief, hne, htarget]

theorem rouse_reports : Reports actor c (c.rouse actor).2 (c.rouse actor).1 := by
  unfold rouse
  split
  · exact .silent rfl (by simp)
  · exact transition_reports actor c .awake (by simp)

/-- The new target is told before the change of state, and the acquisition after both. -/
theorem engage_reports (target : Entity) :
    Reports actor c (c.engage actor target).2 (c.engage actor target).1 := by
  let aimed : Controller := { c with target := some target }
  have hnews : Reports actor c
      (if c.target = some target then [] else [.newEnemy actor c.target target]) aimed := by
    intro b hb
    split
    · next h => exact Reports.silent (by simp [belief, aimed, h]) (by simp) b hb
    · simp [Beliefs.AllAgree, Beliefs.Agrees, Beliefs.hear, hb, belief, aimed]
  have hchange := transition_reports actor aimed .engaged (by simp)
  have hacquired : Reports actor (aimed.transition actor .engaged).1
      [.targetAcquired actor target] (aimed.transition actor .engaged).1 := by
    intro b hb
    rw [Beliefs.set_of_eq hb]
    simp [Beliefs.AllAgree, Beliefs.Agrees, Beliefs.hear, hb, belief, aimed]
  exact (hnews.append hchange).append hacquired

/-- A dropped target is told before the way home is taken. -/
theorem disengage_reports : Reports actor c (c.disengage actor).2 (c.disengage actor).1 := by
  let dropped : Controller := { c with target := none }
  have hlosses : Reports actor c (c.target.map (Event.targetLost actor)).toList dropped := by
    intro b hb
    cases htarget : c.target with
    | none => exact Reports.silent (by simp [belief, dropped, htarget]) (by simp) b hb
    | some target =>
      simp [Beliefs.AllAgree, Beliefs.Agrees, Beliefs.hear, hb, belief, dropped, htarget]
  rw [disengage_eq]
  dsimp only
  split
  · exact hlosses.append (transition_reports actor dropped .returning (by simp))
  · exact hlosses

/-- Who comes home has no target, and tells so by going idle. -/
theorem arrival_reports (h : c.state = .idle → c.target = none) :
    Reports actor c (({ c with target := none } : Controller).transition actor .idle).2
      (({ c with target := none } : Controller).transition actor .idle).1 := by
  intro b hb
  unfold transition
  split
  · next hidle => exact Reports.silent (by simp [belief, h hidle]) (by simp) b hb
  · next hawake =>
    have hne : c.state ≠ .idle := hawake
    simp [Beliefs.AllAgree, Beliefs.Agrees, Beliefs.hear, hb, belief, hne]

end Controller

end Hostility
