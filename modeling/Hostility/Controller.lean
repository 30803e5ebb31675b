import Hostility.Entity.Map
import Hostility.Profile
import Hostility.Event.Basic

/-!
The controller of a hostile actor: how aware it is, whom it fights, whom it may strike back at, and
when it is due to think.
-/
namespace Hostility

structure Controller where
  profile : Profile
  state : Awareness
  target : Option Entity
  /-- Members of the actor's own faction that it may attack all the same. -/
  retaliation : EntitySet
  /-- The mode of the previous think, if there was one. -/
  lastLegacyMode : Option Bool
  sinceThink : Float32
  deriving DecidableEq

namespace Controller

/-- A fresh controller: asleep, without a target, and due at once. -/
def ofProfile (profile : Profile) : Controller :=
  { profile
    state := .idle
    target := none
    retaliation := ∅
    lastLegacyMode := none
    sinceThink := profile.thinkInterval }

def isDue (c : Controller) : Bool := decide (c.profile.thinkInterval ≤ c.sinceThink)

def markThought (c : Controller) : Controller := { c with sinceThink := 0.0 }

def elapse (c : Controller) (seconds : Float32) : Controller :=
  { c with sinceThink := c.sinceThink + seconds }

def retaliateAgainst (c : Controller) (e : Entity) : Controller :=
  { c with retaliation := c.retaliation.add e }

def forgive (c : Controller) (e : Entity) : Controller :=
  { c with retaliation := c.retaliation.erase e }

def retaliates (c : Controller) (e : Entity) : Bool := c.retaliation.contains e

/-- Whether the mode differs from the one of the previous think. -/
def modeSwitched (c : Controller) : Bool :=
  match c.lastLegacyMode with
  | some legacy => legacy != c.profile.legacyMode
  | none => false

/-- Remembers the mode of this think for the next one. -/
def noteMode (c : Controller) : Controller :=
  { c with lastLegacyMode := some c.profile.legacyMode }

/-- A change of state and the event that tells of it; no event when nothing changes. -/
def transition (c : Controller) (actor : Entity) (next : Awareness) : Controller × List Event :=
  if c.state = next then (c, []) else ({ c with state := next }, [.stateChanged actor c.state next])

/-- Wakes, unless it is awake already. -/
def rouse (c : Controller) (actor : Entity) : Controller × List Event :=
  if c.state.isAwake then (c, []) else c.transition actor .awake

/-- Settles on a target and fights it. -/
def engage (c : Controller) (actor target : Entity) : Controller × List Event :=
  let news := if c.target = some target then [] else [.newEnemy actor c.target target]
  let (c, changes) := transition { c with target := some target } actor .engaged
  (c, news ++ changes ++ [.targetAcquired actor target])

/-- Drops the target, and heads home if awake. -/
def disengage (c : Controller) (actor : Entity) : Controller × List Event :=
  let losses :=
    match c.target with
    | some target => [.targetLost actor target]
    | none => []
  let c := { c with target := none }
  if c.state.isAwake then
    let (c, changes) := c.transition actor .returning
    (c, losses ++ changes)
  else
    (c, losses)

variable (c : Controller) (actor : Entity)

@[simp] theorem state_transition (next : Awareness) : (c.transition actor next).1.state = next := by
  unfold transition
  split
  · next h => exact h
  · rfl

@[simp] theorem target_transition (next : Awareness) :
    (c.transition actor next).1.target = c.target := by
  unfold transition
  split <;> rfl

@[simp] theorem profile_transition (next : Awareness) :
    (c.transition actor next).1.profile = c.profile := by
  unfold transition
  split <;> rfl

@[simp] theorem retaliation_transition (next : Awareness) :
    (c.transition actor next).1.retaliation = c.retaliation := by
  unfold transition
  split <;> rfl

@[simp] theorem isAwake_rouse : (c.rouse actor).1.state.isAwake = true := by
  unfold rouse
  split
  · next h => exact h
  · simp [Awareness.isAwake]

@[simp] theorem target_rouse : (c.rouse actor).1.target = c.target := by
  unfold rouse
  split <;> simp

@[simp] theorem profile_rouse : (c.rouse actor).1.profile = c.profile := by
  unfold rouse
  split <;> simp

@[simp] theorem retaliation_rouse : (c.rouse actor).1.retaliation = c.retaliation := by
  unfold rouse
  split <;> simp

@[simp] theorem state_engage (target : Entity) : (c.engage actor target).1.state = .engaged := by
  simp [engage]

@[simp] theorem target_engage (target : Entity) :
    (c.engage actor target).1.target = some target := by
  simp [engage]

@[simp] theorem retaliation_engage (target : Entity) :
    (c.engage actor target).1.retaliation = c.retaliation := by
  simp [engage]

@[simp] theorem profile_engage (target : Entity) :
    (c.engage actor target).1.profile = c.profile := by
  simp [engage]

@[simp] theorem target_disengage : (c.disengage actor).1.target = none := by
  unfold disengage
  dsimp only
  split <;> simp

@[simp] theorem profile_disengage : (c.disengage actor).1.profile = c.profile := by
  unfold disengage
  dsimp only
  split <;> simp

@[simp] theorem retaliation_disengage :
    (c.disengage actor).1.retaliation = c.retaliation := by
  unfold disengage
  dsimp only
  split <;> simp

/-- The loss of the target, if there was one, is told before the way home is taken. -/
theorem disengage_eq :
    c.disengage actor =
      let dropped : Controller := { c with target := none }
      let losses := (c.target.map (Event.targetLost actor)).toList
      if c.state.isAwake then
        ((dropped.transition actor .returning).1,
          losses ++ (dropped.transition actor .returning).2)
      else
        (dropped, losses) := by
  unfold disengage
  cases c.target <;> rfl

variable {c actor} {e : Event}

/-- A change of state tells of itself and of nothing else. -/
theorem eq_of_mem_transition {next : Awareness} (h : e ∈ (c.transition actor next).2) :
    e = .stateChanged actor c.state next := by
  unfold transition at h
  split at h
  · cases h
  · exact List.mem_singleton.mp h

theorem eq_of_mem_rouse (h : e ∈ (c.rouse actor).2) : e = .stateChanged actor c.state .awake := by
  unfold rouse at h
  split at h
  · cases h
  · exact eq_of_mem_transition h

end Controller

end Hostility
