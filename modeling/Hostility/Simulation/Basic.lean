import Hostility.Config.Basic
import Hostility.Engine.Action
import Hostility.Engine.Setting

/-!
A scripted encounter. It is built from a scenario whose names are pairwise distinct and whose script
mentions no other names; the scripted hits are then known by entity. The encounter stands in for the
game around the engine: it lands the hits, walks returning actors home and moves the clock.
-/
namespace Hostility

/-- Why a scenario cannot be built. -/
inductive ScenarioFault where
  /-- A name is borne by two entities. -/
  | duplicateName (name : String)
  /-- The script names nobody. -/
  | unknownName (name : String)
  deriving DecidableEq, Repr

def ScenarioFault.message : ScenarioFault → String
  | .duplicateName name => "Name '" ++ name ++ "' is used by more than one entity"
  | .unknownName name => "Damage script references unknown entity '" ++ name ++ "'"

structure PlannedHit where
  tick : Nat
  attacker : Entity
  victim : Entity
  amount : Int64
  deriving DecidableEq, Repr

structure Simulation where
  setting : Setting
  tickSeconds : Float32
  /-- Everyone in the scenario by name: the actors, then the candidates. Who leaves the world stays
  on the roster. -/
  roster : List (String × Entity)
  actors : List Entity
  script : List PlannedHit
  tick : Nat
  state : State
  queue : List Event

def ActorTemplate.parts (a : ActorTemplate) : Components :=
  { name := a.name
    position := a.position
    allegiance := some ⟨a.faction, a.kinship⟩
    level := a.level
    health := some default
    controller := some (.ofProfile a.profile) }

def CandidateKind.targetable : CandidateKind → Targetable
  | .player => .player
  | .companion => .companion none
  | .creature => .creature
  | .objective => .inert

/-- The parts that every candidate starts with. -/
def CandidateTemplate.parts (c : CandidateTemplate) : Components :=
  { name := c.name
    position := c.position
    allegiance := some ⟨c.faction, default⟩
    level := c.level
    health := some default
    targetable := some c.kind.targetable }

/-- Adds a candidate, then its passive threat, then its concealment. -/
def CandidateTemplate.enter (c : CandidateTemplate) (w : World) : Entity × World :=
  let (e, w) := w.spawn c.parts
  let w :=
    match c.passiveThreshold with
    | some threshold => w.update e fun parts => { parts with passive := some threshold }
    | none => w
  let w :=
    if c.hides then
      w.update e fun parts => { parts with concealment := some (.ofHiding c.deception) }
    else w
  (e, w)

/-- Lets newcomers enter one after the other and puts each on the roster under its name, up to the
first whose name is taken. -/
def enrol {α : Type} (name : α → String) (enter : α → World → Entity × World) :
    List α → List (String × Entity) → World →
      Except ScenarioFault (List (String × Entity) × World)
  | [], roster, w => .ok (roster, w)
  | a :: rest, roster, w =>
    let (e, w) := enter a w
    if (roster.lookup (name a)).isSome then .error (.duplicateName (name a))
    else enrol name enter rest (roster ++ [(name a, e)]) w

/-- The bearer of a name that the script mentions. -/
def bearer (roster : List (String × Entity)) (name : String) : Except ScenarioFault Entity :=
  match roster.lookup name with
  | some e => .ok e
  | none => .error (.unknownName name)

/-- A scripted hit between members of a roster. The attacker is looked up first. -/
def ScriptedHit.plan (roster : List (String × Entity)) (h : ScriptedHit) :
    Except ScenarioFault PlannedHit := do
  let attacker ← bearer roster h.attacker
  let victim ← bearer roster h.victim
  return ⟨h.tick, attacker, victim, h.amount⟩

namespace Simulation

/-- The encounter of a scenario before its first tick, at the start of the clock: the actors enter,
then the candidates, and then the script is read. -/
def build (s : Scenario) (setting : Setting) (random : RandomSource) (tickSeconds : Float32) :
    Except ScenarioFault Simulation := do
  let (cast, w) ← enrol ActorTemplate.name (fun a w => w.spawn a.parts) s.actors [] .empty
  let (roster, w) ← enrol CandidateTemplate.name CandidateTemplate.enter s.candidates cast w
  let script ← s.damage.mapM (·.plan roster)
  return {
    setting
    tickSeconds
    roster
    actors := cast.map (·.2)
    script
    tick := 0
    state := ⟨w, random, 0, ∅⟩
    queue := [] }

/-- The encounter of a configuration, with the random source that its seed gives. -/
def ofConfiguration (c : Configuration) : Except ScenarioFault Simulation :=
  build c.scenario { tuning := c.tuning } (.ofSeed c.host.seed) c.host.tickSeconds

def entity? (s : Simulation) (name : String) : Option Entity := s.roster.lookup name

/-- The name of an entity; the written handle of one that has no name or is gone. -/
def nameOf (s : Simulation) (e : Entity) : String := (s.state.world.name? e).getD e.text

def text (s : Simulation) : String :=
  "Simulation \x7b tick: " ++ toString s.tick ++ ", entities: " ++ toString s.roster.length
    ++ ", actors: " ++ toString s.actors.length ++ ", .. \x7d"

end Simulation

end Hostility
