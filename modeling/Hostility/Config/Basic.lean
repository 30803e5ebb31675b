import Hostility.Allegiance
import Hostility.Position
import Hostility.Profile
import Hostility.Tuning

/-!
What a run is configured by: the constants of the engine, the settings of the simulated host, and a
scenario of actors, candidates and scripted hits.
-/
namespace Hostility

structure HostSettings where
  seed : UInt64 := 0
  ticks : Nat := 30
  tickSeconds : Float32 := 1.0
  deriving DecidableEq

structure ActorTemplate where
  name : String
  position : Position
  faction : Faction := .neutral
  kinship : Kinship := default
  profile : Profile := {}
  level : Nat := 1
  deriving DecidableEq

inductive CandidateKind where
  | player
  | companion
  | creature
  /-- Scenery that cannot be attacked and only draws attention through passive threat. -/
  | objective
  deriving DecidableEq, Repr

namespace CandidateKind

def all : List CandidateKind := [player, companion, creature, objective]

def name : CandidateKind → String
  | player => "player"
  | companion => "companion"
  | creature => "creature"
  | objective => "objective"

def ofName? (s : String) : Option CandidateKind := all.find? (·.name == s)

end CandidateKind

structure CandidateTemplate where
  name : String
  position : Position
  kind : CandidateKind := .player
  faction : Faction := .neutral
  level : Nat := 1
  /-- Given for passive threat sources. -/
  passiveThreshold : Option Int64 := none
  hides : Bool := false
  deception : Nat := 0
  deriving DecidableEq

structure ScriptedHit where
  tick : Nat
  attacker : String
  victim : String
  amount : Int64
  deriving DecidableEq, Repr

structure Scenario where
  actors : List ActorTemplate := []
  candidates : List CandidateTemplate := []
  damage : List ScriptedHit := []
  deriving DecidableEq

structure Configuration where
  tuning : Tuning := {}
  host : HostSettings := {}
  scenario : Scenario := {}
  deriving DecidableEq

end Hostility
