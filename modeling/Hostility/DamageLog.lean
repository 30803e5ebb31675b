import Hostility.Entity.Basic
import Hostility.Number.Saturating

/-!
The recent damage done to an actor: a window of the last hits, oldest first. The window answers who
hit last and who did the most damage.
-/
namespace Hostility

structure Hit where
  attacker : Entity
  amount : Int64
  /-- Nanoseconds since the epoch. -/
  time : Int
  deriving DecidableEq

structure DamageLog where
  entries : List Hit
  capacity : Nat
  deriving DecidableEq

namespace DamageLog

/-- An empty log. It keeps one hit at least. -/
def ofCapacity (capacity : Nat) : DamageLog := ⟨[], max capacity 1⟩

instance : Inhabited DamageLog := ⟨ofCapacity 32⟩

/-- Adds a hit; a full log drops its oldest one. -/
def record (log : DamageLog) (hit : Hit) : DamageLog :=
  let kept := if log.capacity ≤ log.entries.length then log.entries.drop 1 else log.entries
  { log with entries := kept ++ [hit] }

def clear (log : DamageLog) : DamageLog := { log with entries := [] }

def lastDamager (log : DamageLog) : Option Entity := log.entries.getLast?.map (·.attacker)

/-- Adds an amount to an attacker's sum, at the end for an attacker not listed before. -/
def addTotal (attacker : Entity) (amount : Int64) : List (Entity × Int64) → List (Entity × Int64)
  | [] => [(attacker, amount)]
  | (e, total) :: rest =>
    if e = attacker then (e, satAdd total amount) :: rest
    else (e, total) :: addTotal attacker amount rest

/-- The sums of the attackers, in the order of their first hits. -/
def totals (hits : List Hit) : List (Entity × Int64) :=
  hits.foldl (fun sums hit => addTotal hit.attacker hit.amount sums) []

/-- The first pair with the largest sum. -/
def largest : List (Entity × Int64) → Option (Entity × Int64) :=
  List.foldl
    (fun best next =>
      match best with
      | some b => if next.2 ≤ b.2 then some b else some next
      | none => some next)
    none

/-- The attacker with the largest sum; of equals the one who hit first. -/
def topDamager (log : DamageLog) : Option Entity := (largest (totals log.entries)).map (·.1)

end DamageLog

end Hostility
