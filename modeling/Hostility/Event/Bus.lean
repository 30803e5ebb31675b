import Hostility.Event.Basic

/-!
The queue through which events leave the engine, and the listeners they are handed to. Several
handles may name one bus and then share its queue and its listeners.
-/
namespace Hostility

structure Bus where
  /-- Published and not yet taken, oldest first. -/
  queue : List Event
  /-- The tags of the listeners in the order in which they subscribed. -/
  listeners : List String
  deriving DecidableEq

namespace Bus

def empty : Bus := ⟨[], []⟩

def publish (b : Bus) (e : Event) : Bus := { b with queue := b.queue ++ [e] }

def subscribe (b : Bus) (tag : String) : Bus := { b with listeners := b.listeners ++ [tag] }

def drain (b : Bus) : List Event × Bus := (b.queue, { b with queue := [] })

/-- Takes all events out of the queue and hands each one to every listener. -/
def deliver (b : Bus) : List (String × Event) × Bus :=
  (b.queue.flatMap fun e => b.listeners.map fun tag => (tag, e), b.drain.2)

def text (b : Bus) : String := "EventBus \x7b queued: " ++ toString b.queue.length ++ " \x7d"

end Bus

/-- Handles on buses. Handle number `i` names the bus `handles[i]`. -/
structure Exchange where
  buses : List Bus
  handles : List Nat
  deriving DecidableEq

namespace Exchange

def start : Exchange := ⟨[.empty], [0]⟩

def bus (x : Exchange) (handle : Nat) : Bus :=
  ((x.handles[handle]?).bind fun i => x.buses[i]?).getD .empty

def setBus (x : Exchange) (handle : Nat) (b : Bus) : Exchange :=
  match x.handles[handle]? with
  | some i => { x with buses := x.buses.set i b }
  | none => x

/-- A further handle on the bus of a handle. -/
def share (x : Exchange) (handle : Nat) : Exchange :=
  match x.handles[handle]? with
  | some i => { x with handles := x.handles ++ [i] }
  | none => x

def add (x : Exchange) : Exchange :=
  ⟨x.buses ++ [.empty], x.handles ++ [x.buses.length]⟩

/-- How many events wait behind each handle. -/
def queued (x : Exchange) : List Nat :=
  (List.range x.handles.length).map fun handle => (x.bus handle).queue.length

end Exchange

end Hostility
