import Conductor.Event.Bus

/-!
A bus whose hooks act on the bus itself while an event is delivered to them: they subscribe hooks,
take subscriptions back, publish further events, or fail.
-/

namespace Conductor

/-- What a hook, or someone outside, does to the bus. -/
inductive Deed where
  | subscribe (hook : String)
  | unsubscribe (handle : Nat)
  | publish (event : Event)
  | raise (fault : Fault)

/-- A bus of named hooks, with what was delivered and logged, the latest first. -/
structure Switchboard where
  bus : Bus String := {}
  deliveries : List (String × Event) := []
  logs : List (Severity × String) := []

namespace Switchboard

def note (severity : Severity) (line : String) (board : Switchboard) : Switchboard :=
  { board with logs := (severity, line) :: board.logs }

def receive (hook : String) (event : Event) (board : Switchboard) : Switchboard :=
  { board with deliveries := (hook, event) :: board.deliveries }

/-- Does deeds in order until one of them fails. -/
def inOrder (act : Deed → Switchboard → Switchboard × Option Fault) :
    List Deed → Switchboard → Switchboard × Option Fault
  | [], board => (board, none)
  | deed :: rest, board =>
    match act deed board with
    | (board, none) => inOrder act rest board
    | (board, some fault) => (board, some fault)

/-- Does one deed. `react` says what each hook does on each event, and `depth` bounds how many
events may be under delivery inside one another. -/
def perform (react : String → Event → List Deed) :
    Nat → Deed → Switchboard → Switchboard × Option Fault
  | _, .subscribe hook, board => ({ board with bus := (board.bus.subscribe hook).1 }, none)
  | _, .unsubscribe handle, board => ({ board with bus := board.bus.unsubscribe handle }, none)
  | _, .raise fault, board => (board, some fault)
  | 0, .publish _, board => (board, some .tooDeep)
  | depth + 1, .publish event, board =>
    Bus.publish note (·.bus.subscribers)
      (fun hook event board =>
        inOrder (perform react depth) (react hook event) (board.receive hook event))
      event board

/-- The number of events that may be under delivery inside one another. -/
def maxDepth : Nat := 300

def act (react : String → Event → List Deed) (deed : Deed) (board : Switchboard) :
    Switchboard × Option Fault :=
  perform react maxDepth deed board

end Switchboard

end Conductor
