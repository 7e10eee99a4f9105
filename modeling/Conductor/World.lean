import Conductor.Journal
import Conductor.Event.Bus
import Conductor.Workspace
import Conductor.Launch.Script

/-!
What a run acts on: the clock, the files, the system that launches programs, the subscribers, the
current run, and the journal of what was done.
-/

namespace Conductor

/-- A subscriber is told every event; what it does about one depends on the event and on all that
has happened so far, and it may fail. -/
structure Subscriber where
  name : String
  react : Journal → Event → Option Fault

structure World where
  now : Time := 0
  /-- The stamp of the moment 0. -/
  epoch : Stamp := ⟨0⟩
  files : Workspace := {}
  /-- What the system will answer to the next launches. -/
  responses : List Response := []
  nextPid : Nat := 1001
  bus : Bus Subscriber := {}
  current : Option Run := none
  /-- How many runs have been started. -/
  runCount : Nat := 0
  journal : Journal := []

namespace World

/-- The present stamp, to the nearest microsecond; there is none once the calendar has ended. -/
def stamp (w : World) : Except Fault Stamp :=
  (w.epoch.after (Time.micros w.now)).mapError .tooLarge

/-- Goes on in one of two ways: with a stamp, or with the fault that there is none. -/
def proceed {α : Type} (go : Stamp → α) (fail : Fault → α) : Except Fault Stamp → α
  | .ok stamp => go stamp
  | .error fault => fail fault

def enter (entry : Entry) (w : World) : World :=
  { w with journal := entry :: w.journal }

def log (severity : Severity) (logger message : String) (w : World) : World :=
  w.enter (.log severity logger message)

/-- The world once the clock shows at least `t`. -/
def advanceTo (t : Time) (w : World) : World :=
  { w with now := max w.now t }

/-- Lets one subscriber have an event. -/
def tell (subscriber : Subscriber) (event : Event) (w : World) : World × Option Fault :=
  let w := w.enter (.delivery subscriber.name event w.current)
  (w, subscriber.react w.journal event)

/-- Publishes an event to the subscribers. -/
def publish (event : Event) (w : World) : World × Option Fault :=
  Bus.publish (fun severity line w => w.log severity "flowpilot.events" line)
    (·.bus.subscribers) tell event w

def subscribe (subscriber : Subscriber) (w : World) : World :=
  { w with bus := (w.bus.subscribe subscriber).1 }

def modifyRun (f : Run → Run) (w : World) : World :=
  { w with current := w.current.map f }

end World

end Conductor
