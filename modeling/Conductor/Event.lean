import Conductor.Fault
import Conductor.Value
import Conductor.Time.Stamp

/-!
Events of a workflow run, as subscribers receive them.
-/

namespace Conductor

inductive EventKind where
  | runStarted
  | phaseStarted
  | phaseCompleted
  | phaseFailed
  | progress
  | log
  | artifact
  | runCompleted
  | runFailed
  | other (name : String)
  deriving DecidableEq, Repr

namespace EventKind

def name : EventKind → String
  | runStarted => "run_started"
  | phaseStarted => "phase_started"
  | phaseCompleted => "phase_completed"
  | phaseFailed => "phase_failed"
  | progress => "progress"
  | log => "log"
  | artifact => "artifact"
  | runCompleted => "run_completed"
  | runFailed => "run_failed"
  | other name => name

/-- The kinds that a run itself publishes. -/
def known : List EventKind :=
  [runStarted, phaseStarted, phaseCompleted, phaseFailed, progress, log, artifact, runCompleted,
    runFailed]

def ofName (name : String) : EventKind :=
  (known.find? (fun kind => kind.name == name)).getD (other name)

end EventKind

/-- How severe a line of the program's own log is. -/
inductive Severity where
  | debug
  | info
  | warning
  | error
  deriving DecidableEq, Repr

namespace Severity

def name : Severity → String
  | debug => "DEBUG"
  | info => "INFO"
  | warning => "WARNING"
  | error => "ERROR"

def rank : Severity → Nat
  | debug => 10
  | info => 20
  | warning => 30
  | error => 40

end Severity

inductive Level where
  | info
  | success
  | warning
  | error
  | other (name : String)
  deriving DecidableEq, Repr

namespace Level

def name : Level → String
  | info => "info"
  | success => "success"
  | warning => "warning"
  | error => "error"
  | other name => name

def ofName (name : String) : Level :=
  ([info, success, warning, error].find? (fun level => level.name == name)).getD (other name)

/-- The severity under which an event of this level is logged. -/
def severity? : Level → Option Severity
  | info => some .info
  | success => some .info
  | warning => some .warning
  | error => some .error
  | other _ => none

end Level

structure Event where
  kind : EventKind
  message : String := ""
  level : Level := .info
  phaseId : Option String := none
  progress : Option Value := none
  data : List (String × Value) := []
  stamp : Stamp

namespace Event

/-- The fields that subscribers outside the library see; what is missing or empty is left out. -/
def fields (e : Event) : List (String × Value) :=
  [("event", .text e.kind.name), ("level", .text e.level.name), ("at", .text e.stamp.text)] ++
    (if e.message.isEmpty then [] else [("message", .text e.message)]) ++
    (e.phaseId.map fun id => ("phase_id", Value.text id)).toList ++
    (e.progress.map fun p => ("progress", p)).toList ++
    (if e.data.isEmpty then [] else [("data", .table e.data)])

/-- The line that publishing an event writes to the log: none for an event without a message, and
none can be written for a level that is not known. -/
def notice (e : Event) : Except Fault (Option (Severity × String)) :=
  if e.message.isEmpty then .ok none
  else
    match e.level.severity? with
    | some severity => .ok (some (severity, "[" ++ e.kind.name ++ "] " ++ e.message))
    | none => .error (.unknownLevel e.level.name)

end Event

end Conductor
