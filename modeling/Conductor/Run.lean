import Conductor.Time.Stamp
import Conductor.Value

/-!
A workflow run: its phases in order, which of them is current, and what they have produced.
-/

namespace Conductor

inductive PhaseStatus where
  | pending
  | running
  | completed
  | failed
  deriving DecidableEq, Repr

def PhaseStatus.name : PhaseStatus → String
  | pending => "pending"
  | running => "running"
  | completed => "completed"
  | failed => "failed"

structure Phase where
  id : String
  title : String
  description : String
  status : PhaseStatus := .pending
  start : Option Stamp := none
  finish : Option Stamp := none
  error : Option String := none
  deriving DecidableEq, Repr

def stampValue (stamp : Option Stamp) : Value :=
  (stamp.map fun s => Value.text s.text).getD .null

def Phase.fields (phase : Phase) : List (String × Value) :=
  [("id", .text phase.id), ("title", .text phase.title), ("description", .text phase.description),
    ("status", .text phase.status.name), ("start_time", stampValue phase.start),
    ("end_time", stampValue phase.finish),
    ("error", (phase.error.map Value.text).getD .null)]

inductive RunStatus where
  | running
  | completed
  | failed
  deriving DecidableEq, Repr

def RunStatus.name : RunStatus → String
  | running => "running"
  | completed => "completed"
  | failed => "failed"

structure Run where
  /-- Runs are numbered as they start. -/
  number : Nat
  planRef : String
  agent : Value
  phases : List Phase
  index : Nat := 0
  status : RunStatus := .running
  start : Stamp
  finish : Option Stamp := none
  artifacts : List (String × Value) := []

namespace Run

def currentPhase? (run : Run) : Option Phase := run.phases[run.index]?

/-- Changes the current phase. -/
def modifyCurrent (f : Phase → Phase) (run : Run) : Run :=
  { run with phases := run.phases.modify run.index f }

/-- Puts an artifact under a key, in the place of one that was there. -/
def store (key : String) (value : Value) (run : Run) : Run :=
  { run with
    artifacts :=
      if run.artifacts.any (fun entry => entry.1 == key) then
        run.artifacts.map fun entry => if entry.1 == key then (key, value) else entry
      else run.artifacts ++ [(key, value)] }

def fields (run : Run) : List (String × Value) :=
  [("plan_reference", .text run.planRef), ("agent", run.agent),
    ("status", .text run.status.name), ("current_phase_index", .int run.index),
    ("start_time", .text run.start.text), ("end_time", stampValue run.finish),
    ("phases", .list (run.phases.map fun phase => .table phase.fields))]

end Run

end Conductor
