import Conductor.Text.Scan
import Conductor.Reply.Problem

/-!
Replies about the workflow that the planning tool keeps: its status, and the guidance on what to do
next. The lifecycle belongs to the tool; here it is only observed.
-/

namespace Conductor.Reply

/-- The phases of the tool's own lifecycle, in order. -/
def workflowPhases : List String :=
  ["idle", "specification", "planning", "decomposition", "execution", "verification", "complete",
    "failed"]

/-- The files that a workflow can have produced. -/
inductive Artifact where
  | spec
  | plan
  | tasks
  | verification
  deriving DecidableEq, Repr

namespace Artifact

def label : Artifact → List Char
  | spec => "Spec: ".toList
  | plan => "Plan: ".toList
  | tasks => "Tasks: ".toList
  | verification => "Verification: ".toList

/-- The value that a line gives, after blanks at its start and a bullet that may be missing. -/
def valueInLine? (kind : Artifact) (line : List Char) : Option (List Char) :=
  let line := Text.stripStart line
  let entry := (Text.after? "- ".toList line).getD line
  Text.lineAfter? kind.label entry

/-- The file in the first line that has one. A blank value and one that says there is none both
mean that there is none. -/
def find? (kind : Artifact) (s : List Char) : Option (List Char) :=
  match (Text.feedLines s).findSome? kind.valueInLine? with
  | some value =>
    let value := Text.strip value
    if value.isEmpty || Text.occursIn "(none)".toList value then none else some value
  | none => none

/-- The same on strings. -/
def inText? (kind : Artifact) (text : String) : Option String :=
  (kind.find? text.toList).map String.ofList

end Artifact

structure WorkflowStatus where
  id : String
  name : String
  currentPhase : String
  nextPhase : String
  transitions : Nat
  spec : Option String
  plan : Option String
  tasks : Option String
  verification : Option String
  deriving DecidableEq, Repr

namespace WorkflowStatus

/-- The run of digits in front of the words that count transitions. -/
def transitionsHere? (s : List Char) : Option (List Char) := do
  let (digits, rest) ← Text.run? Text.isDigit s
  let _ ← Text.after? " transitions recorded".toList rest
  return digits

/-- The suggested phase, which stands between double asterisks. -/
def nextPhaseHere? (s : List Char) : Option (List Char) := do
  let rest ← Text.after? "Suggested next phase: **".toList s
  let (word, rest) ← Text.run? Text.isWordChar rest
  let _ ← Text.after? "**".toList rest
  return word

def decode (raw : String) : Except Problem WorkflowStatus :=
  let s := raw.toList
  match Text.leftmost (Text.tokenAfter? "# Workflow Status: ".toList) s with
  | none => .error (.unreadable "workflow status" raw)
  | some id => do
    let transitions ← numberOr 0 (Text.leftmost transitionsHere? s)
    return {
      id := String.ofList id
      name := String.ofList ((Text.field? "**Name**: ".toList s).getD "default".toList)
      currentPhase := String.ofList
        ((Text.leftmost (Text.wordAfter? "**Current Phase**: ".toList) s).getD "idle".toList)
      nextPhase := String.ofList ((Text.leftmost nextPhaseHere? s).getD [])
      transitions
      spec := Artifact.spec.inText? raw
      plan := Artifact.plan.inText? raw
      tasks := Artifact.tasks.inText? raw
      verification := Artifact.verification.inText? raw }

end WorkflowStatus

structure Guidance where
  currentPhase : String
  nextPhase : String
  text : String
  deriving DecidableEq, Repr

namespace Guidance

def decode (raw : String) : Guidance :=
  let s := raw.toList
  { currentPhase := String.ofList
      ((Text.leftmost (Text.wordAfter? "Current phase: ".toList) s).getD "idle".toList)
    nextPhase := String.ofList
      ((Text.leftmost (Text.wordAfter? "Suggested next: ".toList) s).getD [])
    text := raw }

end Guidance

end Conductor.Reply
