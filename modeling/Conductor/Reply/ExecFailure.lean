import Conductor.Text.Scan

/-!
Failures that the planning tool reports in what it prints although it exits cleanly.
-/

namespace Conductor.Reply

/-- What `read` gives at the first start of a line where it gives anything. `atStart` says whether
the text itself begins at such a place. -/
def firstAtLineStart {α : Type} (read : List Char → Option α) (atStart : Bool) :
    List Char → Option α
  | [] => if atStart then read [] else none
  | c :: rest =>
    match if atStart then read (c :: rest) else none with
    | some a => some a
    | none => firstAtLineStart read (c = '\n') rest

namespace ExecFailure

def failedMark : List Char := "❌ Task failed!".toList

def agentMark : List Char := "❌ Agent '".toList

def missingMark : List Char := "' is not installed.".toList

/-- A line that says the task failed. -/
def taskFailed? (s : List Char) : Option (List Char) :=
  (Text.after? failedMark s).map fun rest => failedMark ++ Text.firstLine rest

/-- A notice that the agent is missing; it ends with the line on which it says so. -/
def agentMissing? (s : List Char) : Option (List Char) := do
  let rest ← Text.after? agentMark s
  let (name, rest) ← Text.run? (· != '\'') rest
  let rest ← Text.after? missingMark rest
  return agentMark ++ name ++ missingMark ++ Text.firstLine rest

/-- The failure that the text reports. A failed task goes before a missing agent, wherever the two
stand. -/
def find? (s : List Char) : Option (List Char) :=
  ((firstAtLineStart taskFailed? true s).or (firstAtLineStart agentMissing? true s)).map Text.strip

def decode (raw : String) : Option String :=
  (find? raw.toList).map String.ofList

end ExecFailure

end Conductor.Reply
