import Conductor.Request
import Conductor.Value.Json

/-!
How the answers of the planning tool are printed: records as JSON, lists as a table of lines, and
whatever is a text as it stands.
-/

namespace Conductor

/-- The text, filled up with blanks to at least `width` characters. -/
def padEnd (width : Nat) (s : String) : String :=
  s ++ String.ofList (List.replicate (width - s.length) ' ')

namespace Reply

def Task.line (task : Task) : String :=
  padEnd 10 task.id ++ " " ++ padEnd 11 task.status.name ++ " " ++ task.title

def TaskQueue.lines (queue : TaskQueue) : List String :=
  if queue.tasks.isEmpty then ["No tasks found."] else queue.tasks.map Task.line

def NextTask.lines (next : NextTask) : List String :=
  if next.isDrained then ["All tasks completed."] else [next.prompt]

def CodeMap.lines (m : CodeMap) : List String :=
  let languages := String.intercalate ", " m.languages
  [s!"Files: {m.files}", s!"Symbols: {m.symbols}",
    "Languages: " ++ if languages.isEmpty then "(none)" else languages]

def Agent.line (agent : Agent) : String :=
  let state := if agent.available then "available" else "not installed"
  let install :=
    match agent.install with
    | some command => if command.isEmpty then "" else " (install: " ++ command ++ ")"
    | none => ""
  agent.name ++ ": " ++ state ++ install

end Reply

/-- The lines that tell of an answer. What executing a task prints has been shown already. -/
def Request.printed : (request : Request) → request.Answer → List String
  | plan _, a => [a.value.json]
  | verify _, a => [a.value.json]
  | verifyPrompt .., a => [a]
  | prompt .., a => [a]
  | map _, a => a.lines
  | spec .., a => [a.value.json]
  | decompose _, a => [a.value.json]
  | tasksNext _, a => a.lines
  | tasksList _, a => a.lines
  | tasksComplete _ taskId, _ => ["Marked " ++ taskId ++ " as complete"]
  | tasksStart _ taskId, _ => ["Started " ++ taskId]
  | exec .., _ => []
  | workflowStatus, a => [a.value.json]
  | workflowStart name, _ => ["Started workflow: " ++ name]
  | workflowNext, a => [Text.trimEnd a.text]
  | workflowTransition phase _, _ => ["Transitioned to: " ++ phase]
  | agents, a => a.map Reply.Agent.line

/-- Whether the tool's output is shown as it comes. -/
def Request.isStreamed : Request → Bool
  | exec .. => true
  | _ => false

end Conductor
