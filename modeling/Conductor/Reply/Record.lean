import Conductor.Launch.Event
import Conductor.Reply.Plan
import Conductor.Reply.Spec
import Conductor.Reply.Verification
import Conductor.Reply.CodeMap
import Conductor.Reply.NextTask
import Conductor.Reply.Workflow
import Conductor.Reply.Agents

/-!
Replies as values, field by field, as they are stored and printed.
-/

namespace Conductor.Reply

def natOrNull (n : Option Nat) : Value :=
  (n.map fun n => Value.int n).getD .null

def Plan.value (plan : Plan) : Value :=
  .table [("full_path", .text plan.path), ("filename", .text plan.fileName)]

def Spec.value (spec : Spec) : Value :=
  .table [("full_path", .text spec.path), ("filename", .text spec.fileName),
    ("title", .text spec.title)]

def Verification.value (v : Verification) : Value :=
  .table [("full_path", .text v.path), ("status", textOrNull (v.verdict.map (·.name))),
    ("checks_passed", natOrNull (v.checks.map (·.passed))),
    ("checks_total", natOrNull (v.checks.map (·.total)))]

def CodeMap.value (m : CodeMap) : Value :=
  .table [("content", .text m.content), ("files_count", .int m.files),
    ("symbols_count", .int m.symbols), ("languages", textList m.languages)]

def Task.value (task : Task) : Value :=
  .table [("id", .text task.id), ("title", .text task.title), ("status", .text task.status.name),
    ("files", textList task.files)]

def TaskQueue.value (queue : TaskQueue) : Value :=
  .table [("plan_ref", .text queue.planRef), ("tasks_count", .int queue.size),
    ("tasks", .list (queue.tasks.map Task.value))]

def NextTask.value (next : NextTask) : Value :=
  .table [("task", (next.task?.map Task.value).getD .null), ("prompt", .text next.prompt),
    ("all_completed", .bool next.isDrained)]

def WorkflowStatus.value (status : WorkflowStatus) : Value :=
  .table [("id", .text status.id), ("name", .text status.name),
    ("current_phase", .text status.currentPhase), ("next_phase", .text status.nextPhase),
    ("history_count", .int status.transitions), ("spec_path", textOrNull status.spec),
    ("plan_path", textOrNull status.plan), ("task_queue_path", textOrNull status.tasks),
    ("verify_path", textOrNull status.verification)]

def Guidance.value (guidance : Guidance) : Value :=
  .table [("current_phase", .text guidance.currentPhase), ("next_phase", .text guidance.nextPhase),
    ("guidance", .text guidance.text)]

def Agent.value (agent : Agent) : Value :=
  .table [("name", .text agent.name), ("available", .bool agent.available),
    ("install_command", textOrNull agent.install)]

/-- A list of agents is a record of its own. -/
def agentsValue (agents : List Agent) : Value :=
  .table [("agents", .list (agents.map Agent.value))]

end Conductor.Reply
