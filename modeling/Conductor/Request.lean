import Conductor.Reply.Record
import Conductor.Reply.ExecFailure
import Conductor.Fault

/-!
What the planning tool can be asked. A request is a list of words for the tool's command line and a
reading of what it prints.
-/

namespace Conductor

/-- One of the operations of the planning tool, with what it is given. -/
inductive Request where
  | plan (title : String)
  | verify (planFile : String)
  | verifyPrompt (planFile : String) (specFile : Option String)
  | prompt (action file : String)
  | map (format : String)
  | spec (description : String) (title : Option String)
  | decompose (planFile : String)
  | tasksNext (planRef : String)
  | tasksList (planRef : String)
  | tasksComplete (planRef taskId : String)
  | tasksStart (planRef taskId : String)
  | exec (task planRef : String) (agent : Value)
  | workflowStatus
  | workflowStart (name : String)
  | workflowNext
  | workflowTransition (phase : String) (reason : Option String)
  | agents
  deriving DecidableEq

namespace Request

/-- An option with its value, where the value is given and not empty. -/
def optional (name : String) (value : Option String) : List String :=
  match value with
  | some text => if text.isEmpty then [] else [name, text]
  | none => []

/-- The words after the name of the tool, as far as they are always texts. -/
def texts : Request → List String
  | plan title => ["plan", title]
  | verify planFile => ["verify", planFile]
  | verifyPrompt planFile specFile => ["verify", planFile, "--prompt"] ++ optional "--spec" specFile
  | prompt action file => ["prompt", action, file]
  | map format => ["map", "--format", format]
  | spec description title => ["spec", description] ++ optional "--title" title
  | decompose planFile => ["decompose", planFile]
  | tasksNext planRef => ["tasks", "next", planRef, "--prompt"]
  | tasksList planRef => ["tasks", "list", planRef]
  | tasksComplete planRef taskId => ["tasks", "complete", planRef, taskId]
  | tasksStart planRef taskId => ["tasks", "start", planRef, taskId]
  | exec task planRef _ => ["exec", task, planRef, "--agent"]
  | workflowStatus => ["workflow", "status"]
  | workflowStart name => ["workflow", "start", name]
  | workflowNext => ["workflow", "next"]
  | workflowTransition phase reason =>
    ["workflow", "transition", phase] ++ optional "--reason" reason
  | agents => ["agents"]

/-- The words after the name of the tool. The name of an agent comes last and may be of any type. -/
def words (request : Request) : List Value :=
  request.texts.map Value.text ++
    match request with
    | exec _ _ agent => [agent]
    | _ => []

/-- What an answered request gives. -/
def Answer : Request → Type
  | plan _ => Reply.Plan
  | verify _ => Reply.Verification
  | verifyPrompt .. => String
  | prompt .. => String
  | map _ => Reply.CodeMap
  | spec .. => Reply.Spec
  | decompose _ => Reply.TaskQueue
  | tasksNext _ => Reply.NextTask
  | tasksList _ => Reply.TaskQueue
  | tasksComplete .. => Unit
  | tasksStart .. => Unit
  | exec .. => String
  | workflowStatus => Reply.WorkflowStatus
  | workflowStart _ => Unit
  | workflowNext => Reply.Guidance
  | workflowTransition .. => Unit
  | agents => List Reply.Agent

def ofReply {α : Type} : Except Reply.Problem α → Except Fault α
  | .ok a => .ok a
  | .error problem => .error (.reply problem)

/-- A command can be told of only if its words are texts; what counts as false passes for an empty
one. -/
def checkWords (command : List Value) : Except Fault Unit :=
  match command.find? fun word => word.isTruthy && !word.isText with
  | some word => .error (.wrongType (.forWord word.fullTypeName))
  | none => .ok ()

/-- Reads what the tool printed. For a request that executes a task, `binary` is the tool that was
run; what it printed may report a failure. -/
def decode (binary : Value) : (request : Request) → String → Except Fault request.Answer
  | plan _, out => ofReply (Reply.Plan.decode out)
  | verify _, out => ofReply (Reply.Verification.decode out)
  | verifyPrompt .., out => .ok out
  | prompt .., out => .ok (Text.trim out)
  | map _, out => ofReply (Reply.CodeMap.decode out)
  | spec .., out => ofReply (Reply.Spec.decode out)
  | decompose _, out => .ok (Reply.TaskQueue.decode out)
  | tasksNext _, out => .ok (Reply.NextTask.decode out)
  | tasksList _, out => .ok (Reply.TaskQueue.decode out)
  | tasksComplete .., _ => .ok ()
  | tasksStart .., _ => .ok ()
  | exec task planRef agent, out =>
    match Reply.ExecFailure.decode out with
    | some failure => do
      let command := binary :: (exec task planRef agent).words
      checkWords command
      .error (.execReported command task out failure)
    | none => .ok out
  | workflowStatus, out => ofReply (Reply.WorkflowStatus.decode out)
  | workflowStart _, _ => .ok ()
  | workflowNext, out => .ok (Reply.Guidance.decode out)
  | workflowTransition .., _ => .ok ()
  | agents, out => .ok (Reply.Agent.decode out)

/-- An answer as a value; a request that only acts has none. -/
def answerValue : (request : Request) → request.Answer → Value
  | plan _, a => a.value
  | verify _, a => a.value
  | verifyPrompt .., a => .text a
  | prompt .., a => .text a
  | map _, a => a.value
  | spec .., a => a.value
  | decompose _, a => a.value
  | tasksNext _, a => a.value
  | tasksList _, a => a.value
  | tasksComplete .., _ => .null
  | tasksStart .., _ => .null
  | exec .., a => .text a
  | workflowStatus, a => a.value
  | workflowStart _, _ => .null
  | workflowNext, a => a.value
  | workflowTransition .., _ => .null
  | agents, a => Reply.agentsValue a

end Request

end Conductor
