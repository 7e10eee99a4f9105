import Conductor.Phase.Activity

/-!
The phases that the library brings along, and the list of them that a run has by default.
-/

namespace Conductor

/-- Waits if there is anything to wait for. -/
def settle (seconds : Binary64) (next : Activity) : Activity :=
  if seconds.isPositive then .sleep (Time.span? seconds) next else next

inductive StandardPhase where
  | loadPlan (plansDir : Value) (settleSeconds : Binary64)
  | generatePrompt (settleSeconds : Binary64)
  | research (stepSeconds : Binary64)
  | implementation (stepSeconds : Binary64)
  /-- A phase without steps, which only says that it is there. -/
  | simulated (stepSeconds : Binary64)
  | agentExec (maxTasks : Int)
  | verify

namespace StandardPhase

/-- Where a plan is: an absolute reference says it all, any other one is looked up under the plans
of the workspace. -/
def planPath (workspace : Path) (plansDir : Value) (planRef : String) : Except Fault Path :=
  let reference := Path.ofString planRef
  if reference.isAbsolute then .ok reference
  else
    match plansDir with
    | .text dir => .ok ((workspace.join (.ofString dir)).join reference)
    | other => .error (.wrongType (.forPath other.fullTypeName))

/-- Whether nothing can be told about a file because of its name. -/
def isUnaskable : FileProblem → Bool
  | .tooLong _ => true
  | _ => false

/-- Reads the plan at a path and keeps it. -/
def keepPlan (path : Path) (settleSeconds : Binary64) : Activity :=
  .read path fun content =>
    match content with
    | .error (.notUtf8 _) => .fail (.planNotUtf8 path.toString)
    | .error problem =>
      .fail (if isUnaskable problem then .file problem else .planMissing path.toString)
    | .ok content =>
      .store "plan_path" (.text path.toString) <|
      .store "plan_content" (.text content) <|
      .log ("Loaded plan: " ++ path.fileName) .info <|
      settle settleSeconds <| .done (.text path.toString)

def loadPlanActivity (plansDir : Value) (settleSeconds : Binary64) (brief : Brief) : Activity :=
  .log "Loading plan file..." .info <|
  match planPath brief.workspace plansDir brief.planRef with
  | .error fault => .fail fault
  | .ok path => keepPlan path settleSeconds

def generatePromptActivity (settleSeconds : Binary64) (brief : Brief) : Activity :=
  .log "Generating execution prompt..." .info <|
  .ask (.prompt "plan" brief.planRef) false fun prompt =>
    .store "prompt" (.text prompt) <|
    .log "Prompt generated" .success <|
    .log "You can now paste this into your AI agent" .info <|
    settle settleSeconds <| .done (.text prompt)

/-- The steps of a simulated phase, each with a wait after it. -/
def simulatedSteps (span : Option Time) (next : Activity) : List String → Activity
  | [] => next
  | step :: rest =>
    .log ("  • " ++ step ++ "...") .info <| .sleep span <| simulatedSteps span next rest

def simulatedActivity (intro title : String) (span : Option Time) (steps : List String) :
    Activity :=
  .log intro .info <|
  .log "This is a simulated phase; no agent process is started for it." .warning <|
  simulatedSteps span (.log (title ++ " completed") .success <| .done (textList steps)) steps

/-- What is left to do when the queue has no further task. -/
def concludeTasks (brief : Brief) (outputs : List (String × String)) : Activity :=
  let executed := textList (outputs.map (·.2))
  .store "exec_outputs" executed <|
  .log (s!"Executed {outputs.length} task(s) with " ++ brief.agent.display) .success <|
  .done executed

/-- Executes pending tasks one by one. `outputs` holds what the executed tasks printed, in order,
and `room` is how many more may be executed. A task that is still pending after it was executed
ends the phase, so that none is executed twice. -/
def drainTasks (brief : Brief) (maxTasks : Int) (room : Nat) (outputs : List (String × String)) :
    Activity :=
  .ask (.tasksNext brief.planRef) false fun (reply : Reply.NextTask) =>
    match reply.task? with
    | none => concludeTasks brief outputs
    | some task =>
      match outputs.lookup task.id with
      | some output => .fail (.stillPending task.id brief.agent.display output)
      | none =>
        match room with
        | 0 => .fail (.queueNotDrained brief.planRef maxTasks)
        | room + 1 =>
          .log ("Executing " ++ task.id ++ ": " ++ task.title) .info <|
          .ask (.exec task.id brief.planRef brief.agent) true fun (output : String) =>
            drainTasks brief maxTasks room (outputs ++ [(task.id, output)])

/-- The last words of a verification. -/
def concludeVerification (report : Reply.Verification) : Activity :=
  if report.verdict = some .failed then
    .log "Verification reported failing checks" .warning <| .done report.value
  else .done report.value

def verifyActivity (brief : Brief) : Activity :=
  .log "Running verification..." .info <|
  .log "Executing opusflow verify command..." .info <|
  .ask (.verify brief.planRef) true fun (report : Reply.Verification) =>
    let path := brief.workspace.join (.ofString report.path)
    .store "verify_result" report.value <|
    .read path fun content =>
      match content with
      | .ok content =>
        .store "verification_report" (.text content) <|
        .log ("Verification report created: " ++ path.fileName) .success <|
        concludeVerification report
      | .error (.notUtf8 defect) => .fail (.file (.notUtf8 defect))
      | .error problem =>
        if isUnaskable problem then .fail (.file problem) else concludeVerification report

/-- An implementation step takes one and a half times as long as others. -/
def implementationWeight : Binary64 := .ofDivision 3 2

def action : StandardPhase → PhaseAction
  | loadPlan plansDir settleSeconds =>
    { id := "load-plan", title := "Load Plan", description := "Load and parse the plan file"
      activity := loadPlanActivity plansDir settleSeconds }
  | generatePrompt settleSeconds =>
    { id := "generate-prompt", title := "Generate Prompt"
      description := "Generate execution prompt for AI agent"
      activity := generatePromptActivity settleSeconds }
  | research stepSeconds =>
    { id := "execute-research", title := "Research Phase"
      description := "AI agent researches and plans implementation"
      activity := fun _ =>
        simulatedActivity "Executing research phase..." "Research Phase" (Time.span? stepSeconds)
          ["Analyzing requirements", "Researching solutions", "Planning implementation"] }
  | implementation stepSeconds =>
    { id := "execute-implementation", title := "Implementation Phase"
      description := "AI agent implements the planned changes"
      activity := fun _ =>
        simulatedActivity "Executing implementation phase..." "Implementation Phase"
          (Time.span? (stepSeconds.mul implementationWeight))
          ["Creating files", "Writing code", "Running tests", "Fixing issues"] }
  | simulated stepSeconds =>
    { id := "phase", title := "Phase", description := ""
      activity := fun _ =>
        simulatedActivity "Executing phase..." "Phase" (Time.span? stepSeconds) [] }
  | agentExec maxTasks =>
    { id := "execute-implementation", title := "Implementation Phase"
      description := "AI agent implements the planned changes"
      activity := fun brief => drainTasks brief maxTasks maxTasks.toNat [] }
  | verify =>
    { id := "verify-implementation", title := "Verification"
      description := "Verify implementation against plan"
      activity := verifyActivity }

def defaultPlansDir : Value := .text "opusflow-planning/plans"

/-- The phases of a run, unless others are given: load the plan, generate a prompt, do the work, and
verify it. The work is simulated or done by an agent, task by task. -/
def defaults (plansDir : Value) (delaySeconds : Binary64) (agentExecutes : Bool) :
    List StandardPhase :=
  [loadPlan plansDir (delaySeconds.mul (.ofDivision 1 2)), generatePrompt delaySeconds,
    research delaySeconds,
    if agentExecutes then agentExec 50 else implementation delaySeconds, verify]

end StandardPhase

end Conductor
