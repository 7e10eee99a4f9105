import Conductor.Phase.Activity

/-!
Running a fixed list of phases as one workflow run. Phases run one after the other; the first one
that fails ends the run, and its fault is passed on after the run has been marked failed. Only one
run may be under way at a time.
-/

namespace Conductor

structure Orchestrator where
  client : Client
  workspace : Path
  actions : List PhaseAction

namespace Orchestrator

def logger : String := "flowpilot.orchestrator"

/-! ### Events of a run -/

def startedEvent (run : Run) (stamp : Stamp) : Event :=
  { kind := .runStarted
    message := "🚀 Starting workflow execution with " ++ run.agent.display
    data := [("plan_reference", .text run.planRef), ("phases", textList (run.phases.map (·.id)))]
    stamp }

def phaseStartedEvent (action : PhaseAction) (stamp : Stamp) : Event :=
  { kind := .phaseStarted
    message := "▶️  " ++ action.title
    phaseId := some action.id
    stamp }

def phaseFailedEvent (action : PhaseAction) (error : String) (stamp : Stamp) : Event :=
  { kind := .phaseFailed
    message := "✗ " ++ action.title ++ " failed: " ++ error
    level := .error
    phaseId := some action.id
    stamp }

def phaseCompletedEvent (action : PhaseAction) (start stamp : Stamp) : Event :=
  { kind := .phaseCompleted
    message := "✓ " ++ action.title ++ " completed in " ++ Stamp.duration start stamp
    level := .success
    phaseId := some action.id
    stamp }

/-- How much of the run is done once `count` of `total` phases are, in percent. -/
def percentDone (count total : Nat) : Binary64 :=
  (Binary64.ofDivision count total).mul (.ofNat 100)

def progressEvent (action : PhaseAction) (count total : Nat) (stamp : Stamp) : Event :=
  { kind := .progress
    phaseId := some action.id
    progress := some (.float (percentDone count total))
    stamp }

/-- The failure of a run names the error of its current phase, which may have none. -/
def failedEvent (action : PhaseAction) (error : Option String) (fault : Fault) (stamp : Stamp) :
    Event :=
  { kind := .runFailed
    message := "❌ Workflow failed: " ++ error.getD "None"
    level := .error
    phaseId := some action.id
    data := [("error_type", .text fault.name)]
    stamp }

def completedEvent (start stamp : Stamp) : Event :=
  let duration := Stamp.duration start stamp
  { kind := .runCompleted
    message := "✅ Workflow completed successfully in " ++ duration
    level := .success
    data := [("duration", .text duration)]
    stamp }

/-! ### Phases -/

/-- Tells of a failure and passes the fault on; a subscriber that fails on hearing of it puts its
own fault in the place of the first. -/
def passOn (event : Stamp → Event) (fault : Fault) : Flow Unit :=
  Flow.seq (Flow.step (World.announce event)) fun _ => Flow.fail fault

/-- Marks the current phase failed and passes the fault on. -/
def failPhase (action : PhaseAction) (fault : Fault) : Flow Unit := fun w =>
  let w := w.modifyRun (·.modifyCurrent fun phase =>
    { phase with status := .failed, error := some fault.summary })
  Flow.stamped (fun stamp w =>
    let w := w.modifyRun (·.modifyCurrent fun phase => { phase with finish := some stamp })
    passOn (phaseFailedEvent action fault.summary) fault w) w

def completePhase (action : PhaseAction) (start : Stamp) : Flow Unit := fun w =>
  let w := w.modifyRun (·.modifyCurrent fun phase => { phase with status := .completed })
  Flow.stamped (fun stamp w =>
    let w := w.modifyRun (·.modifyCurrent fun phase => { phase with finish := some stamp })
    Flow.step (World.announce (phaseCompletedEvent action start)) w) w

/-- Runs the current phase. -/
def executePhase (brief : Brief) (action : PhaseAction) : Flow Unit := fun w =>
  let w := w.modifyRun (·.modifyCurrent fun phase => { phase with status := .running })
  Flow.stamped (fun start w =>
    let w := w.modifyRun (·.modifyCurrent fun phase => { phase with start := some start })
    (Flow.step (World.announce (phaseStartedEvent action)) w).bind fun w _ =>
      ((action.activity brief).perform brief action.id w).andThen fun w result =>
        match result with
        | .ok () => completePhase action start w
        | .error fault =>
          if fault.isFatal then .ended w (.error fault) else failPhase action fault w) w

/-- Marks the run failed and passes the fault on. -/
def failRun (action : PhaseAction) (fault : Fault) : Flow Unit := fun w =>
  let w := w.modifyRun fun run => { run with status := .failed }
  Flow.stamped (fun stamp w =>
    let w := w.modifyRun fun run => { run with finish := some stamp }
    let error := (w.current.bind (·.currentPhase?)).bind (·.error)
    passOn (failedEvent action error fault) fault w) w

/-- Runs the remaining phases, of which the first is number `index` of `total`. -/
def phasesFrom (brief : Brief) (total : Nat) : Nat → List PhaseAction → Flow Unit
  | _, [] => Flow.pure ()
  | index, action :: rest => fun w =>
    let w := w.modifyRun fun run => { run with index }
    (executePhase brief action w).andThen fun w result =>
      match result with
      | .error fault => if fault.isFatal then .ended w (.error fault) else failRun action fault w
      | .ok () =>
        (Flow.step (World.announce (progressEvent action (index + 1) total)) w).bind fun w _ =>
          phasesFrom brief total (index + 1) rest w

def completeRun (start : Stamp) : Flow Unit := fun w =>
  let w := w.modifyRun fun run => { run with status := .completed }
  Flow.stamped (fun stamp w =>
    let w := w.modifyRun fun run => { run with finish := some stamp }
    Flow.step (World.announce (completedEvent start)) w) w

/-- Whether a run is under way. -/
def isBusy (w : World) : Bool :=
  match w.current with
  | some run => run.status == .running
  | none => false

/-- What the phases of a run are told. -/
def briefing (o : Orchestrator) (planRef : String) (agent : Value) : Brief :=
  { planRef, agent, workspace := o.workspace, client := o.client }

/-- The record of a run at its start. -/
def newRun (o : Orchestrator) (planRef : String) (agent : Value) (start : Stamp) (w : World) :
    Run :=
  { number := w.runCount, planRef, agent, phases := o.actions.map (·.phase), start }

/-- Makes a new run the current one. -/
def commence (o : Orchestrator) (planRef : String) (agent : Value) (start : Stamp) (w : World) :
    World :=
  { w with current := some (o.newRun planRef agent start w), runCount := w.runCount + 1 }.log
    .info logger ("Starting workflow run for " ++ planRef ++ " with " ++ agent.display)

/-- Starts a run and follows it to its end; the result is the number of the run. A call while
another run is under way is refused and changes nothing. -/
def run (o : Orchestrator) (planRef : String) (agent : Value) : Flow Nat := fun w =>
  if isBusy w then .ended w (.error .runInProgress)
  else
    Flow.stamped (fun start w =>
      let run := o.newRun planRef agent start w
      let w := o.commence planRef agent start w
      (Flow.step (World.announce (startedEvent run)) w).bind fun w _ =>
        (phasesFrom (o.briefing planRef agent) o.actions.length 0 o.actions w).bind fun w _ =>
          (completeRun start w).bind fun w _ => .ended w (.ok run.number)) w

end Orchestrator

end Conductor
