import Conductor.CommandLine.Command
import Conductor.CommandLine.Printed
import Conductor.CommandLine.Transcript
import Conductor.Orchestrator
import Conductor.Phase.Standard
import Conductor.Session.OfSettings

/-!
Carrying out the commands of a command line. A fault that a command knows how to tell of ends it
with an error message and the exit code 1; any other fault escapes.
-/

namespace Conductor.CommandLine

/-- How a command ended. -/
inductive Ending where
  | exit (code : Nat)
  /-- A fault about which nothing was said. -/
  | escaped (fault : Fault)
  /-- The command waits for something that never comes. -/
  | hanging
  deriving DecidableEq

abbrev Ended := World × Ending

/-- Ends with an error message. -/
def complain (message : String) (w : World) : Ended :=
  (w.sayLine .stderr ("Error: " ++ message), .exit 1)

/-- A message with what the tool itself said about a failure. -/
def withStderr (message stderr : String) : String :=
  let stderr := Text.trim stderr
  if stderr.isEmpty then message else message ++ "\n" ++ stderr

/-- What is said about a fault, if it is one of those that every command tells of. -/
def report? (fault : Fault) : Option String :=
  match fault with
  | .commandFailed _ _ stderr => some (withStderr fault.message stderr)
  | .toolReported _ stderr _ => some (withStderr fault.message (stderr.getD ""))
  | .launchFailed .. => some fault.message
  | .toolNotFound _ => some fault.message
  | .reply (.unreadable ..) => some fault.message
  | .execReported .. => some fault.message
  | .stillPending .. => some fault.message
  | .settings _ => some fault.message
  | .login _ => some fault.message
  | _ => none

/-- What is said about a fault that ends a run and is not one of those. -/
def runReport? (fault : Fault) : Option String :=
  match fault with
  | .reply (.numberTooLong _) => some fault.message
  | .tooLarge (.toRead _) => some fault.message
  | .tooLarge .toShow => some fault.message
  | .queueNotDrained .. => some fault.message
  | .runInProgress => some fault.message
  | .planMissing _ => some fault.message
  | .planNotUtf8 _ => some fault.message
  | .file _ => some fault.message
  | .tooDeep => some fault.message
  | _ => none

/-- Ends with a fault. -/
def failWith (fault : Fault) (w : World) : Ended :=
  match report? fault with
  | some message => complain message w
  | none => (w, .escaped fault)

/-- Follows a course to its end and goes on with its result. -/
def conclude {α : Type} (course : Course α) (onFault : Fault → World → Ended)
    (next : α → World → Ended) : Ended :=
  match course.finish with
  | (w, some (.ok a)) => next a w
  | (w, some (.error fault)) => onFault fault w
  | (w, none) => (w, .hanging)

/-- Prints the output of a program as it comes. -/
def echoSink : Sink := fun chunk w => (w.say .stdout chunk, none)

/-- What the commands that use the tool work with. -/
structure Workbench where
  settings : Settings
  /-- From which severity on log lines are shown. -/
  threshold : Nat
  directory : Path
  client : Client

namespace Workbench

/-- The threshold of the log: the level given on the command line, unless it is empty, and else the
one of the settings. -/
def thresholdOf (given : Option String) (settings : Settings) : Except Fault (String ⊕ Nat) :=
  let named (level : String) := (logThreshold? level).elim (.inl level) .inr
  match given.filter (fun level => !level.isEmpty), settings.logging.level with
  | some level, _ => .ok (named level)
  | none, .text level => .ok (named level)
  | none, _ => .error .noAttribute

/-- Loads the settings and gets everything ready. -/
def open? (base settingsPath : Path) (logLevel : Option String) (w : World) :
    Except Ended Workbench :=
  match Settings.load w.files settingsPath with
  | .error fault => .error (failWith fault w)
  | .ok settings =>
    match thresholdOf logLevel settings, settings.workingDirectory base with
    | .error fault, _ => .error (w, .escaped fault)
    | .ok (.inl level), _ => .error (complain ("Unknown log level: " ++ level) w)
    | .ok (.inr _), .error fault => .error (w, .escaped fault)
    | .ok (.inr threshold), .ok directory =>
      .ok {
        settings, threshold, directory
        client := {
          binary := settings.tool.binary
          workingDirectory := some directory.toString } }

/-- Tells whether the tool is installed. -/
def checkInstalled (bench : Workbench) (w : World) : Ended :=
  conclude (bench.client.isInstalled w) failWith fun installed w =>
    if installed then (w.sayLine .stdout (bench.client.binary.display ++ " is installed."), .exit 0)
    else complain (bench.client.binary.display ++ " is not installed.") w

/-- Asks the tool and prints the answer. -/
def ask (bench : Workbench) (request : Request) (w : World) : Ended :=
  let sink := if request.isStreamed then some echoSink else none
  conclude (bench.client.ask request none sink w) failWith fun answer w =>
    (w.sayLines (request.printed answer), .exit 0)

/-- The delay between the steps of a run, which has to be a number. -/
def stepDelay (settings : PipelineSettings) : Except Fault Binary64 :=
  match settings.stepDelaySeconds with
  | .float x => .ok x
  | .int n => if Binary64.isFiniteOf n then .ok (.ofInt n) else .error (.tooLarge .forFloat)
  | .bool b => .ok (.ofInt (Value.ofBool b))
  | _ => .error (.wrongType .forAnything)

def failRun (fault : Fault) (w : World) : Ended :=
  match runReport? fault with
  | some message => complain ("Workflow execution failed: " ++ message) w
  | none => failWith fault w

/-- Runs the workflow of a plan with its standard phases, and shows what happens. -/
def run (bench : Workbench) (planRef : String) (agent : Option String) (agentExecutes : Bool)
    (w : World) : Ended :=
  let pipeline := bench.settings.pipeline
  match stepDelay pipeline with
  | .error fault => (w, .escaped fault)
  | .ok delay =>
    let phases := StandardPhase.defaults pipeline.plansDir delay
      (agentExecutes || pipeline.agentExec.isTruthy)
    let orchestrator : Orchestrator := {
      client := bench.client
      workspace := bench.directory
      actions := phases.map (·.action) }
    let given := agent.filter fun name => !name.isEmpty
    let agent := (given.map Value.text).getD pipeline.defaultAgent
    let w := { w with bus := {}, current := none }
    conclude (orchestrator.run planRef agent (w.subscribe .console)) failRun fun _ w =>
      (w.sayLine .stdout ("Workflow completed: " ++ planRef), .exit 0)

/-- Tells of a login that failed; where the agent is missing, what can be done about it is said. -/
def failLogin (fault : Fault) (w : World) : Ended :=
  match fault with
  | .login (.manualRequired _ hint) =>
    let w := w.sayLine .stderr (fault.message ++ " - manual login required.")
    (w.sayLine .stderr hint.display, .exit 2)
  | _ => failWith fault w

/-- Sees to it that there is a session with the coding agent. -/
def login (bench : Workbench) (timeout : Option Binary64) (w : World) : Ended :=
  let settings := bench.settings.session
  let settings : SessionSettings :=
    { settings with timeoutSeconds := (timeout.map Value.float).getD settings.timeoutSeconds }
  match settings.session with
  | .error fault => (w, .escaped fault)
  | .ok session =>
    conclude (session.login none (some echoSink) w) failLogin fun method w =>
      let greeting :=
        match method with
        | .existing => "Already authenticated with "
        | .interactive => "Authenticated with "
      (w.sayLine .stdout (greeting ++ session.binary.display ++ "."), .exit 0)

/-- Does a job. -/
def perform (bench : Workbench) : Job → World → Ended
  | .checkInstalled => bench.checkInstalled
  | .ask request => bench.ask request
  | .run planRef agent agentExecutes => bench.run planRef agent agentExecutes
  | .login timeout => bench.login timeout

end Workbench

/-- Writes a settings file: the settings that are there, with another tool if one is named. -/
def initialise (path : Path) (binary : Option String) (w : World) : Ended :=
  match Settings.load w.files path with
  | .error fault => failWith fault w
  | .ok settings =>
    let settings :=
      match binary.filter (fun name => !name.isEmpty) with
      | some name => { settings with tool.binary := .text name }
      | none => settings
    match settings.save w.files path with
    | .error fault => (w, .escaped fault)
    | .ok files =>
      let w := { w with files }
      (w.sayLines ["Config: " ++ path.toString,
        "OpusFlow binary: " ++ settings.tool.binary.display], .exit 0)

/-- All that can be seen of a command line that was carried out. -/
structure Result where
  ending : Ending
  stdout : String
  stderr : String
  world : World

/-- The exit code; a fault that escapes is an error. -/
def Ending.exitCode : Ending → Nat
  | exit code => code
  | escaped _ => 1
  | hanging => 1

/-- Where a command line is given: the current directory, and what log lines have in the place of
the time. -/
structure Console where
  directory : Path
  clock : String

namespace Console

/-- What can be seen since `before`. -/
def result (console : Console) (before : World) (threshold : Option Nat) (ended : Ended) : Result :=
  let (w, ending) := ended
  let recent : Journal := w.journal.take (w.journal.length - before.journal.length)
  { ending
    stdout := recent.output console.clock threshold .stdout
    stderr := recent.output console.clock threshold .stderr
    world := w }

/-- Carries out an invocation. Only where settings are written nothing is logged. -/
def invoke (console : Console) (invocation : Invocation) (w : World) : Result :=
  match (console.directory.join (.ofString invocation.settingsFile)).resolve? with
  | none => console.result w none (w, .escaped (.file .holdsNul))
  | some path =>
    match invocation.command with
    | .init binary => console.result w none (initialise path binary w)
    | .work job =>
      match Workbench.open? console.directory path invocation.logLevel w with
      | .error ended => console.result w none ended
      | .ok bench => console.result w (some bench.threshold) (bench.perform job w)

/-- Carries out a command line. -/
def execute (console : Console) (words : List String) (w : World) : Result :=
  match Invocation.ofWords words with
  | .ok invocation => console.invoke invocation w
  | .error refusal =>
    let channel := if refusal.problem = .help then Channel.stdout else .stderr
    console.result w none (w.say channel refusal.text, .exit refusal.exitCode)

end Console

end Conductor.CommandLine
