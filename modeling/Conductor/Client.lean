import Conductor.Launch
import Conductor.Request

/-!
The planning tool as this library uses it. Every request runs the tool exactly once; a launch that
fails, an exit other than a clean one and a reply that cannot be read all end in a fault.
-/

namespace Conductor

structure Client where
  binary : Value := .text "opusflow"
  workingDirectory : Option String := none
  readSize : ReadSize := .upTo 4095

namespace Client

def logger : String := "flowpilot.client"

/-- The command line of a request, for messages. -/
def commandLine (client : Client) (args : List Value) : Except Fault String := do
  Request.checkWords (client.binary :: args)
  return Fault.commandLine (client.binary :: args)

def order (client : Client) (args : List Value) (cwd : Option String) (sink : Option Sink) :
    Order :=
  { program := client.binary
    args
    cwd := cwd.or client.workingDirectory
    readSize := client.readSize
    onStdout := sink
    onStderr := sink }

/-- Runs the tool and insists on a clean exit. -/
def run (client : Client) (args : List Value) (cwd : Option String) (sink : Option Sink) :
    Flow Outcome := fun w =>
  let w := w.enter (.client (.started args))
  ((client.order args cwd sink).launch w).andThen fun w result =>
    match result with
    | .error (.launchFailed program reason) =>
      let w := w.enter (.client (.notFound client.binary))
      let w := w.log .warning logger
        ("OpusFlow binary " ++ client.binary.shown ++ " could not be launched: " ++
          (Fault.launchFailed program reason).message)
      .ended w (.error (.toolNotFound (client.binary :: args)))
    | .error fault => .ended w (.error fault)
    | .ok outcome =>
      if outcome.succeeded then .ended (w.enter (.client (.exited args))) (.ok outcome)
      else
        let head := String.ofList (outcome.stderr.toList.take 400)
        let w := w.enter (.client (.failed args outcome.exitCode head))
        let command := client.binary :: args
        match Request.checkWords command with
        | .error fault => .ended w (.error fault)
        | .ok () => .ended w (.error (.commandFailed command outcome.exitCode outcome.stderr))

/-- Tells that a task failed although the tool exited cleanly. -/
def reportExec (request : Request) (w : World) : World :=
  match request with
  | .exec task _ agent => w.enter (.client (.execFailed task agent))
  | _ => w

/-- Asks the tool. -/
def ask (client : Client) (request : Request) (cwd : Option String) (sink : Option Sink) :
    Flow request.Answer := fun w =>
  (client.run request.words cwd sink w).bind fun w outcome =>
    match request.decode client.binary outcome.stdout with
    | .ok answer => .ended w (.ok answer)
    | .error fault => .ended (reportExec request w) (.error fault)

/-- Whether the tool can be run at all. -/
def isInstalled (client : Client) : Flow Bool := fun w =>
  let order : Order :=
    { program := client.binary, args := [.text "--help"], readSize := client.readSize }
  (order.launch w).andThen fun w result =>
    match result with
    | .ok outcome => .ended w (.ok outcome.succeeded)
    | .error (.launchFailed ..) => .ended w (.ok false)
    | .error fault => .ended w (.error fault)

end Client

end Conductor
