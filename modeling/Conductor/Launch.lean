import Conductor.Course
import Conductor.Launch.Pump

/-!
Launching one program and reading what it prints. Once a program has been launched, the call ends
either with its outcome, after it has exited, or with a fault; in the latter case the program is
killed before the fault is passed on.
-/

namespace Conductor

/-- Takes a chunk of text as soon as it has been read, and may fail. -/
abbrev Sink := String → World → World × Option Fault

namespace Sink

/-- Enters chunks into the journal, and then fails if `react` says so. -/
def recording (channel : Channel) (react : Journal → Option Fault) : Sink := fun text w =>
  let w := w.enter (.chunk channel text)
  (w, react w.journal)

/-- Hands chunks to a sink until it fails; there may be no sink. -/
def hand : Option Sink → List (List Char) → World → World × Option Fault
  | none, _, w => (w, none)
  | some _, [], w => (w, none)
  | some sink, chunk :: rest, w =>
    match sink (String.ofList chunk) w with
    | (w, none) => hand (some sink) rest w
    | (w, some fault) => (w, some fault)

end Sink

/-- What to launch, and what to do with its output. -/
structure Order where
  program : Value
  args : List Value
  cwd : Option String := none
  env : Option (List (String × String)) := none
  readSize : ReadSize := .upTo 4095
  onStdout : Option Sink := none
  onStderr : Option Sink := none

namespace Order

def command (order : Order) : List Value := order.program :: order.args

/-- The directory to start in; an empty one means none. -/
def directory (order : Order) : Option String := order.cwd.filter (fun cwd => !cwd.isEmpty)

end Order

/-- What a program that has exited leaves behind. -/
structure Outcome where
  stdout : String
  stderr : String
  exitCode : Option Int
  deriving DecidableEq, Repr

def Outcome.succeeded (outcome : Outcome) : Bool := outcome.exitCode == some 0

/-- The last `n` elements. -/
def lastOf {α : Type} (n : Nat) (items : List α) : List α := items.drop (items.length - n)

/-- A launched program. -/
structure Child where
  order : Order
  pid : Nat
  born : Time
  script : Script

/-- The readers of the two pipes. -/
structure Pumps where
  stdout : Pump
  stderr : Pump

namespace Pumps

def ofScript (script : Script) : Pumps :=
  { stdout := .ofPipe script.stdout.isSome, stderr := .ofPipe script.stderr.isSome }

def isDone (pumps : Pumps) : Bool := !pumps.stdout.isOpen && !pumps.stderr.isOpen

end Pumps

namespace Child

def logger : String := "flowpilot.process"

/-- Whether the program has exited by itself. -/
def hasExited (child : Child) (w : World) : Bool :=
  match child.script.exitTime? with
  | some t => Time.after child.born t ≤ w.now
  | none => false

/-- Ends the call with a fault: a program that is still there is killed first. -/
def abandon (child : Child) (fault : Fault) (w : World) : Course Outcome :=
  let w := w.enter (.launch (.killed child.order.program child.pid fault.name))
  let w := w.log .info logger
    ("Killing " ++ child.order.program.display ++ s!" (pid {child.pid}) after " ++ fault.name)
  let w := if child.hasExited w || !child.script.killable then w else w.enter (.kill child.pid)
  .ended w (.error fault)

/-- Ends the call when told to stop. -/
def stopped (child : Child) (w : World) (message : String) : Course Outcome :=
  child.abandon (.cancelled message) w

/-- Ends the call with what the program has printed. -/
def conclude (child : Child) (pumps : Pumps) (w : World) : Course Outcome :=
  let stdout := pumps.stdout.text
  let stderr := pumps.stderr.text
  let exitCode := Script.visibleExitCode (some child.script.exitCode)
  let w := w.enter (.launch (.exited child.order.program exitCode stdout.length
    (String.ofList (lastOf 400 stderr))))
  .ended w (.ok { stdout := String.ofList stdout, stderr := String.ofList stderr, exitCode })

/-- Waits for the exit once both pipes have ended. -/
def reap (child : Child) (pumps : Pumps) (w : World) : Course Outcome :=
  if child.hasExited w then child.conclude pumps w
  else
    match child.script.exitTime? with
    | some t => .waiting w (Time.after child.born t) (child.conclude pumps) child.stopped
    | none => .hanging w child.stopped

/-- One turn: the reader of the standard output reads all there is, then the reader of the error
output, which has its turn also when the first one's sink failed. -/
def read (child : Child) (turn : Turn) (pumps : Pumps) (w : World) :
    Pumps × World × Option Fault :=
  let (stdout, chunks) := pumps.stdout.turn child.order.readSize turn.stdout turn.isLast
  let (w, fault) := Sink.hand child.order.onStdout chunks w
  let (stderr, chunks) := pumps.stderr.turn child.order.readSize turn.stderr turn.isLast
  let (w, fault') := Sink.hand child.order.onStderr chunks w
  ({ stdout, stderr }, w, fault.or fault')

/-- Reads turn by turn until both pipes have ended. -/
def follow (child : Child) (pumps : Pumps) : List Turn → World → Course Outcome
  | [], w => .hanging w child.stopped
  | turn :: rest, w =>
    match child.read turn pumps w with
    | (_, w, some fault) => child.abandon fault w
    | (pumps, w, none) =>
      if pumps.isDone then .waiting w w.now (child.reap pumps) child.stopped
      else
        match rest with
        | [] => .hanging w child.stopped
        | next :: _ =>
          .waiting w (Time.after child.born next.time) (fun w => child.follow pumps rest w)
            child.stopped

end Child

namespace Order

/-- The launch failed: nothing runs. -/
def refuse (order : Order) (reason : String) (w : World) : Course Outcome :=
  let w := w.enter (.spawn ⟨order.command, order.directory, order.env⟩ none)
  let w := w.enter (.launch (.failed order.program reason))
  .ended w (.error (.launchFailed order.program reason))

/-- Launches the program and waits for its end. The words of the command go to the system as they
are, and only the system can refuse it. -/
def launch (order : Order) : Flow Outcome := fun w =>
  let w := w.enter (.launch (.started order.command order.directory))
  let w := w.log .debug Child.logger ("Launching " ++ (Value.list order.command).shown)
  match w.responses with
  | [] => order.refuse "no scripted response" w
  | .refused reason :: rest => order.refuse reason { w with responses := rest }
  | .started script :: rest =>
    let child : Child := { order, pid := w.nextPid, born := w.now, script }
    let w := { w with responses := rest, nextPid := w.nextPid + 1 }
    let w := w.enter (.spawn ⟨order.command, order.directory, order.env⟩ (some child.pid))
    .waiting w w.now (child.follow (.ofScript script) script.turns) child.stopped

end Order

end Conductor
