import Conductor.World
import Conductor.Text.Escape
import Conductor.Text.Fold

/-!
What stands on the standard output and on the error output, as a function of the journal: what was
printed, what the subscriber of a run is told, and the lines of the log from a threshold on.
-/

namespace Conductor

/-- The names of log levels, with the severity from which on lines are shown. -/
def logLevels : List (String × Nat) :=
  [("NOTSET", 0), ("DEBUG", 10), ("INFO", 20), ("WARN", 30), ("WARNING", 30), ("ERROR", 40),
    ("FATAL", 50), ("CRITICAL", 50)]

/-- The threshold that a log level sets, in letters of either case. -/
def logThreshold? (name : String) : Option Nat :=
  logLevels.lookup (String.ofList (name.toList.map Text.upperAsciiChar))

namespace World

/-- Prints a text. -/
def say (channel : Channel) (text : String) (w : World) : World :=
  w.enter (.echo channel (Text.plain text))

def sayLine (channel : Channel) (line : String) (w : World) : World :=
  w.say channel (line ++ "\n")

def sayLines (lines : List String) (w : World) : World :=
  lines.foldl (fun w line => w.sayLine .stdout line) w

end World

/-- The subscriber that shows a run to whoever started it. -/
def Subscriber.console : Subscriber := { name := "console", react := fun _ _ => none }

/-- The line that tells of an event: how far the run is, or else what the event says. -/
def Event.line? (event : Event) : Option (Channel × String) :=
  match event.kind, event.progress with
  | .progress, some (.float x) => some (.stdout, "Progress: " ++ x.fixed 0 ++ "%")
  | _, _ =>
    if event.message.isEmpty then none
    else some (if event.level = .error then .stderr else .stdout, event.message)

/-- A line of the log. In the place of the time stands `clock`. -/
def logLine (clock : String) (severity : Severity) (logger message : String) : String :=
  clock ++ " " ++ severity.name ++ " " ++ logger ++ ": " ++ message ++ "\n"

/-- What an entry of the journal puts on one of the outputs. No log line is shown without a
threshold. -/
def Entry.output? (clock : String) (threshold : Option Nat) : Entry → Option (Channel × String)
  | .log severity logger message =>
    if threshold.any (· ≤ severity.rank) then
      some (.stderr, logLine clock severity logger message)
    else none
  | .delivery subscriber event _ =>
    if subscriber = Subscriber.console.name then
      event.line?.map fun (channel, line) => (channel, Text.plain (line ++ "\n"))
    else none
  | .echo channel text => some (channel, text)
  | _ => none

/-- All that stands on one of the outputs. -/
def Journal.output (clock : String) (threshold : Option Nat) (channel : Channel)
    (journal : Journal) : String :=
  String.join ((journal.reverse.filterMap (Entry.output? clock threshold)).filterMap
    fun (on, text) => if on = channel then some text else none)

end Conductor
