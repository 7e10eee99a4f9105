import Conductor.Event
import Conductor.Run
import Conductor.Launch.Event
import Conductor.Client.Event
import Conductor.Session.Event

/-!
The journal: everything that can be observed from outside, in the order in which it happened. The
latest entry stands first.
-/

namespace Conductor

/-- The two pipes of a launched program. -/
inductive Channel where
  | stdout
  | stderr
  deriving DecidableEq, Repr

def Channel.name : Channel → String
  | stdout => "stdout"
  | stderr => "stderr"

/-- What the system is asked to launch. -/
structure Spawn where
  command : List Value
  cwd : Option String
  env : Option (List (String × String)) := none
  deriving DecidableEq

inductive Entry where
  | log (severity : Severity) (logger message : String)
  | launch (event : LaunchEvent)
  | client (event : ClientEvent)
  | session (event : SessionEvent)
  /-- A launch was attempted; only a successful one has a process number. -/
  | spawn (spawn : Spawn) (pid : Option Nat)
  /-- A kill took effect. -/
  | kill (pid : Nat)
  | chunk (channel : Channel) (text : String)
  /-- A subscriber received an event, with the run as it stood then. -/
  | delivery (subscriber : String) (event : Event) (run : Option Run)
  /-- Something was printed, to the standard output or to the error output. -/
  | echo (channel : Channel) (text : String)

abbrev Journal := List Entry

namespace Journal

/-- The numbers of the processes that were killed. -/
def killed (journal : Journal) : List Nat :=
  journal.filterMap fun
    | .kill pid => some pid
    | _ => none

/-- The launches in the later part of a journal, in order, each with whether the process has been
killed so far. -/
def spawns (journal recent : Journal) : List (Spawn × Bool) :=
  let killed := killed journal
  recent.reverse.filterMap fun
    | .spawn spawn (some pid) => some (spawn, killed.contains pid)
    | .spawn spawn none => some (spawn, false)
    | _ => none

end Journal

end Conductor
