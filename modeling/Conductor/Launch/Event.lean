import Conductor.Value.Identity

/-!
What is told about a launched program: its start, and then exactly one of a failed launch, a kill or
an exit.
-/

namespace Conductor

/-- An exit code as a value; a program that was killed has none. -/
def exitCodeValue (code : Option Int) : Value :=
  (code.map Value.int).getD .null

def textOrNull (text : Option String) : Value :=
  (text.map Value.text).getD .null

def textList (items : List String) : Value :=
  .list (items.map Value.text)

inductive LaunchEvent where
  | started (command : List Value) (cwd : Option String)
  | failed (program : Value) (reason : String)
  | killed (program : Value) (pid : Nat) (reason : String)
  /-- The size of the output counts characters; of the error output the end is shown. -/
  | exited (program : Value) (exitCode : Option Int) (stdoutSize : Nat) (stderrTail : String)
  deriving DecidableEq

def LaunchEvent.fields : LaunchEvent → List (String × Value)
  | started command cwd =>
    [("event", .text "process_start"), ("command", .list command), ("cwd", textOrNull cwd)]
  | failed program reason =>
    [("event", .text "process_launch_failed"), ("program", program), ("error", .text reason)]
  | killed program pid reason =>
    [("event", .text "process_killed"), ("program", program), ("pid", .int pid),
      ("reason", .text reason)]
  | exited program exitCode stdoutSize stderrTail =>
    [("event", .text "process_exit"), ("program", program),
      ("exit_code", exitCodeValue exitCode), ("stdout_bytes", .int stdoutSize),
      ("stderr", .text stderrTail)]

end Conductor
