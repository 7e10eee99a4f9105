import Conductor.Launch.Event

/-!
What is told about a command of the planning tool.
-/

namespace Conductor

inductive ClientEvent where
  | started (args : List Value)
  | notFound (binary : Value)
  | failed (args : List Value) (exitCode : Option Int) (stderrHead : String)
  | exited (args : List Value)
  | execFailed (task : String) (agent : Value)
  deriving DecidableEq

def ClientEvent.fields : ClientEvent → List (String × Value)
  | started args => [("event", .text "cli_command_start"), ("args", .list args)]
  | notFound binary => [("event", .text "cli_not_found"), ("binary", binary)]
  | failed args exitCode stderrHead =>
    [("event", .text "cli_command_failed"), ("args", .list args),
      ("exit_code", exitCodeValue exitCode), ("stderr", .text stderrHead)]
  | exited args =>
    [("event", .text "cli_command_exit"), ("args", .list args), ("exit_code", .int 0)]
  | execFailed task agent =>
    [("event", .text "cli_exec_failed"), ("task", .text task), ("agent", agent)]

end Conductor
