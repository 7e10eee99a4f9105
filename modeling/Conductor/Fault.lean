import Conductor.Reply.Problem
import Conductor.Text.Quoted
import Conductor.Text.Utf8
import Conductor.Shell
import Conductor.Value.Identity

/-!
Everything that can go wrong, by cause. The name of a fault is what event subscribers are told; its
message is what a reader is told.
-/

namespace Conductor

/-- Why a settings file or one of its sections was refused. -/
inductive SettingsProblem where
  | notTable (sectionName typeName : String)
  | unknownKey (sectionName recordName key : String)
  /-- The one key that names the record itself. -/
  | reservedKey (sectionName recordName : String)
  | unreadable (path reason : String)
  deriving DecidableEq, Repr

namespace SettingsProblem

def message : SettingsProblem → String
  | notTable sectionName typeName => s!"[{sectionName}] must be a table, got {typeName}"
  | unknownKey sectionName recordName key =>
    s!"Invalid [{sectionName}] section: {recordName}.__init__() got an unexpected keyword " ++
      "argument '" ++ key ++ "'"
  | reservedKey sectionName recordName =>
    s!"Invalid [{sectionName}] section: {recordName}.__init__() got multiple values for " ++
      "argument 'self'"
  | unreadable path reason => s!"Could not parse {path}: {reason}"

end SettingsProblem

/-- Why a login did not lead to a session. -/
inductive LoginProblem where
  | manualRequired (provider : String) (hint : Value)
  | timedOut (provider seconds : String)
  | cancelled (provider : String)
  | exited (provider : String) (exitCode : Option Int) (stderr : String)
  | notConfirmed (provider stderr : String)
  deriving DecidableEq

/-- The exit code in words; a process that was killed has none. -/
def exitCodeText : Option Int → String
  | some code => toString code
  | none => "None"

namespace LoginProblem

def name : LoginProblem → String
  | manualRequired .. => "ManualLoginRequired"
  | timedOut .. => "SessionTimeoutError"
  | cancelled _ => "SessionCancelledError"
  | exited .. => "SessionError"
  | notConfirmed .. => "SessionNotAuthenticatedError"

def message : LoginProblem → String
  | manualRequired provider _ => s!"{provider} is not installed"
  | timedOut provider seconds => s!"{provider} login timed out after {seconds}s"
  | cancelled provider => s!"{provider} login cancelled"
  | exited provider exitCode _ =>
    s!"{provider} login failed with exit code " ++ exitCodeText exitCode
  | notConfirmed provider _ =>
    s!"{provider} login exited cleanly but the session is not authenticated"

end LoginProblem

/-- Why a file could not be read or written. -/
inductive FileProblem where
  | missing (path : String)
  | isDirectory (path : String)
  | underFile (path : String)
  /-- One of the names, or the path as a whole, has too many bytes. -/
  | tooLong (path : String)
  /-- A name holds a NUL character, which no name can hold. -/
  | holdsNul
  | notUtf8 (defect : Utf8.Defect)
  deriving DecidableEq, Repr

namespace FileProblem

def name : FileProblem → String
  | missing _ => "FileNotFoundError"
  | isDirectory _ => "IsADirectoryError"
  | underFile _ => "NotADirectoryError"
  | tooLong _ => "OSError"
  | holdsNul => "ValueError"
  | notUtf8 _ => "UnicodeDecodeError"

def message : FileProblem → String
  | missing path => "[Errno 2] No such file or directory: " ++ Text.shown path
  | isDirectory path => "[Errno 21] Is a directory: " ++ Text.shown path
  | underFile path => "[Errno 20] Not a directory: " ++ Text.shown path
  | tooLong path => "[Errno 36] File name too long: " ++ Text.shown path
  | holdsNul => "embedded null byte"
  | notUtf8 defect =>
    "'utf-8' codec can't decode " ++
      (if defect.stop = defect.start + 1 then
        "byte 0x" ++ String.ofList (Text.hex 2 defect.byte) ++ s!" in position {defect.start}: "
       else s!"bytes in position {defect.start}-{defect.stop - 1}: ") ++
      defect.reason

end FileProblem

/-- A fault raised by code outside this library: a subscriber, a sink or a phase of someone else's.
A fatal one is not taken for the failure of a phase. -/
structure ForeignFault where
  name : String
  message : String
  fatal : Bool
  deriving DecidableEq, Repr

/-- What a value of the wrong type was meant for. -/
inductive TypeProblem where
  /-- A word of a command line. -/
  | forWord (typeName : String)
  /-- A part of a path. -/
  | forPath (typeName : String)
  | forAnything
  deriving DecidableEq, Repr

def TypeProblem.message : TypeProblem → String
  | forWord typeName => "expected string or bytes-like object, got '" ++ typeName ++ "'"
  | forPath typeName =>
    "unsupported operand type(s) for /: 'PosixPath' and '" ++ typeName ++ "'"
  | forAnything => "a value has the wrong type"

inductive Fault where
  | launchFailed (program : Value) (reason : String)
  | toolNotFound (command : List Value)
  | commandFailed (command : List Value) (exitCode : Option Int) (stderr : String)
  | reply (problem : Reply.Problem)
  /-- The tool exited cleanly and reported a failure of the task in what it printed. -/
  | execReported (command : List Value) (task output failure : String)
  | stillPending (task agent output : String)
  | queueNotDrained (planRef : String) (maxTasks : Int)
  | runInProgress
  | planMissing (path : String)
  | planNotUtf8 (path : String)
  | unknownLevel (level : String)
  | file (problem : FileProblem)
  | settings (problem : SettingsProblem)
  | login (problem : LoginProblem)
  | cancelled (message : String)
  /-- A value of a type with which nothing can be done here. -/
  | wrongType (problem : TypeProblem)
  | tooLarge (problem : TooLarge)
  /-- A value that lacks what is asked of it. -/
  | noAttribute
  | badPattern
  | tooDeep
  /-- A command of the tool failed in a way that someone else reports. -/
  | toolReported (message : String) (stderr : Option String) (exitCode : Option Int)
  | foreign (fault : ForeignFault)
  deriving DecidableEq

namespace Fault

/-- What the planning tool is missing from. -/
def toolNotFoundMessage : String :=
  "OpusFlow CLI not found. Please ensure it is installed and in your PATH."

def name : Fault → String
  | launchFailed .. => "ProcessLaunchError"
  | toolNotFound _ => "CLIError"
  | commandFailed .. => "CLIError"
  | reply (.unreadable ..) => "DecodeError"
  | reply (.numberTooLong _) => "ValueError"
  | execReported .. => "TaskExecutionError"
  | stillPending .. => "TaskExecutionError"
  | queueNotDrained .. => "RuntimeError"
  | runInProgress => "RuntimeError"
  | planMissing _ => "FileNotFoundError"
  | planNotUtf8 _ => "ValueError"
  | unknownLevel _ => "KeyError"
  | file problem => problem.name
  | settings _ => "ConfigError"
  | login problem => problem.name
  | cancelled _ => "CancelledError"
  | wrongType _ => "TypeError"
  | tooLarge problem => problem.name
  | noAttribute => "AttributeError"
  | badPattern => "re.error"
  | tooDeep => "RecursionError"
  | toolReported .. => "CLIError"
  | foreign fault => fault.name

/-- A command as it can be pasted into a shell. -/
def commandLine (command : List Value) : String := Shell.join (command.map Value.spelled)

def message : Fault → String
  | launchFailed program reason => "Failed to launch " ++ program.display ++ ": " ++ reason
  | toolNotFound _ => toolNotFoundMessage
  | commandFailed command exitCode _ =>
    "Command \"" ++ commandLine command ++ "\" failed with exit code " ++ exitCodeText exitCode
  | reply (.unreadable kind raw) => s!"Failed to parse {kind} output: {raw}"
  | reply (.numberTooLong digits) => (TooLarge.toRead digits).message
  | execReported command _ _ failure =>
    "Command \"" ++ commandLine command ++ "\" reported: " ++ failure
  | stillPending task agent _ => s!"{task} is still pending after exec with {agent}"
  | queueNotDrained planRef maxTasks =>
    s!"Task queue for {planRef} did not drain after {maxTasks} tasks"
  | runInProgress => "A workflow run is already in progress."
  | planMissing path => s!"Plan file not found: {path}"
  | planNotUtf8 path => s!"Plan file is not valid UTF-8: {path}"
  | unknownLevel level => Text.shown level
  | file problem => problem.message
  | settings problem => problem.message
  | login problem => problem.message
  | cancelled message => message
  | wrongType problem => problem.message
  | tooLarge problem => problem.message
  | noAttribute => "a value lacks an attribute"
  | badPattern => "the pattern is malformed"
  | tooDeep => "maximum recursion depth exceeded"
  | toolReported message _ _ => message
  | foreign fault => fault.message

/-- What a failed phase says: the message, or the name of the fault if there is none. -/
def summary (fault : Fault) : String :=
  if fault.message.isEmpty then fault.name else fault.message

/-- Whether the fault passes through a run without being taken for the failure of a phase. -/
def isFatal : Fault → Bool
  | foreign fault => fault.fatal
  | _ => false

end Fault

end Conductor
