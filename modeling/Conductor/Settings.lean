import Conductor.Toml.Reader
import Conductor.Workspace

/-!
Settings: four sections of named values. Which keys a section may have is checked; what their values
are is not, so a value of an unexpected type is found out only where it is used.
-/

namespace Conductor

structure ToolSettings where
  binary : Value := .text "opusflow"
  workingDirectory : Value := .text ""

structure PipelineSettings where
  plansDir : Value := .text "opusflow-planning/plans"
  defaultAgent : Value := .text "claude-cli"
  stepDelaySeconds : Value := .float (.ofNat 1)
  agentExec : Value := .bool false

structure SessionSettings where
  binary : Value := .text "cursor-agent"
  statusArgs : Value := .list [.text "status"]
  loginArgs : Value := .list [.text "login"]
  timeoutSeconds : Value := .float (.ofNat 120)
  authenticatedPattern : Value := .text "logged in"
  unauthenticatedPattern : Value := .text "not logged in"
  manualHint : Value :=
    .text "Set an API key for your agent (e.g. ANTHROPIC_API_KEY) and retry."

structure LoggingSettings where
  level : Value := .text "INFO"

structure Settings where
  tool : ToolSettings := {}
  pipeline : PipelineSettings := {}
  session : SessionSettings := {}
  logging : LoggingSettings := {}

/-! ### Sections as tables -/

namespace ToolSettings

def fields (s : ToolSettings) : List (String × Value) :=
  [("binary", s.binary), ("working_directory", s.workingDirectory)]

/-- The section with the values that are given, and the default for every other one. -/
def ofTable (given : List (String × Value)) : ToolSettings :=
  let value (key : String) (default : Value) : Value := (Value.lookup? given key).getD default
  let d : ToolSettings := {}
  { binary := value "binary" d.binary
    workingDirectory := value "working_directory" d.workingDirectory }

end ToolSettings

namespace PipelineSettings

def fields (s : PipelineSettings) : List (String × Value) :=
  [("plans_dir", s.plansDir), ("default_agent", s.defaultAgent),
    ("step_delay_seconds", s.stepDelaySeconds), ("agent_exec", s.agentExec)]

/-- The section with the values that are given, and the default for every other one. -/
def ofTable (given : List (String × Value)) : PipelineSettings :=
  let value (key : String) (default : Value) : Value := (Value.lookup? given key).getD default
  let d : PipelineSettings := {}
  { plansDir := value "plans_dir" d.plansDir
    defaultAgent := value "default_agent" d.defaultAgent
    stepDelaySeconds := value "step_delay_seconds" d.stepDelaySeconds
    agentExec := value "agent_exec" d.agentExec }

end PipelineSettings

namespace SessionSettings

def fields (s : SessionSettings) : List (String × Value) :=
  [("binary", s.binary), ("status_args", s.statusArgs), ("login_args", s.loginArgs),
    ("timeout_seconds", s.timeoutSeconds), ("authenticated_pattern", s.authenticatedPattern),
    ("unauthenticated_pattern", s.unauthenticatedPattern), ("manual_hint", s.manualHint)]

/-- The section with the values that are given, and the default for every other one. -/
def ofTable (given : List (String × Value)) : SessionSettings :=
  let value (key : String) (default : Value) : Value := (Value.lookup? given key).getD default
  let d : SessionSettings := {}
  { binary := value "binary" d.binary
    statusArgs := value "status_args" d.statusArgs
    loginArgs := value "login_args" d.loginArgs
    timeoutSeconds := value "timeout_seconds" d.timeoutSeconds
    authenticatedPattern := value "authenticated_pattern" d.authenticatedPattern
    unauthenticatedPattern := value "unauthenticated_pattern" d.unauthenticatedPattern
    manualHint := value "manual_hint" d.manualHint }

end SessionSettings

namespace LoggingSettings

def fields (s : LoggingSettings) : List (String × Value) := [("level", s.level)]

/-- The section with the value that is given, or the default. -/
def ofTable (given : List (String × Value)) : LoggingSettings :=
  let d : LoggingSettings := {}
  { level := (Value.lookup? given "level").getD d.level }

end LoggingSettings

/-- The items of a value that is used as a list: a text is a list of its characters, a table one of
its keys. -/
def Value.listed : Value → Except Fault (List Value)
  | .list items => .ok items
  | .text s => .ok (s.toList.map fun c => .text (String.singleton c))
  | .table fields => .ok (fields.map fun field => .text field.1)
  | _ => .error (.wrongType .forAnything)

namespace Settings

/-- The first key that a section may not have. -/
def badKey? (sectionName recordName : String) (keys : List String)
    (given : List (String × Value)) : Option SettingsProblem :=
  given.findSome? fun (key, _) =>
    if key = "self" then some (.reservedKey sectionName recordName)
    else if keys.contains key then none
    else some (.unknownKey sectionName recordName key)

/-- The values that are given for a section; a section that is missing has none. -/
def section? (data : List (String × Value)) (sectionName recordName : String)
    (keys : List String) : Except SettingsProblem (List (String × Value)) :=
  match Value.lookup? data sectionName with
  | none => .ok []
  | some (.table given) =>
    match badKey? sectionName recordName keys given with
    | some problem => .error problem
    | none => .ok given
  | some other => .error (.notTable sectionName other.typeName)

/-- The settings that a table gives. Sections are checked in a fixed order; keys beside them are
ignored. -/
def ofTable (data : List (String × Value)) : Except SettingsProblem Settings := do
  let d : Settings := {}
  let tool ← section? data "tool" "ToolConfig" (d.tool.fields.map (·.1))
  let pipeline ← section? data "pipeline" "PipelineConfig" (d.pipeline.fields.map (·.1))
  let session ← section? data "session" "SessionConfig" (d.session.fields.map (·.1))
  let logging ← section? data "logging" "LoggingConfig" (d.logging.fields.map (·.1))
  return {
    tool := .ofTable tool
    pipeline := .ofTable pipeline
    session := .ofTable session
    logging := .ofTable logging }

/-- The settings as tables. The arguments of a session have to be lists, or be taken for such. -/
def tables (s : Settings) : Except Fault (List (String × List (String × Value))) := do
  let statusArgs ← s.session.statusArgs.listed
  let loginArgs ← s.session.loginArgs.listed
  let session := { s.session with statusArgs := .list statusArgs, loginArgs := .list loginArgs }
  return [("tool", s.tool.fields), ("pipeline", s.pipeline.fields), ("session", session.fields),
    ("logging", s.logging.fields)]

/-- One section as it is written: a header and a line for every value. -/
def sectionLines (name : String) (fields : List (String × Value)) : List String :=
  ("[" ++ name ++ "]") :: fields.map fun (key, value) => key ++ " = " ++ value.toml

/-- The text of a settings file. All numbers in it have to be small enough to be shown. -/
def toml (s : Settings) : Except Fault String := do
  let tables ← s.tables
  if tables.all fun (_, fields) => Value.haveShowable fields then
    let lines := tables.flatMap fun (name, fields) => sectionLines name fields ++ [""]
    return Text.trim (String.intercalate "\n" lines) ++ "\n"
  else .error (.tooLarge .toShow)

def sameFields (xs ys : List (String × Value)) : Bool :=
  Value.sameItems (xs.map (·.2)) (ys.map (·.2))

/-- Whether two settings have equal values throughout. -/
def same (s t : Settings) : Bool :=
  sameFields s.tool.fields t.tool.fields && sameFields s.pipeline.fields t.pipeline.fields &&
    sameFields s.session.fields t.session.fields && sameFields s.logging.fields t.logging.fields

/-- The directory in which the planning tool works, as seen from `base`. -/
def workingDirectory (s : Settings) (base : Path) : Except Fault Path :=
  match s.tool.workingDirectory with
  | .text raw =>
    let raw := Text.trim raw
    let path := Path.ofString raw
    if raw.isEmpty then .ok base
    else if path.isAbsolute then .ok path
    else (base.join path).resolve?.elim (.error (.file .holdsNul)) .ok
  | _ => .error .noAttribute

/-- The complaint about a text that cannot be read. For a malformed text it tells the file and the
rule that is broken, but not where. -/
def parseFault (path : Path) : Toml.Problem → Fault
  | .malformed reason => .settings (.unreadable path.toString reason)
  | .numberTooLong digits => .tooLarge (.toRead digits)

/-- Reads settings from a file; where there is none, all values have their defaults. -/
def load (files : Workspace) (path : Path) : Except Fault Settings := do
  if ← (files.contains path).mapError .file then
    let text ← (files.readText path).mapError .file
    let data ← (Toml.parse text).mapError (parseFault path)
    (ofTable data).mapError .settings
  else return {}

/-- Writes settings to a file. -/
def save (s : Settings) (files : Workspace) (path : Path) : Except Fault Workspace := do
  let text ← s.toml
  (files.write path (Utf8.encode text)).mapError .file

end Settings

end Conductor
