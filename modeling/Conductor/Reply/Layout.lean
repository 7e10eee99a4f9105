import Conductor.Reply.CodeMap
import Conductor.Reply.NextTask
import Conductor.Reply.Workflow
import Conductor.Reply.Agents

/-!
How the planning tool lays out its replies: the text from which each kind of reply is read, line by
line, in every form in which the tool has ever written it.
-/

namespace Conductor.Reply

/-- How lines end. -/
inductive LineEnd where
  | feed
  | returnAndFeed
  deriving DecidableEq, Repr

def LineEnd.chars : LineEnd → List Char
  | feed => ['\n']
  | returnAndFeed => ['\r', '\n']

/-- Lines as one text, each with its end. -/
def LineEnd.join (lineEnd : LineEnd) (lines : List (List Char)) : List Char :=
  lines.flatMap (· ++ lineEnd.chars)

/-- How a list of files is announced. -/
inductive FilesHeading where
  | short
  | long
  deriving DecidableEq, Repr

def FilesHeading.line : FilesHeading → List Char
  | short => "**Files**:".toList
  | long => "**Files to modify/create**:".toList

def fileLine (file : String) : List Char :=
  "- \x60".toList ++ file.toList ++ ['\x60']

/-- The lines that list files; there are none for an empty list. -/
def fileLines (heading : FilesHeading) (files : List String) : List (List Char) :=
  if files.isEmpty then [] else heading.line :: files.map fileLine

namespace TaskQueue

def headerLine (task : Task) : List Char :=
  "## ".toList ++ task.status.glyph.toList ++ [' '] ++ task.id.toList ++ ": ".toList ++
    task.title.toList

def sectionLines (heading : FilesHeading) (task : Task) : List (List Char) :=
  [] :: headerLine task :: fileLines heading task.files

/-- The reply that lists tasks; how the files are announced may change from task to task. -/
def layout (lineEnd : LineEnd) (planRef : String) (sections : List (FilesHeading × Task)) :
    String :=
  String.ofList (lineEnd.join
    (("# Task Queue: ".toList ++ planRef.toList) ::
      sections.flatMap fun (heading, task) => sectionLines heading task))

end TaskQueue

namespace NextTask

/-- How the identifier of a task is announced. -/
inductive IdLabel where
  | short
  | long
  deriving DecidableEq, Repr

def IdLabel.chars : IdLabel → List Char
  | short => "**ID**: ".toList
  | long => "**Task ID**: ".toList

/-- The reply that names a task. -/
def layout (label : IdLabel) (lineEnd : LineEnd) (task : Task) : String :=
  String.ofList (lineEnd.join
    (["# Next Task: ".toList ++ task.title.toList, [], label.chars ++ task.id.toList] ++
      fileLines .short task.files))

end NextTask

namespace Agent

def agentLine (agent : Agent) : List Char :=
  "- **".toList ++ agent.name.toList ++ "**: ".toList ++
    (if agent.available then "✅ Available" else "❌ Not installed").toList

/-- How to install an agent. -/
def hintLine (command : String) : List Char :=
  "Install: \x60".toList ++ command.toList ++ ['\x60']

/-- The lines of an agent: itself, and how to install it, which is indented. -/
def layoutLines (indent : List Char) (agent : Agent) : List (List Char) :=
  agentLine agent :: (agent.install.map fun command => indent ++ hintLine command).toList

def layout (indent : List Char) (lineEnd : LineEnd) (agents : List Agent) : String :=
  String.ofList (lineEnd.join (agents.flatMap (layoutLines indent)))

end Agent

namespace WorkflowStatus

/-- The file of each kind. -/
def artifact (status : WorkflowStatus) : Artifact → Option String
  | .spec => status.spec
  | .plan => status.plan
  | .tasks => status.tasks
  | .verification => status.verification

/-- A label with or without a bullet. -/
def artifactLabel (bullet : Bool) (kind : Artifact) : List Char :=
  (if bullet then "- ".toList else []) ++ kind.label

/-- A line about one of the files of a workflow: its label, and its value, which says so if there is
no such file. -/
def artifactField (bullet : Bool) (status : WorkflowStatus) (kind : Artifact) :
    List Char × List Char :=
  (artifactLabel bullet kind, ((status.artifact kind).getD "(none)").toList)

/-- Label and value of each line. The last line has its words behind the number. -/
def layoutFields (bullet : Bool) (status : WorkflowStatus) : List (List Char × List Char) :=
  [("# Workflow Status: ".toList, status.id.toList),
    ("**Name**: ".toList, status.name.toList),
    ("**Current Phase**: ".toList, status.currentPhase.toList),
    artifactField bullet status .spec,
    artifactField bullet status .plan,
    artifactField bullet status .tasks,
    artifactField bullet status .verification,
    ("Suggested next phase: **".toList, status.nextPhase.toList ++ "**".toList),
    ([], Nat.toDigits 10 status.transitions ++ " transitions recorded".toList)]

def layoutLines (bullet : Bool) (status : WorkflowStatus) : List (List Char) :=
  (layoutFields bullet status).map fun field => field.1 ++ field.2

def layout (bullet : Bool) (lineEnd : LineEnd) (status : WorkflowStatus) : String :=
  String.ofList (lineEnd.join (layoutLines bullet status))

/-- A line that says nothing about the workflow: an empty one, or the heading of its files. The tool
sets groups of fields apart with them. -/
def isSpacing (line : List Char) : Bool :=
  line.isEmpty || line == "## Artifacts".toList

end WorkflowStatus

namespace CodeMap

/-- The three fields of a map, labelled. -/
def layoutFields (files symbols : Nat) (languages : List String) : List (List Char) :=
  ["Files: ".toList ++ Nat.toDigits 10 files, "Symbols: ".toList ++ Nat.toDigits 10 symbols,
    "Languages: ".toList ++ (String.intercalate ", " languages).toList]

/-- All fields on one line. -/
def layoutLine (files symbols : Nat) (languages : List String) : String :=
  String.ofList (List.intercalate " | ".toList (layoutFields files symbols languages))

/-- A line for each field. -/
def layoutLines (lineEnd : LineEnd) (files symbols : Nat) (languages : List String) : String :=
  String.ofList (lineEnd.join (layoutFields files symbols languages))

end CodeMap

end Conductor.Reply
