import Conductor.Path
import Conductor.Fault
import Conductor.Text.Line

/-!
The files that a run can see. Directories and files are kept under the names that lead to them from
the root; a path is followed name by name, so that every name but the last has to be a directory.
-/

namespace Conductor

inductive Node where
  | directory
  | file (bytes : List UInt8)
  deriving DecidableEq, Repr

structure Workspace where
  nodes : List (List String × Node) := []
  deriving DecidableEq, Repr

namespace Workspace

/-- What stands under the given names; the root is always a directory. -/
def node? (ws : Workspace) (names : List String) : Option Node :=
  if names.isEmpty then some .directory
  else (ws.nodes.find? (fun entry => entry.1 == names)).map (·.2)

/-- Where a path leads to. -/
inductive Place where
  | found (names : List String) (node : Node)
  /-- Nothing has the last name, and its parent is a directory. -/
  | vacant (names : List String)
  | missing
  /-- A name other than the last one is that of a file. -/
  | underFile
  /-- A name that is looked up in a directory, or the whole path, has too many bytes. -/
  | tooLong
  /-- A name holds a character that no name can hold. -/
  | unnameable
  deriving DecidableEq, Repr

/-- The greatest number of bytes of a name. -/
def maxNameBytes : Nat := 255

/-- The greatest number of bytes of a path. -/
def maxPathBytes : Nat := 4095

/-- Follows names from the directory `here`. -/
def follow (ws : Workspace) (here : List String) : List String → Place
  | [] => .found here .directory
  | name :: rest =>
    if name = ".." then follow ws here.dropLast rest
    else if maxNameBytes < name.utf8ByteSize then .tooLong
    else
      let next := here ++ [name]
      match ws.node? next with
      | none => if rest.isEmpty then .vacant next else .missing
      | some .directory => follow ws next rest
      | some (.file bytes) => if rest.isEmpty then .found next (.file bytes) else .underFile

def locate (ws : Workspace) (path : Path) : Place :=
  if path.holdsNul then .unnameable
  else if maxPathBytes < path.toString.utf8ByteSize then .tooLong
  else ws.follow [] path.names

/-- Whether there is anything at a path. A path that is too long cannot be asked about; at one that
nothing can have there is nothing. -/
def contains (ws : Workspace) (path : Path) : Except FileProblem Bool :=
  match ws.locate path with
  | .found .. => .ok true
  | .tooLong => .error (.tooLong path.toString)
  | _ => .ok false

/-- The text of a file, with every line ending as one line feed. -/
def readText (ws : Workspace) (path : Path) : Except FileProblem String :=
  match ws.locate path with
  | .found _ (.file bytes) =>
    match Utf8.strict bytes with
    | .ok chars => .ok (String.ofList (Text.normalizeNewlines chars))
    | .error defect => .error (.notUtf8 defect)
  | .found _ .directory => .error (.isDirectory path.toString)
  | .vacant _ => .error (.missing path.toString)
  | .missing => .error (.missing path.toString)
  | .underFile => .error (.underFile path.toString)
  | .tooLong => .error (.tooLong path.toString)
  | .unnameable => .error .holdsNul

/-- Puts a node under the given names, in the place of what was there. -/
def put (ws : Workspace) (names : List String) (node : Node) : Workspace :=
  if (ws.node? names).isSome then
    { nodes := ws.nodes.map fun entry => if entry.1 == names then (names, node) else entry }
  else { nodes := ws.nodes ++ [(names, node)] }

/-- Writes a file; its directory has to be there. -/
def write (ws : Workspace) (path : Path) (bytes : List UInt8) : Except FileProblem Workspace :=
  match ws.locate path with
  | .found names (.file _) => .ok (ws.put names (.file bytes))
  | .vacant names => .ok (ws.put names (.file bytes))
  | .found _ .directory => .error (.isDirectory path.toString)
  | .missing => .error (.missing path.toString)
  | .underFile => .error (.underFile path.toString)
  | .tooLong => .error (.tooLong path.toString)
  | .unnameable => .error .holdsNul

/-- Makes a directory and all those above it, where nothing is yet. -/
def makeDirectories (ws : Workspace) (names : List String) : Workspace :=
  ((List.range names.length).map fun n => names.take (n + 1)).foldl
    (fun ws above => if (ws.node? above).isSome then ws else ws.put above .directory) ws

/-- Adds a file with the directories above it. -/
def add (ws : Workspace) (names : List String) (node : Node) : Workspace :=
  (ws.makeDirectories names.dropLast).put names node

/-- The files that differ from what `before` held, with their new content. -/
def changesSince (after before : Workspace) : List (List String × List UInt8) :=
  after.nodes.filterMap fun entry =>
    match entry.2 with
    | .directory => none
    | .file bytes =>
      if before.node? entry.1 = some (.file bytes) then none else some (entry.1, bytes)

end Workspace

end Conductor
