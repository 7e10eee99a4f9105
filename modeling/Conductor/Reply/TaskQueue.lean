import Conductor.Text.Scan

/-!
Task queues. A queue is a title line and a section for each task; a section is a header line with a
status glyph, followed by any lines, among them blocks that list the files of the task.
-/

namespace Conductor.Reply

inductive TaskStatus where
  | pending
  | inProgress
  | done
  | failed
  deriving DecidableEq, Repr

namespace TaskStatus

def name : TaskStatus → String
  | pending => "pending"
  | inProgress => "in_progress"
  | done => "done"
  | failed => "failed"

def glyph : TaskStatus → String
  | pending => "⬜"
  | inProgress => "🔄"
  | done => "✅"
  | failed => "❌"

/-- The status that a glyph stands for. A glyph that is not known stands for a pending task, so that
a queue with newer glyphs can still be read. -/
def ofGlyph (glyph : String) : TaskStatus :=
  if glyph = inProgress.glyph then inProgress
  else if glyph = done.glyph then done
  else if glyph = failed.glyph then failed
  else pending

end TaskStatus

structure Task where
  id : String
  title : String
  status : TaskStatus
  files : List String
  deriving DecidableEq, Repr

structure TaskQueue where
  planRef : String
  tasks : List Task
  deriving DecidableEq, Repr

namespace TaskQueue

/-- The identifier of a task at the front of a text, and what follows it. -/
def taskId? (s : List Char) : Option (List Char × List Char) := do
  let rest ← Text.after? "task-".toList s
  let (digits, rest) ← Text.run? Text.isDigit rest
  return ("task-".toList ++ digits, rest)

/-- The task that a header line announces, without files. -/
def header? (line : List Char) : Option Task := do
  let rest ← Text.after? "## ".toList line
  let (glyph, rest) ← Text.run? (fun c => !Text.isBlank c) rest
  let rest ← Text.after? [' '] rest
  let (id, rest) ← taskId? rest
  let title ← Text.after? ": ".toList rest
  if title.isEmpty then none
  else some {
    id := String.ofList id
    title := String.ofList (Text.strip title)
    status := TaskStatus.ofGlyph (String.ofList glyph)
    files := [] }

/-- Whether a stripped line opens a list of files. -/
def opensFiles (line : List Char) : Bool :=
  line = "**Files**:".toList || line = "**Files to modify/create**:".toList

/-- The file that a stripped line lists: a bullet and a name between backquotes. -/
def fileItem? (line : List Char) : Option (List Char) := do
  let rest ← Text.after? "- \x60".toList line
  let (name, rest) ← Text.run? (· != '\x60') rest
  if rest = ['\x60'] then some name else none

/-- The files of the run of items at the front of stripped lines. -/
def leadingFiles : List (List Char) → List String
  | [] => []
  | line :: rest =>
    match fileItem? line with
    | some name => String.ofList name :: leadingFiles rest
    | none => []

/-- The files listed in the blocks that open before the next header. -/
def filesOfSection : List (List Char) → List String
  | [] => []
  | line :: rest =>
    if (header? line).isSome then []
    else if opensFiles line then leadingFiles rest ++ filesOfSection rest
    else filesOfSection rest

/-- The tasks of stripped lines. -/
def tasksOf : List (List Char) → List Task
  | [] => []
  | line :: rest =>
    match header? line with
    | some task => { task with files := filesOfSection rest } :: tasksOf rest
    | none => tasksOf rest

/-- The printed lines of a reply, stripped. -/
def strippedLines (s : List Char) : List (List Char) :=
  (Text.printedLines s).map Text.strip

/-- Every reply can be read as a queue; one without any header line is an empty queue. -/
def decode (raw : String) : TaskQueue :=
  let s := raw.toList
  { planRef := String.ofList ((Text.field? "# Task Queue: ".toList s).getD [])
    tasks := tasksOf (strippedLines s) }

/-- The number of tasks in the queue. -/
def size (queue : TaskQueue) : Nat := queue.tasks.length

/-- The files of the run of items that starts at line `start`; a negative `start` counts from the
end. With the line after an announcement of files as its start, this is one list of a section. -/
def filesFrom (lines : List String) (start : Int) : List String :=
  let skipped := if start < 0 then (lines.length + start).toNat else start.toNat
  leadingFiles ((lines.drop skipped).map (fun line => Text.strip line.toList))

end TaskQueue

end Conductor.Reply
