import Conductor.Reply.TaskQueue

/-!
The reply to the question which task comes next.
-/

namespace Conductor.Reply

inductive NextTask where
  /-- The tool says that all tasks are completed. -/
  | drained
  /-- No task is named in the reply, and it does not say that the queue is empty. -/
  | unclear (prompt : String)
  | pending (task : Task) (prompt : String)
  deriving DecidableEq, Repr

namespace NextTask

def drainedMarks : List (List Char) := ["All tasks completed".toList, "🎉".toList]

def idAfter? (label s : List Char) : Option (List Char) := do
  let rest ← Text.after? label s
  let (id, _) ← TaskQueue.taskId? rest
  return id

def id? (s : List Char) : Option (List Char) :=
  (Text.leftmost (idAfter? "**Task ID**: ".toList) s).or
    (Text.leftmost (idAfter? "**ID**: ".toList) s)

/-- The title in the first line that starts with one of the labels. -/
def titleOf? (labels : List (List Char)) (s : List Char) : Option (List Char) :=
  (Text.feedLines s).findSome? fun line =>
    labels.findSome? fun label => Text.lineAfter? label line

def title? (s : List Char) : Option (List Char) :=
  (titleOf? ["# Next Task: ".toList, "# Execute Task: ".toList] s).or
    (titleOf? ["# Executing: ".toList] s)

/-- The files that are listed right after the first line that announces files; there may be none. -/
def filesOf : List (List Char) → List String
  | [] => []
  | line :: rest => if TaskQueue.opensFiles line then TaskQueue.leadingFiles rest else filesOf rest

def decode (raw : String) : NextTask :=
  let s := raw.toList
  if drainedMarks.any (fun mark => Text.occursIn mark s) then drained
  else
    match id? s with
    | none => unclear raw
    | some id =>
      pending {
        id := String.ofList id
        title := String.ofList (Text.strip ((title? s).getD []))
        status := .pending
        files := filesOf (TaskQueue.strippedLines s) } raw

/-- Whether the tool said that all tasks are completed. -/
def isDrained : NextTask → Bool
  | drained => true
  | _ => false

/-- The task still to be done, if the reply names one. -/
def task? : NextTask → Option Task
  | drained => none
  | unclear _ => none
  | pending task _ => some task

/-- The text to hand to an agent; a drained queue has none. -/
def prompt : NextTask → String
  | drained => ""
  | unclear prompt => prompt
  | pending _ prompt => prompt

end NextTask

end Conductor.Reply
