import Conductor.Text.Scan
import Conductor.Reply.Problem

/-!
The reply to a request for a specification. Newer releases of the tool announce the file on a line
of its own with a title beside it; older ones say in a sentence that it was created.
-/

namespace Conductor.Reply

structure Spec where
  path : String
  fileName : String
  title : String
  deriving DecidableEq, Repr

namespace Spec

def label : List Char := "📄 File: ".toList

def titleLabel : List Char := "📝 Title: ".toList

/-- The older sentence, which names the thing in full or in short. -/
def sentenceAfter? (s : List Char) : Option (List Char) :=
  (Text.lineAfter? "Created spec: ".toList s).or
    (Text.lineAfter? "Created specification: ".toList s)

def path? (s : List Char) : Option (List Char) :=
  (Text.field? label s).or ((Text.leftmost sentenceAfter? s).map Text.strip)

def decode (raw : String) : Except Problem Spec :=
  let s := raw.toList
  match path? s with
  | some path =>
    .ok {
      path := String.ofList path
      fileName := String.ofList (Text.baseName path)
      title := String.ofList ((Text.field? titleLabel s).getD []) }
  | none => .error (.unreadable "spec" raw)

end Spec

end Conductor.Reply
