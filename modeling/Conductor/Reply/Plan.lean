import Conductor.Text.Scan
import Conductor.Reply.Problem

/-!
The reply to a request for a new plan: where the plan was written.
-/

namespace Conductor.Reply

structure Plan where
  path : String
  fileName : String
  deriving DecidableEq, Repr

namespace Plan

def label : List Char := "Created plan: ".toList

def decode (raw : String) : Except Problem Plan :=
  match Text.field? label raw.toList with
  | some path => .ok ⟨String.ofList path, String.ofList (Text.baseName path)⟩
  | none => .error (.unreadable "plan" raw)

end Plan

end Conductor.Reply
