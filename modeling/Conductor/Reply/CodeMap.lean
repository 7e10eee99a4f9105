import Conductor.Text.Scan
import Conductor.Reply.Problem

/-!
The reply to a request for a map of the code base. Every field is optional, and the fields may stand
on one line or on several.
-/

namespace Conductor.Reply

structure CodeMap where
  content : String
  files : Nat
  symbols : Nat
  languages : List String
  deriving DecidableEq, Repr

namespace CodeMap

/-- The non-blank items of a list whose items are separated by commas. -/
def items (s : List Char) : List (List Char) :=
  ((Text.splitAtChar ',' s).map Text.strip).filter (fun item => !item.isEmpty)

def languagesOf (s : List Char) : List String :=
  match Text.leftmost (Text.lineAfter? "Languages: ".toList) s with
  | some rest => (items rest).map String.ofList
  | none => []

def decode (raw : String) : Except Problem CodeMap := do
  let s := raw.toList
  let files ← numberOr 0 (Text.leftmost (Text.digitsAfter? "Files: ".toList) s)
  let symbols ← numberOr 0 (Text.leftmost (Text.digitsAfter? "Symbols: ".toList) s)
  return { content := raw, files, symbols, languages := languagesOf s }

end CodeMap

end Conductor.Reply
