import Conductor.Text.Scan
import Conductor.Text.Fold
import Conductor.Reply.Problem

/-!
The reply to a request for a verification: where the report is, the verdict, and how many checks
passed. Only the place of the report is mandatory.
-/

namespace Conductor.Reply

inductive Verdict where
  | passed
  | failed
  | partly
  deriving DecidableEq, Repr

namespace Verdict

def name : Verdict → String
  | passed => "passed"
  | failed => "failed"
  | partly => "partial"

/-- The verdict that a word in any case names. -/
def ofWord? (word : List Char) : Option Verdict :=
  let lower := Text.lowerAscii (String.ofList word)
  [passed, failed, partly].find? (fun v => v.name == lower)

end Verdict

structure Checks where
  passed : Nat
  total : Nat
  deriving DecidableEq, Repr

structure Verification where
  path : String
  verdict : Option Verdict
  checks : Option Checks
  deriving DecidableEq, Repr

namespace Verification

def label : List Char := "Report saved: ".toList

def olderLabel : List Char := "Verification report created: ".toList

def path? (s : List Char) : Option (List Char) :=
  (Text.field? label s).or (Text.field? olderLabel s)

/-- What follows a check mark, a cross or a warning sign; the sign may ask for its emoji form. -/
def afterMark? (s : List Char) : Option (List Char) :=
  match s with
  | '✅' :: rest => some rest
  | '❌' :: rest => some rest
  | '⚠' :: '\ufe0f' :: rest => some rest
  | '⚠' :: rest => some rest
  | _ => none

/-- The word of a status entry that starts right here. -/
def statusWord? (s : List Char) : Option (List Char) := do
  let rest ← Text.after? "**Status**:".toList s
  let rest ← afterMark? (Text.stripStart rest)
  let (word, _) ← Text.run? Text.isWordChar (Text.stripStart rest)
  return word

/-- The two runs of digits of a checks entry that starts right here. -/
def checkCounts? (s : List Char) : Option (List Char × List Char) := do
  let rest ← Text.after? "**Checks**:".toList s
  let (passed, rest) ← Text.run? Text.isDigit (Text.stripStart rest)
  let rest ← Text.after? ['/'] rest
  let (total, _) ← Text.run? Text.isDigit rest
  return (passed, total)

def readChecks (s : List Char) : Except Problem (Option Checks) :=
  match Text.leftmost checkCounts? s with
  | some (passed, total) => do
    let passed ← number passed
    let total ← number total
    return some ⟨passed, total⟩
  | none => .ok none

def decode (raw : String) : Except Problem Verification :=
  let s := raw.toList
  match path? s with
  | some path => do
    let checks ← readChecks s
    return {
      path := String.ofList path
      verdict := (Text.leftmost statusWord? s).bind Verdict.ofWord?
      checks }
  | none => .error (.unreadable "verify" raw)

end Verification

end Conductor.Reply
