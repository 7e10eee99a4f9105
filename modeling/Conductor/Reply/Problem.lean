import Conductor.Text.Digit
import Conductor.Number.Limit

/-!
Why a reply of the planning tool has no reading, and the one limit on numbers inside a reply.
-/

namespace Conductor.Reply

inductive Problem where
  /-- A mandatory field stands in none of the known layouts of this kind of reply. -/
  | unreadable (kind raw : String)
  /-- A number was written with more digits than are read. -/
  | numberTooLong (digits : Nat)
  deriving DecidableEq, Repr

/-- The value of a run of digits. -/
def number (digits : List Char) : Except Problem Nat :=
  if digits.length ≤ maxDigits then .ok (Text.digitsValue digits)
  else .error (.numberTooLong digits.length)

/-- The number in an optional field, and `fallback` where the field is missing. -/
def numberOr (fallback : Nat) : Option (List Char) → Except Problem Nat
  | some digits => number digits
  | none => .ok fallback

end Conductor.Reply
