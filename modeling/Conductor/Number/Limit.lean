/-!
Numbers that are too large: to be read, to be shown, to be a floating-point number, to be counted or
to be a date. Each has a message of its own.
-/

namespace Conductor

/-- Numbers of up to this many digits are read and shown; leading zeros count. -/
def maxDigits : Nat := 4300

/-- In what respect a number is too large. -/
inductive TooLarge where
  /-- Written in so many digits. -/
  | toRead (digits : Nat)
  | toShow
  | forFloat
  /-- A number of repetitions in a pattern. -/
  | forRounds
  | forDate
  /-- A number of days that does not even fit a machine word. -/
  | forWord
  | forDays (days : Int)
  deriving DecidableEq, Repr

namespace TooLarge

def name : TooLarge → String
  | toRead _ => "ValueError"
  | toShow => "ValueError"
  | _ => "OverflowError"

def message : TooLarge → String
  | toRead digits =>
    "Exceeds the limit (4300 digits) for integer string conversion: value has " ++
      toString digits ++ " digits; use sys.set_int_max_str_digits() to increase the limit"
  | toShow =>
    "Exceeds the limit (4300 digits) for integer string conversion; " ++
      "use sys.set_int_max_str_digits() to increase the limit"
  | forFloat => "int too large to convert to float"
  | forRounds => "the repetition number is too large"
  | forDate => "date value out of range"
  | forWord => "Python int too large to convert to C int"
  | forDays days => "days=" ++ toString days ++ "; must have magnitude <= 999999999"

end TooLarge

/-- Whether a number has few enough digits to be shown. -/
def fitsDigits (n : Int) : Bool := n.natAbs < Nat.pow 10 maxDigits

end Conductor
