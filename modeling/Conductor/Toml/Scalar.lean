import Conductor.Toml.Problem
import Conductor.Value
import Conductor.Text.Scan
import Conductor.Reply.Problem

/-!
Numbers, dates and times of a settings file.
-/

namespace Conductor.Toml

def isDecimal (c : Char) : Bool := '0' ≤ c && c ≤ '9'

/-- The number that two digits give, if it is in a range. -/
def twoDigits? (low high : Nat) : List Char → Option (Nat × List Char)
  | a :: b :: rest =>
    let n := 10 * (a.toNat - 48) + (b.toNat - 48)
    if isDecimal a && isDecimal b && low ≤ n && n ≤ high then some (n, rest) else none
  | _ => none

/-- A date; the day may still be too great for its month. -/
def date? : List Char → Option (Date × List Char)
  | a :: b :: c :: d :: '-' :: rest => do
    let (century, _) ← twoDigits? 0 99 [a, b]
    let (year, _) ← twoDigits? 0 99 [c, d]
    let (month, rest) ← twoDigits? 1 12 rest
    let rest ← Text.after? ['-'] rest
    let (day, rest) ← twoDigits? 1 31 rest
    return (⟨100 * century + year, month, day⟩, rest)
  | _ => none

/-- The microseconds that a fraction gives; digits after the sixth do not count. -/
def fraction (s : List Char) : Nat × List Char :=
  match s with
  | '.' :: rest =>
    let digits := rest.takeWhile isDecimal
    if digits.isEmpty then (0, s)
    else
      let six := digits.take 6
      (Text.digitsValue (six ++ List.replicate (6 - six.length) '0'), rest.dropWhile isDecimal)
  | _ => (0, s)

/-- A time of day. -/
def clock? (s : List Char) : Option (Clock × List Char) := do
  let (hour, rest) ← twoDigits? 0 23 s
  let rest ← Text.after? [':'] rest
  let (minute, rest) ← twoDigits? 0 59 rest
  let rest ← Text.after? [':'] rest
  let (second, rest) ← twoDigits? 0 59 rest
  let (micros, rest) := fraction rest
  return (⟨hour, minute, second, micros⟩, rest)

/-- An offset from universal time, in minutes. -/
def offset? : List Char → Option (Int × List Char)
  | 'Z' :: rest => some (0, rest)
  | 'z' :: rest => some (0, rest)
  | c :: rest => do
    let (hours, after) ← twoDigits? 0 23 rest
    let after ← Text.after? [':'] after
    let (minutes, after) ← twoDigits? 0 59 after
    let total : Int := 60 * hours + minutes
    if c = '+' then return (total, after)
    else if c = '-' then return (-total, after)
    else none
  | [] => none

/-- A date, with a time of day where one follows. -/
def moment? (s : List Char) : Option (Moment × List Char) := do
  let (date, rest) ← date? s
  let timed := do
    match rest with
    | c :: after => if c = 'T' || c = 't' || c = ' ' then clock? after else none
    | [] => none
  match timed with
  | none => return (.date date, rest)
  | some (clock, rest) =>
    match offset? rest with
    | some (offset, rest) => return (.dateTime date clock (some offset), rest)
    | none => return (.dateTime date clock none, rest)

def momentIsValid : Moment → Bool
  | .date d => d.isValid
  | .time _ => true
  | .dateTime d _ _ => d.isValid

def isHex (c : Char) : Bool :=
  isDecimal c || ('a' ≤ c && c ≤ 'f') || ('A' ≤ c && c ≤ 'F')

def digitIn (c : Char) : Nat :=
  if isDecimal c then c.toNat - 48 else c.toLower.toNat - 87

/-- A whole number in a base other than ten, after its two-character mark. -/
def inBase? (base : Nat) (isDigit : Char → Bool) (s : List Char) : Option (Nat × List Char) :=
  match Binary64.groupedDigits isDigit s with
  | ([], _) => none
  | (digits, rest) => some (digits.foldl (fun n c => base * n + digitIn c) 0, rest)

/-- The whole part of a decimal number, which has no zero in front of other digits. -/
def wholePart? : List Char → Option (List Char × List Char)
  | '0' :: rest => some (['0'], rest)
  | s =>
    match Binary64.groupedDigits isDecimal s with
    | ([], _) => none
    | parts => some parts

/-- The digits after a point, where there are any. -/
def fractionPart (s : List Char) : List Char × List Char :=
  match s with
  | '.' :: rest =>
    match Binary64.groupedDigits isDecimal rest with
    | ([], _) => ([], s)
    | parts => parts
  | _ => ([], s)

/-- The exponent of a number, where there is one. -/
def exponentPart (s : List Char) : Option Int × List Char :=
  match s with
  | c :: rest =>
    if c = 'e' || c = 'E' then
      let (negative, rest) := Binary64.sign rest
      match Binary64.groupedDigits isDecimal rest with
      | ([], _) => (none, s)
      | (digits, rest) =>
        let n : Int := Text.digitsValue digits
        (some (if negative then -n else n), rest)
    else (none, s)
  | [] => (none, [])

/-- A decimal number: whole, or with a fraction or an exponent. -/
def decimal? (s : List Char) : Option (Except Problem (Value × List Char)) :=
  let (negative, digits) := Binary64.sign s
  (wholePart? digits).map fun (whole, rest) =>
    match fractionPart rest with
    | (fraction, rest) =>
      match exponentPart rest with
      | (none, rest) =>
        if fraction.isEmpty then
          if whole.length ≤ maxDigits then
            let n : Int := Text.digitsValue whole
            .ok (.int (if negative then -n else n), rest)
          else .error (.numberTooLong whole.length)
        else .ok (float negative whole fraction 0, rest)
      | (some exponent, rest) => .ok (float negative whole fraction exponent, rest)
where
  float (negative : Bool) (whole fraction : List Char) (exponent : Int) : Value :=
    .float (.ofDecimal negative (Text.digitsValue (whole ++ fraction)) (exponent - fraction.length))

/-- The two numbers that are written as words. -/
def special? (s : List Char) : Option (Value × List Char) :=
  let (negative, rest) := Binary64.sign s
  ((Text.after? "inf".toList rest).map fun rest => (.float (.infinity negative), rest)).or
    ((Text.after? "nan".toList rest).map fun rest => (.float .nan, rest))

/-- A number in any of its forms. -/
def number? (s : List Char) : Option (Except Problem (Value × List Char)) :=
  let based :=
    match s with
    | '0' :: 'x' :: rest => inBase? 16 isHex rest
    | '0' :: 'b' :: rest => inBase? 2 (fun c => c == '0' || c == '1') rest
    | '0' :: 'o' :: rest => inBase? 8 (fun c => '0' ≤ c && c ≤ '7') rest
    | _ => none
  match based with
  | some (n, rest) => some (.ok (.int n, rest))
  | none => (decimal? s).or ((special? s).map .ok)

/-- A date, a time or a number. -/
def scalar? (s : List Char) : Option (Except Problem (Value × List Char)) :=
  match moment? s with
  | some (moment, rest) =>
    some (if momentIsValid moment then .ok (.moment moment, rest)
      else .error (.malformed "Invalid date or datetime"))
  | none =>
    match clock? s with
    | some (clock, rest) => some (.ok (.moment (.time clock), rest))
    | none => number? s

end Conductor.Toml
