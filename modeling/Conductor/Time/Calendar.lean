import Conductor.Number.Decimal

/-!
Dates and times of day, and their texts. Days are counted from the first of March of year 0, so that
a leap day is the last day of its year and of its century of years.
-/

namespace Conductor

structure Date where
  year : Nat
  month : Nat
  day : Nat
  deriving DecidableEq, Repr

structure Clock where
  hour : Nat
  minute : Nat
  second : Nat
  micros : Nat
  deriving DecidableEq, Repr

/-- A number in at least `width` digits. -/
def zeroPadded (width n : Nat) : String :=
  String.ofList (Binary64.padded width n)

namespace Date

def isLeap (year : Nat) : Bool :=
  year % 4 == 0 && (year % 100 != 0 || year % 400 == 0)

/-- The number of days of a month; a number that is no month has none. -/
def daysIn (year month : Nat) : Nat :=
  match month with
  | 2 => if isLeap year then 29 else 28
  | 4 | 6 | 9 | 11 => 30
  | 1 | 3 | 5 | 7 | 8 | 10 | 12 => 31
  | _ => 0

/-- The years that can be written in four digits have a calendar. -/
def isValid (d : Date) : Bool :=
  1 ≤ d.year && d.year ≤ 9999 && 1 ≤ d.day && d.day ≤ daysIn d.year d.month

/-- The date `days` days after the first of March of year 0. -/
def ofDays (days : Nat) : Date :=
  let era := days / 146097
  let dayOfEra := days % 146097
  let yearOfEra := (dayOfEra - dayOfEra / 1460 + dayOfEra / 36524 - dayOfEra / 146096) / 365
  let dayOfYear := dayOfEra - (365 * yearOfEra + yearOfEra / 4 - yearOfEra / 100)
  let shifted := (5 * dayOfYear + 2) / 153
  let month := if shifted < 10 then shifted + 3 else shifted - 9
  { year := yearOfEra + 400 * era + (if month ≤ 2 then 1 else 0)
    month
    day := dayOfYear - (153 * shifted + 2) / 5 + 1 }

def text (d : Date) : String :=
  zeroPadded 4 d.year ++ "-" ++ zeroPadded 2 d.month ++ "-" ++ zeroPadded 2 d.day

end Date

namespace Clock

def isValid (t : Clock) : Bool :=
  t.hour < 24 && t.minute < 60 && t.second < 60 && t.micros < 1000000

/-- The time of day `seconds` seconds after midnight. -/
def ofSeconds (seconds : Nat) : Clock :=
  { hour := seconds / 3600, minute := seconds / 60 % 60, second := seconds % 60, micros := 0 }

def text (t : Clock) : String :=
  zeroPadded 2 t.hour ++ ":" ++ zeroPadded 2 t.minute ++ ":" ++ zeroPadded 2 t.second ++
    (if t.micros = 0 then "" else "." ++ zeroPadded 6 t.micros)

end Clock

/-- A date, a time of day, or both, the last with an offset from universal time in minutes that may
be missing. -/
inductive Moment where
  | date (date : Date)
  | time (clock : Clock)
  | dateTime (date : Date) (clock : Clock) (offset : Option Int)
  deriving DecidableEq, Repr

namespace Moment

def offsetText (minutes : Int) : String :=
  (if minutes < 0 then "-" else "+") ++ zeroPadded 2 (minutes.natAbs / 60) ++ ":" ++
    zeroPadded 2 (minutes.natAbs % 60)

def text : Moment → String
  | date d => d.text
  | time t => t.text
  | dateTime d t offset => d.text ++ " " ++ t.text ++ (offset.map offsetText).getD ""

def typeName : Moment → String
  | date _ => "date"
  | time _ => "time"
  | dateTime .. => "datetime"

/-- The parts of a time of day as arguments; seconds and microseconds only from the first on that
is needed. -/
def clockParts (t : Clock) : List String :=
  [toString t.hour, toString t.minute] ++
    (if t.second = 0 && t.micros = 0 then []
     else toString t.second :: (if t.micros = 0 then [] else [toString t.micros]))

def dateParts (d : Date) : List String :=
  [toString d.year, toString d.month, toString d.day]

/-- An offset as an argument: whole days, which are negative west of universal time, and the seconds
left over. -/
def offsetPart (minutes : Int) : String :=
  if minutes = 0 then "tzinfo=datetime.timezone.utc"
  else
    let seconds := minutes * 60
    let days := Int.fdiv seconds 86400
    let rest := Int.fmod seconds 86400
    let parts :=
      (if days = 0 then [] else ["days=" ++ toString days]) ++
        (if rest = 0 then [] else ["seconds=" ++ toString rest])
    "tzinfo=datetime.timezone(datetime.timedelta(" ++ String.intercalate ", " parts ++ "))"

/-- The form in which a moment is shown inside a list or a table. -/
def shown : Moment → String
  | date d => "datetime.date(" ++ String.intercalate ", " (dateParts d) ++ ")"
  | time t => "datetime.time(" ++ String.intercalate ", " (clockParts t) ++ ")"
  | dateTime d t offset =>
    "datetime.datetime(" ++
      String.intercalate ", " (dateParts d ++ clockParts t ++ (offset.map offsetPart).toList) ++ ")"

end Moment

end Conductor
