import Conductor.Number.Limit
import Conductor.Time.Calendar

/-!
Stamps: moments of universal time in microseconds, counted from the start of 2025.
-/

namespace Conductor

structure Stamp where
  micros : Int
  deriving DecidableEq, Repr

namespace Stamp

/-- The days from the first of March of year 0 to the day from which stamps count. -/
def firstDay : Int := 739557

/-- The microseconds of a day. -/
def dayMicros : Int := 86400000000

/-- The days, counted from the day from which stamps count, that have a date: those of the years 1
to 9999. -/
def hasDate (day : Int) : Bool := 306 - firstDay ≤ day && day ≤ 3652364 - firstDay

/-- The stamp so many microseconds after another. The span is checked before the date is. -/
def after (s : Stamp) (micros : Int) : Except TooLarge Stamp :=
  let days := Int.fdiv micros dayMicros
  if days < -2147483648 || 2147483647 < days then .error .forWord
  else if 999999999 < days.natAbs then .error (.forDays days)
  else if hasDate (Int.fdiv (s.micros + micros) dayMicros) then .ok ⟨s.micros + micros⟩
  else .error .forDate

/-- The stamp so many microseconds after the start of 2025. -/
def ofMicros (micros : Int) : Except TooLarge Stamp := after ⟨0⟩ micros

/-- The date and time of a stamp, cut to the second. -/
def text (s : Stamp) : String :=
  let seconds := Int.fdiv s.micros 1000000
  let day := firstDay + Int.fdiv seconds 86400
  (Date.ofDays day.toNat).text ++ "T" ++ (Clock.ofSeconds (Int.fmod seconds 86400).toNat).text ++
    "+00:00"

/-- The whole seconds between two stamps: the fraction is cut off from the nearest floating-point
number. -/
def secondsBetween (start finish : Stamp) : Int :=
  let micros := finish.micros - start.micros
  (Binary64.ofRatio (micros < 0) micros.natAbs 1000000).wholePart

/-- A duration in minutes and seconds, or in seconds alone if no minute has passed. -/
def duration (start finish : Stamp) : String :=
  let seconds := secondsBetween start finish
  let minutes := Int.fdiv seconds 60
  if 0 < minutes then toString minutes ++ "m " ++ toString (Int.fmod seconds 60) ++ "s"
  else toString seconds ++ "s"

end Stamp

end Conductor
