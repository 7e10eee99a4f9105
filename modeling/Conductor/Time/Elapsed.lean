import Conductor.Number.Binary64

/-!
The clock of a run. It counts seconds as floating-point numbers do: a moment is a multiple of the
smallest such number, and a span is added with rounding, so that a moment always is one of them.
-/

namespace Conductor

/-- A moment, in units of the smallest floating-point number of seconds from the start. -/
abbrev Time := Nat

namespace Time

def second : Time := twoTo 1074

/-- The nearest number of 53 bits, a half going to the even one. -/
def rounded (n : Nat) : Nat :=
  let shift := twoTo (n.log2 - Binary64.mantissaBits)
  divNearest n shift * shift

/-- The moment that comes a span of time after another. -/
def after (now span : Time) : Time := rounded (now + span)

/-- A number of seconds as a span of time. What is not positive takes no time, and an infinite span
never ends. -/
def span? (seconds : Binary64) : Option Time :=
  match seconds.read with
  | .infinite negative => if negative then some 0 else none
  | .finite negative mantissa scale => some (if negative then 0 else Binary64.units mantissa scale)
  | .nan => some 0

/-- A number of milliseconds as a span of time. -/
def milliseconds (n : Nat) : Time := (span? (.ofRatio false n 1000)).getD 0

/-- A moment to the nearest microsecond. Whole seconds stay as they are, and what is left is a
floating-point number when it is rounded. -/
def micros (t : Time) : Nat :=
  t / second * 1000000 + divNearest (rounded (t % second * 1000000)) second

end Time

end Conductor
