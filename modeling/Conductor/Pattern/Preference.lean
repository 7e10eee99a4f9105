import Conductor.Pattern

/-!
Where matches end that start at a given place, the preferred one first. Of two alternatives the
first is preferred; a repetition prefers as its eagerness says. What a possessive repetition takes
depends on this order, and nothing else does.
-/

namespace Conductor.Pattern

/-- The list without what has occurred before. -/
def distinct (places : List Nat) : List Nat :=
  (places.foldl (fun (seen, kept) i =>
    if Nat.testBit seen i then (seen, kept) else (seen ||| (1 <<< i), i :: kept)) (0, [])).2.reverse

/-- Goes on exactly so many times. -/
def onwardExactly (first : Nat → Option Nat) : Nat → Nat → Option Nat
  | 0, i => some i
  | n + 1, i => (first i).bind (onwardExactly first n)

/-- Goes on as often as possible, and at most so many times. -/
def onward (first : Nat → Option Nat) : Nat → Nat → Nat
  | 0, i => i
  | n + 1, i =>
    match first i with
    | some j => onward first n j
    | none => i

/-- Where a possessive repetition ends whose body, started at `i`, ends at `first i`. -/
def possessed (first : Nat → Option Nat) (size : Nat) (rounds : Rounds) (i : Nat) : Option Nat :=
  (onwardExactly first rounds.required i).map (onward first (rounds.more size))

/-- The places where going on as often as possible ends, for every start from the last place down to
the first. -/
def restingPlaces (first : Nat → Option Nat) (size : Nat) : Array Nat :=
  (List.range (size + 1)).foldl (fun resting k =>
    let i := size - k
    resting.push <|
      match first i with
      | some j => if i < j then (resting[size - j]?).getD j else i
      | none => i) #[]

/-- What has come out of trying repetitions. -/
structure Trial where
  /-- The states that have been tried, as a set of numbers. -/
  tried : Nat := 0
  /-- The ends that were found, the latest first. -/
  found : List Nat := []

def Trial.note (i : Nat) (trial : Trial) : Trial :=
  if trial.found.contains i then trial else { trial with found := i :: trial.found }

/-- The number of the state in which `count` rounds have led to the place `i`. Where there is no
limit, how many optional rounds there were does not matter. -/
def stateNumber (size : Nat) (rounds : Rounds) (count i : Nat) : Nat :=
  (if rounds.optional.isSome then count else min count rounds.required) * (size + 1) + i

/-- Tries to repeat a body whose ends are given by `step`. `count` rounds have led to the place `i`,
and the last optional one started at `last`. A state that has been tried before gives nothing new,
and after a round that took nothing there is no further one. -/
def explore (step : Nat → List Nat) (size : Nat) (rounds : Rounds) (isLazy : Bool) :
    Nat → Nat → Option Nat → Nat → Trial → Trial
  | 0, _, _, i, trial => trial.note i
  | fuel + 1, count, last, i, trial =>
    if rounds.required ≤ count && last == some i then trial.note i
    else
      let state := stateNumber size rounds count i
      if Nat.testBit trial.tried state then trial
      else
        let trial := { trial with tried := trial.tried ||| (1 <<< state) }
        let goOn (last : Option Nat) (trial : Trial) : Trial :=
          (step i).foldl (fun trial j =>
            explore step size rounds isLazy fuel (count + 1) last j trial) trial
        if count < rounds.required then goOn last trial
        else if rounds.optional.any (rounds.required + · ≤ count) then trial.note i
        else if isLazy then goOn (some i) (trial.note i)
        else (goOn (some i) trial).note i

/-- The ends of a repetition in order of preference. -/
def repeatedEnds (step : Nat → List Nat) (size : Nat) (rounds : Rounds)
    (eagerness : Eagerness) (i : Nat) : List Nat :=
  match eagerness with
  | .possessive => (possessed (fun i => (step i).head?) size rounds i).toList
  | .greedy => (explored false).found.reverse
  | .lazy => (explored true).found.reverse
where
  explored (isLazy : Bool) : Trial :=
    explore step size rounds isLazy (rounds.required + rounds.more size + 2) 0 none i {}

/-- The place after the character at `i`, if that has a property. -/
def after (text : Array Char) (p : Char → Bool) (i : Nat) : List Nat :=
  if text[i]?.any p then [i + 1] else []

/-- The place itself, if a condition holds there. -/
def stay (condition : Bool) (i : Nat) : List Nat := if condition then [i] else []

/-- Where matches end that start at `i`, the preferred one first. -/
def ends (text : Array Char) : Pattern → Nat → List Nat
  | empty, i => [i]
  | char c, i => after text (alike c) i
  | otherThan c, i => after text (!alike c ·) i
  | any, i => after text (· != '\n') i
  | oneOf negated classes, i => after text (inSet negated classes) i
  | textStart, i => stay (i == 0) i
  | absoluteStart, i => stay (i == 0) i
  | textEnd, i => stay (i == text.size || (i + 1 == text.size && text[i]? == some '\n')) i
  | absoluteEnd, i => stay (i == text.size) i
  | wordEdge negated, i =>
    let before := if i = 0 then none else text[i - 1]?
    stay (!text.isEmpty && isEdge negated before text[i]?) i
  | group p, i => ends text p i
  | both first second, i => distinct ((ends text first i).flatMap (ends text second))
  | either first second, i => distinct (ends text first i ++ ends text second i)
  | times p low high eagerness, i =>
    repeatedEnds (ends text p) text.size (roundsIn text.size low high) eagerness i

end Conductor.Pattern
