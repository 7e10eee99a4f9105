import Conductor.Text.Fold
import Conductor.Text.Blank
import Conductor.Text.Digit
import Conductor.Text.Word

/-!
Patterns that a text is searched for, without regard to case.
-/

namespace Conductor

/-- A part of a set of characters. -/
inductive CharClass where
  | single (c : Char)
  | range (first last : Char)
  | blank (negated : Bool)
  | digit (negated : Bool)
  | word (negated : Bool)
  deriving DecidableEq, Repr

/-- How a repetition chooses how often it repeats. A greedy one tries more before less, a lazy one
less before more, and a possessive one takes as much as it can and never gives anything back. -/
inductive Eagerness where
  | greedy
  | lazy
  | possessive
  deriving DecidableEq, Repr

inductive Pattern where
  | empty
  | char (c : Char)
  /-- Any character that is not alike. -/
  | otherThan (c : Char)
  /-- Any character but a line feed. -/
  | any
  | oneOf (negated : Bool) (classes : List CharClass)
  | textStart
  /-- The very start of the text. -/
  | absoluteStart
  /-- The end of the text, or the place before a line feed that ends it. -/
  | textEnd
  /-- The very end of the text. -/
  | absoluteEnd
  /-- A place with a word character on one side only, or on both or none. An empty text has neither
  kind of place. -/
  | wordEdge (negated : Bool)
  | group (p : Pattern)
  | both (first second : Pattern)
  | either (first second : Pattern)
  /-- At least `low` times, and at most `high` times if that is given. -/
  | times (p : Pattern) (low : Nat) (high : Option Nat) (eagerness : Eagerness)
  deriving DecidableEq, Repr

/-- Whether two characters are alike. -/
def alike (c d : Char) : Bool :=
  (Text.alikes (Text.lowerChar c)).contains (Text.lowerChar d)

/-- The first character beyond those of four hexadecimal digits. -/
def firstLong : Char := Char.ofNat 0x10000

/-- Whether a lower-case character belongs to a class. Beyond the characters of four hexadecimal
digits a single one has to be the very character, while a range has room for both cases; and one
that reaches that far has room for what starts with one of its characters in upper case. -/
def CharClass.holds (c : Char) : CharClass → Bool
  | single d => if d < firstLong then alike d c else d == c
  | range first last =>
    (Text.variants c).any (fun d => first ≤ d && d ≤ last) ||
      (firstLong ≤ last && (Text.laterUpperStart? c).any (first ≤ ·))
  | blank negated => Text.isBlank c != negated
  | digit negated => Text.isDigit c != negated
  | word negated => Text.isWordChar c != negated

namespace Pattern

/-- Whether a character belongs to a set, or does not belong to it if the set is negated. -/
def inSet (negated : Bool) (classes : List CharClass) (c : Char) : Bool :=
  classes.any (·.holds (Text.lowerChar c)) != negated

def isWord : Option Char → Bool
  | some c => Text.isWordChar c
  | none => false

/-- Whether the place between two neighbours, of which either may be missing, is the edge of a
word. -/
def isEdge (negated : Bool) (before after : Option Char) : Bool :=
  (isWord before != isWord after) != negated

/-- How often a body is repeated. -/
structure Rounds where
  required : Nat
  /-- How many more there may be; without this, as many as there can be. -/
  optional : Option Nat
  deriving DecidableEq, Repr

/-- The rounds that can make a difference in a text of `size` characters. A round that takes nothing
can be left out or done again, so all beyond the size and one are alike. -/
def roundsIn (size low : Nat) (high : Option Nat) : Rounds :=
  { required := min low (size + 1)
    optional := high.map fun high => min (high - low) (size + 1) }

/-- How many rounds may follow the required ones in a text of `size` characters. -/
def Rounds.more (size : Nat) (rounds : Rounds) : Nat := rounds.optional.getD (size + 1)

end Pattern

end Conductor
