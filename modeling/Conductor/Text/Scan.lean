import Conductor.Text.Line
import Conductor.Text.Word
import Conductor.Text.Digit

/-!
Reading fields out of loosely formatted text. A reader looks at the front of a text; `leftmost`
tries it at every position from the left. All readers here are deterministic: a run of characters
of one class always extends as far as it can.
-/

namespace Conductor.Text

/-- What follows `mark` in a text that starts with it. -/
def after? : List Char → List Char → Option (List Char)
  | [], s => some s
  | _ :: _, [] => none
  | m :: mark, c :: s => if m = c then after? mark s else none

/-- The answer of `read` at the first position where it has one. -/
def leftmost {α : Type} (read : List Char → Option α) : List Char → Option α
  | [] => read []
  | c :: rest =>
    match read (c :: rest) with
    | some a => some a
    | none => leftmost read rest

def occursIn (mark s : List Char) : Bool :=
  (leftmost (after? mark) s).isSome

/-- The non-empty run of characters of class `p` at the front, and what follows it. -/
def run? (p : Char → Bool) (s : List Char) : Option (List Char × List Char) :=
  let front := s.takeWhile p
  if front.isEmpty then none else some (front, s.dropWhile p)

/-- The rest of the line after `label`, if there is any. -/
def lineAfter? (label s : List Char) : Option (List Char) :=
  match after? label s with
  | some rest => (run? (· != '\n') rest).map Prod.fst
  | none => none

/-- The word right after `label`. -/
def wordAfter? (label s : List Char) : Option (List Char) :=
  match after? label s with
  | some rest => (run? isWordChar rest).map Prod.fst
  | none => none

/-- The run of characters other than blanks right after `label`. -/
def tokenAfter? (label s : List Char) : Option (List Char) :=
  match after? label s with
  | some rest => (run? (fun c => !isBlank c) rest).map Prod.fst
  | none => none

/-- The run of digits right after `label`. -/
def digitsAfter? (label s : List Char) : Option (List Char) :=
  match after? label s with
  | some rest => (run? isDigit rest).map Prod.fst
  | none => none

/-- The stripped rest of the line after the leftmost usable occurrence of `label`. -/
def field? (label s : List Char) : Option (List Char) :=
  (leftmost (lineAfter? label) s).map strip

/-- The parts between the separators; a text with `n` separators has `n + 1` parts. -/
def splitAtChar (sep : Char) : List Char → List (List Char)
  | [] => [[]]
  | c :: rest =>
    if c = sep then [] :: splitAtChar sep rest
    else
      match splitAtChar sep rest with
      | [] => [[c]]
      | part :: more => (c :: part) :: more

/-- The part of a path after its last slash or backslash. -/
def baseName (s : List Char) : List Char :=
  (s.reverse.takeWhile (fun c => c != '/' && c != '\\')).reverse

end Conductor.Text
