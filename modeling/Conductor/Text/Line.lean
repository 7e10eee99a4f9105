import Conductor.Text.Blank

/-!
Two notions of line. A feed-separated line ends at a line feed and at nothing else. A printed line
ends at any of the boundary characters, where a carriage return and the line feed after it are one
boundary, and a text that ends in a boundary has no empty line after it.
-/

namespace Conductor.Text

/-- The characters that end a printed line. -/
def isBoundary (c : Char) : Bool :=
  let n := c.toNat
  (10 ≤ n && n ≤ 13) || (28 ≤ n && n ≤ 30) || n == 0x85 || n == 0x2028 || n == 0x2029

/-- Lines that end at a line feed; a text with `n` line feeds has `n + 1` of them. -/
def feedLines : List Char → List (List Char)
  | [] => [[]]
  | c :: rest =>
    if c = '\n' then [] :: feedLines rest
    else
      match feedLines rest with
      | [] => [[c]]
      | line :: more => (c :: line) :: more

/-- The part of the text before its first line feed. -/
def firstLine (s : List Char) : List Char :=
  s.takeWhile (· != '\n')

/-- Printed lines; `line` holds the characters of the unfinished line, the last one first. -/
def printedLinesFrom (line : List Char) : List Char → List (List Char)
  | [] => if line.isEmpty then [] else [line.reverse]
  | '\r' :: '\n' :: rest => line.reverse :: printedLinesFrom [] rest
  | c :: rest =>
    if isBoundary c then line.reverse :: printedLinesFrom [] rest
    else printedLinesFrom (c :: line) rest

def printedLines (s : List Char) : List (List Char) :=
  printedLinesFrom [] s

/-- The text as it is read from a file: every line ending becomes one line feed. -/
def normalizeNewlines : List Char → List Char
  | [] => []
  | '\r' :: '\n' :: rest => '\n' :: normalizeNewlines rest
  | c :: rest => (if c = '\r' then '\n' else c) :: normalizeNewlines rest

end Conductor.Text
