import Conductor.Toml.Problem
import Conductor.Text.Scan

/-!
Strings of a settings file: basic ones, in which a backslash escapes, and literal ones, each on one
line or on several.
-/

namespace Conductor.Toml

/-- Controls that may not stand in a text, other than the tab. -/
def isControl (c : Char) : Bool :=
  (c.toNat < 0x20 && c != '\t') || c.toNat == 0x7f

/-- Controls that may not stand in a text on several lines. -/
def isControlInLines (c : Char) : Bool :=
  isControl c && c != '\n'

def isSpace (c : Char) : Bool := c == ' ' || c == '\t'

def isSpaceOrNewline (c : Char) : Bool := isSpace c || c == '\n'

def hexValue? (c : Char) : Option Nat :=
  if '0' ≤ c && c ≤ '9' then some (c.toNat - 48)
  else if 'a' ≤ c && c ≤ 'f' then some (c.toNat - 87)
  else if 'A' ≤ c && c ≤ 'F' then some (c.toNat - 55)
  else none

/-- The character with the number that hexadecimal digits give; there is none for a surrogate or a
number that is too great. -/
def charOfHex? (digits : List Char) : Option Char :=
  match digits.mapM hexValue? with
  | some values =>
    let n := values.foldl (fun n d => 16 * n + d) 0
    if n.isValidChar then some (Char.ofNat n) else none
  | none => none

/-- The characters that a backslash and one letter stand for. -/
def escaped? : Char → Option Char
  | 'b' => some '\x08'
  | 't' => some '\t'
  | 'n' => some '\n'
  | 'f' => some '\x0c'
  | 'r' => some '\r'
  | '"' => some '"'
  | '\\' => some '\\'
  | _ => none

/-- Where the reader of a basic string stands. A backslash at the end of a line makes it pass over
all blanks and line ends that follow. -/
inductive Mode where
  | plain
  /-- After a backslash and a blank: only blanks may come before the end of the line. -/
  | toLineEnd
  /-- After the end of such a line. -/
  | toText
  deriving DecidableEq, Repr

def prepend (c : Char) (r : Except Problem (List Char × List Char)) :
    Except Problem (List Char × List Char) :=
  r.map fun (chars, rest) => (c :: chars, rest)

def unterminated : Problem := .malformed "Unterminated string"

def strayBackslash : Problem := .malformed "Unescaped '\\' in a string"

/-- The rest of a basic string, after its opening quotes. -/
def basicBody (lines : Bool) (mode : Mode) : List Char → Except Problem (List Char × List Char)
  | [] => .error unterminated
  | '"' :: rest =>
    if mode = .toLineEnd then .error strayBackslash
    else if !lines then .ok ([], rest)
    else
      match rest with
      | '"' :: '"' :: tail => .ok ([], tail)
      | _ => prepend '"' (basicBody lines .plain rest)
  | '\\' :: 'u' :: a :: b :: c :: d :: rest =>
    match mode, charOfHex? [a, b, c, d] with
    | .toLineEnd, _ => .error strayBackslash
    | _, some x => prepend x (basicBody lines .plain rest)
    | _, none => .error (.malformed "Invalid hex value")
  | '\\' :: 'U' :: a :: b :: c :: d :: e :: f :: g :: h :: rest =>
    match mode, charOfHex? [a, b, c, d, e, f, g, h] with
    | .toLineEnd, _ => .error strayBackslash
    | _, some x => prepend x (basicBody lines .plain rest)
    | _, none => .error (.malformed "Invalid hex value")
  | '\\' :: c :: rest =>
    if mode = .toLineEnd then .error strayBackslash
    else if lines && isSpace c then basicBody lines .toLineEnd rest
    else if lines && c = '\n' then basicBody lines .toText rest
    else
      match escaped? c with
      | some x => prepend x (basicBody lines .plain rest)
      | none => .error strayBackslash
  | c :: rest =>
    match mode with
    | .toLineEnd =>
      if isSpace c then basicBody lines .toLineEnd rest
      else if c = '\n' then basicBody lines .toText rest
      else .error strayBackslash
    | .toText =>
      if isSpaceOrNewline c then basicBody lines .toText rest
      else if isControlInLines c then .error (.malformed "Illegal character")
      else prepend c (basicBody lines .plain rest)
    | .plain =>
      if (if lines then isControlInLines c else isControl c) then
        .error (.malformed "Illegal character")
      else prepend c (basicBody lines .plain rest)

/-- The rest of a literal string on one line, after its opening quote. -/
def literalBody : List Char → Except Problem (List Char × List Char)
  | [] => .error unterminated
  | c :: rest =>
    if c = '\'' then .ok ([], rest)
    else if isControl c then .error (.malformed "Illegal character")
    else prepend c (literalBody rest)

/-- The rest of a literal string on several lines. -/
def literalLines : List Char → Except Problem (List Char × List Char)
  | [] => .error unterminated
  | '\'' :: '\'' :: '\'' :: rest => .ok ([], rest)
  | c :: rest =>
    if isControlInLines c then .error (.malformed "Illegal character")
    else prepend c (literalLines rest)

/-- Up to two quotes may stand right before the three that end a string on several lines. They are
read here after those three. -/
def withExtraQuotes (mark : Char) (r : Except Problem (List Char × List Char)) :
    Except Problem (List Char × List Char) :=
  r.map fun (chars, rest) =>
    match rest with
    | c :: d :: tail =>
      if c != mark then (chars, rest)
      else if d != mark then (chars ++ [mark], d :: tail)
      else (chars ++ [mark, mark], tail)
    | [c] => if c = mark then (chars ++ [mark], []) else (chars, rest)
    | [] => (chars, [])

/-- A line end right after the opening quotes does not count. -/
def dropFirstNewline : List Char → List Char
  | '\n' :: rest => rest
  | s => s

/-- A string of any of the four kinds; `none` if there is no string here. -/
def string? : List Char → Option (Except Problem (List Char × List Char))
  | '"' :: '"' :: '"' :: rest =>
    some (withExtraQuotes '"' (basicBody true .plain (dropFirstNewline rest)))
  | '"' :: rest => some (basicBody false .plain rest)
  | '\'' :: '\'' :: '\'' :: rest =>
    some (withExtraQuotes '\'' (literalLines (dropFirstNewline rest)))
  | '\'' :: rest => some (literalBody rest)
  | _ => none

end Conductor.Toml
