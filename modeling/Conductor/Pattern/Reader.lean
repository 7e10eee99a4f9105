import Conductor.Pattern
import Conductor.Number.Limit

/-!
Reading patterns. A pattern is read token by token; a stack of open groups turns the tokens into a
tree. The first thing that is wrong is what is told.
-/

namespace Conductor.Pattern

/-- Why a pattern was refused. -/
inductive Problem where
  | malformed
  /-- A repetition of more rounds than can be counted. -/
  | tooManyRounds
  /-- A number with more digits than are read. -/
  | numberTooLong (digits : Nat)
  deriving DecidableEq, Repr

abbrev Reading (α : Type) := Except Problem α

/-- What is missing where something has to be is a mistake in the pattern. -/
def orMalformed {α : Type} (x : Option α) : Reading α := x.elim (.error .malformed) .ok

/-- What a repetition may follow. -/
inductive Role where
  | plain
  /-- A place, which cannot be repeated. -/
  | place
  | repeated
  deriving DecidableEq, Repr

inductive Token where
  | item (p : Pattern) (role : Role)
  | times (low : Nat) (high : Option Nat) (eagerness : Eagerness)
  | bar
  /-- A plain group is a pattern of its own; any other is only a pair of brackets. -/
  | opening (isGroup : Bool)
  | closing

/-- The number written in exactly `width` hexadecimal digits. -/
def hexChar? (width : Nat) (s : List Char) : Option (Char × List Char) :=
  let digits := s.take width
  let value (c : Char) : Option Nat :=
    if c.isDigit then some (c.toNat - 48)
    else if 'a' ≤ c.toLower && c.toLower ≤ 'f' then some (c.toLower.toNat - 87)
    else none
  match digits.mapM value with
  | some values =>
    let n := values.foldl (fun n d => 16 * n + d) 0
    if digits.length = width && n.isValidChar then some (Char.ofNat n, s.drop width) else none
  | none => none

/-- An escaped character that stands for one character, inside and outside of sets. -/
def escapedChar? (c : Char) (rest : List Char) : Option (Char × List Char) :=
  match c with
  | 'n' => some ('\n', rest)
  | 't' => some ('\t', rest)
  | 'r' => some ('\r', rest)
  | 'f' => some ('\x0c', rest)
  | 'v' => some ('\x0b', rest)
  | 'a' => some ('\x07', rest)
  | '0' => some ('\x00', rest)
  | 'x' => hexChar? 2 rest
  | 'u' => hexChar? 4 rest
  | 'U' => hexChar? 8 rest
  | _ => if c.isAlphanum then none else some (c, rest)

def escapedClass? : Char → Option CharClass
  | 'd' => some (.digit false)
  | 'D' => some (.digit true)
  | 's' => some (.blank false)
  | 'S' => some (.blank true)
  | 'w' => some (.word false)
  | 'W' => some (.word true)
  | _ => none

/-- A member of a set: a single character or a class. -/
inductive Member where
  | single (c : Char)
  | ofClass (cls : CharClass)

def Member.toClass : Member → CharClass
  | single c => .single c
  | ofClass cls => cls

def member? : List Char → Option (Member × List Char)
  | [] => none
  | '\\' :: c :: rest =>
    match escapedClass? c with
    | some cls => some (.ofClass cls, rest)
    | none =>
      if c = 'b' then some (.single '\x08', rest)
      else (escapedChar? c rest).map fun (c, rest) => (.single c, rest)
  | ['\\'] => none
  | c :: rest => some (.single c, rest)

/-- The members of a set up to its closing bracket. A bracket that would close an empty set belongs
to it; a hyphen stands for itself in front of the closing bracket. -/
def members? : Nat → Bool → List Char → Option (List CharClass × List Char)
  | 0, _, _ => none
  | _ + 1, false, ']' :: rest => some ([], rest)
  | fuel + 1, _, s => do
    let (first, rest) ← member? s
    match rest with
    | '-' :: ']' :: rest => return ([first.toClass, .single '-'], rest)
    | '-' :: rest =>
      let (last, rest) ← member? rest
      match first, last with
      | .single a, .single b =>
        if b < a then none
        else
          let (more, rest) ← members? fuel false rest
          return (.range a b :: more, rest)
      | _, _ => none
    | _ =>
      let (more, rest) ← members? fuel false rest
      return (first.toClass :: more, rest)

/-- A set of characters. One that holds a single character is that character, or any other one. -/
def ofClasses (negated : Bool) (classes : List CharClass) : Pattern :=
  match classes.eraseDups, negated with
  | [.single c], false => .char c
  | [.single c], true => .otherThan c
  | classes, negated => .oneOf negated classes

/-- The set whose opening bracket stands before `s`. -/
def set? (s : List Char) : Option (Pattern × List Char) :=
  let (negated, s) :=
    match s with
    | '^' :: rest => (true, rest)
    | _ => (false, s)
  (members? (s.length + 1) true s).map fun (classes, rest) => (ofClasses negated classes, rest)

/-- The digits of the bounds of a repetition whose opening brace stands before `s`. A single bound
is both the lower and the upper one. -/
def bounds? (s : List Char) : Option (List Char × List Char × List Char) :=
  if s.head? = some '\x7d' then none
  else
    let low := s.takeWhile Char.isDigit
    match s.dropWhile Char.isDigit with
    | ',' :: rest =>
      match rest.dropWhile Char.isDigit with
      | '\x7d' :: after => some (low, rest.takeWhile Char.isDigit, after)
      | _ => none
    | '\x7d' :: after => some (low, low, after)
    | _ => none

/-- The number of rounds that is one too many. -/
def roundsLimit : Nat := 4294967295

/-- The value of a bound, which need not be given. -/
def bound (digits : List Char) : Reading (Option Nat) :=
  if digits.isEmpty then .ok none
  else if maxDigits < digits.length then .error (.numberTooLong digits.length)
  else
    let n := Text.digitsValue digits
    if roundsLimit ≤ n then .error .tooManyRounds else .ok (some n)

/-- The mark after a repetition that says how eager it is. -/
def eagerness : List Char → Eagerness × List Char
  | '?' :: rest => (.lazy, rest)
  | '+' :: rest => (.possessive, rest)
  | s => (.greedy, s)

/-- A repetition, and what follows it and its mark. -/
def repetition (low : Nat) (high : Option Nat) (rest : List Char) : Token × List Char :=
  let (eagerness, rest) := eagerness rest
  (.times low high eagerness, rest)

/-- What an opening brace starts: a repetition, or, where no bounds follow it, nothing special. -/
def brace (s : List Char) : Reading (Token × List Char) :=
  match bounds? s with
  | none => .ok (.item (.char '\x7b') .plain, s)
  | some (low, high, rest) => do
    let low := (← bound low).getD 0
    let high ← bound high
    if high.any (· < low) then .error .malformed else .ok (repetition low high rest)

/-- Drops the name of a named group. -/
def afterName? (s : List Char) : Option (List Char) :=
  match s.span Text.isWordChar with
  | ([], _) => none
  | (_, '>' :: rest) => some rest
  | _ => none

/-- The first token, and what follows it. -/
def token : List Char → Reading (Token × List Char)
  | [] => .error .malformed
  | '.' :: rest => .ok (.item .any .plain, rest)
  | '^' :: rest => .ok (.item .textStart .place, rest)
  | '$' :: rest => .ok (.item .textEnd .place, rest)
  | '|' :: rest => .ok (.bar, rest)
  | ')' :: rest => .ok (.closing, rest)
  | '(' :: '?' :: ':' :: rest => .ok (.opening false, rest)
  | '(' :: '?' :: 'P' :: '<' :: rest => (orMalformed (afterName? rest)).map (.opening true, ·)
  | '(' :: '?' :: _ => .error .malformed
  | '(' :: rest => .ok (.opening true, rest)
  | '[' :: rest => (orMalformed (set? rest)).map fun (p, rest) => (.item p .plain, rest)
  | '*' :: rest => .ok (repetition 0 none rest)
  | '+' :: rest => .ok (repetition 1 none rest)
  | '?' :: rest => .ok (repetition 0 (some 1) rest)
  | '\x7b' :: rest => brace rest
  | '\\' :: c :: rest =>
    match c with
    | 'b' => .ok (.item (.wordEdge false) .place, rest)
    | 'B' => .ok (.item (.wordEdge true) .place, rest)
    | 'A' => .ok (.item .absoluteStart .place, rest)
    | 'Z' => .ok (.item .absoluteEnd .place, rest)
    | _ =>
      match escapedClass? c with
      | some cls => .ok (.item (.oneOf false [cls]) .plain, rest)
      | none =>
        (orMalformed (escapedChar? c rest)).map fun (c, rest) => (.item (.char c) .plain, rest)
  | ['\\'] => .error .malformed
  | c :: rest => .ok (.item (.char c) .plain, rest)

/-- Patterns in a row. -/
def inRow : List Pattern → Pattern
  | [] => .empty
  | [p] => p
  | p :: rest => .both p (inRow rest)

/-- Whether a pattern can be told to be the same as another one: characters, sets and places can,
and nothing that has parts. -/
def isPlain : Pattern → Bool
  | .group _ | .both _ _ | .either _ _ | .times .. => false
  | _ => true

/-- How many patterns at the start of a row all the other rows start with too. -/
def sharedStart : List Pattern → List (List Pattern) → Nat
  | [], _ => 0
  | p :: rest, others =>
    if isPlain p && others.all (·.head? == some p) then
      sharedStart rest (others.map (·.tail)) + 1
    else 0

/-- The classes of a row that is one set of characters. -/
def setOf? : List Pattern → Option (List CharClass)
  | [.char c] => some [.single c]
  | [.oneOf false classes] => some classes
  | _ => none

/-- Any of several rows. Rows that all are sets of characters make up one set. -/
def anyOf (rows : List (List Pattern)) : Pattern :=
  match rows.mapM setOf? with
  | some classes => .oneOf false classes.flatten.eraseDups
  | none =>
    match rows.reverse with
    | [] => .empty
    | last :: before => before.foldl (fun later row => .either (inRow row) later) (inRow last)

/-- The alternatives of a group as one row. What all of them start with is matched first, and only
then comes the choice. -/
def alternatives : List (List Pattern) → List Pattern
  | [] => []
  | [row] => row
  | row :: others =>
    let shared := sharedStart row others
    row.take shared ++ [anyOf ((row :: others).map (·.drop shared))]

/-- A group that is being read: the alternatives before the present one, the latest first, and the
items of the present one, the latest first. What stands in mere brackets is one item, though it may
be several patterns in a row. -/
structure Frame where
  isGroup : Bool := true
  before : List (List Pattern) := []
  items : List (List Pattern × Role) := []

namespace Frame

def push (frame : Frame) (row : List Pattern) (role : Role) : Frame :=
  { frame with items := (row, role) :: frame.items }

/-- The present alternative. -/
def row (frame : Frame) : List Pattern := (frame.items.reverse.map (·.1)).flatten

/-- Starts the next alternative. -/
def next (frame : Frame) : Frame :=
  { frame with before := frame.row :: frame.before, items := [] }

/-- Any of the alternatives. -/
def whole (frame : Frame) : List Pattern := alternatives (frame.row :: frame.before).reverse

/-- What a closed group is in the row that it stands in. -/
def closed (frame : Frame) : List Pattern :=
  if frame.isGroup then [.group (inRow frame.whole)] else frame.whole

end Frame

/-- Puts tokens together. The first frame is the innermost open group. Every token takes at least
one character. -/
def assemble : Nat → Frame → List Frame → List Char → Reading Pattern
  | _, frame, outer, [] => if outer.isEmpty then .ok (inRow frame.whole) else .error .malformed
  | 0, _, _, _ => .error .malformed
  | fuel + 1, frame, outer, s => do
    let (token, rest) ← token s
    match token with
    | .item p role => assemble fuel (frame.push [p] role) outer rest
    | .bar => assemble fuel frame.next outer rest
    | .opening isGroup => assemble fuel { isGroup } (frame :: outer) rest
    | .closing =>
      match outer with
      | [] => .error .malformed
      | parent :: outer => assemble fuel (parent.push frame.closed .plain) outer rest
    | .times low high eagerness =>
      match frame.items with
      | (row, .plain) :: items =>
        let repeated := ([Pattern.times (inRow row) low high eagerness], Role.repeated)
        assemble fuel { frame with items := repeated :: items } outer rest
      | _ => .error .malformed

/-- Reads a pattern. -/
def parse (text : String) : Reading Pattern :=
  let cs := text.toList
  assemble cs.length {} [] cs

end Conductor.Pattern
