import Conductor.Toml.Text
import Conductor.Toml.Scalar
import Conductor.Toml.Document

/-!
Reading a settings file: values, the lines that give them names, and the headers above them.
-/

namespace Conductor.Toml

def isBareKey (c : Char) : Bool := c.isAlphanum || c == '-' || c == '_'

def skipSpace (s : List Char) : List Char := s.dropWhile isSpace

/-- Passes over a comment, up to the end of its line. -/
def skipComment : List Char → Except Problem (List Char)
  | '#' :: rest =>
    let comment := rest.takeWhile (· != '\n')
    if comment.any isControl then .error (.malformed "Illegal character")
    else .ok (rest.dropWhile (· != '\n'))
  | s => .ok s

/-- Passes over blanks, line ends and comments inside a list. `inComment` says whether a comment is
being passed over. -/
def skipFiller (inComment : Bool) : List Char → Except Problem (List Char)
  | [] => .ok []
  | c :: rest =>
    if inComment then
      if c = '\n' then skipFiller false rest
      else if isControl c then .error (.malformed "Illegal character")
      else skipFiller true rest
    else if isSpaceOrNewline c then skipFiller false rest
    else if c = '#' then skipFiller true rest
    else .ok (c :: rest)

/-- One name of a key: bare or in quotes. -/
def keyName (s : List Char) : Except Problem (String × List Char) :=
  let bare := s.takeWhile isBareKey
  if !bare.isEmpty then .ok (String.ofList bare, s.dropWhile isBareKey)
  else
    match s with
    | '\'' :: rest => (literalBody rest).map fun (chars, rest) => (String.ofList chars, rest)
    | '"' :: rest =>
      (basicBody false .plain rest).map fun (chars, rest) => (String.ofList chars, rest)
    | _ => .error (.malformed "Invalid initial character for a key part")

/-- Names with dots between them; every name takes at least one character. -/
def keyNames : Nat → List Char → Except Problem (Key × List Char)
  | 0, _ => .error (.malformed "Invalid initial character for a key part")
  | fuel + 1, s => do
    let (name, rest) ← keyName s
    match skipSpace rest with
    | '.' :: rest =>
      let (more, rest) ← keyNames fuel (skipSpace rest)
      return (name :: more, rest)
    | rest => return ([name], rest)

def key (s : List Char) : Except Problem (Key × List Char) := keyNames (s.length + 1) s

/-- Enters a value into a table that is written on one line. `frozen` holds the keys of the values
before it that are themselves lists or tables. -/
def enterInline (frozen : List Key) (k : Key) (value : Value) (t : Table) : Except Problem Table :=
  if frozen.any (·.isPrefixOf k) then .error (.malformed "Cannot mutate an immutable namespace")
  else
    match t.modifyNest? false (Document.addNew? (k.getLast?.getD "") value) k.dropLast with
    | some t => .ok t
    | none => .error Document.overwrites

mutual

/-- A value; every part of it takes at least one character, which bounds the recursion. -/
def value : Nat → List Char → Except Problem (Value × List Char)
  | 0, _ => .error (.malformed "Invalid value")
  | fuel + 1, s =>
    match string? s with
    | some r => r.map fun (chars, rest) => (.text (String.ofList chars), rest)
    | none =>
      match s with
      | 't' :: 'r' :: 'u' :: 'e' :: rest => .ok (.bool true, rest)
      | 'f' :: 'a' :: 'l' :: 's' :: 'e' :: rest => .ok (.bool false, rest)
      | '[' :: rest => do
        let (values, rest) ← listItems fuel (← skipFiller false rest)
        return (.list values, rest)
      | '\x7b' :: rest =>
        match skipSpace rest with
        | '\x7d' :: rest => .ok (.table [], rest)
        | rest => inlineFields fuel [] [] rest
      | _ => (scalar? s).getD (.error (.malformed "Invalid value"))

/-- The items of a list up to its closing bracket, which may follow a comma. -/
def listItems : Nat → List Char → Except Problem (List Value × List Char)
  | 0, _ => .error (.malformed "Unclosed array")
  | fuel + 1, s =>
    match s with
    | ']' :: rest => .ok ([], rest)
    | _ => do
      let (v, rest) ← value fuel s
      match ← skipFiller false rest with
      | ']' :: rest => return ([v], rest)
      | ',' :: rest =>
        let (more, rest) ← listItems fuel (← skipFiller false rest)
        return (v :: more, rest)
      | _ => .error (.malformed "Unclosed array")

/-- The fields of a table on one line up to its closing brace. -/
def inlineFields : Nat → List Key → Table → List Char → Except Problem (Value × List Char)
  | 0, _, _, _ => .error (.malformed "Unclosed inline table")
  | fuel + 1, frozen, t, s => do
    let (k, rest) ← key s
    match rest with
    | '=' :: rest =>
      let (v, rest) ← value fuel (skipSpace rest)
      let t ← enterInline frozen k v t
      match skipSpace rest with
      | '\x7d' :: rest => return (.table t, rest)
      | ',' :: rest =>
        let frozen := if Document.isNested v then k :: frozen else frozen
        inlineFields fuel frozen t (skipSpace rest)
      | _ => .error (.malformed "Unclosed inline table")
    | _ => .error (.malformed "Expected '=' after a key in a key/value pair")

end

/-- A key, an equals sign and a value. -/
def pair (s : List Char) : Except Problem ((Key × Value) × List Char) := do
  let (k, rest) ← key s
  match rest with
  | '=' :: rest =>
    let rest := skipSpace rest
    let (v, rest) ← value (rest.length + 1) rest
    return ((k, v), rest)
  | _ => .error (.malformed "Expected '=' after a key in a key/value pair")

/-- A header: the document with the table opened, and the key that stands in the header. -/
def header (d : Document) (s : List Char) : Except Problem ((Document × Key) × List Char) := do
  match s with
  | '[' :: '[' :: rest =>
    let (k, rest) ← key (skipSpace rest)
    let d ← d.openListed k
    match rest with
    | ']' :: ']' :: rest => return ((d, k), rest)
    | _ => .error (.malformed "Expected ']]' at the end of an array declaration")
  | _ =>
    let (k, rest) ← key (skipSpace (s.drop 1))
    let d ← d.openTable k
    match rest with
    | ']' :: rest => return ((d, k), rest)
    | _ => .error (.malformed "Expected ']' at the end of a table declaration")

/-- One statement: a pair or a header, or nothing where a comment or the end of the line comes. -/
def statement (d : Document) (above : Key) (s : List Char) :
    Except Problem ((Document × Key) × List Char) :=
  match s with
  | [] => .ok ((d, above), [])
  | c :: _ =>
    if isBareKey c || c = '"' || c = '\'' then do
      let ((k, v), rest) ← pair s
      let d ← d.enter above k v
      return ((d, above), rest)
    else if c = '[' then header d.settle s
    else if c = '#' || c = '\n' then .ok ((d, above), s)
    else .error (.malformed "Invalid statement")

/-- The statements of a document, one to a line; every line takes at least one character. -/
def statements : Nat → Document → Key → List Char → Except Problem Table
  | 0, d, _, _ => .ok d.table
  | fuel + 1, d, above, s => do
    let ((d, above), rest) ← statement d above (skipSpace s)
    match ← skipComment (skipSpace rest) with
    | [] => return d.table
    | '\n' :: rest => statements fuel d above rest
    | _ => .error (.malformed "Expected newline or end of document after a statement")

/-- Line ends as the format knows them. -/
def unifyLineEnds : List Char → List Char
  | [] => []
  | '\r' :: '\n' :: rest => '\n' :: unifyLineEnds rest
  | c :: rest => c :: unifyLineEnds rest

/-- Reads a whole document. -/
def parse (text : String) : Except Problem Table :=
  let s := unifyLineEnds text.toList
  statements (s.length + 1) {} [] s

end Conductor.Toml
