import Conductor.Toml.Problem
import Conductor.Value

/-!
The tables of a settings file while it is read. A document is a tree of tables together with marks
that say which tables may still be opened or added to.
-/

namespace Conductor.Toml

abbrev Table := List (String × Value)

/-- A dotted key. -/
abbrev Key := List String

/-- Puts a value under a key, in the place of one that was there. -/
def Table.put (t : Table) (key : String) (value : Value) : Table :=
  if t.any (fun field => field.1 == key) then
    t.map fun field => if field.1 == key then (key, value) else field
  else t ++ [(key, value)]

def Table.get? (t : Table) (key : String) : Option Value :=
  (t.find? (fun field => field.1 == key)).map (·.2)

/-- Changes the table under a dotted key; tables on the way are made where nothing is. With
`throughLists` a list of tables stands for its last one. -/
def Table.modifyNest? (throughLists : Bool) (f : Table → Option Table) :
    Key → Table → Option Table
  | [], t => f t
  | k :: rest, t =>
    match t.get? k with
    | none => (modifyNest? throughLists f rest []).map fun u => t.put k (.table u)
    | some (.table u) => (modifyNest? throughLists f rest u).map fun u => t.put k (.table u)
    | some (.list items) =>
      match throughLists, items.getLast? with
      | true, some (.table u) =>
        (modifyNest? throughLists f rest u).map fun u =>
          t.put k (.list (items.dropLast ++ [.table u]))
      | _, _ => none
    | some _ => none

/-- What may no longer be done to a table. -/
inductive Mark where
  /-- Nothing may be added to it or to what is in it: it was written on one line. -/
  | frozen
  /-- It may not be opened again by its header. -/
  | declared
  deriving DecidableEq, Repr

structure Document where
  table : Table := []
  /-- The keys that were marked. A frozen key freezes all keys below it. -/
  marks : List (Key × Mark) := []
  /-- Marks that hold from the next header on. -/
  pending : List (Key × Mark) := []

namespace Document

/-- Whether a key, or for a frozen one also a key above it, has a mark. -/
def isMarked (d : Document) (key : Key) (mark : Mark) : Bool :=
  d.marks.any fun (k, m) =>
    m == mark && (if mark == .frozen then k.isPrefixOf key else k == key) && !key.isEmpty

def mark (d : Document) (key : Key) (mark : Mark) : Document :=
  { d with marks := (key, mark) :: d.marks }

/-- Makes the pending marks hold. -/
def settle (d : Document) : Document :=
  { d with marks := d.pending ++ d.marks, pending := [] }

/-- Takes back all marks on a key and below it. -/
def release (d : Document) (key : Key) : Document :=
  { d with marks := d.marks.filter fun (k, _) => !key.isPrefixOf k }

def overwrites : Problem := .malformed "Cannot overwrite a value"

/-- A header opens a table. -/
def openTable (d : Document) (key : Key) : Except Problem Document :=
  if d.isMarked key .declared || d.isMarked key .frozen then
    .error (.malformed "Cannot declare a table twice")
  else
    match d.table.modifyNest? true some key with
    | some table => .ok { d.mark key .declared with table }
    | none => .error overwrites

/-- Adds an empty table to the list under the last name of a key. -/
def appendTable? (last : String) (t : Table) : Option Table :=
  match t.get? last with
  | none => some (t.put last (.list [.table []]))
  | some (.list items) => some (t.put last (.list (items ++ [.table []])))
  | some _ => none

/-- A doubled header opens a further table of a list. -/
def openListed (d : Document) (key : Key) : Except Problem Document :=
  if d.isMarked key .frozen then .error (.malformed "Cannot mutate an immutable namespace")
  else
    let d := (d.release key).mark key .declared
    match d.table.modifyNest? true (appendTable? (key.getLast?.getD "")) key.dropLast with
    | some table => .ok { d with table }
    | none => .error overwrites

/-- Puts a value under a name that is not there yet. -/
def addNew? (name : String) (value : Value) (t : Table) : Option Table :=
  if (t.get? name).isSome then none else some (t.put name value)

def isNested : Value → Bool
  | .list _ => true
  | .table _ => true
  | _ => false

/-- The tables between a header and the last name of a dotted key. -/
def between (header key : Key) : List Key :=
  (List.range (key.length - 1)).map fun n => header ++ key.take (n + 1)

/-- Enters a value under a dotted key below a header. -/
def enter (d : Document) (header key : Key) (value : Value) : Except Problem Document :=
  let above := between header key
  if above.any fun k => d.isMarked k .declared then
    .error (.malformed "Cannot redefine a namespace")
  else
    let parent := header ++ key.dropLast
    let d := { d with pending := above.map (·, Mark.declared) ++ d.pending }
    if d.isMarked parent .frozen then .error (.malformed "Cannot mutate an immutable namespace")
    else
      match d.table.modifyNest? true (addNew? (key.getLast?.getD "") value) parent with
      | none => .error overwrites
      | some table =>
        let d := { d with table }
        .ok (if isNested value then d.mark (header ++ key) .frozen else d)

end Document

end Conductor.Toml
