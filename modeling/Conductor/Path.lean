import Conductor.Text.Scan

/-!
Paths as texts of names between slashes. A path is kept in a normal form without empty names and
without single dots; double dots stay, since what they mean depends on the directories there are.
-/

namespace Conductor

structure Path where
  /-- How many slashes the path starts with: none, one, or exactly two. -/
  slashes : Nat
  names : List String
  deriving DecidableEq, Repr

namespace Path

def ofString (text : String) : Path :=
  let cs := text.toList
  let lead := (cs.takeWhile (· == '/')).length
  { slashes := if lead ≤ 2 then lead else 1
    names := (((Text.splitAtChar '/' cs).filter fun name => !name.isEmpty && name != ['.'])).map
      String.ofList }

def toString (p : Path) : String :=
  if p.slashes = 0 && p.names.isEmpty then "."
  else String.ofList (List.replicate p.slashes '/') ++ String.intercalate "/" p.names

def isAbsolute (p : Path) : Bool := p.slashes != 0

/-- The path `q` as seen from `p`; an absolute one is the same from everywhere. -/
def join (p q : Path) : Path :=
  if q.isAbsolute then q else { p with names := p.names ++ q.names }

/-- The last name. -/
def fileName (p : Path) : String := p.names.getLast?.getD ""

/-- Drops every double dot together with the name before it. `done` holds the names kept so far, the
last one first. -/
def collapse (done : List String) : List String → List String
  | [] => done.reverse
  | name :: rest => if name = ".." then collapse done.tail rest else collapse (name :: done) rest

/-- Whether one of the names holds a NUL character, so that nothing can have this path. -/
def holdsNul (p : Path) : Bool := p.names.any fun name => name.toList.contains '\x00'

/-- The path without double dots, where no name is a link. Every name has to be one that can be
looked up. -/
def resolve? (p : Path) : Option Path :=
  if p.holdsNul then none
  else some { slashes := min p.slashes 1, names := collapse [] p.names }

end Path

end Conductor
