import Conductor.Value

/-!
Values as JSON, with two blanks for every level of nesting. An empty list and an empty table stand
on one line.
-/

namespace Conductor.Value

def newLine (depth : Nat) : String :=
  String.ofList ('\n' :: List.replicate (2 * depth) ' ')

/-- Items between two brackets, each on a line of its own. -/
def bracketed (opening closing : String) (depth : Nat) (items : List String) : String :=
  if items.isEmpty then opening ++ closing
  else
    opening ++ newLine (depth + 1) ++ String.intercalate ("," ++ newLine (depth + 1)) items ++
      newLine depth ++ closing

mutual

/-- The value as JSON, `depth` levels deep in other values. -/
def jsonAt (depth : Nat) : Value → String
  | null => "null"
  | bool b => if b then "true" else "false"
  | int n => toString n
  | float x => x.shown
  | text s => Text.literal s
  | list items => bracketed "[" "]" depth (jsonItems (depth + 1) items)
  | table fields => bracketed "\x7b" "\x7d" depth (jsonFields (depth + 1) fields)
  | moment m => Text.literal m.text

def jsonItems (depth : Nat) : List Value → List String
  | [] => []
  | v :: rest => jsonAt depth v :: jsonItems depth rest

def jsonFields (depth : Nat) : List (String × Value) → List String
  | [] => []
  | (key, v) :: rest => (Text.literal key ++ ": " ++ jsonAt depth v) :: jsonFields depth rest

end

def json (v : Value) : String := jsonAt 0 v

end Conductor.Value
