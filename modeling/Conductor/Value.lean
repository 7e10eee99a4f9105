import Conductor.Number.Limit
import Conductor.Text.Quoted
import Conductor.Time.Calendar

/-!
Values as settings files hold them and events carry them, with their texts: the form in which they
are written to a settings file, and the form in which they are shown.
-/

namespace Conductor

inductive Value where
  | null
  | bool (b : Bool)
  | int (n : Int)
  | float (x : Binary64)
  | text (s : String)
  | list (items : List Value)
  /-- A table with its keys in the order in which they were given. -/
  | table (fields : List (String × Value))
  | moment (m : Moment)

namespace Value

/-- The name under which the type of a value appears in messages. -/
def typeName : Value → String
  | null => "NoneType"
  | bool _ => "bool"
  | int _ => "int"
  | float _ => "float"
  | text _ => "str"
  | list _ => "list"
  | table _ => "dict"
  | moment m => m.typeName

/-- The same with the family of types that a moment belongs to. -/
def fullTypeName : Value → String
  | moment m => "datetime." ++ m.typeName
  | v => v.typeName

mutual

/-- The shown form of a value inside a list or a table. -/
def shown : Value → String
  | null => "None"
  | bool b => if b then "True" else "False"
  | int n => toString n
  | float x => x.shown
  | text s => Text.shown s
  | list items => "[" ++ String.intercalate ", " (shownItems items) ++ "]"
  | table fields => "\x7b" ++ String.intercalate ", " (shownFields fields) ++ "\x7d"
  | moment m => m.shown

def shownItems : List Value → List String
  | [] => []
  | v :: rest => shown v :: shownItems rest

def shownFields : List (String × Value) → List String
  | [] => []
  | (key, v) :: rest => (Text.shown key ++ ": " ++ shown v) :: shownFields rest

end

/-- The shown form of a value on its own, where a text and a moment stand as they are. -/
def display : Value → String
  | text s => s
  | moment m => m.text
  | v => v.shown

/-- A number in three decimals without the zeros at its end, of which one after the point stays. -/
def floatToml (x : Binary64) : String :=
  let kept := ((x.fixedChars 3).reverse.dropWhile (· == '0')).reverse
  String.ofList (if kept.getLast? = some '.' then kept ++ ['0'] else kept)

mutual

/-- The form in which a value is written to a settings file. Whatever has no form of its own there
is written as a text that shows it. -/
def toml : Value → String
  | bool b => if b then "true" else "false"
  | int n => toString n
  | float x => floatToml x
  | list items => "[" ++ String.intercalate ", " (tomlItems items) ++ "]"
  | null => Text.literal "None"
  | text s => Text.literal s
  | table fields => Text.literal (table fields).shown
  | moment m => Text.literal m.text

def tomlItems : List Value → List String
  | [] => []
  | v :: rest => toml v :: tomlItems rest

end

/-- The value under a key; of several the last one counts. -/
def lookup? (fields : List (String × Value)) (key : String) : Option Value :=
  (fields.reverse.find? (fun field => field.1 == key)).map (·.2)

/-- Whether a value counts as true where a yes or no is asked. -/
def isTruthy : Value → Bool
  | null => false
  | bool b => b
  | int n => n != 0
  | float x => !x.isZero
  | text s => !s.isEmpty
  | list items => !items.isEmpty
  | table fields => !fields.isEmpty
  | moment _ => true

mutual

/-- Whether all numbers in a value are small enough to be shown. -/
def isShowable : Value → Bool
  | int n => fitsDigits n
  | list items => areShowable items
  | table fields => haveShowable fields
  | _ => true

def areShowable : List Value → Bool
  | [] => true
  | v :: rest => isShowable v && areShowable rest

def haveShowable : List (String × Value) → Bool
  | [] => true
  | (_, v) :: rest => isShowable v && haveShowable rest

end

def isText : Value → Bool
  | text _ => true
  | _ => false

/-- A value as a word of a command line; only texts and what counts as false can be such. -/
def spelled : Value → String
  | text s => s
  | _ => ""

/-- A truth value taken as a number. -/
def ofBool (b : Bool) : Int := if b then 1 else 0

mutual

/-- Equality of values. Numbers are compared by what they denote, truth values count as numbers,
and the order of the keys of a table does not matter. -/
def same : Value → Value → Bool
  | null, null => true
  | bool a, bool b => a == b
  | bool a, int n => ofBool a == n
  | int n, bool a => ofBool a == n
  | bool a, float x => x.sameInt (ofBool a)
  | float x, bool a => x.sameInt (ofBool a)
  | int m, int n => m == n
  | int n, float x => x.sameInt n
  | float x, int n => x.sameInt n
  | float x, float y => x.same y
  | text s, text t => s == t
  | list xs, list ys => sameItems xs ys
  | table fs, table gs => fs.length == gs.length && sameFields fs gs
  | moment a, moment b => a == b
  | _, _ => false

def sameItems : List Value → List Value → Bool
  | [], [] => true
  | v :: rest, w :: others => same v w && sameItems rest others
  | _, _ => false

/-- Whether every field of the first table is in the second. -/
def sameFields : List (String × Value) → List (String × Value) → Bool
  | [], _ => true
  | (key, v) :: rest, others =>
    (match lookup? others key with
      | some w => same v w
      | none => false) && sameFields rest others

end

end Value

end Conductor
