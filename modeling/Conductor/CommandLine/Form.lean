import Conductor.Number.Decimal
import Conductor.Text.Similar

/-!
The words of a command line against the form they have to fill. A form has options and slots.
Options may stand anywhere before a lone double dash, each with its value after it or after an
equals sign; all other words go into the slots in order.
-/

namespace Conductor.CommandLine

/-- What may be given as a value. -/
inductive Intake where
  | text
  | choice (among : List String)
  | number
  deriving DecidableEq, Repr

structure OptionForm where
  name : String
  /-- A flag takes no value. -/
  intake : Option Intake := some .text
  deriving DecidableEq, Repr

structure Slot where
  name : String
  intake : Intake := .text
  deriving DecidableEq, Repr

/-- How a slot is called: by the choices it leaves, or else by its name. -/
def Slot.label (slot : Slot) : String :=
  match slot.intake with
  | .choice among => "\x7b" ++ String.intercalate "|" among ++ "\x7d"
  | _ => slot.name

structure Form where
  /-- The words that lead to the command. -/
  path : String
  options : List OptionForm
  slots : List Slot := []
  /-- A menu is followed by the name of a command and that command's own words. -/
  isMenu : Bool := false
  deriving DecidableEq, Repr

/-- Why words do not fill a form. -/
inductive Problem where
  | help
  | missingCommand
  | noSuchCommand (name : String)
  | noSuchOption (name : String) (close : List String)
  | needsValue (option : String)
  | takesNoValue (option : String)
  | missing (slot : Slot)
  | notAmong (label value : String) (among : List String)
  | notNumber (label value : String)
  | unexpected (words : List String)
  deriving DecidableEq, Repr

/-- The words of a command line, sorted. -/
structure Sorted where
  /-- The options that are given, in order, with their values; a flag has an empty one. -/
  options : List (String × String) := []
  words : List String := []
  deriving DecidableEq, Repr

namespace Sorted

def withOption (name value : String) (sorted : Sorted) : Sorted :=
  { sorted with options := (name, value) :: sorted.options }

def withWord (word : String) (sorted : Sorted) : Sorted :=
  { sorted with words := word :: sorted.words }

/-- The value of an option; of several the last one counts. -/
def option? (sorted : Sorted) (name : String) : Option String :=
  (sorted.options.reverse.find? (fun given => given.1 == name)).map (·.2)

def has (sorted : Sorted) (name : String) : Bool := (sorted.option? name).isSome

end Sorted

/-- What a word is to a form. -/
inductive Reading where
  /-- The double dash after which no options come. -/
  | terminator
  | plain
  /-- An option with all it needs. -/
  | given (option value : String)
  /-- An option whose value is the next word. -/
  | awaits (option : String)
  | refused (problem : Problem)
  deriving DecidableEq, Repr

namespace Form

def helpOption : OptionForm := { name := "--help", intake := none }

/-- The options of a form; every form has one that asks for help. -/
def allOptions (form : Form) : List OptionForm := form.options ++ [helpOption]

/-- An option's name and what stands after its first equals sign. -/
def splitValue (word : List Char) : String × Option String :=
  let rest := word.dropWhile (· != '=')
  (String.ofList (word.takeWhile (· != '=')),
    if rest.isEmpty then none else some (String.ofList rest.tail))

/-- The option that a word asks for but the form does not have. A single dash is followed by options
of one letter, of which there are none. -/
def unknown (form : Form) (word : List Char) (name : String) : Problem :=
  match word with
  | '-' :: '-' :: _ => .noSuchOption name (Text.closeTo name (form.allOptions.map (·.name)))
  | _ => .noSuchOption (String.ofList (word.take 2)) []

/-- What a word is, where it is not the value of an option. -/
def read (form : Form) (word : String) : Reading :=
  let cs := word.toList
  if word = "--" then .terminator
  else if cs.head? != some '-' || cs.length ≤ 1 then .plain
  else
    let (name, value?) := splitValue cs
    match form.allOptions.find? (fun option => option.name == name), value? with
    | none, _ => .refused (form.unknown cs name)
    | some { intake := none, .. }, none => .given name ""
    | some { intake := none, .. }, some _ => .refused (.takesNoValue name)
    | some { intake := some _, .. }, some value => .given name value
    | some { intake := some _, .. }, none => .awaits name

/-- Sorts words into options and the rest, where an option may already wait for its value. In a
menu the first word that is no option ends them. -/
def sort (form : Form) : Option String → List String → Except Problem Sorted
  | none, [] => .ok {}
  | some option, [] => .error (.needsValue option)
  | some option, value :: rest => (sort form none rest).map (·.withOption option value)
  | none, word :: rest =>
    match form.read word with
    | .terminator => .ok { words := rest }
    | .plain =>
      if form.isMenu then .ok { words := word :: rest }
      else (sort form none rest).map (·.withWord word)
    | .given option value => (sort form none rest).map (·.withOption option value)
    | .awaits option => sort form (some option) rest
    | .refused problem => .error problem

end Form

/-- Whether a value can be taken in, under the name that a complaint uses. -/
def Intake.check (label value : String) : Intake → Except Problem Unit
  | text => .ok ()
  | choice among => if among.contains value then .ok () else .error (.notAmong label value among)
  | number => if (Binary64.ofText? value).isSome then .ok () else .error (.notNumber label value)

/-- The names of the given options, each where it is given first. -/
def givenNames (options : List (String × String)) : List String :=
  options.foldl (fun names given => if names.contains given.1 then names else names ++ [given.1]) []

namespace Form

/-- Checks the value of an option that is given. -/
def checkOption (form : Form) (sorted : Sorted) (name : String) : Except Problem Unit :=
  match form.options.find? (fun option => option.name == name), sorted.option? name with
  | some { intake := some intake, .. }, some value => intake.check name value
  | _, _ => .ok ()

/-- Puts words into slots; the words that are left over are not wanted. -/
def checkSlots : List Slot → List String → Except Problem Unit
  | [], [] => .ok ()
  | [], words => .error (.unexpected words)
  | slot :: _, [] => .error (.missing slot)
  | slot :: slots, word :: words => do
    slot.intake.check slot.label word
    checkSlots slots words

/-- Fills the form with the words of a command line. A call for help comes before any complaint
about a value, the options come before the slots. -/
def fill (form : Form) (words : List String) : Except Problem Sorted := do
  let sorted ← form.sort none words
  if sorted.has helpOption.name then .error .help
  else
    (givenNames sorted.options).forM (form.checkOption sorted)
    if form.isMenu then return sorted
    checkSlots form.slots sorted.words
    return sorted

end Form

end Conductor.CommandLine
