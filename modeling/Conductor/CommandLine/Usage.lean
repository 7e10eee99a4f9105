import Conductor.CommandLine.Form
import Conductor.Text.Quoted

/-!
What is said when words do not fill a form: how the command is used, and what is wrong.
-/

namespace Conductor.CommandLine

namespace Form

/-- How wide a line of usage may be. -/
def usageWidth : Nat := 80

def usageParts (form : Form) : List String :=
  "[OPTIONS]" :: (if form.isMenu then ["COMMAND", "[ARGS]..."] else form.slots.map (·.label))

/-- Cuts a text into pieces of `width` characters, after a first piece of `room` characters. -/
def cut (room width : Nat) (s : List Char) : List (List Char) :=
  if s.length ≤ room ∨ room = 0 then [s] else s.take room :: cut width width (s.drop room)
termination_by s.length
decreasing_by
  simp only [List.length_drop]
  omega

/-- Adds a word to lines of at most `width` characters, of which the last one stands first. A word
that is too long for any line is cut, and starts where the line before it ends. -/
def addWord (width : Nat) (lines : List (List Char)) (word : List Char) : List (List Char) :=
  match lines with
  | [] => (cut width width word).reverse
  | line :: done =>
    if line.length + 1 + word.length ≤ width then (line ++ ' ' :: word) :: done
    else if word.length ≤ width then word :: line :: done
    else
      match cut (width - line.length - 1) width word with
      | [] => line :: done
      | first :: rest => rest.reverse ++ (line ++ ' ' :: first) :: done

def wrap (width : Nat) (words : List String) : List String :=
  ((words.map (·.toList)).foldl (addWord width) []).reverse.map String.ofList

/-- How the command is used; further lines are indented to stand below the first one. -/
def usage (form : Form) : String :=
  let lead := "Usage: " ++ form.path ++ " "
  let indent := String.ofList ('\n' :: List.replicate lead.length ' ')
  lead ++ String.intercalate indent (wrap (usageWidth - lead.length) form.usageParts)

end Form

namespace Problem

def shownChoices (among : List String) : String :=
  String.intercalate ", " (among.map Text.shown)

/-- The options that someone may have meant. -/
def suggestion : List String → String
  | [] => ""
  | [name] => " Did you mean " ++ name ++ "?"
  | names =>
    " (Possible options: " ++ String.intercalate ", " (names.mergeSort fun s t => decide (s ≤ t)) ++
      ")"

def message : Problem → String
  | help => ""
  | missingCommand => "Missing command."
  | noSuchCommand name => "No such command " ++ Text.shown name ++ "."
  | noSuchOption name close => "No such option: " ++ name ++ suggestion close
  | needsValue option => "Option " ++ Text.shown option ++ " requires an argument."
  | takesNoValue option => "Option " ++ Text.shown option ++ " does not take a value."
  | missing slot =>
    "Missing argument '" ++ slot.label ++ "'." ++
      match slot.intake with
      | .choice among => " Choose from:\n\t" ++ String.intercalate ",\n\t" among
      | _ => ""
  | notAmong label value among =>
    "Invalid value for '" ++ label ++ "': " ++ Text.shown value ++ " is not one of " ++
      shownChoices among ++ "."
  | notNumber label value =>
    "Invalid value for '" ++ label ++ "': " ++ Text.shown value ++ " is not a valid float."
  | unexpected words =>
    "Got unexpected extra argument" ++ (if words.length = 1 then "" else "s") ++ " (" ++
      String.intercalate " " words ++ ")"

/-- Whether the complaint comes with a reminder of how the command is used. -/
def remindsOfUsage : Problem → Bool
  | needsValue _ => false
  | takesNoValue _ => false
  | _ => true

end Problem

/-- A command line that was refused, by the form it does not fill. -/
structure Refusal where
  form : Form
  problem : Problem

namespace Refusal

/-- All that is printed about a refused command line. -/
def text (refusal : Refusal) : String :=
  let form := refusal.form
  let error := "Error: " ++ refusal.problem.message ++ "\n"
  if refusal.problem = .help then form.usage ++ "\n"
  else if refusal.problem.remindsOfUsage then
    form.usage ++ "\nTry '" ++ form.path ++ " --help' for help.\n\n" ++ error
  else error

def exitCode (refusal : Refusal) : Nat := if refusal.problem = .help then 0 else 2

end Refusal

end Conductor.CommandLine
