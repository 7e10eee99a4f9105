import Conductor.CommandLine.Usage
import Conductor.Request

/-!
The commands that a command line can give, and the menus in which they stand.
-/

namespace Conductor.CommandLine

/-- What can be done once the settings are loaded. -/
inductive Job where
  /-- Tells whether the planning tool is installed. -/
  | checkInstalled
  /-- Asks the planning tool and prints its answer. -/
  | ask (request : Request)
  /-- Runs the workflow of a plan. -/
  | run (planRef : String) (agent : Option String) (agentExecutes : Bool)
  /-- Sees to it that there is a session with the coding agent. -/
  | login (timeout : Option Binary64)
  deriving DecidableEq

inductive Command where
  /-- Writes a settings file, with another tool in it if one is named. -/
  | init (binary : Option String)
  | work (job : Job)
  deriving DecidableEq

/-- Asks the planning tool. -/
def Command.ask (request : Request) : Command := .work (.ask request)

/-- A command together with what holds for every command. -/
structure Invocation where
  logLevel : Option String
  settingsFile : String
  command : Command
  deriving DecidableEq

/-- A command of a menu: what it takes, and what it is once that is given. -/
structure Item where
  name : String
  options : List OptionForm := []
  slots : List Slot := []
  command : Sorted → Command

namespace Item

def settingsOption : OptionForm := { name := "--config" }

def defaultSettingsFile : String := "flowpilot.toml"

/-- The form of a command in the menu at `path`; every command can be told where the settings are.
-/
def form (path : String) (item : Item) : Form :=
  { path := path ++ " " ++ item.name
    options := item.options ++ [settingsOption]
    slots := item.slots }

end Item

namespace Sorted

/-- The word in a slot; a form that is filled has one for each of its slots. -/
def slot (sorted : Sorted) (number : Nat) : String := sorted.words.getD number ""

end Sorted

/-- What the main menu leads to. -/
inductive MenuEntry where
  | item (item : Item)
  | menu (name : String) (items : List Item)

def MenuEntry.name : MenuEntry → String
  | item i => i.name
  | menu name _ => name

def planActions : List String := ["plan", "verify"]

def mapFormats : List String := ["markdown", "json", "summary"]

def taskItems : List Item :=
  [{ name := "list", slots := [{ name := "PLAN_REF" }]
     command := fun s => .ask (.tasksList (s.slot 0)) },
   { name := "next", slots := [{ name := "PLAN_REF" }]
     command := fun s => .ask (.tasksNext (s.slot 0)) },
   { name := "start", slots := [{ name := "PLAN_REF" }, { name := "TASK_ID" }]
     command := fun s => .ask (.tasksStart (s.slot 0) (s.slot 1)) },
   { name := "complete", slots := [{ name := "PLAN_REF" }, { name := "TASK_ID" }]
     command := fun s => .ask (.tasksComplete (s.slot 0) (s.slot 1)) }]

def workflowItems : List Item :=
  [{ name := "status", command := fun _ => .ask .workflowStatus },
   { name := "start", slots := [{ name := "NAME" }]
     command := fun s => .ask (.workflowStart (s.slot 0)) },
   { name := "next", command := fun _ => .ask .workflowNext },
   { name := "transition", options := [{ name := "--reason" }]
     slots := [{ name := "PHASE", intake := .choice Reply.workflowPhases }]
     command := fun s => .ask (.workflowTransition (s.slot 0) (s.option? "--reason")) }]

/-- A report is asked for, or the prompt with which someone else can write it. -/
def verifyCommand (s : Sorted) : Command :=
  .ask (if s.has "--prompt" then .verifyPrompt (s.slot 0) (s.option? "--spec")
    else .verify (s.slot 0))

def entries : List MenuEntry :=
  [.item { name := "init", options := [{ name := "--binary" }]
           command := fun s => .init (s.option? "--binary") },
   .item { name := "installed", command := fun _ => .work .checkInstalled },
   .item { name := "plan", slots := [{ name := "TITLE" }]
           command := fun s => .ask (.plan (s.slot 0)) },
   .item { name := "verify", slots := [{ name := "PLAN_FILE" }]
           options := [{ name := "--prompt", intake := none }, { name := "--spec" }]
           command := verifyCommand },
   .item { name := "prompt"
           slots := [{ name := "ACTION", intake := .choice planActions }, { name := "FILE" }]
           command := fun s => .ask (.prompt (s.slot 0) (s.slot 1)) },
   .item { name := "spec", slots := [{ name := "DESCRIPTION" }], options := [{ name := "--title" }]
           command := fun s => .ask (.spec (s.slot 0) (s.option? "--title")) },
   .item { name := "map"
           options := [{ name := "--format", intake := some (.choice mapFormats) }]
           command := fun s => .ask (.map ((s.option? "--format").getD "summary")) },
   .item { name := "decompose", slots := [{ name := "PLAN_FILE" }]
           command := fun s => .ask (.decompose (s.slot 0)) },
   .menu "tasks" taskItems,
   .item { name := "exec", slots := [{ name := "TASK_SPEC" }, { name := "PLAN_REF" }]
           options := [{ name := "--agent" }]
           command := fun s =>
             .ask (.exec (s.slot 0) (s.slot 1) (.text ((s.option? "--agent").getD "prompt"))) },
   .menu "workflow" workflowItems,
   .item { name := "agents", command := fun _ => .ask .agents },
   .item { name := "run", slots := [{ name := "PLAN_REF" }]
           options := [{ name := "--agent" }, { name := "--exec-agent", intake := none }]
           command := fun s =>
             .work (.run (s.slot 0) (s.option? "--agent") (s.has "--exec-agent")) },
   .item { name := "login", options := [{ name := "--timeout", intake := some .number }]
           command := fun s => .work (.login ((s.option? "--timeout").bind Binary64.ofText?)) }]

/-- The name of the program. -/
def programName : String := "cli"

def mainForm : Form :=
  { path := programName, options := [{ name := "--log-level" }], isMenu := true }

def menuForm (name : String) : Form :=
  { path := programName ++ " " ++ name, options := [], isMenu := true }

def refuse {α : Type} (form : Form) : Except Problem α → Except Refusal α
  | .ok a => .ok a
  | .error problem => .error { form, problem }

/-- The choice that the words after a menu's options make. A name that looks like an option but is
not in the menu is first read as one. -/
def choose {α : Type} (form : Form) (nameOf : α → String) (choices : List α) :
    List String → Except Problem (α × List String)
  | [] => .error .missingCommand
  | name :: rest =>
    match choices.find? (fun choice => nameOf choice == name) with
    | some choice => .ok (choice, rest)
    | none => do
      let _ ← form.fill (name :: rest)
      .error (.noSuchCommand name)

/-- What an item makes of the words after its name: the command, and where the settings are. -/
def Item.invoke (path : String) (logLevel : Option String) (item : Item) (words : List String) :
    Except Refusal Invocation := do
  let form := item.form path
  let sorted ← refuse form (form.fill words)
  return {
    logLevel
    settingsFile := (sorted.option? settingsOption.name).getD defaultSettingsFile
    command := item.command sorted }

/-- Reads a command line. -/
def Invocation.ofWords (words : List String) : Except Refusal Invocation := do
  let sorted ← refuse mainForm (mainForm.fill words)
  let logLevel := sorted.option? "--log-level"
  let (entry, rest) ← refuse mainForm (choose mainForm MenuEntry.name entries sorted.words)
  match entry with
  | .item item => item.invoke programName logLevel rest
  | .menu name items =>
    let form := menuForm name
    let sorted ← refuse form (form.fill rest)
    let (item, rest) ← refuse form (choose form Item.name items sorted.words)
    item.invoke form.path logLevel rest

end Conductor.CommandLine
