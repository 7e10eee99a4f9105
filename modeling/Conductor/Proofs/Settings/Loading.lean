import Conductor.CommandLine.Execution
import Conductor.Proofs.Toml.Entry
import Conductor.Proofs.Toml.Numeral
import Conductor.Proofs.Workspace
import Conductor.Proofs.World

/-!
Settings files that cannot be used. Bytes become text, text a document, and a document settings;
whatever fails on the way is told of as a problem with the settings, with two exceptions: bytes that
are no text, and a number of too many digits. A command that meets either kind of failure leaves all
files as they are, but only the first kind is reported.
-/

namespace Conductor

namespace Settings

open Toml

variable {files : Workspace} {path : Path} {names : List String} {bytes : List UInt8}
  {fault : Fault} {text : String}

/-- The document that is read from a text, with all line ends alike. -/
def document (text : String) : String := String.ofList (Text.normalizeNewlines text.toList)

/-- What is wrong with a file that is given up without a word about settings: it is no text, or the
document has a number of too many digits, which then stands in the text. -/
inductive GivenUp (bytes : List UInt8) : Fault → Prop where
  | notUtf8 {defect : Utf8.Defect} (hbytes : ∀ text, bytes ≠ Utf8.encode text)
      (hdefect : Utf8.strict bytes = .error defect) : GivenUp bytes (.file (.notUtf8 defect))
  | numberTooLong {text : String} {digits : Nat} (hbytes : bytes = Utf8.encode text)
      (hparse : parse (document text) = .error (.numberTooLong digits))
      (hdigits : maxDigits < digits) (hnumeral : HasNumeral text.toList digits) :
      GivenUp bytes (.tooLarge (.toRead digits))

theorem GivenUp.name_ne (h : GivenUp bytes fault) : fault.name ≠ "ConfigError" := by
  cases h with
  | notUtf8 =>
      change "UnicodeDecodeError" ≠ "ConfigError"
      decide
  | numberTooLong =>
      change "ValueError" ≠ "ConfigError"
      decide

/-- The document of a text is the text with its line ends written otherwise. -/
theorem hasNumeral_of_document {digits : Nat} (h : HasNumeral (document text).toList digits) :
    HasNumeral text.toList digits := by
  rw [document, String.toList_ofList] at h
  exact (reflowed_normalizeNewlines _).hasNumeral h

theorem load_of_text (hfile : files.locate path = .found names (.file (Utf8.encode text))) :
    load files path = ((parse (document text)).mapError (parseFault path)).bind fun data =>
      (ofTable data).mapError .settings := by
  have hread := Workspace.readText_of_locate hfile
  rw [load, Workspace.contains_of_locate hfile]
  simp only [bind, Except.bind, Except.mapError, if_true, hread]
  rfl

theorem load_of_defect {defect : Utf8.Defect}
    (hfile : files.locate path = .found names (.file bytes))
    (hdefect : Utf8.strict bytes = .error defect) :
    load files path = .error (.file (.notUtf8 defect)) := by
  have hread : files.readText path = .error (.notUtf8 defect) := by
    unfold Workspace.readText
    simp only [hfile, hdefect]
  rw [load, Workspace.contains_of_locate hfile]
  simp only [bind, Except.bind, Except.mapError, if_true, hread]

/-- A file that is a text fails as settings do, or because of a number. -/
theorem load_text_eq_error (hfile : files.locate path = .found names (.file (Utf8.encode text)))
    (hload : load files path = .error fault) :
    (∃ problem, fault = .settings problem) ∨ GivenUp (Utf8.encode text) fault := by
  rw [load_of_text hfile] at hload
  cases hparse : parse (document text) with
  | ok data =>
      rw [hparse] at hload
      cases hdata : ofTable data with
      | ok settings =>
          simp only [Except.mapError, Except.bind, hdata] at hload
          cases hload
      | error problem =>
          simp only [Except.mapError, Except.bind, hdata] at hload
          cases hload
          exact Or.inl ⟨problem, rfl⟩
  | error problem =>
      rw [hparse] at hload
      cases problem with
      | malformed reason =>
          cases hload
          exact Or.inl ⟨_, rfl⟩
      | numberTooLong digits =>
          cases hload
          obtain ⟨hdigits, hnumeral⟩ := parse_eq_numberTooLong hparse
          exact Or.inr (.numberTooLong rfl hparse hdigits (hasNumeral_of_document hnumeral))

/-- Exactly what cannot be decoded is the bytes of no text. -/
theorem strict_eq_error_or (bytes : List UInt8) :
    (∃ text, bytes = Utf8.encode text) ∨
      (∀ text, bytes ≠ Utf8.encode text) ∧ ∃ defect, Utf8.strict bytes = .error defect := by
  cases hstrict : Utf8.strict bytes with
  | ok chars =>
      rw [← String.toList_ofList (l := chars), Utf8.strict_eq_ok_iff] at hstrict
      exact Or.inl ⟨_, hstrict⟩
  | error defect =>
      refine Or.inr ⟨?_, defect, rfl⟩
      rintro text rfl
      rw [Utf8.strict_encode] at hstrict
      cases hstrict

theorem load_eq_error (hfile : files.locate path = .found names (.file bytes))
    (hload : load files path = .error fault) :
    (∃ problem, fault = .settings problem) ∨ GivenUp bytes fault := by
  rcases strict_eq_error_or bytes with ⟨text, rfl⟩ | ⟨hbytes, defect, hdefect⟩
  · exact load_text_eq_error hfile hload
  · rw [load_of_defect hfile hdefect] at hload
    cases hload
    exact Or.inr (.notUtf8 hbytes hdefect)

theorem GivenUp.load (h : GivenUp bytes fault)
    (hfile : files.locate path = .found names (.file bytes)) :
    load files path = .error fault := by
  cases h with
  | notUtf8 _ hdefect => exact load_of_defect hfile hdefect
  | numberTooLong hbytes hparse =>
      subst hbytes
      rw [load_of_text hfile, hparse]
      rfl

/-- A file fails otherwise than settings do exactly if it is given up. -/
theorem load_givenUp_iff (hfile : files.locate path = .found names (.file bytes)) :
    Settings.load files path = .error fault ∧ fault.name ≠ "ConfigError" ↔ GivenUp bytes fault := by
  constructor
  · rintro ⟨hload, hname⟩
    rcases load_eq_error hfile hload with ⟨problem, rfl⟩ | hgiven
    · exact absurd rfl hname
    · exact hgiven
  · intro hgiven
    exact ⟨hgiven.load hfile, hgiven.name_ne⟩

end Settings

namespace CommandLine.Console

open Settings

variable {console : Console} {invocation : Invocation} {w : World} {path : Path} {fault : Fault}

/-- Every command ends where its settings cannot be loaded. -/
theorem invoke_of_load_error
    (hpath : (console.directory.join (.ofString invocation.settingsFile)).resolve? = some path)
    (hload : Settings.load w.files path = .error fault) :
    console.invoke invocation w = console.result w none (failWith fault w) := by
  rw [invoke, hpath]
  simp only
  split
  · rw [initialise, hload]
  · rw [Workbench.open?, hload]

/-- What was already there does not count. -/
theorem result_eq (console : Console) (w : World) (entries : Journal) (ending : Ending) :
    console.result w none ({ w with journal := entries ++ w.journal }, ending) =
      { ending
        stdout := entries.output console.clock none .stdout
        stderr := entries.output console.clock none .stderr
        world := { w with journal := entries ++ w.journal } } := by
  have hrecent : (entries ++ w.journal).take ((entries ++ w.journal).length - w.journal.length) =
      entries := by
    rw [List.length_append, Nat.add_sub_cancel, List.take_left]
  simp only [result, hrecent]

/-- An error message is all that can be seen of a command that complains. -/
theorem result_complain (console : Console) (message : String) (w : World) :
    console.result w none (complain message w) =
      { ending := .exit 1
        stdout := ""
        stderr := Text.plain ("Error: " ++ message ++ "\n")
        world := w.sayLine .stderr ("Error: " ++ message) } := by
  refine (result_eq console w [.echo .stderr _] (.exit 1)).trans ?_
  simp [Journal.output, Entry.output?, World.sayLine, World.say, World.enter]

theorem result_escaped (console : Console) (fault : Fault) (w : World) :
    console.result w none (w, .escaped fault) =
      { ending := .escaped fault, stdout := "", stderr := "", world := w } :=
  result_eq console w [] (.escaped fault)

/-- A settings file that is there fails otherwise than settings do exactly if it is no text, or if
reading it as a document comes to a number of too many digits. Whichever way it fails, a command
launches nothing, prints nothing and leaves all files as they are. It ends with an error message and
the exit code 1 if the settings are to blame, and otherwise the fault escapes. -/
theorem invoke_of_unloadable (console : Console) (invocation : Invocation) (w : World) {path : Path}
    {names : List String} {bytes : List UInt8}
    (hpath : (console.directory.join (.ofString invocation.settingsFile)).resolve? = some path)
    (hfile : w.files.locate path = .found names (.file bytes)) :
    (∀ fault, Settings.load w.files path = .error fault ∧ fault.name ≠ "ConfigError" ↔
      GivenUp bytes fault) ∧
    ∀ fault, Settings.load w.files path = .error fault →
      (console.invoke invocation w).world.files = w.files ∧
      (console.invoke invocation w).world.journal.launched = w.journal.launched ∧
      (console.invoke invocation w).stdout = "" ∧
      (fault.name = "ConfigError" →
        (console.invoke invocation w).ending = .exit 1 ∧
        (console.invoke invocation w).stderr =
          Text.plain ("Error: " ++ fault.message ++ "\n")) ∧
      (fault.name ≠ "ConfigError" →
        (console.invoke invocation w).ending = .escaped fault ∧
        (console.invoke invocation w).stderr = "") := by
  refine ⟨fun fault => load_givenUp_iff hfile, fun fault hload => ?_⟩
  rw [invoke_of_load_error hpath hload]
  rcases load_eq_error hfile hload with ⟨problem, rfl⟩ | hgiven
  · have hreport :
        failWith (.settings problem) w = complain (Fault.settings problem).message w := rfl
    have hlaunched (line : String) :
        (w.sayLine .stderr line).journal.launched = w.journal.launched := by
      simp [World.sayLine, World.say, World.enter, Journal.launched, Journal.seen_cons,
        Entry.spawn?]
    rw [hreport, result_complain]
    exact ⟨rfl, hlaunched _, rfl, fun _ => ⟨rfl, rfl⟩, fun hname => absurd rfl hname⟩
  · have hreport : failWith fault w = (w, .escaped fault) := by
      cases hgiven <;> rfl
    rw [hreport, result_escaped]
    exact ⟨rfl, rfl, rfl, fun hname => absurd hname hgiven.name_ne, fun _ => ⟨rfl, rfl⟩⟩

/-- A directory with one settings file in it. -/
def holding (bytes : List UInt8) : World where
  files := { nodes := [(["ws"], .directory), (["ws", "flowpilot.toml"], .file bytes)] }

theorem locate_holding (bytes : List UInt8) :
    (holding bytes).files.locate ⟨1, ["ws", "flowpilot.toml"]⟩ =
      .found ["ws", "flowpilot.toml"] (.file bytes) := by
  have hnul : Path.holdsNul ⟨1, ["ws", "flowpilot.toml"]⟩ = false := by decide +kernel
  have hpath : ¬ Workspace.maxPathBytes <
      (Path.toString ⟨1, ["ws", "flowpilot.toml"]⟩).utf8ByteSize := by
    decide +kernel
  rw [Workspace.locate, hnul, if_neg hpath]
  rfl

/-- The settings name the least number that has too many digits. -/
def countless : String := Toml.entry "k" (.int (Nat.pow 10 maxDigits : Nat))

theorem givenUp_countless :
    ∃ digits, GivenUp (Utf8.encode countless) (.tooLarge (.toRead digits)) := by
  have hbare : Toml.IsBare "k" := by decide
  have hfits : fitsDigits (Nat.pow 10 maxDigits : Nat) = false := by
    rw [fitsDigits, Int.natAbs_natCast]
    exact decide_eq_false (Nat.lt_irrefl _)
  have hends : '\r' ∉ countless.toList := Toml.return_not_mem_entry hbare _
  have hparse := Toml.parse_entry_of_unfit hbare hfits
  rw [← countless, ← String.ofList_toList (s := countless), ← Text.normalizeNewlines_eq_self hends,
    ← document] at hparse
  obtain ⟨hdigits, hnumeral⟩ := Toml.parse_eq_numberTooLong hparse
  exact ⟨_, .numberTooLong rfl hparse hdigits (hasNumeral_of_document hnumeral)⟩

theorem invoke_of_unloadable_holding :
    let console : Console := { directory := ⟨1, ["ws"]⟩, clock := "TIME" }
    let start : Invocation :=
      { logLevel := none, settingsFile := "flowpilot.toml", command := .init (some "flow") }
    let check : Invocation := { start with command := .work .checkInstalled }
    (console.invoke start (holding (Utf8.encode "tool = 1"))).stderr =
      "Error: [tool] must be a table, got int\n" ∧
    (console.invoke start (holding [0xff])).ending =
      .escaped (.file (.notUtf8 ⟨0xff, 0, 1, "invalid start byte"⟩)) ∧
    ∃ fault, fault.name = "ValueError" ∧
      (console.invoke check (holding (Utf8.encode countless))).ending = .escaped fault := by
  intro console start check
  have hpath (invocation : Invocation) (hfile : invocation.settingsFile = "flowpilot.toml") :
      (console.directory.join (.ofString invocation.settingsFile)).resolve? =
        some ⟨1, ["ws", "flowpilot.toml"]⟩ := by
    rw [hfile]
    decide +kernel
  refine ⟨?_, ?_, ?_⟩
  · have hparse : Toml.parse (document "tool = 1") = .ok [("tool", .int 1)] := by decide +kernel
    have hload : Settings.load (holding (Utf8.encode "tool = 1")).files
        ⟨1, ["ws", "flowpilot.toml"]⟩ = .error (.settings (.notTable "tool" "int")) := by
      rw [load_of_text (locate_holding _), hparse]
      rfl
    obtain ⟨-, -, -, hreport, -⟩ := (invoke_of_unloadable console start _ (hpath start rfl)
      (locate_holding _)).2 _ hload
    rw [(hreport rfl).2]
    decide +kernel
  · have hdefect : Utf8.strict [0xff] = .error ⟨0xff, 0, 1, "invalid start byte"⟩ := by
      decide +kernel
    obtain ⟨-, -, -, -, hescape⟩ := (invoke_of_unloadable console start _ (hpath start rfl)
      (locate_holding [0xff])).2 _ (load_of_defect (locate_holding _) hdefect)
    exact (hescape (by decide)).1
  · obtain ⟨digits, hgiven⟩ := givenUp_countless
    obtain ⟨-, -, -, -, hescape⟩ := (invoke_of_unloadable console check _ (hpath check rfl)
      (locate_holding _)).2 _ (hgiven.load (locate_holding _))
    exact ⟨_, rfl, (hescape hgiven.name_ne).1⟩

end CommandLine.Console

end Conductor
