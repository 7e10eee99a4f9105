import Conductor.CommandLine.Execution
import Conductor.Proofs.Toml.Document
import Conductor.Proofs.Workspace

/-!
Settings that are saved and loaded again. Every value comes back as it was, except that a number
comes back as the nearest one to its three decimals; so the settings that come back exactly are
those whose numbers are decimals of three places. Saving what was loaded changes no more than that.
-/

namespace Conductor

/-! ### The lines of a file -/

namespace Toml

theorem toList_intercalate_feed (lines : List String) :
    (String.intercalate "\n" (lines ++ [""])).toList = lines.flatMap (·.toList ++ ['\n']) := by
  induction lines with
  | nil => rfl
  | cons line lines ih =>
      have hcons : String.intercalate "\n" (line :: (lines ++ [""])) =
          line ++ "\n" ++ String.intercalate "\n" (lines ++ [""]) := by
        cases lines <;> exact String.intercalate_cons_cons
      rw [List.cons_append, hcons, String.toList_append, String.toList_append, ih]
      simp

theorem flatMap_sectionLines (s : String × Table) :
    (Settings.sectionLines s.1 s.2).flatMap (·.toList ++ ['\n']) = sectionText s := by
  simp [Settings.sectionLines, sectionText, fieldsText, fieldText, headerText, List.flatMap_map]

theorem flatMap_trailing (s : String × Table) (more : List (String × Table)) :
    ((s :: more).flatMap fun t => Settings.sectionLines t.1 t.2 ++ [""]) =
      (Settings.sectionLines s.1 s.2 ++
        more.flatMap fun t => "" :: Settings.sectionLines t.1 t.2) ++ [""] := by
  induction more generalizing s with
  | nil => simp
  | cons next more ih =>
      rw [List.flatMap_cons, ih]
      simp

end Toml

namespace Settings

/-- Settings in which every value has the type that is meant for it. -/
structure Typed where
  toolBinary : String
  workingDirectory : String
  plansDir : String
  defaultAgent : String
  stepDelaySeconds : Binary64
  agentExec : Bool
  sessionBinary : String
  statusArgs : List String
  loginArgs : List String
  timeoutSeconds : Binary64
  authenticatedPattern : String
  unauthenticatedPattern : String
  manualHint : String
  level : String
  deriving DecidableEq

namespace Typed

def settings (t : Typed) : Settings where
  tool := { binary := .text t.toolBinary, workingDirectory := .text t.workingDirectory }
  pipeline :=
    { plansDir := .text t.plansDir
      defaultAgent := .text t.defaultAgent
      stepDelaySeconds := .float t.stepDelaySeconds
      agentExec := .bool t.agentExec }
  session :=
    { binary := .text t.sessionBinary
      statusArgs := .list (t.statusArgs.map .text)
      loginArgs := .list (t.loginArgs.map .text)
      timeoutSeconds := .float t.timeoutSeconds
      authenticatedPattern := .text t.authenticatedPattern
      unauthenticatedPattern := .text t.unauthenticatedPattern
      manualHint := .text t.manualHint }
  logging := { level := .text t.level }

/-- All texts among the values. -/
def texts (t : Typed) : List String :=
  [t.toolBinary, t.workingDirectory, t.plansDir, t.defaultAgent, t.sessionBinary,
    t.authenticatedPattern, t.unauthenticatedPattern, t.manualHint, t.level] ++
    t.statusArgs ++ t.loginArgs

/-- All numbers among the values. -/
def numbers (t : Typed) : List Binary64 := [t.stepDelaySeconds, t.timeoutSeconds]

/-- The settings with every number read back from three decimals. -/
def rounded (t : Typed) : Typed :=
  { t with
    stepDelaySeconds := t.stepDelaySeconds.thousandths
    timeoutSeconds := t.timeoutSeconds.thousandths }

theorem texts_rounded (t : Typed) : t.rounded.texts = t.texts := rfl

theorem rounded_eq_self (t : Typed) :
    t.rounded = t ↔ t.stepDelaySeconds.thousandths = t.stepDelaySeconds ∧
      t.timeoutSeconds.thousandths = t.timeoutSeconds := by
  constructor
  · intro hself
    exact ⟨congrArg stepDelaySeconds hself, congrArg timeoutSeconds hself⟩
  · rintro ⟨hdelay, htimeout⟩
    rw [rounded, hdelay, htimeout]

/-- Settings that can be written and read again: all texts are without the one character that is
refused, and all numbers are finite. -/
structure IsPlain (t : Typed) : Prop where
  texts : ∀ s ∈ t.texts, Toml.delete ∉ s.toList
  numbers : ∀ x ∈ t.numbers, x.IsFinite

variable {t : Typed} {files : Workspace} {path : Path} {names : List String}

def sections (t : Typed) : List (String × Toml.Table) :=
  [("tool", t.settings.tool.fields), ("pipeline", t.settings.pipeline.fields),
    ("session", t.settings.session.fields), ("logging", t.settings.logging.fields)]

theorem tables_settings (t : Typed) : t.settings.tables = .ok t.sections := rfl

theorem ofTable_sections (t : Typed) :
    Settings.ofTable (t.sections.map fun s => (s.1, .table s.2)) = .ok t.settings := by
  rfl

theorem reread_texts (texts : List String) :
    Value.rereadItems (texts.map .text) = texts.map .text := by
  induction texts with
  | nil => rfl
  | cons s texts ih => simp [Value.rereadItems, Value.reread, ih]

theorem reread_sections (t : Typed) :
    (t.sections.map fun s => (s.1, Toml.rereadFields s.2)) = t.rounded.sections := by
  simp [sections, Toml.rereadFields, settings, ToolSettings.fields, PipelineSettings.fields,
    SessionSettings.fields, LoggingSettings.fields, Value.reread, reread_texts, rounded]

theorem arePlain_texts {texts : List String} (htexts : ∀ s ∈ texts, Toml.delete ∉ s.toList) :
    Value.ArePlain (texts.map .text) := by
  induction texts with
  | nil => trivial
  | cons s texts ih =>
      obtain ⟨hs, hmore⟩ := List.forall_mem_cons.mp htexts
      exact ⟨hs, ih hmore⟩

theorem isWritable_sections (ht : t.IsPlain) : ∀ s ∈ t.sections, Toml.IsWritable s := by
  have hnames : ∀ s ∈ t.sections, Toml.IsBare s.1 ∧ (s.2.map (·.1)).Nodup ∧
      ∀ field ∈ s.2, Toml.IsBare field.1 := by
    simp only [sections, List.forall_mem_cons, ToolSettings.fields, PipelineSettings.fields,
      SessionSettings.fields, LoggingSettings.fields, List.map_cons, List.map_nil]
    refine ⟨by decide, by decide, by decide, by decide, ?_⟩
    simp
  have hplain : ∀ s ∈ t.sections, ∀ field ∈ s.2, field.2.IsPlain := by
    obtain ⟨htexts, hnumbers⟩ := ht
    simp only [texts, List.forall_mem_append, List.forall_mem_cons] at htexts
    obtain ⟨⟨hfixed, hstatus⟩, hlogin⟩ := htexts
    simp only [numbers, List.forall_mem_cons] at hnumbers
    simp only [sections, settings, ToolSettings.fields, PipelineSettings.fields,
      SessionSettings.fields, LoggingSettings.fields, List.forall_mem_cons, Value.IsPlain, hfixed,
      hnumbers, arePlain_texts hstatus, arePlain_texts hlogin]
    simp
  intro s hs
  obtain ⟨hname, hkeys, hbare⟩ := hnames s hs
  exact ⟨hname, hkeys, fun field hfield => ⟨hbare field hfield, hplain s hs field hfield⟩⟩

/-! ### The text of a file -/

theorem areShowable_texts (texts : List String) :
    Value.areShowable (texts.map .text) = true := by
  induction texts with
  | nil => rfl
  | cons s texts ih => simpa [Value.areShowable, Value.isShowable] using ih

/-- The last line ends with the quotation mark of its text. -/
theorem sectionText_logging (t : Typed) :
    ∃ front, Toml.sectionText ("logging", t.settings.logging.fields) = front ++ ['"', '\n'] := by
  refine ⟨Toml.headerText "logging" ++ '\n' :: ("level".toList ++
    ' ' :: '=' :: ' ' :: '"' :: t.level.toList.flatMap Text.literalChar), ?_⟩
  simp [Toml.sectionText, Toml.fieldsText, Toml.fieldText, LoggingSettings.fields, settings,
    Toml.toList_toml_text, Text.literalChars]

/-- The only blank at the ends of the text is the end of its last line. -/
theorem strip_documentText (t : Typed) :
    Text.strip (Toml.documentText t.sections) ++ ['\n'] = Toml.documentText t.sections := by
  obtain ⟨last, hlast⟩ := t.sectionText_logging
  obtain ⟨front, hfront⟩ : ∃ front, Toml.documentText t.sections =
      ('[' :: (front ++ ['"'])) ++ ['\n'] := by
    have hfirst : Toml.sectionText ("tool", t.settings.tool.fields) =
        '[' :: ("tool".toList ++ ']' :: '\n' :: Toml.fieldsText t.settings.tool.fields) := by
      simp [Toml.sectionText, Toml.headerText]
    refine ⟨"tool".toList ++ ']' :: '\n' :: (Toml.fieldsText t.settings.tool.fields ++
      '\n' :: (Toml.sectionText ("pipeline", t.settings.pipeline.fields) ++
        '\n' :: (Toml.sectionText ("session", t.settings.session.fields) ++ '\n' :: last))), ?_⟩
    simp [Toml.documentText, sections, Toml.spacedText, hfirst, hlast]
  have hclosed : Text.strip ('[' :: (front ++ ['"'])) = '[' :: (front ++ ['"']) := by
    refine Text.strip_eq_self_iff.mpr ⟨?_, ?_⟩
    · rintro c ⟨⟩
      decide
    · intro c hc
      rw [← List.cons_append, List.getLast?_append] at hc
      cases hc
      decide
  rw [hfront, Text.strip_append_blank hclosed (List.cons_ne_nil _ _) (by decide)]

theorem toml_settings (t : Typed) :
    t.settings.toml = .ok (String.ofList (Toml.documentText t.sections)) := by
  have hshowable : (t.sections.all fun s => Value.haveShowable s.2) = true := by
    simp [sections, settings, ToolSettings.fields, PipelineSettings.fields, SessionSettings.fields,
      LoggingSettings.fields, Value.haveShowable, Value.isShowable, areShowable_texts]
  have hlines : (String.intercalate "\n" (t.sections.flatMap fun s =>
      sectionLines s.1 s.2 ++ [""])).toList = Toml.documentText t.sections := by
    rw [sections, Toml.flatMap_trailing, Toml.toList_intercalate_feed, List.flatMap_append,
      Toml.flatMap_sectionLines, Toml.documentText, Toml.spacedText, List.flatMap_assoc]
    simp [Toml.flatMap_sectionLines]
  have htrim : Text.trim (String.intercalate "\n" (t.sections.flatMap fun s =>
      sectionLines s.1 s.2 ++ [""])) ++ "\n" = String.ofList (Toml.documentText t.sections) := by
    rw [← strip_documentText, String.ofList_append, ← hlines]
    rfl
  rw [Settings.toml, tables_settings]
  simp only [bind, Except.bind, hshowable, if_true, htrim]
  rfl

/-! ### Saving and loading -/

/-- The content of the file to which settings are saved. -/
def bytes (t : Typed) : List UInt8 := Utf8.encode (String.ofList (Toml.documentText t.sections))

theorem save_eq (t : Typed) (hpath : files.IsWritable path) :
    ∃ names saved, t.settings.save files path = .ok saved ∧
      saved.locate path = .found names (.file t.bytes) := by
  obtain ⟨names, saved, hwrite, hfound⟩ := hpath.write t.bytes
  refine ⟨names, saved, ?_, hfound⟩
  rw [bytes] at hwrite
  rw [Settings.save, toml_settings]
  simp only [bind, Except.bind, hwrite, Except.mapError]

theorem readText_bytes (hfound : files.locate path = .found names (.file t.bytes)) :
    files.readText path =
      .ok (String.ofList (Text.normalizeNewlines (Toml.documentText t.sections))) := by
  have hread := Workspace.readText_of_locate hfound
  rwa [String.toList_ofList] at hread

theorem load_of_locate (ht : t.IsPlain)
    (hfound : files.locate path = .found names (.file t.bytes)) :
    Settings.load files path = .ok t.rounded.settings := by
  -- From the bytes back through text, document and tables, each with its own inverse.
  have hwritable := isWritable_sections ht
  have hnames : (t.sections.map (·.1)).Nodup := by
    change ["tool", "pipeline", "session", "logging"].Nodup
    decide
  have hread := readText_bytes hfound
  rw [Text.normalizeNewlines_eq_self (Toml.return_not_mem_document hwritable)] at hread
  have hparse := Toml.parse_documentText hwritable hnames
  have htables : (t.sections.map fun s => (s.1, Value.table (Toml.rereadFields s.2))) =
      t.rounded.sections.map fun s => (s.1, .table s.2) := by
    rw [← reread_sections, List.map_map]
    rfl
  rw [htables] at hparse
  rw [Settings.load, Workspace.contains_of_locate hfound]
  simp only [bind, Except.bind, Except.mapError, if_true, hread, hparse, ofTable_sections]

theorem load_save (ht : t.IsPlain) (hpath : files.IsWritable path) :
    ∃ saved, t.settings.save files path = .ok saved ∧ saved.contains path = .ok true ∧
      Settings.load saved path = .ok t.rounded.settings := by
  obtain ⟨names, saved, hsave, hfound⟩ := t.save_eq hpath
  exact ⟨saved, hsave, Workspace.contains_of_locate hfound, load_of_locate ht hfound⟩

/-- A saved file that is no document is not loaded. -/
theorem load_of_refused (hfound : files.locate path = .found names (.file t.bytes))
    (hrefused : (Toml.parse (String.ofList
      (Text.normalizeNewlines (Toml.documentText t.sections)))).isOk = false) :
    ∃ fault, Settings.load files path = .error fault := by
  have hread := readText_bytes hfound
  cases hparse : Toml.parse (String.ofList
      (Text.normalizeNewlines (Toml.documentText t.sections))) with
  | ok table =>
      rw [hparse] at hrefused
      cases hrefused
  | error problem =>
      refine ⟨parseFault path problem, ?_⟩
      rw [Settings.load, Workspace.contains_of_locate hfound]
      simp only [bind, Except.bind, Except.mapError, if_true, hread, hparse]

/-- Nothing is lost just where every number is the nearest one to a decimal of three places. -/
theorem rounded_eq_self_iff (hnumbers : ∀ x ∈ t.numbers, x.IsFinite) :
    t.rounded = t ↔ ∀ x ∈ t.numbers, ∃ negative k, x = .ofRatio negative k 1000 := by
  simp only [numbers, List.forall_mem_cons] at hnumbers ⊢
  rw [rounded_eq_self, Binary64.thousandths_eq_self_iff hnumbers.1,
    Binary64.thousandths_eq_self_iff hnumbers.2.1]
  simp

theorem sameItems_texts (texts : List String) :
    Value.sameItems (texts.map .text) (texts.map .text) = true := by
  induction texts with
  | nil => rfl
  | cons s texts ih => simpa [Value.sameItems, Value.same] using ih

/-- Of all values only the numbers can be found to differ. -/
theorem same_rounded_iff (hnumbers : ∀ x ∈ t.numbers, x.IsFinite) :
    t.rounded.settings.same t.settings = true ↔ t.rounded = t := by
  simp only [numbers, List.forall_mem_cons] at hnumbers
  have hsame : t.rounded.settings.same t.settings =
      (t.stepDelaySeconds.thousandths.same t.stepDelaySeconds &&
        t.timeoutSeconds.thousandths.same t.timeoutSeconds) := by
    simp [Settings.same, sameFields, settings, rounded, ToolSettings.fields,
      PipelineSettings.fields, SessionSettings.fields, LoggingSettings.fields, Value.sameItems,
      Value.same, sameItems_texts]
  rw [hsame, Bool.and_eq_true, Binary64.same_thousandths_iff hnumbers.1,
    Binary64.same_thousandths_iff hnumbers.2.1, rounded_eq_self]

/-! ### Initialising -/

/-- The settings with another tool, if one is named. -/
def withTool (t : Typed) (binary : Option String) : Typed :=
  { t with toolBinary := (binary.filter fun name => !name.isEmpty).getD t.toolBinary }

theorem initialise_eq {w : World} (binary : Option String)
    (hload : Settings.load w.files path = .ok t.settings) {saved : Workspace}
    (hsave : (t.withTool binary).settings.save w.files path = .ok saved) :
    ∃ w', CommandLine.initialise path binary w = (w', .exit 0) ∧ w'.files = saved := by
  rw [CommandLine.initialise, hload]
  cases hnamed : binary.filter (fun name => !name.isEmpty) with
  | none =>
      rw [withTool, hnamed] at hsave
      simp only [Option.getD_none] at hsave
      simp only [hsave]
      exact ⟨_, rfl, rfl⟩
  | some name =>
      rw [withTool, hnamed] at hsave
      have hsettings : { t.settings with tool.binary := .text name } =
        ({ t with toolBinary := (some name).getD t.toolBinary } : Typed).settings := rfl
      simp only [hsettings, hsave]
      exact ⟨_, rfl, rfl⟩

theorem mem_texts_withTool {binary : Option String} {s : String}
    (hs : s ∈ (t.withTool binary).texts) : s ∈ t.texts ∨ binary = some s := by
  cases hnamed : binary.filter (fun name => !name.isEmpty) with
  | none =>
      have hsame : t.withTool binary = t := by
        rw [withTool, hnamed]
        rfl
      exact Or.inl (hsame ▸ hs)
  | some name =>
      rw [withTool, hnamed] at hs
      rcases List.mem_cons.mp hs with rfl | hother
      · exact Or.inr (Option.filter_eq_some_iff.mp hnamed).1
      · exact Or.inl (List.mem_cons_of_mem _ hother)

/-- A file that settings were loaded from can be written to. -/
theorem isWritable_of_load {settings : Settings}
    (hfile : files.contains path = .ok true) (hload : Settings.load files path = .ok settings) :
    files.IsWritable path := by
  unfold Workspace.IsWritable
  rw [Settings.load, hfile] at hload
  unfold Workspace.contains at hfile
  unfold Workspace.readText at hload
  split at hfile
  · next names node hplace =>
      rw [hplace] at hload ⊢
      cases node with
      | directory => cases hload
      | file bytes => exact ⟨names, .found bytes⟩
  · cases hfile
  · cases hfile

theorem load_initialise (ht : t.IsPlain) {w : World} {binary : Option String}
    (hfile : w.files.contains path = .ok true)
    (hload : Settings.load w.files path = .ok t.settings)
    (hbinary : ∀ name ∈ binary, Toml.delete ∉ name.toList) :
    ∃ w', CommandLine.initialise path binary w = (w', .exit 0) ∧
      Settings.load w'.files path = .ok (t.withTool binary).rounded.settings := by
  have hplain : (t.withTool binary).IsPlain := by
    refine ⟨?_, ht.numbers⟩
    intro s hs
    rcases mem_texts_withTool hs with hmem | hnamed
    · exact ht.texts s hmem
    · exact hbinary s hnamed
  obtain ⟨saved, hsave, -, hsaved⟩ := load_save hplain (isWritable_of_load hfile hload)
  obtain ⟨w', hdone, rfl⟩ := initialise_eq binary hload hsave
  exact ⟨w', hdone, hsaved⟩

/-- Settings that were saved are loaded with every number read back from its three decimals and all
else unchanged, so that they are equal to those saved just where all numbers are decimals of three
places; and initialising over them changes nothing beyond that but the tool. -/
theorem save_load_thousandths (t : Typed) (hnumbers : ∀ x ∈ t.numbers, x.IsFinite)
    (htexts : ∀ s ∈ t.texts, Toml.delete ∉ s.toList) (files : Workspace) (path : Path)
    (hpath : files.IsWritable path) :
    (∃ saved, t.settings.save files path = .ok saved ∧ saved.contains path = .ok true ∧
      Settings.load saved path = .ok t.rounded.settings) ∧
    (t.rounded.settings.same t.settings = true ↔ t.rounded = t) ∧
    (t.rounded = t ↔ ∀ x ∈ t.numbers, ∃ negative k, x = .ofRatio negative k 1000) ∧
    ∀ (w : World) (binary : Option String), w.files.contains path = .ok true →
      Settings.load w.files path = .ok t.settings →
      (∀ name ∈ binary, Toml.delete ∉ name.toList) →
      ∃ w', CommandLine.initialise path binary w = (w', .exit 0) ∧
        Settings.load w'.files path = .ok (t.withTool binary).rounded.settings := by
  have ht : t.IsPlain := ⟨htexts, hnumbers⟩
  refine ⟨load_save ht hpath, same_rounded_iff hnumbers, rounded_eq_self_iff hnumbers, ?_⟩
  intro w binary hfile hload hbinary
  exact load_initialise ht hfile hload hbinary

/-- The settings where nothing is given. -/
def standard : Typed where
  toolBinary := "opusflow"
  workingDirectory := ""
  plansDir := "opusflow-planning/plans"
  defaultAgent := "claude-cli"
  stepDelaySeconds := .ofNat 1
  agentExec := false
  sessionBinary := "cursor-agent"
  statusArgs := ["status"]
  loginArgs := ["login"]
  timeoutSeconds := .ofNat 120
  authenticatedPattern := "logged in"
  unauthenticatedPattern := "not logged in"
  manualHint := "Set an API key for your agent (e.g. ANTHROPIC_API_KEY) and retry."
  level := "INFO"

example : standard.settings = {} := rfl

/-- Texts with quotes, escapes, control characters and marks of the format, a negative zero and a
delay with more than three decimals. -/
def knotty : Typed :=
  { standard with
    toolBinary := "C:\\tools\\\"flow\" # 🚀"
    workingDirectory := "\x00\t\r\n\u2028"
    stepDelaySeconds := .ofRatio false 12345 10000
    statusArgs := []
    loginArgs := ["", "a, b]", "[x]\ny = 1"]
    timeoutSeconds := .ofRatio true 0 1 }

def file : Path := ⟨0, ["out.toml"]⟩

theorem isWritable_file : Workspace.IsWritable {} file := by
  have hplace : Workspace.locate {} file = .vacant ["out.toml"] := by decide +kernel
  refine ⟨["out.toml"], ?_⟩
  rw [hplace]
  exact .vacant

theorem save_load_knotty :
    (∀ x ∈ knotty.numbers, x.IsFinite) ∧ (∀ s ∈ knotty.texts, Toml.delete ∉ s.toList) ∧
    Workspace.IsWritable {} file ∧
    knotty.rounded = { knotty with stepDelaySeconds := .ofRatio false 1234 1000 } ∧
    ∃ saved, knotty.settings.save {} file = .ok saved ∧
      Settings.load saved file = .ok knotty.rounded.settings ∧
      ∃ w, CommandLine.initialise file (some "flow 2") { files := saved } = (w, .exit 0) ∧
        Settings.load w.files file =
          .ok ({ knotty.rounded with toolBinary := "flow 2" } : Typed).settings := by
  have hnumbers : ∀ x ∈ knotty.numbers, x.IsFinite := by decide +kernel
  have htexts : ∀ s ∈ knotty.texts, Toml.delete ∉ s.toList := by decide +kernel
  have hagain : ∀ x ∈ knotty.rounded.numbers, x.IsFinite := by decide +kernel
  have hrounded : knotty.rounded =
      { knotty with stepDelaySeconds := .ofRatio false 1234 1000 } := by decide +kernel
  have hrenamed : (knotty.rounded.withTool (some "flow 2")).rounded =
      { knotty.rounded with toolBinary := "flow 2" } := by decide +kernel
  have htexts' : ∀ s ∈ knotty.rounded.texts, Toml.delete ∉ s.toList := by
    rw [texts_rounded]
    exact htexts
  obtain ⟨saved, hsave, hfile, hload⟩ :=
    (save_load_thousandths knotty hnumbers htexts {} file isWritable_file).1
  obtain ⟨w, hdone, hloaded⟩ := (save_load_thousandths knotty.rounded hagain htexts' {} file
    isWritable_file).2.2.2 { files := saved } (some "flow 2") hfile hload (by decide +kernel)
  rw [hrenamed] at hloaded
  exact ⟨hnumbers, htexts, isWritable_file, hrounded, saved, hsave, hload, w, hdone, hloaded⟩

/-- A delay of a tenth of a millisecond, which is lost. -/
def hasty : Typed := { standard with stepDelaySeconds := .ofRatio false 1 10000 }

/-- A text with the character that may not stand in a file. -/
def erased : Typed := { standard with toolBinary := "\x7f" }

theorem erased_refused : (Toml.parse (String.ofList
    (Text.normalizeNewlines (Toml.documentText erased.sections)))).isOk = false := by
  rw [Toml.parse_ofList]
  decide +kernel

/-- A number with more decimals does not come back, and a file with that character cannot be
read. -/
theorem save_load_inexact :
    ((∀ x ∈ hasty.numbers, x.IsFinite) ∧
      ∃ saved loaded, hasty.settings.save {} file = .ok saved ∧
        Settings.load saved file = .ok loaded ∧ loaded.same hasty.settings = false) ∧
    (∀ x ∈ erased.numbers, x.IsFinite) ∧
      ∃ saved fault, erased.settings.save {} file = .ok saved ∧
        Settings.load saved file = .error fault := by
  constructor
  · have hnumbers : ∀ x ∈ hasty.numbers, x.IsFinite := by decide +kernel
    have htexts : ∀ s ∈ hasty.texts, Toml.delete ∉ s.toList := by decide +kernel
    obtain ⟨saved, hsave, -, hload⟩ := load_save ⟨htexts, hnumbers⟩ isWritable_file
    refine ⟨hnumbers, saved, _, hsave, hload, ?_⟩
    have hchanged : hasty.rounded ≠ hasty := by decide +kernel
    rw [Bool.eq_false_iff, Ne, same_rounded_iff hnumbers]
    exact hchanged
  · refine ⟨by decide +kernel, ?_⟩
    obtain ⟨names, saved, hsave, hfound⟩ := erased.save_eq isWritable_file
    obtain ⟨fault, hload⟩ := load_of_refused hfound erased_refused
    exact ⟨saved, fault, hsave, hload⟩

end Typed

end Settings

end Conductor
