import Mathlib.Data.List.Nodup
import Mathlib.Data.List.Forall2
import Conductor.Settings

/-!
Settings and the tables they are read from. One list of forms says which sections and fields there
are and what a field is where nothing is given. A table is read exactly if it fits the forms, the
first section that does not fit is the one that is told of, and what comes out are the forms, filled
with what is given.
-/

namespace Conductor

/-! ### Tables in any order -/

namespace Value

variable {fields others extra : List (String × Value)} {key : String} {v : Value}

/-- Where no key stands twice, the value under a key is the one that stands beside it. -/
theorem lookup?_eq_some_iff (hkeys : (fields.map (·.1)).Nodup) :
    lookup? fields key = some v ↔ (key, v) ∈ fields := by
  rw [lookup?, Option.map_eq_some_iff]
  constructor
  · rintro ⟨⟨name, w⟩, hfind, rfl⟩
    obtain rfl : name = key := by simpa using List.find?_some hfind
    exact List.mem_reverse.mp (List.mem_of_find?_eq_some hfind)
  · intro hmem
    have hfound : (fields.reverse.find? fun field => field.1 == key).isSome = true := by
      rw [List.find?_isSome]
      exact ⟨(key, v), List.mem_reverse.mpr hmem, by simp⟩
    obtain ⟨⟨name, w⟩, hfind⟩ := Option.isSome_iff_exists.mp hfound
    obtain rfl : name = key := by simpa using List.find?_some hfind
    have hother := List.mem_reverse.mp (List.mem_of_find?_eq_some hfind)
    exact ⟨_, hfind, congrArg Prod.snd (List.inj_on_of_nodup_map hkeys hother hmem rfl)⟩

/-- The order of the keys does not matter. -/
theorem lookup?_perm (hperm : fields.Perm others) (hkeys : (fields.map (·.1)).Nodup)
    (key : String) : lookup? fields key = lookup? others key := by
  have hkeys' : (others.map (·.1)).Nodup := (hperm.map (·.1)).nodup_iff.mp hkeys
  refine Option.ext fun v => ?_
  rw [lookup?_eq_some_iff hkeys, lookup?_eq_some_iff hkeys', hperm.mem_iff]

/-- Neither do entries under other keys. -/
theorem lookup?_append (hextra : ∀ entry ∈ extra, entry.1 ≠ key) :
    lookup? (fields ++ extra) key = lookup? fields key := by
  have hnone : extra.reverse.find? (fun field => field.1 == key) = none := by
    simpa using fun name w hentry => hextra (name, w) hentry
  rw [lookup?, List.reverse_append, List.find?_append, hnone, Option.none_or, lookup?]

def IsList : Value → Prop
  | list _ => True
  | _ => False

end Value

namespace SettingsProblem

/-- The message names the section. -/
def Names (problem : SettingsProblem) (sectionName : String) : Prop :=
  ∃ rest, problem.message = "[" ++ sectionName ++ "] must be a table, got " ++ rest ∨
    problem.message = "Invalid [" ++ sectionName ++ "] section: " ++ rest

theorem names_reservedKey (sectionName recordName : String) :
    (reservedKey sectionName recordName).Names sectionName := by
  have hmessage : (reservedKey sectionName recordName).message =
      "Invalid [" ++ sectionName ++ "] section: " ++ recordName ++
        ".__init__() got multiple values for " ++ "argument 'self'" := rfl
  refine ⟨recordName ++ ".__init__() got multiple values for " ++ "argument 'self'", Or.inr ?_⟩
  rw [hmessage]
  simp only [String.append_assoc]

theorem names_unknownKey (sectionName recordName key : String) :
    (unknownKey sectionName recordName key).Names sectionName := by
  have hmessage : (unknownKey sectionName recordName key).message =
      "Invalid [" ++ sectionName ++ "] section: " ++ recordName ++
        ".__init__() got an unexpected keyword " ++ "argument '" ++ key ++ "'" := rfl
  refine ⟨recordName ++ ".__init__() got an unexpected keyword " ++ "argument '" ++ key ++ "'",
    Or.inr ?_⟩
  rw [hmessage]
  simp only [String.append_assoc]

end SettingsProblem

namespace Settings

/-! ### Forms -/

/-- What a section may hold: its name, the record it becomes, and its fields with the values they
have where nothing is given. -/
structure Form where
  name : String
  recordName : String
  fields : List (String × Value)

def toolForm : Form where
  name := "tool"
  recordName := "ToolConfig"
  fields := [("binary", .text "opusflow"), ("working_directory", .text "")]

def pipelineForm : Form where
  name := "pipeline"
  recordName := "PipelineConfig"
  fields :=
    [("plans_dir", .text "opusflow-planning/plans"), ("default_agent", .text "claude-cli"),
      ("step_delay_seconds", .float (.ofNat 1)), ("agent_exec", .bool false)]

def sessionForm : Form where
  name := "session"
  recordName := "SessionConfig"
  fields :=
    [("binary", .text "cursor-agent"), ("status_args", .list [.text "status"]),
      ("login_args", .list [.text "login"]), ("timeout_seconds", .float (.ofNat 120)),
      ("authenticated_pattern", .text "logged in"),
      ("unauthenticated_pattern", .text "not logged in"),
      ("manual_hint",
        .text "Set an API key for your agent (e.g. ANTHROPIC_API_KEY) and retry.")]

def loggingForm : Form where
  name := "logging"
  recordName := "LoggingConfig"
  fields := [("level", .text "INFO")]

/-- The forms in the order in which they are checked. -/
def forms : List Form := [toolForm, pipelineForm, sessionForm, loggingForm]

namespace Form

def keys (form : Form) : List String := form.fields.map (·.1)

variable {form : Form} {data fields : List (String × Value)} {problem : SettingsProblem}

/-- The section is missing, or a table that has no keys but those of the form. -/
def Fits (form : Form) (data : List (String × Value)) : Prop :=
  ∀ v ∈ Value.lookup? data form.name,
    ∃ given, v = .table given ∧ ∀ field ∈ given, field.1 ∈ form.keys

/-- What is told of a key that the form does not have. -/
def keyProblem (form : Form) (key : String) : SettingsProblem :=
  if key = "self" then .reservedKey form.name form.recordName
  else .unknownKey form.name form.recordName key

/-- Why a section does not fit the form: it is no table, or this is the first key that the form does
not have. -/
inductive Refuses (form : Form) (data : List (String × Value)) : SettingsProblem → Prop
  | notTable {v : Value} (hgiven : Value.lookup? data form.name = some v)
      (hother : ∀ given, v ≠ .table given) : Refuses form data (.notTable form.name v.typeName)
  | badKey {before after : List (String × Value)} {key : String} {v : Value}
      (hgiven : Value.lookup? data form.name = some (.table (before ++ (key, v) :: after)))
      (hbefore : ∀ field ∈ before, field.1 ∈ form.keys) (hkey : key ∉ form.keys) :
      Refuses form data (form.keyProblem key)

/-- Reads the section of the form. -/
def read (form : Form) (data : List (String × Value)) :
    Except SettingsProblem (List (String × Value)) :=
  Settings.section? data form.name form.recordName form.keys

/-- The fields that are given for a section. -/
def given (form : Form) (data : List (String × Value)) : List (String × Value) :=
  match Value.lookup? data form.name with
  | some (.table given) => given
  | _ => []

/-- The section with the values that are given, and with the default for every other field. -/
def filled (form : Form) (data : List (String × Value)) : String × List (String × Value) :=
  (form.name, form.fields.map fun (key, default) =>
    (key, (Value.lookup? (form.given data) key).getD default))

/-- The key that names the record itself is no field of any form. -/
theorem self_not_mem_keys : ∀ form ∈ forms, "self" ∉ form.keys := by
  decide

theorem badKey?_eq_none_iff (hself : "self" ∉ form.keys) :
    badKey? form.name form.recordName form.keys fields = none ↔
      ∀ field ∈ fields, field.1 ∈ form.keys := by
  rw [badKey?, List.findSome?_eq_none_iff]
  refine forall_congr' fun field => forall_congr' fun _ => ?_
  obtain ⟨key, v⟩ := field
  simp only
  split
  · next hkey => simp [hkey, hself]
  · simp

theorem badKey?_eq_some_iff (hself : "self" ∉ form.keys) :
    badKey? form.name form.recordName form.keys fields = some problem ↔
      ∃ before key v after, fields = before ++ (key, v) :: after ∧
        (∀ field ∈ before, field.1 ∈ form.keys) ∧ key ∉ form.keys ∧
        problem = form.keyProblem key := by
  have hbefore (before : List (String × Value)) := @badKey?_eq_none_iff form before hself
  simp only [badKey?, List.findSome?_eq_none_iff] at hbefore
  rw [badKey?, List.findSome?_eq_some_iff]
  simp only [hbefore, Prod.exists]
  refine exists_congr fun before => exists_congr fun key => exists_congr fun v =>
    exists_congr fun after => and_congr_right fun _ => ?_
  rw [and_comm]
  refine and_congr_right fun _ => ?_
  unfold keyProblem
  split
  · next hkey => simp [hkey, hself, eq_comm]
  · simp [eq_comm]

/-- A section is read exactly if it fits, and then what is given is read. -/
theorem read_eq_ok_iff (hself : "self" ∉ form.keys) :
    form.read data = .ok fields ↔ form.Fits data ∧ fields = form.given data := by
  unfold read section? Fits Form.given
  cases hlookup : Value.lookup? data form.name with
  | none => simp [eq_comm]
  | some v =>
      cases v with
      | table given =>
          have hnone := @badKey?_eq_none_iff form given hself
          simp only
          cases hbad : badKey? form.name form.recordName form.keys given with
          | none => simpa [eq_comm] using fun _ => hnone.mp hbad
          | some problem =>
              refine iff_of_false (by simp) ?_
              rintro ⟨hfits, -⟩
              obtain ⟨_, ⟨⟩, hkeys⟩ := hfits _ rfl
              cases hbad.symm.trans (hnone.mpr hkeys)
      | _ => simp

theorem read_eq_error_iff (hself : "self" ∉ form.keys) :
    form.read data = .error problem ↔ form.Refuses data problem := by
  constructor
  · intro hread
    unfold read section? at hread
    split at hread
    · cases hread
    · next fields hlookup =>
        split at hread
        · next other hbad =>
            cases hread
            obtain ⟨before, key, v, after, rfl, hbefore, hkey, rfl⟩ :=
              (badKey?_eq_some_iff hself).mp hbad
            exact .badKey hlookup hbefore hkey
        · cases hread
    · next v hother hlookup =>
        cases hread
        exact .notTable hlookup fun fields htable => hother fields htable
  · intro hrefuses
    unfold read section?
    cases hrefuses with
    | notTable hlookup hother =>
        rw [hlookup]
        split
        · next heq => cases heq
        · next heq => exact absurd (Option.some.inj heq) (hother _)
        · next heq =>
            cases heq
            rfl
    | badKey hlookup hbefore hkey =>
        rw [hlookup]
        simp only [(badKey?_eq_some_iff hself).mpr ⟨_, _, _, _, rfl, hbefore, hkey, rfl⟩]

theorem Refuses.names (hrefuses : form.Refuses data problem) : problem.Names form.name := by
  cases hrefuses with
  | notTable => exact ⟨_, Or.inl rfl⟩
  | badKey =>
      unfold keyProblem
      split
      · exact SettingsProblem.names_reservedKey ..
      · exact SettingsProblem.names_unknownKey ..

end Form

variable {data data' : List (String × Value)} {problem : SettingsProblem} {s : Settings}

/-! ### Reading a table -/

/-- The first form that does not fit is refused for this reason. -/
def Blames (forms : List Form) (data : List (String × Value)) (problem : SettingsProblem) : Prop :=
  ∃ before form after, forms = before ++ form :: after ∧
    (∀ earlier ∈ before, earlier.Fits data) ∧ form.Refuses data problem

theorem not_blames_nil : ¬ Blames [] data problem := by
  rintro ⟨before, form, after, hforms, -⟩
  simp at hforms

theorem blames_cons {form : Form} {forms : List Form} :
    Blames (form :: forms) data problem ↔
      form.Refuses data problem ∨ form.Fits data ∧ Blames forms data problem := by
  constructor
  · rintro ⟨before, refused, after, hforms, hbefore, hrefuses⟩
    cases before with
    | nil =>
        obtain ⟨rfl, -⟩ := List.cons.inj hforms
        exact Or.inl hrefuses
    | cons earlier before =>
        obtain ⟨rfl, hrest⟩ := List.cons.inj hforms
        obtain ⟨hfits, hbefore⟩ := List.forall_mem_cons.mp hbefore
        exact Or.inr ⟨hfits, before, refused, after, hrest, hbefore, hrefuses⟩
  · rintro (hrefuses | ⟨hfits, before, refused, after, rfl, hbefore, hrefuses⟩)
    · exact ⟨[], form, forms, rfl, by simp, hrefuses⟩
    · exact ⟨form :: before, refused, after, rfl, List.forall_mem_cons.mpr ⟨hfits, hbefore⟩,
        hrefuses⟩

/-- The settings that are made of what is given for each section. -/
def ofGiven (data : List (String × Value)) : Settings where
  tool := .ofTable (toolForm.given data)
  pipeline := .ofTable (pipelineForm.given data)
  session := .ofTable (sessionForm.given data)
  logging := .ofTable (loggingForm.given data)

theorem ofTable_eq (data : List (String × Value)) :
    ofTable data =
      (toolForm.read data).bind fun tool => (pipelineForm.read data).bind fun pipeline =>
        (sessionForm.read data).bind fun session => (loggingForm.read data).bind fun logging =>
          .ok {
            tool := .ofTable tool
            pipeline := .ofTable pipeline
            session := .ofTable session
            logging := .ofTable logging } := rfl

theorem bind_eq_ok_iff {α β : Type} {x : Except SettingsProblem α}
    {f : α → Except SettingsProblem β} {b : β} :
    x.bind f = .ok b ↔ ∃ a, x = .ok a ∧ f a = .ok b := by
  cases x <;> simp [Except.bind]

theorem bind_eq_error_iff {α β : Type} {x : Except SettingsProblem α}
    {f : α → Except SettingsProblem β} :
    x.bind f = .error problem ↔ x = .error problem ∨ ∃ a, x = .ok a ∧ f a = .error problem := by
  cases x <;> simp [Except.bind]

/-- Settings are made exactly of a table that fits all forms. -/
theorem ofTable_eq_ok_iff :
    ofTable data = .ok s ↔ (∀ form ∈ forms, form.Fits data) ∧ s = ofGiven data := by
  have hself := Form.self_not_mem_keys
  simp only [forms, List.forall_mem_cons] at hself ⊢
  obtain ⟨htool, hpipeline, hsession, hlogging, -⟩ := hself
  rw [ofTable_eq]
  simp only [bind_eq_ok_iff, Form.read_eq_ok_iff htool, Form.read_eq_ok_iff hpipeline,
    Form.read_eq_ok_iff hsession, Form.read_eq_ok_iff hlogging]
  constructor
  · rintro ⟨_, ⟨htool, rfl⟩, _, ⟨hpipeline, rfl⟩, _, ⟨hsession, rfl⟩, _, ⟨hlogging, rfl⟩, ⟨⟩⟩
    exact ⟨⟨htool, hpipeline, hsession, hlogging, by simp⟩, rfl⟩
  · rintro ⟨⟨htool, hpipeline, hsession, hlogging, -⟩, rfl⟩
    exact ⟨_, ⟨htool, rfl⟩, _, ⟨hpipeline, rfl⟩, _, ⟨hsession, rfl⟩, _, ⟨hlogging, rfl⟩, rfl⟩

/-- Otherwise the first form that does not fit is told of. -/
theorem ofTable_eq_error_iff : ofTable data = .error problem ↔ Blames forms data problem := by
  have hself := Form.self_not_mem_keys
  simp only [forms, List.forall_mem_cons] at hself
  obtain ⟨htool, hpipeline, hsession, hlogging, -⟩ := hself
  rw [ofTable_eq, forms]
  simp only [blames_cons, not_blames_nil, and_false, or_false, bind_eq_error_iff,
    Form.read_eq_ok_iff, Form.read_eq_error_iff, htool, hpipeline, hsession, hlogging,
    not_false_eq_true, and_assoc, exists_and_left, exists_eq_left, reduceCtorEq, exists_false]

/-! ### Settings as tables -/

/-- The sections of settings, as they stand. -/
def sections (s : Settings) : List (String × List (String × Value)) :=
  [("tool", s.tool.fields), ("pipeline", s.pipeline.fields), ("session", s.session.fields),
    ("logging", s.logging.fields)]

theorem tables_of_lists (hstatus : s.session.statusArgs.IsList)
    (hlogin : s.session.loginArgs.IsList) : s.tables = .ok s.sections := by
  obtain ⟨tool, pipeline, session, logging⟩ := s
  obtain ⟨binary, statusArgs, loginArgs⟩ := session
  cases statusArgs with
  | list statusArgs =>
      cases loginArgs with
      | list loginArgs => rfl
      | _ => exact hlogin.elim
  | _ => exact hstatus.elim

theorem ofTable_sections (s : Settings) :
    ofTable (s.sections.map fun t => (t.1, .table t.2)) = .ok s := rfl

theorem sections_ofGiven (data : List (String × Value)) :
    (ofGiven data).sections = forms.map (·.filled data) := rfl

/-! ### Tables that say the same -/

/-- One entry, or a section with the same fields in another order. -/
def Alike (entry other : String × Value) : Prop :=
  entry.1 = other.1 ∧ (entry.2 = other.2 ∨ ∃ fields others, entry.2 = .table fields ∧
    other.2 = .table others ∧ fields.Perm others ∧ (fields.map (·.1)).Nodup)

/-- The same entries in any order, beside others that are those of no section. No key stands
twice. -/
def Rearranged (data data' : List (String × Value)) : Prop :=
  ∃ shuffled extra, List.Forall₂ Alike data shuffled ∧ data'.Perm (shuffled ++ extra) ∧
    (data'.map (·.1)).Nodup ∧ ∀ entry ∈ extra, ∀ form ∈ forms, entry.1 ≠ form.name

theorem map_fst_of_alike {shuffled : List (String × Value)}
    (halike : List.Forall₂ Alike data shuffled) : data.map (·.1) = shuffled.map (·.1) := by
  induction halike with
  | nil => rfl
  | cons hentry _ ih => rw [List.map_cons, List.map_cons, hentry.1, ih]

theorem exists_alike {shuffled : List (String × Value)}
    (halike : List.Forall₂ Alike data shuffled) :
    (∀ entry ∈ data, ∃ other ∈ shuffled, Alike entry other) ∧
      ∀ other ∈ shuffled, ∃ entry ∈ data, Alike entry other := by
  induction halike with
  | nil => simp
  | cons hentry _ ih =>
      simp only [List.forall_mem_cons, List.exists_mem_cons_iff]
      exact ⟨⟨Or.inl hentry, fun entry hmem => Or.inr (ih.1 entry hmem)⟩, Or.inl hentry,
        fun other hmem => Or.inr (ih.2 other hmem)⟩

/-- Under the name of a section stands the same, up to the order of its fields. -/
theorem Rearranged.lookup? (h : Rearranged data data') {form : Form} (hform : form ∈ forms) :
    (Value.lookup? data form.name = none ∧ Value.lookup? data' form.name = none) ∨
      ∃ v w, Value.lookup? data form.name = some v ∧ Value.lookup? data' form.name = some w ∧
        Alike (form.name, v) (form.name, w) := by
  obtain ⟨shuffled, extra, halike, hperm, hkeys', hextra⟩ := h
  have hall : ((shuffled ++ extra).map (·.1)).Nodup := (hperm.map (·.1)).nodup_iff.mp hkeys'
  have hshuffled : (shuffled.map (·.1)).Nodup := by
    rw [List.map_append] at hall
    exact (List.nodup_append.mp hall).1
  have hkeys : (data.map (·.1)).Nodup := map_fst_of_alike halike ▸ hshuffled
  have hsame : Value.lookup? data' form.name = Value.lookup? shuffled form.name := by
    rw [Value.lookup?_perm hperm hkeys']
    exact Value.lookup?_append fun entry hentry => hextra entry hentry form hform
  obtain ⟨hto, hfrom⟩ := exists_alike halike
  rw [hsame]
  cases hlookup : Value.lookup? data form.name with
  | some v =>
      obtain ⟨⟨name, w⟩, hmem, halike⟩ := hto _ ((Value.lookup?_eq_some_iff hkeys).mp hlookup)
      obtain rfl : form.name = name := halike.1
      exact Or.inr ⟨v, w, rfl, (Value.lookup?_eq_some_iff hshuffled).mpr hmem, halike⟩
  | none =>
      refine Or.inl ⟨rfl, Option.eq_none_iff_forall_ne_some.mpr fun w hw => ?_⟩
      obtain ⟨⟨name, v⟩, hmem, halike⟩ := hfrom _ ((Value.lookup?_eq_some_iff hshuffled).mp hw)
      obtain rfl : name = form.name := halike.1
      cases hlookup.symm.trans ((Value.lookup?_eq_some_iff hkeys).mpr hmem)

/-- So a section fits as before, and every field has the value it had. -/
theorem Rearranged.given (h : Rearranged data data') {form : Form} (hform : form ∈ forms)
    (hfits : form.Fits data) :
    form.Fits data' ∧
      ∀ key, Value.lookup? (form.given data) key = Value.lookup? (form.given data') key := by
  unfold Form.Fits Form.given at *
  rcases h.lookup? hform with ⟨hnone, hnone'⟩ | ⟨v, w, hv, hw, -, rfl | hperm⟩
  · simp [hnone, hnone']
  · rw [hv] at hfits
    rw [hv, hw]
    exact ⟨hfits, fun _ => rfl⟩
  · obtain ⟨fields, others, rfl, rfl, hperm, hkeys⟩ := hperm
    obtain ⟨_, ⟨⟩, hknown⟩ := hfits _ hv
    rw [hv, hw]
    refine ⟨?_, Value.lookup?_perm hperm hkeys⟩
    rintro _ ⟨⟩
    exact ⟨others, rfl, fun field hfield => hknown field (hperm.mem_iff.mpr hfield)⟩

/-- Only the values under the keys count. -/
theorem ofGiven_congr (hgiven : ∀ form ∈ forms, ∀ key,
    Value.lookup? (form.given data) key = Value.lookup? (form.given data') key) :
    ofGiven data = ofGiven data' := by
  simp only [forms, List.forall_mem_cons] at hgiven
  obtain ⟨htool, hpipeline, hsession, hlogging, -⟩ := hgiven
  simp only [ofGiven, ToolSettings.ofTable, PipelineSettings.ofTable, SessionSettings.ofTable,
    LoggingSettings.ofTable, htool, hpipeline, hsession, hlogging]

theorem Rearranged.ofTable (h : Rearranged data data') (hread : ofTable data = .ok s) :
    Settings.ofTable data' = .ok s := by
  obtain ⟨hfits, rfl⟩ := ofTable_eq_ok_iff.mp hread
  have hgiven (form : Form) (hform : form ∈ forms) := h.given hform (hfits form hform)
  refine ofTable_eq_ok_iff.mpr ⟨fun form hform => (hgiven form hform).1, ?_⟩
  exact ofGiven_congr fun form hform => (hgiven form hform).2

theorem isList_ofGiven {key : String} (items : List Value)
    (hlist : ∀ v ∈ Value.lookup? (sessionForm.given data) key, v.IsList) :
    ((Value.lookup? (sessionForm.given data) key).getD (.list items)).IsList := by
  cases hlookup : Value.lookup? (sessionForm.given data) key with
  | none => trivial
  | some v => exact hlist v hlookup

/-- A table gives settings exactly if every section of it is missing or a table with no keys but
those of its form; otherwise the first section that is neither is told of by its name. Settings that
were read, if the arguments for a session are lists, are the forms filled with what was given, and
they stay the same when keys are put in another order or others are added beside the sections. The
tables of any settings whose arguments for a session are lists give those settings again. -/
theorem ofTable_fills (data : List (String × Value)) :
    ((∃ s, ofTable data = .ok s) ↔ ∀ form ∈ forms, form.Fits data) ∧
    (∀ problem, ofTable data = .error problem ↔
      ∃ before form after, forms = before ++ form :: after ∧
        (∀ earlier ∈ before, earlier.Fits data) ∧ form.Refuses data problem ∧
        problem.Names form.name) ∧
    (∀ s, ofTable data = .ok s →
      ((∀ key ∈ ["status_args", "login_args"],
          ∀ v ∈ Value.lookup? (sessionForm.given data) key, v.IsList) →
        s.tables = .ok (forms.map (·.filled data))) ∧
      ∀ data', Rearranged data data' → ofTable data' = .ok s) ∧
    ∀ s : Settings, s.session.statusArgs.IsList → s.session.loginArgs.IsList →
      ∃ tables, s.tables = .ok tables ∧
        ofTable (tables.map fun t => (t.1, .table t.2)) = .ok s := by
  refine ⟨?_, ?_, ?_, ?_⟩
  · simp [ofTable_eq_ok_iff]
  · intro problem
    rw [ofTable_eq_error_iff, Blames]
    refine exists_congr fun before => exists_congr fun form => exists_congr fun after =>
      and_congr_right fun _ => and_congr_right fun _ => ?_
    exact ⟨fun hrefuses => ⟨hrefuses, hrefuses.names⟩, And.left⟩
  · intro s hread
    refine ⟨fun hlists => ?_, fun data' hdata' => hdata'.ofTable hread⟩
    obtain ⟨-, rfl⟩ := ofTable_eq_ok_iff.mp hread
    have hstatus := isList_ofGiven [.text "status"] (hlists "status_args" (by simp))
    have hlogin := isList_ofGiven [.text "login"] (hlists "login_args" (by simp))
    rw [tables_of_lists hstatus hlogin, sections_ofGiven]
  · intro s hstatus hlogin
    exact ⟨s.sections, tables_of_lists hstatus hlogin, ofTable_sections s⟩

/-- A table with two of the sections. -/
def ownAgent : List (String × Value) :=
  [("session", .table [("binary", .text "agent"), ("status_args", .list [.text "whoami"])]),
    ("tool", .table [("working_directory", .text "work")])]

/-- The same in another order, with a table of someone else in between. -/
def ownAgentShuffled : List (String × Value) :=
  [("tool", .table [("working_directory", .text "work")]), ("editor", .table []),
    ("session", .table [("status_args", .list [.text "whoami"]), ("binary", .text "agent")])]

theorem rearranged_ownAgent : Rearranged ownAgent ownAgentShuffled := by
  refine ⟨[("session", .table [("status_args", .list [.text "whoami"]), ("binary", .text "agent")]),
    ("tool", .table [("working_directory", .text "work")])], [("editor", .table [])], ?_, ?_,
    by decide, by decide⟩
  · refine .cons ⟨rfl, Or.inr ⟨_, _, rfl, rfl, .swap .., by decide⟩⟩ (.cons ⟨rfl, Or.inl rfl⟩ .nil)
  · exact @List.perm_append_comm _ [_, _] [_]

theorem ofTable_fills_of_ownAgent :
    Rearranged ownAgent ownAgentShuffled ∧
    (∀ key ∈ ["status_args", "login_args"],
      ∀ v ∈ Value.lookup? (sessionForm.given ownAgent) key, v.IsList) ∧
    ∃ s, ofTable ownAgent = .ok s ∧ ofTable ownAgentShuffled = .ok s ∧
      s.tables = .ok (forms.map (·.filled ownAgent)) ∧
      s.session.statusArgs.IsList ∧ s.session.loginArgs.IsList ∧
      ∃ tables, s.tables = .ok tables ∧
        ofTable (tables.map fun t => (t.1, .table t.2)) = .ok s := by
  have hread : ofTable ownAgent = .ok (ofGiven ownAgent) := rfl
  have hlists : ∀ key ∈ ["status_args", "login_args"],
      ∀ v ∈ Value.lookup? (sessionForm.given ownAgent) key, v.IsList := by
    simp only [List.forall_mem_cons]
    refine ⟨?_, ?_, by simp⟩ <;> rintro v ⟨⟩
    trivial
  obtain ⟨hfilled, hshuffled⟩ := (ofTable_fills ownAgent).2.2.1 _ hread
  have hagain := (ofTable_fills ownAgent).2.2.2 (ofGiven ownAgent) trivial trivial
  exact ⟨rearranged_ownAgent, hlists, _, hread, hshuffled _ rearranged_ownAgent, hfilled hlists,
    trivial, trivial, hagain⟩

end Settings

end Conductor
