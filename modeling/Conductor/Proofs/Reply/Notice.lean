import Conductor.Proofs.Reply.Count
import Conductor.Reply.Plan
import Conductor.Reply.Spec

/-!
Replies that tell where a file was written. The tool has said so in more than one format; the newest
one that stands in a reply decides, and in it the first place where anything follows the label. What
follows may be blank, and then so is the place of the file.
-/

namespace Conductor.Reply

open Text

variable {s path value : List Char}

/-! ### Formats -/

section Formats

variable {formats : List (List (List Char))} {format : List (List Char)}

/-- At the front of the text stands one of the labels of the format, and on the same line the
value. -/
def Announces (format : List (List Char)) (here value : List Char) : Prop :=
  ∃ label ∈ format, RunAfter (· != '\n') label here value

/-- The formats go from the newest to the oldest. The value stands in one of them, where the text
has nothing in a newer one, and it is the first of that format. -/
def NewestIn (formats : List (List (List Char))) (s value : List Char) : Prop :=
  ∃ newer format older, formats = newer ++ format :: older ∧
    (∀ other ∈ newer, ¬ SomewhereIn (Announces other) s) ∧ FirstIn (Announces format) s value

theorem newestIn_cons :
    NewestIn (format :: formats) s value ↔
      FirstIn (Announces format) s value ∨
        ¬ SomewhereIn (Announces format) s ∧ NewestIn formats s value := by
  constructor
  · rintro ⟨newer, used, older, hformats, hnewer, hfirst⟩
    cases newer with
    | nil =>
        obtain ⟨rfl, -⟩ := List.cons.inj hformats
        exact Or.inl hfirst
    | cons other newer =>
        obtain ⟨rfl, rfl⟩ := List.cons.inj hformats
        obtain ⟨hother, hnewer⟩ := List.forall_mem_cons.mp hnewer
        exact Or.inr ⟨hother, newer, used, older, rfl, hnewer, hfirst⟩
  · rintro (hfirst | ⟨hnone, newer, used, older, rfl, hnewer, hfirst⟩)
    · exact ⟨[], format, formats, rfl, by simp, hfirst⟩
    · exact ⟨format :: newer, used, older, rfl, List.forall_mem_cons.mpr ⟨hnone, hnewer⟩, hfirst⟩

theorem not_newestIn_nil : ¬ NewestIn [] s value := by
  rintro ⟨newer, used, older, hformats, -⟩
  simp at hformats

/-- A text has a value if it has one in some format. -/
theorem exists_newestIn_iff :
    (∃ value, NewestIn formats s value) ↔
      ∃ format ∈ formats, SomewhereIn (Announces format) s := by
  induction formats with
  | nil => simp [not_newestIn_nil]
  | cons format formats ih =>
      simp only [newestIn_cons, exists_or, exists_and_left, exists_firstIn_iff, ih,
        List.exists_mem_cons_iff]
      by_cases hformat : SomewhereIn (Announces format) s <;> simp [hformat]

theorem announces_singleton {label : List Char} :
    Announces [label] = RunAfter (· != '\n') label := by
  funext here value
  simp [Announces]

/-- A search in one format and then in the others. -/
theorem leftmost_or_eq_some_iff {read : List Char → Option (List Char)}
    {others : Option (List Char)}
    (hread : ∀ here value, read here = some value ↔ Announces format here value)
    (hothers : others = some path ↔ ∃ value, NewestIn formats s value ∧ strip value = path) :
    ((leftmost read s).map strip).or others = some path ↔
      ∃ value, NewestIn (format :: formats) s value ∧ strip value = path := by
  rw [Option.or_eq_some_iff, Option.map_eq_some_iff, Option.map_eq_none_iff,
    leftmost_eq_none_iff hread, hothers]
  simp only [leftmost_eq_some_iff hread, newestIn_cons, or_and_right, exists_or, and_assoc,
    exists_and_left]

end Formats

/-! ### Kinds of notices -/

/-- The kinds of files that the tool tells of. -/
inductive Notice where
  | plan
  | verification
  | spec
  deriving DecidableEq, Repr

namespace Notice

/-- The name of the kind, as it stands in a problem. -/
def name : Notice → String
  | plan => "plan"
  | verification => "verify"
  | spec => "spec"

def formats : Notice → List (List (List Char))
  | plan => [[Plan.label]]
  | verification => [[Verification.label], [Verification.olderLabel]]
  | spec => [[Spec.label], ["Created spec: ".toList, "Created specification: ".toList]]

/-- The text says, in one of the formats, where the file is. -/
def IsIn (notice : Notice) (s : List Char) : Prop :=
  ∃ format ∈ notice.formats, SomewhereIn (Announces format) s

def path? : Notice → List Char → Option (List Char)
  | plan => field? Plan.label
  | verification => Verification.path?
  | spec => Spec.path?

theorem lineAfter?_iff_announces {label here value : List Char} :
    lineAfter? label here = some value ↔ Announces [label] here value := by
  rw [announces_singleton]
  exact lineAfter?_eq_some_iff

/-- The two wordings of the older sentence exclude each other. -/
theorem sentenceAfter?_iff_announces {here value : List Char} :
    Spec.sentenceAfter? here = some value ↔
      Announces ["Created spec: ".toList, "Created specification: ".toList] here value := by
  have hapart : ∀ value, RunAfter (· != '\n') "Created specification: ".toList here value →
      lineAfter? "Created spec: ".toList here = none := by
    rintro value ⟨rest, rfl, -⟩
    rfl
  rw [Spec.sentenceAfter?, Option.or_eq_some_iff, lineAfter?_eq_some_iff, lineAfter?_eq_some_iff]
  simp only [Announces, List.mem_cons, List.not_mem_nil, or_false, exists_eq_or_imp,
    exists_eq_left]
  exact or_congr_right (and_iff_right_of_imp (hapart value))

theorem path?_eq_some_iff (notice : Notice) :
    notice.path? s = some path ↔
      ∃ value, NewestIn notice.formats s value ∧ strip value = path := by
  have hnone : none = some path ↔ ∃ value, NewestIn [] s value ∧ strip value = path := by
    simp [not_newestIn_nil]
  have hlast (label : List Char) : field? label s = some path ↔
      ∃ value, NewestIn [[label]] s value ∧ strip value = path := by
    have hfield := leftmost_or_eq_some_iff (fun _ _ => @lineAfter?_iff_announces label _ _) hnone
    rwa [Option.or_none] at hfield
  cases notice with
  | plan => exact hlast Plan.label
  | verification =>
      exact leftmost_or_eq_some_iff (fun _ _ => lineAfter?_iff_announces)
        (hlast Verification.olderLabel)
  | spec =>
      have hsentence :=
        leftmost_or_eq_some_iff (fun _ _ => sentenceAfter?_iff_announces) hnone
      rw [Option.or_none] at hsentence
      exact leftmost_or_eq_some_iff (fun _ _ => lineAfter?_iff_announces) hsentence

theorem path?_eq_none_iff (notice : Notice) : notice.path? s = none ↔ ¬ notice.IsIn s := by
  rw [IsIn, ← exists_newestIn_iff, Option.eq_none_iff_forall_ne_some]
  simp only [ne_eq, path?_eq_some_iff]
  constructor
  · rintro hnone ⟨value, hvalue⟩
    exact hnone (strip value) ⟨value, hvalue, rfl⟩
  · rintro hnone path ⟨value, hvalue, -⟩
    exact hnone ⟨value, hvalue⟩

end Notice

/-! ### File names -/

/-- The last part of a path: no slash or backslash is in it, and one stands before it unless it is
the whole path. -/
def IsLastPart (path part : List Char) : Prop :=
  ∃ folder, path = folder ++ part ∧ (∀ c ∈ part, c ≠ '/' ∧ c ≠ '\\') ∧
    ∀ c ∈ folder.getLast?, c = '/' ∨ c = '\\'

theorem baseName_eq_iff {part : List Char} : baseName path = part ↔ IsLastPart path part := by
  rw [baseName, List.reverse_eq_iff]
  constructor
  · intro hpart
    refine ⟨(path.reverse.dropWhile fun c => c != '/' && c != '\\').reverse, ?_, ?_, ?_⟩
    · rw [← List.reverse_inj, List.reverse_append, List.reverse_reverse, ← hpart,
        List.takeWhile_append_dropWhile]
    · intro c hc
      rw [← List.mem_reverse, ← hpart] at hc
      simpa using List.mem_takeWhile_imp hc
    · intro c hc
      have hstop := List.head?_dropWhile_not (fun c => c != '/' && c != '\\') path.reverse
      rw [List.getLast?_reverse] at hc
      rw [Option.mem_def.mp hc] at hstop
      simpa [Decidable.or_iff_not_imp_left] using hstop
  · rintro ⟨folder, rfl, hpart, hfolder⟩
    rw [List.reverse_append]
    refine (takeWhile_append_of_stop ?_ ?_).1
    · intro c hc
      simpa using hpart c (List.mem_reverse.mp hc)
    · intro c hc
      rw [List.head?_reverse] at hc
      rcases hfolder c hc with rfl | rfl <;> rfl

/-! ### Reading a notice -/

/-- Where a file is, and its name in that place if the reply gives it. -/
structure Located where
  path : String
  fileName : Option String
  deriving DecidableEq, Repr

namespace Notice

/-- The place that a reply tells, whatever else it tells. -/
def read (notice : Notice) (raw : String) : Except Problem Located :=
  match notice with
  | plan => (Plan.decode raw).map fun plan => ⟨plan.path, some plan.fileName⟩
  | verification => (Verification.decode raw).map fun report => ⟨report.path, none⟩
  | spec => (Spec.decode raw).map fun spec => ⟨spec.path, some spec.fileName⟩

/-- The numbers that are read with a notice. -/
def numerals : Notice → List Char → List (List Char → Prop)
  | plan, _ => []
  | verification, s => Verification.counts s
  | spec, _ => []

/-- Reads the numbers. -/
def check : Notice → List Char → Except Problem Unit
  | plan, _ => .ok ()
  | verification, s => (Verification.readChecks s).map fun _ => ()
  | spec, _ => .ok ()

/-- What a notice of this path is read as. -/
def locate (notice : Notice) (path : List Char) : Located where
  path := String.ofList path
  fileName := if notice = verification then none else some (String.ofList (baseName path))

variable {notice : Notice} {raw : String} {problem : Problem} {located : Located}

/-- Every notice is read in the same way: the path first, and then the numbers. -/
theorem read_eq (notice : Notice) (raw : String) :
    notice.read raw =
      match notice.path? raw.toList with
      | some path => (notice.check raw.toList).map fun _ => notice.locate path
      | none => .error (.unreadable notice.name raw) := by
  cases notice with
  | plan =>
      unfold read path? Plan.decode
      simp only
      cases field? Plan.label raw.toList <;> rfl
  | verification =>
      unfold read path? check Verification.decode
      simp only
      cases Verification.path? raw.toList with
      | none => rfl
      | some path => cases Verification.readChecks raw.toList <;> rfl
  | spec =>
      unfold read path? Spec.decode
      simp only
      cases Spec.path? raw.toList <;> rfl

theorem check_eq_error_iff :
    notice.check s = .error problem ↔ Overlong (notice.numerals s) problem := by
  cases notice with
  | plan => exact ok_eq_error_iff
  | verification =>
      rw [numerals, ← Verification.readChecks_eq_error_iff, check]
      cases Verification.readChecks s <;> simp [Except.map]
  | spec => exact ok_eq_error_iff

theorem read_of_missing (hmissing : ¬ notice.IsIn raw.toList) :
    notice.read raw = .error (.unreadable notice.name raw) := by
  rw [read_eq, notice.path?_eq_none_iff.mpr hmissing]

/-- A notice that is there is read, unless a number in the reply is too long. -/
theorem read_of_newestIn (hvalue : NewestIn notice.formats raw.toList value) :
    (∃ problem, Overlong (notice.numerals raw.toList) problem ∧ notice.read raw = .error problem) ∨
      Fit (notice.numerals raw.toList) ∧ notice.read raw = .ok (notice.locate (strip value)) := by
  rw [read_eq, notice.path?_eq_some_iff.mpr ⟨value, hvalue, rfl⟩]
  cases hcheck : notice.check raw.toList with
  | error problem => exact Or.inl ⟨problem, check_eq_error_iff.mp hcheck, rfl⟩
  | ok _ =>
      refine Or.inr ⟨fit_iff.mpr ?_, rfl⟩
      intro problem hlong
      cases hcheck.symm.trans (check_eq_error_iff.mpr hlong)

theorem read_eq_ok_iff :
    notice.read raw = .ok located ↔ Fit (notice.numerals raw.toList) ∧
      ∃ value, NewestIn notice.formats raw.toList value ∧
        located = notice.locate (strip value) := by
  constructor
  · intro hread
    have hin : notice.IsIn raw.toList := by
      by_contra hmissing
      cases hread.symm.trans (read_of_missing hmissing)
    obtain ⟨value, hvalue⟩ := exists_newestIn_iff.mpr hin
    obtain ⟨problem, -, herror⟩ | ⟨hfit, hok⟩ := read_of_newestIn hvalue
    · cases hread.symm.trans herror
    · cases hread.symm.trans hok
      exact ⟨hfit, value, hvalue, rfl⟩
  · rintro ⟨hfit, value, hvalue, rfl⟩
    obtain ⟨problem, hlong, -⟩ | ⟨-, hok⟩ := read_of_newestIn hvalue
    · exact absurd hlong (fit_iff.mp hfit problem)
    · exact hok

theorem read_eq_error_iff :
    notice.read raw = .error problem ↔
      ¬ notice.IsIn raw.toList ∧ problem = .unreadable notice.name raw ∨
      notice.IsIn raw.toList ∧ Overlong (notice.numerals raw.toList) problem := by
  by_cases hin : notice.IsIn raw.toList
  · obtain ⟨value, hvalue⟩ := exists_newestIn_iff.mpr hin
    simp only [hin, not_true_eq_false, false_and, true_and, false_or]
    rw [read_eq, notice.path?_eq_some_iff.mpr ⟨value, hvalue, rfl⟩, ← check_eq_error_iff]
    cases notice.check raw.toList <;> simp [Except.map]
  · simp [read_of_missing hin, hin, eq_comm]

/-- A file is named by the last part of its path; only a verification does not name its file. -/
def Names (notice : Notice) (located : Located) : Prop :=
  if notice = verification then located.fileName = none
  else ∃ part, located.fileName = some part ∧ IsLastPart located.path.toList part.toList

theorem eq_locate_iff :
    located = notice.locate path ↔ located.path.toList = path ∧ notice.Names located := by
  obtain ⟨place, fileName⟩ := located
  have hplace : place = String.ofList path ↔ place.toList = path := by
    rw [← String.toList_inj, String.toList_ofList]
  simp only [locate, Located.mk.injEq, hplace, Names]
  refine and_congr_right ?_
  rintro rfl
  split
  · exact Iff.rfl
  · constructor
    · rintro rfl
      exact ⟨_, rfl, baseName_eq_iff.mp String.toList_ofList.symm⟩
    · rintro ⟨part, rfl, hlast⟩
      rw [baseName_eq_iff.mpr hlast, String.ofList_toList]

/-- A reply whose numbers are not too long is read exactly if it tells in some format where the file
is. The newest such format decides, wherever older ones stand, and in it the first label that is
followed by anything on its line; the path is the rest of that line without the blanks at its ends.
Otherwise the problem gives the kind of the notice and the whole text. -/
theorem read_newest (notice : Notice) (raw : String) (hfit : Fit (notice.numerals raw.toList)) :
    (∀ located, notice.read raw = .ok located ↔
      (∃ value, NewestIn notice.formats raw.toList value ∧
        located.path.toList = strip value) ∧ notice.Names located) ∧
    ∀ problem, notice.read raw = .error problem ↔
      problem = .unreadable notice.name raw ∧
        ∀ format ∈ notice.formats, ¬ SomewhereIn (Announces format) raw.toList := by
  constructor
  · intro located
    rw [read_eq_ok_iff, and_iff_right hfit]
    simp only [eq_locate_iff, ← and_assoc, exists_and_right]
  · intro problem
    rw [read_eq_error_iff, or_iff_left fun hlong => fit_iff.mp hfit problem hlong.2, and_comm, IsIn]
    simp only [not_exists, not_and]

/-- A report in both formats, the older one first, with a label that nothing follows. -/
def mixedReport : String :=
  "Verification report created: old.md\nReport saved: \nReport saved:  new/r.md \r\n" ++
    "**Checks**: 3/4\nReport saved: later.md"

theorem read_newest_of_mixedReport :
    Fit (numerals .verification mixedReport.toList) ∧
      NewestIn (formats .verification) mixedReport.toList " new/r.md \r".toList ∧
      read .verification mixedReport = .ok ⟨"new/r.md", none⟩ := by
  have hchecks : Verification.readChecks mixedReport.toList = .ok (some ⟨3, 4⟩) := by
    decide +kernel
  have hfit : Fit (numerals .verification mixedReport.toList) := by
    refine fit_iff.mpr fun problem hlong => ?_
    cases hchecks.symm.trans (Verification.readChecks_eq_error_iff.mpr hlong)
  have hfirst : FirstIn (Announces [Verification.label]) mixedReport.toList
      " new/r.md \r".toList :=
    (leftmost_eq_some_iff fun _ _ => lineAfter?_iff_announces).mp (by decide +kernel)
  have hnewest : NewestIn (formats .verification) mixedReport.toList " new/r.md \r".toList :=
    newestIn_cons.mpr (Or.inl hfirst)
  refine ⟨hfit, hnewest, ((read_newest .verification mixedReport hfit).1 _).mpr ⟨?_, ?_⟩⟩
  · exact ⟨_, hnewest, by decide +kernel⟩
  · rw [Names, if_pos rfl]

/-! ### Blank fields -/

theorem locate_path_eq_empty_iff : (notice.locate path).path = "" ↔ path = [] := by
  rw [locate, ← String.toList_inj, String.toList_ofList]
  rfl

/-- The place of a file is given and empty exactly if the value that decides is blank. It can be
blank, for a label is usable when anything at all follows it on its line, be it the carriage return
of the line's end. The identifier of a workflow is never empty: only what is not blank is searched
for, and where there is none the reply cannot be read. -/
theorem read_blank_iff (raw : String) :
    (∀ notice : Notice, (∃ located, notice.read raw = .ok located ∧ located.path = "") ↔
      Fit (notice.numerals raw.toList) ∧
        ∃ value, NewestIn notice.formats raw.toList value ∧ ∀ c ∈ value, isBlank c = true) ∧
    (∀ status, WorkflowStatus.decode raw = .ok status →
      status.id ≠ "" ∧ ∀ c ∈ status.id.toList, isBlank c = false) ∧
    (WorkflowStatus.decode raw = .error (.unreadable "workflow status" raw) ↔
      ¬ SomewhereIn WorkflowStatus.IdAt raw.toList) := by
  refine ⟨?_, ?_, ?_⟩
  · intro notice
    simp only [read_eq_ok_iff, ← strip_eq_nil_iff]
    constructor
    · rintro ⟨located, ⟨hfit, value, hvalue, rfl⟩, hempty⟩
      exact ⟨hfit, value, hvalue, locate_path_eq_empty_iff.mp hempty⟩
    · rintro ⟨hfit, value, hvalue, hblank⟩
      exact ⟨_, ⟨hfit, value, hvalue, rfl⟩, locate_path_eq_empty_iff.mpr hblank⟩
  · intro status hstatus
    obtain ⟨front, here, -, hhere, -⟩ := WorkflowStatus.firstIn_of_decode hstatus
    obtain ⟨hne, hsolid⟩ := hhere.mem
    refine ⟨?_, by simpa using hsolid⟩
    rintro hempty
    exact hne (by rw [hempty]; rfl)
  · rw [WorkflowStatus.decode_eq_error_iff, eq_self, and_true, or_iff_left]
    rintro ⟨-, hlong⟩
    obtain ⟨digits, hdigits⟩ := hlong.eq_numberTooLong
    cases hdigits

/-- A plan that the tool has created nowhere: its line ends right after the label, with a carriage
return. The identifier of a workflow is looked for behind the next label then. -/
theorem read_blank_of_carriageReturn :
    (∃ located, read .plan "Created plan: \r\n" = .ok located ∧ located.path = "") ∧
      Plan.decode "Created plan: \r\n" = .ok ⟨"", ""⟩ ∧
      ∃ status, WorkflowStatus.decode "# Workflow Status: \r\n# Workflow Status: w" = .ok status ∧
        status.id ≠ "" := by
  have hhere : Announces [Plan.label] "Created plan: \r\n".toList ['\r'] :=
    ⟨Plan.label, List.mem_singleton_self _, ['\n'], rfl, by decide,
      List.all_eq_true.mp (by decide), by rintro c ⟨⟩; decide⟩
  have hnewest : NewestIn (formats .plan) "Created plan: \r\n".toList ['\r'] :=
    newestIn_cons.mpr (Or.inl (firstIn_of_front hhere))
  have hblank : ∀ c ∈ ['\r'], isBlank c = true := List.all_eq_true.mp (by decide)
  have hempty := ((read_blank_iff "Created plan: \r\n").1 .plan).mpr
    ⟨fun _ hnumeral => absurd hnumeral List.not_mem_nil, _, hnewest, hblank⟩
  have hstatus : WorkflowStatus.decode "# Workflow Status: \r\n# Workflow Status: w" =
      .ok ⟨"w", "default", "idle", "", 0, none, none, none, none⟩ := by decide +kernel
  exact ⟨hempty, by decide +kernel, _, hstatus, ((read_blank_iff _).2.1 _ hstatus).1⟩

end Notice

end Conductor.Reply
