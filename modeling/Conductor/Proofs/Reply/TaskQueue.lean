import Conductor.Proofs.Text.Search

/-!
Task queues are read as they were written. A line of the layout is of one of five kinds: the title
line, an empty line, a header, the announcement of files, or a file. Each kind is recognised for
what it is and for nothing else, whatever texts stand in it, so the tasks come back section by
section.
-/

namespace Conductor.Reply

open Text

/-- A text that can stand between backquotes. -/
structure IsQuotable (s : String) : Prop where
  ne_nil : s.toList ≠ []
  unquoted : '\x60' ∉ s.toList
  oneLine : OneLine s.toList

/-- A task as it can be written down. -/
structure Task.IsPlain (task : Task) : Prop where
  id : ∃ digits : List Char, digits ≠ [] ∧ (∀ c ∈ digits, isDigit c = true) ∧
    task.id.toList = "task-".toList ++ digits
  title : IsField task.title.toList
  files : ∀ file ∈ task.files, IsQuotable file

theorem TaskStatus.ofGlyph_glyph (status : TaskStatus) : ofGlyph status.glyph = status := by
  cases status <;> decide

theorem TaskStatus.glyph_plain (status : TaskStatus) :
    status.glyph.toList ≠ [] ∧ (∀ c ∈ status.glyph.toList, (!isBlank c) = true) ∧
      OneLine status.glyph.toList := by
  cases status <;> exact ⟨by decide, List.all_eq_true.mp (by decide), by decide⟩

namespace TaskQueue

variable {task : Task} {file : String} {heading : FilesHeading} {lines : List (List Char)}
  {files : List String} {sections : List (FilesHeading × Task)}

/-! ### Headers -/

theorem taskId?_eq_some_iff {s id rest : List Char} :
    taskId? s = some (id, rest) ↔
      ∃ digits, s = "task-".toList ++ (digits ++ rest) ∧ id = "task-".toList ++ digits ∧
        digits ≠ [] ∧ (∀ c ∈ digits, isDigit c = true) ∧ ∀ c ∈ rest.head?, isDigit c = false := by
  constructor
  · intro hid
    obtain ⟨number, hnumber, hrun⟩ := Option.bind_eq_some_iff.mp hid
    obtain ⟨⟨digits, rest'⟩, hdigits, hsame⟩ := Option.bind_eq_some_iff.mp hrun
    obtain ⟨rfl, hne, hall, hstop⟩ := run?_eq_some_iff.mp hdigits
    cases hsame
    exact ⟨digits, after?_eq_some_iff.mp hnumber, rfl, hne, hall, hstop⟩
  · rintro ⟨digits, rfl, rfl, hne, hall, hstop⟩
    rw [taskId?, after?_append]
    simp [run?_append hne hall hstop]

/-- A header line with its parts. -/
structure Heads (line glyph digits title : List Char) : Prop where
  parts : line =
    "## ".toList ++ (glyph ++ (" task-".toList ++ (digits ++ (": ".toList ++ title))))
  glyph : glyph ≠ [] ∧ ∀ c ∈ glyph, isBlank c = false
  digits : digits ≠ [] ∧ ∀ c ∈ digits, isDigit c = true
  title : title ≠ []

theorem header?_eq_some_iff {line : List Char} {task : Task} :
    header? line = some task ↔ ∃ glyph digits title, Heads line glyph digits title ∧
      task = {
        id := String.ofList ("task-".toList ++ digits)
        title := String.ofList (strip title)
        status := TaskStatus.ofGlyph (String.ofList glyph)
        files := [] } := by
  constructor
  · intro hline
    obtain ⟨_, hmark, hafterMark⟩ := Option.bind_eq_some_iff.mp hline
    obtain ⟨⟨glyph, _⟩, hglyph, hafterGlyph⟩ := Option.bind_eq_some_iff.mp hafterMark
    obtain ⟨_, hspace, hafterSpace⟩ := Option.bind_eq_some_iff.mp hafterGlyph
    obtain ⟨⟨id, _⟩, hid, hafterId⟩ := Option.bind_eq_some_iff.mp hafterSpace
    obtain ⟨title, hcolon, htask⟩ := Option.bind_eq_some_iff.mp hafterId
    obtain ⟨rfl, hne, hsolid, -⟩ := run?_eq_some_iff.mp hglyph
    obtain ⟨digits, rfl, rfl, hdigits, hall, -⟩ := taskId?_eq_some_iff.mp hid
    obtain rfl := after?_eq_some_iff.mp hspace
    obtain rfl := after?_eq_some_iff.mp hcolon
    simp only [Option.ite_none_left_eq_some, Option.some.injEq, List.isEmpty_iff] at htask
    obtain ⟨htitle, rfl⟩ := htask
    exact ⟨glyph, digits, title, ⟨after?_eq_some_iff.mp hmark, ⟨hne, by simpa using hsolid⟩,
      ⟨hdigits, hall⟩, htitle⟩, rfl⟩
  · rintro ⟨glyph, digits, title, ⟨rfl, ⟨hglyph, hsolid⟩, ⟨hdigits, hall⟩, htitle⟩, rfl⟩
    have hrun : run? (fun c => !isBlank c)
        (glyph ++ ([' '] ++ ("task-".toList ++ (digits ++ (": ".toList ++ title))))) =
          some (glyph, [' '] ++ ("task-".toList ++ (digits ++ (": ".toList ++ title)))) :=
      run?_append hglyph (by simpa using hsolid) (by rintro c ⟨⟩; decide)
    have hid : taskId? ("task-".toList ++ (digits ++ (": ".toList ++ title))) =
        some ("task-".toList ++ digits, ": ".toList ++ title) :=
      taskId?_eq_some_iff.mpr ⟨digits, rfl, rfl, hdigits, hall, by rintro c ⟨⟩; decide⟩
    have hspace : " task-".toList ++ (digits ++ (": ".toList ++ title)) =
        [' '] ++ ("task-".toList ++ (digits ++ (": ".toList ++ title))) := rfl
    unfold header?
    rw [hspace]
    simp only [after?_append, Option.bind_eq_bind, Option.bind_some, hrun, hid]
    simp [htitle]

theorem header?_headerLine (htask : task.IsPlain) :
    header? (headerLine task) = some { task with files := [] } := by
  obtain ⟨digits, hne, hdigits, hid⟩ := htask.id
  obtain ⟨hglyph, hsolid, -⟩ := task.status.glyph_plain
  refine header?_eq_some_iff.mpr ⟨task.status.glyph.toList, digits, task.title.toList,
    ⟨?_, ⟨hglyph, by simpa using hsolid⟩, ⟨hne, hdigits⟩, htask.title.ne_nil⟩, ?_⟩
  · unfold headerLine
    rw [hid]
    simp only [List.append_assoc]
    rfl
  · rw [← hid, htask.title.stripped, String.ofList_toList, String.ofList_toList,
      String.ofList_toList, TaskStatus.ofGlyph_glyph]

/-! ### Files -/

/-- A line that lists a file. -/
structure Lists (line name : List Char) : Prop where
  parts : line = "- \x60".toList ++ (name ++ "\x60".toList)
  name : name ≠ [] ∧ '\x60' ∉ name

theorem fileItem?_eq_some_iff {line name : List Char} :
    fileItem? line = some name ↔ Lists line name := by
  constructor
  · intro hline
    obtain ⟨_, hmark, hafterMark⟩ := Option.bind_eq_some_iff.mp hline
    obtain ⟨⟨name', rest⟩, hname, hfile⟩ := Option.bind_eq_some_iff.mp hafterMark
    obtain ⟨rfl, hne, hall, -⟩ := run?_eq_some_iff.mp hname
    simp only [Option.ite_none_right_eq_some, Option.some.injEq] at hfile
    obtain ⟨rfl, rfl⟩ := hfile
    refine ⟨after?_eq_some_iff.mp hmark, hne, ?_⟩
    intro hquote
    simpa using hall _ hquote
  · rintro ⟨rfl, hne, hquote⟩
    have hrun : run? (· != '\x60') (name ++ "\x60".toList) = some (name, "\x60".toList) := by
      refine run?_append hne ?_ (by rintro c ⟨⟩; decide)
      intro c hc
      have hother : c ≠ '\x60' := fun heq => hquote (heq ▸ hc)
      simpa using hother
    unfold fileItem?
    simp only [after?_append, Option.bind_eq_bind, Option.bind_some, hrun]
    rfl

theorem fileItem?_fileLine (hfile : IsQuotable file) :
    fileItem? (fileLine file) = some file.toList :=
  fileItem?_eq_some_iff.mpr ⟨List.append_assoc .., hfile.ne_nil, hfile.unquoted⟩

theorem header?_fileLine (file : String) : header? (fileLine file) = none := rfl

theorem opensFiles_fileLine (file : String) : opensFiles (fileLine file) = false := by
  simp [opensFiles, fileLine]

theorem header?_heading (heading : FilesHeading) : header? heading.line = none := by
  cases heading <;> rfl

theorem opensFiles_heading (heading : FilesHeading) : opensFiles heading.line = true := by
  cases heading <;> rfl

theorem leadingFiles_fileLines (hfiles : ∀ file ∈ files, IsQuotable file)
    (lines : List (List Char)) :
    leadingFiles (files.map fileLine ++ lines) = files ++ leadingFiles lines := by
  induction files with
  | nil => rfl
  | cons file files ih =>
      obtain ⟨hfile, hrest⟩ := List.forall_mem_cons.mp hfiles
      simp [leadingFiles, fileItem?_fileLine hfile, ih hrest]

theorem filesOfSection_files (files : List String) (lines : List (List Char)) :
    filesOfSection (files.map fileLine ++ lines) = filesOfSection lines := by
  induction files with
  | nil => rfl
  | cons file files ih =>
      rw [List.map_cons, List.cons_append, filesOfSection, header?_fileLine, opensFiles_fileLine]
      exact ih

theorem tasksOf_fileLines (heading : FilesHeading) (files : List String)
    (lines : List (List Char)) :
    tasksOf (fileLines heading files ++ lines) = tasksOf lines := by
  have hfiles (files : List String) : tasksOf (files.map fileLine ++ lines) = tasksOf lines := by
    induction files with
    | nil => rfl
    | cons file files ih => exact ih
  unfold fileLines
  split
  · rfl
  · rw [List.cons_append, tasksOf, header?_heading]
    exact hfiles files

/-- The files of a task are those listed before the next section. -/
theorem filesOfSection_fileLines (hfiles : ∀ file ∈ files, IsQuotable file)
    (hleading : leadingFiles lines = []) (hsection : filesOfSection lines = []) :
    filesOfSection (fileLines heading files ++ lines) = files := by
  unfold fileLines
  split
  · next hempty =>
      rw [List.isEmpty_iff.mp hempty]
      exact hsection
  · rw [List.cons_append, filesOfSection, header?_heading, opensFiles_heading,
      filesOfSection_files, leadingFiles_fileLines hfiles, hleading, hsection]
    simp

/-! ### Sections -/

/-- The lines of the sections, one section after the other. -/
def sectionsLines (sections : List (FilesHeading × Task)) : List (List Char) :=
  sections.flatMap fun (heading, task) => sectionLines heading task

/-- A section starts with an empty line and a header, so the files listed before it end there. -/
theorem files_sectionsLines (hplain : ∀ task ∈ sections.map Prod.snd, task.IsPlain) :
    leadingFiles (sectionsLines sections) = [] ∧ filesOfSection (sectionsLines sections) = [] := by
  cases sections with
  | nil => exact ⟨rfl, rfl⟩
  | cons first rest =>
      obtain ⟨heading, task⟩ := first
      have htask : task.IsPlain := hplain task List.mem_cons_self
      refine ⟨rfl, ?_⟩
      change filesOfSection (headerLine task :: _) = []
      rw [filesOfSection, header?_headerLine htask]
      rfl

theorem tasksOf_sectionsLines (hplain : ∀ task ∈ sections.map Prod.snd, task.IsPlain) :
    tasksOf (sectionsLines sections) = sections.map Prod.snd := by
  induction sections with
  | nil => rfl
  | cons first rest ih =>
      obtain ⟨heading, task⟩ := first
      obtain ⟨htask, hrest⟩ := List.forall_mem_cons.mp hplain
      obtain ⟨hleading, hsection⟩ := files_sectionsLines hrest
      change tasksOf (headerLine task :: (fileLines heading task.files ++ sectionsLines rest)) = _
      rw [tasksOf, header?_headerLine htask]
      simp only [filesOfSection_fileLines htask.files hleading hsection, tasksOf_fileLines,
        ih hrest, List.map_cons]

/-! ### The lines of the layout -/

/-- A line that is read as it is: stripping does not change it. -/
def Tidy (line : List Char) : Prop := OneLine line ∧ strip line = line

theorem tidy_append_field {c : Char} {front : List Char} {s : List Char} (hc : isBlank c = false)
    (hfront : OneLine (c :: front)) (hs : IsField s) : Tidy (c :: front ++ s) := by
  refine ⟨hfront.append hs.oneLine, strip_eq_self_iff.mpr ⟨?_, ?_⟩⟩
  · rintro c' ⟨⟩
    exact hc
  · rw [List.getLast?_append_of_ne_nil _ hs.ne_nil]
    exact (strip_eq_self_iff.mp hs.stripped).2

/-- The first line of the layout. -/
def titleLine (planRef : String) : List Char := "# Task Queue: ".toList ++ planRef.toList

theorem header?_titleLine (planRef : String) : header? (titleLine planRef) = none := rfl

theorem titleLine_ne_nil (planRef : String) : titleLine planRef ≠ [] :=
  List.append_ne_nil_of_left_ne_nil (by decide) _

theorem titleLine_tidy {planRef : String} (hplan : IsField planRef.toList) :
    Tidy (titleLine planRef) :=
  tidy_append_field (c := '#') (by decide) (by decide) hplan

theorem headerLine_tidy (htask : task.IsPlain) : Tidy (headerLine task) := by
  obtain ⟨digits, -, hdigits, hid⟩ := htask.id
  have hnumber : OneLine task.id.toList := by
    rw [hid]
    exact OneLine.append (by decide) fun c hc => isBoundary_of_isDigit (hdigits c hc)
  have hfront : OneLine
      ("## ".toList ++ task.status.glyph.toList ++ [' '] ++ task.id.toList ++ ": ".toList) := by
    refine OneLine.append (OneLine.append (OneLine.append (OneLine.append ?_ ?_) ?_) hnumber) ?_
    · decide
    · exact task.status.glyph_plain.2.2
    · decide
    · decide
  exact tidy_append_field (by decide) hfront htask.title

theorem fileLine_tidy (hfile : IsQuotable file) : Tidy (fileLine file) := by
  refine ⟨(OneLine.append (by decide) hfile.oneLine).append (by decide), ?_⟩
  refine strip_eq_self_iff.mpr ⟨?_, ?_⟩
  · rintro c ⟨⟩
    decide
  · rw [fileLine, List.getLast?_concat]
    rintro c ⟨⟩
    decide

theorem fileLines_tidy (heading : FilesHeading) (hfiles : ∀ file ∈ files, IsQuotable file) :
    ∀ line ∈ fileLines heading files, Tidy line := by
  have hheading : Tidy heading.line := by
    constructor <;> cases heading <;> decide
  unfold fileLines
  split
  · simp
  · refine List.forall_mem_cons.mpr ⟨hheading, List.forall_mem_map.mpr ?_⟩
    intro file hfile
    exact fileLine_tidy (hfiles file hfile)

theorem sectionsLines_tidy (hplain : ∀ task ∈ sections.map Prod.snd, task.IsPlain) :
    ∀ line ∈ sectionsLines sections, Tidy line := by
  refine List.forall_mem_flatMap.mpr ?_
  rintro ⟨heading, task⟩ hmem
  have htask : task.IsPlain := hplain task (List.mem_map_of_mem hmem)
  refine List.forall_mem_cons.mpr ⟨⟨by decide, rfl⟩, List.forall_mem_cons.mpr ⟨?_, ?_⟩⟩
  · exact headerLine_tidy htask
  · exact fileLines_tidy heading htask.files

/-- The last line of the layout is not empty: it is the title line, a header or a file. -/
theorem exists_last_line (planRef : String) (sections : List (FilesHeading × Task)) :
    ∃ init last, titleLine planRef :: sectionsLines sections = init ++ [last] ∧ last ≠ [] := by
  rcases List.eq_nil_or_concat sections with rfl | ⟨earlier, ⟨heading, task⟩, rfl⟩
  · exact ⟨[], titleLine planRef, rfl, titleLine_ne_nil planRef⟩
  · have hsection : ∃ init last, sectionLines heading task = init ++ [last] ∧ last ≠ [] := by
      rcases List.eq_nil_or_concat task.files with hnone | ⟨before, file, hfiles⟩
      · exact ⟨[[]], headerLine task, by simp [sectionLines, fileLines, hnone],
          List.cons_ne_nil '#' _⟩
      · exact ⟨[] :: headerLine task :: heading.line :: before.map fileLine, fileLine file,
          by simp [sectionLines, fileLines, hfiles], List.cons_ne_nil '-' _⟩
    obtain ⟨init, last, hlines, hne⟩ := hsection
    refine ⟨titleLine planRef :: sectionsLines earlier ++ init, last, ?_, hne⟩
    simp [sectionsLines, hlines]

/-! ### The whole reply -/

theorem decode_of_lines {planRef : String} (hplan : IsField planRef.toList)
    (hplain : ∀ task ∈ sections.map Prod.snd, task.IsPlain) {text : String} {rest : List Char}
    (htext : text.toList = titleLine planRef ++ rest)
    (hrest : EndsLine rest)
    (hlines : printedLines text.toList = titleLine planRef :: sectionsLines sections) :
    decode text = { planRef, tasks := sections.map Prod.snd } := by
  have htidy : ∀ line ∈ titleLine planRef :: sectionsLines sections, strip line = line := by
    refine List.forall_mem_cons.mpr ⟨(titleLine_tidy hplan).2, ?_⟩
    intro line hline
    exact (sectionsLines_tidy hplain line hline).2
  have hstripped : strippedLines text.toList = titleLine planRef :: sectionsLines sections := by
    rw [strippedLines, hlines, List.map_congr_left htidy, List.map_id']
  have htasks : tasksOf (titleLine planRef :: sectionsLines sections) = sections.map Prod.snd := by
    rw [tasksOf, header?_titleLine]
    exact tasksOf_sectionsLines hplain
  have hfield : field? "# Task Queue: ".toList text.toList = some planRef.toList := by
    have hsplit := List.append_assoc "# Task Queue: ".toList planRef.toList rest
    rw [htext]
    exact (congrArg (field? "# Task Queue: ".toList) hsplit).trans
      (field?_append "# Task Queue: ".toList hplan.isValue hrest)
  rw [decode, hfield, hstripped, htasks, Option.getD_some, String.ofList_toList]

/-- A queue that is written down is read back: its plan, its tasks in order with their identifiers,
titles, statuses and files, and so their number. This holds for either line end, with or without one
after the last line, and however the files of each task are announced. -/
theorem decode_layout (lineEnd : LineEnd) {planRef text : String} (hplan : IsField planRef.toList)
    (hplain : ∀ task ∈ sections.map Prod.snd, task.IsPlain)
    (htext : text = layout lineEnd planRef sections ∨
      text ++ String.ofList lineEnd.chars = layout lineEnd planRef sections) :
    decode text = { planRef, tasks := sections.map Prod.snd } ∧
      (decode text).size = sections.length := by
  have honeLine : ∀ line ∈ titleLine planRef :: sectionsLines sections, OneLine line := by
    refine List.forall_mem_cons.mpr ⟨(titleLine_tidy hplan).1, ?_⟩
    intro line hline
    exact (sectionsLines_tidy hplain line hline).1
  have hwritten : IsWritten lineEnd (titleLine planRef :: sectionsLines sections) text.toList :=
    isWritten_of_join (exists_last_line planRef sections) htext
  obtain ⟨rest, htitle, hrest⟩ := hwritten.exists_endsLine
  have hdecode : decode text = { planRef, tasks := sections.map Prod.snd } :=
    decode_of_lines hplan hplain htitle hrest (hwritten.printedLines honeLine)
  refine ⟨hdecode, ?_⟩
  rw [hdecode, size, List.length_map]

/-- Titles and files that look like other lines of a queue. -/
def knotty : List (FilesHeading × Task) :=
  [(.long, ⟨"task-07", "## ⬜ task-2: \x60b\x60", .failed, ["**Files**:", " "]⟩),
    (.short, ⟨"task-7", ":", .inProgress, []⟩)]

theorem decode_layout_knotty :
    IsField "# T: x".toList ∧ (∀ task ∈ knotty.map Prod.snd, task.IsPlain) ∧
      decode (layout .returnAndFeed "# T: x" knotty) =
        { planRef := "# T: x", tasks := knotty.map Prod.snd } := by
  have hplan : IsField "# T: x".toList := ⟨by decide, by decide, by decide⟩
  have hplain : ∀ task ∈ knotty.map Prod.snd, task.IsPlain := by
    refine List.forall_mem_cons.mpr ⟨?_, List.forall_mem_singleton.mpr ?_⟩
    · refine ⟨⟨['0', '7'], by decide, List.all_eq_true.mp (by decide), by decide⟩,
        ⟨by decide, by decide, by decide⟩, ?_⟩
      refine List.forall_mem_cons.mpr ⟨?_, List.forall_mem_singleton.mpr ?_⟩
      · exact ⟨by decide, by decide, by decide⟩
      · exact ⟨by decide, by decide, by decide⟩
    · refine ⟨⟨['7'], by decide, List.all_eq_true.mp (by decide), by decide⟩,
        ⟨by decide, by decide, by decide⟩, ?_⟩
      exact fun file hfile => absurd hfile (List.not_mem_nil)
  exact ⟨hplan, hplain, (decode_layout .returnAndFeed hplan hplain (Or.inl rfl)).1⟩

end TaskQueue

end Conductor.Reply
