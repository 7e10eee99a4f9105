import Conductor.Proofs.Reply.TaskQueue
import Conductor.Proofs.Text.Search

/-!
Replies that name the next task. A mark that all tasks are completed goes before everything else,
and so may an identifier that stands after a label in the title of the task or in one of its files:
marks and labels are searched for in the whole text. Where the title and the files hold none of
these, the task is read as it was written.
-/

namespace Conductor.Reply.NextTask

open Text

/-! ### Marks and identifiers -/

/-- The text says that all tasks are completed. -/
def SaysCompleted (s : List Char) : Prop := ∃ mark ∈ drainedMarks, mark <:+: s

/-- What stands before the identifier of a task. -/
def idLabels : List (List Char) := ["**Task ID**: ".toList, "**ID**: ".toList]

/-- Somewhere in the text stands the identifier of a task. Its first digit is enough for that. -/
def NamesTask (s : List Char) : Prop :=
  ∃ label ∈ idLabels, ∃ digit, isDigit digit = true ∧ label ++ "task-".toList ++ [digit] <:+: s

/-- What the phase takes for the end of the queue. -/
def PassesForEnd (s : List Char) : Prop := SaysCompleted s ∨ ¬ NamesTask s

theorem any_occursIn_iff (s : List Char) :
    drainedMarks.any (fun mark => occursIn mark s) = true ↔ SaysCompleted s := by
  simp only [List.any_eq_true, occursIn_iff, SaysCompleted]

theorem isDrained_decode_iff (text : String) :
    (decode text).isDrained = true ↔ SaysCompleted text.toList := by
  rw [← any_occursIn_iff]
  unfold decode
  simp only
  split
  · next hany => exact iff_of_true rfl hany
  · next hnone =>
      refine iff_of_false ?_ hnone
      cases id? text.toList <;> exact Bool.false_ne_true

theorem taskId?_isSome_iff {s : List Char} :
    (TaskQueue.taskId? s).isSome = true ↔
      ∃ digit rest, isDigit digit = true ∧ s = "task-".toList ++ digit :: rest := by
  constructor
  · intro hsome
    obtain ⟨⟨id, rest⟩, hid⟩ := Option.isSome_iff_exists.mp hsome
    obtain ⟨digits, rfl, -, hne, hall, -⟩ := TaskQueue.taskId?_eq_some_iff.mp hid
    obtain ⟨digit, more, rfl⟩ := List.exists_cons_of_ne_nil hne
    exact ⟨digit, more ++ rest, hall digit List.mem_cons_self, rfl⟩
  · rintro ⟨digit, rest, hdigit, rfl⟩
    rw [TaskQueue.taskId?, after?_append]
    simp [run?, hdigit]

theorem idAfter?_isSome_iff {label s : List Char} :
    (idAfter? label s).isSome = true ↔
      ∃ digit rest, isDigit digit = true ∧ s = label ++ ("task-".toList ++ digit :: rest) := by
  unfold idAfter?
  cases hafter : after? label s with
  | none =>
      refine iff_of_false Bool.false_ne_true ?_
      rintro ⟨digit, rest, -, rfl⟩
      rw [after?_append] at hafter
      cases hafter
  | some number =>
      obtain rfl := after?_eq_some_iff.mp hafter
      simp only [List.append_cancel_left_eq, ← taskId?_isSome_iff, Option.bind_eq_bind,
        Option.bind_some]
      cases TaskQueue.taskId? number <;> exact Iff.rfl

theorem leftmost_idAfter?_isSome_iff {label s : List Char} :
    (leftmost (idAfter? label) s).isSome = true ↔
      ∃ digit, isDigit digit = true ∧ label ++ "task-".toList ++ [digit] <:+: s := by
  simp only [leftmost_isSome_iff, idAfter?_isSome_iff]
  constructor
  · rintro ⟨rest, ⟨front, rfl⟩, digit, more, hdigit, rfl⟩
    exact ⟨digit, hdigit, front, more, by simp⟩
  · rintro ⟨digit, hdigit, front, more, rfl⟩
    exact ⟨_, ⟨front, by simp⟩, digit, more, hdigit, rfl⟩

theorem id?_isSome_iff (s : List Char) : (id? s).isSome = true ↔ NamesTask s := by
  rw [id?, Option.isSome_or, Bool.or_eq_true, leftmost_idAfter?_isSome_iff,
    leftmost_idAfter?_isSome_iff]
  simp only [NamesTask, idLabels, List.mem_cons, List.not_mem_nil, or_false, exists_eq_or_imp,
    exists_eq_left]

/-- A reply names no task if the tool says that all are completed, and if it says nothing of a
task. -/
theorem task?_decode_eq_none_iff (text : String) :
    (decode text).task? = none ↔ PassesForEnd text.toList := by
  rw [PassesForEnd, ← isDrained_decode_iff, ← id?_isSome_iff]
  unfold decode
  simp only
  split
  · exact iff_of_true rfl (Or.inl rfl)
  · cases id? text.toList with
    | none => exact iff_of_true rfl (Or.inr Bool.false_ne_true)
    | some id =>
        refine iff_of_false (by simp [task?]) ?_
        rintro (hdrained | hid)
        · cases hdrained
        · exact hid rfl

/-! ### Readers of one line -/

variable {task : Task} {label : IdLabel} {lineEnd : LineEnd} {s : List Char}

/-- The characters between the parts of a reply. -/
def isStop (c : Char) : Bool := c == '\n' || c == '\r' || c == '\x60'

theorem isStop_of_mem_lineEnd : ∀ c ∈ lineEnd.chars, isStop c = true :=
  List.all_eq_true.mp (by cases lineEnd <;> decide)

/-- No character of the text is a stop. -/
def Unbroken (s : List Char) : Prop := ∀ c ∈ s, isStop c = false

instance (s : List Char) : Decidable (Unbroken s) :=
  List.decidableBAll (fun c => isStop c = false) s

/-- A label with an identifier right after it. -/
def Labels (label : IdLabel) (front id : List Char) : Prop :=
  front = label.chars ++ id ∧
    ∃ digits, id = "task-".toList ++ digits ∧ digits ≠ [] ∧ ∀ c ∈ digits, isDigit c = true

/-- At the front of the text stands a labelled identifier with all of its digits. -/
def Identifies (label : IdLabel) (here id : List Char) : Prop :=
  ∃ front rest, here = front ++ rest ∧ Labels label front id ∧
    ∀ c ∈ rest.head?, isDigit c = false

theorem idAfter?_eq_some_iff (here id : List Char) :
    idAfter? label.chars here = some id ↔ Identifies label here id := by
  constructor
  · intro hid
    obtain ⟨number, hnumber, hafter⟩ := Option.bind_eq_some_iff.mp hid
    obtain ⟨⟨id', rest⟩, hread, hsame⟩ := Option.bind_eq_some_iff.mp hafter
    cases hsame
    obtain ⟨digits, rfl, rfl, hne, hall, hstop⟩ := TaskQueue.taskId?_eq_some_iff.mp hread
    obtain rfl := after?_eq_some_iff.mp hnumber
    exact ⟨_, rest, by simp, ⟨rfl, digits, rfl, hne, hall⟩, hstop⟩
  · rintro ⟨front, rest, rfl, ⟨rfl, digits, rfl, hne, hall⟩, hstop⟩
    have hread := TaskQueue.taskId?_eq_some_iff.mpr ⟨digits, rfl, rfl, hne, hall, hstop⟩
    rw [List.append_assoc, List.append_assoc]
    simp only [idAfter?, after?_append, Option.bind_eq_bind, Option.bind_some, hread]
    rfl

theorem idAfter?_confined (label : IdLabel) : Confined '*' isStop (idAfter? label.chars) := by
  have hlabel : label.chars.head? = some '*' ∧ Unbroken label.chars := by
    cases label <;> exact ⟨rfl, by decide⟩
  have hdigit {c : Char} (hc : isDigit c = true) : isStop c = false := by
    by_contra hstop
    simp only [isStop, Bool.not_eq_false, Bool.or_eq_true, beq_iff_eq] at hstop
    rcases hstop with (rfl | rfl) | rfl <;> exact absurd hc (by decide)
  refine confined_of_front idAfter?_eq_some_iff ?_ ?_
  · rintro front id ⟨rfl, digits, rfl, -, hall⟩
    refine ⟨by rw [List.head?_append, hlabel.1]; rfl, ?_⟩
    intro c hc
    rcases List.mem_append.mp hc with hmem | hmem
    · exact hlabel.2 c hmem
    · rcases List.mem_append.mp hmem with hmem | hmem
      · exact (by decide : Unbroken "task-".toList) c hmem
      · exact hdigit (hall c hmem)
  · intro c hc
    by_contra hdig
    rw [hdigit (by simpa using hdig)] at hc
    cases hc

/-- Whether a mark stands at the front of a text. -/
def markAt? (mark here : List Char) : Option Unit := (after? mark here).map fun _ => ()

theorem infix_iff_leftmost {mark : List Char} :
    mark <:+: s ↔ (leftmost (markAt? mark) s).isSome = true := by
  simp only [← occursIn_iff, occursIn, leftmost_isSome_iff, markAt?, Option.isSome_map]

theorem markAt?_confined {mark : List Char} {first : Char} (hmark : mark.head? = some first)
    (hunbroken : Unbroken mark) : Confined first isStop (markAt? mark) := by
  have hread : ∀ here a, markAt? mark here = some a ↔
      ∃ front rest, here = front ++ rest ∧ front = mark ∧
        ∀ c ∈ rest.head?, (fun _ => false) c = false := by
    intro here a
    simp [markAt?, after?_eq_some_iff]
  refine confined_of_front hread ?_ fun _ _ => rfl
  rintro front _ rfl
  exact ⟨hmark, hunbroken⟩

/-! ### Lines -/

def titleLine (task : Task) : List Char := "# Next Task: ".toList ++ task.title.toList

def idLine (label : IdLabel) (task : Task) : List Char := label.chars ++ task.id.toList

def layoutLines (label : IdLabel) (task : Task) : List (List Char) :=
  titleLine task :: [] :: idLine label task :: fileLines .short task.files

section Search

variable {α : Type} {read : List Char → Option α} {first : Char}

theorem leftmost_titleLine (hread : Confined first isStop read)
    (hfirst : first ∉ "# Next Task: ".toList) (task : Task) :
    leftmost read (titleLine task) = leftmost read task.title.toList :=
  hread.leftmost_skip hfirst task.title.toList

theorem leftmost_fileLine (hread : Confined first isStop read) (hfirst : first ∉ "- \x60".toList)
    (file : String) : leftmost read (fileLine file) = leftmost read file.toList := by
  rw [fileLine, List.append_assoc, hread.leftmost_skip hfirst, hread.leftmost_stop (by decide),
    leftmost, hread.nil, Option.or_none]

/-- A reply is searched in its title, its identifier and its files. -/
theorem leftmost_written (hread : Confined first isStop read)
    (htitle : first ∉ "# Next Task: ".toList) (hfile : first ∉ "- \x60".toList)
    (hheading : leftmost read FilesHeading.short.line = none)
    (hs : IsWritten lineEnd (layoutLines label task) s) :
    leftmost read s =
      ((leftmost read task.title.toList).or (leftmost read (idLine label task))).or
        (task.files.findSome? fun file => leftmost read file.toList) := by
  have hfiles : (fileLines .short task.files).findSome? (leftmost read) =
      task.files.findSome? fun file => leftmost read file.toList := by
    unfold fileLines
    split
    · next hempty =>
        rw [List.isEmpty_iff.mp hempty]
        rfl
    · rw [List.findSome?_cons, hheading, List.findSome?_map]
      simp only [Function.comp_def, leftmost_fileLine hread hfile]
  rw [hs.leftmost_eq hread.toBounded isStop_of_mem_lineEnd, layoutLines, List.findSome?_cons,
    leftmost_titleLine hread htitle, List.findSome?_cons, leftmost, hread.nil, List.findSome?_cons,
    hfiles]
  cases leftmost read task.title.toList with
  | some a => rfl
  | none => cases leftmost read (idLine label task) <;> rfl

end Search

/-! ### Marks -/

/-- A character that stands neither in a label nor in a number does not stand in the line of the
identifier. -/
theorem not_mem_idLine (htask : task.IsPlain) {c : Char} (hlabel : c ∉ label.chars)
    (hid : c ∉ "task-".toList) (hdigit : isDigit c = false) : c ∉ idLine label task := by
  obtain ⟨digits, -, hall, hdigits⟩ := htask.id
  rw [idLine, hdigits]
  simp only [List.mem_append, hlabel, hid, false_or]
  intro hmem
  rw [hall c hmem] at hdigit
  cases hdigit

/-- A mark stands in a reply if it stands in the title or in a file. -/
theorem infix_written {mark : List Char} {first : Char} (htask : task.IsPlain)
    (hs : IsWritten lineEnd (layoutLines label task) s) (hmark : mark.head? = some first)
    (hunbroken : Unbroken mark) (htitle : first ∉ "# Next Task: ".toList)
    (hfile : first ∉ "- \x60".toList) (hheading : first ∉ FilesHeading.short.line)
    (hlabel : first ∉ label.chars) (hid : first ∉ "task-".toList) (hdigit : isDigit first = false) :
    mark <:+: s ↔ ∃ part ∈ task.title :: task.files, mark <:+: part.toList := by
  have hread := markAt?_confined hmark hunbroken
  have hline := hread.leftmost_eq_none (not_mem_idLine htask hlabel hid hdigit)
  rw [infix_iff_leftmost,
    leftmost_written hread htitle hfile (hread.leftmost_eq_none hheading) hs, hline, Option.or_none,
    Option.isSome_or, Bool.or_eq_true, List.exists_mem_cons_iff, infix_iff_leftmost,
    List.findSome?_isSome_iff]
  simp only [infix_iff_leftmost]

theorem saysCompleted_written (htask : task.IsPlain)
    (hs : IsWritten lineEnd (layoutLines label task) s) :
    SaysCompleted s ↔ ∃ part ∈ task.title :: task.files, SaysCompleted part.toList := by
  have hmarks : ∀ mark ∈ drainedMarks,
      (mark <:+: s ↔ ∃ part ∈ task.title :: task.files, mark <:+: part.toList) := by
    have hlabel : 'A' ∉ label.chars ∧ '🎉' ∉ label.chars := by
      cases label <;> decide
    refine List.forall_mem_cons.mpr ⟨?_, List.forall_mem_singleton.mpr ?_⟩
    · exact infix_written htask hs rfl (by decide) (by decide) (by decide) (by decide) hlabel.1
        (by decide) (by decide)
    · exact infix_written htask hs rfl (by decide) (by decide) (by decide) (by decide) hlabel.2
        (by decide) (by decide)
  constructor
  · rintro ⟨mark, hmark, hin⟩
    obtain ⟨part, hpart, hinPart⟩ := (hmarks mark hmark).mp hin
    exact ⟨part, hpart, mark, hmark, hinPart⟩
  · rintro ⟨part, hpart, mark, hmark, hin⟩
    exact ⟨mark, hmark, (hmarks mark hmark).mpr ⟨part, hpart, hin⟩⟩

/-! ### Identifiers -/

/-- Where an identifier is looked for before the line that names the task: behind a label, and in a
part of the reply. The longer label goes before the shorter one, wherever the two stand. -/
def earlierPlaces (label : IdLabel) (task : Task) : List (IdLabel × String) :=
  match label with
  | .long => [(.long, task.title)]
  | .short => (.long, task.title) :: task.files.map (IdLabel.long, ·) ++ [(.short, task.title)]

/-- What is found at a place. -/
def idAt? (place : IdLabel × String) : Option (List Char) :=
  leftmost (idAfter? place.1.chars) place.2.toList

/-- The title or a file holds an identifier that is found before the task's own. -/
def Rivals (label : IdLabel) (task : Task) (id : List Char) : Prop :=
  ∃ before place after, earlierPlaces label task = before ++ place :: after ∧
    FirstIn (Identifies place.1) place.2.toList id ∧
    ∀ other ∈ before, ¬ SomewhereIn (Identifies other.1) other.2.toList

theorem findSome?_idAt?_eq_some_iff {id : List Char} :
    (earlierPlaces label task).findSome? idAt? = some id ↔ Rivals label task id := by
  simp only [List.findSome?_eq_some_iff, idAt?, leftmost_eq_some_iff idAfter?_eq_some_iff,
    leftmost_eq_none_iff idAfter?_eq_some_iff, Rivals]

theorem leftmost_idLine (htask : task.IsPlain) (label : IdLabel) :
    leftmost (idAfter? label.chars) (idLine label task) = some task.id.toList := by
  obtain ⟨digits, hne, hall, hdigits⟩ := htask.id
  refine leftmost_of_read ((idAfter?_eq_some_iff _ _).mpr ?_)
  exact ⟨_, [], (List.append_nil _).symm, ⟨rfl, digits, hdigits, hne, hall⟩, by simp⟩

theorem leftmost_long_idLine_short (htask : task.IsPlain) :
    leftmost (idAfter? IdLabel.long.chars) (idLine .short task) = none := by
  obtain ⟨digits, -, hall, hdigits⟩ := htask.id
  -- Both labels start with asterisks, so the shorter one is gone through place by place.
  have hskip (rest : List Char) : leftmost (idAfter? IdLabel.long.chars)
      (IdLabel.short.chars ++ rest) = leftmost (idAfter? IdLabel.long.chars) rest := rfl
  have hstar : '*' ∉ task.id.toList := by
    rw [hdigits]
    intro hmem
    rcases List.mem_append.mp hmem with hmem | hmem
    · exact absurd hmem (by decide)
    · exact absurd (hall _ hmem) (by decide)
  rw [idLine, hskip]
  exact (idAfter?_confined .long).leftmost_eq_none hstar

theorem id?_written (htask : task.IsPlain) (hs : IsWritten lineEnd (layoutLines label task) s) :
    id? s = some (((earlierPlaces label task).findSome? idAt?).getD task.id.toList) := by
  have hfound (other : IdLabel) : leftmost (idAfter? other.chars) s =
      ((idAt? (other, task.title)).or (leftmost (idAfter? other.chars) (idLine label task))).or
        (task.files.findSome? fun file => idAt? (other, file)) :=
    leftmost_written (idAfter?_confined other) (by decide) (by decide)
      (by cases other <;> rfl) hs
  change (leftmost (idAfter? IdLabel.long.chars) s).or
    (leftmost (idAfter? IdLabel.short.chars) s) = _
  rw [hfound .long, hfound .short]
  -- What is found in the line of the identifier hides all that stands behind it.
  cases label with
  | long =>
      rw [leftmost_idLine htask, earlierPlaces, List.findSome?_singleton]
      cases idAt? (.long, task.title) <;> rfl
  | short =>
      rw [leftmost_long_idLine_short htask, leftmost_idLine htask, earlierPlaces, List.cons_append,
        List.findSome?_cons, List.findSome?_append, List.findSome?_map, List.findSome?_singleton]
      cases idAt? (.long, task.title) with
      | some id => rfl
      | none =>
          change (Option.or none (task.files.findSome? (idAt? ∘ (IdLabel.long, ·)))).or _ = _
          cases task.files.findSome? (idAt? ∘ (IdLabel.long, ·)) with
          | some id => rfl
          | none => cases idAt? (.short, task.title) <;> rfl

/-! ### Title and files -/

/-- The title is all that stands behind its label in the first line. -/
theorem title?_of_firstLine {front : List Char} {more : List (List Char)} (hne : front ≠ [])
    (hfeed : '\n' ∉ front) (hlines : feedLines s = ("# Next Task: ".toList ++ front) :: more) :
    title? s = some front := by
  have hread : lineAfter? "# Next Task: ".toList ("# Next Task: ".toList ++ front) = some front :=
    lineAfter?_eq_some_iff.mpr
      ⟨[], by rw [List.append_nil], hne, fun c hc => by simpa using ne_of_mem_of_not_mem hc hfeed,
        by simp⟩
  rw [title?, titleOf?, hlines, List.findSome?_cons, List.findSome?_cons, hread]
  rfl

theorem strip_title?_written (htask : task.IsPlain)
    (hs : IsWritten lineEnd (layoutLines label task) s) :
    strip ((title? s).getD []) = task.title.toList := by
  have htitle := htask.title.isValue
  have hlabel : '\n' ∉ "# Next Task: ".toList := by decide
  have hline : '\n' ∉ titleLine task := List.not_mem_append hlabel htitle.unbroken
  obtain ⟨rest, rfl, hrest⟩ := hs.exists_endsLine
  -- A carriage return is taken for the end of the title, and stripped from it.
  obtain ⟨tail, more, htail, hlines⟩ := feedLines_of_endsLine hline hrest
  have hfirst : feedLines (titleLine task ++ rest) =
      ("# Next Task: ".toList ++ (task.title.toList ++ tail)) :: more :=
    hlines.trans (congrArg (· :: more) (List.append_assoc _ _ _))
  have hne : task.title.toList ++ tail ≠ [] := List.append_ne_nil_of_left_ne_nil htitle.ne_nil tail
  rw [title?_of_firstLine hne (not_mem_append_tail htitle.unbroken htail) hfirst, Option.getD_some,
    htitle.strip_append htail]

theorem idLine_tidy (htask : task.IsPlain) (label : IdLabel) :
    TaskQueue.Tidy (idLine label task) := by
  obtain ⟨digits, hne, hall, hdigits⟩ := htask.id
  have hid : OneLine task.id.toList := by
    rw [hdigits]
    exact OneLine.append (by decide) fun c hc => isBoundary_of_isDigit (hall c hc)
  refine ⟨OneLine.append (by cases label <;> decide) hid, strip_eq_self_iff.mpr ⟨?_, ?_⟩⟩
  · cases label <;> rintro c ⟨⟩ <;> decide
  · intro c hc
    rw [idLine, hdigits, ← List.append_assoc, List.getLast?_append_of_ne_nil _ hne] at hc
    exact isBlank_of_isDigit (hall c (List.mem_of_getLast? hc))

theorem layoutLines_tidy (htask : task.IsPlain) (label : IdLabel) :
    ∀ line ∈ layoutLines label task, TaskQueue.Tidy line := by
  refine List.forall_mem_cons.mpr ⟨?_, List.forall_mem_cons.mpr ⟨⟨by decide, rfl⟩, ?_⟩⟩
  · exact TaskQueue.tidy_append_field (by decide) (by decide) htask.title
  · exact List.forall_mem_cons.mpr ⟨idLine_tidy htask label,
      TaskQueue.fileLines_tidy .short htask.files⟩

theorem filesOf_layoutLines (htask : task.IsPlain) (label : IdLabel) :
    filesOf (layoutLines label task) = task.files := by
  have hid : TaskQueue.opensFiles (idLine label task) = false := by
    cases label <;> rfl
  have htitle : TaskQueue.opensFiles (titleLine task) = false := rfl
  have hfiles : filesOf (fileLines .short task.files) = task.files := by
    unfold fileLines
    split
    · next hempty =>
        rw [List.isEmpty_iff.mp hempty]
        rfl
    · have hleading := TaskQueue.leadingFiles_fileLines htask.files []
      rw [List.append_nil] at hleading
      rw [filesOf, TaskQueue.opensFiles_heading, if_pos rfl, hleading]
      exact List.append_nil _
  rw [layoutLines, filesOf, htitle]
  change filesOf (idLine label task :: fileLines .short task.files) = task.files
  rw [filesOf, hid]
  exact hfiles

/-! ### The whole reply -/

/-- Where no mark is found, only the identifier may be another one. -/
theorem decode_written {text : String} (htask : task.IsPlain) (hstatus : task.status = .pending)
    (htext : IsWritten lineEnd (layoutLines label task) text.toList)
    (hmark : ∀ part ∈ task.title :: task.files, ¬ SaysCompleted part.toList) :
    decode text = .pending { task with
      id := String.ofList (((earlierPlaces label task).findSome? idAt?).getD task.id.toList) }
        text := by
  have htidy := layoutLines_tidy htask label
  have hlines : TaskQueue.strippedLines text.toList = layoutLines label task := by
    rw [TaskQueue.strippedLines, htext.printedLines fun line hline => (htidy line hline).1,
      List.map_congr_left fun line hline => (htidy line hline).2, List.map_id']
  have hunmarked : ¬ drainedMarks.any (fun mark => occursIn mark text.toList) = true := by
    rw [any_occursIn_iff, saysCompleted_written htask htext]
    rintro ⟨part, hpart, hsays⟩
    exact hmark part hpart hsays
  simp only [decode, if_neg hunmarked, id?_written htask htext, strip_title?_written htask htext,
    hlines, filesOf_layoutLines htask, String.ofList_toList, hstatus]

/-- The last line of the layout is not empty: it is that of the identifier or a file. -/
theorem exists_last_line (label : IdLabel) (task : Task) :
    ∃ init last, layoutLines label task = init ++ [last] ∧ last ≠ [] := by
  rcases List.eq_nil_or_concat task.files with hnone | ⟨before, file, hfiles⟩
  · refine ⟨[titleLine task, []], idLine label task, ?_, ?_⟩
    · rw [layoutLines, hnone]
      rfl
    · cases label <;> exact List.cons_ne_nil '*' _
  · refine ⟨titleLine task :: [] :: idLine label task :: FilesHeading.short.line ::
      before.map fileLine, fileLine file, ?_, List.cons_ne_nil '-' _⟩
    simp [layoutLines, fileLines, hfiles]

/-- A pending task that is written down is read back with its title and its files, and the text is
the prompt, unless its title or one of its files says that all tasks are completed: then the queue
is taken to be drained. The identifier is the task's own unless another one is found before it in
the title or in a file. This holds for either label, for either line end, and with or without one
after the last line. -/
theorem decode_named_task {text : String} (htask : task.IsPlain) (hstatus : task.status = .pending)
    (htext : text = layout label lineEnd task ∨
      text ++ String.ofList lineEnd.chars = layout label lineEnd task) :
    ((∃ part ∈ task.title :: task.files, SaysCompleted part.toList) → decode text = .drained) ∧
    ((∀ part ∈ task.title :: task.files, ¬ SaysCompleted part.toList) →
      (∃ id, decode text = .pending { task with id } text) ∧
      ((∀ id, Rivals label task id → id = task.id.toList) →
        decode text = .pending task text)) := by
  have hwritten : IsWritten lineEnd (layoutLines label task) text.toList :=
    isWritten_of_join (exists_last_line label task) htext
  refine ⟨?_, ?_⟩
  · intro hmark
    have hsays := (saysCompleted_written htask hwritten).mpr hmark
    simp only [decode, if_pos ((any_occursIn_iff text.toList).mpr hsays)]
  · intro hmark
    have hdecode := decode_written htask hstatus hwritten hmark
    refine ⟨⟨_, hdecode⟩, ?_⟩
    intro hrival
    have hid : ((earlierPlaces label task).findSome? idAt?).getD task.id.toList =
        task.id.toList := by
      cases hfound : (earlierPlaces label task).findSome? idAt? with
      | none => rfl
      | some id => exact hrival id (findSome?_idAt?_eq_some_iff.mp hfound)
    rw [hdecode, hid, String.ofList_toList]

/-- Labels, titles and headings stand in the title and in the files; the one identifier among them
that is read is the task's own. -/
def entangled : Task :=
  ⟨"task-7", "**ID**: task-7, not **Task ID**: task-x", .pending,
    ["**ID**: task-9", "# Next Task: y", " ", "**Files**:"]⟩

theorem entangled_isPlain : entangled.IsPlain := by
  have hfiles : ∀ file ∈ entangled.files,
      file.toList ≠ [] ∧ '\x60' ∉ file.toList ∧ OneLine file.toList := by decide
  refine ⟨⟨['7'], by decide, List.all_eq_true.mp (by decide), by decide⟩,
    ⟨by decide, by decide, by decide⟩, ?_⟩
  intro file hfile
  obtain ⟨hne, hquote, hline⟩ := hfiles file hfile
  exact ⟨hne, hquote, hline⟩

/-- A task that is still to be done, with a mark in its title. -/
def festive : Task := ⟨"task-1", "Ship it 🎉", .pending, []⟩

theorem festive_isPlain : festive.IsPlain := by
  refine ⟨⟨['1'], by decide, List.all_eq_true.mp (by decide), by decide⟩,
    ⟨by decide, by decide, by decide⟩, ?_⟩
  exact fun file hfile => absurd hfile List.not_mem_nil

theorem decode_named_task_entangled :
    ((∀ part ∈ entangled.title :: entangled.files, ¬ SaysCompleted part.toList) ∧
      (∀ id, Rivals .short entangled id → id = entangled.id.toList) ∧
      decode (layout .short .returnAndFeed entangled) =
        .pending entangled (layout .short .returnAndFeed entangled)) ∧
    (∃ part ∈ festive.title :: festive.files, SaysCompleted part.toList) ∧
      decode (layout .long .feed festive) = .drained := by
  have hunmarked : ∀ part ∈ entangled.title :: entangled.files, ¬ SaysCompleted part.toList := by
    simp only [← any_occursIn_iff]
    decide
  have hrival : ∀ id, Rivals .short entangled id → id = entangled.id.toList := by
    intro id hid
    have hfound := findSome?_idAt?_eq_some_iff.mpr hid
    have hown : (earlierPlaces .short entangled).findSome? idAt? = some entangled.id.toList := rfl
    exact Option.some.inj (hfound.symm.trans hown)
  have hmarked : ∃ part ∈ festive.title :: festive.files, SaysCompleted part.toList :=
    ⟨festive.title, List.mem_cons_self, (any_occursIn_iff _).mp (by decide)⟩
  refine ⟨⟨hunmarked, hrival, ?_⟩, hmarked, ?_⟩
  · exact ((decode_named_task entangled_isPlain rfl (Or.inl rfl)).2 hunmarked).2 hrival
  · exact (decode_named_task festive_isPlain rfl (Or.inl rfl)).1 hmarked

/-- Not every pending task is read as that task. -/
theorem decode_festive :
    festive.IsPlain ∧ festive.status = .pending ∧ decode (layout .short .feed festive) = .drained ∧
      decode (layout .short .feed festive) ≠ .pending festive (layout .short .feed festive) := by
  have hdrained : decode (layout .short .feed festive) = .drained := rfl
  refine ⟨festive_isPlain, rfl, hdrained, ?_⟩
  rw [hdrained]
  exact NextTask.noConfusion

end Conductor.Reply.NextTask
