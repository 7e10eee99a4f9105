import Conductor.Proofs.Reply.Count
import Conductor.Reply.Layout

/-!
The status of a workflow is read back from its layout. Nine searches go over one text, and each of
them has to reach the line of its own field. A search passes over an earlier line because nothing it
looks for can start in the label of that line, and because the value of that line lacks a mark which
every finding holds.
-/

namespace Conductor.Reply.WorkflowStatus

open Text

variable {α : Type} {bullet : Bool} {lineEnd : LineEnd} {status : WorkflowStatus} {text : String}
  {s rest : List Char}

/-! ### Plain statuses -/

def idMark : List Char := "# Workflow Status: ".toList

def nameMark : List Char := "**Name**: ".toList

def phaseMark : List Char := "**Current Phase**: ".toList

def nextMark : List Char := "Suggested next phase: **".toList

def transitionsMark : List Char := " transitions recorded".toList

/-- What free text in a status must not hold. -/
def marks : List (List Char) := [phaseMark, nextMark, transitionsMark]

/-- Free text of a status: the rest of a line, without marks. -/
structure IsFree (s : List Char) : Prop extends IsValue s where
  unmarked : ∀ mark ∈ marks, ¬ mark <:+: s

instance (s : List Char) : Decidable (IsFree s) :=
  decidable_of_iff (IsValue s ∧ ∀ mark ∈ marks, ¬ mark <:+: s)
    ⟨fun ⟨hvalue, hunmarked⟩ => ⟨hvalue, hunmarked⟩, fun h => ⟨h.toIsValue, h.unmarked⟩⟩

/-- A text of characters of one class. -/
structure IsRun (p : Char → Bool) (s : List Char) : Prop where
  ne_nil : s ≠ []
  chars : ∀ c ∈ s, p c = true

/-- A status as it can be laid out. -/
structure IsPlain (status : WorkflowStatus) : Prop where
  id : IsRun (fun c => !isBlank c) status.id.toList
  name : IsFree status.name.toList
  currentPhase : IsRun isWordChar status.currentPhase.toList
  nextPhase : IsRun isWordChar status.nextPhase.toList
  transitions : (Nat.toDigits 10 status.transitions).length ≤ maxDigits
  artifacts : ∀ kind, ∀ value ∈ status.artifact kind,
    IsFree value.toList ∧ ¬ "(none)".toList <:+: value.toList

/-- The text is a layout of the status. Lines that say nothing may stand anywhere in it, and the end
of the last line may be missing. -/
def IsLayout (bullet : Bool) (lineEnd : LineEnd) (status : WorkflowStatus) (text : String) : Prop :=
  ∃ lines, lines.filter (fun line => !isSpacing line) = layoutLines bullet status ∧
    (text = String.ofList (lineEnd.join lines) ∨
      text ++ String.ofList lineEnd.chars = String.ofList (lineEnd.join lines))

/-! ### Values -/

theorem IsRun.not_mem {p : Char → Bool} {c : Char} (hs : IsRun p s) (hc : p c = false) : c ∉ s := by
  intro hmem
  cases hc.symm.trans (hs.chars c hmem)

theorem isFree_none : IsFree "(none)".toList := by decide

theorem isFree_artifactField (hplain : status.IsPlain) (kind : Artifact) :
    IsFree (artifactField bullet status kind).2 := by
  unfold artifactField
  cases hvalue : status.artifact kind with
  | none => exact isFree_none
  | some value => exact (hplain.artifacts kind value hvalue).1

/-- A value before the last is one word, or it is free text. -/
theorem value_cases (hplain : status.IsPlain) :
    ∀ field ∈ (layoutFields bullet status).take 8,
      (' ' ∉ field.2 ∧ '\n' ∉ field.2) ∨ IsFree field.2 := by
  have hartifact (kind : Artifact) : IsFree (artifactField bullet status kind).2 :=
    isFree_artifactField hplain kind
  simp only [layoutFields, List.take_succ_cons, List.take_zero, List.forall_mem_cons]
  refine ⟨Or.inl ⟨?_, ?_⟩, Or.inr hplain.name, Or.inl ⟨?_, ?_⟩, Or.inr (hartifact .spec),
    Or.inr (hartifact .plan), Or.inr (hartifact .tasks), Or.inr (hartifact .verification),
    Or.inl ?_, by simp⟩
  · exact hplain.id.not_mem (by decide)
  · exact hplain.id.not_mem (by decide)
  · exact hplain.currentPhase.not_mem (by decide)
  · exact hplain.currentPhase.not_mem (by decide)
  · simp only [List.mem_append, not_or]
    exact ⟨⟨hplain.nextPhase.not_mem (by decide), by decide⟩,
      hplain.nextPhase.not_mem (by decide), by decide⟩

theorem unmarked_of_mem (hplain : status.IsPlain) {mark : List Char} (hmark : mark ∈ marks) :
    ∀ field ∈ (layoutFields bullet status).take 8, ¬ mark <:+: field.2 := by
  intro field hfield
  rcases value_cases hplain field hfield with ⟨hspace, -⟩ | hfree
  · have hspaces : ∀ mark ∈ marks, ' ' ∈ mark := by decide
    exact fun hholds => hspace (hholds.subset (hspaces mark hmark))
  · exact hfree.unmarked mark hmark

/-! ### Reaching a line -/

/-- The way to a line leads over the lines of earlier fields, and over lines that say nothing. -/
theorem IsLayout.reach (h : IsLayout bullet lineEnd status text) {k : Nat}
    {field : List Char × List Char} (hfield : (layoutFields bullet status)[k]? = some field) :
    ∃ before rest, text.toList = lineEnd.join before ++ (field.1 ++ (field.2 ++ rest)) ∧
      (∀ line ∈ before, isSpacing line = true ∨
        ∃ earlier ∈ (layoutFields bullet status).take k, line = earlier.1 ++ earlier.2) ∧
      EndsLine rest := by
  obtain ⟨lines, hlines, htext⟩ := h
  obtain ⟨hk, rfl⟩ := List.getElem?_eq_some_iff.mp hfield
  rw [layoutLines, ← List.take_append_drop k (layoutFields bullet status),
    ← List.getElem_cons_drop hk, List.map_append, List.map_cons] at hlines
  obtain ⟨earlier, later, rfl, hearlier, hlater⟩ := List.filter_eq_append_iff.mp hlines
  obtain ⟨gap, after, rfl, hgap, -, -⟩ := List.filter_eq_cons_iff.mp hlater
  rw [← List.append_assoc] at htext
  obtain ⟨rest, htext, hrest⟩ := exists_endsLine_of_join htext
  refine ⟨earlier ++ gap, rest, htext.trans (congrArg _ (List.append_assoc ..)), ?_, hrest⟩
  intro line hline
  rcases List.mem_append.mp hline with hmem | hmem
  · by_cases hspacing : isSpacing line = true
    · exact Or.inl hspacing
    · have hkept : line ∈ earlier.filter fun line => !isSpacing line :=
        List.mem_filter.mpr ⟨hmem, by simpa using hspacing⟩
      rw [hearlier] at hkept
      obtain ⟨field, hfield, rfl⟩ := List.mem_map.mp hkept
      exact Or.inr ⟨field, hfield, rfl⟩
  · exact Or.inl (by simpa using hgap line hmem)

def labels (bullet : Bool) : List (List Char) :=
  [idMark, nameMark, phaseMark, artifactLabel bullet .spec, artifactLabel bullet .plan,
    artifactLabel bullet .tasks, artifactLabel bullet .verification, nextMark, []]

theorem map_fst_layoutFields (bullet : Bool) (status : WorkflowStatus) :
    (layoutFields bullet status).map Prod.fst = labels bullet := rfl

theorem label_mem_take {k : Nat} {field : List Char × List Char}
    (hfield : field ∈ (layoutFields bullet status).take k) :
    field.1 ∈ (labels bullet).take k := by
  rw [← map_fst_layoutFields bullet status, ← List.map_take]
  exact List.mem_map_of_mem hfield

theorem labels_plain (bullet : Bool) :
    ∀ label ∈ labels bullet, ∀ c ∈ label, c ≠ '\n' ∧ isDigit c = false := by
  have hlatin : ∀ label ∈ labels bullet,
      label.all fun c => c ≠ '\n' ∧ c.toNat < 0x660 ∧ c.isDigit = false := by
    cases bullet <;> decide +kernel
  intro label hlabel c hc
  obtain ⟨hfeed, hlow, hdigit⟩ :=
    of_decide_eq_true (List.all_eq_true.mp (hlatin label hlabel) c hc)
  exact ⟨hfeed, isDigit_eq_false hlow hdigit⟩

theorem isSpacing_iff {line : List Char} :
    isSpacing line = true ↔ line = [] ∨ line = "## Artifacts".toList := by
  rw [isSpacing, Bool.or_eq_true, List.isEmpty_iff, beq_iff_eq]

/-- No line can end inside the mark, and no line that says nothing holds it. -/
structure IsMark (mark : List Char) : Prop where
  noFeed : '\n' ∉ mark
  noReturn : '\r' ∉ mark
  noSpacing : ¬ mark <:+: [] ∧ ¬ mark <:+: "## Artifacts".toList

/-- The search stays on a line, and all that it can find holds the mark. -/
structure Seeks (read : List Char → Option α) (mark : List Char) : Prop where
  isMark : IsMark mark
  bounded : Bounded (· == '\n') read
  holds : ∀ here a, read here = some a → mark <:+: here

/-- A search comes to the line of a field if nothing starts in the labels of the earlier ones, and
their values lack the mark. -/
theorem IsLayout.leftmost_eq (h : IsLayout bullet lineEnd status text) {k : Nat}
    {field : List Char × List Char} (hfield : (layoutFields bullet status)[k]? = some field)
    {read : List Char → Option α} {mark : List Char} (hread : Seeks read mark)
    (hlabels : ∀ label ∈ (labels bullet).take k, StartsNowhere read label)
    (hvalues : ∀ earlier ∈ (layoutFields bullet status).take k, ¬ mark <:+: earlier.2) :
    ∃ rest, EndsLine rest ∧
      leftmost read text.toList = leftmost read (field.1 ++ (field.2 ++ rest)) := by
  obtain ⟨before, rest, htext, hbefore, hrest⟩ := h.reach hfield
  refine ⟨rest, hrest, ?_⟩
  rw [htext]
  refine hread.bounded.leftmost_behind (fun line hline => ?_) _
  rcases hbefore line hline with hspacing | ⟨earlier, hearlier, rfl⟩
  · have hunmarked : ¬ mark <:+: line := by
      rcases isSpacing_iff.mp hspacing with rfl | rfl
      · exact hread.isMark.noSpacing.1
      · exact hread.isMark.noSpacing.2
    exact leftmost_line_eq_none hread.holds hread.isMark.noReturn (startsNowhere_nil read)
      hunmarked lineEnd
  · exact leftmost_line_eq_none hread.holds hread.isMark.noReturn
      (hlabels _ (label_mem_take hearlier)) (hvalues earlier hearlier) lineEnd

/-! ### The searches -/

theorem isMark_of_mem : ∀ mark ∈ idMark :: nameMark :: marks, IsMark mark := by
  have hmarks : ∀ mark ∈ idMark :: nameMark :: marks, '\n' ∉ mark ∧ '\r' ∉ mark ∧ ¬ mark <:+: [] ∧
      ¬ mark <:+: "## Artifacts".toList := by decide +kernel
  intro mark hmark
  obtain ⟨hfeed, hreturn, hspacing⟩ := hmarks mark hmark
  exact ⟨hfeed, hreturn, hspacing⟩

theorem IsMark.ne_feed {mark : List Char} (h : IsMark mark) : ∀ c ∈ mark, (c == '\n') = false :=
  fun _ hc => beq_eq_false_iff_ne.mpr (ne_of_mem_of_not_mem hc h.noFeed)

/-- What reads a run after a mark seeks the mark. -/
theorem seeks_runAfter {read : List Char → Option (List Char)} {p : Char → Bool} {mark : List Char}
    (hread : ∀ here run, read here = some run ↔ RunAfter p mark here run) (hmark : IsMark mark)
    (hp : p '\n' = false) : Seeks read mark := by
  refine ⟨hmark, bounded_of_runAfter hread hmark.ne_feed ?_, ?_⟩
  · intro c hc
    rw [eq_of_beq hc, hp]
  · intro here run hrun
    exact ((hread here run).mp hrun).startsWith.isInfix

/-- No mark can start in a label before its own. -/
theorem avoids_labels (bullet : Bool) :
    (∀ label ∈ (labels bullet).take 1, Avoids nameMark label) ∧
    (∀ label ∈ (labels bullet).take 2, Avoids phaseMark label) ∧
    ∀ label ∈ (labels bullet).take 7, Avoids nextMark label := by
  cases bullet <;> decide +kernel

theorem leftmost_id (hplain : status.IsPlain) (h : IsLayout bullet lineEnd status text) :
    leftmost (tokenAfter? idMark) text.toList = some status.id.toList := by
  have hseeks : Seeks (tokenAfter? idMark) idMark :=
    seeks_runAfter (fun _ _ => tokenAfter?_eq_some_iff) (isMark_of_mem _ (by simp)) (by decide)
  have hfield : (layoutFields bullet status)[0]? = some (idMark, status.id.toList) := rfl
  obtain ⟨rest, hrest, hsearch⟩ := h.leftmost_eq hfield hseeks (by simp) (by simp)
  rw [hsearch]
  refine leftmost_of_read (tokenAfter?_eq_some_iff.mpr
    ⟨rest, rfl, hplain.id.ne_nil, hplain.id.chars, ?_⟩)
  intro c hc
  rcases hrest.head c hc with rfl | rfl <;> decide

theorem field?_name (hplain : status.IsPlain) (h : IsLayout bullet lineEnd status text) :
    field? nameMark text.toList = some status.name.toList := by
  have hseeks : Seeks (lineAfter? nameMark) nameMark :=
    seeks_runAfter (fun _ _ => lineAfter?_eq_some_iff) (isMark_of_mem _ (by simp)) (by decide)
  have hfield : (layoutFields bullet status)[1]? = some (nameMark, status.name.toList) := rfl
  have hspace : ' ' ∈ nameMark := by decide
  have hid : ¬ nameMark <:+: status.id.toList := fun hholds =>
    hplain.id.not_mem (by decide) (hholds.subset hspace)
  obtain ⟨rest, hrest, hsearch⟩ := h.leftmost_eq hfield hseeks
    (fun label hlabel => startsNowhere_of_avoids
      (fun _ _ hread => (lineAfter?_eq_some_iff.mp hread).startsWith)
      ((avoids_labels bullet).1 label hlabel))
    (by simpa [layoutFields] using hid)
  rw [field?, hsearch, ← field?, field?_append nameMark hplain.name.toIsValue hrest]

/-- What is marked can be found behind all other values. -/
theorem IsLayout.leftmost_mark (h : IsLayout bullet lineEnd status text) (hplain : status.IsPlain)
    {k : Nat} (hk : k ≤ 8) {field : List Char × List Char}
    (hfield : (layoutFields bullet status)[k]? = some field) {read : List Char → Option α}
    {mark : List Char} (hmark : mark ∈ marks) (hread : Seeks read mark)
    (hlabels : ∀ label ∈ (labels bullet).take k, StartsNowhere read label) :
    ∃ rest, EndsLine rest ∧
      leftmost read text.toList = leftmost read (field.1 ++ (field.2 ++ rest)) :=
  h.leftmost_eq hfield hread hlabels fun earlier hearlier =>
    unmarked_of_mem hplain hmark earlier (List.take_subset_take_left _ hk hearlier)

theorem leftmost_currentPhase (hplain : status.IsPlain) (h : IsLayout bullet lineEnd status text) :
    leftmost (wordAfter? phaseMark) text.toList = some status.currentPhase.toList := by
  have hseeks : Seeks (wordAfter? phaseMark) phaseMark :=
    seeks_runAfter (fun _ _ => wordAfter?_eq_some_iff) (isMark_of_mem _ (by simp [marks]))
      (by decide)
  have hfield : (layoutFields bullet status)[2]? =
      some (phaseMark, status.currentPhase.toList) := rfl
  obtain ⟨rest, hrest, hsearch⟩ := h.leftmost_mark hplain (by decide) hfield (by simp [marks])
    hseeks fun label hlabel => startsNowhere_of_avoids
      (fun _ _ hread => (wordAfter?_eq_some_iff.mp hread).startsWith)
      ((avoids_labels bullet).2.1 label hlabel)
  rw [hsearch]
  refine leftmost_of_read (wordAfter?_eq_some_iff.mpr
    ⟨rest, rfl, hplain.currentPhase.ne_nil, hplain.currentPhase.chars, ?_⟩)
  intro c hc
  rcases hrest.head c hc with rfl | rfl <;> decide

/-- The suggested phase: a word between the mark and two asterisks. -/
theorem nextPhaseHere?_eq_some_iff {here word : List Char} :
    nextPhaseHere? here = some word ↔
      IsRun isWordChar word ∧ nextMark ++ (word ++ "**".toList) <+: here := by
  constructor
  · intro hhere
    obtain ⟨entry, hmark, hafterMark⟩ := Option.bind_eq_some_iff.mp hhere
    obtain ⟨⟨run, _⟩, hrun, hafterRun⟩ := Option.bind_eq_some_iff.mp hafterMark
    obtain ⟨rest, hstars, hsame⟩ := Option.bind_eq_some_iff.mp hafterRun
    cases hsame
    obtain ⟨rfl, hne, hall, -⟩ := run?_eq_some_iff.mp hrun
    obtain rfl := after?_eq_some_iff.mp hstars
    obtain rfl := after?_eq_some_iff.mp hmark
    refine ⟨⟨hne, hall⟩, rest, (List.append_assoc ..).trans ?_⟩
    exact congrArg (nextMark ++ ·) (List.append_assoc ..)
  · rintro ⟨hword, rest, rfl⟩
    have hassoc : nextMark ++ (word ++ "**".toList) ++ rest =
        nextMark ++ (word ++ ("**".toList ++ rest)) :=
      (List.append_assoc ..).trans (congrArg (nextMark ++ ·) (List.append_assoc ..))
    have hstars : ∀ c ∈ ("**".toList ++ rest).head?, isWordChar c = false := by
      rintro c ⟨⟩
      decide
    rw [hassoc]
    unfold nextPhaseHere? nextMark
    simp only [after?_append, Option.bind_eq_bind, Option.bind_some,
      run?_append hword.ne_nil hword.chars hstars]
    rfl

theorem seeks_nextPhase : Seeks nextPhaseHere? nextMark := by
  have hmark : IsMark nextMark := isMark_of_mem _ (by simp [marks])
  have hfront : ∀ here word, nextPhaseHere? here = some word ↔
      ∃ front, (front = nextMark ++ (word ++ "**".toList) ∧ IsRun isWordChar word) ∧
        front <+: here := by
    intro here word
    rw [nextPhaseHere?_eq_some_iff]
    constructor
    · rintro ⟨hword, hhere⟩
      exact ⟨_, ⟨rfl, hword⟩, hhere⟩
    · rintro ⟨front, ⟨rfl, hword⟩, hhere⟩
      exact ⟨hword, hhere⟩
  refine ⟨hmark, bounded_of_open_front hfront ?_, ?_⟩
  · rintro front word ⟨rfl, hword⟩
    refine ⟨List.append_ne_nil_of_left_ne_nil (by decide) _, ?_⟩
    intro c hc
    rw [List.mem_append, List.mem_append] at hc
    rcases hc with hmem | hmem | hmem
    · exact hmark.ne_feed c hmem
    · refine beq_eq_false_iff_ne.mpr (ne_of_mem_of_not_mem hmem ?_)
      exact hword.not_mem (by decide)
    · have hstars : '\n' ∉ "**".toList := by decide
      exact beq_eq_false_iff_ne.mpr (ne_of_mem_of_not_mem hmem hstars)
  · intro here word hhere
    exact ((List.prefix_append ..).trans (nextPhaseHere?_eq_some_iff.mp hhere).2).isInfix

theorem leftmost_nextPhase (hplain : status.IsPlain) (h : IsLayout bullet lineEnd status text) :
    leftmost nextPhaseHere? text.toList = some status.nextPhase.toList := by
  have hfield : (layoutFields bullet status)[7]? =
      some (nextMark, status.nextPhase.toList ++ "**".toList) := rfl
  obtain ⟨rest, -, hsearch⟩ := h.leftmost_mark hplain (by decide) hfield (by simp [marks])
    seeks_nextPhase fun label hlabel => startsNowhere_of_avoids
      (fun _ _ hread => (List.prefix_append ..).trans (nextPhaseHere?_eq_some_iff.mp hread).2)
      ((avoids_labels bullet).2.2 label hlabel)
  rw [hsearch]
  refine leftmost_of_read (nextPhaseHere?_eq_some_iff.mpr ⟨hplain.nextPhase, rest, ?_⟩)
  exact List.append_assoc ..

theorem seeks_transitions : Seeks transitionsHere? transitionsMark := by
  have hmark : IsMark transitionsMark := isMark_of_mem _ (by simp [marks])
  have hfront : ∀ here digits, transitionsHere? here = some digits ↔
      ∃ front, (front = digits ++ transitionsMark ∧ digits ≠ [] ∧ ∀ c ∈ digits, isDigit c = true) ∧
        front <+: here := by
    intro here digits
    rw [transitionsHere?_eq_some_iff]
    constructor
    · rintro ⟨rest, rfl, hdigits⟩
      exact ⟨_, ⟨rfl, hdigits⟩, rest, List.append_assoc ..⟩
    · rintro ⟨front, ⟨rfl, hdigits⟩, rest, rfl⟩
      exact ⟨rest, List.append_assoc .., hdigits⟩
  refine ⟨hmark, bounded_of_open_front hfront ?_, ?_⟩
  · rintro front digits ⟨rfl, hne, hdigits⟩
    refine ⟨List.append_ne_nil_of_left_ne_nil hne _, ?_⟩
    intro c hc
    rcases List.mem_append.mp hc with hmem | hmem
    · refine beq_eq_false_iff_ne.mpr ?_
      rintro rfl
      cases hdigits _ hmem
    · exact hmark.ne_feed c hmem
  · intro here digits hhere
    obtain ⟨rest, rfl, -⟩ := transitionsHere?_eq_some_iff.mp hhere
    exact ⟨digits, rest, List.append_assoc ..⟩

/-- No label holds a digit, with which a count would have to start. -/
theorem startsNowhere_transitions (bullet : Bool) :
    ∀ label ∈ labels bullet, StartsNowhere transitionsHere? label := by
  intro label hlabel
  refine startsNowhere_of_chars fun c hc rest => ?_
  refine Option.eq_none_iff_forall_ne_some.mpr fun digits hdigits => ?_
  obtain ⟨follows, hhere, hne, hall⟩ := transitionsHere?_eq_some_iff.mp hdigits
  obtain ⟨digit, more, rfl⟩ := List.exists_cons_of_ne_nil hne
  obtain ⟨rfl, -⟩ := List.cons.inj hhere
  cases (labels_plain bullet label hlabel c hc).2.symm.trans (hall c List.mem_cons_self)

theorem leftmost_transitions (hplain : status.IsPlain) (h : IsLayout bullet lineEnd status text) :
    leftmost transitionsHere? text.toList = some (Nat.toDigits 10 status.transitions) := by
  have hfield : (layoutFields bullet status)[8]? =
      some ([], Nat.toDigits 10 status.transitions ++ transitionsMark) := rfl
  obtain ⟨rest, -, hsearch⟩ := h.leftmost_mark hplain (by decide) hfield (by simp [marks])
    seeks_transitions fun label hlabel =>
      startsNowhere_transitions bullet label (List.mem_of_mem_take hlabel)
  rw [hsearch]
  exact leftmost_of_read (transitionsHere?_eq_some_iff.mpr
    ⟨rest, List.append_assoc .., Nat.toDigits_ne_nil, fun c hc => isDigit_of_mem_toDigits hc⟩)

/-! ### Files -/

/-- A label without its bullet. -/
def bare (label : List Char) : List Char := (after? "- ".toList label).getD label

/-- What follows completes no bullet if there is room for a whole one before it, or if it starts
with a line feed. -/
theorem bare_append {front rest : List Char} (h : 2 ≤ front.length ∨ rest.head? = some '\n') :
    bare (front ++ rest) = bare front ++ rest := by
  change (after? ['-', ' '] _).getD _ = (after? ['-', ' '] front).getD front ++ rest
  match front, rest with
  | c :: d :: more, rest =>
      simp only [List.cons_append, after?]
      split
      · split <;> rfl
      · rfl
  | [], c :: rest =>
      obtain rfl : c = '\n' := by simpa using h
      rfl
  | [d], c :: rest =>
      obtain rfl : c = '\n' := by simpa using h
      simp only [List.singleton_append, after?]
      split <;> rfl
  | [], [] => simp at h
  | [d], [] => simp at h

/-- A label that is long enough to show whether it has a bullet. -/
def IsLabel (label : List Char) : Prop :=
  2 ≤ label.length ∧ label.head?.any isBlank = false

instance (label : List Char) : Decidable (IsLabel label) :=
  inferInstanceAs (Decidable (_ ∧ _))

theorem valueInLine?_append (kind : Artifact) {label : List Char} (hlabel : IsLabel label)
    (s : List Char) :
    kind.valueInLine? (label ++ s) = lineAfter? kind.label (bare label ++ s) := by
  obtain ⟨hlength, hhead⟩ := hlabel
  have hstart : stripStart (label ++ s) = label ++ s := by
    cases label with
    | nil => simp at hlength
    | cons c more => exact List.dropWhile_cons_of_neg (Bool.not_eq_true _ ▸ hhead)
  rw [Artifact.valueInLine?, hstart, ← bare_append (Or.inl hlength)]
  rfl

/-- Where the fields of the files stand. -/
def position : Artifact → Nat
  | .spec => 3
  | .plan => 4
  | .tasks => 5
  | .verification => 6

theorem getElem?_position (bullet : Bool) (status : WorkflowStatus) (kind : Artifact) :
    (layoutFields bullet status)[position kind]? = some (artifactField bullet status kind) := by
  cases kind <;> rfl

/-- Up to its own field, each label shows that its line is not about this kind of file. -/
theorem foreign_labels (kind : Artifact) (bullet : Bool) :
    ∀ label ∈ (labels bullet).take (position kind),
      IsLabel label ∧ ¬ bare label <+: kind.label ∧ ¬ kind.label <+: bare label := by
  cases kind <;> cases bullet <;> decide +kernel

theorem own_label (kind : Artifact) (bullet : Bool) :
    IsLabel (artifactLabel bullet kind) ∧ bare (artifactLabel bullet kind) = kind.label := by
  cases kind <;> cases bullet <;> decide +kernel

theorem valueInLine?_foreign (kind : Artifact) {label : List Char}
    (hlabel : label ∈ (labels bullet).take (position kind)) (s : List Char) :
    kind.valueInLine? (label ++ s) = none := by
  obtain ⟨hlabel, hshort, hlong⟩ := foreign_labels kind bullet label hlabel
  rw [valueInLine?_append kind hlabel, lineAfter?_of_front hshort hlong]

theorem valueInLine?_own (kind : Artifact) {value tail : List Char} (hvalue : IsValue value)
    (htail : tail = [] ∨ tail = ['\r']) :
    kind.valueInLine? (artifactLabel bullet kind ++ value ++ tail) = some (value ++ tail) := by
  obtain ⟨hlabel, hbare⟩ := own_label kind bullet
  have hread : lineAfter? kind.label (kind.label ++ (value ++ tail ++ [])) = some (value ++ tail) :=
    lineAfter?_of_unbroken (List.append_ne_nil_of_left_ne_nil hvalue.ne_nil tail)
      (not_mem_append_tail hvalue.unbroken htail) (Or.inl rfl)
  rw [List.append_nil] at hread
  rw [List.append_assoc, valueInLine?_append kind hlabel, hbare, hread]

theorem valueInLine?_spacing (kind : Artifact) (lineEnd : LineEnd) {line : List Char}
    (hline : isSpacing line = true) : kind.valueInLine? (line ++ lineEnd.remnant) = none := by
  rcases isSpacing_iff.mp hline with rfl | rfl
  · cases kind <;> cases lineEnd <;> decide +kernel
  · cases kind <;> cases lineEnd <;> decide +kernel

/-- Each line before the last is one line. -/
theorem unbroken_of_mem (hplain : status.IsPlain) :
    ∀ field ∈ (layoutFields bullet status).take 8, '\n' ∉ field.1 ++ field.2 := by
  intro field hfield
  have hlabel : field.1 ∈ labels bullet := List.mem_of_mem_take (label_mem_take hfield)
  simp only [List.mem_append, not_or]
  refine ⟨fun hfeed => (labels_plain bullet _ hlabel _ hfeed).1 rfl, ?_⟩
  rcases value_cases hplain field hfield with ⟨-, hfeed⟩ | hfree
  · exact hfeed
  · exact hfree.unbroken

/-- The first line about a kind of file is the line of its field. -/
theorem findSome?_valueInLine? (hplain : status.IsPlain) (h : IsLayout bullet lineEnd status text)
    (kind : Artifact) :
    ∃ tail, (tail = [] ∨ tail = ['\r']) ∧
      (feedLines text.toList).findSome? kind.valueInLine? =
        some ((artifactField bullet status kind).2 ++ tail) := by
  have hposition : position kind + 1 ≤ 8 := by cases kind <;> decide
  obtain ⟨before, rest, htext, hbefore, hrest⟩ := h.reach (getElem?_position bullet status kind)
  have hunbroken : ∀ line ∈ before, '\n' ∉ line := by
    intro line hline
    rcases hbefore line hline with hspacing | ⟨field, hfield, rfl⟩
    · rcases isSpacing_iff.mp hspacing with rfl | rfl <;> decide
    · exact unbroken_of_mem hplain field
        (List.take_subset_take_left _ (Nat.le_of_succ_le hposition) hfield)
  have hnone : (before.map (· ++ lineEnd.remnant)).findSome? kind.valueInLine? = none := by
    rw [List.findSome?_eq_none_iff]
    refine List.forall_mem_map.mpr fun line hline => ?_
    rcases hbefore line hline with hspacing | ⟨field, hfield, rfl⟩
    · exact valueInLine?_spacing kind lineEnd hspacing
    · rw [List.append_assoc]
      exact valueInLine?_foreign kind (label_mem_take hfield) _
  have hown : artifactField bullet status kind ∈ (layoutFields bullet status).take 8 := by
    refine List.mem_of_getElem? (i := position kind) ?_
    rw [List.getElem?_take_of_lt hposition, getElem?_position]
  obtain ⟨tail, more, htail, hlines⟩ := feedLines_of_endsLine (unbroken_of_mem hplain _ hown) hrest
  have hvalue : kind.valueInLine?
      ((artifactField bullet status kind).1 ++ (artifactField bullet status kind).2 ++ tail) =
        some ((artifactField bullet status kind).2 ++ tail) :=
    valueInLine?_own kind (isFree_artifactField hplain kind).toIsValue htail
  refine ⟨tail, htail, ?_⟩
  rw [htext, feedLines_join lineEnd hunbroken, List.findSome?_append, hnone, Option.none_or,
    ← List.append_assoc, hlines, List.findSome?_cons, hvalue]

theorem inText?_of_found {kind : Artifact} {value tail : List Char}
    (hfound : (feedLines text.toList).findSome? kind.valueInLine? = some (value ++ tail))
    (hvalue : IsValue value) (htail : tail = [] ∨ tail = ['\r']) :
    kind.inText? text =
      if occursIn "(none)".toList value then none else some (String.ofList value) := by
  have hne : value.isEmpty = false := by simpa using hvalue.ne_nil
  rw [Artifact.inText?, Artifact.find?, hfound]
  simp only [hvalue.strip_append htail, hne, Bool.false_or]
  cases occursIn "(none)".toList value <;> rfl

theorem inText?_layout (hplain : status.IsPlain) (h : IsLayout bullet lineEnd status text)
    (kind : Artifact) : kind.inText? text = status.artifact kind := by
  obtain ⟨tail, htail, hfound⟩ := findSome?_valueInLine? hplain h kind
  rw [inText?_of_found hfound (isFree_artifactField hplain kind).toIsValue htail]
  unfold artifactField
  cases hartifact : status.artifact kind with
  | none => exact if_pos (occursIn_iff.mpr List.infix_rfl)
  | some value =>
      refine (if_neg ?_).trans (congrArg some (String.ofList_toList ..))
      exact mt occursIn_iff.mp (hplain.artifacts kind value hartifact).2

/-! ### The round trip -/

theorem decode_of_isLayout (hplain : status.IsPlain) (h : IsLayout bullet lineEnd status text) :
    decode text = .ok status := by
  have hid : leftmost (tokenAfter? "# Workflow Status: ".toList) text.toList =
      some status.id.toList := leftmost_id hplain h
  have hname : field? "**Name**: ".toList text.toList = some status.name.toList :=
    field?_name hplain h
  have hphase : leftmost (wordAfter? "**Current Phase**: ".toList) text.toList =
      some status.currentPhase.toList := leftmost_currentPhase hplain h
  unfold decode
  simp only [hid, hname, hphase, leftmost_nextPhase hplain h, leftmost_transitions hplain h,
    numberOr_toDigits hplain.transitions, inText?_layout hplain h, Option.getD_some,
    String.ofList_toList]
  rfl

theorem not_isSpacing_labelled {field : List Char × List Char}
    (hfield : field ∈ (layoutFields bullet status).take 8) :
    isSpacing (field.1 ++ field.2) = false := by
  have hlabels : ∀ label ∈ (labels bullet).take 8, ¬ label <+: "## Artifacts".toList := by
    cases bullet <;> decide +kernel
  have hlabel := hlabels field.1 (label_mem_take hfield)
  rw [← Bool.not_eq_true, isSpacing_iff]
  rintro (hempty | hheading)
  · rw [(List.append_eq_nil_iff.mp hempty).1] at hlabel
    exact hlabel List.nil_prefix
  · exact hlabel (hheading ▸ List.prefix_append field.1 field.2)

theorem not_isSpacing_count (n : Nat) (s : List Char) :
    isSpacing (Nat.toDigits 10 n ++ s) = false := by
  obtain ⟨digit, digits, hdigits⟩ :=
    List.exists_cons_of_ne_nil (Nat.toDigits_ne_nil (n := n) (b := 10))
  have hdigit : isDigit digit = true :=
    isDigit_of_mem_toDigits (n := n) (hdigits ▸ List.mem_cons_self)
  rw [← Bool.not_eq_true, isSpacing_iff, hdigits]
  rintro (hempty | hheading)
  · cases hempty
  · have hfirst : "## Artifacts".toList.head? = some '#' := by decide
    rw [← hheading, List.cons_append, List.head?_cons, Option.some.injEq] at hfirst
    rw [hfirst] at hdigit
    cases hdigit

/-- No line of a layout says nothing. -/
theorem not_isSpacing_of_mem {line : List Char} (hline : line ∈ layoutLines bullet status) :
    isSpacing line = false := by
  obtain ⟨field, hfield, rfl⟩ := List.mem_map.mp hline
  rw [← List.take_append_drop 8 (layoutFields bullet status)] at hfield
  rcases List.mem_append.mp hfield with hmem | hmem
  · exact not_isSpacing_labelled hmem
  · rw [List.mem_singleton.mp hmem]
    exact not_isSpacing_count status.transitions transitionsMark

/-- Lines that say nothing can be put between any two lines. -/
theorem isLayout_insert (bullet : Bool) (lineEnd : LineEnd) (status : WorkflowStatus) (n : Nat)
    {gap : List (List Char)} (hgap : ∀ line ∈ gap, isSpacing line = true) :
    IsLayout bullet lineEnd status (String.ofList (lineEnd.join
      ((layoutLines bullet status).take n ++ gap ++ (layoutLines bullet status).drop n))) := by
  have hkept {lines : List (List Char)} (hlines : lines ⊆ layoutLines bullet status) :
      lines.filter (fun line => !isSpacing line) = lines :=
    List.filter_eq_self.mpr fun line hline => by rw [not_isSpacing_of_mem (hlines hline)]; rfl
  have hgone : gap.filter (fun line => !isSpacing line) = [] :=
    List.filter_eq_nil_iff.mpr fun line hline => by simp [hgap line hline]
  refine ⟨_, ?_, Or.inl rfl⟩
  rw [List.filter_append, List.filter_append, hgone, hkept (List.take_subset n _),
    hkept (List.drop_subset n _), List.append_nil, List.take_append_drop]

theorem isLayout_layout (bullet : Bool) (lineEnd : LineEnd) (status : WorkflowStatus) :
    IsLayout bullet lineEnd status (layout bullet lineEnd status) := by
  have hgap : ∀ line ∈ ([] : List (List Char)), isSpacing line = true := by simp
  have hlayout := isLayout_insert bullet lineEnd status 0 hgap
  rwa [List.take_zero, List.drop_zero, List.append_nil, List.nil_append] at hlayout

/-- A status is read back from its layout, whatever its free texts hold besides the marks: with or
without bullets, with either line end, and with lines that say nothing between the fields. -/
theorem decode_status_layout (bullet : Bool) (lineEnd : LineEnd) (hplain : status.IsPlain) :
    decode (layout bullet lineEnd status) = .ok status ∧
      ∀ text, IsLayout bullet lineEnd status text → decode text = .ok status :=
  ⟨decode_of_isLayout hplain (isLayout_layout bullet lineEnd status),
    fun _ htext => decode_of_isLayout hplain htext⟩

/-- A status whose texts look like other fields. -/
def knotty : WorkflowStatus where
  id := "**Name**:#9"
  name := "# Workflow Status: x\r**Name**: y"
  currentPhase := "planning"
  nextPhase := "phase_2"
  transitions := 12
  spec := some "Plan: a\rTasks: b"
  plan := none
  tasks := some "- Spec: Suggested next phase: * *"
  verification := some "3 transitions"

/-- The status with a heading above its files. -/
def knottyText : String :=
  String.ofList (LineEnd.returnAndFeed.join ((layoutLines true knotty).take 3 ++
    [[], "## Artifacts".toList] ++ (layoutLines true knotty).drop 3))

theorem decode_status_layout_knotty :
    knotty.IsPlain ∧ decode (layout false .feed knotty) = .ok knotty ∧
      decode knottyText = .ok knotty := by
  have hplain : knotty.IsPlain := by
    refine ⟨⟨by decide, List.all_eq_true.mp (by decide)⟩, by decide +kernel,
      ⟨by decide, List.all_eq_true.mp (by decide)⟩, ⟨by decide, List.all_eq_true.mp (by decide)⟩,
      by decide, ?_⟩
    intro kind value hvalue
    cases kind <;> cases hvalue <;> decide +kernel
  have hlayout : IsLayout true .returnAndFeed knotty knottyText :=
    isLayout_insert true .returnAndFeed knotty 3 (by decide)
  exact ⟨hplain, (decode_status_layout false .feed hplain).1,
    (decode_status_layout true .returnAndFeed hplain).2 knottyText hlayout⟩

end Conductor.Reply.WorkflowStatus
