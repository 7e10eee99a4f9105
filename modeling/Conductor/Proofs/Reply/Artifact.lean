import Conductor.Proofs.Reply.Workflow

/-!
The files of a workflow, as a text names them. A pattern that looks for one may start at any line
of the text, and the blanks it starts with may reach over several lines, so what it finds can stand
far behind the line at which it starts. It is the same as what is found by going through the lines
one by one; and lines about other files are as good as not there.
-/

namespace Conductor.Reply.Artifact

open Text
open WorkflowStatus (bare bare_append)

variable {kind other : Artifact} {s here line rest value : List Char}

/-! ### Patterns and lines -/

/-- Behind blanks and a bullet, either of which may be missing, stands the label of this kind of
file, and then the rest. -/
def Labels (kind : Artifact) (here rest : List Char) : Prop :=
  ∃ blanks bullet, (∀ c ∈ blanks, isBlank c = true) ∧ (bullet = [] ∨ bullet = "- ".toList) ∧
    here = blanks ++ (bullet ++ (kind.label ++ rest))

/-- The pattern for this kind of file fits what stands here, in whatever way its parts are chosen:
any blanks, line feeds included, a bullet or none, the label, and a value that is not empty and goes
on to the end of a line. -/
def Matches (kind : Artifact) (here value : List Char) : Prop :=
  ∃ rest, kind.Labels here (value ++ rest) ∧ value ≠ [] ∧ '\n' ∉ value ∧
    ∀ c ∈ rest.head?, c = '\n'

/-- The line is labelled as one about this kind of file and goes on with a value. -/
def Gives (kind : Artifact) (line value : List Char) : Prop :=
  kind.Labels line value ∧ value ≠ []

/-- The line has the label of another kind of file, whatever follows. -/
def IsForeign (kind : Artifact) (line : List Char) : Prop :=
  ∃ other rest, other ≠ kind ∧ other.Labels line rest

/-- The text without the blanks and the bullet in front of it. -/
def entry (here : List Char) : List Char := bare (stripStart here)

theorem valueInLine?_eq_lineAfter? (kind : Artifact) (here : List Char) :
    kind.valueInLine? here = lineAfter? kind.label (entry here) := rfl

/-- A label starts neither with a blank nor like a bullet. -/
theorem label_head (kind : Artifact) :
    ∃ c more, kind.label = c :: more ∧ isBlank c = false ∧ c ≠ '-' := by
  cases kind <;> exact ⟨_, _, rfl, by decide, by decide⟩

/-- No label starts another one. -/
theorem label_prefix_iff : other.label <+: kind.label ↔ other = kind := by
  cases other <;> cases kind <;> decide

/-- The parts in front of a label can be chosen in one way only. -/
theorem labels_iff : kind.Labels here rest ↔ entry here = kind.label ++ rest := by
  obtain ⟨c, more, hlabel, hblank, hdash⟩ := label_head kind
  constructor
  · rintro ⟨blanks, bullet, hblanks, hbullet, rfl⟩
    have hstart : stripStart (bullet ++ (kind.label ++ rest)) = bullet ++ (kind.label ++ rest) := by
      refine dropWhile_eq_self_iff.mpr ?_
      rcases hbullet with rfl | rfl
      · rw [hlabel]
        rintro d ⟨⟩
        exact hblank
      · rintro d ⟨⟩
        decide
    have hskip : stripStart (blanks ++ (bullet ++ (kind.label ++ rest))) =
        bullet ++ (kind.label ++ rest) := by
      rw [stripStart, List.dropWhile_append_of_pos hblanks, ← stripStart, hstart]
    rw [entry, hskip, bare]
    rcases hbullet with rfl | rfl
    · rw [hlabel]
      simp [after?, Ne.symm hdash]
    · rw [after?_append, Option.getD_some]
  · intro hentry
    have hhere : here = here.takeWhile isBlank ++ stripStart here :=
      List.takeWhile_append_dropWhile.symm
    have hblanks : ∀ c ∈ here.takeWhile isBlank, isBlank c = true :=
      fun c hc => List.mem_takeWhile_imp hc
    rw [entry, bare] at hentry
    cases hafter : after? "- ".toList (stripStart here) with
    | none =>
        rw [hafter, Option.getD_none] at hentry
        exact ⟨_, [], hblanks, Or.inl rfl, by rw [List.nil_append, ← hentry, ← hhere]⟩
    | some follows =>
        rw [hafter, Option.getD_some] at hentry
        have hbullet := after?_eq_some_iff.mp hafter
        exact ⟨_, _, hblanks, Or.inr rfl, by rw [← hentry, ← hbullet, ← hhere]⟩

theorem valueInLine?_eq_some_iff :
    kind.valueInLine? here = some value ↔ kind.Matches here value := by
  rw [valueInLine?_eq_lineAfter?, lineAfter?_eq_some_iff]
  constructor
  · rintro ⟨rest, hentry, hne, hvalue, hstop⟩
    refine ⟨rest, labels_iff.mpr hentry, hne, ?_, ?_⟩
    · intro hfeed
      simpa using hvalue _ hfeed
    · intro c hc
      simpa using hstop c hc
  · rintro ⟨rest, hlabels, hne, hvalue, hstop⟩
    refine ⟨rest, labels_iff.mp hlabels, hne, ?_, ?_⟩
    · intro c hc
      simpa using ne_of_mem_of_not_mem hc hvalue
    · intro c hc
      simpa using hstop c hc

/-- On a single line, what a pattern finds goes on to the end. -/
theorem matches_iff_gives (hline : '\n' ∉ line) :
    kind.Matches line value ↔ kind.Gives line value := by
  constructor
  · rintro ⟨rest, hlabels, hne, -, hstop⟩
    cases rest with
    | nil => exact ⟨by rwa [List.append_nil] at hlabels, hne⟩
    | cons c rest =>
        obtain rfl : c = '\n' := hstop c rfl
        obtain ⟨blanks, bullet, -, -, rfl⟩ := hlabels
        simp at hline
  · rintro ⟨hlabels, hne⟩
    refine ⟨[], by rwa [List.append_nil], hne, ?_, by simp⟩
    obtain ⟨blanks, bullet, -, -, rfl⟩ := hlabels
    simp only [List.mem_append, not_or] at hline
    exact hline.2.2.2

/-! ### From line to line -/

theorem valueInLine?_nil (kind : Artifact) : kind.valueInLine? [] = none := by
  cases kind <;> rfl

/-- Blanks in front make no difference. -/
theorem valueInLine?_blanks (hblanks : ∀ c ∈ s, isBlank c = true) (here : List Char) :
    kind.valueInLine? (s ++ here) = kind.valueInLine? here := by
  have hskip : stripStart (s ++ here) = stripStart here := List.dropWhile_append_of_pos hblanks
  rw [valueInLine?, hskip, ← valueInLine?]

/-- A line that is not blank is read to its end and no further. -/
theorem valueInLine?_line (hline : ¬ ∀ c ∈ line, isBlank c = true) (rest : List Char) :
    kind.valueInLine? (line ++ '\n' :: rest) = kind.valueInLine? line := by
  have hne : line.dropWhile isBlank ≠ [] := mt List.dropWhile_eq_nil_iff.mp hline
  have hskip : stripStart (line ++ '\n' :: rest) = stripStart line ++ '\n' :: rest := by
    rw [stripStart, List.dropWhile_append, if_neg (mt List.isEmpty_iff.mp hne), ← stripStart]
  have hlabel : '\n' ∉ kind.label := by cases kind <;> decide
  have hbounded : Bounded (· == '\n') (lineAfter? kind.label) := by
    refine bounded_of_runAfter (fun _ _ => lineAfter?_eq_some_iff) ?_ ?_
    · intro c hc
      simpa using ne_of_mem_of_not_mem hc hlabel
    · intro c hc
      simpa using hc
  rw [valueInLine?_eq_lineAfter?, valueInLine?_eq_lineAfter?, entry, hskip,
    bare_append (Or.inr rfl), ← entry]
  exact hbounded.stays _ _ _ rfl

/-- Starting the pattern at each line finds the same as looking at each line: where the pattern
reaches over blank lines, it finds what it finds again when it starts behind them. -/
theorem findSome?_fromLines (kind : Artifact) (s : List Char) :
    (fromLines s).findSome? kind.valueInLine? = (feedLines s).findSome? kind.valueInLine? := by
  induction s using lines_induction with
  | last line hline => rw [fromLines_of_not_mem hline, feedLines_of_not_mem hline]
  | more line rest hline ih =>
      rw [fromLines_append hline, feedLines_append hline, List.findSome?_cons, ih,
        List.findSome?_cons]
      by_cases hblank : ∀ c ∈ line, isBlank c = true
      · have hnone : kind.valueInLine? line = none := by
          rw [← List.append_nil line, valueInLine?_blanks hblank, valueInLine?_nil]
        have hover : kind.valueInLine? (line ++ '\n' :: rest) = kind.valueInLine? rest := by
          rw [valueInLine?_blanks hblank, ← List.singleton_append]
          exact valueInLine?_blanks (List.forall_mem_singleton.mpr (by decide)) rest
        rw [hover, hnone, ← ih, fromLines, List.findSome?_cons]
        cases kind.valueInLine? rest <;> rfl
      · rw [valueInLine?_line hblank]

/-! ### Lines about other files -/

theorem isForeign_iff :
    kind.IsForeign line ↔ ∃ other ∈ [spec, plan, tasks, verification],
      other ≠ kind ∧ other.label <+: entry line := by
  constructor
  · rintro ⟨other, rest, hother, hlabels⟩
    refine ⟨other, by cases other <;> decide, hother, ?_⟩
    rw [labels_iff.mp hlabels]
    exact List.prefix_append other.label rest
  · rintro ⟨other, -, hother, rest, hentry⟩
    exact ⟨other, rest, hother, labels_iff.mpr hentry.symm⟩

instance (kind : Artifact) (line : List Char) : Decidable (kind.IsForeign line) :=
  decidable_of_iff _ isForeign_iff.symm

theorem valueInLine?_foreign (h : kind.IsForeign line) : kind.valueInLine? line = none := by
  obtain ⟨other, rest, hother, hlabels⟩ := h
  rw [valueInLine?_eq_lineAfter?, labels_iff.mp hlabels]
  exact lineAfter?_of_front (mt label_prefix_iff.mp hother)
    (mt label_prefix_iff.mp hother.symm) rest

/-- The lines of a text that are not about other files. -/
def nativeLines (kind : Artifact) (s : List Char) : List (List Char) :=
  (feedLines s).filter fun line => ¬ kind.IsForeign line

theorem findSome?_nativeLines (kind : Artifact) (s : List Char) :
    (kind.nativeLines s).findSome? kind.valueInLine? =
      (feedLines s).findSome? kind.valueInLine? := by
  rw [nativeLines]
  induction feedLines s with
  | nil => rfl
  | cons line lines ih =>
      by_cases hforeign : kind.IsForeign line
      · rw [List.filter_cons_of_neg (by simpa using hforeign), ih, List.findSome?_cons,
          valueInLine?_foreign hforeign]
      · rw [List.filter_cons_of_pos (by simpa using hforeign), List.findSome?_cons, ih,
          List.findSome?_cons]

/-! ### The file that is found -/

/-- A value without the blanks at its ends, unless nothing is left or it says that there is no
file. -/
def named? (value : List Char) : Option String :=
  if strip value = [] ∨ "(none)".toList <:+: strip value then none
  else some (String.ofList (strip value))

theorem inText?_eq (kind : Artifact) (text : String) :
    kind.inText? text = ((feedLines text.toList).findSome? kind.valueInLine?).bind named? := by
  rw [inText?, find?]
  cases (feedLines text.toList).findSome? kind.valueInLine? with
  | none => rfl
  | some value =>
      simp only [Option.bind_some, named?, Bool.or_eq_true, List.isEmpty_iff, occursIn_iff]
      split <;> rfl

/-- Searching a text for a kind of file and going through its lines is the same. The pattern,
started at one line after the other, first fits where it finds this value; the first of the lines
with the label and a value has the same value; the file is the one that this value names. Texts that
differ only in lines about other files name the same file. -/
theorem search_scans_lines (kind : Artifact) (text : String) :
    ∃ found,
      (∀ value, FoundIn kind.Matches (fromLines text.toList) value ↔ value = found) ∧
      (∀ value, FoundIn kind.Gives (feedLines text.toList) value ↔ value = found) ∧
      kind.inText? text = found.bind named? ∧
      ∀ other : String, kind.nativeLines other.toList = kind.nativeLines text.toList →
        kind.inText? other = kind.inText? text := by
  refine ⟨(feedLines text.toList).findSome? kind.valueInLine?, ?_, ?_, inText?_eq kind text, ?_⟩
  · intro value
    rw [foundIn_iff fun _ _ _ => valueInLine?_eq_some_iff, findSome?_fromLines]
    exact eq_comm
  · intro value
    have hgives : ∀ line ∈ feedLines text.toList, ∀ value,
        kind.valueInLine? line = some value ↔ kind.Gives line value := fun line hline value =>
      valueInLine?_eq_some_iff.trans (matches_iff_gives (not_mem_of_mem_feedLines hline))
    rw [foundIn_iff hgives]
    exact eq_comm
  · intro other hlines
    rw [inText?_eq, inText?_eq, ← findSome?_nativeLines, hlines, findSome?_nativeLines]

/-- A label without a value is passed over, and so are the blank lines in front of the next one. -/
theorem search_scans_lines_knotty :
    let text := "Plan: p.md\n-Spec: x\nSpec: \n\t\n\r\n  - Spec:  a.md \r\nSpec: b.md\n"
    let other := "-Spec: x\nSpec: \n\t\n\r\n- Tasks: Spec: t.md\n  - Spec:  a.md \r\nSpec: b.md\n"
    FoundIn spec.Matches (fromLines text.toList) (some " a.md \r".toList) ∧
      spec.nativeLines other.toList = spec.nativeLines text.toList ∧
      spec.inText? other = some "a.md" := by
  intro text other
  obtain ⟨found, hsearch, -, htext, hother⟩ := search_scans_lines spec text
  have hlines : spec.nativeLines other.toList = spec.nativeLines text.toList := by decide +kernel
  have hvalue : spec.inText? text = some "a.md" := by decide +kernel
  have hfound : found = some " a.md \r".toList := by
    rw [← (foundIn_iff fun _ _ _ => valueInLine?_eq_some_iff).mp ((hsearch found).mpr rfl)]
    decide +kernel
  exact ⟨(hsearch _).mpr hfound.symm, hlines, (hother other hlines).trans hvalue⟩

end Conductor.Reply.Artifact
