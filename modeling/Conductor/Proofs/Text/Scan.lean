import Mathlib.Data.List.Basic
import Mathlib.Data.List.TakeWhile
import Conductor.Text.Scan
import Conductor.Reply.Layout

/-!
Reading what was written. A reader that stands at the front of a text it fits takes exactly that
text and leaves what follows: this is said of marks, runs and lines. A text keeps its ends under
stripping exactly if there are no blanks at them.
-/

namespace Conductor

theorem Reply.LineEnd.join_cons (lineEnd : LineEnd) (line : List Char) (lines : List (List Char)) :
    lineEnd.join (line :: lines) = line ++ (lineEnd.chars ++ lineEnd.join lines) := by
  simp [join]

/-- What a line end leaves on its line where only a line feed ends a line. -/
def Reply.LineEnd.remnant : LineEnd → List Char
  | feed => []
  | returnAndFeed => ['\r']

theorem Reply.LineEnd.join_eq_feed (lineEnd : LineEnd) (lines : List (List Char)) :
    lineEnd.join lines = LineEnd.feed.join (lines.map (· ++ lineEnd.remnant)) := by
  cases lineEnd <;> simp [join, chars, remnant, List.flatMap_map]

namespace Text

variable {p : Char → Bool} {c : Char} {s front rest mark line : List Char}

/-! ### Marks and runs -/

@[simp]
theorem after?_append (mark s : List Char) : after? mark (mark ++ s) = some s := by
  induction mark with
  | nil => rfl
  | cons m mark ih => simpa [after?] using ih

theorem after?_eq_some_iff : after? mark s = some rest ↔ s = mark ++ rest := by
  constructor
  · intro h
    induction mark generalizing s with
    | nil => exact Option.some.inj h
    | cons m mark ih =>
        cases s with
        | nil => cases h
        | cons c s =>
            rw [after?] at h
            split at h
            · next hsame => rw [hsame, List.cons_append, ← ih h]
            · cases h
  · rintro rfl
    exact after?_append mark rest

/-- A reader finds something if it does so at some place. -/
theorem leftmost_isSome_iff {α : Type} {read : List Char → Option α} :
    (leftmost read s).isSome = true ↔ ∃ rest, rest <:+ s ∧ (read rest).isSome = true := by
  induction s with
  | nil => simp [leftmost]
  | cons c s ih =>
      cases hread : read (c :: s) with
      | some a =>
          simp only [leftmost, hread, Option.isSome_some, true_iff]
          exact ⟨c :: s, List.suffix_rfl, by rw [hread]; rfl⟩
      | none =>
          simp only [leftmost, hread, ih, List.suffix_cons_iff]
          constructor
          · rintro ⟨rest, hrest, hsome⟩
            exact ⟨rest, Or.inr hrest, hsome⟩
          · rintro ⟨rest, rfl | hrest, hsome⟩
            · rw [hread] at hsome
              cases hsome
            · exact ⟨rest, hrest, hsome⟩

theorem occursIn_iff : occursIn mark s = true ↔ mark <:+: s := by
  rw [occursIn, leftmost_isSome_iff]
  constructor
  · rintro ⟨rest, ⟨front, rfl⟩, hsome⟩
    obtain ⟨tail, htail⟩ := Option.isSome_iff_exists.mp hsome
    rw [after?_eq_some_iff] at htail
    exact ⟨front, tail, by rw [htail, List.append_assoc]⟩
  · rintro ⟨front, tail, rfl⟩
    exact ⟨mark ++ tail, ⟨front, (List.append_assoc ..).symm⟩, by simp⟩

theorem leftmost_of_read {α : Type} {read : List Char → Option α} {a : α}
    (hread : read s = some a) : leftmost read s = some a := by
  cases s with
  | nil => exact hread
  | cons c rest => simp [leftmost, hread]

theorem takeWhile_append_of_stop (hfront : ∀ c ∈ front, p c = true)
    (hstop : ∀ c ∈ rest.head?, p c = false) :
    (front ++ rest).takeWhile p = front ∧ (front ++ rest).dropWhile p = rest := by
  have hrest : rest.takeWhile p = [] ∧ rest.dropWhile p = rest := by
    cases rest with
    | nil => exact ⟨rfl, rfl⟩
    | cons c rest =>
        have hc : p c = false := hstop c rfl
        simp [hc]
  rw [List.takeWhile_append_of_pos hfront, List.dropWhile_append_of_pos hfront, hrest.1, hrest.2]
  simp

/-- A run ends where the class ends. -/
theorem run?_append (hne : front ≠ []) (hfront : ∀ c ∈ front, p c = true)
    (hstop : ∀ c ∈ rest.head?, p c = false) : run? p (front ++ rest) = some (front, rest) := by
  obtain ⟨htake, hdrop⟩ := takeWhile_append_of_stop hfront hstop
  rw [run?, htake, hdrop]
  simp [hne]

/-- A run is all there is of its class at the front. -/
theorem run?_eq_some_iff :
    run? p s = some (front, rest) ↔ s = front ++ rest ∧ front ≠ [] ∧
      (∀ c ∈ front, p c = true) ∧ ∀ c ∈ rest.head?, p c = false := by
  constructor
  · intro h
    unfold run? at h
    simp only at h
    split at h
    · cases h
    · next hne =>
        cases h
        refine ⟨List.takeWhile_append_dropWhile.symm, by simpa using hne, ?_, ?_⟩
        · intro c hc
          exact List.mem_takeWhile_imp hc
        · intro c hc
          have hstop := List.head?_dropWhile_not p s
          rw [Option.mem_def.mp hc] at hstop
          exact hstop
  · rintro ⟨rfl, hne, hfront, hstop⟩
    exact run?_append hne hfront hstop

/-! ### The ends of a text -/

theorem dropWhile_eq_self_iff : s.dropWhile p = s ↔ ∀ c ∈ s.head?, p c = false := by
  cases s with
  | nil => simp
  | cons c rest =>
      cases hc : p c with
      | false => simp [hc]
      | true =>
          have hlength := (List.dropWhile_suffix (l := rest) p).length_le
          constructor
          · intro hsame
            rw [List.dropWhile_cons_of_pos hc] at hsame
            rw [hsame, List.length_cons] at hlength
            omega
          · intro hstop
            rw [hstop c rfl] at hc
            cases hc

theorem stripEnd_eq_self_iff : stripEnd s = s ↔ ∀ c ∈ s.getLast?, isBlank c = false := by
  rw [stripEnd, List.reverse_eq_iff, dropWhile_eq_self_iff, List.head?_reverse]

/-- Stripping leaves just those texts alone that have no blank at either end. -/
theorem strip_eq_self_iff :
    strip s = s ↔ (∀ c ∈ s.head?, isBlank c = false) ∧ ∀ c ∈ s.getLast?, isBlank c = false := by
  rw [← stripEnd_eq_self_iff, ← dropWhile_eq_self_iff]
  constructor
  · intro hstrip
    have hstart : stripStart s = s := by
      have hshorter : (strip s).length ≤ (stripStart s).length := by
        rw [strip, stripEnd, List.length_reverse]
        have hshort := (List.dropWhile_suffix isBlank (l := (stripStart s).reverse)).length_le
        rwa [List.length_reverse] at hshort
      rw [hstrip] at hshorter
      exact (List.dropWhile_suffix isBlank).eq_of_length_le hshorter
    rw [strip, hstart] at hstrip
    exact ⟨hstart, hstrip⟩
  · rintro ⟨hstart, hend⟩
    rw [strip, stripStart, hstart, hend]

theorem head?_stripStart (s : List Char) : ∀ c ∈ (stripStart s).head?, isBlank c = false := by
  intro c hc
  have hstop := List.head?_dropWhile_not isBlank s
  rw [← stripStart, Option.mem_def.mp hc] at hstop
  exact hstop

theorem stripEnd_prefix (s : List Char) : stripEnd s <+: s := by
  rw [stripEnd, ← List.reverse_suffix, List.reverse_reverse]
  exact List.dropWhile_suffix isBlank

theorem strip_strip (s : List Char) : strip (strip s) = strip s := by
  refine strip_eq_self_iff.mpr ⟨?_, ?_⟩
  · intro c hc
    obtain ⟨blanks, hblanks⟩ := stripEnd_prefix (stripStart s)
    refine head?_stripStart s c ?_
    rw [← hblanks, List.head?_append]
    exact Option.mem_def.mpr (by rw [← strip, Option.mem_def.mp hc, Option.some_or])
  · rw [strip, stripEnd, List.getLast?_reverse]
    exact head?_stripStart (stripStart s).reverse

theorem strip_eq_nil_iff : strip s = [] ↔ ∀ c ∈ s, isBlank c = true := by
  constructor
  · intro hnil
    rw [strip, stripEnd, List.reverse_eq_nil_iff, List.dropWhile_eq_nil_iff] at hnil
    have hstart : stripStart s = [] := by
      cases hs : stripStart s with
      | nil => rfl
      | cons c rest =>
          have hblank : isBlank c = true := hnil c (by simp [hs])
          rw [head?_stripStart s c (by simp [hs])] at hblank
          cases hblank
    exact List.dropWhile_eq_nil_iff.mp hstart
  · intro hblank
    rw [strip, stripStart, List.dropWhile_eq_nil_iff.mpr hblank]
    rfl

theorem strip_append_blank (hs : strip s = s) (hne : s ≠ []) (hc : isBlank c = true) :
    strip (s ++ [c]) = s := by
  obtain ⟨hhead, hlast⟩ := strip_eq_self_iff.mp hs
  have hstart : stripStart (s ++ [c]) = s ++ [c] := by
    refine dropWhile_eq_self_iff.mpr ?_
    rw [List.head?_append_of_ne_nil _ hne]
    exact hhead
  rw [strip, hstart, stripEnd, List.reverse_append, List.reverse_singleton, List.singleton_append,
    List.dropWhile_cons_of_pos hc]
  exact stripEnd_eq_self_iff.mpr hlast

theorem strip_blank_append (hfront : ∀ c ∈ front, isBlank c = true) (s : List Char) :
    strip (front ++ s) = strip s := by
  rw [strip, stripStart, List.dropWhile_append_of_pos hfront, ← stripStart, ← strip]

/-! ### Lines -/

/-- The text stands on one line. -/
def OneLine (s : List Char) : Prop := ∀ c ∈ s, isBoundary c = false

instance (s : List Char) : Decidable (OneLine s) :=
  List.decidableBAll (fun c => isBoundary c = false) s

theorem OneLine.append (hfront : OneLine front) (hrest : OneLine rest) :
    OneLine (front ++ rest) := by
  intro c hc
  rcases List.mem_append.mp hc with hmem | hmem
  · exact hfront c hmem
  · exact hrest c hmem

/-- No digit of any script ends a line. -/
theorem isBoundary_of_isDigit (hc : isDigit c = true) : isBoundary c = false := by
  have hapart : ∀ base ∈ digitZeros, 30 < base ∧ (base + 10 ≤ 0x85 ∨ 0x85 < base) ∧
      (base + 10 ≤ 0x2028 ∨ 0x2029 < base) := by decide
  unfold isDigit digitValue? at hc
  split at hc
  · next base hbase =>
      have hbounds := List.find?_some hbase
      obtain ⟨hlow, hlatin, hspecial⟩ := hapart base (List.mem_of_find?_eq_some hbase)
      simp only [Bool.and_eq_true, decide_eq_true_eq] at hbounds
      simp only [isBoundary, Bool.or_eq_false_iff, Bool.and_eq_false_iff, decide_eq_false_iff_not,
        beq_eq_false_iff_ne]
      omega
  · cases hc

theorem printedLinesFrom_cons (hc : isBoundary c = false) :
    printedLinesFrom line (c :: s) = printedLinesFrom (c :: line) s := by
  have hreturn : c ≠ '\r' := by
    rintro rfl
    cases hc
  rw [printedLinesFrom, if_neg (by simp [hc])]
  intro rest hcr
  exact absurd hcr hreturn

theorem printedLinesFrom_append (hfront : OneLine front) :
    printedLinesFrom line (front ++ s) = printedLinesFrom (front.reverse ++ line) s := by
  induction front generalizing line with
  | nil => rfl
  | cons c front ih =>
      obtain ⟨hc, hrest⟩ := List.forall_mem_cons.mp hfront
      rw [List.cons_append, printedLinesFrom_cons hc, ih hrest]
      simp

theorem printedLinesFrom_end (lineEnd : Reply.LineEnd) :
    printedLinesFrom line (lineEnd.chars ++ s) = line.reverse :: printedLinesFrom [] s := by
  cases lineEnd with
  | feed => rfl
  | returnAndFeed => rfl

/-- Lines that are joined are found again, whatever follows them. -/
theorem printedLines_join (lineEnd : Reply.LineEnd) {lines : List (List Char)}
    (hlines : ∀ line ∈ lines, OneLine line) (s : List Char) :
    printedLines (lineEnd.join lines ++ s) = lines ++ printedLines s := by
  induction lines with
  | nil => rfl
  | cons line lines ih =>
      obtain ⟨hline, hrest⟩ := List.forall_mem_cons.mp hlines
      rw [Reply.LineEnd.join_cons, List.append_assoc, List.append_assoc, printedLines,
        printedLinesFrom_append hline, printedLinesFrom_end, List.append_nil, List.reverse_reverse,
        ← printedLines, ih hrest]
      rfl

/-- So are lines of which the last one has no end, if that line is not empty. -/
theorem printedLines_join_last (lineEnd : Reply.LineEnd) {lines : List (List Char)}
    (hlines : ∀ line ∈ lines ++ [s], OneLine line) (hne : s ≠ []) :
    printedLines (lineEnd.join lines ++ s) = lines ++ [s] := by
  have hlast : printedLines s = [s] := by
    have hs : OneLine s := hlines s (List.mem_append_right _ List.mem_cons_self)
    rw [printedLines, ← List.append_nil s, printedLinesFrom_append hs]
    simp [printedLinesFrom, hne]
  rw [printedLines_join lineEnd (fun line hline => hlines line (List.mem_append_left _ hline)),
    hlast]

theorem printedLinesFrom_boundary (hc : isBoundary c = true)
    (hpair : c = '\r' → s.head? ≠ some '\n') :
    printedLinesFrom line (c :: s) = line.reverse :: printedLinesFrom [] s := by
  rw [printedLinesFrom, if_pos hc]
  rintro rest hreturn rfl
  exact hpair hreturn rfl

/-- A line feed between two texts keeps their lines apart. There is an empty line between them if
the first text is empty or has ended its last line itself, unless it did so by a carriage return,
which the line feed then completes. -/
theorem printedLinesFrom_append_feed (line s t : List Char) :
    ∃ gap, (gap = [] ∨ gap = [[]]) ∧
      printedLinesFrom line (s ++ '\n' :: t) =
        printedLinesFrom line s ++ (gap ++ printedLines t) := by
  induction s generalizing line with
  | nil =>
      cases line with
      | nil => exact ⟨[[]], Or.inr rfl, rfl⟩
      | cons c line =>
          refine ⟨[], Or.inl rfl, ?_⟩
          simp [printedLinesFrom, printedLines, isBoundary]
  | cons c rest ih =>
      by_cases hc : isBoundary c = true
      · obtain ⟨gap, hgap, hlines⟩ := ih []
        by_cases hpair : c = '\r' → (rest ++ '\n' :: t).head? ≠ some '\n'
        · have hpair' : c = '\r' → rest.head? ≠ some '\n' := by
            intro hreturn hfeed
            exact hpair hreturn (by rw [List.head?_append, hfeed, Option.some_or])
          refine ⟨gap, hgap, ?_⟩
          rw [List.cons_append, printedLinesFrom_boundary hc hpair, hlines,
            printedLinesFrom_boundary hc hpair', List.cons_append]
        · obtain ⟨rfl, hfeed⟩ := Classical.not_imp.mp hpair
          cases rest with
          | nil => exact ⟨[], Or.inl rfl, rfl⟩
          | cons d rest =>
              -- The lines after the pair are those after its line feed alone.
              obtain rfl : d = '\n' := by simpa using hfeed
              obtain ⟨-, hrest⟩ := List.cons.inj hlines
              exact ⟨gap, hgap, congrArg (line.reverse :: ·) hrest⟩
      · obtain ⟨gap, hgap, hlines⟩ := ih (c :: line)
        have hplain : isBoundary c = false := by simpa using hc
        refine ⟨gap, hgap, ?_⟩
        rw [List.cons_append, printedLinesFrom_cons hplain, hlines, printedLinesFrom_cons hplain]

/-! ### Fields -/

/-- A text that can stand at the end of a line: not empty, without blanks at its ends, on one
line. -/
structure IsField (s : List Char) : Prop where
  ne_nil : s ≠ []
  stripped : strip s = s
  oneLine : OneLine s

theorem lineAfter?_append {label : List Char} (hne : front ≠ [])
    (hfront : ∀ c ∈ front, (c != '\n') = true) (hstop : ∀ c ∈ rest.head?, (c != '\n') = false) :
    lineAfter? label (label ++ (front ++ rest)) = some front := by
  rw [lineAfter?, after?_append]
  simp only [run?_append hne hfront hstop, Option.map_some]

/-- A text that can stand at the end of a line which only a line feed ends: not empty, and without
blanks at its ends. -/
structure IsValue (s : List Char) : Prop where
  ne_nil : s ≠ []
  stripped : strip s = s
  unbroken : '\n' ∉ s

instance (s : List Char) : Decidable (IsValue s) :=
  decidable_of_iff (s ≠ [] ∧ strip s = s ∧ '\n' ∉ s)
    ⟨fun ⟨hne, hstrip, hfeed⟩ => ⟨hne, hstrip, hfeed⟩,
      fun h => ⟨h.ne_nil, h.stripped, h.unbroken⟩⟩

theorem IsField.isValue (hs : IsField s) : IsValue s where
  ne_nil := hs.ne_nil
  stripped := hs.stripped
  unbroken := fun hmem => by cases hs.oneLine _ hmem

/-- What follows a line: nothing, or the end of the line. -/
def EndsLine (rest : List Char) : Prop :=
  rest = [] ∨ ∃ (lineEnd : Reply.LineEnd) (more : List Char), rest = lineEnd.chars ++ more

/-- Where only a line feed ends a line, a carriage return before it belongs to the line. -/
theorem EndsLine.exists_tail (h : EndsLine rest) :
    ∃ tail more, rest = tail ++ more ∧ (tail = [] ∨ tail = ['\r']) ∧
      (more = [] ∨ ∃ lines, more = '\n' :: lines) := by
  rcases h with rfl | ⟨lineEnd, lines, rfl⟩
  · exact ⟨[], [], rfl, Or.inl rfl, Or.inl rfl⟩
  · cases lineEnd with
    | feed => exact ⟨[], '\n' :: lines, rfl, Or.inl rfl, Or.inr ⟨lines, rfl⟩⟩
    | returnAndFeed => exact ⟨['\r'], '\n' :: lines, rfl, Or.inr rfl, Or.inr ⟨lines, rfl⟩⟩

theorem EndsLine.head (h : EndsLine rest) : ∀ c ∈ rest.head?, c = '\r' ∨ c = '\n' := by
  rcases h with rfl | ⟨lineEnd, more, rfl⟩
  · simp
  · cases lineEnd with
    | feed => exact fun c hc => Or.inr (Option.some.inj hc).symm
    | returnAndFeed => exact fun c hc => Or.inl (Option.some.inj hc).symm

/-- A text of lines goes on after each of them. The end of the last one may be missing. -/
theorem exists_endsLine_of_join {lineEnd : Reply.LineEnd} {before after : List (List Char)}
    {text : String} (htext : text = String.ofList (lineEnd.join (before ++ line :: after)) ∨
      text ++ String.ofList lineEnd.chars =
        String.ofList (lineEnd.join (before ++ line :: after))) :
    ∃ rest, text.toList = lineEnd.join before ++ (line ++ rest) ∧ EndsLine rest := by
  have hjoin (after : List (List Char)) : lineEnd.join (before ++ line :: after) =
      lineEnd.join before ++ (line ++ (lineEnd.chars ++ lineEnd.join after)) := by
    simp [Reply.LineEnd.join]
  rcases htext with rfl | hopen
  · exact ⟨_, String.toList_ofList.trans (hjoin after), Or.inr ⟨lineEnd, _, rfl⟩⟩
  · have hends := congrArg String.toList hopen
    rw [String.toList_append, String.toList_ofList, String.toList_ofList, hjoin] at hends
    rcases List.eq_nil_or_concat after with rfl | ⟨init, last, rfl⟩
    · refine ⟨[], ?_, Or.inl rfl⟩
      exact (List.append_left_inj lineEnd.chars).mp (by simpa [Reply.LineEnd.join] using hends)
    · refine ⟨lineEnd.chars ++ (lineEnd.join init ++ last), ?_, Or.inr ⟨lineEnd, _, rfl⟩⟩
      exact (List.append_left_inj lineEnd.chars).mp (by simpa [Reply.LineEnd.join] using hends)

theorem IsValue.strip_append (hs : IsValue s) {tail : List Char}
    (htail : tail = [] ∨ tail = ['\r']) : strip (s ++ tail) = s := by
  rcases htail with rfl | rfl
  · rw [List.append_nil, hs.stripped]
  · exact strip_append_blank hs.stripped hs.ne_nil (by decide)

theorem not_mem_append_tail (hs : '\n' ∉ s) {tail : List Char} (htail : tail = [] ∨ tail = ['\r']) :
    '\n' ∉ s ++ tail := by
  rcases htail with rfl | rfl <;> simp [hs]

theorem lineAfter?_of_unbroken {label : List Char} (hne : s ≠ []) (hfeed : '\n' ∉ s)
    (hrest : rest = [] ∨ ∃ lines, rest = '\n' :: lines) :
    lineAfter? label (label ++ (s ++ rest)) = some s := by
  refine lineAfter?_append hne (fun c hc => ?_) ?_
  · simpa using ne_of_mem_of_not_mem hc hfeed
  · rcases hrest with rfl | ⟨lines, rfl⟩
    · simp
    · rintro c ⟨⟩
      rfl

theorem lineAfter?_of_endsLine (label : List Char) (hne : s ≠ []) (hfeed : '\n' ∉ s)
    (hrest : EndsLine rest) :
    ∃ tail, (tail = [] ∨ tail = ['\r']) ∧
      lineAfter? label (label ++ (s ++ rest)) = some (s ++ tail) := by
  obtain ⟨tail, more, rfl, htail, hmore⟩ := hrest.exists_tail
  refine ⟨tail, htail, ?_⟩
  rw [← List.append_assoc s]
  exact lineAfter?_of_unbroken (List.append_ne_nil_of_left_ne_nil hne tail)
    (not_mem_append_tail hfeed htail) hmore

/-- A field is the rest of its line, without the end of the line. -/
theorem field?_append (label : List Char) (hs : IsValue s) (hrest : EndsLine rest) :
    field? label (label ++ (s ++ rest)) = some s := by
  obtain ⟨tail, htail, hread⟩ := lineAfter?_of_endsLine label hs.ne_nil hs.unbroken hrest
  rw [field?, leftmost_of_read hread, Option.map_some, hs.strip_append htail]

end Text

end Conductor
