import Conductor.Proofs.Reply.Count
import Conductor.Reply.Layout

/-!
Maps of a code base are read alike from one line and from three. Between the three fields stands a
bar or a line end, in which no field can start, so each search goes to its own field. The languages
come last, and whatever they hold belongs to them.
-/

namespace Conductor.Reply.CodeMap

open Text

variable {c : Char} {front rest : List Char}

/-! ### Lists of languages -/

/-- A language as it can be written in a list. -/
structure IsPlain (language : String) : Prop where
  value : IsValue language.toList
  uncut : ',' ∉ language.toList

theorem splitAtChar_of_not_mem {sep : Char} {s : List Char} (hs : sep ∉ s) :
    splitAtChar sep s = [s] := by
  induction s with
  | nil => rfl
  | cons c s ih =>
      obtain ⟨hc, hrest⟩ := not_or.mp (mt List.mem_cons.mpr hs)
      rw [splitAtChar, if_neg (Ne.symm hc), ih hrest]

theorem splitAtChar_append {sep : Char} (hfront : sep ∉ front) (rest : List Char) :
    splitAtChar sep (front ++ sep :: rest) = front :: splitAtChar sep rest := by
  induction front with
  | nil => rw [List.nil_append, splitAtChar, if_pos rfl]
  | cons c front ih =>
      obtain ⟨hc, hmore⟩ := not_or.mp (mt List.mem_cons.mpr hfront)
      rw [List.cons_append, splitAtChar, if_neg (Ne.symm hc), ih hmore]

/-- Languages that are joined are found again. Blanks may stand before the first, and a carriage
return after the last. -/
theorem items_intercalate {languages : List (List Char)} {blanks tail : List Char}
    (hne : languages ≠ []) (hlanguages : ∀ language ∈ languages, IsValue language ∧ ',' ∉ language)
    (hblanks : ∀ c ∈ blanks, isBlank c = true) (htail : tail = [] ∨ tail = ['\r']) :
    items (blanks ++ (List.intercalate ", ".toList languages ++ tail)) = languages := by
  have hcomma : ∀ {s : List Char}, (∀ c ∈ s, isBlank c = true) → ',' ∉ s := by
    intro s hs hmem
    exact absurd (hs _ hmem) (by decide)
  induction languages generalizing blanks with
  | nil => exact absurd rfl hne
  | cons language more ih =>
      obtain ⟨⟨hvalue, huncut⟩, hmore⟩ := List.forall_mem_cons.mp hlanguages
      cases more with
      | nil =>
          have htailBlank : ∀ c ∈ tail, isBlank c = true := by
            rcases htail with rfl | rfl
            · simp
            · exact List.forall_mem_singleton.mpr (by decide)
          have hall : ',' ∉ blanks ++ (language ++ tail) := by
            simp only [List.mem_append, not_or]
            exact ⟨hcomma hblanks, huncut, hcomma htailBlank⟩
          rw [List.intercalate_singleton, items, splitAtChar_of_not_mem hall]
          simp [strip_blank_append hblanks, hvalue.strip_append htail, hvalue.ne_nil]
      | cons next more =>
          have hfront : ',' ∉ blanks ++ language := by
            simp only [List.mem_append, not_or]
            exact ⟨hcomma hblanks, huncut⟩
          have hsplit :
              blanks ++ (List.intercalate ", ".toList (language :: next :: more) ++ tail) =
                (blanks ++ language) ++ ',' ::
                  ([' '] ++ (List.intercalate ", ".toList (next :: more) ++ tail)) := by
            rw [List.intercalate_cons_cons]
            simp
          have hlater : items ([' '] ++ (List.intercalate ", ".toList (next :: more) ++ tail)) =
              next :: more := ih (by simp) hmore
                (List.forall_mem_singleton.mpr (by decide))
          rw [items] at hlater
          rw [hsplit, items, splitAtChar_append hfront, List.map_cons, List.filter_cons,
            strip_blank_append hblanks, hvalue.stripped, hlater]
          simp [hvalue.ne_nil]

theorem not_mem_intercalate {sep : List Char} {parts : List (List Char)} (hsep : c ∉ sep)
    (hparts : ∀ part ∈ parts, c ∉ part) : c ∉ List.intercalate sep parts := by
  induction parts with
  | nil => simp
  | cons part more ih =>
      obtain ⟨hpart, hmore⟩ := List.forall_mem_cons.mp hparts
      cases more with
      | nil => rwa [List.intercalate_singleton]
      | cons next more =>
          rw [List.intercalate_cons_cons]
          simp only [List.mem_append, not_or]
          exact ⟨⟨hpart, hsep⟩, ih hmore⟩

/-! ### Fields -/

/-- What can stand between two fields: no field starts in it, and it ends a number. -/
structure Separates (sep : List Char) : Prop where
  first : ∃ c rest, sep = c :: rest ∧ isDigit c = false
  symbols : 'S' ∉ sep
  languages : 'L' ∉ sep

theorem separates_bar : Separates " | ".toList :=
  ⟨⟨' ', ['|', ' '], by decide, by decide⟩, by decide, by decide⟩

theorem separates_lineEnd (lineEnd : LineEnd) : Separates lineEnd.chars := by
  cases lineEnd with
  | feed => exact ⟨⟨'\n', [], rfl, by decide⟩, by decide, by decide⟩
  | returnAndFeed => exact ⟨⟨'\r', ['\n'], rfl, by decide⟩, by decide, by decide⟩

section Fields

variable {files symbols : Nat} {languages : List String} {sep : List Char}

/-- A label and a number. -/
def countField (label : List Char) (n : Nat) : List Char := label ++ Nat.toDigits 10 n

def languagesField (languages : List String) : List Char :=
  "Languages: ".toList ++ (String.intercalate ", " languages).toList

theorem layoutFields_eq (files symbols : Nat) (languages : List String) :
    layoutFields files symbols languages =
      [countField "Files: ".toList files, countField "Symbols: ".toList symbols,
        languagesField languages] := rfl

theorem leftmost_countField (label : List Char) (hsep : Separates sep) (n : Nat)
    (rest : List Char) :
    leftmost (digitsAfter? label) (countField label n ++ (sep ++ rest)) =
      some (Nat.toDigits 10 n) := by
  obtain ⟨c, follows, rfl, hc⟩ := hsep.first
  refine leftmost_of_read (digitsAfter?_eq_some_iff.mpr
    ⟨c :: follows ++ rest, List.append_assoc .., Nat.toDigits_ne_nil, ?_, ?_⟩)
  · exact fun d hd => isDigit_of_mem_toDigits hd
  · rintro d ⟨⟩
    exact hc

/-- Nothing that starts with a letter of its own is found in a number and what separates it. -/
theorem not_mem_countField {label : List Char} (hlabel : c ∉ label) (hc : isDigit c = false)
    (hsep : c ∉ sep) (n : Nat) : c ∉ countField label n ++ sep := by
  simp only [countField, List.mem_append, not_or]
  refine ⟨⟨hlabel, fun hmem => ?_⟩, hsep⟩
  rw [isDigit_of_mem_toDigits hmem] at hc
  cases hc

theorem languagesOf_skip (hfront : 'L' ∉ front) (s : List Char) :
    languagesOf (front ++ s) = languagesOf s := by
  have hlabel : "Languages: ".toList.head? = some 'L' := by decide
  have hskip : leftmost (lineAfter? "Languages: ".toList) (front ++ s) =
      leftmost (lineAfter? "Languages: ".toList) s :=
    leftmost_skip_of_label (fun _ _ hread => (lineAfter?_eq_some_iff.mp hread).startsWith) hlabel
      hfront s
  rw [languagesOf, hskip, ← languagesOf]

theorem languagesOf_languagesField (hne : languages ≠ [])
    (hlanguages : ∀ language ∈ languages, IsPlain language) (hrest : EndsLine rest) :
    languagesOf (languagesField languages ++ rest) = languages := by
  have hnames : languages.map String.toList ≠ [] := mt List.map_eq_nil_iff.mp hne
  have hplain : ∀ name ∈ languages.map String.toList, IsValue name ∧ ',' ∉ name :=
    List.forall_mem_map.mpr fun language hmem =>
      ⟨(hlanguages language hmem).value, (hlanguages language hmem).uncut⟩
  have hitems {tail : List Char} (htail : tail = [] ∨ tail = ['\r']) :
      items ((String.intercalate ", " languages).toList ++ tail) = languages.map String.toList := by
    rw [String.toList_intercalate]
    have hblanks : ∀ c ∈ ([] : List Char), isBlank c = true := by simp
    exact items_intercalate hnames hplain hblanks htail
  have hjoined : (String.intercalate ", " languages).toList ≠ [] := by
    intro hempty
    have hnone := hitems (Or.inl rfl)
    rw [hempty] at hnone
    exact hnames hnone.symm
  have hfeed : '\n' ∉ (String.intercalate ", " languages).toList := by
    rw [String.toList_intercalate]
    exact not_mem_intercalate (by decide) fun name hname => (hplain name hname).1.unbroken
  obtain ⟨tail, htail, hread⟩ :=
    lineAfter?_of_endsLine "Languages: ".toList hjoined hfeed hrest
  refine (congrArg languagesOf (List.append_assoc ..)).trans ?_
  rw [languagesOf, leftmost_of_read hread]
  simp only [hitems htail, List.map_map, Function.comp_def, String.ofList_toList, List.map_id']

/-- Three fields are read, whatever separates them. -/
theorem decode_of_fields {text : String} (hfiles : (Nat.toDigits 10 files).length ≤ maxDigits)
    (hsymbols : (Nat.toDigits 10 symbols).length ≤ maxDigits) (hne : languages ≠ [])
    (hlanguages : ∀ language ∈ languages, IsPlain language) (hsep : Separates sep)
    (hrest : EndsLine rest)
    (htext : text.toList = countField "Files: ".toList files ++ (sep ++
      (countField "Symbols: ".toList symbols ++ (sep ++ (languagesField languages ++ rest))))) :
    decode text = .ok { content := text, files, symbols, languages } := by
  have hfilesFound : leftmost (digitsAfter? "Files: ".toList) text.toList =
      some (Nat.toDigits 10 files) := by
    rw [htext]
    exact leftmost_countField _ hsep files _
  have hsymbolsFound : leftmost (digitsAfter? "Symbols: ".toList) text.toList =
      some (Nat.toDigits 10 symbols) := by
    have hlabel : "Symbols: ".toList.head? = some 'S' := by decide
    have hskip : 'S' ∉ countField "Files: ".toList files ++ sep :=
      not_mem_countField (by decide) (by decide) hsep.symbols files
    rw [htext, ← List.append_assoc, leftmost_skip_of_label
      (fun _ _ hread => (digitsAfter?_eq_some_iff.mp hread).startsWith) hlabel hskip]
    exact leftmost_countField _ hsep symbols _
  have hlanguagesFound : languagesOf text.toList = languages := by
    have hskip {label : List Char} (hlabel : 'L' ∉ label) (n : Nat) :
        'L' ∉ countField label n ++ sep :=
      not_mem_countField hlabel (by decide) hsep.languages n
    rw [htext, ← List.append_assoc, languagesOf_skip (hskip (by decide) files),
      ← List.append_assoc, languagesOf_skip (hskip (by decide) symbols)]
    exact languagesOf_languagesField hne hlanguages hrest
  unfold decode
  simp only [hfilesFound, hsymbolsFound, hlanguagesFound, numberOr_toDigits hfiles,
    numberOr_toDigits hsymbols]
  rfl

/-- A map is read back from both layouts: its counts, however large, and its languages in order,
whatever they hold besides commas and line feeds. This holds for either line end, with or without
one after the last line. -/
theorem decode_either_layout (lineEnd : LineEnd) {text : String}
    (hfiles : (Nat.toDigits 10 files).length ≤ maxDigits)
    (hsymbols : (Nat.toDigits 10 symbols).length ≤ maxDigits) (hne : languages ≠ [])
    (hlanguages : ∀ language ∈ languages, IsPlain language)
    (htext : (text = layoutLine files symbols languages ∨
        text = layoutLine files symbols languages ++ String.ofList lineEnd.chars) ∨
      text = layoutLines lineEnd files symbols languages ∨
        text ++ String.ofList lineEnd.chars = layoutLines lineEnd files symbols languages) :
    decode text = .ok { content := text, files, symbols, languages } := by
  rcases htext with hline | hlines
  · have hfields : ∃ rest, EndsLine rest ∧
        text.toList = (layoutLine files symbols languages).toList ++ rest := by
      rcases hline with rfl | rfl
      · exact ⟨[], Or.inl rfl, (List.append_nil _).symm⟩
      · refine ⟨lineEnd.chars, Or.inr ⟨lineEnd, [], (List.append_nil _).symm⟩, ?_⟩
        rw [String.toList_append, String.toList_ofList]
    obtain ⟨rest, hrest, htext⟩ := hfields
    refine decode_of_fields hfiles hsymbols hne hlanguages separates_bar hrest ?_
    rw [htext, layoutLine, layoutFields_eq, String.toList_ofList, List.intercalate_cons_cons,
      List.intercalate_cons_cons, List.intercalate_singleton]
    simp only [List.append_assoc]
  · have hfields : layoutFields files symbols languages =
        [countField "Files: ".toList files, countField "Symbols: ".toList symbols] ++
          languagesField languages :: [] := layoutFields_eq files symbols languages
    rw [layoutLines, hfields] at hlines
    obtain ⟨rest, htext, hrest⟩ := exists_endsLine_of_join hlines
    refine decode_of_fields hfiles hsymbols hne hlanguages (separates_lineEnd lineEnd) hrest ?_
    rw [htext, LineEnd.join_cons, LineEnd.join_cons]
    simp only [List.append_assoc]
    rfl

end Fields

/-- Languages that look like other fields. -/
def lookalikes : List String := ["Files: 9", "| Symbols: 9", "Languages: x\ry"]

theorem decode_either_layout_lookalikes :
    (Nat.toDigits 10 7).length ≤ maxDigits ∧ (Nat.toDigits 10 70).length ≤ maxDigits ∧
      (∀ language ∈ lookalikes, IsPlain language) ∧
      decode (layoutLine 7 70 lookalikes) =
        .ok ⟨layoutLine 7 70 lookalikes, 7, 70, lookalikes⟩ ∧
      decode (layoutLines .returnAndFeed 7 70 lookalikes) =
        .ok ⟨layoutLines .returnAndFeed 7 70 lookalikes, 7, 70, lookalikes⟩ := by
  have hfiles : (Nat.toDigits 10 7).length ≤ maxDigits := by decide
  have hsymbols : (Nat.toDigits 10 70).length ≤ maxDigits := by decide
  have hplain : ∀ language ∈ lookalikes, IsPlain language := by
    have hnames : ∀ language ∈ lookalikes, IsValue language.toList ∧ ',' ∉ language.toList := by
      decide
    exact fun language hlanguage => ⟨(hnames language hlanguage).1, (hnames language hlanguage).2⟩
  have hne : lookalikes ≠ [] := by decide
  refine ⟨hfiles, hsymbols, hplain, ?_, ?_⟩
  · exact decode_either_layout .feed hfiles hsymbols hne hplain (Or.inl (Or.inl rfl))
  · exact decode_either_layout .returnAndFeed hfiles hsymbols hne hplain (Or.inr (Or.inl rfl))

end Conductor.Reply.CodeMap
