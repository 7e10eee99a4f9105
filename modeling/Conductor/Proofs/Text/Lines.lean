import Conductor.Proofs.Text.Scan

/-!
Texts line by line, where only a line feed ends a line. The first line of a text with a property is
found by going through the places where its lines start; a line is what stands there before the next
line feed.
-/

namespace Conductor.Text

/-! ### The first of a list -/

variable {α β : Type} {P : α → Prop} {l : List α} {a b : α}

/-- The first member of a list with a property. -/
def IsFirst (P : α → Prop) (l : List α) (a : α) : Prop :=
  ∃ before after, l = before ++ a :: after ∧ (∀ earlier ∈ before, ¬ P earlier) ∧ P a

theorem IsFirst.holds (h : IsFirst P l a) : P a := by
  obtain ⟨-, -, -, -, ha⟩ := h
  exact ha

theorem IsFirst.mem (h : IsFirst P l a) : a ∈ l := by
  obtain ⟨before, after, rfl, -, -⟩ := h
  exact List.mem_append_right _ List.mem_cons_self

theorem isFirst_cons_of_holds (ha : P a) : IsFirst P (a :: l) b ↔ b = a := by
  constructor
  · rintro ⟨before, after, hl, hbefore, -⟩
    cases before with
    | nil => exact (List.cons.inj hl).1.symm
    | cons first before =>
        obtain ⟨rfl, -⟩ := List.cons.inj hl
        exact absurd ha (hbefore a List.mem_cons_self)
  · rintro rfl
    exact ⟨[], l, rfl, by simp, ha⟩

theorem isFirst_cons_of_not (ha : ¬ P a) : IsFirst P (a :: l) b ↔ IsFirst P l b := by
  constructor
  · rintro ⟨before, after, hl, hbefore, hb⟩
    cases before with
    | nil =>
        obtain ⟨rfl, -⟩ := List.cons.inj hl
        exact absurd hb ha
    | cons first before =>
        obtain ⟨rfl, rfl⟩ := List.cons.inj hl
        exact ⟨before, after, rfl, fun c hc => hbefore c (List.mem_cons_of_mem _ hc), hb⟩
  · rintro ⟨before, after, rfl, hbefore, hb⟩
    exact ⟨a :: before, after, rfl, List.forall_mem_cons.mpr ⟨ha, hbefore⟩, hb⟩

theorem exists_isFirst_iff : (∃ a, IsFirst P l a) ↔ ∃ a ∈ l, P a := by
  constructor
  · rintro ⟨a, ha⟩
    exact ⟨a, ha.mem, ha.holds⟩
  · intro hsome
    induction l with
    | nil => simp at hsome
    | cons b l ih =>
        by_cases hb : P b
        · exact ⟨b, (isFirst_cons_of_holds hb).mpr rfl⟩
        · simp only [isFirst_cons_of_not hb]
          refine ih ?_
          simpa [hb] using hsome

theorem IsFirst.unique (ha : IsFirst P l a) (hb : IsFirst P l b) : a = b := by
  induction l with
  | nil => exact absurd ha.mem List.not_mem_nil
  | cons c l ih =>
      by_cases hc : P c
      · rw [isFirst_cons_of_holds hc] at ha hb
        rw [ha, hb]
      · rw [isFirst_cons_of_not hc] at ha hb
        exact ih ha hb

theorem isFirst_congr {Q : α → Prop} (h : ∀ a, P a ↔ Q a) : IsFirst P l a ↔ IsFirst Q l a := by
  simp only [IsFirst, h]

/-- What comes first of many comes first of some of them, if it is one of these. -/
theorem IsFirst.of_imp {Q : α → Prop} (h : IsFirst P l a) (hall : ∀ b, Q b → P b) (ha : Q a) :
    IsFirst Q l a := by
  obtain ⟨before, after, hl, hbefore, -⟩ := h
  exact ⟨before, after, hl, fun b hb => mt (hall b) (hbefore b hb), ha⟩

theorem isFirst_map {Q : β → Prop} {f : α → β} {b : β} :
    IsFirst Q (l.map f) b ↔ ∃ a, IsFirst (fun a => Q (f a)) l a ∧ f a = b := by
  induction l with
  | nil =>
      refine iff_of_false (fun h => List.not_mem_nil h.mem) ?_
      rintro ⟨a, h, -⟩
      exact List.not_mem_nil h.mem
  | cons c l ih =>
      by_cases hc : Q (f c)
      · rw [List.map_cons, isFirst_cons_of_holds hc]
        simp only [isFirst_cons_of_holds (P := fun a => Q (f a)) hc, exists_eq_left]
        exact eq_comm
      · simp only [List.map_cons, isFirst_cons_of_not hc,
          isFirst_cons_of_not (P := fun a => Q (f a)) hc, ih]

/-- A search through a list stops at the first member that can be read. -/
theorem findSome?_eq_some_iff_isFirst {read : α → Option β} {value : β} :
    l.findSome? read = some value ↔
      ∃ a, IsFirst (fun a => (read a).isSome = true) l a ∧ read a = some value := by
  rw [List.findSome?_eq_some_iff]
  constructor
  · rintro ⟨before, a, after, rfl, ha, hbefore⟩
    refine ⟨a, ⟨before, after, rfl, ?_, by simp [ha]⟩, ha⟩
    intro earlier hearlier
    simp [hbefore earlier hearlier]
  · rintro ⟨a, ⟨before, after, rfl, hbefore, -⟩, ha⟩
    refine ⟨before, a, after, rfl, ha, fun earlier hearlier => ?_⟩
    simpa using hbefore earlier hearlier

/-- What is found where something first can be, or that there is nothing anywhere. -/
def FoundIn (Reads : α → β → Prop) (places : List α) : Option β → Prop
  | some value => ∃ place, IsFirst (fun place => ∃ value, Reads place value) places place ∧
      Reads place value
  | none => ∀ place ∈ places, ∀ value, ¬ Reads place value

theorem foundIn_iff {Reads : α → β → Prop} {read : α → Option β} {found : Option β}
    (hread : ∀ place ∈ l, ∀ value, read place = some value ↔ Reads place value) :
    FoundIn Reads l found ↔ l.findSome? read = found := by
  induction l with
  | nil => cases found <;> simp [FoundIn, IsFirst]
  | cons place places ih =>
      obtain ⟨hplace, hplaces⟩ := List.forall_mem_cons.mp hread
      rw [List.findSome?_cons]
      cases hvalue : read place with
      | some first =>
          have hsome : ∃ value, Reads place value := ⟨first, (hplace first).mp hvalue⟩
          cases found with
          | some value =>
              have hfirst (b : α) : IsFirst (fun place => ∃ value, Reads place value)
                  (place :: places) b ↔ b = place := isFirst_cons_of_holds hsome
              simp only [FoundIn, hfirst, exists_eq_left, ← hplace, hvalue]
          | none =>
              refine iff_of_false (fun hnone => ?_) (Option.some_ne_none first)
              obtain ⟨value, hreads⟩ := hsome
              exact hnone place List.mem_cons_self value hreads
      | none =>
          have hnot : ¬ ∃ value, Reads place value := by
            rintro ⟨value, hreads⟩
            rw [(hplace value).mpr hreads] at hvalue
            cases hvalue
          rw [← ih hplaces]
          cases found with
          | some value =>
              have hlater (b : α) :
                  IsFirst (fun place => ∃ value, Reads place value) (place :: places) b ↔
                    IsFirst (fun place => ∃ value, Reads place value) places b :=
                isFirst_cons_of_not hnot
              simp only [FoundIn, hlater]
          | none =>
              simp only [FoundIn, List.forall_mem_cons, not_exists.mp hnot, not_false_eq_true,
                implies_true, true_and]

/-! ### The starts of lines -/

variable {s front rest : List Char}

/-- The text from the start of each of its lines but the first on. -/
def laterLines : List Char → List (List Char)
  | [] => []
  | c :: rest => if c = '\n' then rest :: laterLines rest else laterLines rest

/-- The text from the start of each of its lines on. -/
def fromLines (s : List Char) : List (List Char) := s :: laterLines s

theorem feedLines_eq_cons (s : List Char) :
    feedLines s = firstLine s :: (laterLines s).map firstLine := by
  induction s with
  | nil => rfl
  | cons c s ih =>
      by_cases hc : c = '\n'
      · subst hc
        rw [feedLines, if_pos rfl, ih]
        rfl
      · rw [feedLines, if_neg hc, ih, laterLines, if_neg hc]
        simp [firstLine, hc]

/-- A line goes from its start to the next line feed. -/
theorem feedLines_eq_map (s : List Char) : feedLines s = (fromLines s).map firstLine :=
  feedLines_eq_cons s

/-- A text is one line, or a line, a line feed and a further text. -/
theorem lines_induction {motive : List Char → Prop} (last : ∀ line, '\n' ∉ line → motive line)
    (more : ∀ line rest, '\n' ∉ line → motive rest → motive (line ++ '\n' :: rest))
    (s : List Char) : motive s := by
  by_cases hs : '\n' ∈ s
  · obtain ⟨line, rest, rfl, hline⟩ := List.eq_append_cons_of_mem hs
    exact more line rest hline (lines_induction last more rest)
  · exact last s hs
termination_by s.length
decreasing_by
  subst s
  simp only [List.length_append, List.length_cons]
  omega

theorem laterLines_append (hfront : '\n' ∉ front) (rest : List Char) :
    laterLines (front ++ rest) = laterLines rest := by
  induction front with
  | nil => rfl
  | cons c front ih =>
      obtain ⟨hc, hmore⟩ := not_or.mp (mt List.mem_cons.mpr hfront)
      rw [List.cons_append, laterLines, if_neg (Ne.symm hc), ih hmore]

theorem fromLines_of_not_mem (hs : '\n' ∉ s) : fromLines s = [s] := by
  have hlater := laterLines_append hs []
  rw [List.append_nil] at hlater
  rw [fromLines, hlater]
  rfl

theorem fromLines_append (hfront : '\n' ∉ front) (rest : List Char) :
    fromLines (front ++ '\n' :: rest) = (front ++ '\n' :: rest) :: fromLines rest := by
  rw [fromLines, laterLines_append hfront]
  rfl

theorem firstLine_append (hfront : '\n' ∉ front) (rest : List Char) :
    firstLine (front ++ rest) = front ++ firstLine rest := by
  refine List.takeWhile_append_of_pos fun c hc => ?_
  simpa using ne_of_mem_of_not_mem hc hfront

theorem prefix_firstLine (s : List Char) : firstLine s <+: s := List.takeWhile_prefix _

theorem not_mem_firstLine (s : List Char) : '\n' ∉ firstLine s := by
  intro hmem
  simpa using List.mem_takeWhile_imp hmem

theorem not_mem_of_mem_feedLines (hline : front ∈ feedLines s) : '\n' ∉ front := by
  rw [feedLines_eq_map] at hline
  obtain ⟨here, -, rfl⟩ := List.mem_map.mp hline
  exact not_mem_firstLine here

theorem infix_strip (s : List Char) : strip s <:+: s := by
  have hend := stripEnd_prefix (stripStart s)
  exact hend.isInfix.trans (List.dropWhile_suffix isBlank).isInfix

/-- A front that neither starts nor ends with a blank stays. -/
theorem prefix_strip (hhead : ∀ c ∈ front.head?, isBlank c = false)
    (hlast : ∀ c ∈ front.getLast?, isBlank c = false) (hne : front ≠ []) (rest : List Char) :
    front <+: strip (front ++ rest) := by
  have hstart : stripStart (front ++ rest) = front ++ rest := by
    refine dropWhile_eq_self_iff.mpr ?_
    rwa [List.head?_append_of_ne_nil _ hne]
  have hend : front.reverse.dropWhile isBlank = front.reverse := by
    rw [dropWhile_eq_self_iff, List.head?_reverse]
    exact hlast
  rw [strip, hstart, stripEnd, List.reverse_append, List.dropWhile_append, hend]
  split
  · simp only [List.reverse_reverse, List.prefix_rfl]
  · rw [List.reverse_append, List.reverse_reverse]
    exact List.prefix_append _ _

end Conductor.Text
