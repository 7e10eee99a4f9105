import Mathlib.Data.List.Forall2
import Mathlib.Data.List.Sort
import Conductor.Proofs.Reply.TaskQueue

/-!
What is read from a text as a task queue, whatever the text. Here the lines have positions, and a
task is described by the positions of its header, of the announcements of files in its section, and
of the files listed after them. A line that lists a file does so for one task at most, and for none
if it stands before the first header.
-/

namespace Conductor.Reply

open Text

/-- The status has this glyph, or it is pending and no status has it. -/
def TaskStatus.IsShownBy (status : TaskStatus) (glyph : String) : Prop :=
  status.glyph = glyph ∨ status = .pending ∧ ∀ other : TaskStatus, other.glyph ≠ glyph

theorem TaskStatus.ofGlyph_isShownBy (glyph : String) : (ofGlyph glyph).IsShownBy glyph := by
  by_cases hknown : ∃ status : TaskStatus, status.glyph = glyph
  · obtain ⟨status, rfl⟩ := hknown
    rw [ofGlyph_glyph]
    exact Or.inl rfl
  · have hother (status : TaskStatus) : glyph ≠ status.glyph := fun h => hknown ⟨status, h.symm⟩
    refine Or.inr ⟨?_, fun other => (hother other).symm⟩
    rw [ofGlyph, if_neg (hother inProgress), if_neg (hother done), if_neg (hother failed)]

namespace TaskQueue

variable {line : List Char} {lines : List (List Char)} {start i k m : Nat} {task : Task}

/-! ### Lines -/

def IsHeader (line : List Char) : Prop := ∃ glyph digits title, Heads line glyph digits title

def IsItem (line : List Char) : Prop := ∃ name, Lists line name

/-- A line that announces files. -/
def OpensFiles (line : List Char) : Prop :=
  line = "**Files**:".toList ∨ line = "**Files to modify/create**:".toList

theorem isHeader_iff : (header? line).isSome = true ↔ IsHeader line := by
  rw [Option.isSome_iff_exists]
  simp only [header?_eq_some_iff, IsHeader]
  constructor
  · rintro ⟨task, glyph, digits, title, hheads, -⟩
    exact ⟨glyph, digits, title, hheads⟩
  · rintro ⟨glyph, digits, title, hheads⟩
    exact ⟨_, glyph, digits, title, hheads, rfl⟩

theorem isItem_iff : (fileItem? line).isSome = true ↔ IsItem line := by
  rw [Option.isSome_iff_exists]
  simp only [fileItem?_eq_some_iff, IsItem]

theorem opensFiles_iff : opensFiles line = true ↔ OpensFiles line := by
  rw [opensFiles, Bool.or_eq_true, decide_eq_true_iff, decide_eq_true_iff, OpensFiles]

instance (line : List Char) : Decidable (IsHeader line) :=
  decidable_of_iff ((header? line).isSome = true) isHeader_iff

instance (line : List Char) : Decidable (IsItem line) :=
  decidable_of_iff ((fileItem? line).isSome = true) isItem_iff

instance (line : List Char) : Decidable (OpensFiles line) :=
  inferInstanceAs (Decidable (_ ∨ _))

/-! The three kinds of lines differ in their first character. -/

theorem IsHeader.head? (h : IsHeader line) : line.head? = some '#' := by
  obtain ⟨glyph, digits, title, hheads⟩ := h
  rw [hheads.parts]
  rfl

theorem IsItem.head? (h : IsItem line) : line.head? = some '-' := by
  obtain ⟨name, hlists⟩ := h
  rw [hlists.parts]
  rfl

theorem OpensFiles.head? (h : OpensFiles line) : line.head? = some '*' := by
  rcases h with rfl | rfl <;> rfl

theorem IsItem.not_isHeader (h : IsItem line) : ¬ IsHeader line := fun hheader =>
  absurd (h.head?.symm.trans hheader.head?) (by decide)

theorem IsItem.not_opensFiles (h : IsItem line) : ¬ OpensFiles line := fun hopens =>
  absurd (h.head?.symm.trans hopens.head?) (by decide)

theorem OpensFiles.not_isHeader (h : OpensFiles line) : ¬ IsHeader line := fun hheader =>
  absurd (h.head?.symm.trans hheader.head?) (by decide)

/-! ### Positions -/

/-- There is a line with this property at the position. -/
def HoldsAt (P : List Char → Prop) (lines : List (List Char)) (i : Nat) : Prop :=
  ∃ line, line ∈ lines[i]? ∧ P line

section Positions

variable (P Q : List Char → Prop) [DecidablePred P] [DecidablePred Q]

instance (lines : List (List Char)) (i : Nat) : Decidable (HoldsAt P lines i) :=
  inferInstanceAs (Decidable (∃ line, line ∈ lines[i]? ∧ P line))

/-- The positions from `start` on of the lines with property `P`, as far as all lines from `start`
on have property `Q`. -/
def positions (lines : List (List Char)) (start : Nat) : List Nat :=
  (List.range lines.length).filter fun i =>
    start ≤ i ∧ HoldsAt P lines i ∧ ∀ j ≤ i, start ≤ j → HoldsAt Q lines j

variable {P Q}

omit [DecidablePred P]

@[simp]
theorem holdsAt_zero : HoldsAt P (line :: lines) 0 ↔ P line := by
  simp [HoldsAt]

@[simp]
theorem holdsAt_succ : HoldsAt P (line :: lines) (i + 1) ↔ HoldsAt P lines i := by
  simp [HoldsAt]

theorem HoldsAt.lt_length (h : HoldsAt P lines i) : i < lines.length := by
  obtain ⟨line, hline, -⟩ := h
  exact (List.getElem?_eq_some_iff.mp hline).1

theorem mem_positions [DecidablePred P] :
    i ∈ positions P Q lines start ↔
      start ≤ i ∧ HoldsAt P lines i ∧ ∀ j ≤ i, start ≤ j → HoldsAt Q lines j := by
  rw [positions, List.mem_filter, List.mem_range, decide_eq_true_iff]
  exact and_iff_right_of_imp fun h => h.2.1.lt_length

theorem pairwise_positions [DecidablePred P] (lines : List (List Char)) (start : Nat) :
    (positions P Q lines start).Pairwise (· < ·) :=
  List.pairwise_lt_range.filter _

theorem filter_range_succ {p : Nat → Bool} (n : Nat) :
    (List.range (n + 1)).filter p =
      (if p 0 then [0] else []) ++ ((List.range n).filter fun i => p (i + 1)).map (· + 1) := by
  rw [List.range_succ_eq_map, List.filter_cons, List.filter_map]
  cases p 0 <;> rfl

/-- Positions are counted from the first line on. -/
theorem positions_succ [DecidablePred P] :
    positions P Q (line :: lines) (start + 1) = (positions P Q lines start).map (· + 1) := by
  have hfirst : ∀ j, (∀ k ≤ j + 1, start + 1 ≤ k → HoldsAt Q (line :: lines) k) ↔
      ∀ k ≤ j, start ≤ k → HoldsAt Q lines k := by
    intro j
    constructor
    · intro h k hk hstart
      exact holdsAt_succ.mp (h (k + 1) (by omega) (by omega))
    · intro h k hk hstart
      obtain ⟨k, rfl⟩ : ∃ k', k = k' + 1 := ⟨k - 1, by omega⟩
      exact holdsAt_succ.mpr (h k (by omega) (by omega))
  rw [positions, List.length_cons, filter_range_succ, if_neg (by simp), List.nil_append, positions]
  simp only [hfirst, holdsAt_succ, Nat.add_le_add_iff_right]

theorem positions_zero [DecidablePred P] :
    positions P Q (line :: lines) 0 =
      if Q line then (if P line then [0] else []) ++ (positions P Q lines 0).map (· + 1)
      else [] := by
  have hfirst : ∀ j, (∀ k ≤ j + 1, HoldsAt Q (line :: lines) k) ↔
      Q line ∧ ∀ k ≤ j, HoldsAt Q lines k := by
    intro j
    constructor
    · intro h
      exact ⟨holdsAt_zero.mp (h 0 (by omega)),
        fun k hk => holdsAt_succ.mp (h (k + 1) (by omega))⟩
    · rintro ⟨hline, h⟩ k hk
      cases k with
      | zero => exact holdsAt_zero.mpr hline
      | succ k => exact holdsAt_succ.mpr (h k (by omega))
  rw [positions, List.length_cons, filter_range_succ, positions]
  simp only [Nat.zero_le, true_and, forall_const, hfirst, holdsAt_succ]
  by_cases hQ : Q line <;> simp [hQ]

end Positions

/-- The positions of the header lines. -/
def headersAt (lines : List (List Char)) : List Nat := positions IsHeader (fun _ => True) lines 0

/-- The positions of the announcements of files from `start` on, up to the next header. -/
def blocksFrom (lines : List (List Char)) (start : Nat) : List Nat :=
  positions OpensFiles (fun line => ¬ IsHeader line) lines start

/-- The positions of the files that are listed from `start` on without a gap. -/
def runFrom (lines : List (List Char)) (start : Nat) : List Nat :=
  positions IsItem IsItem lines start

/-- The positions of the files of a section whose header stands right before `start`. -/
def itemsFrom (lines : List (List Char)) (start : Nat) : List Nat :=
  (blocksFrom lines start).flatMap fun k => runFrom lines (k + 1)

theorem itemsFrom_succ :
    itemsFrom (line :: lines) (start + 1) = (itemsFrom lines start).map (· + 1) := by
  simp only [itemsFrom, blocksFrom, runFrom, positions_succ, List.flatMap_map, List.map_flatMap]

/-! ### Files -/

/-- The file is listed at the position. -/
def ListedAt (lines : List (List Char)) (m : Nat) (file : String) : Prop :=
  HoldsAt (fun line => Lists line file.toList) lines m

theorem listedAt_shift {positions : List Nat} {files : List String}
    (h : List.Forall₂ (ListedAt lines) positions files) :
    List.Forall₂ (ListedAt (line :: lines)) (positions.map (· + 1)) files := by
  rw [List.forall₂_map_left_iff]
  exact h.imp fun _ _ hlisted => holdsAt_succ.mpr hlisted

theorem leadingFiles_listedAt (lines : List (List Char)) :
    List.Forall₂ (ListedAt lines) (runFrom lines 0) (leadingFiles lines) := by
  induction lines with
  | nil => exact .nil
  | cons line lines ih =>
      rw [runFrom, positions_zero, leadingFiles]
      cases hitem : fileItem? line with
      | none =>
          have hnot : ¬ IsItem line := by rw [← isItem_iff, hitem]; exact Bool.false_ne_true
          rw [if_neg hnot]
          exact .nil
      | some name =>
          have hlists := fileItem?_eq_some_iff.mp hitem
          rw [if_pos ⟨name, hlists⟩, if_pos ⟨name, hlists⟩]
          refine .cons (holdsAt_zero.mpr ?_) (listedAt_shift ih)
          rw [String.toList_ofList]
          exact hlists

theorem leadingFiles_drop_listedAt (lines : List (List Char)) (start : Nat) :
    List.Forall₂ (ListedAt lines) (runFrom lines start) (leadingFiles (lines.drop start)) := by
  induction lines generalizing start with
  | nil =>
      rw [List.drop_nil]
      exact .nil
  | cons line lines ih =>
      cases start with
      | zero => exact leadingFiles_listedAt (line :: lines)
      | succ start =>
          rw [runFrom, positions_succ]
          exact listedAt_shift (ih start)

/-- The files of a section are collected list by list, each of them from the line after its
announcement on. -/
theorem filesOfSection_eq_flatMap (lines : List (List Char)) :
    filesOfSection lines =
      (blocksFrom lines 0).flatMap fun k => leadingFiles (lines.drop (k + 1)) := by
  induction lines with
  | nil => rfl
  | cons line lines ih =>
      rw [filesOfSection, blocksFrom, positions_zero]
      simp only [isHeader_iff, opensFiles_iff]
      by_cases hheader : IsHeader line
      · simp [hheader]
      · by_cases hopens : OpensFiles line <;>
          simp [hheader, hopens, ih, blocksFrom, List.flatMap_map]

theorem filesOfSection_listedAt (lines : List (List Char)) :
    List.Forall₂ (ListedAt lines) (itemsFrom lines 0) (filesOfSection lines) := by
  rw [filesOfSection_eq_flatMap]
  refine List.rel_flatMap (List.forall₂_same.mpr fun k _ => rfl) ?_
  rintro k _ rfl
  exact leadingFiles_drop_listedAt lines (k + 1)

/-- Collecting files from lines that are not stripped yet finds what a section lists there. -/
theorem filesOfSection_eq_filesFrom (lines : List String) :
    filesOfSection (lines.map fun line => strip line.toList) =
      (blocksFrom (lines.map fun line => strip line.toList) 0).flatMap fun k =>
        filesFrom lines (k + 1 : Nat) := by
  rw [filesOfSection_eq_flatMap]
  refine List.flatMap_congr fun k _ => ?_
  rw [filesFrom, if_neg (by omega), Int.toNat_natCast, List.map_drop]

/-! ### Tasks -/

/-- The task whose header stands at the position: its identifier, its title and its status are those
of the header, and its files are those listed in the section. -/
structure IsTaskAt (lines : List (List Char)) (i : Nat) (task : Task) : Prop where
  header : ∃ glyph digits title, HoldsAt (Heads · glyph digits title) lines i ∧
    task.id.toList = "task-".toList ++ digits ∧ task.title.toList = strip title ∧
      task.status.IsShownBy (String.ofList glyph)
  title : task.title ≠ ""
  files : List.Forall₂ (ListedAt lines) (itemsFrom lines (i + 1)) task.files

theorem IsTaskAt.shift (h : IsTaskAt lines i task) : IsTaskAt (line :: lines) (i + 1) task where
  header := by
    obtain ⟨glyph, digits, title, hheads, hrest⟩ := h.header
    exact ⟨glyph, digits, title, holdsAt_succ.mpr hheads, hrest⟩
  title := h.title
  files := by
    rw [itemsFrom_succ]
    exact listedAt_shift h.files

/-- The title of a stripped line is not blank. -/
theorem Heads.strip_title_ne_nil {glyph digits title : List Char}
    (h : Heads line glyph digits title) (hstrip : strip line = line) : strip title ≠ [] := by
  obtain ⟨front, hfront⟩ : ∃ front, line = front ++ title :=
    ⟨"## ".toList ++ (glyph ++ (" task-".toList ++ (digits ++ ": ".toList))), by simp [h.parts]⟩
  obtain ⟨c, hc⟩ := Option.ne_none_iff_exists'.mp (mt List.getLast?_eq_none_iff.mp h.title)
  have hlast : line.getLast? = some c := by
    rw [hfront, List.getLast?_append_of_ne_nil _ h.title, hc]
  have hsolid := (strip_eq_self_iff.mp hstrip).2 c hlast
  intro hnil
  rw [strip_eq_nil_iff.mp hnil c (List.mem_of_getLast? hc)] at hsolid
  cases hsolid

theorem tasksOf_isTaskAt (hstrip : ∀ line ∈ lines, strip line = line) :
    List.Forall₂ (IsTaskAt lines) (headersAt lines) (tasksOf lines) := by
  induction lines with
  | nil => exact .nil
  | cons line lines ih =>
      obtain ⟨hline, hlines⟩ := List.forall_mem_cons.mp hstrip
      have hlater : List.Forall₂ (IsTaskAt (line :: lines)) ((headersAt lines).map (· + 1))
          (tasksOf lines) := by
        rw [List.forall₂_map_left_iff]
        exact (ih hlines).imp fun _ _ htask => htask.shift
      rw [headersAt, positions_zero, if_pos trivial, tasksOf]
      cases hheader : header? line with
      | none =>
          have hnot : ¬ IsHeader line := by rw [← isHeader_iff, hheader]; exact Bool.false_ne_true
          rw [if_neg hnot]
          exact hlater
      | some task =>
          obtain ⟨glyph, digits, title, hheads, rfl⟩ := header?_eq_some_iff.mp hheader
          rw [if_pos ⟨glyph, digits, title, hheads⟩]
          refine .cons ⟨?_, ?_, ?_⟩ hlater
          · refine ⟨glyph, digits, title, holdsAt_zero.mpr hheads, ?_, ?_, ?_⟩
            · exact String.toList_ofList
            · exact String.toList_ofList
            · exact TaskStatus.ofGlyph_isShownBy _
          · intro hempty
            exact hheads.strip_title_ne_nil hline (by simpa using congrArg String.toList hempty)
          · rw [itemsFrom_succ]
            exact listedAt_shift (filesOfSection_listedAt lines)

/-! ### Every file once -/

/-- A file is listed at the position, in a list that is announced after some header. -/
def IsListed (lines : List (List Char)) (m : Nat) : Prop :=
  ∃ k < m, (∃ i < k, HoldsAt IsHeader lines i) ∧ HoldsAt OpensFiles lines k ∧
    ∀ j ≤ m, k < j → HoldsAt IsItem lines j

instance (lines : List (List Char)) (m : Nat) : Decidable (IsListed lines m) :=
  inferInstanceAs (Decidable (∃ k < m, _))

theorem HoldsAt.not {P Q : List Char → Prop} (h : HoldsAt P lines i)
    (hapart : ∀ line, P line → ¬ Q line) : ¬ HoldsAt Q lines i := by
  obtain ⟨line, hline, hP⟩ := h
  rintro ⟨line', hline', hQ⟩
  obtain rfl := Option.mem_unique hline hline'
  exact hapart line hP hQ

theorem holdsAt_not {P : List Char → Prop} (hlt : i < lines.length) :
    HoldsAt (fun line => ¬ P line) lines i ↔ ¬ HoldsAt P lines i := by
  simp [HoldsAt, List.getElem?_eq_getElem hlt]

theorem mem_headersAt : i ∈ headersAt lines ↔ HoldsAt IsHeader lines i := by
  rw [headersAt, mem_positions]
  constructor
  · exact fun h => h.2.1
  · intro h
    refine ⟨Nat.zero_le i, h, fun j hj _ => ?_⟩
    have hlt := h.lt_length
    exact ⟨lines[j], List.getElem?_eq_getElem (by omega), trivial⟩

theorem mem_blocksFrom :
    k ∈ blocksFrom lines start ↔
      start ≤ k ∧ HoldsAt OpensFiles lines k ∧ ∀ j ≤ k, start ≤ j → ¬ HoldsAt IsHeader lines j := by
  rw [blocksFrom, mem_positions]
  refine and_congr_right fun _ => and_congr_right fun hopens => forall₂_congr fun j hj => ?_
  rw [holdsAt_not (Nat.lt_of_le_of_lt hj hopens.lt_length)]

theorem mem_runFrom :
    m ∈ runFrom lines start ↔ start ≤ m ∧ ∀ j ≤ m, start ≤ j → HoldsAt IsItem lines j := by
  rw [runFrom, mem_positions]
  exact and_congr_right fun hstart => and_iff_right_of_imp fun h => h m (Nat.le_refl m) hstart

theorem mem_itemsFrom :
    m ∈ itemsFrom lines start ↔
      ∃ k ∈ blocksFrom lines start, k < m ∧ ∀ j ≤ m, k < j → HoldsAt IsItem lines j := by
  simp only [itemsFrom, List.mem_flatMap, mem_runFrom, Nat.succ_le_iff]

/-- The lists of a section come one after the other. -/
theorem pairwise_itemsFrom (lines : List (List Char)) (start : Nat) :
    (itemsFrom lines start).Pairwise (· < ·) := by
  rw [itemsFrom, List.pairwise_flatMap]
  refine ⟨fun k _ => pairwise_positions lines (k + 1), ?_⟩
  refine (pairwise_positions lines start).imp_of_mem ?_
  intro k k' hk hk' hlt m hm m' hm'
  obtain ⟨hkm, hitems⟩ := mem_runFrom.mp hm
  obtain ⟨hkm', -⟩ := mem_runFrom.mp hm'
  have hopens := (mem_blocksFrom.mp hk').2.1
  have hbefore : m < k' := by
    by_contra hafter
    exact (hitems k' (by omega) (by omega)).not (fun _ => IsItem.not_opensFiles) hopens
  omega

/-- All files of a section stand between its header and the next one. -/
theorem lt_of_mem_itemsFrom (hm : m ∈ itemsFrom lines start) :
    start ≤ m ∧ ∀ i, start ≤ i → HoldsAt IsHeader lines i → m < i := by
  obtain ⟨k, hk, hkm, hitems⟩ := mem_itemsFrom.mp hm
  obtain ⟨hstart, -, hsection⟩ := mem_blocksFrom.mp hk
  refine ⟨by omega, ?_⟩
  intro i hi hheader
  have hki : k < i := by
    by_contra hbefore
    exact hsection i (by omega) hi hheader
  by_contra hafter
  exact (hitems i (by omega) hki).not (fun _ => IsItem.not_isHeader) hheader

theorem exists_last_header (h : ∃ i < k, HoldsAt IsHeader lines i) :
    ∃ i < k, HoldsAt IsHeader lines i ∧ ∀ j < k, i < j → ¬ HoldsAt IsHeader lines j := by
  induction k with
  | zero =>
      obtain ⟨i, hi, -⟩ := h
      omega
  | succ k ih =>
      by_cases hk : HoldsAt IsHeader lines k
      · exact ⟨k, Nat.lt_succ_self k, hk, fun j hj hlt => by omega⟩
      · obtain ⟨i, hi, hheader⟩ := h
        have hne : i ≠ k := by
          rintro rfl
          exact hk hheader
        obtain ⟨last, hlast, hheader', hnone⟩ := ih ⟨i, by omega, hheader⟩
        refine ⟨last, by omega, hheader', ?_⟩
        intro j hj hlt
        rcases Nat.lt_succ_iff_lt_or_eq.mp hj with hj | rfl
        · exact hnone j hj hlt
        · exact hk

/-- A listed file belongs to the section of the last header before its list. -/
theorem exists_mem_itemsFrom_iff :
    (∃ i ∈ headersAt lines, m ∈ itemsFrom lines (i + 1)) ↔ IsListed lines m := by
  constructor
  · rintro ⟨i, hi, hm⟩
    obtain ⟨k, hk, hkm, hitems⟩ := mem_itemsFrom.mp hm
    obtain ⟨hstart, hopens, -⟩ := mem_blocksFrom.mp hk
    exact ⟨k, hkm, ⟨i, by omega, mem_headersAt.mp hi⟩, hopens, hitems⟩
  · rintro ⟨k, hkm, hheader, hopens, hitems⟩
    obtain ⟨i, hi, hheader, hnone⟩ := exists_last_header hheader
    refine ⟨i, mem_headersAt.mpr hheader, mem_itemsFrom.mpr ⟨k, mem_blocksFrom.mpr ?_, hkm, hitems⟩⟩
    refine ⟨by omega, hopens, ?_⟩
    intro j hj hstart
    rcases Nat.lt_or_eq_of_le hj with hlt | rfl
    · exact hnone j hlt hstart
    · exact hopens.not fun _ => OpensFiles.not_isHeader

/-- The files of the sections, one section after the other, are the listed files in the order of the
lines, each of them once. -/
theorem flatMap_itemsFrom (lines : List (List Char)) :
    (headersAt lines).flatMap (fun i => itemsFrom lines (i + 1)) =
      (List.range lines.length).filter (IsListed lines ·) := by
  refine List.Pairwise.eq_of_mem_iff (r := (· < ·)) ?_ (List.pairwise_lt_range.filter _) ?_
  · rw [List.pairwise_flatMap]
    refine ⟨fun i _ => pairwise_itemsFrom lines (i + 1), ?_⟩
    refine (pairwise_positions lines 0).imp_of_mem ?_
    intro i i' _ hi' hlt m hm m' hm'
    have hbefore := (lt_of_mem_itemsFrom hm).2 i' hlt (mem_headersAt.mp hi')
    have hafter := (lt_of_mem_itemsFrom hm').1
    omega
  · intro m
    rw [List.mem_flatMap, exists_mem_itemsFrom_iff, List.mem_filter, List.mem_range,
      decide_eq_true_iff]
    refine (and_iff_right_of_imp ?_).symm
    rintro ⟨k, hkm, -, -, hitems⟩
    exact (hitems m (Nat.le_refl m) hkm).lt_length

/-! ### Texts one after the other -/

section Append

variable {more : List (List Char)}

theorem leadingFiles_append (hmore : leadingFiles more = []) :
    leadingFiles (lines ++ more) = leadingFiles lines := by
  induction lines with
  | nil => exact hmore
  | cons line lines ih => rw [List.cons_append, leadingFiles, leadingFiles, ih]

theorem filesOfSection_append (hleading : leadingFiles more = [])
    (hsection : filesOfSection more = []) :
    filesOfSection (lines ++ more) = filesOfSection lines := by
  induction lines with
  | nil => exact hsection
  | cons line lines ih =>
      rw [List.cons_append, filesOfSection, filesOfSection, ih, leadingFiles_append hleading]

/-- Lines that start a section of their own change nothing about the tasks before them. -/
theorem tasksOf_append (hleading : leadingFiles more = []) (hsection : filesOfSection more = []) :
    tasksOf (lines ++ more) = tasksOf lines ++ tasksOf more := by
  induction lines with
  | nil => rfl
  | cons line lines ih =>
      rw [List.cons_append, tasksOf, tasksOf, ih, filesOfSection_append hleading hsection]
      cases header? line <;> rfl

theorem files_of_header (h : HoldsAt IsHeader more 0) :
    leadingFiles more = [] ∧ filesOfSection more = [] := by
  cases more with
  | nil => exact ⟨rfl, rfl⟩
  | cons line more =>
      have hitem : fileItem? line = none := by
        rw [← Option.not_isSome_iff_eq_none, isItem_iff]
        exact fun hitem => hitem.not_isHeader (holdsAt_zero.mp h)
      rw [leadingFiles, hitem, filesOfSection, if_pos (isHeader_iff.mpr (holdsAt_zero.mp h))]
      exact ⟨rfl, rfl⟩

theorem strippedLines_append_feed (s t : List Char) :
    ∃ gap, (gap = [] ∨ gap = [[]]) ∧
      strippedLines (s ++ '\n' :: t) = strippedLines s ++ (gap ++ strippedLines t) := by
  obtain ⟨gap, hgap, hlines⟩ := printedLinesFrom_append_feed [] s t
  refine ⟨gap, hgap, ?_⟩
  have hstrip : gap.map strip = gap := by
    rcases hgap with rfl | rfl <;> rfl
  rw [strippedLines, printedLines, hlines, List.map_append, List.map_append, hstrip]
  rfl

end Append

/-- How tasks are read from lines. There is one task for each header, in the order of the headers.
The sections divide the positions of the listed files among them, and leave out or repeat none; so
the files of all tasks are the listed files, in the order of the lines. -/
structure IsReading (lines : List (List Char)) (tasks : List Task) : Prop where
  headers : List.Forall₂ (IsTaskAt lines) (headersAt lines) tasks
  once : (headersAt lines).flatMap (fun i => itemsFrom lines (i + 1)) =
    (List.range lines.length).filter (IsListed lines ·)
  files : List.Forall₂ (ListedAt lines) ((List.range lines.length).filter (IsListed lines ·))
    (tasks.flatMap (·.files))

theorem strippedLines_isReading (s : List Char) :
    IsReading (strippedLines s) (tasksOf (strippedLines s)) := by
  have hstrip : ∀ line ∈ strippedLines s, strip line = line := by
    intro line hline
    obtain ⟨printed, -, rfl⟩ := List.mem_map.mp hline
    exact strip_strip printed
  refine ⟨tasksOf_isTaskAt hstrip, flatMap_itemsFrom _, ?_⟩
  rw [← flatMap_itemsFrom]
  exact List.rel_flatMap (tasksOf_isTaskAt hstrip) fun _ _ htask => htask.files

theorem strippedLines_append_tasks (s : List Char) {t : List Char}
    (hheader : HoldsAt IsHeader (strippedLines t) 0) :
    tasksOf (strippedLines (s ++ '\n' :: t)) =
      tasksOf (strippedLines s) ++ tasksOf (strippedLines t) := by
  obtain ⟨gap, hgap, hlines⟩ := strippedLines_append_feed s t
  obtain ⟨hleading, hsection⟩ := files_of_header hheader
  rw [hlines]
  rcases hgap with rfl | rfl
  · exact tasksOf_append hleading hsection
  · exact tasksOf_append rfl hsection

/-- Every text is read as a queue in this way, from its stripped lines, and the size of the queue is
the number of its tasks. So a text that starts with a header can be put below any other, on a line
of its own, and its tasks come after those of the other. -/
theorem decode_isReading :
    (∀ text : String, IsReading (strippedLines text.toList) (decode text).tasks ∧
      (decode text).size = (decode text).tasks.length) ∧
    ∀ first second : String, HoldsAt IsHeader (strippedLines second.toList) 0 →
      (decode (first ++ "\n" ++ second)).tasks = (decode first).tasks ++ (decode second).tasks := by
  refine ⟨fun text => ⟨strippedLines_isReading text.toList, rfl⟩, ?_⟩
  intro first second hheader
  have htext : (first ++ "\n" ++ second).toList = first.toList ++ '\n' :: second.toList := by
    simp
  rw [decode, htext]
  exact strippedLines_append_tasks first.toList hheader

/-- A text with files before its first header, with two lists in a section, and with an item that is
in neither of them. -/
def scattered : String :=
  "**Files**:\n- \x60early\x60\n  ## ✅ task-1: First \n**Files**:\n- \x60a\x60\n\n" ++
    "- \x60stray\x60\n**Files to modify/create**:\r\n- \x60b\x60\n- \x60c\x60\r"

theorem decode_isReading_scattered :
    HoldsAt IsHeader (strippedLines "## ? task-02: Second".toList) 0 ∧
      (decode (scattered ++ "\n" ++ "## ? task-02: Second")).tasks =
        [⟨"task-1", "First", .done, ["a", "b", "c"]⟩, ⟨"task-02", "Second", .pending, []⟩] := by
  have hheader : HoldsAt IsHeader (strippedLines "## ? task-02: Second".toList) 0 := by
    decide +kernel
  refine ⟨hheader, (decode_isReading.2 scattered _ hheader).trans ?_⟩
  decide +kernel

end TaskQueue

end Conductor.Reply
