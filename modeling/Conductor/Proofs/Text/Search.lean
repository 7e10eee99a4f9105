import Mathlib.Data.List.Infix
import Conductor.Proofs.Text.Lines

/-!
Searching a text. What a search finds is said by a relation: what can be read at a place, and that
nothing can be read at any place before it. Where a reader starts with a certain character and never
reads across a stop, a text can be searched part by part.
-/

namespace Conductor.Text

variable {α : Type} {Reads : List Char → α → Prop} {read : List Char → Option α} {a : α}
  {p : Char → Bool} {c : Char} {s front here rest label mark run : List Char}

/-! ### The first place -/

/-- Something can be read at some place of the text. -/
def SomewhereIn (Reads : List Char → α → Prop) (s : List Char) : Prop :=
  ∃ here a, here <:+ s ∧ Reads here a

/-- This can be read at some place of the text, and nothing at any place before it. -/
def FirstIn (Reads : List Char → α → Prop) (s : List Char) (a : α) : Prop :=
  ∃ front here, s = front ++ here ∧ Reads here a ∧
    ∀ earlier there, s = earlier ++ there → earlier.length < front.length → ∀ b, ¬ Reads there b

theorem FirstIn.somewhereIn (h : FirstIn Reads s a) : SomewhereIn Reads s := by
  obtain ⟨front, here, rfl, hhere, -⟩ := h
  exact ⟨here, a, List.suffix_append front here, hhere⟩

/-- What can be read at the front of a text is what comes first in it. -/
theorem firstIn_of_front (hfront : Reads s a) : FirstIn Reads s a :=
  ⟨[], s, rfl, hfront, fun _ _ _ hlt => absurd hlt (Nat.not_lt_zero _)⟩

theorem FirstIn.of_front {b : α} (h : FirstIn Reads s a) (hfront : Reads s b) : Reads s a := by
  obtain ⟨front, here, hs, hhere, hfirst⟩ := h
  cases front with
  | nil => exact hs ▸ hhere
  | cons d front => exact absurd hfront (hfirst [] s rfl (Nat.succ_pos _) b)

/-- Where nothing can be read at the front, the search goes on behind the first character. -/
theorem firstIn_cons (hfront : ∀ b, ¬ Reads (c :: s) b) :
    FirstIn Reads (c :: s) a ↔ FirstIn Reads s a := by
  constructor
  · rintro ⟨front, here, hs, hhere, hfirst⟩
    cases front with
    | nil => exact absurd (hs ▸ hhere) (hfront a)
    | cons d front =>
        obtain ⟨rfl, rfl⟩ := List.cons.inj hs
        refine ⟨front, here, rfl, hhere, ?_⟩
        intro earlier there hsplit hlt
        refine hfirst (c :: earlier) there (by rw [hsplit, List.cons_append]) ?_
        simpa using hlt
  · rintro ⟨front, here, rfl, hhere, hfirst⟩
    refine ⟨c :: front, here, rfl, hhere, ?_⟩
    intro earlier there hsplit hlt
    cases earlier with
    | nil =>
        obtain rfl : c :: (front ++ here) = there := hsplit
        exact hfront
    | cons d earlier =>
        obtain ⟨-, hsplit'⟩ := List.cons.inj hsplit
        exact hfirst earlier there hsplit' (by simpa using hlt)

/-- Where anything can be read, something comes first. -/
theorem exists_firstIn_iff : (∃ a, FirstIn Reads s a) ↔ SomewhereIn Reads s := by
  constructor
  · rintro ⟨a, hfirst⟩
    exact hfirst.somewhereIn
  · rintro ⟨here, b, hsuffix, hhere⟩
    induction s with
    | nil =>
        obtain rfl := List.suffix_nil.mp hsuffix
        exact ⟨b, firstIn_of_front hhere⟩
    | cons c s ih =>
        by_cases hfront : ∃ a, Reads (c :: s) a
        · obtain ⟨a, ha⟩ := hfront
          exact ⟨a, firstIn_of_front ha⟩
        · simp only [firstIn_cons (not_exists.mp hfront)]
          rcases List.suffix_cons_iff.mp hsuffix with rfl | hlater
          · exact absurd ⟨b, hhere⟩ hfront
          · exact ih hlater

/-- A search finds what comes first. -/
theorem leftmost_eq_some_iff (hread : ∀ here b, read here = some b ↔ Reads here b) :
    leftmost read s = some a ↔ FirstIn Reads s a := by
  induction s with
  | nil =>
      rw [leftmost, hread]
      constructor
      · exact firstIn_of_front
      · rintro ⟨front, here, hs, hhere, -⟩
        obtain ⟨rfl, rfl⟩ := List.append_eq_nil_iff.mp hs.symm
        exact hhere
  | cons c s ih =>
      cases hfront : read (c :: s) with
      | some b =>
          simp only [leftmost, hfront, Option.some.injEq]
          constructor
          · rintro rfl
            exact firstIn_of_front ((hread _ _).mp hfront)
          · intro hfirst
            have ha := (hread _ _).mpr (hfirst.of_front ((hread _ _).mp hfront))
            exact Option.some.inj (hfront.symm.trans ha)
      | none =>
          have hnone : ∀ b, ¬ Reads (c :: s) b := by
            intro b hb
            rw [(hread _ _).mpr hb] at hfront
            cases hfront
          simp only [leftmost, hfront, ih, firstIn_cons hnone]

theorem leftmost_eq_none_iff (hread : ∀ here b, read here = some b ↔ Reads here b) :
    leftmost read s = none ↔ ¬ SomewhereIn Reads s := by
  rw [← Option.not_isSome_iff_eq_none, leftmost_isSome_iff]
  simp only [Option.isSome_iff_exists, hread, SomewhereIn]
  constructor
  · rintro hnone ⟨here, b, hsuffix, hb⟩
    exact hnone ⟨here, hsuffix, b, hb⟩
  · rintro hnone ⟨here, hsuffix, b, hb⟩
    exact hnone ⟨here, b, hsuffix, hb⟩

/-! ### Runs after a label -/

/-- After the label, and right at the front of the text, stands this run: all there is of its
class. -/
def RunAfter (p : Char → Bool) (label here run : List Char) : Prop :=
  ∃ rest, here = label ++ (run ++ rest) ∧ run ≠ [] ∧ (∀ c ∈ run, p c = true) ∧
    ∀ c ∈ rest.head?, p c = false

theorem RunAfter.mem (h : RunAfter p label here run) : run ≠ [] ∧ ∀ c ∈ run, p c = true := by
  obtain ⟨rest, -, hne, hrun, -⟩ := h
  exact ⟨hne, hrun⟩

theorem runAfter_iff :
    (match after? label here with
      | some rest => (run? p rest).map Prod.fst
      | none => none) = some run ↔ RunAfter p label here run := by
  cases hafter : after? label here with
  | none =>
      refine iff_of_false (by simp) ?_
      rintro ⟨rest, rfl, -⟩
      rw [after?_append] at hafter
      cases hafter
  | some follows =>
      obtain rfl := after?_eq_some_iff.mp hafter
      simp only [Option.map_eq_some_iff, Prod.exists, exists_and_right, exists_eq_right,
        run?_eq_some_iff, RunAfter, List.append_cancel_left_eq]

/-- The rest of a line. -/
theorem lineAfter?_eq_some_iff :
    lineAfter? label here = some run ↔ RunAfter (· != '\n') label here run := runAfter_iff

theorem tokenAfter?_eq_some_iff :
    tokenAfter? label here = some run ↔ RunAfter (fun c => !isBlank c) label here run :=
  runAfter_iff

theorem wordAfter?_eq_some_iff :
    wordAfter? label here = some run ↔ RunAfter isWordChar label here run := runAfter_iff

theorem digitsAfter?_eq_some_iff :
    digitsAfter? label here = some run ↔ RunAfter isDigit label here run := runAfter_iff

/-- No digit of any script is blank. -/
theorem isBlank_of_isDigit (hc : isDigit c = true) : isBlank c = false := by
  have hapart : ∀ base ∈ digitZeros, 32 < base ∧ (base + 10 ≤ 0x85 ∨ 0xa0 < base) ∧
      (base + 10 ≤ 0x1680 ∨ 0x1680 < base) ∧ (base + 10 ≤ 0x2000 ∨ 0x3000 < base) := by decide
  unfold isDigit digitValue? at hc
  split at hc
  · next base hbase =>
      have hbounds := List.find?_some hbase
      obtain ⟨hlow, hlatin, hogham, hspaces⟩ := hapart base (List.mem_of_find?_eq_some hbase)
      simp only [Bool.and_eq_true, decide_eq_true_eq] at hbounds
      simp only [isBlank, Bool.or_eq_false_iff, Bool.and_eq_false_iff, decide_eq_false_iff_not,
        beq_eq_false_iff_ne]
      omega
  · cases hc

/-- Of the characters before the second script, only the ASCII digits are digits. -/
theorem isDigit_eq_false (hlow : c.toNat < 0x660) (hc : c.isDigit = false) : isDigit c = false := by
  have hzeros : ∀ base ∈ digitZeros, base = 48 ∨ 0x660 ≤ base := by decide
  rw [← Bool.not_eq_true] at hc ⊢
  refine mt (fun hdigit => ?_) hc
  unfold isDigit digitValue? at hdigit
  split at hdigit
  · next base hbase =>
      have hbounds := List.find?_some hbase
      simp only [Bool.and_eq_true, decide_eq_true_eq] at hbounds
      refine Char.isDigit_iff_toNat.mpr ?_
      change 48 ≤ c.toNat ∧ c.toNat ≤ 57
      rcases hzeros base (List.mem_of_find?_eq_some hbase) with rfl | hlater <;> omega
  · cases hdigit

/-! ### Part by part -/

/-- The reader reads nothing from an empty text, and it looks no further than to a character that
stops it. -/
structure Bounded (stops : Char → Bool) (read : List Char → Option α) : Prop where
  nil : read [] = none
  stays : ∀ s c rest, stops c = true → read (s ++ c :: rest) = read s

/-- Moreover, the reader reads something only where a text starts with `first`. -/
structure Confined (first : Char) (stops : Char → Bool) (read : List Char → Option α) : Prop
    extends Bounded stops read where
  starts : ∀ c rest, c ≠ first → read (c :: rest) = none

/-- A reader is bounded if it takes a front that is not empty and holds no stop, where what follows
must not go on in a class without stops. -/
theorem bounded_of_front {stops : Char → Bool} {Front : List Char → α → Prop}
    (hread : ∀ here a, read here = some a ↔
      ∃ front rest, here = front ++ rest ∧ Front front a ∧ ∀ c ∈ rest.head?, p c = false)
    (hfront : ∀ front a, Front front a → front ≠ [] ∧ ∀ c ∈ front, stops c = false)
    (hstops : ∀ c, stops c = true → p c = false) : Bounded stops read := by
  refine ⟨?_, ?_⟩
  · refine Option.eq_none_iff_forall_ne_some.mpr fun a ha => ?_
    obtain ⟨front, rest, hhere, hf, -⟩ := (hread _ _).mp ha
    obtain ⟨rfl, -⟩ := List.append_eq_nil_iff.mp hhere.symm
    exact (hfront _ _ hf).1 rfl
  · intro s c rest hc
    refine Option.ext fun a => ?_
    rw [hread, hread]
    constructor
    · rintro ⟨front, follows, hhere, hf, hstop⟩
      obtain ⟨t, rfl, hsplit⟩ | ⟨t, rfl, rfl⟩ := List.append_eq_append_iff.mp hhere
      · -- The front ends where the stop stands; it cannot reach further.
        cases t with
        | nil => exact ⟨s ++ [], [], (List.append_nil _).symm.trans (by simp), hf, by simp⟩
        | cons d t =>
            obtain ⟨rfl, -⟩ := List.cons.inj hsplit
            have hno := (hfront _ _ hf).2 c (List.mem_append_right s List.mem_cons_self)
            cases hc.symm.trans hno
      · refine ⟨front, t, rfl, hf, ?_⟩
        intro d hd
        refine hstop d ?_
        rw [List.head?_append, Option.mem_def.mp hd]
        rfl
    · rintro ⟨front, t, rfl, hf, hstop⟩
      refine ⟨front, t ++ c :: rest, List.append_assoc .., hf, ?_⟩
      cases t with
      | nil =>
          rintro d ⟨⟩
          exact hstops c hc
      | cons d t => exact hstop

/-- What follows the front need not be looked at. -/
theorem bounded_of_open_front {stops : Char → Bool} {Front : List Char → α → Prop}
    (hread : ∀ here a, read here = some a ↔ ∃ front, Front front a ∧ front <+: here)
    (hfront : ∀ front a, Front front a → front ≠ [] ∧ ∀ c ∈ front, stops c = false) :
    Bounded stops read := by
  refine bounded_of_front (p := fun _ => false) ?_ hfront fun _ _ => rfl
  intro here a
  rw [hread]
  constructor
  · rintro ⟨front, hf, rest, rfl⟩
    exact ⟨front, rest, rfl, hf, fun _ _ => rfl⟩
  · rintro ⟨front, rest, rfl, hf, -⟩
    exact ⟨front, hf, List.prefix_append front rest⟩

/-- It is confined if all such fronts start with the same character. -/
theorem confined_of_front {first : Char} {stops : Char → Bool} {Front : List Char → α → Prop}
    (hread : ∀ here a, read here = some a ↔
      ∃ front rest, here = front ++ rest ∧ Front front a ∧ ∀ c ∈ rest.head?, p c = false)
    (hfront : ∀ front a, Front front a →
      front.head? = some first ∧ ∀ c ∈ front, stops c = false)
    (hstops : ∀ c, stops c = true → p c = false) : Confined first stops read := by
  refine ⟨bounded_of_front hread ?_ hstops, ?_⟩
  · intro front a hf
    refine ⟨?_, (hfront _ _ hf).2⟩
    rintro rfl
    cases (hfront _ _ hf).1
  · intro c rest hc
    refine Option.eq_none_iff_forall_ne_some.mpr fun a ha => hc ?_
    obtain ⟨front, follows, hhere, hf, -⟩ := (hread _ _).mp ha
    have hhead := congrArg List.head? hhere
    rw [List.head?_append, (hfront _ _ hf).1] at hhead
    exact Option.some.inj hhead

/-- What reads a run after a label is bounded by characters that stand in neither. -/
theorem bounded_of_runAfter {stops : Char → Bool} {read : List Char → Option (List Char)}
    (hread : ∀ here run, read here = some run ↔ RunAfter p label here run)
    (hlabel : ∀ c ∈ label, stops c = false) (hstops : ∀ c, stops c = true → p c = false) :
    Bounded stops read := by
  have hfront : ∀ here run, read here = some run ↔
      ∃ front rest, here = front ++ rest ∧
        (front = label ++ run ∧ run ≠ [] ∧ ∀ c ∈ run, p c = true) ∧
        ∀ c ∈ rest.head?, p c = false := by
    intro here run
    rw [hread]
    constructor
    · rintro ⟨rest, rfl, hne, hrun, hstop⟩
      exact ⟨_, rest, (List.append_assoc ..).symm, ⟨rfl, hne, hrun⟩, hstop⟩
    · rintro ⟨front, rest, rfl, ⟨rfl, hne, hrun⟩, hstop⟩
      exact ⟨rest, List.append_assoc .., hne, hrun, hstop⟩
  refine bounded_of_front hfront ?_ hstops
  rintro front run ⟨rfl, hne, hrun⟩
  refine ⟨List.append_ne_nil_of_right_ne_nil _ hne, ?_⟩
  intro c hc
  rcases List.mem_append.mp hc with hmem | hmem
  · exact hlabel c hmem
  · by_contra hstop
    cases (hrun c hmem).symm.trans (hstops c (by simpa using hstop))

/-- Nothing can be read from any place of this text on, whatever follows it. -/
def StartsNowhere (read : List Char → Option α) (front : List Char) : Prop :=
  ∀ here, here <:+ front → here ≠ [] → ∀ rest, read (here ++ rest) = none

theorem startsNowhere_nil (read : List Char → Option α) : StartsNowhere read [] := by
  intro here hsuffix hne
  exact absurd (List.suffix_nil.mp hsuffix) hne

theorem startsNowhere_of_chars (hfront : ∀ c ∈ front, ∀ rest, read (c :: rest) = none) :
    StartsNowhere read front := by
  intro here hsuffix hne rest
  obtain ⟨c, more, rfl⟩ := List.exists_cons_of_ne_nil hne
  exact hfront c (hsuffix.mem List.mem_cons_self) _

/-- A search passes over a text in which nothing starts. -/
theorem leftmost_skip (hfront : StartsNowhere read front) (s : List Char) :
    leftmost read (front ++ s) = leftmost read s := by
  induction front with
  | nil => rfl
  | cons c front ih =>
      have hc : read (c :: (front ++ s)) = none :=
        hfront (c :: front) List.suffix_rfl (List.cons_ne_nil c front) s
      rw [List.cons_append, leftmost, hc]
      exact ih fun here hsuffix => hfront here (hsuffix.trans (List.suffix_cons c front))

/-- The mark can start at no place of this text, whatever follows the text: what stands there and
the mark differ before either of them ends. -/
def Avoids (mark front : List Char) : Prop :=
  ∀ here ∈ front.tails, here ≠ [] → ¬ here <+: mark ∧ ¬ mark <+: here

instance (mark front : List Char) : Decidable (Avoids mark front) :=
  List.decidableBAll (fun here => here ≠ [] → ¬ here <+: mark ∧ ¬ mark <+: here) front.tails

theorem startsNowhere_of_avoids (hread : ∀ here a, read here = some a → mark <+: here)
    (hfront : Avoids mark front) : StartsNowhere read front := by
  intro here hsuffix hne rest
  refine Option.eq_none_iff_forall_ne_some.mpr fun a ha => ?_
  obtain ⟨hshort, hlong⟩ := hfront here ((List.mem_tails here front).mpr hsuffix) hne
  rcases List.prefix_or_prefix_of_prefix (hread _ _ ha) (List.prefix_append here rest) with
    hprefix | hprefix
  · exact hlong hprefix
  · exact hshort hprefix

/-- A search for what starts with a label passes over a text without the label's first character. -/
theorem leftmost_skip_of_label {first : Char}
    (hread : ∀ here a, read here = some a → label <+: here) (hlabel : label.head? = some first)
    (hfront : first ∉ front) (s : List Char) :
    leftmost read (front ++ s) = leftmost read s := by
  refine leftmost_skip (startsNowhere_of_chars fun c hc rest => ?_) s
  refine Option.eq_none_iff_forall_ne_some.mpr fun a ha => hfront ?_
  obtain ⟨follows, hhere⟩ := hread _ _ ha
  have hhead := congrArg List.head? hhere
  rw [List.head?_append, hlabel] at hhead
  obtain rfl : first = c := Option.some.inj hhead
  exact hc

theorem RunAfter.startsWith (h : RunAfter p label here run) : label <+: here := by
  obtain ⟨rest, rfl, -⟩ := h
  exact List.prefix_append label _

/-- No line can be read after a label where something else stands. -/
theorem lineAfter?_of_front (hshort : ¬ front <+: label) (hlong : ¬ label <+: front)
    (s : List Char) : lineAfter? label (front ++ s) = none := by
  refine Option.eq_none_iff_forall_ne_some.mpr fun run hrun => ?_
  have hprefix : label <+: front ++ s := (lineAfter?_eq_some_iff.mp hrun).startsWith
  rcases List.prefix_or_prefix_of_prefix hprefix (List.prefix_append front s) with h | h
  · exact hlong h
  · exact hshort h

/-- Nothing is found where there is no trace of what every reading holds. -/
theorem leftmost_eq_none_of_unmarked (hread : ∀ here a, read here = some a → mark <:+: here)
    (hs : ¬ mark <:+: s) : leftmost read s = none := by
  rw [leftmost_eq_none_iff fun _ _ => Iff.rfl]
  rintro ⟨here, a, hsuffix, hhere⟩
  exact hs ((hread here a hhere).trans hsuffix.isInfix)

/-- What a line end leaves on a line completes no mark. -/
theorem not_infix_append_remnant (hmark : '\r' ∉ mark) (hs : ¬ mark <:+: s)
    (lineEnd : Reply.LineEnd) : ¬ mark <:+: s ++ lineEnd.remnant := by
  cases lineEnd with
  | feed => rwa [Reply.LineEnd.remnant, List.append_nil]
  | returnAndFeed =>
      rw [Reply.LineEnd.remnant, List.infix_concat_iff, List.suffix_concat_iff]
      rintro ((rfl | ⟨front, rfl, -⟩) | hholds)
      · exact hs List.nil_infix
      · exact hmark (List.mem_append_right front List.mem_cons_self)
      · exact hs hholds

/-- Nothing is found on a line if nothing starts in its label and its value does not hold the
mark. -/
theorem leftmost_line_eq_none {value : List Char}
    (hread : ∀ here a, read here = some a → mark <:+: here) (hmark : '\r' ∉ mark)
    (hlabel : StartsNowhere read label) (hvalue : ¬ mark <:+: value) (lineEnd : Reply.LineEnd) :
    leftmost read (label ++ value ++ lineEnd.remnant) = none := by
  rw [List.append_assoc, leftmost_skip hlabel]
  exact leftmost_eq_none_of_unmarked hread (not_infix_append_remnant hmark hvalue lineEnd)

namespace Confined

variable {first : Char} {stops : Char → Bool}

theorem leftmost_skip (h : Confined first stops read) (hfront : first ∉ front) (s : List Char) :
    leftmost read (front ++ s) = leftmost read s :=
  Text.leftmost_skip (startsNowhere_of_chars fun c hc rest =>
    h.starts c rest (ne_of_mem_of_not_mem hc hfront)) s

/-- No search succeeds in a text without the first character. -/
theorem leftmost_eq_none (h : Confined first stops read) (hs : first ∉ s) :
    leftmost read s = none := by
  rw [← List.append_nil s, h.leftmost_skip hs, leftmost, h.nil]

end Confined

namespace Bounded

variable {stops : Char → Bool}

/-- A stop divides a text into two that are searched one after the other. -/
theorem leftmost_stop (h : Bounded stops read) (hc : stops c = true) (s rest : List Char) :
    leftmost read (s ++ c :: rest) = (leftmost read s).or (leftmost read rest) := by
  induction s with
  | nil =>
      have hstop : read (c :: rest) = none := (h.stays [] c rest hc).trans h.nil
      simp only [List.nil_append, leftmost, hstop, h.nil, Option.none_or]
  | cons d s ih =>
      have hstays : read (d :: (s ++ c :: rest)) = read (d :: s) := h.stays (d :: s) c rest hc
      rw [List.cons_append, leftmost, hstays, leftmost]
      cases read (d :: s) with
      | some a => rfl
      | none => exact ih

/-- Lines are searched one after the other. -/
theorem leftmost_join (h : Bounded stops read) (lineEnd : Reply.LineEnd)
    (hstops : ∀ c ∈ lineEnd.chars, stops c = true) (lines : List (List Char)) (s : List Char) :
    leftmost read (lineEnd.join lines ++ s) =
      (lines.findSome? (leftmost read)).or (leftmost read s) := by
  have hend (line more : List Char) :
      leftmost read (line ++ (lineEnd.chars ++ more)) =
        (leftmost read line).or (leftmost read more) := by
    cases lineEnd with
    | feed => exact h.leftmost_stop (hstops '\n' (by decide)) line more
    | returnAndFeed =>
        have hreturn := h.leftmost_stop (hstops '\r' (by decide)) line ('\n' :: more)
        have hfeed := h.leftmost_stop (hstops '\n' (by decide)) [] more
        rw [List.nil_append, leftmost, h.nil, Option.none_or] at hfeed
        rw [hfeed] at hreturn
        exact hreturn
  induction lines with
  | nil => rfl
  | cons line lines ih =>
      rw [Reply.LineEnd.join_cons, List.append_assoc, List.append_assoc, hend, ih,
        List.findSome?_cons]
      cases leftmost read line <;> rfl

/-- A search passes over lines in which it finds nothing. -/
theorem leftmost_behind (h : Bounded (· == '\n') read) {lineEnd : Reply.LineEnd}
    {before : List (List Char)}
    (hbefore : ∀ line ∈ before, leftmost read (line ++ lineEnd.remnant) = none) (s : List Char) :
    leftmost read (lineEnd.join before ++ s) = leftmost read s := by
  have hnone : (before.map (· ++ lineEnd.remnant)).findSome? (leftmost read) = none := by
    rw [List.findSome?_eq_none_iff]
    exact List.forall_mem_map.mpr hbefore
  rw [lineEnd.join_eq_feed, h.leftmost_join .feed (List.all_eq_true.mp (by decide)), hnone,
    Option.none_or]

end Bounded

/-! ### Written lines -/

section Written

variable {lineEnd : Reply.LineEnd} {lines : List (List Char)}

/-- The text is made of these lines. The end of the last one may be missing, if that line is not
empty. -/
def IsWritten (lineEnd : Reply.LineEnd) (lines : List (List Char)) (s : List Char) : Prop :=
  s = lineEnd.join lines ∨
    ∃ init last, lines = init ++ [last] ∧ last ≠ [] ∧ s = lineEnd.join init ++ last

theorem isWritten_of_join {text : String}
    (hlast : ∃ init last, lines = init ++ [last] ∧ last ≠ [])
    (htext : text = String.ofList (lineEnd.join lines) ∨
      text ++ String.ofList lineEnd.chars = String.ofList (lineEnd.join lines)) :
    IsWritten lineEnd lines text.toList := by
  rcases htext with rfl | hopen
  · exact Or.inl String.toList_ofList
  · obtain ⟨init, last, rfl, hne⟩ := hlast
    refine Or.inr ⟨init, last, rfl, hne, ?_⟩
    have hends := congrArg String.toList hopen
    rw [String.toList_append, String.toList_ofList, String.toList_ofList, Reply.LineEnd.join,
      List.flatMap_append, ← Reply.LineEnd.join] at hends
    exact (List.append_left_inj lineEnd.chars).mp (by simpa using hends)

namespace IsWritten

theorem printedLines (h : IsWritten lineEnd lines s) (hlines : ∀ line ∈ lines, OneLine line) :
    printedLines s = lines := by
  obtain rfl | ⟨init, last, rfl, hne, rfl⟩ := h
  · rw [← List.append_nil (lineEnd.join lines), printedLines_join lineEnd hlines]
    exact List.append_nil lines
  · exact printedLines_join_last lineEnd hlines hne

/-- A written text is searched line by line. -/
theorem leftmost_eq (h : IsWritten lineEnd lines s) {stops : Char → Bool}
    (hread : Bounded stops read) (hstops : ∀ c ∈ lineEnd.chars, stops c = true) :
    leftmost read s = lines.findSome? (leftmost read) := by
  obtain rfl | ⟨init, last, rfl, -, rfl⟩ := h
  · rw [← List.append_nil (lineEnd.join lines), hread.leftmost_join lineEnd hstops, leftmost,
      hread.nil, Option.or_none]
  · rw [hread.leftmost_join lineEnd hstops, List.findSome?_append, List.findSome?_singleton]

/-- After the first line there is nothing, or the end of the line. -/
theorem exists_endsLine {line : List Char} (h : IsWritten lineEnd (line :: lines) s) :
    ∃ rest, s = line ++ rest ∧ EndsLine rest := by
  obtain rfl | ⟨init, last, hlines, -, rfl⟩ := h
  · exact ⟨_, Reply.LineEnd.join_cons lineEnd line lines, Or.inr ⟨lineEnd, _, rfl⟩⟩
  · cases init with
    | nil =>
        obtain ⟨rfl, -⟩ := List.cons.inj hlines
        exact ⟨[], (List.append_nil line).symm, Or.inl rfl⟩
    | cons front init =>
        obtain ⟨rfl, -⟩ := List.cons.inj hlines
        rw [Reply.LineEnd.join_cons, List.append_assoc, List.append_assoc]
        exact ⟨_, rfl, Or.inr ⟨lineEnd, _, rfl⟩⟩

end IsWritten

end Written

theorem feedLines_append (hfront : '\n' ∉ front) (rest : List Char) :
    feedLines (front ++ '\n' :: rest) = front :: feedLines rest := by
  have hline : firstLine (front ++ '\n' :: rest) = front := by
    rw [firstLine_append hfront]
    exact List.append_nil front
  rw [feedLines_eq_map, fromLines_append hfront, List.map_cons, hline, ← feedLines_eq_map]

theorem feedLines_of_not_mem (hs : '\n' ∉ s) : feedLines s = [s] := by
  have hline := firstLine_append hs []
  rw [List.append_nil] at hline
  rw [feedLines_eq_map, fromLines_of_not_mem hs, List.map_singleton, hline]
  exact congrArg (fun line => [line]) (List.append_nil s)

/-- Lines that are joined are found again, with what their ends leave on them. -/
theorem feedLines_join (lineEnd : Reply.LineEnd) {lines : List (List Char)}
    (hlines : ∀ line ∈ lines, '\n' ∉ line) (s : List Char) :
    feedLines (lineEnd.join lines ++ s) = lines.map (· ++ lineEnd.remnant) ++ feedLines s := by
  have hend (line more : List Char) (hline : '\n' ∉ line) :
      feedLines (line ++ (lineEnd.chars ++ more)) =
        (line ++ lineEnd.remnant) :: feedLines more := by
    cases lineEnd with
    | feed => rw [Reply.LineEnd.remnant, List.append_nil]; exact feedLines_append hline more
    | returnAndFeed =>
        have hreturn : '\n' ∉ line ++ ['\r'] := by simp [hline]
        rw [Reply.LineEnd.remnant, ← feedLines_append hreturn, List.append_assoc]
        rfl
  induction lines with
  | nil => rfl
  | cons line lines ih =>
      obtain ⟨hline, hrest⟩ := List.forall_mem_cons.mp hlines
      rw [Reply.LineEnd.join_cons, List.append_assoc, List.append_assoc, hend _ _ hline, ih hrest]
      rfl

/-- The line that ends here comes first. -/
theorem feedLines_of_endsLine (hs : '\n' ∉ s) (hrest : EndsLine rest) :
    ∃ tail more, (tail = [] ∨ tail = ['\r']) ∧ feedLines (s ++ rest) = (s ++ tail) :: more := by
  obtain ⟨tail, follows, rfl, htail, hfollows⟩ := hrest.exists_tail
  have hline : '\n' ∉ s ++ tail := not_mem_append_tail hs htail
  rw [← List.append_assoc]
  rcases hfollows with rfl | ⟨lines, rfl⟩
  · rw [List.append_nil]
    exact ⟨tail, [], htail, feedLines_of_not_mem hline⟩
  · exact ⟨tail, feedLines lines, htail, feedLines_append hline lines⟩

end Conductor.Text
