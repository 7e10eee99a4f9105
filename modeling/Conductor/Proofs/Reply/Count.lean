import Conductor.Proofs.Number.Decimal
import Conductor.Proofs.Text.Search
import Conductor.Reply.CodeMap
import Conductor.Reply.Verification
import Conductor.Reply.Workflow

/-!
The numbers in a reply. They are read one after the other, and the first one that is written with
too many digits is the end of the reading. Nothing else about a number can go wrong.
-/

namespace Conductor.Reply

open Text

variable {numerals : List (List Char → Prop)} {problem : Problem} {s : List Char}

/-! ### Too many digits -/

/-- The problem with the first of the numerals that is too long. A numeral is given by what its
digits can be; where it is missing from the reply they can be none. -/
def Overlong : List (List Char → Prop) → Problem → Prop
  | [], _ => False
  | numeral :: numerals, problem =>
    (∃ digits, numeral digits ∧ maxDigits < digits.length ∧
      problem = .numberTooLong digits.length) ∨
    (∀ digits, numeral digits → digits.length ≤ maxDigits) ∧ Overlong numerals problem

/-- None of the numerals is too long. -/
def Fit (numerals : List (List Char → Prop)) : Prop :=
  ∀ numeral ∈ numerals, ∀ digits, numeral digits → digits.length ≤ maxDigits

theorem Overlong.eq_numberTooLong (h : Overlong numerals problem) :
    ∃ digits, problem = .numberTooLong digits := by
  induction numerals with
  | nil => exact h.elim
  | cons numeral numerals ih =>
      rcases h with ⟨digits, -, -, rfl⟩ | ⟨-, hlater⟩
      · exact ⟨digits.length, rfl⟩
      · exact ih hlater

theorem fit_iff : Fit numerals ↔ ∀ problem, ¬ Overlong numerals problem := by
  induction numerals with
  | nil => simp [Fit, Overlong]
  | cons numeral numerals ih =>
      rw [Fit, List.forall_mem_cons, ← Fit, ih]
      constructor
      · rintro ⟨hnumeral, hnumerals⟩ problem (⟨digits, hdigits, hlong, -⟩ | ⟨-, hlater⟩)
        · exact absurd (hnumeral digits hdigits) (Nat.not_le.mpr hlong)
        · exact hnumerals problem hlater
      · intro hnone
        have hnumeral : ∀ digits, numeral digits → digits.length ≤ maxDigits := by
          intro digits hdigits
          by_contra hlong
          exact hnone _ (Or.inl ⟨digits, hdigits, Nat.not_le.mp hlong, rfl⟩)
        exact ⟨hnumeral, fun problem hlater => hnone problem (Or.inr ⟨hnumeral, hlater⟩)⟩

theorem numberOr_cases {fallback : Nat} {found : Option (List Char)} {numeral : List Char → Prop}
    (hfound : ∀ digits, found = some digits ↔ numeral digits) :
    (∃ digits, numeral digits ∧ maxDigits < digits.length ∧
      numberOr fallback found = .error (.numberTooLong digits.length)) ∨
    (∀ digits, numeral digits → digits.length ≤ maxDigits) ∧
      ∃ n, numberOr fallback found = .ok n := by
  cases found with
  | none =>
      refine Or.inr ⟨?_, fallback, rfl⟩
      intro digits hdigits
      cases (hfound digits).mpr hdigits
  | some digits =>
      by_cases hfits : digits.length ≤ maxDigits
      · refine Or.inr ⟨?_, digitsValue digits, if_pos hfits⟩
        intro other hother
        cases (hfound other).mpr hother
        exact hfits
      · exact Or.inl ⟨digits, (hfound digits).mp rfl, Nat.not_le.mp hfits, if_neg hfits⟩

/-- A number that is read before the rest of a reply stops the reading if it is too long. Otherwise
the rest decides, and it must not depend on the number. -/
theorem numberOr_bind_eq_error_iff {α : Type} {fallback : Nat} {found : Option (List Char)}
    {numeral : List Char → Prop} {next : Nat → Except Problem α}
    (hfound : ∀ digits, found = some digits ↔ numeral digits)
    (hnext : ∀ n, next n = .error problem ↔ Overlong numerals problem) :
    (numberOr fallback found >>= next) = .error problem ↔
      Overlong (numeral :: numerals) problem := by
  obtain ⟨digits, hdigits, hlong, herror⟩ | ⟨hfits, n, hok⟩ := numberOr_cases hfound
  · rw [herror]
    constructor
    · rintro ⟨⟩
      exact Or.inl ⟨digits, hdigits, hlong, rfl⟩
    · rintro (⟨other, hother, -, rfl⟩ | ⟨hfits, -⟩)
      · cases ((hfound digits).mpr hdigits).symm.trans ((hfound other).mpr hother)
        rfl
      · exact absurd (hfits digits hdigits) (Nat.not_le.mpr hlong)
  · rw [hok]
    refine (hnext n).trans ⟨fun hlater => Or.inr ⟨hfits, hlater⟩, ?_⟩
    rintro (⟨digits, hdigits, hlong, -⟩ | ⟨-, hlater⟩)
    · exact absurd (hfits digits hdigits) (Nat.not_le.mpr hlong)
    · exact hlater

theorem ok_eq_error_iff {α : Type} {a : α} :
    (Except.ok a : Except Problem α) = .error problem ↔ Overlong [] problem :=
  iff_of_false (by simp) id

/-! ### Printed numbers -/

theorem isDigit_of_mem_toDigits {c : Char} {n : Nat} (hc : c ∈ Nat.toDigits 10 n) :
    isDigit c = true := by
  rw [isDigit, digitValue?_of_isDigit (Nat.isDigit_of_mem_toDigits (by decide) (by decide) hc)]
  rfl

/-- A number with few enough digits is read as it was printed. -/
theorem numberOr_toDigits {n : Nat} (hn : (Nat.toDigits 10 n).length ≤ maxDigits) :
    numberOr 0 (some (Nat.toDigits 10 n)) = .ok n := by
  have hdigits : ∀ c ∈ Nat.toDigits 10 n, c.isDigit = true := fun c hc =>
    Nat.isDigit_of_mem_toDigits (by decide) (by decide) hc
  rw [numberOr, number, if_pos hn, digitsValue_eq hdigits, Nat.ofDigitChars_ten_toDigits]

/-! ### Checks -/

namespace Verification

/-- An entry that counts checks stands at the front of the text: those that passed and all. -/
structure ChecksAt (here : List Char) (counts : List Char × List Char) : Prop where
  parts : ∃ gap rest, here = "**Checks**:".toList ++
      (gap ++ (counts.1 ++ ("/".toList ++ (counts.2 ++ rest)))) ∧
    (∀ c ∈ gap, isBlank c = true) ∧ ∀ c ∈ rest.head?, isDigit c = false
  passed : counts.1 ≠ [] ∧ ∀ c ∈ counts.1, isDigit c = true
  total : counts.2 ≠ [] ∧ ∀ c ∈ counts.2, isDigit c = true

theorem checkCounts?_eq_some_iff {here : List Char} {counts : List Char × List Char} :
    checkCounts? here = some counts ↔ ChecksAt here counts := by
  constructor
  · intro hcounts
    obtain ⟨entry, hmark, hafterMark⟩ := Option.bind_eq_some_iff.mp hcounts
    obtain ⟨⟨passed, _⟩, hpassed, hafterPassed⟩ := Option.bind_eq_some_iff.mp hafterMark
    obtain ⟨_, hslash, hafterSlash⟩ := Option.bind_eq_some_iff.mp hafterPassed
    obtain ⟨⟨total, rest⟩, htotal, hsame⟩ := Option.bind_eq_some_iff.mp hafterSlash
    cases hsame
    obtain ⟨hstart, hpassedNe, hpassedAll, -⟩ := run?_eq_some_iff.mp hpassed
    obtain ⟨rfl, htotalNe, htotalAll, hstop⟩ := run?_eq_some_iff.mp htotal
    obtain rfl := after?_eq_some_iff.mp hslash
    obtain rfl := after?_eq_some_iff.mp hmark
    refine ⟨⟨entry.takeWhile isBlank, rest, ?_, fun c hc => List.mem_takeWhile_imp hc, hstop⟩,
      ⟨hpassedNe, hpassedAll⟩, ⟨htotalNe, htotalAll⟩⟩
    have hentry : entry = entry.takeWhile isBlank ++ stripStart entry :=
      List.takeWhile_append_dropWhile.symm
    rw [hstart] at hentry
    exact congrArg ("**Checks**:".toList ++ ·) hentry
  · rintro ⟨⟨gap, rest, rfl, hgap, hstop⟩, ⟨hpassedNe, hpassedAll⟩, ⟨htotalNe, htotalAll⟩⟩
    have hskip : stripStart (gap ++ (counts.1 ++ ("/".toList ++ (counts.2 ++ rest)))) =
        counts.1 ++ ("/".toList ++ (counts.2 ++ rest)) := by
      refine (takeWhile_append_of_stop hgap ?_).2
      obtain ⟨digit, digits, hdigits⟩ := List.exists_cons_of_ne_nil hpassedNe
      rw [hdigits]
      rintro c ⟨⟩
      exact isBlank_of_isDigit (hpassedAll digit (hdigits ▸ List.mem_cons_self))
    have hpassed : run? isDigit (counts.1 ++ ("/".toList ++ (counts.2 ++ rest))) =
        some (counts.1, "/".toList ++ (counts.2 ++ rest)) :=
      run?_append hpassedNe hpassedAll (by rintro c ⟨⟩; decide)
    have hslash : after? ['/'] ("/".toList ++ (counts.2 ++ rest)) = some (counts.2 ++ rest) :=
      after?_append ['/'] _
    unfold checkCounts?
    simp only [after?_append, Option.bind_eq_bind, Option.bind_some, hskip, hpassed, hslash,
      run?_append htotalNe htotalAll hstop]
    rfl

/-- The two counts of the first entry. -/
def counts (s : List Char) : List (List Char → Prop) :=
  [fun passed => ∃ total, FirstIn ChecksAt s (passed, total),
    fun total => ∃ passed, FirstIn ChecksAt s (passed, total)]

theorem readChecks_eq_error_iff : readChecks s = .error problem ↔ Overlong (counts s) problem := by
  have hfirst (entry : List Char × List Char) :
      leftmost checkCounts? s = some entry ↔ FirstIn ChecksAt s entry :=
    leftmost_eq_some_iff fun _ _ => checkCounts?_eq_some_iff
  unfold readChecks
  cases hentry : leftmost checkCounts? s with
  | none =>
      have hmissing (entry : List Char × List Char) : ¬ FirstIn ChecksAt s entry := by
        intro hfound
        cases hentry.symm.trans ((hfirst entry).mpr hfound)
      simp [counts, Overlong, hmissing]
  | some entry =>
      obtain ⟨passed, total⟩ := entry
      have honly (entry : List Char × List Char) :
          FirstIn ChecksAt s entry ↔ (passed, total) = entry := by
        rw [← hfirst, hentry, Option.some.injEq]
      change (numberOr 0 (some passed) >>= fun passed => numberOr 0 (some total) >>= fun total =>
        (.ok (some ⟨passed, total⟩) : Except Problem (Option Checks))) = _ ↔ _
      refine numberOr_bind_eq_error_iff ?_ fun _ =>
        numberOr_bind_eq_error_iff ?_ fun _ => ok_eq_error_iff
      · simp [honly]
      · simp [honly]

end Verification

/-! ### Other counts -/

namespace CodeMap

/-- The counts of files and of symbols. -/
def counts (s : List Char) : List (List Char → Prop) :=
  [FirstIn (RunAfter isDigit "Files: ".toList) s, FirstIn (RunAfter isDigit "Symbols: ".toList) s]

theorem decode_eq_error_iff {raw : String} :
    decode raw = .error problem ↔ Overlong (counts raw.toList) problem := by
  have hfound (label : List Char) (digits : List Char) :
      leftmost (digitsAfter? label) raw.toList = some digits ↔
        FirstIn (RunAfter isDigit label) raw.toList digits :=
    leftmost_eq_some_iff fun _ _ => digitsAfter?_eq_some_iff
  exact numberOr_bind_eq_error_iff (hfound _) fun _ =>
    numberOr_bind_eq_error_iff (hfound _) fun _ => ok_eq_error_iff

end CodeMap

namespace WorkflowStatus

/-- The number of transitions stands at the front of the text. -/
def TransitionsAt (here digits : List Char) : Prop :=
  ∃ rest, here = digits ++ (" transitions recorded".toList ++ rest) ∧ digits ≠ [] ∧
    ∀ c ∈ digits, isDigit c = true

theorem transitionsHere?_eq_some_iff {here digits : List Char} :
    transitionsHere? here = some digits ↔ TransitionsAt here digits := by
  constructor
  · intro hhere
    obtain ⟨⟨run, _⟩, hrun, hafterRun⟩ := Option.bind_eq_some_iff.mp hhere
    obtain ⟨rest, hmark, hsame⟩ := Option.bind_eq_some_iff.mp hafterRun
    cases hsame
    obtain ⟨rfl, hne, hall, -⟩ := run?_eq_some_iff.mp hrun
    obtain rfl := after?_eq_some_iff.mp hmark
    exact ⟨rest, rfl, hne, hall⟩
  · rintro ⟨rest, rfl, hne, hall⟩
    unfold transitionsHere?
    rw [run?_append hne hall (by rintro c ⟨⟩; decide)]
    simp only [Option.bind_eq_bind, Option.bind_some, after?_append]
    rfl

def counts (s : List Char) : List (List Char → Prop) := [FirstIn TransitionsAt s]

/-- The identifier of the workflow stands at the front of the text. -/
def IdAt : List Char → List Char → Prop :=
  RunAfter (fun c => !isBlank c) "# Workflow Status: ".toList

variable {raw : String}

theorem decode_eq_error_iff :
    decode raw = .error problem ↔
      ¬ SomewhereIn IdAt raw.toList ∧ problem = .unreadable "workflow status" raw ∨
      SomewhereIn IdAt raw.toList ∧ Overlong (counts raw.toList) problem := by
  have hcount (digits : List Char) : leftmost transitionsHere? raw.toList = some digits ↔
      FirstIn TransitionsAt raw.toList digits :=
    leftmost_eq_some_iff fun _ _ => transitionsHere?_eq_some_iff
  unfold decode
  by_cases hid : SomewhereIn IdAt raw.toList
  · obtain ⟨id, hfirst⟩ := exists_firstIn_iff.mpr hid
    simp only [(leftmost_eq_some_iff fun _ _ => tokenAfter?_eq_some_iff).mpr hfirst, hid,
      not_true_eq_false, false_and, true_and, false_or]
    exact numberOr_bind_eq_error_iff hcount fun _ => ok_eq_error_iff
  · simp only [(leftmost_eq_none_iff fun _ _ => tokenAfter?_eq_some_iff).mpr hid, hid,
      not_false_eq_true, true_and, false_and, or_false, Except.error.injEq]
    exact eq_comm

theorem firstIn_of_decode {status : WorkflowStatus} (hstatus : decode raw = .ok status) :
    FirstIn IdAt raw.toList status.id.toList := by
  unfold decode at hstatus
  simp only at hstatus
  split at hstatus
  · cases hstatus
  · next id hid =>
      cases hcount : numberOr 0 (leftmost transitionsHere? raw.toList) with
      | error problem =>
          rw [hcount] at hstatus
          cases hstatus
      | ok n =>
          rw [hcount] at hstatus
          cases hstatus
          rw [String.toList_ofList]
          exact (leftmost_eq_some_iff fun _ _ => tokenAfter?_eq_some_iff).mp hid

end WorkflowStatus

end Conductor.Reply
