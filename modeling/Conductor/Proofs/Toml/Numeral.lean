import Conductor.Proofs.Toml.Document
import Conductor.Proofs.Workspace
import Mathlib.Tactic.SplitIfs

/-!
Where a document is given up because of a number with too many digits, that number stands in the
document. Every reader leaves an end of what it was given, and so whatever a later reader finds
there stands in the whole text as well.
-/

namespace Conductor.Toml

open Text

variable {α β : Type} {s t rest : List Char}

/-! ### What reading comes to -/

/-- Somewhere in the text stands a number with so many digits, perhaps with underscores in it. -/
def HasNumeral (s : List Char) (digits : Nat) : Prop :=
  ∃ numeral, numeral <:+: s ∧ (∀ c ∈ numeral, c.isDigit = true ∨ c = '_') ∧
    numeral.countP Char.isDigit = digits

theorem HasNumeral.mono {digits : Nat} (h : HasNumeral s digits) (hst : s <:+: t) :
    HasNumeral t digits := by
  obtain ⟨numeral, hpart, hall, hcount⟩ := h
  exact ⟨numeral, hpart.trans hst, hall, hcount⟩

/-- What comes of reading a text: what is left is an end of it, and a number that is said to be too
long stands in it. -/
structure Reads (left : α → List Char) (s : List Char) (x : Except Problem α) : Prop where
  left : ∀ a, x = .ok a → left a <:+ s
  long : ∀ digits, x = .error (.numberTooLong digits) → maxDigits < digits ∧ HasNumeral s digits

namespace Reads

variable {left : α → List Char} {left' : β → List Char} {x : Except Problem α}

theorem ok {a : α} (h : left a <:+ s) : Reads left s (.ok a) where
  left := by
    rintro a ⟨⟩
    exact h
  long := by rintro digits ⟨⟩

theorem malformed (reason : String) : Reads left s (.error (.malformed reason)) where
  left := by rintro a ⟨⟩
  long := by rintro digits ⟨⟩

theorem mono (h : Reads left s x) (hst : s <:+ t) : Reads left t x where
  left := fun a ha => (h.left a ha).trans hst
  long := fun digits hdigits =>
    ⟨(h.long digits hdigits).1, (h.long digits hdigits).2.mono hst.isInfix⟩

/-- A failure is passed on as it is. -/
theorem error {problem : Problem} (h : Reads left s (.error problem)) :
    Reads left' s (.error problem) where
  left := by rintro b ⟨⟩
  long := by
    rintro digits ⟨⟩
    exact h.long digits rfl

theorem bind (h : Reads left s x) {f : α → Except Problem β}
    (hf : ∀ a, Reads left' (left a) (f a)) : Reads left' s (x.bind f) := by
  cases x with
  | error problem => exact h.error
  | ok a => exact (hf a).mono (h.left a rfl)

theorem map (h : Reads left s x) {f : α → β} (hf : ∀ a, left' (f a) = left a) :
    Reads left' s (x.map f) := by
  cases x with
  | error problem => exact h.error
  | ok a => exact ok (by rw [hf]; exact h.left a rfl)

end Reads

/-! ### Texts -/

theorem reads_prepend {r : Except Problem (List Char × List Char)} (h : Reads Prod.snd s r)
    (c : Char) : Reads Prod.snd s (prepend c r) := h.map fun _ => rfl

/-- Each case goes on with what comes after the characters it has looked at, or ends there. -/
theorem reads_basicBody (lines : Bool) (mode : Mode) (s : List Char) :
    Reads Prod.snd s (basicBody lines mode s) := by
  fun_induction basicBody lines mode s <;>
    first
      | exact .malformed _
      | exact .ok (by simp [List.suffix_cons_iff])
      | next ih => exact (reads_prepend ih _).mono (by simp [List.suffix_cons_iff])
      | next ih => exact ih.mono (by simp [List.suffix_cons_iff])

theorem reads_literalBody (s : List Char) : Reads Prod.snd s (literalBody s) := by
  fun_induction literalBody s with
  | case1 => exact .malformed _
  | case2 rest => exact .ok (List.suffix_cons _ rest)
  | case3 c rest hc hcontrol => exact .malformed _
  | case4 c rest hc hcontrol ih => exact (reads_prepend ih c).mono (List.suffix_cons c rest)

theorem reads_literalLines (s : List Char) : Reads Prod.snd s (literalLines s) := by
  fun_induction literalLines s with
  | case1 => exact .malformed _
  | case2 rest => exact .ok (by simp [List.suffix_cons_iff])
  | case3 c rest hmore hcontrol => exact .malformed _
  | case4 c rest hmore hcontrol ih => exact (reads_prepend ih c).mono (List.suffix_cons c rest)

theorem reads_withExtraQuotes {r : Except Problem (List Char × List Char)}
    (h : Reads Prod.snd s r) (mark : Char) : Reads Prod.snd s (withExtraQuotes mark r) := by
  cases r with
  | error problem => exact h.error
  | ok read =>
      obtain ⟨chars, rest⟩ := read
      refine .ok (List.IsSuffix.trans ?_ (h.left _ rfl))
      simp only
      split
      · split
        · exact List.suffix_rfl
        · split
          · exact List.suffix_cons _ _
          · simp [List.suffix_cons_iff]
      · split
        · exact List.nil_suffix
        · exact List.suffix_rfl
      · exact List.suffix_rfl

theorem dropFirstNewline_suffix (s : List Char) : dropFirstNewline s <:+ s := by
  unfold dropFirstNewline
  split
  · exact List.suffix_cons _ _
  · exact List.suffix_rfl

theorem reads_string? {r : Except Problem (List Char × List Char)} (hr : string? s = some r) :
    Reads Prod.snd s r := by
  unfold string? at hr
  split at hr
  · cases hr
    refine reads_withExtraQuotes ((reads_basicBody true .plain _).mono ?_) '"'
    exact (dropFirstNewline_suffix _).trans (by simp [List.suffix_cons_iff])
  · cases hr
    exact (reads_basicBody false .plain _).mono (List.suffix_cons _ _)
  · cases hr
    refine reads_withExtraQuotes ((reads_literalLines _).mono ?_) '\''
    exact (dropFirstNewline_suffix _).trans (by simp [List.suffix_cons_iff])
  · cases hr
    exact (reads_literalBody _).mono (List.suffix_cons _ _)
  · cases hr

/-! ### Numbers -/

/-- Digits that may have underscores between them: what is left comes right after them. -/
theorem moreDigits_spec {isDigit : Char → Bool} (hunderscore : isDigit '_' = false)
    (s : List Char) :
    ∃ run, s = run ++ (Binary64.moreDigits isDigit s).2 ∧
      (∀ c ∈ run, isDigit c = true ∨ c = '_') ∧
      run.countP isDigit = (Binary64.moreDigits isDigit s).1.length := by
  fun_induction Binary64.moreDigits isDigit s with
  | case1 => exact ⟨[], rfl, by simp, rfl⟩
  | case2 d rest hd digits tail hmore ih =>
      obtain ⟨run, hrest, hall, hcount⟩ := ih
      rw [hmore] at hrest hcount
      exact ⟨'_' :: d :: run, by rw [hrest]; rfl, by simp_all, by simp [hd, hunderscore, hcount]⟩
  | case3 d rest hd => exact ⟨[], rfl, by simp, rfl⟩
  | case4 c rest hmany hc digits tail hmore ih =>
      obtain ⟨run, hrest, hall, hcount⟩ := ih
      rw [hmore] at hrest hcount
      exact ⟨c :: run, by rw [hrest]; rfl, by simp_all, by simp [hc, hcount]⟩
  | case5 c rest hmany hc => exact ⟨[], rfl, by simp, rfl⟩

theorem groupedDigits_spec {isDigit : Char → Bool} (hunderscore : isDigit '_' = false)
    (s : List Char) :
    ∃ run, s = run ++ (Binary64.groupedDigits isDigit s).2 ∧
      (∀ c ∈ run, isDigit c = true ∨ c = '_') ∧
      run.countP isDigit = (Binary64.groupedDigits isDigit s).1.length := by
  unfold Binary64.groupedDigits
  cases s with
  | nil => exact ⟨[], rfl, by simp, rfl⟩
  | cons c rest =>
      by_cases hc : isDigit c = true
      · obtain ⟨run, hrest, hall, hcount⟩ := moreDigits_spec hunderscore rest
        refine ⟨c :: run, ?_, ?_, ?_⟩
        · simp only [if_pos hc, List.cons_append, ← hrest]
        · exact List.forall_mem_cons.mpr ⟨Or.inl hc, hall⟩
        · simp [hc, hcount]
      · exact ⟨[], by simp [hc], by simp, by simp [hc]⟩

theorem groupedDigits_suffix {isDigit : Char → Bool} (hunderscore : isDigit '_' = false)
    (s : List Char) : (Binary64.groupedDigits isDigit s).2 <:+ s := by
  obtain ⟨run, hrest, -⟩ := groupedDigits_spec hunderscore s
  exact ⟨run, hrest.symm⟩

theorem wholePart?_spec {whole : List Char} (hwhole : wholePart? s = some (whole, rest)) :
    ∃ run, s = run ++ rest ∧ (∀ c ∈ run, c.isDigit = true ∨ c = '_') ∧
      run.countP Char.isDigit = whole.length := by
  unfold wholePart? at hwhole
  split at hwhole
  · cases hwhole
    exact ⟨['0'], rfl, List.forall_mem_singleton.mpr (Or.inl rfl), rfl⟩
  · obtain ⟨run, hrest, hall, hcount⟩ := @groupedDigits_spec isDecimal rfl s
    obtain ⟨-, hgrouped⟩ : (Binary64.groupedDigits isDecimal s).1 ≠ [] ∧
        Binary64.groupedDigits isDecimal s = (whole, rest) := by
      split at hwhole
      · cases hwhole
      · next hne =>
          refine ⟨fun hnil => hne _ (Prod.ext hnil rfl), Option.some.inj hwhole⟩
    rw [hgrouped] at hrest hcount
    exact ⟨run, hrest, hall, hcount⟩

theorem sign_suffix (s : List Char) : (Binary64.sign s).2 <:+ s := by
  unfold Binary64.sign
  split
  · exact List.suffix_cons _ _
  · exact List.suffix_cons _ _
  · exact List.suffix_rfl

theorem fractionPart_suffix (s : List Char) : (fractionPart s).2 <:+ s := by
  unfold fractionPart
  split
  · next rest =>
      have hdigits := @groupedDigits_suffix isDecimal rfl rest
      split
      · exact List.suffix_rfl
      · exact hdigits.trans (List.suffix_cons _ _)
  · exact List.suffix_rfl

theorem exponentPart_suffix (s : List Char) : (exponentPart s).2 <:+ s := by
  unfold exponentPart
  split
  · next c rest =>
      have hdigits := @groupedDigits_suffix isDecimal rfl (Binary64.sign rest).2
      split
      · simp only
        split
        · exact List.suffix_rfl
        · next heq =>
            rw [heq] at hdigits
            exact (hdigits.trans (sign_suffix rest)).trans (List.suffix_cons c rest)
      · exact List.suffix_rfl
  · exact List.suffix_rfl

/-- Only the whole part of a number without a fraction and an exponent can be too long. -/
theorem reads_decimal? {r : Except Problem (Value × List Char)} (hr : decimal? s = some r) :
    Reads Prod.snd s r := by
  unfold decimal? at hr
  simp only [Option.map_eq_some_iff, Prod.exists] at hr
  obtain ⟨whole, rest, hwhole, rfl⟩ := hr
  obtain ⟨run, hrun, hall, hcount⟩ := wholePart?_spec hwhole
  have hsign := sign_suffix s
  have hrest : (exponentPart (fractionPart rest).2).2 <:+ s := by
    refine ((exponentPart_suffix _).trans (fractionPart_suffix rest)).trans ?_
    exact List.IsSuffix.trans ⟨run, hrun.symm⟩ hsign
  split
  · next hexponent =>
      rw [hexponent] at hrest
      split
      · split
        · exact .ok hrest
        · next hlong =>
            refine ⟨by rintro a ⟨⟩, ?_⟩
            rintro digits ⟨⟩
            refine ⟨Nat.lt_of_not_le hlong, run, ?_, hall, hcount⟩
            exact List.IsInfix.trans ⟨[], _, hrun.symm⟩ hsign.isInfix
      · exact .ok hrest
  · next hexponent =>
      rw [hexponent] at hrest
      exact .ok hrest

theorem special?_suffix {v : Value} (hspecial : special? s = some (v, rest)) : rest <:+ s := by
  unfold special? at hspecial
  simp only [Option.or_eq_some_iff, Option.map_eq_some_iff, after?_eq_some_iff] at hspecial
  have hsign := sign_suffix s
  rcases hspecial with ⟨tail, htail, heq⟩ | ⟨-, tail, htail, heq⟩ <;> cases heq <;>
    exact List.IsSuffix.trans ⟨_, htail.symm⟩ hsign

theorem inBase?_suffix {base n : Nat} {isDigit : Char → Bool} (hunderscore : isDigit '_' = false)
    (hbase : inBase? base isDigit s = some (n, rest)) : rest <:+ s := by
  have hdigits := groupedDigits_suffix hunderscore s
  unfold inBase? at hbase
  split at hbase
  · cases hbase
  · next heq =>
      cases hbase
      rwa [heq] at hdigits

theorem reads_number? {r : Except Problem (Value × List Char)} (hr : number? s = some r) :
    Reads Prod.snd s r := by
  unfold number? at hr
  simp only at hr
  split at hr
  · next n tail hbased =>
      cases hr
      refine .ok ?_
      split at hbased
      · exact (inBase?_suffix rfl hbased).trans (by simp [List.suffix_cons_iff])
      · exact (inBase?_suffix rfl hbased).trans (by simp [List.suffix_cons_iff])
      · exact (inBase?_suffix rfl hbased).trans (by simp [List.suffix_cons_iff])
      · cases hbased
  · rcases Option.or_eq_some_iff.mp hr with hdecimal | ⟨-, hspecial⟩
    · exact reads_decimal? hdecimal
    · obtain ⟨⟨v, rest⟩, hread, rfl⟩ := Option.map_eq_some_iff.mp hspecial
      exact .ok (special?_suffix hread)

/-! ### Dates and times -/

theorem twoDigits?_suffix {low high n : Nat} (htwo : twoDigits? low high s = some (n, rest)) :
    rest <:+ s := by
  unfold twoDigits? at htwo
  split at htwo
  · simp only at htwo
    split at htwo
    · cases htwo
      simp [List.suffix_cons_iff]
    · cases htwo
  · cases htwo

theorem after?_suffix {mark : List Char} (hafter : after? mark s = some rest) : rest <:+ s :=
  ⟨mark, (after?_eq_some_iff.mp hafter).symm⟩

theorem date?_suffix {date : Date} (hdate : date? s = some (date, rest)) : rest <:+ s := by
  unfold date? at hdate
  split at hdate
  · next a b c d tail =>
      simp only [bind, Option.bind_eq_some_iff, Prod.exists, pure, Option.some.injEq,
        Prod.mk.injEq] at hdate
      obtain ⟨-, -, -, -, -, -, month, afterMonth, hmonth, beforeDay, hbefore, day, afterDay, hday,
        -, rfl⟩ := hdate
      have htail : tail <:+ a :: b :: c :: d :: '-' :: tail := by simp [List.suffix_cons_iff]
      exact (twoDigits?_suffix hday).trans ((after?_suffix hbefore).trans
        ((twoDigits?_suffix hmonth).trans htail))
  · cases hdate

theorem fraction_suffix (s : List Char) : (fraction s).2 <:+ s := by
  unfold fraction
  split
  · next rest =>
      simp only
      split
      · exact List.suffix_rfl
      · exact (List.dropWhile_suffix _).trans (List.suffix_cons _ _)
  · exact List.suffix_rfl

theorem clock?_suffix {clock : Clock} (hclock : clock? s = some (clock, rest)) : rest <:+ s := by
  unfold clock? at hclock
  simp only [bind, Option.bind_eq_some_iff, Prod.exists, pure, Option.some.injEq,
    Prod.mk.injEq] at hclock
  obtain ⟨_, _, hhour, _, hfirst, _, _, hminute, _, hsecond, _, _, hlast, -, rfl⟩ := hclock
  exact (fraction_suffix _).trans ((twoDigits?_suffix hlast).trans ((after?_suffix hsecond).trans
    ((twoDigits?_suffix hminute).trans ((after?_suffix hfirst).trans (twoDigits?_suffix hhour)))))

theorem offset?_suffix {offset : Int} (hoffset : offset? s = some (offset, rest)) :
    rest <:+ s := by
  unfold offset? at hoffset
  split at hoffset
  · cases hoffset
    exact List.suffix_cons _ _
  · cases hoffset
    exact List.suffix_cons _ _
  · next c tail =>
      simp only [bind, Option.bind_eq_some_iff, Prod.exists] at hoffset
      obtain ⟨_, _, hhours, _, hcolon, _, after, hminutes, hsign⟩ := hoffset
      have hrest : rest = after := by
        split at hsign
        · cases hsign
          rfl
        · split at hsign
          · cases hsign
            rfl
          · cases hsign
      rw [hrest]
      exact (twoDigits?_suffix hminutes).trans ((after?_suffix hcolon).trans
        ((twoDigits?_suffix hhours).trans (List.suffix_cons _ _)))
  · cases hoffset

theorem moment?_suffix {moment : Moment} (hmoment : moment? s = some (moment, rest)) :
    rest <:+ s := by
  unfold moment? at hmoment
  simp only [bind, Option.bind_eq_some_iff, Prod.exists] at hmoment
  obtain ⟨date, tail, hdate, hmoment⟩ := hmoment
  refine List.IsSuffix.trans ?_ (date?_suffix hdate)
  split at hmoment
  · cases hmoment
    exact List.suffix_rfl
  · next clock after htimed =>
      have hafter : after <:+ tail := by
        split at htimed
        · split at htimed
          · exact (clock?_suffix htimed).trans (List.suffix_cons _ _)
          · cases htimed
        · cases htimed
      split at hmoment
      · next hoffset =>
          cases hmoment
          exact (offset?_suffix hoffset).trans hafter
      · cases hmoment
        exact hafter

theorem reads_scalar? {r : Except Problem (Value × List Char)} (hr : scalar? s = some r) :
    Reads Prod.snd s r := by
  unfold scalar? at hr
  split at hr
  · next hmoment =>
      cases hr
      split
      · exact .ok (moment?_suffix hmoment)
      · exact .malformed _
  · split at hr
    · next hclock =>
        cases hr
        exact .ok (clock?_suffix hclock)
    · exact reads_number? hr

/-! ### Blanks, comments and keys -/

theorem skipSpace_suffix (s : List Char) : skipSpace s <:+ s := List.dropWhile_suffix _

theorem reads_skipComment (s : List Char) : Reads id s (skipComment s) := by
  unfold skipComment
  split
  · simp only
    split
    · exact .malformed _
    · exact .ok ((List.dropWhile_suffix _).trans (List.suffix_cons _ _))
  · exact .ok List.suffix_rfl

theorem reads_skipFiller (inComment : Bool) (s : List Char) :
    Reads id s (skipFiller inComment s) := by
  induction s generalizing inComment with
  | nil => exact .ok List.suffix_rfl
  | cons c rest ih =>
      have hskip (inside : Bool) := (ih inside).mono (List.suffix_cons c rest)
      rw [skipFiller]
      split_ifs
      · exact hskip _
      · exact .malformed _
      · exact hskip _
      · exact hskip _
      · exact hskip _
      · exact .ok List.suffix_rfl

theorem reads_keyName (s : List Char) : Reads Prod.snd s (keyName s) := by
  unfold keyName
  simp only
  split
  · exact .ok (List.dropWhile_suffix _)
  · split
    · refine ((reads_literalBody _).mono (List.suffix_cons _ _)).map ?_
      exact fun _ => rfl
    · refine ((reads_basicBody false .plain _).mono (List.suffix_cons _ _)).map ?_
      exact fun _ => rfl
    · exact .malformed _

theorem reads_keyNames (fuel : Nat) (s : List Char) : Reads Prod.snd s (keyNames fuel s) := by
  induction fuel generalizing s with
  | zero => exact .malformed _
  | succ fuel ih =>
      rw [keyNames]
      refine (reads_keyName s).bind ?_
      rintro ⟨name, rest⟩
      have hspace := skipSpace_suffix rest
      simp only
      split
      · next more hmore =>
          rw [hmore] at hspace
          have hlater := (skipSpace_suffix more).trans ((List.suffix_cons '.' more).trans hspace)
          refine ((ih (skipSpace more)).mono hlater).bind ?_
          rintro ⟨names, after⟩
          exact .ok List.suffix_rfl
      · exact .ok hspace

theorem reads_key (s : List Char) : Reads Prod.snd s (key s) := reads_keyNames _ s

/-! ### Tables -/

/-- Nothing is said about numbers. -/
def Quiet (x : Except Problem α) : Prop := ∀ digits, x ≠ .error (.numberTooLong digits)

theorem Reads.bind_quiet {left : β → List Char} {x : Except Problem α} (hx : Quiet x)
    {f : α → Except Problem β} (hf : ∀ a, Reads left s (f a)) : Reads left s (x.bind f) := by
  cases x with
  | error problem =>
      refine ⟨by rintro b ⟨⟩, ?_⟩
      rintro digits ⟨⟩
      exact absurd rfl (hx digits)
  | ok a => exact hf a

theorem quiet_enterInline (frozen : List Key) (k : Key) (v : Value) (t : Table) :
    Quiet (enterInline frozen k v t) := by
  intro digits
  unfold enterInline
  split
  · rintro ⟨⟩
  · split <;> rintro ⟨⟩

theorem quiet_openTable (d : Document) (k : Key) : Quiet (d.openTable k) := by
  intro digits
  unfold Document.openTable
  split
  · rintro ⟨⟩
  · split <;> rintro ⟨⟩

theorem quiet_openListed (d : Document) (k : Key) : Quiet (d.openListed k) := by
  intro digits
  unfold Document.openListed
  split
  · rintro ⟨⟩
  · simp only
    split <;> rintro ⟨⟩

theorem quiet_enter (d : Document) (above k : Key) (v : Value) : Quiet (d.enter above k v) := by
  intro digits
  unfold Document.enter
  simp only
  split
  · rintro ⟨⟩
  · split
    · rintro ⟨⟩
    · split <;> rintro ⟨⟩

/-! ### Values -/

/-- By induction on the fuel, for values, for what is left of a list and for what is left of a table
on one line. -/
theorem reads_values (fuel : Nat) :
    (∀ s, Reads Prod.snd s (value fuel s)) ∧ (∀ s, Reads Prod.snd s (listItems fuel s)) ∧
      ∀ frozen t s, Reads Prod.snd s (inlineFields fuel frozen t s) := by
  induction fuel with
  | zero => exact ⟨fun s => .malformed _, fun s => .malformed _, fun frozen t s => .malformed _⟩
  | succ fuel ih =>
      obtain ⟨ihvalue, ihitems, ihfields⟩ := ih
      refine ⟨fun s => ?_, fun s => ?_, fun frozen t s => ?_⟩
      · rw [value.eq_def]
        simp only
        split
        · next hstring => exact (reads_string? hstring).map fun _ => rfl
        · split
          · exact .ok (by simp [List.suffix_cons_iff])
          · exact .ok (by simp [List.suffix_cons_iff])
          · next rest _ =>
              have hfiller := (reads_skipFiller false rest).mono (List.suffix_cons '[' rest)
              refine hfiller.bind fun inside => (ihitems inside).bind ?_
              rintro ⟨items, after⟩
              exact .ok List.suffix_rfl
          · next rest _ =>
              have hspace := (skipSpace_suffix rest).trans (List.suffix_cons '\x7b' rest)
              split
              · next after hafter =>
                  rw [hafter] at hspace
                  exact .ok ((List.suffix_cons _ after).trans hspace)
              · exact (ihfields [] [] _).mono hspace
          · cases hscalar : scalar? s with
            | none => exact .malformed _
            | some r => exact reads_scalar? hscalar
      · rw [listItems.eq_def]
        simp only
        split
        · exact .ok (List.suffix_cons _ _)
        · refine (ihvalue s).bind ?_
          rintro ⟨v, rest⟩
          refine (reads_skipFiller false rest).bind fun after => ?_
          split
          · exact .ok (List.suffix_cons _ _)
          · next more =>
              have hfiller := (reads_skipFiller false more).mono (List.suffix_cons ',' more)
              refine hfiller.bind fun inside => (ihitems inside).bind ?_
              rintro ⟨items, last⟩
              exact .ok List.suffix_rfl
          · exact .malformed _
      · rw [inlineFields.eq_def]
        simp only
        refine (reads_key s).bind ?_
        rintro ⟨k, rest⟩
        simp only
        split
        · next rest =>
            have hspace := (skipSpace_suffix rest).trans (List.suffix_cons '=' rest)
            refine ((ihvalue (skipSpace rest)).mono hspace).bind ?_
            rintro ⟨v, after⟩
            refine .bind_quiet (quiet_enterInline frozen k v t) fun t => ?_
            have hafter := skipSpace_suffix after
            simp only
            split
            · next last hlast =>
                rw [hlast] at hafter
                exact .ok ((List.suffix_cons _ last).trans hafter)
            · next more hmore =>
                rw [hmore] at hafter
                exact (ihfields _ _ _).mono ((skipSpace_suffix more).trans
                  ((List.suffix_cons _ more).trans hafter))
            · exact .malformed _
        · exact .malformed _

/-! ### Documents -/

theorem reads_pair (s : List Char) : Reads Prod.snd s (pair s) := by
  unfold pair
  refine (reads_key s).bind ?_
  rintro ⟨k, rest⟩
  simp only
  split
  · next rest =>
      have hspace := (skipSpace_suffix rest).trans (List.suffix_cons '=' rest)
      refine (((reads_values _).1 (skipSpace rest)).mono hspace).bind ?_
      rintro ⟨v, after⟩
      exact .ok List.suffix_rfl
  · exact .malformed _

theorem reads_header (d : Document) (s : List Char) : Reads Prod.snd s (header d s) := by
  unfold header
  split
  · next rest =>
      have hspace : skipSpace rest <:+ '[' :: '[' :: rest :=
        (skipSpace_suffix rest).trans (by simp [List.suffix_cons_iff])
      refine ((reads_key (skipSpace rest)).mono hspace).bind ?_
      rintro ⟨k, after⟩
      refine .bind_quiet (quiet_openListed d k) fun d => ?_
      simp only
      split
      · exact .ok (by simp [List.suffix_cons_iff])
      · exact .malformed _
  · have hspace : skipSpace (s.drop 1) <:+ s := (skipSpace_suffix _).trans (List.drop_suffix 1 s)
    refine ((reads_key (skipSpace (s.drop 1))).mono hspace).bind ?_
    rintro ⟨k, after⟩
    refine .bind_quiet (quiet_openTable d k) fun d => ?_
    simp only
    split
    · exact .ok (List.suffix_cons _ _)
    · exact .malformed _

theorem reads_statement (d : Document) (above : Key) (s : List Char) :
    Reads Prod.snd s (statement d above s) := by
  cases s with
  | nil => exact .ok List.suffix_rfl
  | cons c rest =>
      rw [statement]
      split_ifs
      · refine (reads_pair (c :: rest)).bind ?_
        rintro ⟨⟨k, v⟩, after⟩
        exact .bind_quiet (quiet_enter d above k v) fun d => .ok List.suffix_rfl
      · exact reads_header d.settle (c :: rest)
      · exact .ok List.suffix_rfl
      · exact .malformed _

theorem reads_statements (fuel : Nat) (d : Document) (above : Key) (s : List Char) :
    Reads (fun _ => []) s (statements fuel d above s) := by
  induction fuel generalizing d above s with
  | zero => exact .ok List.nil_suffix
  | succ fuel ih =>
      rw [statements]
      refine ((reads_statement d above (skipSpace s)).mono (skipSpace_suffix s)).bind ?_
      rintro ⟨⟨d, above⟩, rest⟩
      have hcomment := (reads_skipComment (skipSpace rest)).mono (skipSpace_suffix rest)
      refine hcomment.bind fun after => ?_
      split
      · exact .ok List.nil_suffix
      · next more => exact (ih d above more).mono (List.suffix_cons _ more)
      · exact .malformed _

/-! ### Line ends -/

/-- The second text is the first with line ends written otherwise. -/
inductive Reflowed : List Char → List Char → Prop where
  | nil : Reflowed [] []
  | same (c : Char) {s t : List Char} : Reflowed s t → Reflowed (c :: s) (c :: t)
  | feed (c : Char) {s t : List Char} : Reflowed s t → Reflowed (c :: s) ('\n' :: t)
  | pair {s t : List Char} : Reflowed s t → Reflowed ('\r' :: '\n' :: s) ('\n' :: t)

theorem reflowed_unifyLineEnds (s : List Char) : Reflowed s (unifyLineEnds s) := by
  fun_induction unifyLineEnds s with
  | case1 => exact .nil
  | case2 rest ih => exact .pair ih
  | case3 c rest _ ih => exact .same c ih

theorem reflowed_normalizeNewlines (s : List Char) : Reflowed s (normalizeNewlines s) := by
  fun_induction normalizeNewlines s with
  | case1 => exact .nil
  | case2 rest ih => exact .pair ih
  | case3 c rest _ ih =>
      split
      · exact .feed c ih
      · exact .same c ih

namespace Reflowed

variable {run : List Char}

theorem front (h : Reflowed s t) (hrun : '\n' ∉ run) (hfront : run <+: t) :
    run <+: s := by
  induction h generalizing run with
  | nil => exact hfront
  | same c h ih =>
      cases run with
      | nil => exact List.nil_prefix
      | cons d run =>
          obtain ⟨rfl, hmore⟩ := List.cons_prefix_cons.mp hfront
          have hmore := ih (fun hmem => hrun (List.mem_cons_of_mem d hmem)) hmore
          exact List.cons_prefix_cons.mpr ⟨rfl, hmore⟩
  | feed _ _ _ | pair _ _ =>
      cases run with
      | nil => exact List.nil_prefix
      | cons d run =>
          obtain ⟨rfl, -⟩ := List.cons_prefix_cons.mp hfront
          exact absurd List.mem_cons_self hrun

/-- What is on one line of the second text stands in the first. -/
theorem part (h : Reflowed s t) (hrun : '\n' ∉ run) (hpart : run <:+: t) :
    run <:+: s := by
  induction h with
  | nil => exact hpart
  | same c h ih =>
      rcases List.infix_cons_iff.mp hpart with hfront | hmore
      · exact ((h.same c).front hrun hfront).isInfix
      · exact (ih hmore).trans (List.suffix_cons c _).isInfix
  | feed c h ih =>
      rcases List.infix_cons_iff.mp hpart with hfront | hmore
      · exact ((h.feed c).front hrun hfront).isInfix
      · exact (ih hmore).trans (List.suffix_cons c _).isInfix
  | @pair s t h ih =>
      rcases List.infix_cons_iff.mp hpart with hfront | hmore
      · exact (h.pair.front hrun hfront).isInfix
      · exact (ih hmore).trans (by simp [List.suffix_cons_iff] : s <:+ '\r' :: '\n' :: s).isInfix

theorem hasNumeral (h : Reflowed s t) {digits : Nat} (hnumeral : HasNumeral t digits) :
    HasNumeral s digits := by
  obtain ⟨numeral, hpart, hall, hcount⟩ := hnumeral
  refine ⟨numeral, h.part (fun hfeed => ?_) hpart, hall, hcount⟩
  rcases hall _ hfeed with hdigit | hunderscore
  · cases hdigit
  · cases hunderscore

end Reflowed

/-- A document that is given up because of its numbers has one with that many digits, and they are
too many. -/
theorem parse_eq_numberTooLong {text : String} {digits : Nat}
    (hparse : parse text = .error (.numberTooLong digits)) :
    maxDigits < digits ∧ HasNumeral text.toList digits := by
  obtain ⟨hdigits, hnumeral⟩ := (reads_statements _ _ _ _).long digits hparse
  exact ⟨hdigits, (reflowed_unifyLineEnds _).hasNumeral hnumeral⟩

end Conductor.Toml
