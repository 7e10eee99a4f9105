import Conductor.Toml.Reader
import Conductor.Proofs.Number.Decimal
import Conductor.Proofs.Text.Scan

/-!
Values of a settings file are read as they were written. Texts, truth values, whole numbers and
lists of such come back as they were; any other number comes back as the nearest one to its three
decimals. Every reader is told what may follow a value: a comma, a closing bracket or the end of the
line.
-/

namespace Conductor

namespace Toml

open Text

/-! ### Texts -/

/-- The only character that is written to a settings file as it is and may not stand there. -/
def delete : Char := '\x7f'

theorem charOfHex?_hex : ∀ n < 0x20, charOfHex? (hex 4 n) = some (Char.ofNat n) := by
  decide

theorem basicBody_cons {c : Char} (hquote : c ≠ '"') (hescape : c ≠ '\\')
    (hcontrol : isControl c = false) (rest : List Char) :
    basicBody false .plain (c :: rest) = prepend c (basicBody false .plain rest) := by
  rw [basicBody.eq_def]
  split <;> simp_all

/-- What stands for a character in a written text is read as that character. -/
theorem basicBody_literalChar {c : Char} (hc : c ≠ delete) (rest : List Char) :
    basicBody false .plain (literalChar c ++ rest) = prepend c (basicBody false .plain rest) := by
  unfold literalChar
  split
  · subst_vars
    rfl
  split
  · subst_vars
    rfl
  split
  · subst_vars
    rfl
  split
  · subst_vars
    rfl
  split
  · subst_vars
    rfl
  split
  · next hback =>
      obtain rfl : c = '\x08' := Char.toNat_inj.mp hback
      rfl
  split
  · next hfeed =>
      obtain rfl : c = '\x0c' := Char.toNat_inj.mp hfeed
      rfl
  split
  · next hlow =>
      have hchar := charOfHex?_hex c.toNat hlow
      rw [Char.ofNat_toNat] at hchar
      obtain ⟨h₁, h₂, h₃, h₄, hdigits⟩ : ∃ h₁ h₂ h₃ h₄, hex 4 c.toNat = [h₁, h₂, h₃, h₄] :=
        ⟨_, _, _, _, rfl⟩
      rw [hdigits] at hchar ⊢
      change basicBody false .plain ('\\' :: 'u' :: h₁ :: h₂ :: h₃ :: h₄ :: rest) = _
      simp [basicBody, hchar]
  · next hquote hescape _ _ _ _ _ hlow =>
      refine basicBody_cons hquote hescape ?_ rest
      have hother : c.toNat ≠ 0x7f := fun hnat => hc (Char.toNat_inj.mp hnat)
      simp only [isControl, Bool.or_eq_false_iff, Bool.and_eq_false_iff, decide_eq_false_iff_not,
        beq_eq_false_iff_ne]
      exact ⟨Or.inl hlow, hother⟩

theorem basicBody_flatMap {s : List Char} (hs : delete ∉ s) (rest : List Char) :
    basicBody false .plain (s.flatMap literalChar ++ '"' :: rest) = .ok (s, rest) := by
  induction s with
  | nil => rfl
  | cons c s ih =>
      have hc : c ≠ delete := fun heq => hs (heq ▸ List.mem_cons_self)
      have htail : delete ∉ s := fun hmem => hs (List.mem_cons_of_mem _ hmem)
      rw [List.flatMap_cons, List.append_assoc, basicBody_literalChar hc, ih htail]
      rfl

/-- A written text is not mistaken for one on several lines. -/
theorem string?_quote {rest : List Char} (hrest : ∀ tail, rest ≠ '"' :: '"' :: tail) :
    string? ('"' :: rest) = some (basicBody false .plain rest) := by
  unfold string?
  split
  · next tail heq =>
      cases heq
      exact absurd rfl (hrest tail)
  · next tail _ heq =>
      cases heq
      rfl
  · next heq => cases heq
  · next heq => cases heq
  · next _ hnot _ _ => exact absurd rfl (hnot rest)

theorem literalChar_ne_quote (c : Char) (rest tail : List Char) :
    literalChar c ++ rest ≠ '"' :: tail := by
  unfold literalChar
  repeat' split
  all_goals simp_all

theorem string?_literalChars {s rest : List Char} (hs : delete ∉ s)
    (hrest : ∀ c ∈ rest.head?, c ≠ '"') :
    string? (literalChars s ++ rest) = some (.ok (s, rest)) := by
  have hform : literalChars s ++ rest = '"' :: (s.flatMap literalChar ++ '"' :: rest) := by
    simp [literalChars]
  rw [hform, string?_quote, basicBody_flatMap hs]
  intro tail
  cases s with
  | nil =>
      rintro ⟨⟩
      exact hrest '"' rfl rfl
  | cons c s =>
      rw [List.flatMap_cons, List.append_assoc]
      exact literalChar_ne_quote c _ _

/-! ### Numbers -/

/-- What may follow a value. -/
def Stops (rest : List Char) : Prop := ∀ c ∈ rest.head?, c = ',' ∨ c = ']' ∨ c = '\n'

theorem isDecimal_eq (c : Char) : isDecimal c = c.isDigit := rfl

theorem moreDigits_append {digits rest : List Char} (hdigits : ∀ c ∈ digits, c.isDigit = true)
    (hrest : ∀ c ∈ rest.head?, c.isDigit = false ∧ c ≠ '_') :
    Binary64.moreDigits isDecimal (digits ++ rest) = (digits, rest) := by
  induction digits with
  | nil =>
      cases rest with
      | nil => rfl
      | cons c rest =>
          obtain ⟨hdigit, hunderscore⟩ := hrest c rfl
          simp [Binary64.moreDigits, isDecimal_eq, hdigit, hunderscore]
  | cons c digits ih =>
      obtain ⟨hc, hmore⟩ := List.forall_mem_cons.mp hdigits
      have hunderscore : c ≠ '_' := by
        rintro rfl
        cases hc
      simp [Binary64.moreDigits, isDecimal_eq, hc, hunderscore, ih hmore]

theorem groupedDigits_append {digits rest : List Char} (hne : digits ≠ [])
    (hdigits : ∀ c ∈ digits, c.isDigit = true)
    (hrest : ∀ c ∈ rest.head?, c.isDigit = false ∧ c ≠ '_') :
    Binary64.groupedDigits isDecimal (digits ++ rest) = (digits, rest) := by
  cases digits with
  | nil => exact absurd rfl hne
  | cons c digits =>
      obtain ⟨hc, hmore⟩ := List.forall_mem_cons.mp hdigits
      simp [Binary64.groupedDigits, isDecimal_eq, hc, moreDigits_append hmore hrest]

theorem wholePart?_digitsOf (n : Nat) {rest : List Char}
    (hrest : ∀ c ∈ rest.head?, c.isDigit = false ∧ c ≠ '_') :
    wholePart? (Binary64.digitsOf n ++ rest) = some (Binary64.digitsOf n, rest) := by
  have hgrouped := groupedDigits_append (Binary64.digitsOf_ne_nil n)
    (fun c hc => Binary64.isDigit_of_mem_digitsOf hc) hrest
  by_cases hzero : n = 0
  · subst hzero
    rfl
  · obtain ⟨c, digits, hdigits⟩ := List.exists_cons_of_ne_nil (Binary64.digitsOf_ne_nil n)
    have hc : c ≠ '0' := by
      rintro rfl
      exact Binary64.head?_digitsOf hzero (by rw [hdigits]; rfl)
    rw [hdigits] at hgrouped ⊢
    unfold wholePart?
    split
    · next heq =>
        cases heq
        exact absurd rfl hc
    · rw [hgrouped]

theorem sign_signed (negative : Bool) {s : List Char} (hs : ∀ c ∈ s.head?, c.isDigit = true) :
    Binary64.sign (Binary64.signed negative s) = (negative, s) := by
  cases negative with
  | true => rfl
  | false =>
      change Binary64.sign s = (false, s)
      unfold Binary64.sign
      split
      · cases hs '-' rfl
      · cases hs '+' rfl
      · rfl

theorem Stops.not_digit {rest : List Char} (hrest : Stops rest) :
    ∀ c ∈ rest.head?, c.isDigit = false ∧ c ≠ '_' := by
  intro c hc
  rcases hrest c hc with rfl | rfl | rfl <;> decide

theorem exponentPart_of_stops {rest : List Char} (hrest : Stops rest) :
    exponentPart rest = (none, rest) := by
  cases rest with
  | nil => rfl
  | cons c rest =>
      have hc : ¬ (c = 'e' || c = 'E') = true := by
        rcases hrest c rfl with rfl | rfl | rfl <;> decide
      rw [exponentPart, if_neg hc]

/-- The text of a number in three decimals. -/
def decimals (negative : Bool) (n : Nat) : List Char :=
  Binary64.signed negative (Binary64.digitsOf (n / 1000)) ++
    '.' :: Binary64.fractionDigits (n % 1000)

theorem decimal?_decimals (negative : Bool) {n : Nat} (hn : n < 10 ^ 312) {rest : List Char}
    (hrest : Stops rest) :
    decimal? (decimals negative n ++ rest) =
      some (.ok (.float (.ofRatio negative n 1000), rest)) := by
  have hnumber := Binary64.ofDecimal_thousandths negative hn
  obtain ⟨hdigits, hpos, -⟩ := Binary64.fractionDigits_spec (Nat.mod_lt n (by decide))
  have hne : Binary64.fractionDigits (n % 1000) ≠ [] := List.length_pos_iff.mp hpos
  have hpoint : ∀ c ∈ ('.' :: (Binary64.fractionDigits (n % 1000) ++ rest)).head?,
      c.isDigit = false ∧ c ≠ '_' := by
    rintro c ⟨⟩
    decide
  have hhead : ∀ c ∈ (Binary64.digitsOf (n / 1000) ++
      '.' :: (Binary64.fractionDigits (n % 1000) ++ rest)).head?, c.isDigit = true := by
    rw [List.head?_append_of_ne_nil _ (Binary64.digitsOf_ne_nil _)]
    intro c hc
    exact Binary64.isDigit_of_mem_digitsOf (List.mem_of_mem_head? hc)
  have hfraction : fractionPart ('.' :: (Binary64.fractionDigits (n % 1000) ++ rest)) =
      (Binary64.fractionDigits (n % 1000), rest) := by
    rw [fractionPart, groupedDigits_append hne hdigits hrest.not_digit]
    cases hfirst : Binary64.fractionDigits (n % 1000) with
    | nil => exact absurd hfirst hne
    | cons c digits => rfl
  have hform : decimals negative n ++ rest = Binary64.signed negative
      (Binary64.digitsOf (n / 1000) ++ '.' :: (Binary64.fractionDigits (n % 1000) ++ rest)) := by
    cases negative <;> simp [decimals, Binary64.signed]
  unfold decimal?
  rw [hform, sign_signed negative hhead]
  simp only [wholePart?_digitsOf _ hpoint, Option.map_some, hfraction, exponentPart_of_stops hrest]
  rw [if_neg (by simpa using hne), decimal?.float, hnumber]

/-- The text starts neither a date nor a time of day: it has no digits in front, or they end at
another mark. -/
def Undated (s : List Char) : Prop :=
  (∀ c ∈ s.head?, c.isDigit = false) ∨ ∀ c ∈ (s.dropWhile Char.isDigit).head?, c ≠ '-' ∧ c ≠ ':'

theorem isDigit_of_twoDigits? {low high : Nat} {a b : Char} {rest : List Char}
    {r : Nat × List Char} (htwo : twoDigits? low high (a :: b :: rest) = some r) :
    a.isDigit = true ∧ b.isDigit = true ∧ r.2 = rest := by
  unfold twoDigits? at htwo
  simp only at htwo
  split at htwo
  · next hfits =>
      simp only [isDecimal_eq, Bool.and_eq_true] at hfits
      cases htwo
      exact ⟨hfits.1.1.1, hfits.1.1.2, rfl⟩
  · cases htwo

theorem date?_eq_none {s : List Char} (hs : Undated s) : date? s = none := by
  unfold date?
  split
  · next a b c d rest =>
      cases hcentury : twoDigits? 0 99 [a, b] with
      | none => rfl
      | some century =>
          cases hyear : twoDigits? 0 99 [c, d] with
          | none => rfl
          | some year =>
              obtain ⟨ha, hb, -⟩ := isDigit_of_twoDigits? hcentury
              obtain ⟨hc, hd, -⟩ := isDigit_of_twoDigits? hyear
              rcases hs with hhead | hmark
              · exact absurd (hhead a rfl) (by simp [ha])
              · simp [ha, hb, hc, hd, show Char.isDigit '-' = false from rfl] at hmark
  · rfl

theorem clock?_eq_none {s : List Char} (hs : Undated s) : clock? s = none := by
  unfold clock?
  cases hhour : twoDigits? 0 23 s with
  | none => rfl
  | some hour =>
      obtain ⟨n, rest⟩ := hour
      match s, hhour with
      | a :: b :: tail, hhour =>
          obtain ⟨ha, hb, htail⟩ := isDigit_of_twoDigits? hhour
          simp only at htail
          subst htail
          have hcolon : after? [':'] rest = none := by
            cases rest with
            | nil => rfl
            | cons c rest =>
                have hc : ':' ≠ c := by
                  rintro rfl
                  rcases hs with hhead | hmark
                  · exact absurd (hhead a rfl) (by simp [ha])
                  · simp [ha, hb, show Char.isDigit ':' = false from rfl] at hmark
                simp [after?, hc]
          simp [hcolon]

/-- What may follow the whole part of a number: its fraction, or what may follow a value. -/
def EndsWhole (rest : List Char) : Prop :=
  ∀ c ∈ rest.head?, c = '.' ∨ c = ',' ∨ c = ']' ∨ c = '\n'

theorem Stops.endsWhole {rest : List Char} (hrest : Stops rest) : EndsWhole rest :=
  fun c hc => Or.inr (hrest c hc)

theorem endsWhole_point (rest : List Char) : EndsWhole ('.' :: rest) := by
  rintro c ⟨⟩
  exact Or.inl rfl

theorem undated_whole (negative : Bool) (n : Nat) {rest : List Char} (hrest : EndsWhole rest) :
    Undated (Binary64.signed negative (Binary64.digitsOf n) ++ rest) := by
  cases negative with
  | true =>
      refine Or.inl ?_
      rintro c ⟨⟩
      rfl
  | false =>
      refine Or.inr ?_
      have hstop : ∀ c ∈ rest.head?, c.isDigit = false := by
        intro c hc
        rcases hrest c hc with rfl | rfl | rfl | rfl <;> rfl
      have hdrop := (takeWhile_append_of_stop
        (fun c hc => Binary64.isDigit_of_mem_digitsOf (n := n) hc) hstop).2
      rw [Binary64.signed, if_neg Bool.false_ne_true, hdrop]
      intro c hc
      rcases hrest c hc with rfl | rfl | rfl | rfl <;> decide

/-- After a zero in front the number goes on as a decimal one, so no other base is meant. -/
theorem whole_not_based (negative : Bool) (n : Nat) {rest tail : List Char} {c : Char}
    (hrest : EndsWhole rest)
    (hform : Binary64.signed negative (Binary64.digitsOf n) ++ rest = '0' :: c :: tail) :
    c = '.' ∨ c = ',' ∨ c = ']' ∨ c = '\n' := by
  cases negative with
  | true => cases hform
  | false =>
      rw [Binary64.signed, if_neg Bool.false_ne_true] at hform
      by_cases hzero : n = 0
      · subst hzero
        obtain ⟨-, rfl⟩ := List.cons.inj hform
        exact hrest c rfl
      · refine absurd ?_ (Binary64.head?_digitsOf hzero)
        have hhead := congrArg List.head? hform
        rwa [List.head?_append_of_ne_nil _ (Binary64.digitsOf_ne_nil _)] at hhead

/-- What starts with a sign and digits is read as a decimal number, if it is followed as such. -/
theorem scalar?_whole (negative : Bool) (n : Nat) {rest : List Char} (hrest : EndsWhole rest)
    {r : Except Problem (Value × List Char)}
    (hdecimal : decimal? (Binary64.signed negative (Binary64.digitsOf n) ++ rest) = some r) :
    scalar? (Binary64.signed negative (Binary64.digitsOf n) ++ rest) = some r := by
  have hundated := undated_whole negative n hrest
  have hmoment : moment? (Binary64.signed negative (Binary64.digitsOf n) ++ rest) = none := by
    simp [moment?, date?_eq_none hundated]
  unfold scalar?
  rw [hmoment, clock?_eq_none hundated]
  unfold number?
  simp only
  split
  · next heq =>
      split at heq
      · next hform => exact absurd (whole_not_based negative n hrest hform) (by decide)
      · next hform => exact absurd (whole_not_based negative n hrest hform) (by decide)
      · next hform => exact absurd (whole_not_based negative n hrest hform) (by decide)
      · cases heq
  · rw [hdecimal]
    rfl

theorem decimals_append (negative : Bool) (n : Nat) (rest : List Char) :
    decimals negative n ++ rest = Binary64.signed negative (Binary64.digitsOf (n / 1000)) ++
      '.' :: (Binary64.fractionDigits (n % 1000) ++ rest) := by
  rw [decimals, List.append_assoc, List.cons_append]

theorem scalar?_decimals (negative : Bool) {n : Nat} (hn : n < 10 ^ 312) {rest : List Char}
    (hrest : Stops rest) :
    scalar? (decimals negative n ++ rest) =
      some (.ok (.float (.ofRatio negative n 1000), rest)) := by
  have hdecimal := decimal?_decimals negative hn hrest
  rw [decimals_append] at hdecimal ⊢
  exact scalar?_whole negative _ (endsWhole_point _) hdecimal

theorem fractionPart_of_stops {rest : List Char} (hrest : Stops rest) :
    fractionPart rest = ([], rest) := by
  unfold fractionPart
  split
  · exact absurd (hrest '.' rfl) (by decide)
  · rfl

theorem decimal?_whole (negative : Bool) (n : Nat) {rest : List Char} (hrest : Stops rest) :
    decimal? (Binary64.signed negative (Binary64.digitsOf n) ++ rest) =
      some (if (Binary64.digitsOf n).length ≤ maxDigits then
          .ok (.int (if negative then -n else n), rest)
        else .error (.numberTooLong (Binary64.digitsOf n).length)) := by
  have hhead : ∀ c ∈ (Binary64.digitsOf n ++ rest).head?, c.isDigit = true := by
    rw [List.head?_append_of_ne_nil _ (Binary64.digitsOf_ne_nil _)]
    intro c hc
    exact Binary64.isDigit_of_mem_digitsOf (List.mem_of_mem_head? hc)
  have hvalue : digitsValue (Binary64.digitsOf n) = n := by
    rw [digitsValue_eq fun c hc => Binary64.isDigit_of_mem_digitsOf hc]
    exact Nat.ofDigitChars_toDigits (by decide) (by decide)
  have hform : Binary64.signed negative (Binary64.digitsOf n) ++ rest =
      Binary64.signed negative (Binary64.digitsOf n ++ rest) := by
    cases negative <;> rfl
  unfold decimal?
  rw [hform, sign_signed negative hhead]
  simp only [wholePart?_digitsOf n hrest.not_digit, Option.map_some, fractionPart_of_stops hrest,
    exponentPart_of_stops hrest, List.isEmpty_nil, if_true, hvalue]

/-- The digits of a whole number with its sign. -/
def intDigits (n : Int) : List Char := Binary64.signed (decide (n < 0)) (Binary64.digitsOf n.natAbs)

theorem toList_toString_int (n : Int) : (toString n).toList = intDigits n := by
  cases n with
  | ofNat n =>
      have hn : decide (Int.ofNat n < 0) = false := decide_eq_false (by simp)
      rw [intDigits, hn]
      exact String.toList_ofList
  | negSucc n =>
      have hn : decide (Int.negSucc n < 0) = true := decide_eq_true (Int.negSucc_lt_zero n)
      rw [intDigits, hn]
      change ("-" ++ Nat.repr (n + 1)).toList = _
      rw [String.toList_append]
      exact congrArg ('-' :: ·) String.toList_ofList

theorem length_digitsOf_le_iff {n width : Nat} (hwidth : 0 < width) :
    (Binary64.digitsOf n).length ≤ width ↔ n < Nat.pow 10 width :=
  Nat.length_toDigits_le_iff (by decide) hwidth

/-- A whole number is read as it was written, if it has not too many digits. -/
theorem scalar?_intDigits (n : Int) {rest : List Char} (hrest : Stops rest) :
    scalar? (intDigits n ++ rest) =
      some (if fitsDigits n then .ok (.int n, rest)
        else .error (.numberTooLong (Binary64.digitsOf n.natAbs).length)) := by
  have hvalue : (if decide (n < 0) = true then -(n.natAbs : Int) else n.natAbs) = n := by
    simp only [decide_eq_true_eq]
    split <;> omega
  have hfits : (Binary64.digitsOf n.natAbs).length ≤ maxDigits ↔ fitsDigits n = true :=
    (@length_digitsOf_le_iff n.natAbs maxDigits (by decide)).trans decide_eq_true_iff.symm
  have hdecimal := decimal?_whole (decide (n < 0)) n.natAbs hrest
  rw [hvalue] at hdecimal
  simp only [hfits] at hdecimal
  exact scalar?_whole _ _ hrest.endsWhole hdecimal

end Toml

/-! ### Values that can be written down -/

namespace Value

mutual

/-- Values that can be written to a settings file and read again: texts without the one character
that is refused there, truth values, whole numbers of not too many digits, other finite numbers, and
lists of such. -/
def IsPlain : Value → Prop
  | bool _ => True
  | int n => fitsDigits n = true
  | float x => x.IsFinite
  | text s => Toml.delete ∉ s.toList
  | list items => ArePlain items
  | _ => False

def ArePlain : List Value → Prop
  | [] => True
  | v :: rest => IsPlain v ∧ ArePlain rest

end

mutual

/-- What a plain value is read as once it was written. -/
def reread : Value → Value
  | float x => .float x.thousandths
  | list items => .list (rereadItems items)
  | v => v

def rereadItems : List Value → List Value
  | [] => []
  | v :: rest => reread v :: rereadItems rest

end

end Value

namespace Toml

open Value Text

/-- The start of a written value, which no filler and no closing bracket can be. -/
def Solid (s : List Char) : Prop :=
  ∃ c tail, s = c :: tail ∧ isSpaceOrNewline c = false ∧ c ≠ '#' ∧ c ≠ ']'

theorem floatToml_decimals {x : Binary64} (hx : x.IsFinite) :
    ∃ negative n, n < 10 ^ 312 ∧ (floatToml x).toList = decimals negative n ∧
      x.thousandths = .ofRatio negative n 1000 := by
  obtain ⟨negative, mantissa, scale, hread⟩ := hx
  refine ⟨negative, _, Binary64.scaledTo_lt hread, Binary64.floatToml_eq hread, ?_⟩
  rw [Binary64.thousandths, hread]

theorem solid_whole (negative : Bool) (n : Nat) (rest : List Char) :
    Solid (Binary64.signed negative (Binary64.digitsOf n) ++ rest) := by
  cases negative with
  | true => exact ⟨'-', _, rfl, by decide, by decide, by decide⟩
  | false =>
      obtain ⟨c, digits, hdigits⟩ := List.exists_cons_of_ne_nil (Binary64.digitsOf_ne_nil n)
      have hc : c.isDigit = true :=
        Binary64.isDigit_of_mem_digitsOf (hdigits ▸ List.mem_cons_self)
      refine ⟨c, digits ++ rest, ?_, ?_, ?_, ?_⟩
      · rw [Binary64.signed, if_neg Bool.false_ne_true, hdigits]
        rfl
      · simp only [isSpaceOrNewline, isSpace, Bool.or_eq_false_iff, beq_eq_false_iff_ne]
        refine ⟨⟨?_, ?_⟩, ?_⟩ <;> rintro rfl <;> cases hc
      · rintro rfl
        cases hc
      · rintro rfl
        cases hc

theorem solid_literal (s : String) : Solid (literal s).toList := by
  rw [literal, String.toList_ofList]
  exact ⟨_, _, rfl, by decide, by decide, by decide⟩

/-- How a number that is not finite is written. -/
theorem floatToml_of_not_isFinite {x : Binary64} (hx : ¬ x.IsFinite) :
    floatToml x = "nan" ∨ floatToml x = "inf" ∨ floatToml x = "-inf" := by
  cases hread : x.read with
  | nan =>
      have hchars : x.fixedChars 3 = "nan".toList := by rw [Binary64.fixedChars, hread]
      refine Or.inl ?_
      rw [floatToml, hchars]
      decide
  | infinite negative =>
      have hchars : x.fixedChars 3 = Binary64.signed negative "inf".toList := by
        rw [Binary64.fixedChars, hread]
      refine Or.inr ?_
      rw [floatToml, hchars]
      cases negative <;> decide
  | finite negative mantissa scale => exact absurd ⟨negative, mantissa, scale, hread⟩ hx

theorem toList_toml_text (s : String) : (Value.text s).toml.toList = literalChars s.toList := by
  rw [toml, literal, String.toList_ofList]

/-- The items of a list as they are written, with the closing bracket. -/
def itemsText (items : List Value) : List Char :=
  (String.intercalate ", " (tomlItems items)).toList ++ [']']

theorem toList_toml_list (items : List Value) :
    (Value.list items).toml.toList = '[' :: itemsText items := by
  rw [toml, itemsText, String.toList_append, String.toList_append]
  rfl

theorem itemsText_nil : itemsText [] = [']'] := rfl

theorem itemsText_singleton (v : Value) : itemsText [v] = v.toml.toList ++ [']'] := by
  rw [itemsText, tomlItems, tomlItems, String.intercalate_singleton]

theorem itemsText_cons_cons (v w : Value) (rest : List Value) :
    itemsText (v :: w :: rest) = v.toml.toList ++ (',' :: ' ' :: itemsText (w :: rest)) := by
  rw [itemsText, tomlItems, tomlItems, String.intercalate_cons_cons, ← tomlItems, itemsText,
    String.toList_append, String.toList_append]
  simp

theorem solid_toml (v : Value) : Solid v.toml.toList := by
  cases v with
  | bool b => cases b <;> exact ⟨_, _, rfl, by decide, by decide, by decide⟩
  | int n =>
      rw [toml, toList_toString_int, intDigits, ← List.append_nil (Binary64.signed _ _)]
      exact solid_whole _ _ _
  | float x =>
      rw [toml]
      by_cases hx : x.IsFinite
      · obtain ⟨negative, n, -, htext, -⟩ := floatToml_decimals hx
        rw [htext]
        exact solid_whole _ _ _
      · rcases floatToml_of_not_isFinite hx with htext | htext | htext <;> rw [htext] <;>
          exact ⟨_, _, rfl, by decide, by decide, by decide⟩
  | list items =>
      rw [toList_toml_list]
      exact ⟨_, _, rfl, by decide, by decide, by decide⟩
  | null | text | table | moment =>
      rw [toml]
      exact solid_literal _

theorem Solid.append {s : List Char} (hs : Solid s) (rest : List Char) : Solid (s ++ rest) := by
  obtain ⟨c, tail, rfl, hspace, hcomment, hclose⟩ := hs
  exact ⟨c, tail ++ rest, rfl, hspace, hcomment, hclose⟩

theorem Solid.skipFiller {s : List Char} (hs : Solid s) : skipFiller false s = .ok s := by
  obtain ⟨c, tail, rfl, hspace, hcomment, -⟩ := hs
  simp [Toml.skipFiller, hspace, hcomment]

theorem value_text {s : String} (hs : delete ∉ s.toList) (fuel : Nat) {rest : List Char}
    (hrest : Stops rest) :
    value (fuel + 1) ((Value.text s).toml.toList ++ rest) = .ok (.text s, rest) := by
  have hquote : ∀ c ∈ rest.head?, c ≠ '"' := by
    intro c hc
    rcases hrest c hc with rfl | rfl | rfl <;> decide
  rw [toList_toml_text, value.eq_def]
  simp only [string?_literalChars hs hquote, Except.map, String.ofList_toList]

theorem value_bool (b : Bool) (fuel : Nat) (rest : List Char) :
    value (fuel + 1) ((Value.bool b).toml.toList ++ rest) = .ok (.bool b, rest) := by
  cases b <;> rfl

/-- A value that starts like a number is no text, no truth value, no list and no table. -/
theorem value_of_scalar {c : Char} (hc : c = '-' ∨ c.isDigit = true) (fuel : Nat)
    (rest : List Char) :
    value (fuel + 1) (c :: rest) =
      (scalar? (c :: rest)).getD (.error (.malformed "Invalid value")) := by
  have hother {d : Char} (hd : d ≠ '-' ∧ d.isDigit = false) : c ≠ d := by
    rintro rfl
    rcases hc with rfl | hdigit
    · exact hd.1 rfl
    · rw [hdigit] at hd
      cases hd.2
  have hstring : string? (c :: rest) = none := by
    have hdouble : c ≠ '"' := hother (by decide)
    have hsingle : c ≠ '\'' := hother (by decide)
    unfold string?
    split <;> simp_all
  rw [value.eq_def]
  simp only [hstring]
  split
  · next heq => exact absurd (List.cons.inj heq).1 (hother (by decide))
  · next heq => exact absurd (List.cons.inj heq).1 (hother (by decide))
  · next heq => exact absurd (List.cons.inj heq).1 (hother (by decide))
  · next heq => exact absurd (List.cons.inj heq).1 (hother (by decide))
  · rfl

theorem value_of_whole (negative : Bool) (n : Nat) (fuel : Nat) {rest : List Char}
    {r : Except Problem (Value × List Char)}
    (hscalar : scalar? (Binary64.signed negative (Binary64.digitsOf n) ++ rest) = some r) :
    value (fuel + 1) (Binary64.signed negative (Binary64.digitsOf n) ++ rest) = r := by
  obtain ⟨c, tail, hform, hc⟩ : ∃ c tail,
      Binary64.signed negative (Binary64.digitsOf n) ++ rest = c :: tail ∧
        (c = '-' ∨ c.isDigit = true) := by
    cases negative with
    | true => exact ⟨'-', _, rfl, Or.inl rfl⟩
    | false =>
        obtain ⟨c, digits, hdigits⟩ := List.exists_cons_of_ne_nil (Binary64.digitsOf_ne_nil n)
        refine ⟨c, digits ++ rest, ?_, Or.inr ?_⟩
        · simp [Binary64.signed, hdigits]
        · exact Binary64.isDigit_of_mem_digitsOf (hdigits ▸ List.mem_cons_self)
  rw [hform] at hscalar ⊢
  rw [value_of_scalar hc, hscalar]
  rfl

theorem value_float {x : Binary64} (hx : x.IsFinite) (fuel : Nat) {rest : List Char}
    (hrest : Stops rest) :
    value (fuel + 1) ((Value.float x).toml.toList ++ rest) = .ok (.float x.thousandths, rest) := by
  obtain ⟨negative, n, hn, htext, hvalue⟩ := floatToml_decimals hx
  have hscalar := scalar?_decimals negative hn hrest
  rw [decimals_append] at hscalar
  rw [toml, htext, hvalue, decimals_append]
  exact value_of_whole negative _ fuel hscalar

theorem value_int (n : Int) (fuel : Nat) {rest : List Char} (hrest : Stops rest) :
    value (fuel + 1) ((Value.int n).toml.toList ++ rest) =
      if fitsDigits n then .ok (.int n, rest)
      else .error (.numberTooLong (Binary64.digitsOf n.natAbs).length) := by
  rw [toml, toList_toString_int]
  exact value_of_whole _ _ fuel (scalar?_intDigits n hrest)

/-- The items of a list start with the first of them. -/
theorem itemsText_cons (v : Value) (items : List Value) :
    ∃ tail, itemsText (v :: items) = v.toml.toList ++ tail := by
  cases items with
  | nil => exact ⟨_, itemsText_singleton v⟩
  | cons w items => exact ⟨_, itemsText_cons_cons v w items⟩

theorem skipFiller_items (items : List Value) (rest : List Char) :
    skipFiller false (itemsText items ++ rest) = .ok (itemsText items ++ rest) := by
  cases items with
  | nil => rfl
  | cons v items =>
      obtain ⟨tail, htext⟩ := itemsText_cons v items
      rw [htext, List.append_assoc]
      exact ((solid_toml v).append _).skipFiller

/-- One step into a list: its items are read with one unit of fuel less. -/
theorem value_list (items : List Value) (fuel : Nat) (rest : List Char) :
    value (fuel + 1) ((Value.list items).toml.toList ++ rest) =
      (listItems fuel (itemsText items ++ rest)).map fun read => (.list read.1, read.2) := by
  have hstring : string? ('[' :: (itemsText items ++ rest)) = none := rfl
  rw [toList_toml_list, List.cons_append, value.eq_def]
  simp only [hstring, skipFiller_items, bind, Except.bind]
  cases listItems fuel (itemsText items ++ rest) <;> rfl

theorem listItems_last {s rest : List Char} {v : Value} {fuel : Nat} (hs : Solid s)
    (hvalue : value fuel s = .ok (v, ']' :: rest)) :
    listItems (fuel + 1) s = .ok ([v], rest) := by
  obtain ⟨c, tail, rfl, -, -, hclose⟩ := hs
  have hfiller : skipFiller false (']' :: rest) = .ok (']' :: rest) := rfl
  rw [listItems.eq_def]
  simp only
  split
  · next heq => exact absurd (List.cons.inj heq).1 hclose
  · simp only [hvalue, hfiller, bind, Except.bind]
    rfl

theorem listItems_more {s next : List Char} {v : Value} {fuel : Nat} (hs : Solid s)
    (hvalue : value fuel s = .ok (v, ',' :: ' ' :: next))
    (hnext : skipFiller false next = .ok next) :
    listItems (fuel + 1) s =
      (listItems fuel next).map fun read => (v :: read.1, read.2) := by
  obtain ⟨c, tail, rfl, -, -, hclose⟩ := hs
  have hcomma : skipFiller false (',' :: ' ' :: next) = .ok (',' :: ' ' :: next) := rfl
  have hspace : skipFiller false (' ' :: next) = .ok next := hnext
  rw [listItems.eq_def]
  simp only
  split
  · next heq => exact absurd (List.cons.inj heq).1 hclose
  · simp only [hvalue, hcomma, hspace, bind, Except.bind]
    cases listItems fuel next <;> rfl

/-- One item: it is read, and then the items after it. -/
theorem listItems_cons_cons {v w : Value} {items : List Value} {fuel : Nat} (rest : List Char)
    (hvalue : ∀ after, Stops after → value fuel (v.toml.toList ++ after) = .ok (v.reread, after)) :
    listItems (fuel + 1) (itemsText (v :: w :: items) ++ rest) =
      (listItems fuel (itemsText (w :: items) ++ rest)).map fun read =>
        (v.reread :: read.1, read.2) := by
  have hstops : Stops (',' :: ' ' :: (itemsText (w :: items) ++ rest)) := by
    rintro c ⟨⟩
    exact Or.inl rfl
  rw [itemsText_cons_cons, List.append_assoc, List.cons_append, List.cons_append]
  exact listItems_more ((solid_toml v).append _) (hvalue _ hstops) (skipFiller_items _ rest)

theorem listItems_cons {v : Value} {items : List Value} {fuel : Nat} {rest : List Char}
    (hvalue : ∀ after, Stops after → value fuel (v.toml.toList ++ after) = .ok (v.reread, after))
    (hread : listItems fuel (itemsText items ++ rest) = .ok (rereadItems items, rest)) :
    listItems (fuel + 1) (itemsText (v :: items) ++ rest) =
      .ok (v.reread :: rereadItems items, rest) := by
  cases items with
  | nil =>
      have hstops : Stops (']' :: rest) := by
        rintro c ⟨⟩
        exact Or.inr (Or.inl rfl)
      rw [itemsText_singleton, List.append_assoc, List.singleton_append]
      exact listItems_last ((solid_toml v).append _) (hvalue _ hstops)
  | cons w items =>
      rw [listItems_cons_cons rest hvalue, hread]
      rfl

theorem length_itemsText (v : Value) (items : List Value) :
    v.toml.toList.length < (itemsText (v :: items)).length ∧
      (itemsText items).length < (itemsText (v :: items)).length := by
  obtain ⟨c, tail, htext, -⟩ := solid_toml v
  cases items with
  | nil =>
      simp only [itemsText_singleton, itemsText_nil, htext, List.length_append, List.length_cons]
      omega
  | cons w items =>
      simp only [itemsText_cons_cons, htext, List.length_append, List.length_cons]
      omega

/-- Values and lists of items are read as they were written; the length of the text is fuel
enough. -/
theorem read_toml (fuel : Nat) :
    (∀ v : Value, v.IsPlain → v.toml.toList.length ≤ fuel → ∀ rest, Stops rest →
      value fuel (v.toml.toList ++ rest) = .ok (v.reread, rest)) ∧
    ∀ items : List Value, ArePlain items → (itemsText items).length ≤ fuel → ∀ rest,
      listItems fuel (itemsText items ++ rest) = .ok (rereadItems items, rest) := by
  induction fuel with
  | zero =>
      constructor
      · intro v hv hfuel
        obtain ⟨c, tail, htext, -⟩ := solid_toml v
        rw [htext] at hfuel
        exact absurd hfuel (Nat.not_succ_le_zero _)
      · intro items _ hfuel
        rw [itemsText, List.length_append] at hfuel
        exact absurd hfuel (Nat.not_succ_le_zero _)
  | succ fuel ih =>
      obtain ⟨ihvalue, ihitems⟩ := ih
      constructor
      · intro v hv hfuel rest hrest
        cases v with
        | bool b => exact value_bool b fuel rest
        | int n => exact (value_int n fuel hrest).trans (if_pos hv)
        | float x => exact value_float hv fuel hrest
        | text s => exact value_text hv fuel hrest
        | list items =>
            rw [toList_toml_list, List.length_cons] at hfuel
            rw [value_list, ihitems items hv (Nat.le_of_succ_le_succ hfuel) rest]
            rfl
        | null => exact hv.elim
        | table fields => exact hv.elim
        | moment m => exact hv.elim
      · intro items hitems hfuel rest
        cases items with
        | nil => rfl
        | cons v items =>
            obtain ⟨hfirst, hmore⟩ := length_itemsText v items
            refine listItems_cons ?_ ?_
            · intro after hafter
              exact ihvalue v hitems.1 (by omega) after hafter
            · exact ihitems items hitems.2 (by omega) rest

/-! ### Characters of written values -/

theorem return_not_mem_literalChars (s : List Char) : '\r' ∉ literalChars s := by
  have hhex : ∀ n < 0x20, '\r' ∉ hex 4 n := by decide
  have hchar (c : Char) : '\r' ∉ literalChar c := by
    by_cases hreturn : c = '\r'
    · subst hreturn
      decide
    · unfold literalChar
      repeat' split
      all_goals simp_all [eq_comm]
  simp [literalChars, hchar]

theorem return_not_mem_whole (negative : Bool) (n : Nat) :
    '\r' ∉ Binary64.signed negative (Binary64.digitsOf n) := by
  have hdigits : '\r' ∉ Binary64.digitsOf n := by
    intro hmem
    cases Binary64.isDigit_of_mem_digitsOf hmem
  cases negative <;> simp [Binary64.signed, hdigits]

theorem return_not_mem_float (x : Binary64) : '\r' ∉ (floatToml x).toList := by
  by_cases hx : x.IsFinite
  · obtain ⟨negative, n, -, htext, -⟩ := floatToml_decimals hx
    have hfraction : '\r' ∉ Binary64.fractionDigits (n % 1000) := by
      intro hmem
      cases (Binary64.fractionDigits_spec (Nat.mod_lt n (by decide))).1 _ hmem
    rw [htext, decimals]
    simp [return_not_mem_whole, hfraction]
  · rcases floatToml_of_not_isFinite hx with htext | htext | htext <;> rw [htext] <;> decide

theorem return_not_mem_literal (s : String) : '\r' ∉ (literal s).toList := by
  rw [literal, String.toList_ofList]
  exact return_not_mem_literalChars s.toList

mutual

/-- In a written value there is no carriage return: texts have it escaped. -/
theorem return_not_mem_toml : ∀ v : Value, '\r' ∉ v.toml.toList
  | .bool b => by cases b <;> decide
  | .int n => by
      rw [toml, toList_toString_int]
      exact return_not_mem_whole _ _
  | .float x => by
      rw [toml]
      exact return_not_mem_float x
  | .list items => by
      rw [toList_toml_list]
      simp [return_not_mem_items items]
  | .null | .text _ | .table _ | .moment _ => by
      rw [toml]
      exact return_not_mem_literal _

theorem return_not_mem_items : ∀ items : List Value, '\r' ∉ itemsText items
  | [] => by decide
  | [v] => by
      rw [itemsText_singleton]
      simp [return_not_mem_toml v]
  | v :: w :: items => by
      rw [itemsText_cons_cons]
      simp [return_not_mem_toml v, return_not_mem_items (w :: items)]

end

end Toml

end Conductor
