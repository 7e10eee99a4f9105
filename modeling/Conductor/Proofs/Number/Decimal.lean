import Conductor.Value
import Conductor.Proofs.Number.Rounding

/-!
Decimal digits. A number is found again from its digits, also with zeros in front of them; and a
number in three decimals without the zeros at its end is its whole part, a point, and one to three
digits that stand for the rest.
-/

namespace Conductor

namespace Text

variable {c : Char} {s t : List Char}

theorem digitValue?_of_isDigit (hc : c.isDigit = true) : digitValue? c = some (c.toNat - 48) := by
  obtain ⟨hlow, hhigh⟩ := Char.isDigit_iff_toNat.mp hc
  have hfirst :
      digitZeros.find? (fun base => base ≤ c.toNat && c.toNat < base + 10) = some 0x30 := by
    have hfits : (decide (0x30 ≤ c.toNat) && decide (c.toNat < 0x30 + 10)) = true := by
      simp only [Bool.and_eq_true, decide_eq_true_eq]
      exact ⟨hlow, Nat.lt_succ_of_le hhigh⟩
    exact List.find?_cons_of_pos hfits
  rw [digitValue?, hfirst]

theorem digitsValue_eq (hs : ∀ c ∈ s, c.isDigit = true) :
    digitsValue s = Nat.ofDigitChars 10 s 0 := by
  unfold digitsValue Nat.ofDigitChars
  refine List.foldl_ext _ _ _ fun n c hc => ?_
  rw [digitValue?_of_isDigit (hs c hc)]
  rfl

end Text

namespace Binary64

theorem isDigit_of_mem_digitsOf {c : Char} {n : Nat} (hc : c ∈ digitsOf n) : c.isDigit = true :=
  Nat.isDigit_of_mem_toDigits (by decide) (by decide) hc

theorem digitsOf_ne_nil (n : Nat) : digitsOf n ≠ [] := Nat.toDigits_ne_nil

section Padded

variable {width n : Nat}

theorem length_padded (hwidth : 0 < width) (hn : n < 10 ^ width) :
    (padded width n).length = width := by
  have hlength : (digitsOf n).length ≤ width :=
    (Nat.length_toDigits_le_iff (by decide) hwidth).mpr hn
  simp only [padded, List.length_append, List.length_replicate]
  omega

theorem isDigit_of_mem_padded {c : Char} (hc : c ∈ padded width n) : c.isDigit = true := by
  rcases List.mem_append.mp hc with hzero | hdigit
  · rw [List.eq_of_mem_replicate hzero]
    decide
  · exact isDigit_of_mem_digitsOf hdigit

@[simp]
theorem ofDigitChars_padded (width n : Nat) : Nat.ofDigitChars 10 (padded width n) 0 = n := by
  rw [padded, Nat.ofDigitChars_append, Nat.ofDigitChars_replicate_zero, Nat.mul_zero]
  exact Nat.ofDigitChars_ten_toDigits

/-- The last digit stands apart. -/
theorem padded_succ (hwidth : 0 < width) (n : Nat) :
    padded (width + 1) n = padded width (n / 10) ++ [Nat.digitChar (n % 10)] := by
  unfold padded digitsOf
  rcases Nat.lt_or_ge n 10 with hsmall | hlarge
  · have hzeros : List.replicate width '0' = List.replicate (width - 1) '0' ++ ['0'] := by
      rw [← List.replicate_succ', Nat.sub_add_cancel hwidth]
    simp [Nat.toDigits_of_lt_base hsmall, Nat.div_eq_of_lt hsmall, Nat.mod_eq_of_lt hsmall, hzeros]
  · simp [Nat.toDigits_of_base_le (by decide) hlarge]

end Padded

/-! ### Zeros at the end -/

/-- A text without the zeros at its end. -/
def trimZeros (s : List Char) : List Char := (s.reverse.dropWhile (· == '0')).reverse

theorem trimZeros_concat (s : List Char) (c : Char) :
    trimZeros (s ++ [c]) = if c = '0' then trimZeros s else s ++ [c] := by
  by_cases hc : c = '0' <;> simp [trimZeros, hc]

theorem digitChar_eq_zero {d : Nat} (hd : d < 10) : Nat.digitChar d = '0' ↔ d = 0 := by
  revert d
  decide

/-- There are no zeros in front of other digits. -/
theorem head?_digitsOf {n : Nat} (hn : n ≠ 0) : (digitsOf n).head? ≠ some '0' := by
  induction n using Nat.strongRecOn with
  | ind n ih =>
      unfold digitsOf
      rcases Nat.lt_or_ge n 10 with hsmall | hlarge
      · rw [Nat.toDigits_of_lt_base hsmall, List.head?_cons]
        intro hzero
        exact hn ((digitChar_eq_zero hsmall).mp (Option.some.inj hzero))
      · rw [Nat.toDigits_of_base_le (by decide) hlarge,
          List.head?_append_of_ne_nil _ Nat.toDigits_ne_nil]
        exact ih (n / 10) (by omega) (by omega)

/-- The digits after the point of so many thousandths: one at least, and no further zeros at the
end. -/
def fractionDigits (thousandths : Nat) : List Char :=
  if thousandths % 10 ≠ 0 then padded 3 thousandths
  else if thousandths / 10 % 10 ≠ 0 then padded 2 (thousandths / 10)
  else padded 1 (thousandths / 100)

theorem padded_one {d : Nat} (hd : d < 10) : padded 1 d = [Nat.digitChar d] := by
  simp [padded, digitsOf, Nat.toDigits_of_lt_base hd]

theorem trimZeros_thousandths (s : List Char) {n : Nat} (hn : n < 1000) :
    trimZeros (s ++ '.' :: padded 3 n) =
      if n = 0 then s ++ ['.'] else s ++ '.' :: fractionDigits n := by
  have hthree : s ++ '.' :: padded 3 n =
      (s ++ '.' :: padded 2 (n / 10)) ++ [Nat.digitChar (n % 10)] := by
    simp [padded_succ (show 0 < 2 by decide)]
  have htwo : s ++ '.' :: padded 2 (n / 10) =
      (s ++ '.' :: padded 1 (n / 100)) ++ [Nat.digitChar (n / 10 % 10)] := by
    simp [padded_succ (show 0 < 1 by decide), Nat.div_div_eq_div_mul]
  have hone : s ++ '.' :: padded 1 (n / 100) = (s ++ ['.']) ++ [Nat.digitChar (n / 100)] := by
    simp [padded_one (show n / 100 < 10 by omega)]
  have hlast : n % 10 < 10 := Nat.mod_lt _ (by decide)
  have hmiddle : n / 10 % 10 < 10 := Nat.mod_lt _ (by decide)
  have hfirst : n / 100 < 10 := by omega
  unfold fractionDigits
  by_cases hthird : n % 10 = 0
  · rw [hthree, trimZeros_concat, if_pos ((digitChar_eq_zero hlast).mpr hthird),
      if_neg (not_not_intro hthird)]
    by_cases hsecond : n / 10 % 10 = 0
    · rw [htwo, trimZeros_concat, if_pos ((digitChar_eq_zero hmiddle).mpr hsecond),
        if_neg (not_not_intro hsecond)]
      by_cases hzero : n / 100 = 0
      · rw [hone, trimZeros_concat, if_pos ((digitChar_eq_zero hfirst).mpr hzero),
          if_pos (by omega), trimZeros_concat, if_neg (by decide)]
      · rw [hone, trimZeros_concat, if_neg (mt (digitChar_eq_zero hfirst).mp hzero),
          if_neg (by omega)]
    · rw [htwo, trimZeros_concat, if_neg (mt (digitChar_eq_zero hmiddle).mp hsecond),
        if_pos hsecond, if_neg (by omega), htwo]
  · rw [hthree, trimZeros_concat, if_neg (mt (digitChar_eq_zero hlast).mp hthird), if_pos hthird,
      if_neg (by omega), hthree]

/-- What the digits after the point stand for. -/
theorem fractionDigits_spec {n : Nat} (hn : n < 1000) :
    (∀ c ∈ fractionDigits n, c.isDigit = true) ∧ 0 < (fractionDigits n).length ∧
      (fractionDigits n).length ≤ 3 ∧
      Nat.ofDigitChars 10 (fractionDigits n) 0 * 10 ^ (3 - (fractionDigits n).length) = n := by
  have hform : ∃ width m, 0 < width ∧ width ≤ 3 ∧ fractionDigits n = padded width m ∧
      m < 10 ^ width ∧ m * 10 ^ (3 - width) = n := by
    unfold fractionDigits
    split
    · exact ⟨3, n, by decide, by decide, rfl, hn, by omega⟩
    · split
      · exact ⟨2, n / 10, by decide, by decide, rfl, by omega, by omega⟩
      · exact ⟨1, n / 100, by decide, by decide, rfl, by omega, by omega⟩
  obtain ⟨width, m, hpos, hle, hdigits, hm, hvalue⟩ := hform
  rw [hdigits, length_padded hpos hm, ofDigitChars_padded]
  exact ⟨fun c hc => isDigit_of_mem_padded hc, hpos, hle, hvalue⟩

/-- How a finite number is written to a settings file. -/
theorem floatToml_eq {x : Binary64} {negative : Bool} {mantissa scale : Nat}
    (hread : x.read = .finite negative mantissa scale) :
    (Value.floatToml x).toList =
      signed negative (digitsOf (scaledTo 3 mantissa scale / 1000)) ++
        '.' :: fractionDigits (scaledTo 3 mantissa scale % 1000) := by
  have hfixed : x.fixedChars 3 =
      signed negative (digitsOf (scaledTo 3 mantissa scale / 1000)) ++
        '.' :: padded 3 (scaledTo 3 mantissa scale % 1000) := by
    rw [fixedChars, hread]
    cases negative <;> rfl
  have hsmall : scaledTo 3 mantissa scale % 1000 < 1000 := Nat.mod_lt _ (by decide)
  have hkept := trimZeros_thousandths
    (signed negative (digitsOf (scaledTo 3 mantissa scale / 1000))) hsmall
  rw [← hfixed] at hkept
  change (String.ofList (if (trimZeros (x.fixedChars 3)).getLast? = some '.' then
    trimZeros (x.fixedChars 3) ++ ['0'] else trimZeros (x.fixedChars 3))).toList = _
  rw [String.toList_ofList, hkept]
  by_cases hzero : scaledTo 3 mantissa scale % 1000 = 0
  · rw [if_pos hzero, if_pos (by simp), hzero]
    simp [fractionDigits, padded_one]
  · obtain ⟨hdigits, hpos, -⟩ := fractionDigits_spec hsmall
    have hne : fractionDigits (scaledTo 3 mantissa scale % 1000) ≠ [] := List.length_pos_iff.mp hpos
    have hlast : (signed negative (digitsOf (scaledTo 3 mantissa scale / 1000)) ++
        '.' :: fractionDigits (scaledTo 3 mantissa scale % 1000)).getLast? ≠ some '.' := by
      intro hpoint
      rw [List.getLast?_append_of_ne_nil _ (List.cons_ne_nil _ _),
        List.getLast?_cons_of_ne_nil hne] at hpoint
      have hdigit := hdigits '.' (List.mem_of_getLast? hpoint)
      exact absurd hdigit (by decide)
    rw [if_neg hzero, if_neg hlast]

/-! ### Reading decimals -/

theorem unitsOf_lt {magnitude : Nat} (hfinite : magnitude < infiniteBits) :
    unitsOf magnitude < 2 ^ (1024 + 1074) := by
  rw [infiniteBits_eq] at hfinite
  unfold unitsOf
  split
  · next hsmall => exact Nat.lt_trans hsmall (pow_lt_pow_right₀ (by decide) (by decide))
  · have hexponent : magnitude / 2 ^ 52 - 1 ≤ 2045 := by omega
    calc (2 ^ 52 + magnitude % 2 ^ 52) * 2 ^ (magnitude / 2 ^ 52 - 1)
        ≤ (2 ^ 52 + magnitude % 2 ^ 52) * 2 ^ 2045 :=
          Nat.mul_le_mul_left _ (pow_le_pow_right₀ (by decide) hexponent)
      _ < 2 ^ 53 * 2 ^ 2045 := Nat.mul_lt_mul_of_pos_right (by omega) (by positivity)
      _ = 2 ^ (1024 + 1074) := by rw [← pow_add]

/-- No finite number has more than 312 digits in thousandths. -/
theorem scaledTo_lt {x : Binary64} {negative : Bool} {mantissa scale : Nat}
    (hread : x.read = .finite negative mantissa scale) : scaledTo 3 mantissa scale < 10 ^ 312 := by
  obtain ⟨magnitude, hfinite, -, hunits⟩ := exists_magnitude hread
  have hunit : 0 < 2 ^ 1074 := by positivity
  have hsize : units mantissa scale * 1000 ≤ 1000 * 2 ^ 1024 * 2 ^ 1074 := by
    calc units mantissa scale * 1000 ≤ 2 ^ (1024 + 1074) * 1000 :=
          Nat.mul_le_mul_right _ (hunits ▸ (unitsOf_lt hfinite).le)
      _ = 1000 * 2 ^ 1024 * 2 ^ 1074 := by rw [pow_add, Nat.mul_comm, Nat.mul_assoc]
  have hbound : 1000 * 2 ^ 1024 < 10 ^ 312 := by decide +kernel
  have hmono := divNearest_mono (2 ^ 1074) hsize
  rw [divNearest_mul_self (1000 * 2 ^ 1024) hunit] at hmono
  simp only [scaledTo, twoTo_eq, tenTo_three]
  omega

theorem ofRatio_zero (negative : Bool) : ofRatio negative 0 1000 = ofMagnitude negative 0 := by
  cases negative <;> decide +kernel

/-- A whole part and the digits after the point together are so many thousandths. -/
theorem ofDigitChars_thousandths (n : Nat) :
    Nat.ofDigitChars 10 (digitsOf (n / 1000) ++ fractionDigits (n % 1000)) 0 *
      10 ^ (3 - (fractionDigits (n % 1000)).length) = n := by
  obtain ⟨-, -, hthree, hvalue⟩ := fractionDigits_spec (Nat.mod_lt n (by decide : 0 < 1000))
  generalize fractionDigits (n % 1000) = fraction at hthree hvalue ⊢
  have hsplit : 10 ^ fraction.length * 10 ^ (3 - fraction.length) = 1000 := by
    rw [← pow_add, Nat.add_sub_cancel' hthree]
    rfl
  rw [Nat.ofDigitChars_append, digitsOf, Nat.ofDigitChars_ten_toDigits,
    Nat.ofDigitChars_eq_ofDigitChars_zero, Nat.add_mul, hvalue, Nat.mul_right_comm, hsplit]
  exact Nat.div_add_mod n 1000

/-- What is read from a whole part and digits after the point that together are so many
thousandths. -/
theorem ofDecimal_thousandths (negative : Bool) {n : Nat} (hn : n < 10 ^ 312) :
    ofDecimal negative (Text.digitsValue (digitsOf (n / 1000) ++ fractionDigits (n % 1000)))
      (0 - (fractionDigits (n % 1000)).length) = ofRatio negative n 1000 := by
  have hnumber := ofDigitChars_thousandths n
  obtain ⟨hdigits, hpos, hthree, -⟩ := fractionDigits_spec (Nat.mod_lt n (by decide))
  generalize fractionDigits (n % 1000) = fraction at hnumber hdigits hpos hthree ⊢
  have hsplit : 10 ^ fraction.length * 10 ^ (3 - fraction.length) = 1000 := by
    rw [← pow_add, Nat.add_sub_cancel' hthree]
    rfl
  have hall : ∀ c ∈ digitsOf (n / 1000) ++ fraction, c.isDigit = true := by
    intro c hc
    rcases List.mem_append.mp hc with hwhole | hfraction
    · exact isDigit_of_mem_digitsOf hwhole
    · exact hdigits c hfraction
  rw [← Text.digitsValue_eq hall] at hnumber
  generalize Text.digitsValue (digitsOf (n / 1000) ++ fraction) = digits at hnumber ⊢
  have hlength : (digitsOf digits).length ≤ 310 + fraction.length := by
    refine (Nat.length_toDigits_le_iff (by decide) (by omega)).mpr ?_
    have hscaled : digits * 10 ^ (3 - fraction.length) <
        10 ^ (310 + fraction.length) * 10 ^ (3 - fraction.length) := by
      calc digits * 10 ^ (3 - fraction.length) = n := hnumber
        _ < 10 ^ 312 := hn
        _ ≤ 10 ^ (310 + fraction.length + (3 - fraction.length)) :=
            pow_le_pow_right₀ (by decide) (by omega)
        _ = 10 ^ (310 + fraction.length) * 10 ^ (3 - fraction.length) := pow_add _ _ _
    exact Nat.lt_of_mul_lt_mul_right hscaled
  have hpower : powerOfTen (0 - fraction.length) = (1, 10 ^ fraction.length) := by
    have hexponent : (-(0 - (fraction.length : Int))).toNat = fraction.length := by omega
    rw [powerOfTen, if_neg (by omega), hexponent]
    rfl
  unfold ofDecimal
  by_cases hzero : digits = 0
  · rw [hzero, Nat.zero_mul] at hnumber
    rw [← hnumber, ofRatio_zero]
    simp [hzero]
  · have hlow : ¬ ((0 - fraction.length : Int) + (digitsOf digits).length < -330) := by omega
    have hhigh : ¬ (310 < (0 - fraction.length : Int) + (digitsOf digits).length) := by omega
    simp only [hzero, hlow, hhigh, decide_false, Bool.or_self, Bool.false_eq_true, if_false, hpower,
      Nat.mul_one]
    rw [← ofRatio_mul_mul negative digits (10 ^ fraction.length)
      (show 0 < 10 ^ (3 - fraction.length) by positivity), hnumber, hsplit]

end Binary64

end Conductor
