import Conductor.Proofs.Number.Decimal
import Mathlib.Algebra.Order.Ring.Rat
import Mathlib.Tactic.FieldSimp
import Mathlib.Tactic.Linarith
import Mathlib.Tactic.NormNum

/-!
The one form in which a number is written to a settings file. It is a decimal number of one to three
places without any zero that could be left out, and it stands for the number rounded to three
decimals, a half going to the even neighbour. So a text shows exactly two things of a number: its
sign, which a zero has too, and what it is rounded to.
-/

namespace Conductor

/-! ### Rounding -/

/-- The nearest whole number; of two equally near the even one. -/
def IsNearestEven (q : ℚ) (n : ℤ) : Prop := |q - n| ≤ 1 / 2 ∧ (|q - n| = 1 / 2 → Even n)

/-- A rational number rounded to three decimals, a half going to the even neighbour. -/
def IsThousandths (q r : ℚ) : Prop := ∃ n : ℤ, r = n / 1000 ∧ IsNearestEven (q * 1000) n

section Rounding

variable {q r s : ℚ} {m n : ℤ}

theorem IsNearestEven.neg (h : IsNearestEven q n) : IsNearestEven (-q) (-n) := by
  have hsame : |-q - ((-n : ℤ) : ℚ)| = |q - n| := by
    rw [← abs_neg]
    congr 1
    push_cast
    ring
  rw [IsNearestEven, hsame, even_neg]
  exact h

/-- Of two neighbours only one is chosen: a number half way between them goes to the even one. -/
theorem IsNearestEven.not_succ (h : IsNearestEven q n) : ¬ IsNearestEven q (n + 1) := by
  intro hnext
  obtain ⟨-, hhigh⟩ := abs_le.mp h.1
  obtain ⟨hlow, -⟩ := abs_le.mp hnext.1
  push_cast at hlow
  have hbelow : |q - n| = 1 / 2 := by
    rw [abs_eq (by norm_num)]
    exact Or.inl (by linarith)
  have habove : |q - (n + 1 : ℤ)| = 1 / 2 := by
    rw [abs_eq (by norm_num)]
    push_cast
    exact Or.inr (by linarith)
  have heven := Int.even_iff.mp (h.2 hbelow)
  have heven' := Int.even_iff.mp (hnext.2 habove)
  omega

theorem IsNearestEven.unique (hm : IsNearestEven q m) (hn : IsNearestEven q n) : m = n := by
  obtain ⟨hmlow, hmhigh⟩ := abs_le.mp hm.1
  obtain ⟨hnlow, hnhigh⟩ := abs_le.mp hn.1
  have hupper : m ≤ n + 1 := by
    have hcast : (m : ℚ) ≤ n + 1 := by linarith
    exact_mod_cast hcast
  have hlower : n ≤ m + 1 := by
    have hcast : (n : ℚ) ≤ m + 1 := by linarith
    exact_mod_cast hcast
  have hclose : m = n ∨ m = n + 1 ∨ n = m + 1 := by omega
  rcases hclose with hsame | rfl | rfl
  · exact hsame
  · exact absurd hm hn.not_succ
  · exact absurd hn hm.not_succ

theorem IsThousandths.unique (hr : IsThousandths q r) (hs : IsThousandths q s) : r = s := by
  obtain ⟨m, rfl, hm⟩ := hr
  obtain ⟨n, rfl, hn⟩ := hs
  rw [hm.unique hn]

/-- Division to the nearest whole number is rounding of the fraction. -/
theorem isNearestEven_divNearest (num : ℕ) {den : ℕ} (hden : 0 < den) :
    IsNearestEven (num / den) (divNearest num den : ℕ) := by
  obtain ⟨hle, hge⟩ := divNearest_near num hden
  have hden' : (0 : ℚ) < den := by exact_mod_cast hden
  have hle : 2 * ((divNearest num den : ℚ) * den) ≤ 2 * num + den := by exact_mod_cast hle
  have hge : 2 * (num : ℚ) ≤ 2 * ((divNearest num den : ℚ) * den) + den := by exact_mod_cast hge
  have hgap : (num : ℚ) / den - (divNearest num den : ℕ) =
      (num - (divNearest num den : ℚ) * den) / den := by field_simp
  rw [IsNearestEven, Int.cast_natCast, hgap, abs_div, abs_of_pos hden']
  constructor
  · rw [div_le_iff₀ hden', abs_le]
    constructor <;> linarith
  · intro htie
    rw [div_eq_iff hden'.ne', abs_eq (by positivity)] at htie
    have hnat : 2 * (divNearest num den * den) = 2 * num + den ∨
        2 * num = 2 * (divNearest num den * den) + den := by
      rcases htie with habove | hbelow
      · have hcast : 2 * (num : ℚ) = 2 * (divNearest num den * den) + den := by linarith
        exact Or.inr (by exact_mod_cast hcast)
      · have hcast : 2 * ((divNearest num den : ℚ) * den) = 2 * num + den := by linarith
        exact Or.inl (by exact_mod_cast hcast)
    exact (Int.even_coe_nat _).mpr (divNearest_even_of_tie hden hnat)

end Rounding

/-! ### What a number denotes -/

/-- The sign of a number, as a factor. -/
def signFactor (negative : Bool) : ℚ := if negative then -1 else 1

/-- The sign does not matter for rounding. -/
theorem IsNearestEven.isThousandths {q : ℚ} {n : ℕ} (h : IsNearestEven (q * 1000) n)
    (negative : Bool) :
    IsThousandths (signFactor negative * q) (signFactor negative * (n / 1000)) := by
  cases negative with
  | false =>
      refine ⟨n, by simp [signFactor], ?_⟩
      rwa [signFactor, if_neg Bool.false_ne_true, one_mul]
  | true =>
      refine ⟨-n, by simp [signFactor, neg_div], ?_⟩
      rw [signFactor, if_pos rfl, neg_one_mul, neg_mul]
      exact h.neg

namespace Binary64

/-- The sign, which a zero has too. -/
def isNegative (x : Binary64) : Bool :=
  match x.read with
  | .finite negative _ _ => negative
  | .infinite negative => negative
  | .nan => false

/-- The rational number that a finite number is. -/
def value (x : Binary64) : ℚ :=
  match x.read with
  | .finite negative mantissa scale => signFactor negative * units mantissa scale / twoTo 1074
  | _ => 0

end Binary64

/-! ### Decimal numbers -/

/-- A decimal number as it is written: its sign, and its digits before and after the point. -/
structure Decimal where
  negative : Bool
  whole : List Char
  fraction : List Char

namespace Decimal

open Binary64

def text (d : Decimal) : List Char := signed d.negative (d.whole ++ '.' :: d.fraction)

def value (d : Decimal) : ℚ :=
  signFactor d.negative * Nat.ofDigitChars 10 (d.whole ++ d.fraction) 0 / 10 ^ d.fraction.length

/-- No zero could be left out: there is one at the start only right before the point, and one at the
end only right after it. -/
structure IsCanonical (d : Decimal) : Prop where
  digits : ∀ c ∈ d.whole ++ d.fraction, c.isDigit = true
  whole_ne_nil : d.whole ≠ []
  whole : d.whole = ['0'] ∨ d.whole.head? ≠ some '0'
  places : 1 ≤ d.fraction.length ∧ d.fraction.length ≤ 3
  fraction : d.fraction = ['0'] ∨ d.fraction.getLast? ≠ some '0'

variable {d e : Decimal} {n : ℕ}

theorem head?_unsigned (hd : ∀ c ∈ d.whole ++ d.fraction, c.isDigit = true) :
    (d.whole ++ '.' :: d.fraction).head? ≠ some '-' := by
  intro hminus
  cases hwhole : d.whole with
  | nil =>
      rw [hwhole] at hminus
      cases hminus
  | cons c more =>
      rw [hwhole] at hminus hd
      cases hminus
      cases hd '-' List.mem_cons_self

theorem signed_inj {b c : Bool} {s t : List Char} (hs : s.head? ≠ some '-')
    (ht : t.head? ≠ some '-') (hsame : signed b s = signed c t) : b = c ∧ s = t := by
  cases b <;> cases c
  · exact ⟨rfl, hsame⟩
  · exact absurd (congrArg List.head? hsame) hs
  · exact absurd (congrArg List.head? hsame).symm ht
  · exact ⟨rfl, (List.cons.inj hsame).2⟩

/-- The text shows the sign and the digits. -/
theorem text_injective (hd : ∀ c ∈ d.whole ++ d.fraction, c.isDigit = true)
    (he : ∀ c ∈ e.whole ++ e.fraction, c.isDigit = true) (htext : d.text = e.text) : d = e := by
  obtain ⟨hnegative, hdigits⟩ := signed_inj (head?_unsigned hd) (head?_unsigned he) htext
  have hpoint : '.' ∉ d.whole ++ d.fraction := fun hmem => by cases hd '.' hmem
  obtain ⟨hwhole, hfraction⟩ := not_or.mp (mt List.mem_append.mpr hpoint)
  obtain ⟨hwhole, -, hfraction⟩ :=
    (List.append_cons_inj_of_notMem hwhole hfraction).mp hdigits
  cases d
  cases e
  simp_all

/-- So many thousandths. -/
def ofThousandths (negative : Bool) (n : ℕ) : Decimal where
  negative := negative
  whole := digitsOf (n / 1000)
  fraction := fractionDigits (n % 1000)

theorem text_ofThousandths (negative : Bool) (n : ℕ) :
    (ofThousandths negative n).text =
      signed negative (digitsOf (n / 1000)) ++ '.' :: fractionDigits (n % 1000) := by
  cases negative <;> rfl

theorem whole_ofThousandths (negative : Bool) (n : ℕ) :
    (ofThousandths negative n).whole = ['0'] ∨
      (ofThousandths negative n).whole.head? ≠ some '0' := by
  by_cases hzero : n / 1000 = 0
  · refine Or.inl ?_
    rw [ofThousandths, hzero]
    rfl
  · exact Or.inr (head?_digitsOf hzero)

theorem getLast?_padded (width : ℕ) {m : ℕ} (hm : m % 10 ≠ 0) :
    (padded width m).getLast? ≠ some '0' := by
  have hlast : (digitsOf m).getLast? = some (Nat.digitChar (m % 10)) := by
    unfold digitsOf
    rcases Nat.lt_or_ge m 10 with hsmall | hlarge
    · simp [Nat.toDigits_of_lt_base hsmall, Nat.mod_eq_of_lt hsmall]
    · simp [Nat.toDigits_of_base_le (by decide) hlarge]
  rw [padded, List.getLast?_append_of_ne_nil _ (digitsOf_ne_nil m), hlast, Ne, Option.some.injEq,
    digitChar_eq_zero (Nat.mod_lt m (by decide))]
  exact hm

/-- The digits after the point end in a zero only if this is the only one. -/
theorem fractionDigits_trimmed {m : ℕ} (hm : m < 1000) :
    fractionDigits m = ['0'] ∨ (fractionDigits m).getLast? ≠ some '0' := by
  unfold fractionDigits
  split
  · next hthird => exact Or.inr (getLast?_padded _ hthird)
  · split
    · next hsecond => exact Or.inr (getLast?_padded _ hsecond)
    · by_cases hfirst : m / 100 % 10 = 0
      · refine Or.inl ?_
        have hzero : m / 100 = 0 := by omega
        rw [hzero]
        decide
      · exact Or.inr (getLast?_padded _ hfirst)

theorem isCanonical_ofThousandths (negative : Bool) (n : ℕ) :
    (ofThousandths negative n).IsCanonical := by
  have hsmall : n % 1000 < 1000 := Nat.mod_lt n (by decide)
  obtain ⟨hdigits, hpos, hthree, -⟩ := fractionDigits_spec hsmall
  refine ⟨?_, digitsOf_ne_nil _, whole_ofThousandths negative n, ⟨hpos, hthree⟩,
    fractionDigits_trimmed hsmall⟩
  intro c hc
  rcases List.mem_append.mp hc with hwhole | hfraction
  · exact isDigit_of_mem_digitsOf hwhole
  · exact hdigits c hfraction

theorem value_ofThousandths (negative : Bool) (n : ℕ) :
    (ofThousandths negative n).value = signFactor negative * (n / 1000) := by
  have hnumber := ofDigitChars_thousandths n
  obtain ⟨-, -, hthree, -⟩ := fractionDigits_spec (Nat.mod_lt n (by decide : 0 < 1000))
  unfold value ofThousandths
  generalize hfraction : fractionDigits (n % 1000) = fraction at hnumber hthree
  have hsplit : (10 : ℚ) ^ fraction.length * 10 ^ (3 - fraction.length) = 1000 := by
    rw [← pow_add, Nat.add_sub_cancel' hthree]
    norm_num
  have hnumber : (Nat.ofDigitChars 10 (digitsOf (n / 1000) ++ fraction) 0 : ℚ) *
      10 ^ (3 - fraction.length) = n := by exact_mod_cast hnumber
  rw [← hnumber, ← hsplit]
  field_simp

theorem ofThousandths_eq_of_value {b : Bool} {m n : ℕ}
    (hvalue : (ofThousandths b m).value = (ofThousandths b n).value) : m = n := by
  rw [value_ofThousandths, value_ofThousandths] at hvalue
  have hfactor : signFactor b ≠ 0 := by cases b <;> norm_num [signFactor]
  have hcast : (m : ℚ) = n := by
    have h1000 : (1000 : ℚ) ≠ 0 := by norm_num
    field_simp at hvalue
    exact hvalue
  exact_mod_cast hcast

end Decimal

namespace Binary64

variable {x : Binary64}

theorem isNearestEven_scaledTo (mantissa scale : ℕ) :
    IsNearestEven (units mantissa scale / twoTo 1074 * 1000) (scaledTo 3 mantissa scale : ℕ) := by
  have hnearest := isNearestEven_divNearest (units mantissa scale * tenTo 3) (twoTo_pos 1074)
  rw [Nat.cast_mul, mul_div_right_comm] at hnearest
  exact hnearest

/-- A finite number in thousandths. -/
theorem floatToml_eq_ofThousandths (hx : x.IsFinite) :
    ∃ n, (Value.floatToml x).toList = (Decimal.ofThousandths x.isNegative n).text ∧
      IsThousandths x.value (Decimal.ofThousandths x.isNegative n).value := by
  obtain ⟨negative, mantissa, scale, hread⟩ := hx
  have hsign : x.isNegative = negative := by rw [isNegative, hread]
  refine ⟨scaledTo 3 mantissa scale, ?_, ?_⟩
  · rw [floatToml_eq hread, hsign, Decimal.text_ofThousandths]
  · rw [Decimal.value_ofThousandths, hsign, value, hread]
    simp only [mul_div_assoc]
    exact (isNearestEven_scaledTo mantissa scale).isThousandths negative

end Binary64

open Binary64

/-- A finite number is written in the one canonical form of what it is rounded to. Two numbers are
written alike exactly if they have the same sign and are rounded to the same. -/
theorem toml_float_canonical {x : Binary64} (hx : x.IsFinite) :
    ∃ d : Decimal, (Value.float x).toml.toList = d.text ∧ d.IsCanonical ∧
      d.negative = x.isNegative ∧ IsThousandths x.value d.value ∧
      ∀ y : Binary64, y.IsFinite →
        ((Value.float y).toml = (Value.float x).toml ↔
          y.isNegative = x.isNegative ∧ IsThousandths y.value d.value) := by
  obtain ⟨n, htext, hrounded⟩ := floatToml_eq_ofThousandths hx
  refine ⟨.ofThousandths x.isNegative n, htext, Decimal.isCanonical_ofThousandths _ n, rfl,
    hrounded, ?_⟩
  intro y hy
  obtain ⟨m, htext', hrounded'⟩ := floatToml_eq_ofThousandths hy
  constructor
  · intro hsame
    have htexts : (Decimal.ofThousandths y.isNegative m).text =
        (Decimal.ofThousandths x.isNegative n).text := by
      rw [← htext, ← htext']
      exact congrArg String.toList hsame
    have hequal := Decimal.text_injective (Decimal.isCanonical_ofThousandths _ m).digits
      (Decimal.isCanonical_ofThousandths _ n).digits htexts
    rw [← hequal]
    exact ⟨congrArg Decimal.negative hequal, hrounded'⟩
  · rintro ⟨hsign, hround⟩
    rw [hsign] at htext' hrounded'
    obtain rfl := Decimal.ofThousandths_eq_of_value (hrounded'.unique hround)
    exact String.toList_inj.mp (htext'.trans htext.symm)

/-- One sixteenth, half way between two thousandths. -/
def sixteenth : Binary64 := ⟨0x3fb0000000000000⟩

/-- The number nearest to 62 thousandths. -/
def nearby : Binary64 := ⟨0x3fafbe76c8b43958⟩

theorem toml_float_of_sixteenth :
    sixteenth.IsFinite ∧ nearby.IsFinite ∧
      ∃ d : Decimal, "0.062".toList = d.text ∧ d.IsCanonical ∧
        IsThousandths sixteenth.value d.value ∧ IsThousandths nearby.value d.value := by
  have hfinite : sixteenth.IsFinite ∧ nearby.IsFinite := by decide +kernel
  have htext : Value.floatToml sixteenth = "0.062" ∧ Value.floatToml nearby = "0.062" := by
    decide +kernel
  obtain ⟨d, hd, hcanonical, -, hrounded, halike⟩ := toml_float_canonical hfinite.1
  have hsame : (Value.float nearby).toml = (Value.float sixteenth).toml :=
    htext.2.trans htext.1.symm
  have hd : "0.062".toList = d.text := by
    rw [← htext.1]
    exact hd
  exact ⟨hfinite.1, hfinite.2, d, hd, hcanonical, hrounded, ((halike nearby hfinite.2).mp hsame).2⟩

end Conductor
