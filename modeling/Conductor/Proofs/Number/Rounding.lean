import Conductor.Number.Decimal
import Conductor.Proofs.Time.Elapsed
import Mathlib.Tactic.Ring
import Mathlib.Tactic.Positivity

/-!
Rounding to three decimals and back. A number that is the nearest one to some decimal of three
places is still the nearest one to it after it has been rounded to three places: either the places
are finer than its own grain, and it rounds to that very decimal; or its grain is the coarser one,
and no decimal that near is nearer to another number.
-/

namespace Conductor

/-! ### Division to the nearest whole number -/

section Nearest

variable {num den k c : Nat}

/-- The nearest whole number is at most half the divisor away. -/
theorem divNearest_near (num : Nat) (hden : 0 < den) :
    2 * (divNearest num den * den) ≤ 2 * num + den ∧
      2 * num ≤ 2 * (divNearest num den * den) + den := by
  have hsplit := Nat.div_add_mod' num den
  have hrest := Nat.mod_lt num hden
  have hnext : (num / den + 1) * den = num / den * den + den := by ring
  simp only [divNearest]
  split
  · omega
  · split
    · rw [hnext]
      omega
    · split
      · omega
      · rw [hnext]
        omega

/-- Half way between two whole numbers it is the even one. -/
theorem divNearest_even_of_tie (hden : 0 < den)
    (htie : 2 * (divNearest num den * den) = 2 * num + den ∨
      2 * num = 2 * (divNearest num den * den) + den) :
    Even (divNearest num den) := by
  have hsplit := Nat.div_add_mod' num den
  have hrest := Nat.mod_lt num hden
  have hnext : (num / den + 1) * den = num / den * den + den := by ring
  rw [Nat.even_iff]
  rcases Nat.lt_trichotomy (2 * (num % den)) den with hlow | hhalf | hhigh
  · have hdown : divNearest num den = num / den := by simp only [divNearest, if_pos hlow]
    rw [hdown] at htie
    omega
  · simp only [divNearest, hhalf, Nat.lt_irrefl, if_false]
    split <;> omega
  · have hup : divNearest num den = num / den + 1 := by
      simp only [divNearest, if_neg (Nat.lt_asymm hhigh), if_pos hhigh]
    rw [hup, hnext] at htie
    omega

theorem divNearest_eq_of_near (habove : 2 * num < 2 * (k * den) + den)
    (hbelow : 2 * (k * den) < 2 * num + den) : divNearest num den = k := by
  have hden : 0 < den := by omega
  obtain ⟨hle, hge⟩ := divNearest_near num hden
  have hupper : divNearest num den < k + 1 := by
    refine Nat.lt_of_mul_lt_mul_right (a := den) ?_
    rw [Nat.add_mul]
    omega
  have hlower : k < divNearest num den + 1 := by
    refine Nat.lt_of_mul_lt_mul_right (a := den) ?_
    rw [Nat.add_mul]
    omega
  omega

theorem divNearest_mul_self (k : Nat) (hden : 0 < den) : divNearest (k * den) den = k :=
  divNearest_eq_of_near (by omega) (by omega)

theorem divNearest_mul_mul (num den : Nat) (hc : 0 < c) :
    divNearest (num * c) (den * c) = divNearest num den := by
  have hquotient : num * c / (den * c) = num / den := Nat.mul_div_mul_right num den hc
  have hrest : num * c % (den * c) = num % den * c := Nat.mul_mod_mul_right c num den
  have hless : 2 * (num % den * c) < den * c ↔ 2 * (num % den) < den := by
    rw [← Nat.mul_assoc]
    exact Nat.mul_lt_mul_right hc
  have hmore : den * c < 2 * (num % den * c) ↔ den < 2 * (num % den) := by
    rw [← Nat.mul_assoc]
    exact Nat.mul_lt_mul_right hc
  simp only [divNearest, hquotient, hrest, hless, hmore]

end Nearest

namespace Binary64

variable {x : Binary64} {negative : Bool} {magnitude mantissa scale shift num den k : Nat}

/-! ### Bits and what they denote -/

theorem twoTo_eq (n : Nat) : twoTo n = 2 ^ n := rfl

theorem twoTo_pos (n : Nat) : 0 < twoTo n := Nat.two_pow_pos n

theorem tenTo_three : tenTo 3 = 1000 := rfl

/-- The size of the number with the given bits below the sign, in units of the smallest one. -/
def unitsOf (magnitude : Nat) : Nat :=
  if magnitude < 2 ^ 52 then magnitude
  else (2 ^ 52 + magnitude % 2 ^ 52) * 2 ^ (magnitude / 2 ^ 52 - 1)

def IsFinite (x : Binary64) : Prop :=
  ∃ negative mantissa scale, x.read = .finite negative mantissa scale

instance (x : Binary64) : Decidable x.IsFinite :=
  match hread : x.read with
  | .finite negative mantissa scale => isTrue ⟨negative, mantissa, scale, hread⟩
  | .infinite _ => isFalse (by rintro ⟨_, _, _, hfinite⟩; rw [hread] at hfinite; cases hfinite)
  | .nan => isFalse (by rintro ⟨_, _, _, hfinite⟩; rw [hread] at hfinite; cases hfinite)

theorem infiniteBits_eq : infiniteBits = 2047 * 2 ^ 52 := rfl

theorem toNat_ofMagnitude (negative : Bool) (hfinite : magnitude ≤ infiniteBits) :
    (ofMagnitude negative magnitude).bits.toNat =
      (if negative then 2 ^ 63 else 0) + magnitude := by
  rw [infiniteBits_eq] at hfinite
  have hsmall : (if negative then 2 ^ 63 else 0) + magnitude < 2 ^ 64 := by
    cases negative <;> simp <;> omega
  exact Nat.mod_eq_of_lt hsmall

theorem read_eq (x : Binary64) :
    x.read =
      if x.bits.toNat / 2 ^ 52 % 2048 = 2047 then
        if x.bits.toNat % 2 ^ 52 = 0 then .infinite (2 ^ 63 ≤ x.bits.toNat) else .nan
      else if x.bits.toNat / 2 ^ 52 % 2048 = 0 then
        .finite (2 ^ 63 ≤ x.bits.toNat) (x.bits.toNat % 2 ^ 52) 0
      else
        .finite (2 ^ 63 ≤ x.bits.toNat) (2 ^ 52 + x.bits.toNat % 2 ^ 52)
          (x.bits.toNat / 2 ^ 52 % 2048 - 1) := rfl

theorem read_ofMagnitude (negative : Bool) (hfinite : magnitude < infiniteBits) :
    ∃ mantissa scale, (ofMagnitude negative magnitude).read = .finite negative mantissa scale ∧
      units mantissa scale = unitsOf magnitude := by
  have hbits := toNat_ofMagnitude negative hfinite.le
  rw [infiniteBits_eq] at hfinite
  have hnegative : decide (2 ^ 63 ≤ (if negative then 2 ^ 63 else 0) + magnitude) = negative := by
    cases negative <;> simp; omega
  have hexponent : ((if negative then 2 ^ 63 else 0) + magnitude) / 2 ^ 52 % 2048 =
      magnitude / 2 ^ 52 := by
    cases negative <;> simp <;> omega
  have hstored : ((if negative then 2 ^ 63 else 0) + magnitude) % 2 ^ 52 = magnitude % 2 ^ 52 := by
    cases negative <;> simp; omega
  rw [read_eq, hbits, hnegative, hexponent, hstored, if_neg (by omega), unitsOf]
  by_cases hsmall : magnitude < 2 ^ 52
  · rw [if_pos (by omega), if_pos hsmall]
    refine ⟨_, _, rfl, ?_⟩
    rw [units, twoTo_eq, Nat.mod_eq_of_lt hsmall]
    ring
  · rw [if_neg (by omega), if_neg hsmall]
    exact ⟨_, _, rfl, rfl⟩

/-- A finite number is given by its sign and the bits below it. -/
theorem exists_magnitude (hread : x.read = .finite negative mantissa scale) :
    ∃ magnitude, magnitude < infiniteBits ∧ x = ofMagnitude negative magnitude ∧
      units mantissa scale = unitsOf magnitude := by
  have hsize : x.bits.toNat < 2 ^ 64 := x.bits.toNat_lt
  have hsplit : (if 2 ^ 63 ≤ x.bits.toNat then 2 ^ 63 else 0) + x.bits.toNat % 2 ^ 63 =
      x.bits.toNat := by
    split <;> omega
  have hself : x = ofMagnitude (2 ^ 63 ≤ x.bits.toNat) (x.bits.toNat % 2 ^ 63) := by
    have hbits : x.bits = UInt64.ofNat x.bits.toNat := by simp
    rw [ofMagnitude]
    simp only [decide_eq_true_eq, twoTo_eq, hsplit]
    rw [← hbits]
  have hfinite : x.bits.toNat % 2 ^ 63 < infiniteBits := by
    rw [infiniteBits_eq]
    by_contra hlarge
    have hexponent : x.bits.toNat / 2 ^ 52 % 2048 = 2047 := by omega
    rw [read_eq, if_pos hexponent] at hread
    by_cases hstored : x.bits.toNat % 2 ^ 52 = 0
    · rw [if_pos hstored] at hread
      cases hread
    · rw [if_neg hstored] at hread
      cases hread
  obtain ⟨mantissa', scale', hread', hunits⟩ := read_ofMagnitude (2 ^ 63 ≤ x.bits.toNat) hfinite
  rw [← hself, hread] at hread'
  obtain ⟨hsign, rfl, rfl⟩ := Reading.finite.inj hread'
  rw [← hsign] at hself
  exact ⟨_, hfinite, hself, hunits⟩

/-- Also when rounding up has carried into one bit more, the bits of a number are its scale and its
mantissa side by side. -/
theorem unitsOf_add (hmantissa : mantissa ≤ 2 ^ 53) (hnormal : shift = 0 ∨ 2 ^ 52 ≤ mantissa) :
    unitsOf (shift * 2 ^ 52 + mantissa) = mantissa * 2 ^ shift := by
  unfold unitsOf
  by_cases hsmall : shift * 2 ^ 52 + mantissa < 2 ^ 52
  · have hshift : shift = 0 := by omega
    rw [if_pos hsmall, hshift]
    simp
  · rw [if_neg hsmall]
    by_cases hcarry : mantissa = 2 ^ 53
    · have hstored : (shift * 2 ^ 52 + mantissa) % 2 ^ 52 = 0 := by omega
      have hexponent : (shift * 2 ^ 52 + mantissa) / 2 ^ 52 - 1 = shift + 1 := by omega
      rw [hstored, hexponent, hcarry]
      ring
    · have hstored : 2 ^ 52 + (shift * 2 ^ 52 + mantissa) % 2 ^ 52 = mantissa := by omega
      have hexponent : (shift * 2 ^ 52 + mantissa) / 2 ^ 52 - 1 = shift := by omega
      rw [hstored, hexponent]

/-! ### The nearest number to a fraction -/

/-- A fraction of this size has a mantissa of 53 bits when `shift` bits are dropped, or fewer when
none are. -/
def Binade (size den shift : Nat) : Prop :=
  size < den * 2 ^ (shift + 53) ∧ (shift = 0 ∨ den * 2 ^ (shift + 52) ≤ size)

theorem binade_log2 (size : Nat) (hden : 0 < den) :
    Binade size den ((size / den).log2 - 52) := by
  have hfloor : den * (size / den) ≤ size := Nat.mul_div_le size den
  have hceil : size < den * (size / den + 1) := Nat.lt_mul_div_succ size hden
  constructor
  · have hlog : size / den + 1 ≤ 2 ^ ((size / den).log2 - 52 + 53) := by
      have hbound : size / den < 2 ^ ((size / den).log2 + 1) := Nat.lt_log2_self
      have hpow : 2 ^ ((size / den).log2 + 1) ≤ 2 ^ ((size / den).log2 - 52 + 53) :=
        Nat.pow_le_pow_right (by decide) (by omega)
      omega
    calc size < den * (size / den + 1) := hceil
      _ ≤ den * 2 ^ ((size / den).log2 - 52 + 53) := Nat.mul_le_mul_left den hlog
  · by_cases hshift : (size / den).log2 - 52 = 0
    · exact Or.inl hshift
    · refine Or.inr ?_
      have hne : size / den ≠ 0 := by
        intro hzero
        rw [hzero] at hshift
        exact hshift rfl
      have hlog : 2 ^ ((size / den).log2 - 52 + 52) ≤ size / den := by
        rw [Nat.sub_add_cancel (by omega)]
        exact Nat.log2_self_le hne
      calc den * 2 ^ ((size / den).log2 - 52 + 52) ≤ den * (size / den) :=
            Nat.mul_le_mul_left den hlog
        _ ≤ size := hfloor

theorem Binade.le {size shift' : Nat} (h : Binade size den shift)
    (h' : shift' = 0 ∨ den * 2 ^ (shift' + 52) ≤ size) : shift' ≤ shift := by
  rcases h' with rfl | hle
  · exact Nat.zero_le _
  · have hpow : 2 ^ (shift' + 52) < 2 ^ (shift + 53) :=
      Nat.lt_of_mul_lt_mul_left (Nat.lt_of_le_of_lt hle h.1)
    have hexponent := (Nat.pow_lt_pow_iff_right (by decide)).mp hpow
    omega

theorem Binade.unique {size shift' : Nat} (h : Binade size den shift)
    (h' : Binade size den shift') : shift = shift' :=
  Nat.le_antisymm (h'.le h.2) (h.le h'.2)

theorem ofRatio_of_binade (negative : Bool) (hden : 0 < den)
    (hbinade : Binade (num * 2 ^ 1074) den shift) :
    ofRatio negative num den = ofMagnitude negative
      (min (shift * 2 ^ 52 + divNearest (num * 2 ^ 1074) (den * 2 ^ shift)) infiniteBits) := by
  have hshift := (binade_log2 (num * 2 ^ 1074) hden).unique hbinade
  simp only [ofRatio, twoTo_eq, mantissaBits, hshift]

/-- A fraction can be reduced before it is rounded. -/
theorem ofRatio_mul_mul {c : Nat} (negative : Bool) (num den : Nat) (hc : 0 < c) :
    ofRatio negative (num * c) (den * c) = ofRatio negative num den := by
  have hsize : num * c * twoTo 1074 = num * twoTo 1074 * c := by ring
  have hgrain (shift : Nat) : den * c * twoTo shift = den * twoTo shift * c := by ring
  simp only [ofRatio, hsize, hgrain, Nat.mul_div_mul_right _ _ hc, divNearest_mul_mul _ _ hc]

theorem mantissa_bounds (hden : 0 < den) {size : Nat} (hbinade : Binade size den shift) :
    divNearest size (den * 2 ^ shift) ≤ 2 ^ 53 ∧
      (shift = 0 ∨ 2 ^ 52 ≤ divNearest size (den * 2 ^ shift)) := by
  have hgrain : 0 < den * 2 ^ shift := Nat.mul_pos hden (Nat.two_pow_pos _)
  have hpow (n : Nat) : den * 2 ^ (shift + n) = 2 ^ n * (den * 2 ^ shift) := by ring
  constructor
  · have hle : size ≤ 2 ^ 53 * (den * 2 ^ shift) := hpow 53 ▸ hbinade.1.le
    calc divNearest size (den * 2 ^ shift)
        ≤ divNearest (2 ^ 53 * (den * 2 ^ shift)) (den * 2 ^ shift) := divNearest_mono _ hle
      _ = 2 ^ 53 := divNearest_mul_self _ hgrain
  · refine hbinade.2.imp_right fun hle => ?_
    rw [hpow] at hle
    calc 2 ^ 52 = divNearest (2 ^ 52 * (den * 2 ^ shift)) (den * 2 ^ shift) :=
          (divNearest_mul_self _ hgrain).symm
      _ ≤ divNearest size (den * 2 ^ shift) := divNearest_mono _ hle

/-! ### Three decimals -/

/-- A number whose grain is coarser than thousandths is the nearest one to its own three
decimals. -/
theorem ofRatio_of_coarse (negative : Bool) (hshift : 1065 ≤ shift) (hlow : 2 ^ 52 ≤ mantissa)
    (hhigh : mantissa < 2 ^ 53) :
    ofRatio negative (divNearest (mantissa * 2 ^ shift * 1000) (2 ^ 1074)) 1000 =
      ofMagnitude negative (min (shift * 2 ^ 52 + mantissa) infiniteBits) := by
  have hunit : 0 < 2 ^ 1074 := by positivity
  have hgrain : 0 < 2 ^ shift := Nat.two_pow_pos _
  have hcoarse : 2 ^ 1074 ≤ 512 * 2 ^ shift := by
    calc 2 ^ 1074 = 2 ^ 9 * 2 ^ 1065 := by rw [← pow_add]
      _ ≤ 2 ^ 9 * 2 ^ shift := Nat.mul_le_mul_left _ (pow_le_pow_right₀ (by decide) hshift)
  have hpow (n : Nat) : 1000 * 2 ^ (shift + n) = 1000 * 2 ^ n * 2 ^ shift := by ring
  have hhigh' : mantissa * 2 ^ shift ≤ (2 ^ 53 - 1) * 2 ^ shift :=
    Nat.mul_le_mul_right _ (by omega)
  generalize hnear : divNearest (mantissa * 2 ^ shift * 1000) (2 ^ 1074) = near
  have hplace : Binade (near * 2 ^ 1074) 1000 shift ∧
      divNearest (near * 2 ^ 1074) (1000 * 2 ^ shift) = mantissa := by
    rcases Nat.lt_or_eq_of_le hlow with habove | rfl
    · -- The neighbours on both sides are a whole grain away.
      have hlow' : (2 ^ 52 + 1) * 2 ^ shift ≤ mantissa * 2 ^ shift :=
        Nat.mul_le_mul_right _ habove
      have hcommute : mantissa * (1000 * 2 ^ shift) = mantissa * 2 ^ shift * 1000 := by ring
      obtain ⟨hle, hge⟩ := divNearest_near (mantissa * 2 ^ shift * 1000) hunit
      rw [hnear] at hle hge
      refine ⟨⟨?_, Or.inr ?_⟩, divNearest_eq_of_near ?_ ?_⟩
      · rw [hpow]
        omega
      · rw [hpow]
        omega
      · rw [hcommute]
        omega
      · rw [hcommute]
        omega
    · -- The neighbour below is nearer, but a power of two this large is a whole number.
      have hwhole : 2 ^ 52 * 2 ^ shift * 1000 = 2 ^ (shift + 52 - 1074) * 1000 * 2 ^ 1074 := by
        have hsplit : shift + 52 = (shift + 52 - 1074) + 1074 := by omega
        calc 2 ^ 52 * 2 ^ shift * 1000 = 2 ^ (shift + 52) * 1000 := by ring
          _ = 2 ^ (shift + 52 - 1074 + 1074) * 1000 := by rw [← hsplit]
          _ = 2 ^ (shift + 52 - 1074) * 1000 * 2 ^ 1074 := by rw [pow_add, Nat.mul_right_comm]
      have hexact : near * 2 ^ 1074 = 2 ^ 52 * 2 ^ shift * 1000 := by
        rw [hwhole] at hnear ⊢
        rw [divNearest_mul_self _ hunit] at hnear
        rw [hnear]
      rw [hexact]
      refine ⟨⟨?_, Or.inr ?_⟩, ?_⟩
      · rw [hpow]
        omega
      · rw [hpow]
        omega
      · have hcommute : 2 ^ 52 * 2 ^ shift * 1000 = 2 ^ 52 * (1000 * 2 ^ shift) := by ring
        rw [hcommute]
        exact divNearest_mul_self _ (by omega)
  rw [ofRatio_of_binade negative (by decide) hplace.1, hplace.2]

/-- The number that is read back from the three decimals of a finite one. -/
def thousandths (x : Binary64) : Binary64 :=
  match x.read with
  | .finite negative mantissa scale => ofRatio negative (scaledTo 3 mantissa scale) 1000
  | _ => x

theorem thousandths_ofMagnitude (negative : Bool) (hfinite : magnitude < infiniteBits) :
    (ofMagnitude negative magnitude).thousandths =
      ofRatio negative (divNearest (unitsOf magnitude * 1000) (2 ^ 1074)) 1000 := by
  obtain ⟨mantissa, scale, hread, hunits⟩ := read_ofMagnitude negative hfinite
  rw [thousandths, hread, ← hunits]
  simp only [scaledTo, twoTo_eq, tenTo_three]

theorem not_isFinite_infinity (negative : Bool) : ¬ (infinity negative).IsFinite := by
  rintro ⟨negative', mantissa, scale, hread⟩
  cases negative <;> cases hread

/-- What is the nearest number to a decimal of three places is so again after it was written with
three places. -/
theorem thousandths_ofRatio (hfinite : (ofRatio negative k 1000).IsFinite) :
    (ofRatio negative k 1000).thousandths = ofRatio negative k 1000 := by
  have hthousand : 0 < 1000 := by decide
  have hbinade := binade_log2 (k * 2 ^ 1074) hthousand
  generalize (k * 2 ^ 1074 / 1000).log2 - 52 = shift at hbinade
  obtain ⟨hmost, hnormal⟩ := mantissa_bounds hthousand hbinade
  have hratio := ofRatio_of_binade negative hthousand hbinade
  have hgrain : 0 < 1000 * 2 ^ shift := by positivity
  obtain ⟨hle, hge⟩ := divNearest_near (k * 2 ^ 1074) hgrain
  generalize divNearest (k * 2 ^ 1074) (1000 * 2 ^ shift) = mantissa at hmost hnormal hratio hle hge
  have hbits : shift * 2 ^ 52 + mantissa < infiniteBits := by
    by_contra hlarge
    rw [hratio, Nat.min_eq_right (Nat.le_of_not_lt hlarge)] at hfinite
    exact not_isFinite_infinity negative hfinite
  rw [Nat.min_eq_left hbits.le] at hratio
  rw [hratio, thousandths_ofMagnitude negative hbits, unitsOf_add hmost hnormal]
  rcases Nat.lt_or_ge shift 1065 with hfine | hcoarse
  · -- Half a grain is less than half a thousandth, so the decimal is found again.
    have hsmall : 1000 * 2 ^ shift < 2 ^ 1074 := by
      calc 1000 * 2 ^ shift ≤ 1000 * 2 ^ 1064 :=
            Nat.mul_le_mul_left _ (pow_le_pow_right₀ (by decide) (by omega))
        _ < 2 ^ 10 * 2 ^ 1064 := Nat.mul_lt_mul_of_pos_right (by decide) (by positivity)
        _ = 2 ^ 1074 := by rw [← pow_add]
    have hcommute : mantissa * (1000 * 2 ^ shift) = mantissa * 2 ^ shift * 1000 := by ring
    rw [hcommute] at hle hge
    have hfound : divNearest (mantissa * 2 ^ shift * 1000) (2 ^ 1074) = k :=
      divNearest_eq_of_near (by omega) (by omega)
    rw [hfound, hratio]
  · have hlow : 2 ^ 52 ≤ mantissa := hnormal.resolve_left (by omega)
    rcases Nat.lt_or_eq_of_le hmost with hhigh | rfl
    · rw [ofRatio_of_coarse negative hcoarse hlow hhigh, Nat.min_eq_left hbits.le]
    · have hcarry : 2 ^ 53 * 2 ^ shift = 2 ^ 52 * 2 ^ (shift + 1) := by ring
      have hsame : shift * 2 ^ 52 + 2 ^ 53 = (shift + 1) * 2 ^ 52 + 2 ^ 52 := by ring
      rw [hsame] at hbits ⊢
      rw [hcarry, ofRatio_of_coarse negative (by omega) (by decide) (by decide),
        Nat.min_eq_left hbits.le]

theorem thousandths_eq_self_iff (hfinite : x.IsFinite) :
    x.thousandths = x ↔ ∃ negative k, x = ofRatio negative k 1000 := by
  constructor
  · intro hself
    obtain ⟨negative, mantissa, scale, hread⟩ := hfinite
    rw [thousandths, hread] at hself
    exact ⟨negative, _, hself.symm⟩
  · rintro ⟨negative, k, rfl⟩
    exact thousandths_ofRatio hfinite

theorem thousandths_of_isZero (hzero : x.isZero = true) : x.thousandths = x := by
  unfold isZero at hzero
  split at hzero
  · next negative mantissa scale hread =>
      obtain rfl : mantissa = 0 := by simpa using hzero
      have hself : x = ofRatio negative 0 1000 := by
        obtain ⟨magnitude, -, hform, hunits⟩ := exists_magnitude hread
        have hnone : magnitude = 0 := by
          rw [units, Nat.zero_mul, unitsOf] at hunits
          split at hunits
          · exact hunits.symm
          · exact absurd hunits.symm (by positivity)
        rw [hform, hnone]
        cases negative <;> decide +kernel
      rw [thousandths_eq_self_iff ⟨negative, 0, scale, hread⟩]
      exact ⟨negative, 0, hself⟩
  · cases hzero

/-- A number and its three decimals are equal only if they are the same, since the sign of a zero is
written too. -/
theorem same_thousandths_iff (hfinite : x.IsFinite) :
    x.thousandths.same x = true ↔ x.thousandths = x := by
  constructor
  · intro hsame
    unfold same at hsame
    split at hsame
    · cases hsame
    · cases hsame
    · rcases Bool.or_eq_true_iff.mp hsame with hbits | hzeros
      · exact congrArg Binary64.mk (beq_iff_eq.mp hbits)
      · exact thousandths_of_isZero (Bool.and_eq_true_iff.mp hzeros).2
  · intro hself
    obtain ⟨negative, mantissa, scale, hread⟩ := hfinite
    rw [hself, same, hread]
    simp

end Binary64

end Conductor
