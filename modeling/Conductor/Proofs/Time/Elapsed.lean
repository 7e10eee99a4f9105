import Conductor.Time.Elapsed
import Mathlib.Data.Nat.Log
import Mathlib.Algebra.Group.Nat.Defs

/-!
The clock keeps the order of moments, although it rounds them: what is due earlier never comes
later. Numbers of one size are rounded to multiples of one power of two; between numbers of two
sizes stands a power of two that both roundings respect.
-/

namespace Conductor

theorem le_divNearest (num den : Nat) : num / den ≤ divNearest num den := by
  unfold divNearest
  grind

theorem divNearest_le (num den : Nat) : divNearest num den ≤ num / den + 1 := by
  unfold divNearest
  grind

theorem mod_le_mod_of_div_eq {m n den : Nat} (hdiv : m / den = n / den) (hle : m ≤ n) :
    m % den ≤ n % den := by
  have hm := Nat.div_add_mod m den
  have hn := Nat.div_add_mod n den
  rw [hdiv] at hm
  omega

theorem divNearest_mono {num num' : Nat} (den : Nat) (hle : num ≤ num') :
    divNearest num den ≤ divNearest num' den := by
  rcases Nat.lt_or_eq_of_le (Nat.div_le_div_right (c := den) hle) with hlt | heq
  · calc divNearest num den ≤ num / den + 1 := divNearest_le num den
      _ ≤ num' / den := hlt
      _ ≤ divNearest num' den := le_divNearest num' den
  · have hrest := mod_le_mod_of_div_eq heq hle
    unfold divNearest
    rw [heq]
    grind

/-- A number below a multiple of the divisor is not rounded beyond it. -/
theorem divNearest_mul_le {num den bound : Nat} (hden : 0 < den) (hdvd : den ∣ bound)
    (hle : num ≤ bound) : divNearest num den * den ≤ bound := by
  obtain ⟨k, rfl⟩ := hdvd
  have hexact : divNearest (den * k) den = k := by
    unfold divNearest
    simp [Nat.mul_div_cancel_left k hden, hden]
  calc divNearest num den * den ≤ divNearest (den * k) den * den :=
        Nat.mul_le_mul_right den (divNearest_mono den hle)
    _ = den * k := by rw [hexact, Nat.mul_comm]

namespace Time

/-- The distance between neighbours of a number among those of 53 bits. -/
def grain (n : Nat) : Nat := 2 ^ (n.log2 - Binary64.mantissaBits)

theorem rounded_eq (n : Nat) : rounded n = divNearest n (grain n) * grain n := rfl

theorem rounded_le_pow (n : Nat) : rounded n ≤ 2 ^ (n.log2 + 1) :=
  divNearest_mul_le (Nat.two_pow_pos _) (Nat.pow_dvd_pow 2 (by omega)) (Nat.lt_log2_self).le

theorem pow_le_rounded {n : Nat} (hn : n ≠ 0) : 2 ^ n.log2 ≤ rounded n := by
  have hexact : 2 ^ n.log2 / grain n * grain n = 2 ^ n.log2 :=
    Nat.div_mul_cancel (Nat.pow_dvd_pow 2 (Nat.sub_le _ _))
  calc 2 ^ n.log2 = 2 ^ n.log2 / grain n * grain n := hexact.symm
    _ ≤ n / grain n * grain n :=
        Nat.mul_le_mul_right _ (Nat.div_le_div_right (Nat.log2_self_le hn))
    _ ≤ divNearest n (grain n) * grain n := Nat.mul_le_mul_right _ (le_divNearest _ _)

theorem rounded_mono {m n : Nat} (hle : m ≤ n) : rounded m ≤ rounded n := by
  by_cases hn : n = 0
  · have hm : m = 0 := by omega
    rw [hm, hn]
  · have hlog : m.log2 ≤ n.log2 := by
      rw [Nat.log2_eq_log_two, Nat.log2_eq_log_two]
      exact Nat.log_mono_right hle
    rcases Nat.lt_or_eq_of_le hlog with hlt | heq
    · calc rounded m ≤ 2 ^ (m.log2 + 1) := rounded_le_pow m
        _ ≤ 2 ^ n.log2 := Nat.pow_le_pow_right (by decide) hlt
        _ ≤ rounded n := pow_le_rounded hn
    · have hgrain : grain m = grain n := by rw [grain, grain, heq]
      rw [rounded_eq, rounded_eq, hgrain]
      exact Nat.mul_le_mul_right _ (divNearest_mono _ hle)

/-- Of two spans from one moment the shorter one is over first. -/
theorem after_mono (now : Time) {s t : Time} (hle : s ≤ t) : after now s ≤ after now t :=
  rounded_mono (Nat.add_le_add_left hle now)

theorem second_pos : 0 < second := by decide +kernel

/-- A moment within a second is not rounded beyond its end. -/
theorem divNearest_rounded_le {n : Nat} (hle : n ≤ second * 1000000) :
    divNearest (rounded n) second ≤ 1000000 := by
  have hexact : rounded (second * 1000000) = second * 1000000 := by decide +kernel
  have hrounded : rounded n ≤ second * 1000000 := by
    rw [← hexact]
    exact rounded_mono hle
  have hmul := divNearest_mul_le second_pos (Nat.dvd_mul_right second 1000000) hrounded
  rw [Nat.mul_comm second] at hmul
  exact Nat.le_of_mul_le_mul_right hmul second_pos

/-- A moment is not stamped later than the end of its second. -/
theorem micros_le (t : Time) : micros t ≤ (t / second + 1) * 1000000 := by
  unfold micros
  rw [Nat.succ_mul]
  apply Nat.add_le_add_left
  apply divNearest_rounded_le
  apply Nat.mul_le_mul_right
  exact Nat.le_of_lt (Nat.mod_lt t second_pos)

/-- What comes later is not stamped earlier. -/
theorem micros_mono {s t : Time} (hle : s ≤ t) : micros s ≤ micros t := by
  rcases Nat.lt_or_eq_of_le (Nat.div_le_div_right (c := second) hle) with hlt | heq
  · calc micros s ≤ (s / second + 1) * 1000000 := micros_le s
      _ ≤ t / second * 1000000 := by
        apply Nat.mul_le_mul_right
        exact hlt
      _ ≤ micros t := Nat.le_add_right _ _
  · unfold micros
    rw [heq]
    apply Nat.add_le_add_left
    apply divNearest_mono
    apply rounded_mono
    apply Nat.mul_le_mul_right
    exact mod_le_mod_of_div_eq heq hle

end Time

end Conductor
