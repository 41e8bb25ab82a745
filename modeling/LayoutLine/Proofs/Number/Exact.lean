import LayoutLine.Number.Basic
import Mathlib.Algebra.Order.Field.Power
import Mathlib.Data.Rat.Cast.Order
import Mathlib.Tactic.FieldSimp
import Mathlib.Tactic.GCongr
import Mathlib.Tactic.Positivity
import Mathlib.Tactic.Ring

/-!
# Values that need no rounding

A quotient whose value is that of a magnitude is rounded to this magnitude. The binary order of the
quotient gives back the exponent, since the significand either has its leading bit set or belongs to
the finest unit, and the division that makes the significand then leaves no rest.
-/

namespace LayoutLine

theorem two_zpow_eq_div (k : Int) : (2 : Rat) ^ k = 2 ^ k.toNat / 2 ^ (-k).toNat := by
  obtain ⟨n, rfl | rfl⟩ := k.eq_nat_or_neg
  · simp
  · simp

/-- A power of two lies below a quotient of naturals as the scaled naturals say. -/
theorem two_zpow_le_div_iff (num : Nat) {den : Nat} (hden : 0 < den) (k : Int) :
    (2 : Rat) ^ k ≤ num / den ↔ den * 2 ^ k.toNat ≤ num * 2 ^ (-k).toNat := by
  have hden' : (0 : Rat) < den := by exact_mod_cast hden
  have hpow : (0 : Rat) < 2 ^ (-k).toNat := by positivity
  rw [two_zpow_eq_div, div_le_div_iff₀ hpow hden', mul_comm]
  exact_mod_cast Iff.rfl

/-- The binary order of a quotient is the greatest power of two that is not above it. -/
theorem binaryOrder_spec {num den : Nat} (hnum : 0 < num) (hden : 0 < den) :
    (2 : Rat) ^ binaryOrder num den ≤ num / den ∧
      (num : Rat) / den < 2 ^ (binaryOrder num den + 1) := by
  have hnum' : (0 : Rat) < num := by exact_mod_cast hnum
  have hden' : (0 : Rat) < den := by exact_mod_cast hden
  have hnumLow : (2 : Rat) ^ num.log2 ≤ num := by exact_mod_cast Nat.log2_self_le hnum.ne'
  have hnumHigh : (num : Rat) < 2 ^ (num.log2 + 1) := by exact_mod_cast Nat.lt_log2_self
  have hdenLow : (2 : Rat) ^ den.log2 ≤ den := by exact_mod_cast Nat.log2_self_le hden.ne'
  have hdenHigh : (den : Rat) < 2 ^ (den.log2 + 1) := by exact_mod_cast Nat.lt_log2_self
  have hlow : (2 : Rat) ^ ((num.log2 : Int) - den.log2 - 1) ≤ num / den := by
    calc (2 : Rat) ^ ((num.log2 : Int) - den.log2 - 1)
        = 2 ^ num.log2 / 2 ^ (den.log2 + 1) := by
          rw [sub_sub, zpow_sub₀ two_ne_zero, zpow_natCast]
          norm_cast
      _ ≤ num / den := by gcongr
  have hhigh : (num : Rat) / den < 2 ^ ((num.log2 : Int) - den.log2 + 1) := by
    calc (num : Rat) / den
        < 2 ^ (num.log2 + 1) / 2 ^ den.log2 := by gcongr
      _ = 2 ^ ((num.log2 : Int) - den.log2 + 1) := by
          rw [sub_add_eq_add_sub, zpow_sub₀ two_ne_zero, zpow_natCast]
          norm_cast
  have hle := two_zpow_le_div_iff num hden ((num.log2 : Int) - den.log2)
  simp only [binaryOrder, Nat.pow_eq]
  split
  · rename_i h
    exact ⟨hle.mpr h, hhigh⟩
  · rename_i h
    rw [← hle, not_le] at h
    rw [sub_add_cancel]
    exact ⟨hlow, h⟩

/-- Only one power of two lies at most a factor of two below a number. -/
theorem eq_of_two_zpow {x : Rat} {j k : Int} (hj : (2 : Rat) ^ j ≤ x ∧ x < 2 ^ (j + 1))
    (hk : (2 : Rat) ^ k ≤ x ∧ x < 2 ^ (k + 1)) : j = k := by
  have hone : (1 : Rat) < 2 := one_lt_two
  have hjk := (zpow_lt_zpow_iff_right₀ hone).mp (hj.1.trans_lt hk.2)
  have hkj := (zpow_lt_zpow_iff_right₀ hone).mp (hk.1.trans_lt hj.2)
  omega

namespace Magnitude

/-- The exact value of a magnitude, as its significand and its exponent give it. -/
theorem numerator_div_denominator (m : Magnitude) :
    (m.numerator : Rat) / m.denominator = m.mantissa * 2 ^ m.exponent := by
  rw [two_zpow_eq_div, numerator, denominator]
  simp only [Nat.pow_eq, Nat.cast_mul, Nat.cast_pow, Nat.cast_ofNat, mul_div_assoc]

variable {m : Magnitude} {num den : Nat}

/-- The exponent of a magnitude other than zero is fixed by the order of its significand. -/
theorem max_order_eq_exponent (hm : m.mantissa ≠ 0) :
    max ((m.mantissa.log2 : Int) + m.exponent - 52) (-1074) = m.exponent := by
  have hle := m.le_exponent
  have hlt : m.mantissa.log2 < 53 := (Nat.log2_lt hm).mpr m.mantissa_lt
  rcases m.leading with hleading | hfinest
  · have hge : 52 ≤ m.mantissa.log2 := (Nat.le_log2 hm).mpr hleading
    omega
  · omega

/-- The binary order of a quotient that is the value of a magnitude. -/
theorem binaryOrder_eq (hm : m.mantissa ≠ 0) (hden : 0 < den)
    (h : num * m.denominator = m.numerator * den) :
    binaryOrder num den = m.mantissa.log2 + m.exponent := by
  have hden' : (den : Rat) ≠ 0 := by exact_mod_cast hden.ne'
  have hdenominator : (m.denominator : Rat) ≠ 0 := by exact_mod_cast m.denominator_pos.ne'
  have hvalue : (num : Rat) / den = m.mantissa * 2 ^ m.exponent := by
    rw [← numerator_div_denominator, div_eq_div_iff hden' hdenominator]
    exact_mod_cast h
  have hnum : 0 < num := by
    rw [Nat.pos_iff_ne_zero]
    rintro rfl
    have hpow : (2 : Rat) ^ m.exponent ≠ 0 := by positivity
    rw [Nat.cast_zero, zero_div, eq_comm, mul_eq_zero] at hvalue
    exact hm (by exact_mod_cast hvalue.resolve_right hpow)
  have hspec := binaryOrder_spec hnum hden
  have hlow : (2 : Rat) ^ m.mantissa.log2 ≤ m.mantissa := by exact_mod_cast Nat.log2_self_le hm
  have hhigh : (m.mantissa : Rat) < 2 ^ (m.mantissa.log2 + 1) := by exact_mod_cast Nat.lt_log2_self
  refine eq_of_two_zpow hspec ⟨?_, ?_⟩
  · rw [hvalue, zpow_add₀ two_ne_zero, zpow_natCast]
    gcongr
  · rw [hvalue, add_right_comm, zpow_add₀ two_ne_zero]
    gcongr
    exact_mod_cast hhigh

/-- A division without rest is not rounded. -/
theorem divNearest_mul (n : Nat) (hden : 0 < den) : divNearest (n * den) den = n := by
  rw [divNearest, Nat.mul_mod_left, Nat.mul_div_cancel n hden, if_pos (by omega)]

/-- A quotient that is the value of a magnitude is rounded to it. -/
theorem ofRatio?_exact (hm : m.mantissa ≠ 0) (hden : 0 < den)
    (h : num * m.denominator = m.numerator * den) : ofRatio? num den = some m := by
  have hpos : 0 < m.numerator := by
    have hpow : 0 < Nat.pow 2 m.exponent.toNat := Nat.two_pow_pos _
    exact Nat.mul_pos (Nat.pos_of_ne_zero hm) hpow
  have hnum : num ≠ 0 := by
    rintro rfl
    rw [Nat.zero_mul] at h
    exact absurd h (Nat.mul_pos hpos hden).ne
  have hscaled : num * Nat.pow 2 (-m.exponent).toNat =
      m.mantissa * (den * Nat.pow 2 m.exponent.toNat) := by
    rw [← denominator, h, numerator, Nat.mul_assoc, Nat.mul_comm den]
  have hdivisor : 0 < den * Nat.pow 2 m.exponent.toNat :=
    Nat.mul_pos hden (Nat.two_pow_pos _)
  have hne : m.mantissa ≠ 0x20000000000000 := m.mantissa_lt.ne
  simp only [ofRatio?, if_neg hnum, binaryOrder_eq hm hden h, max_order_eq_exponent hm, hscaled,
    divNearest_mul _ hdivisor, if_neg hne, ofParts?_parts]

end Magnitude
end LayoutLine
