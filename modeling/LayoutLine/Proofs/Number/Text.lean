import LayoutLine.Number.Literal
import LayoutLine.Proofs.Line.Completeness
import LayoutLine.Proofs.Number.Exact

/-!
# Numbers are read back from their text

The digits of a finite number's text stand for a decimal that is rounded to this number: a shorter
decimal is taken only if it reads back, and the exact one needs no rounding. A number can be told
from its text.
-/

namespace LayoutLine

open Line.Language
open Line.Grammar (digits_toDigits number? number?_complete)

/-! ### The digits of a decimal -/

/-- What is dropped at the end of a text is a run of the one character. -/
theorem exists_dropTrailing (c : Char) (cs : List Char) :
    ∃ count, cs = dropTrailing c cs ++ List.replicate count c := by
  have hrun : cs.reverse.takeWhile (· == c) =
      List.replicate (cs.reverse.takeWhile (· == c)).length c := by
    refine List.eq_replicate_iff.mpr ⟨rfl, fun d hd => ?_⟩
    exact eq_of_beq (List.all_eq_true.mp List.all_takeWhile d hd)
  refine ⟨(cs.reverse.takeWhile (· == c)).length, ?_⟩
  calc cs
      = (cs.reverse.takeWhile (· == c) ++ cs.reverse.dropWhile (· == c)).reverse := by
        rw [List.takeWhile_append_dropWhile, List.reverse_reverse]
    _ = dropTrailing c cs ++ List.replicate (cs.reverse.takeWhile (· == c)).length c := by
        rw [List.reverse_append, hrun, List.reverse_replicate, List.length_replicate, dropTrailing]

theorem isDigit_replicate_zero {count : Nat} : ∀ c ∈ List.replicate count '0', IsDigit c := by
  intro c hc
  rw [List.eq_of_mem_replicate hc]
  decide

namespace Decimal

/-- The fraction, with the zeros that are not written, has as many places as the exponent asks
for, and its value is what the whole digits leave. -/
theorem exists_unwritten_zeros (d : Decimal) :
    ∃ zeros, d.fraction.length + zeros = d.places ∧
      10 ^ zeros * Nat.ofDigitChars 10 d.fraction 0 =
        d.digits * Nat.pow 10 d.exponent.toNat % Nat.pow 10 d.places := by
  simp only [fraction]
  split
  · rename_i hrest
    exact ⟨d.places, by simp, by rw [hrest, Nat.ofDigitChars_nil, Nat.mul_zero]⟩
  · rename_i hrest
    generalize hr : d.digits * Nat.pow 10 d.exponent.toNat % Nat.pow 10 d.places = rest at hrest ⊢
    have hlt : rest < 10 ^ d.places := hr ▸ Nat.mod_lt _ (Nat.pow_pos (by decide))
    have hplaces : 0 < d.places := by
      rw [Nat.pos_iff_ne_zero]
      intro hzero
      rw [hzero] at hlt
      omega
    have hlength := (Nat.length_toDigits_le_iff (by decide) hplaces).mpr hlt
    obtain ⟨zeros, hzeros⟩ := exists_dropTrailing '0'
      (List.replicate (d.places - (Nat.toDigits 10 rest).length) '0' ++ Nat.toDigits 10 rest)
    refine ⟨zeros, ?_, ?_⟩
    · have hsum := congrArg List.length hzeros
      simp only [List.length_append, List.length_replicate] at hsum
      omega
    · have hvalue := congrArg (Nat.ofDigitChars 10 · 0) hzeros
      simp only [Nat.ofDigitChars_append, Nat.ofDigitChars_replicate_zero, Nat.mul_zero] at hvalue
      rw [Nat.ofDigitChars_toDigits (by decide) (by decide)] at hvalue
      exact hvalue.symm

/-- The written digits stand for the value of the decimal. -/
theorem ofDigitChars_mul (d : Decimal) :
    Nat.ofDigitChars 10 (d.whole ++ d.fraction) 0 * 10 ^ d.places =
      d.digits * 10 ^ d.exponent.toNat * 10 ^ d.fraction.length := by
  obtain ⟨zeros, hlength, hvalue⟩ := d.exists_unwritten_zeros
  have hwhole : Nat.ofDigitChars 10 d.whole 0 =
      d.digits * Nat.pow 10 d.exponent.toNat / Nat.pow 10 d.places :=
    Nat.ofDigitChars_toDigits (by decide) (by decide)
  rw [Nat.ofDigitChars_append, Nat.ofDigitChars_eq_ofDigitChars_zero, hwhole]
  simp only [Nat.pow_eq] at hvalue ⊢
  generalize d.digits * 10 ^ d.exponent.toNat = value at hvalue ⊢
  have hpow : 10 ^ d.places = 10 ^ d.fraction.length * 10 ^ zeros := by
    rw [← Nat.pow_add, hlength]
  calc (10 ^ d.fraction.length * (value / 10 ^ d.places) +
        Nat.ofDigitChars 10 d.fraction 0) * 10 ^ d.places
      = (10 ^ d.places * (value / 10 ^ d.places) +
          10 ^ zeros * Nat.ofDigitChars 10 d.fraction 0) * 10 ^ d.fraction.length := by
        rw [hpow]
        ring
    _ = value * 10 ^ d.fraction.length := by rw [hvalue, Nat.div_add_mod]

theorem isDigit_of_mem_fraction (d : Decimal) : ∀ c ∈ d.fraction, IsDigit c := by
  simp only [fraction]
  split
  · exact nofun
  · generalize hpadded : List.replicate _ '0' ++ Nat.toDigits 10 _ = padded
    obtain ⟨zeros, hzeros⟩ := exists_dropTrailing '0' padded
    have hall : ∀ c ∈ padded, IsDigit c := by
      rw [← hpadded]
      exact List.forall_mem_append.mpr ⟨isDigit_replicate_zero, (digits_toDigits _).2⟩
    intro c hc
    apply hall
    rw [hzeros]
    exact List.mem_append_left _ hc

/-- A decimal is written as a number with its whole digits and its fraction. -/
theorem numberText_text (negative : Bool) (d : Decimal) :
    NumberText (.ofDigits negative d.whole d.fraction) (signText negative ++ d.text) := by
  have hdigits := d.isDigit_of_mem_fraction
  unfold text
  generalize d.fraction = fraction at hdigits ⊢
  cases fraction with
  | nil => exact .whole (digits_toDigits _)
  | cons c fraction =>
    rw [← List.append_assoc]
    exact .decimal (digits_toDigits _) ⟨List.cons_ne_nil c fraction, hdigits⟩

end Decimal

/-! ### The shortest decimal reads back -/

namespace Magnitude

variable {m : Magnitude}

/-- A decimal reads back whatever the sign is. -/
theorem ofDigits_of_readsBack {d : Decimal} (h : m.readsBack d = true) (negative : Bool) :
    Number.ofDigits negative d.whole d.fraction = .finite negative m := by
  have hread : Number.ofDigits false d.whole d.fraction = .finite false m := eq_of_beq h
  simp only [Number.ofDigits, Number.ofDecimal, Number.ofRatio] at hread ⊢
  split at hread
  · cases hread
    rfl
  · cases hread

/-- A decimal whose value is that of the magnitude reads back. -/
theorem readsBack_of_value (hm : m.mantissa ≠ 0) {d : Decimal}
    (h : d.digits * 10 ^ d.exponent.toNat * m.denominator = m.numerator * 10 ^ d.places) :
    m.readsBack d = true := by
  have hvalue := d.ofDigitChars_mul
  have hexact : ofRatio? (Nat.ofDigitChars 10 (d.whole ++ d.fraction) 0)
      (10 ^ d.fraction.length) = some m := by
    refine ofRatio?_exact hm (Nat.pow_pos (by decide)) ?_
    have hpos : 0 < 10 ^ d.places := Nat.pow_pos (by decide)
    apply Nat.eq_of_mul_eq_mul_right hpos
    calc Nat.ofDigitChars 10 (d.whole ++ d.fraction) 0 * m.denominator * 10 ^ d.places
        = d.digits * 10 ^ d.exponent.toNat * m.denominator * 10 ^ d.fraction.length := by
          rw [Nat.mul_right_comm, hvalue, Nat.mul_right_comm]
      _ = m.numerator * 10 ^ d.fraction.length * 10 ^ d.places := by
          rw [h, Nat.mul_right_comm]
  have hpower : (-(d.fraction.length : Int)).toNat = 0 := by omega
  have hplaces : (- -(d.fraction.length : Int)).toNat = d.fraction.length := by omega
  rw [readsBack, beq_iff_eq, Number.ofDigits, Number.ofDecimal, hpower, hplaces]
  simp only [Nat.pow_eq, Nat.pow_zero, Nat.mul_one, Number.ofRatio, hexact]

theorem readsBack_exactDecimal (hm : m.mantissa ≠ 0) : m.readsBack m.exactDecimal = true := by
  apply readsBack_of_value hm
  simp only [exactDecimal, Decimal.places, numerator, denominator, Nat.pow_eq]
  split
  · rename_i h
    have hneg : (-m.exponent).toNat = 0 := by omega
    simp [hneg]
  · rename_i h
    have hpos : m.exponent.toNat = 0 := by omega
    have hten : 10 ^ (-m.exponent).toNat =
        5 ^ (-m.exponent).toNat * 2 ^ (-m.exponent).toNat := by
      rw [← Nat.mul_pow]
    simp only [hpos, hten]
    ring

/-- A decimal is proposed only if it reads back. -/
theorem readsBack_of_decimalOf? {count : Nat} {d : Decimal} (h : m.decimalOf? count = some d) :
    m.readsBack d = true := by
  simp only [decimalOf?] at h
  split at h
  · rename_i hbelow habove
    split at h
    · exact Option.some.inj h ▸ hbelow
    · exact Option.some.inj h ▸ habove
  · rename_i hbelow _
    exact Option.some.inj h ▸ hbelow
  · rename_i _ habove
    exact Option.some.inj h ▸ habove
  · exact absurd h nofun

theorem eq_zero_of_mantissa (h : m.mantissa = 0) : m = zero := by
  have hexponent : m.exponent = -1074 := by
    rcases m.leading with hleading | hfinest
    · omega
    · exact hfinest
  cases m
  cases h
  cases hexponent
  rfl

/-- The decimal that stands for a magnitude in text is read as this magnitude. -/
theorem readsBack_shortest (m : Magnitude) : m.readsBack m.shortest = true := by
  unfold shortest
  split
  · rename_i hzero
    rw [eq_zero_of_mantissa hzero]
    decide
  · rename_i hm
    cases hfound : (List.range' 1 17).findSome? m.decimalOf? with
    | none => exact readsBack_exactDecimal hm
    | some d =>
      obtain ⟨count, -, hcount⟩ := List.exists_of_findSome?_eq_some hfound
      exact readsBack_of_decimalOf? hcount

end Magnitude

/-! ### Telling numbers apart -/

namespace Number

/-- The text of a finite number is one of its texts in a line. -/
theorem numberText_finite (negative : Bool) (m : Magnitude) :
    NumberText (.finite negative m) (Number.finite negative m).text.toList := by
  have htext := m.shortest.numberText_text negative
  rw [Magnitude.ofDigits_of_readsBack m.readsBack_shortest] at htext
  rwa [text, String.toList_ofList]

/-- A finite number is read from its text; the texts of the others are no numbers of a line. -/
theorem number?_text (x : Number) :
    number? x.text.toList = if x.isFinite then some (x, []) else none := by
  cases x with
  | nan => decide
  | infinity negative => cases negative <;> decide
  | finite negative m =>
    have hread : number? ((finite negative m).text.toList ++ []) = some (.finite negative m, []) :=
      number?_complete (numberText_finite negative m) nofun
    rwa [List.append_nil] at hread

/-- Numbers with one text are one number; the two zeros have different texts. -/
theorem text_injective : Function.Injective text := by
  intro x y h
  have hread : number? x.text.toList = number? y.text.toList := by rw [h]
  rw [number?_text, number?_text] at hread
  cases x with
  | finite negative m =>
    cases y with
    | finite negative' m' => exact congrArg Prod.fst (Option.some.inj hread)
    | nan => exact absurd hread nofun
    | infinity _ => exact absurd hread nofun
  | nan =>
    cases y with
    | finite _ _ => exact absurd hread nofun
    | nan => rfl
    | infinity negative => cases negative <;> exact absurd h (by decide)
  | infinity negative =>
    cases y with
    | finite _ _ => exact absurd hread nofun
    | nan => cases negative <;> exact absurd h (by decide)
    | infinity negative' =>
      cases negative <;> cases negative' <;> first | rfl | exact absurd h (by decide)

end Number
end LayoutLine
