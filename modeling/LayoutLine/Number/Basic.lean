/-!
# Numbers

Lengths, gaps and constants are binary floating-point numbers with a 53-bit significand. A number
is described by its exact value, not by a bit pattern: a finite number is a sign and a magnitude
`mantissa * 2 ^ exponent` in canonical form, so two finite numbers are the same term exactly when
they have the same sign and the same magnitude. All arithmetic on them is exact arithmetic on
naturals.
-/

namespace LayoutLine

/-- The size of a finite number, `mantissa * 2 ^ exponent`, in the one form that represents it. -/
structure Magnitude where
  /-- The significand, a natural of at most 53 bits. -/
  mantissa : Nat
  /-- The power of two that one unit of the significand stands for. -/
  exponent : Int
  /-- The significand fits its 53 bits. -/
  mantissa_lt : mantissa < 0x20000000000000
  /-- No unit is finer than the least positive number. -/
  le_exponent : -1074 ≤ exponent
  /-- No unit is coarser than that of the largest finite number. -/
  exponent_le : exponent ≤ 971
  /-- The leading bit is set, except among the numbers whose unit is the finest one. -/
  leading : 0x10000000000000 ≤ mantissa ∨ exponent = -1074
  deriving DecidableEq

namespace Magnitude

/-- The magnitude of zero. -/
def zero : Magnitude := ⟨0, -1074, by decide, by decide, by decide, .inr rfl⟩

/-- The magnitude with these parts, if they are canonical and in range. -/
def ofParts? (mantissa : Nat) (exponent : Int) : Option Magnitude :=
  if h : mantissa < 0x20000000000000 ∧ -1074 ≤ exponent ∧ exponent ≤ 971 ∧
      (0x10000000000000 ≤ mantissa ∨ exponent = -1074) then
    some ⟨mantissa, exponent, h.1, h.2.1, h.2.2.1, h.2.2.2⟩
  else none

/-- The numerator of the exact value. -/
def numerator (m : Magnitude) : Nat := m.mantissa * Nat.pow 2 m.exponent.toNat

/-- The denominator of the exact value, a power of two. -/
def denominator (m : Magnitude) : Nat := Nat.pow 2 (-m.exponent).toNat

/-- A magnitude is the one of its own mantissa and exponent. -/
theorem ofParts?_parts (m : Magnitude) : ofParts? m.mantissa m.exponent = some m := by
  simp only [ofParts?]
  rw [dif_pos ⟨m.mantissa_lt, m.le_exponent, m.exponent_le, m.leading⟩]

theorem denominator_pos (m : Magnitude) : 0 < m.denominator := Nat.two_pow_pos _

end Magnitude

/-- A binary floating-point number: not a number, an infinity, or a signed magnitude. -/
inductive Number where
  /-- The result that is no number; its sign cannot be observed. -/
  | nan
  /-- An infinity of either sign. -/
  | infinity (negative : Bool)
  /-- A finite number; zero occurs with both signs. -/
  | finite (negative : Bool) (magnitude : Magnitude)
  deriving DecidableEq

namespace Number

/-- Positive zero. -/
def zero : Number := .finite false .zero

instance : Inhabited Number := ⟨zero⟩

/-- Whether the number is a zero of either sign. -/
def isZero : Number → Bool
  | .finite _ m => m.mantissa == 0
  | _ => false

/-- Whether the number lies below zero. -/
def isNegative : Number → Bool
  | .nan => false
  | .infinity negative => negative
  | .finite negative m => negative && m.mantissa != 0

/-- The number of the same size and the opposite sign. -/
def neg : Number → Number
  | .nan => .nan
  | .infinity negative => .infinity !negative
  | .finite negative m => .finite (!negative) m

/-- Whether the number has a sign and a magnitude. -/
def isFinite : Number → Bool
  | .finite _ _ => true
  | _ => false

/-- Equality of values: not-a-number equals nothing, the two zeros are equal. -/
def sameValue : Number → Number → Bool
  | .infinity a, .infinity b => a == b
  | .finite a m, .finite b n => m == n && (a == b || m.mantissa == 0)
  | _, _ => false

/-- Changing the sign twice changes nothing, for the zeros and for what is no number as well. -/
theorem neg_neg (x : Number) : x.neg.neg = x := by cases x <;> simp [neg]

end Number

/-! ### Rounding an exact value

The number nearest to a quotient of naturals, a tie going to the even significand. The exponent is
read off the binary order of the quotient, the significand is one rounded division, and a carry out
of the significand moves to the next exponent. A value beyond the largest exponent is an infinity.
Decimals and integers are rounded as quotients. -/

/-- A quotient of naturals rounded to a natural, a half going to the even neighbour. -/
def divNearest (num den : Nat) : Nat :=
  if 2 * (num % den) < den then num / den
  else if den < 2 * (num % den) then num / den + 1
  else num / den + num / den % 2

/-- The greatest `k` with `2 ^ k ≤ num / den`, for positive `num` and `den`. -/
def binaryOrder (num den : Nat) : Int :=
  let k : Int := (num.log2 : Int) - den.log2
  if den * Nat.pow 2 k.toNat ≤ num * Nat.pow 2 (-k).toNat then k else k - 1

/-- The magnitude nearest to `num / den`, unless that quotient is too large for any. -/
def Magnitude.ofRatio? (num den : Nat) : Option Magnitude :=
  if num = 0 then some .zero
  else
    let exponent := max (binaryOrder num den - 52) (-1074)
    let mantissa := divNearest (num * Nat.pow 2 (-exponent).toNat) (den * Nat.pow 2 exponent.toNat)
    if mantissa = 0x20000000000000 then Magnitude.ofParts? 0x10000000000000 (exponent + 1)
    else Magnitude.ofParts? mantissa exponent

namespace Number

/-- The number nearest to `num / den` with the given sign. -/
def ofRatio (negative : Bool) (num den : Nat) : Number :=
  match Magnitude.ofRatio? num den with
  | some m => .finite negative m
  | none => .infinity negative

/-- The number nearest to the decimal `digits * 10 ^ exponent` with the given sign. -/
def ofDecimal (negative : Bool) (digits : Nat) (exponent : Int) : Number :=
  ofRatio negative (digits * Nat.pow 10 exponent.toNat) (Nat.pow 10 (-exponent).toNat)

/-- The number nearest to an integer. -/
def ofInt (i : Int) : Number := ofRatio (decide (i < 0)) i.natAbs 1

/-- As `ofDecimal`, without computing powers of ten that only an overflow or an underflow needs:
from `10 ^ 310` on a value is infinite, and below `2 ^ -1080` it is zero. -/
def ofScientific (negative : Bool) (digits : Nat) (exponent : Int) : Number :=
  if digits = 0 then .finite negative .zero
  else if 310 ≤ exponent then .infinity negative
  else if (digits.log2 : Int) + 1 + 3 * exponent < -1080 then .finite negative .zero
  else ofDecimal negative digits exponent

end Number
end LayoutLine
