import LayoutLine.Number.Basic
import LayoutLine.Text

/-!
# Numbers as text

A finite decimal `digits * 10 ^ exponent` is written positionally: whole digits, and after a point
the digits of its fraction without closing zeros. A whole decimal has no point, and no exponent is
ever written. A number is written as the shortest decimal that reads back as the same number. The
literals a caller may hand in are more than that: an optional sign, then `inf`, `infinity` or `nan`
in any case, or decimal digits with an optional point and an optional power of ten.
-/

namespace LayoutLine

/-! ### Decimals -/

/-- The characters of a list up to its last one that differs from `c`. -/
def dropTrailing (c : Char) (cs : List Char) : List Char :=
  (cs.reverse.dropWhile (· == c)).reverse

/-- The decimal `digits * 10 ^ exponent`. -/
structure Decimal where
  /-- The significant digits as one natural. -/
  digits : Nat
  /-- The power of ten that the last digit stands for. -/
  exponent : Int
  deriving DecidableEq

namespace Decimal

/-- How many places after the point the exponent asks for. -/
def places (d : Decimal) : Nat := (-d.exponent).toNat

/-- The digits before the point, at least one. -/
def whole (d : Decimal) : List Char :=
  Nat.toDigits 10 (d.digits * Nat.pow 10 d.exponent.toNat / Nat.pow 10 d.places)

/-- The digits after the point; none when the value is whole. -/
def fraction (d : Decimal) : List Char :=
  let rest := d.digits * Nat.pow 10 d.exponent.toNat % Nat.pow 10 d.places
  if rest = 0 then []
  else
    let digits := Nat.toDigits 10 rest
    dropTrailing '0' (List.replicate (d.places - digits.length) '0' ++ digits)

/-- The decimal as text, `12`, `0.5` or `12.05`. -/
def text (d : Decimal) : List Char :=
  match d.fraction with
  | [] => d.whole
  | fraction => d.whole ++ '.' :: fraction

end Decimal

/-- The number written with these digits before and after a point. -/
def Number.ofDigits (negative : Bool) (whole fraction : List Char) : Number :=
  .ofDecimal negative (Nat.ofDigitChars 10 (whole ++ fraction) 0) (-(fraction.length : Int))

/-! ### The shortest decimal of a number

For one, two, ... seventeen significant digits the two decimals next to the value on the grid of
that many digits are tried in turn; the first grid with a decimal that reads back decides, of two
that do the nearer one is taken, and the larger one when both are equally near. The exact decimal,
which always reads back, closes the search. -/

/-- The least `k` with `num / den < 10 ^ k`, for positive `num` and `den`. -/
def decimalOrder (num den : Nat) : Int :=
  if den ≤ num then (Nat.toDigits 10 (num / den)).length
  else 1 - (Nat.toDigits 10 ((den - 1) / num)).length

namespace Magnitude

/-- Whether the digits of a decimal are read as this magnitude. -/
def readsBack (m : Magnitude) (d : Decimal) : Bool :=
  Number.ofDigits false d.whole d.fraction == .finite false m

/-- The decimal of exactly this value. -/
def exactDecimal (m : Magnitude) : Decimal :=
  if 0 ≤ m.exponent then ⟨m.mantissa * Nat.pow 2 m.exponent.toNat, 0⟩
  else ⟨m.mantissa * Nat.pow 5 (-m.exponent).toNat, m.exponent⟩

/-- The best decimal with `count` significant digits that reads back, if there is one. -/
def decimalOf? (m : Magnitude) (count : Nat) : Option Decimal :=
  let exponent := decimalOrder m.numerator m.denominator - count
  let num := m.numerator * Nat.pow 10 (-exponent).toNat
  let den := m.denominator * Nat.pow 10 exponent.toNat
  let below : Decimal := ⟨num / den, exponent⟩
  let above : Decimal := ⟨num / den + 1, exponent⟩
  match m.readsBack below, m.readsBack above with
  | true, true => some (if 2 * (num % den) < den then below else above)
  | true, false => some below
  | false, true => some above
  | false, false => none

/-- The decimal that stands for this magnitude in text. -/
def shortest (m : Magnitude) : Decimal :=
  if m.mantissa = 0 then ⟨0, 0⟩
  else (List.range' 1 17).findSome? m.decimalOf? |>.getD m.exactDecimal

end Magnitude

namespace Number

/-- The number as text: positional, with a sign only below zero and on negative zero. -/
def text : Number → String
  | .nan => "NaN"
  | .infinity negative => if negative then "-inf" else "inf"
  | .finite negative m => String.ofList ((if negative then ['-'] else []) ++ m.shortest.text)

end Number

/-! ### Literals -/

namespace Number

open Text (digitRun)

/-- The power of ten that closes a literal: nothing, or `e`, an optional sign and digits. -/
def powerOfTen? : List Char → Option Int
  | [] => some 0
  | mark :: cs =>
    if mark = 'e' ∨ mark = 'E' then
      let (negative, cs) := match cs with
        | '-' :: rest => (true, rest)
        | '+' :: rest => (false, rest)
        | _ => (false, cs)
      if cs ≠ [] ∧ cs.all Char.isDigit then
        let power : Int := Nat.ofDigitChars 10 cs 0
        some (if negative then -power else power)
      else none
    else none

/-- A literal without its sign. -/
def ofUnsigned? (negative : Bool) (cs : List Char) : Option Number :=
  let lower := cs.map Char.toLower
  if lower = "inf".toList ∨ lower = "infinity".toList then some (.infinity negative)
  else if lower = "nan".toList then some .nan
  else
    let (whole, rest) := digitRun cs
    let (fraction, rest) := match rest with
      | '.' :: rest => digitRun rest
      | _ => ([], rest)
    if whole = [] ∧ fraction = [] then none
    else
      (powerOfTen? rest).map fun power =>
        .ofScientific negative (Nat.ofDigitChars 10 (whole ++ fraction) 0) (power - fraction.length)

/-- The number a literal stands for. -/
def ofLiteral? (s : String) : Option Number :=
  match s.toList with
  | '-' :: cs => ofUnsigned? true cs
  | '+' :: cs => ofUnsigned? false cs
  | cs => ofUnsigned? false cs

end Number
end LayoutLine
