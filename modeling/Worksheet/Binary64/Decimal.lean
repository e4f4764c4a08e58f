import Worksheet.Binary64.Rounding

/-!
# Decimal numbers

A decimal number is a whole coefficient times a power of ten. Reading it means finding the binary64
number nearest to its exact value.

The value is computed as a quotient of whole numbers, so an exponent far out of range would make
these numbers huge. Such decimals are answered from their first digit's place alone: `10 ^ 309` and
everything above it is nearest to infinity, and everything below `10 ^ (-324)` to zero.

## Main definitions

* `Decimal` — coefficient and exponent
* `Decimal.digitCount` — how many digits a whole number has
* `Decimal.nearest` — the nearest binary64 number
* `Decimal.positionalChars` — the digits without an exponent
-/

namespace Worksheet

/-- The number `coefficient * 10 ^ exponent`. -/
structure Decimal where
  coefficient : Nat
  exponent : Int
deriving DecidableEq

namespace Decimal

/-- The number of decimal digits of `n`; zero has one digit. -/
def digitCount (n : Nat) : Nat := n.repr.length

/-- The place just above the first digit: a decimal other than zero is less than ten to this power,
and at least a tenth of that. -/
def magnitude (d : Decimal) : Int := digitCount d.coefficient + d.exponent

/-- The binary64 number nearest to the decimal, with the given sign. -/
def nearest (negative : Bool) (d : Decimal) : Binary64 :=
  if d.coefficient = 0 then .zero negative
  else if 310 ≤ d.magnitude then .infinite negative
  else if d.magnitude ≤ -324 then .zero negative
  else
    .nearest negative ((d.coefficient * Nat.pow 10 d.exponent.toNat) <<< 1074)
      (Nat.pow 10 (-d.exponent).toNat)

/-! ### Positional notation -/

/-- The last `width` digits of `n`, with zeros in front when there are fewer. -/
def fixedDigits : Nat → Nat → List Char
  | 0, _ => []
  | width + 1, n => fixedDigits width (n / 10) ++ [(n % 10).digitChar]

/-- Digits without the zeros at their end. -/
def dropTrailingZeros (digits : List Char) : List Char :=
  (digits.reverse.dropWhile (· = '0')).reverse

/-- The digits of the decimal, with a point in front of its fraction if there is one. Neither the
whole part nor the fraction has a zero that could be left out. -/
def positionalChars (d : Decimal) : List Char :=
  let places := (-d.exponent).toNat
  let coefficient := d.coefficient * Nat.pow 10 d.exponent.toNat
  let whole := Nat.toDigits 10 (coefficient / Nat.pow 10 places)
  match dropTrailingZeros (fixedDigits places (coefficient % Nat.pow 10 places)) with
  | [] => whole
  | fraction => whole ++ '.' :: fraction

theorem digitCount_eq (n : Nat) : digitCount n = (Nat.toDigits 10 n).length := by
  rw [digitCount, ← String.length_toList, Nat.toList_repr]

theorem length_fixedDigits (width n : Nat) : (fixedDigits width n).length = width := by
  induction width generalizing n with
  | zero => rfl
  | succ width ih => simp [fixedDigits, ih]

end Decimal

end Worksheet
