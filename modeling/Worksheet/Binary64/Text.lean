import Worksheet.Binary64.Decimal

/-!
# Numbers as text

A number is written in one of two ways. A whole number whose size is below `10 ^ 15` is written with
its digits, and a minus sign if it is negative; both zeros are written `0`. Any other finite number
is written as its shortest decimal, the one with the fewest digits that reads back as the same
number, and among those the one nearest to its exact value, the larger if two are equally near. It
is written without an exponent, however large or small it is.

A magnitude is a multiple of `2 ^ (-1074)`, so it is exactly a whole multiple of `10 ^ (-1074)`. The
search for the shortest decimal drops as many of the final digits of that multiple as it can: it
begins with at most one digit left and takes back one dropped digit at a time. It ends at the latest
when no digit is dropped, because the exact decimal reads back.

## Main definitions

* `Binary64.exactCoefficient` — a magnitude as a multiple of `10 ^ (-1074)`
* `Binary64.shortest` — the decimal with the fewest digits that reads back
* `Binary64.wholeNumber?` — the number as a whole number, if it is one and not too large
* `Binary64.text` — the number as text
-/

namespace Worksheet

namespace Binary64

/-- The magnitude of the given rank as a multiple of `10 ^ (-1074)`. -/
def exactCoefficient (rank : Nat) : Nat := units rank * Nat.pow 5 1074

/-- Whether the decimal reads back as the magnitude of the given rank. -/
def readsBack (rank : Fin 0x7ff0000000000000) (d : Decimal) : Bool :=
  decide (d.nearest false = finite false rank)

/-- The decimal with the fewest digits that reads back as the magnitude of the given rank, when at
most `dropped` final digits of its exact decimal are dropped. What remains is rounded down and up,
and the nearer result is tried first. -/
def shortestDropping (rank : Fin 0x7ff0000000000000) : Nat → Decimal
  | 0 => ⟨exactCoefficient rank, -1074⟩
  | dropped + 1 =>
    let grid := Nat.pow 10 (dropped + 1)
    let lower := exactCoefficient rank / grid
    let below := decide (2 * (exactCoefficient rank % grid) < grid)
    let near : Decimal := ⟨if below then lower else lower + 1, dropped + 1 - 1074⟩
    let far : Decimal := ⟨if below then lower + 1 else lower, dropped + 1 - 1074⟩
    if readsBack rank near then near
    else if readsBack rank far then far
    else shortestDropping rank dropped

/-- How many digits can be dropped from a whole number without dropping its first one, or one more.
The binary logarithm counts the binary digits after the first, and one of these is worth less than
0.30103 decimal ones. -/
def droppable (n : Nat) : Nat := (Nat.log2 n + 1) * 30103 / 100000

/-- The decimal with the fewest digits that reads back as the magnitude of the given rank. -/
def shortest (rank : Fin 0x7ff0000000000000) : Decimal :=
  shortestDropping rank (droppable (exactCoefficient rank))

/-- The sign in front of a number. -/
def signChars (negative : Bool) : List Char := if negative then ['-'] else []

/-- The characters of a number that is written as its shortest decimal, or in words if it is not
finite. -/
def decimalChars : Binary64 → List Char
  | nan => ['N', 'a', 'N']
  | infinite negative => signChars negative ++ ['i', 'n', 'f']
  | finite negative rank => signChars negative ++ (shortest rank).positionalChars

/-! ### Whole numbers -/

/-- The whole number that a number is, if it is one and its size is below `10 ^ 15`. -/
def wholeNumber? : Binary64 → Option Int
  | finite negative rank =>
    let size := units rank >>> 1074
    if size <<< 1074 = units rank ∧ size < 1000000000000000 then
      some (if negative then -(size : Int) else size)
    else none
  | nan | infinite _ => none

/-- The characters of a whole number. -/
def wholeChars (n : Int) : List Char := signChars (decide (n < 0)) ++ Nat.toDigits 10 n.natAbs

/-- The characters of a number's text. -/
def textChars (x : Binary64) : List Char :=
  match x.wholeNumber? with
  | some n => wholeChars n
  | none => x.decimalChars

/-- The number as text. -/
def text (x : Binary64) : String := String.ofList x.textChars

end Binary64

end Worksheet
