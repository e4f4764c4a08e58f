import Worksheet.Binary64.Rounding

/-!
# Arithmetic

Sums and quotients of binary64 numbers: the exact result, rounded to the nearest number. Two
infinities of opposite sign have no sum, and two infinities or two zeros no quotient.

## Main definitions

* `Binary64.add`, `Binary64.div`
* `Binary64.total` — the sum of a list, added up from the left
-/

namespace Worksheet

namespace Binary64

/-- A magnitude in units with its sign. -/
def signedUnits (negative : Bool) (rank : Nat) : Int :=
  if negative then -(units rank : Int) else (units rank : Int)

/-- The number nearest to the exact sum. A sum of zero is negative only if both numbers are. -/
def add : Binary64 → Binary64 → Binary64
  | nan, _ | _, nan => nan
  | infinite a, infinite b => if a = b then infinite a else nan
  | infinite a, finite _ _ => infinite a
  | finite _ _, infinite b => infinite b
  | finite a j, finite b k =>
    let sum := signedUnits a j + signedUnits b k
    if sum = 0 then zero (a && b) else nearest (decide (sum < 0)) sum.natAbs 1

/-- The number nearest to the exact quotient. -/
def div : Binary64 → Binary64 → Binary64
  | nan, _ | _, nan => nan
  | infinite _, infinite _ => nan
  | infinite a, finite b _ => infinite (a != b)
  | finite a _, infinite b => zero (a != b)
  | finite a j, finite b k =>
    if k.val = 0 then if j.val = 0 then nan else infinite (a != b)
    else nearest (a != b) (units j <<< 1074) (units k)

/-- The sum of a list of numbers, rounded after each addition. It starts from the negative zero,
which changes no number when it is added to it, whatever the sign of that number is. -/
def total (xs : List Binary64) : Binary64 := xs.foldl add (zero true)

end Binary64

end Worksheet
