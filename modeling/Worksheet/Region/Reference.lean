import Worksheet.Coord.Reference
import Worksheet.Region

/-!
# References to a region

A region is referred to by two opposite corners with a colon between them, as in `A1:B4`, and a
region of one cell by that cell alone. The corners may be written in any order; `Region.reference`
writes the top left one first.

## Main definitions

* `Region.reference` — the reference to a region
* `Region.ofReference` — the region that a text refers to
-/

namespace Worksheet

namespace Region

/-- The reference to `r`. -/
def reference (r : Region) : String :=
  if r.isSingle then r.topLeft.reference
  else r.topLeft.reference ++ ":" ++ r.bottomRight.reference

/-- The region that a text refers to. The corners stand before and after the first colon, and of two
that cannot be read the first is reported. -/
def ofReference (text : String) : Except CellError Region :=
  match text.toList.span (· ≠ ':') with
  | (_, []) => do
    let c ← Coord.ofReference text
    return single c
  | (first, _ :: second) => do
    let a ← Coord.ofReference (String.ofList first)
    let b ← Coord.ofReference (String.ofList second)
    return spanning a b

end Region

end Worksheet
