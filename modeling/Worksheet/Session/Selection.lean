import Worksheet.Grid
import Worksheet.Region

/-!
# The selection

At most one region is selected. A click selects a cell; with shift it extends the region that is
selected; and inside that region it opens the cell to be edited, after which nothing is selected.
Arrow keys start from the bottom right cell of the region and stay on the grid.

## Main definitions

* `Selection` — the selected region, if any
* `Selection.extendTo` — the region with a further cell
* `Selection.click` — what a click does
* `Selection.advance?` — the region after an arrow key
-/

namespace Worksheet

/-- The selected region, if there is one. -/
abbrev Selection := Option Region

/-- What a click did. -/
inductive ClickOutcome where
  /-- A single cell was selected. -/
  | selected (region : Region)
  /-- The selection was extended to this region. -/
  | extended (region : Region)
  /-- The cell was opened to be edited. -/
  | opened (cell : Coord)
deriving DecidableEq

namespace Selection

/-- Whether the cell is selected. -/
def holds (s : Selection) (c : Coord) : Bool := s.any fun r => decide (c ∈ r)

/-- The least region with all selected cells and `c`. -/
def extendTo (s : Selection) (c : Coord) : Region :=
  match s with
  | some r => r.extend c
  | none => .single c

/-- What a click on `c` does, and the selection after it. -/
def click (s : Selection) (c : Coord) (shift : Bool) : ClickOutcome × Selection :=
  match s with
  | some r =>
    if c ∈ r then (.opened c, none)
    else if shift then (.extended (r.extend c), some (r.extend c))
    else (.selected (.single c), some (.single c))
  | none => (.selected (.single c), some (.single c))

/-- The region that an arrow key selects, with shift or without. There is none if nothing is
selected or if the next cell is not on the grid. -/
def advance? (s : Selection) (d : Direction) (shift : Bool) (g : Grid) : Option Region := do
  let r ← s
  let c ← g.step? d r.bottomRight
  return if shift then r.extend c else .single c

end Selection

end Worksheet
