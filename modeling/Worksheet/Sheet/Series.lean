import Worksheet.Sheet

/-!
# Chart series

A chart draws the numbers of the last column of its region over those of the first. Cells without a
number are passed over, so the two series may differ in length.

## Main definitions

* `Region.columnStrip` — one column, in the rows of a region
* `Series` — the numbers of a chart
* `Sheet.series` — the series of a region
-/

namespace Worksheet

/-- The cells in the rows of `r` and in the column of a given cell. -/
def Region.columnStrip (r : Region) (c : Coord) : Region where
  topLeft := ⟨r.topLeft.row, c.col, r.topLeft.row_lt, c.col_lt⟩
  bottomRight := ⟨r.bottomRight.row, c.col, r.bottomRight.row_lt, c.col_lt⟩
  row_le := r.row_le
  col_le := Nat.le_refl _

/-- The numbers that a chart draws. -/
structure Series where
  labels : List Binary64
  values : List Binary64
deriving DecidableEq

/-- The series of a region: the numbers down its first column and down its last one. -/
def Sheet.series (s : Sheet) (r : Region) : Series where
  labels := s.numbers (r.columnStrip r.topLeft)
  values := s.numbers (r.columnStrip r.bottomRight)

end Worksheet
