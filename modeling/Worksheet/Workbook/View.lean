import Worksheet.Workbook

/-!
# What a page shows

What a page has to know of a cell to show it and to open it in an editor, for one cell or for all
non-empty cells of a part of the sheet.

## Main definitions

* `CellView` — what a page knows of a cell
* `Workbook.view`, `Workbook.views` — one cell, and the non-empty cells of a region
* `Workbook.chartSeries?` — the series of the chart in a cell
-/

namespace Worksheet

/-- What a page knows of a cell. -/
structure CellView where
  cell : Coord
  /-- The text to begin editing with, if the cell holds anything. -/
  editText : Option String
  /-- The text in the grid. -/
  shown : String
  /-- The text of the cell's formula. -/
  formula : Option String
  /-- Why the cell has no value. -/
  error : Option CellError
  /-- The reference to the region of the cell's chart. -/
  chart : Option String
deriving DecidableEq

namespace Workbook

/-- The text that the grid shows for the cell at `c`. -/
def shown (w : Workbook) (c : Coord) : String := ((w.sheet.value? c).map Value.shown).getD ""

/-- What a page knows of the cell at `c`. -/
def view (w : Workbook) (c : Coord) : CellView :=
  let content := w.sheet.get? c
  let value := w.sheet.value? c
  { cell := c
    editText := content.map Content.editText
    shown := (value.map Value.shown).getD ""
    formula := (content.bind Content.formula?).map Formula.source
    error := value.bind Value.error?
    chart := (content.bind Content.chart?).map Region.reference }

/-- The non-empty cells of a region, row by row. -/
def views (w : Workbook) (r : Region) : List CellView :=
  (w.sheet.scan r).map fun e => w.view e.1

/-- The series of the chart in the cell at `c`, if it holds one. -/
def chartSeries? (w : Workbook) (c : Coord) : Option Series :=
  ((w.sheet.get? c).bind Content.chart?).map w.sheet.series

end Workbook

end Worksheet
