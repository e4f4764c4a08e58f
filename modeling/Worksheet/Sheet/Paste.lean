import Worksheet.Grid
import Worksheet.Sheet

/-!
# Copying regions

A region is copied in two steps. First a snapshot is taken of all its cells, empty ones included.
Then the snapshot is written elsewhere, shifted so that the region's top left cell comes to lie at
the anchor. As all is read before anything is written, it does not matter whether the two places
overlap.

A cell whose new place is off the axes, or off the grid if one is given, is left out. An empty cell
of the snapshot empties the cell where it comes to lie.

## Main definitions

* `Snapshot` — cells with what they held
* `Sheet.snapshot` — what the cells of a region hold
* `Sheet.place?` — where a cell of the source comes to lie
* `Sheet.write` — write a snapshot
* `Sheet.paste` — take a snapshot of a region and write it elsewhere
-/

namespace Worksheet

/-- Cells in the order in which they were read, with what they held. -/
abbrev Snapshot := List (Coord × Option Content)

namespace Sheet

/-- All cells of a region, row by row, with what they hold. -/
def snapshot (s : Sheet) (r : Region) : Snapshot := r.cells.map fun c => (c, s.get? c)

/-- Where the cell at `c` comes to lie when `source` is moved to `anchor`, if that is within the
bounds. -/
def place? (source : Region) (anchor : Coord) (bounds : Option Grid) (c : Coord) : Option Coord :=
  (source.shift source.topLeft anchor c).filter fun t => bounds.all fun g => g.contains t

/-- The cells that a snapshot is written to, with what is written there. -/
def placed (source : Region) (anchor : Coord) (bounds : Option Grid) (cells : Snapshot) :
    Snapshot :=
  cells.filterMap fun e => (place? source anchor bounds e.1).map fun t => (t, e.2)

/-- The sheet with a snapshot of `source` written at `anchor`, and the cells that were written, in
the order of the snapshot. -/
def write (s : Sheet) (source : Region) (anchor : Coord) (bounds : Option Grid) (cells : Snapshot) :
    Sheet × List Coord :=
  let targets := placed source anchor bounds cells
  (targets.foldl (fun s e => s.put e.1 e.2) s, targets.map Prod.fst)

/-- The sheet with the contents of `source` copied to `anchor`, and the cells that were written. -/
def paste (s : Sheet) (source : Region) (anchor : Coord) (bounds : Option Grid) :
    Sheet × List Coord :=
  s.write source anchor bounds (s.snapshot source)

end Sheet

end Worksheet
