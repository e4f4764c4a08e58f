import Worksheet.ColumnLabel
import Worksheet.Direction

/-!
# Grids

A grid bounds the part of the sheet that a page shows: it has a number of columns and a number of
rows, neither of them zero, and neither longer than the axis it counts.

## Main definitions

* `Grid` — width and height
* `GridError` — why there is no such grid
* `Grid.ofSize` — the grid of a given size
* `Grid.contains` — whether a cell is on the grid
* `Grid.step?` — the next cell in a direction, if it is on the grid
* `Grid.columnLabels` — the labels of the columns, from left to right
-/

namespace Worksheet

/-- A grid of `width` columns and `height` rows. -/
@[ext]
structure Grid where
  width : Nat
  height : Nat
  width_range : 0 < width ∧ width < 0x100000000
  height_range : 0 < height ∧ height < 0x100000000
deriving DecidableEq

/-- Why a description gives no grid. -/
inductive GridError where
  /-- The description cannot be read, or a number in it is too large. -/
  | unreadable
  /-- The grid would have no cell. -/
  | noCells (width height : Nat)
deriving DecidableEq

namespace GridError

/-- What is reported to whoever described the grid. -/
def message : GridError → String
  | unreadable => "Invalid config JSON"
  | noCells width height =>
    "Grid dimensions must be at least 1x1, got " ++ width.repr ++ "x" ++ height.repr

/-- The name under which both causes are reported. -/
def code : GridError → String := fun _ => "INVALID_CONFIG"

end GridError

namespace Grid

/-- The grid of the given size. -/
def ofSize (width height : Nat) : Except GridError Grid :=
  if h : (0 < width ∧ width < 0x100000000) ∧ (0 < height ∧ height < 0x100000000) then
    .ok ⟨width, height, h.1, h.2⟩
  else if width < 0x100000000 ∧ height < 0x100000000 then .error (.noCells width height)
  else .error .unreadable

/-- The grid that is used when none is described. -/
def standard : Grid := ⟨26, 100, by decide, by decide⟩

/-- Whether the cell at `c` is on the grid. -/
def contains (g : Grid) (c : Coord) : Bool := c.within g.height g.width

/-- The cell next to `c`, if it is on the grid. -/
def step? (g : Grid) (d : Direction) (c : Coord) : Option Coord :=
  (c.neighbour? d).filter g.contains

/-- The labels of the columns, from left to right. -/
def columnLabels (g : Grid) : List String := (List.range g.width).map ColumnLabel.encode

theorem contains_eq_true {g : Grid} {c : Coord} :
    g.contains c = true ↔ c.row < g.height ∧ c.col < g.width := Coord.within_eq_true

theorem length_columnLabels (g : Grid) : g.columnLabels.length = g.width := by
  simp [columnLabels]

end Grid

end Worksheet
