import Worksheet.Region

/-!
# The cells of a region

A region is walked row by row, and from left to right in each row. `Region.next?` is one step of the
walk; it never steps past the last column or the last row. A region may have billions of cells, so
the walk can be cut short: `Region.firstCells` takes as many steps as it is told. The whole walk is
also given in closed form, as the rows of the region one after another.

## Main definitions

* `Region.next?` — the cell after a given one
* `Region.firstCells` — the first cells of the walk
* `Region.cells` — all cells of the region, in the order of the walk

## Main results

* `Region.mem_cells` — the list holds the members of the region
* `Region.pairwise_cells` — in increasing order, hence each once
-/

namespace Worksheet

namespace Region

/-- The cell after `c` when `r` is walked row by row. -/
def next? (r : Region) (c : Coord) : Option Coord :=
  if c.col < r.bottomRight.col then Coord.ofNat? c.row (c.col + 1)
  else if c.row < r.bottomRight.row then Coord.ofNat? (c.row + 1) r.topLeft.col
  else none

/-- The walk through `r` from a given cell on, for at most `n` cells. -/
def walk (r : Region) : Nat → Option Coord → List Coord
  | n + 1, some c => c :: walk r n (r.next? c)
  | _, _ => []

/-- The first `n` cells of `r`, or all of them when there are no more. -/
def firstCells (r : Region) (n : Nat) : List Coord := r.walk n (some r.topLeft)

/-- The cells of row `row` that lie between the left and the right edge of `r`. -/
def rowCells (r : Region) (row : Nat) : List Coord :=
  (List.range' r.topLeft.col r.width).filterMap (Coord.ofNat? row)

/-- All cells of `r`, row by row. -/
def cells (r : Region) : List Coord :=
  (List.range' r.topLeft.row r.height).flatMap r.rowCells

theorem mem_rowCells {r : Region} {row : Nat} {c : Coord} :
    c ∈ r.rowCells row ↔
      c.row = row ∧ r.topLeft.col ≤ c.col ∧ c.col ≤ r.bottomRight.col := by
  have hcol := r.col_le
  simp only [rowCells, List.mem_filterMap, List.mem_range'_1, Coord.ofNat?_eq_some_iff, width]
  constructor
  · rintro ⟨j, hj, hrow, rfl⟩
    omega
  · rintro ⟨hrow, hleft, hright⟩
    exact ⟨c.col, by omega, hrow.symm, rfl⟩

theorem mem_cells {r : Region} {c : Coord} : c ∈ r.cells ↔ c ∈ r := by
  have hrow := r.row_le
  simp only [cells, List.mem_flatMap, List.mem_range'_1, mem_rowCells, mem_def, height]
  constructor
  · rintro ⟨i, hi, rfl, hcol⟩
    exact ⟨by omega, hcol⟩
  · rintro ⟨hr, hc⟩
    exact ⟨c.row, by omega, rfl, hc⟩

theorem pairwise_rowCells (r : Region) (row : Nat) : (r.rowCells row).Pairwise (· < ·) := by
  refine List.Pairwise.filterMap _ ?_ List.pairwise_lt_range'
  intro i j hij a ha b hb
  rw [Coord.ofNat?_eq_some_iff] at ha hb
  rw [Coord.lt_def]
  omega

theorem pairwise_cells (r : Region) : r.cells.Pairwise (· < ·) := by
  refine List.pairwise_flatMap.2 ⟨fun i _ => r.pairwise_rowCells i, ?_⟩
  refine List.Pairwise.imp ?_ List.pairwise_lt_range'
  intro i j hij a ha b hb
  rw [mem_rowCells] at ha hb
  rw [Coord.lt_def]
  omega

end Region

end Worksheet
