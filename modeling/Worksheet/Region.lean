import Worksheet.Coord

/-!
# Regions

A region is a rectangle of cells, given by its top left and its bottom right cell, both included.
That the corners are in this order is part of the type, so a region has at least one cell and every
pair of opposite corners gives the same region.

## Main definitions

* `Region` — a rectangle of cells
* `Region.spanning` — the least region with two given cells, in whatever position
* `Region.extend` — the least region with a further cell
* membership `c ∈ r`
* `Region.height`, `Region.width` — how many rows and columns a region has
* `Region.rowCount`, `Region.colCount`, `Region.cellCount` — the same as far as words can count
* `Region.shift` — the move that takes one cell to another, on the cells of a region

## Main results

* `Region.mem_def` — membership axis by axis
* `Region.shift_eq_some_iff` — the move adds the same whole number to every row, and another to
  every column
-/

namespace Worksheet

/-- A rectangle of cells, corners included. -/
@[ext]
structure Region where
  topLeft : Coord
  bottomRight : Coord
  row_le : topLeft.row ≤ bottomRight.row
  col_le : topLeft.col ≤ bottomRight.col
deriving DecidableEq

namespace Region

/-- The region of one cell. -/
def single (c : Coord) : Region := ⟨c, c, Nat.le_refl _, Nat.le_refl _⟩

/-- The region whose opposite corners are `a` and `b`. -/
def spanning (a b : Coord) : Region where
  topLeft :=
    ⟨min a.row b.row, min a.col b.col, by have := a.row_lt; omega, by have := a.col_lt; omega⟩
  bottomRight :=
    ⟨max a.row b.row, max a.col b.col, by have := a.row_lt; have := b.row_lt; omega,
      by have := a.col_lt; have := b.col_lt; omega⟩
  row_le := by dsimp only; omega
  col_le := by dsimp only; omega

/-- The least region with all cells of `r` and the cell `c`. -/
def extend (r : Region) (c : Coord) : Region where
  topLeft := (spanning r.topLeft c).topLeft
  bottomRight := (spanning r.bottomRight c).bottomRight
  row_le := by have := r.row_le; simp only [spanning]; omega
  col_le := by have := r.col_le; simp only [spanning]; omega

instance : Membership Coord Region where
  mem r c := (r.topLeft.row ≤ c.row ∧ c.row ≤ r.bottomRight.row) ∧
    (r.topLeft.col ≤ c.col ∧ c.col ≤ r.bottomRight.col)

theorem mem_def {r : Region} {c : Coord} :
    c ∈ r ↔ (r.topLeft.row ≤ c.row ∧ c.row ≤ r.bottomRight.row) ∧
      (r.topLeft.col ≤ c.col ∧ c.col ≤ r.bottomRight.col) := Iff.rfl

instance (c : Coord) (r : Region) : Decidable (c ∈ r) :=
  inferInstanceAs (Decidable ((_ ∧ _) ∧ (_ ∧ _)))

/-- How many rows the region has. -/
def height (r : Region) : Nat := r.bottomRight.row - r.topLeft.row + 1

/-- How many columns the region has. -/
def width (r : Region) : Nat := r.bottomRight.col - r.topLeft.col + 1

/-- The number of rows, counted in 32 bits. An axis has one place more than fits, so the count of a
region with all rows there are begins again at zero. -/
def rowCount (r : Region) : Nat := r.height % 0x100000000

/-- The number of columns, counted in 32 bits. -/
def colCount (r : Region) : Nat := r.width % 0x100000000

/-- The number of cells, counted in 64 bits as the product of the two. -/
def cellCount (r : Region) : Nat := r.rowCount * r.colCount

/-- Whether the region is a single cell. -/
def isSingle (r : Region) : Bool := decide (r.topLeft = r.bottomRight)

/-- The cell where `c` comes to lie when the cells of `r` are moved as `source` is moved to
`target`. There is none for a cell outside `r`, nor for one that the move takes off the axes. -/
def shift (r : Region) (source target c : Coord) : Option Coord :=
  if c ∈ r then
    Coord.ofInt? (c.row + (target.row - source.row)) (c.col + (target.col - source.col))
  else none

theorem topLeft_mem (r : Region) : r.topLeft ∈ r :=
  ⟨⟨Nat.le_refl _, r.row_le⟩, Nat.le_refl _, r.col_le⟩

theorem bottomRight_mem (r : Region) : r.bottomRight ∈ r :=
  ⟨⟨r.row_le, Nat.le_refl _⟩, r.col_le, Nat.le_refl _⟩

theorem mem_single {a c : Coord} : c ∈ single a ↔ c = a := by
  rw [mem_def, Coord.ext_iff]
  simp only [single]
  omega

/-- A cell is between two corners when it is between them on both axes. -/
theorem mem_spanning {a b c : Coord} :
    c ∈ spanning a b ↔ (min a.row b.row ≤ c.row ∧ c.row ≤ max a.row b.row) ∧
      (min a.col b.col ≤ c.col ∧ c.col ≤ max a.col b.col) := Iff.rfl

theorem shift_eq_some_iff {r : Region} {source target c t : Coord} :
    r.shift source target c = some t ↔
      c ∈ r ∧ (t.row : Int) = c.row + (target.row - source.row) ∧
        (t.col : Int) = c.col + (target.col - source.col) := by
  unfold shift
  split
  · rename_i h
    rw [Coord.ofInt?_eq_some_iff]
    simp only [h, true_and, eq_comm]
  · rename_i h
    simp [h]

end Region

end Worksheet
