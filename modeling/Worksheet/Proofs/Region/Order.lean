import Mathlib.Order.Basic
import Worksheet.Region

/-!
# Regions by inclusion

Regions are ordered by the cells that they have. The two corners of a region are among its cells and
the other cells lie between them, so the corners decide whether one region is in another
(`Region.le_iff_corners`), and two regions with the same cells are the same.

`Region.extend` is said to give the least region with a further cell. In this order that is one
equivalence, `Region.extend_le_iff`: the regions above the extended one are those that are above the
region and have the cell. What is to be known of extending follows from it, and no minimum or
maximum of a coordinate has to be looked at again.

## Main results

* `Region.mem_extend` — the cells of an extended region, axis by axis
* `Region.le_iff_corners` — inclusion is decided by two cells
* `Region.extend_le_iff` — extending gives a least region
* `Region.extend_of_mem` — a cell that is in the region adds nothing to it
-/

namespace Worksheet

namespace Region

variable {r q : Region} {c : Coord}

/-- Regions are ordered by the cells that they have. -/
instance : LE Region := ⟨fun r q => ∀ c ∈ r, c ∈ q⟩

theorem le_def : r ≤ q ↔ ∀ c ∈ r, c ∈ q := Iff.rfl

/-- A region is in another one if its corners are. -/
theorem le_iff_corners : r ≤ q ↔ r.topLeft ∈ q ∧ r.bottomRight ∈ q := by
  constructor
  · intro h
    exact ⟨h _ r.topLeft_mem, h _ r.bottomRight_mem⟩
  · rintro ⟨hfirst, hlast⟩ c hc
    rw [mem_def] at *
    omega

instance : PartialOrder Region where
  le_refl _ _ hc := hc
  le_trans _ _ _ hrq hqp c hc := hqp c (hrq c hc)
  le_antisymm r q hrq hqr := by
    rw [le_iff_corners, mem_def, mem_def] at hrq hqr
    exact Region.ext (Coord.ext (by omega) (by omega)) (Coord.ext (by omega) (by omega))

theorem single_le_iff : single c ≤ q ↔ c ∈ q := by
  rw [le_iff_corners]
  exact and_self_iff

/-! ### Extending -/

theorem mem_extend {e : Coord} :
    e ∈ r.extend c ↔
      (min r.topLeft.row c.row ≤ e.row ∧ e.row ≤ max r.bottomRight.row c.row) ∧
        (min r.topLeft.col c.col ≤ e.col ∧ e.col ≤ max r.bottomRight.col c.col) := Iff.rfl

/-- The extended region is the least one that is above the region and has the cell. -/
theorem extend_le_iff : r.extend c ≤ q ↔ r ≤ q ∧ c ∈ q := by
  have hrow := r.row_le
  have hcol := r.col_le
  rw [le_iff_corners, le_iff_corners]
  simp only [mem_def, extend, spanning]
  omega

theorem le_extend (r : Region) (c : Coord) : r ≤ r.extend c := (extend_le_iff.mp le_rfl).1

/-- A cell that is in the region adds nothing to it. -/
theorem extend_of_mem (h : c ∈ r) : r.extend c = r :=
  le_antisymm (extend_le_iff.mpr ⟨le_rfl, h⟩) (r.le_extend c)

end Region

end Worksheet
