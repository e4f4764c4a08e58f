import Worksheet.Proofs.Evaluation
import Worksheet.Sheet.Series

/-!
# The series of a chart, row by row

A chart reads its region through two scans, one for each of the two columns at the edges. Here the
same numbers are read without a scan: go down the rows of the region and take the number in the
column, if there is one. As the rows are counted and not searched for, it is plain from this reading
that the numbers are those of the column, from top to bottom, and that a row without a number is
passed over. The two series are read apart, so a row may have a part in one of them only.

The series depend on the numbers in the two columns and on nothing else. What a chart shows is not
changed by a cell between the columns, beside them or below the region, and neither by texts,
formulas and charts that come or go in the columns themselves.

## Main definitions

* `Region.InEdgeColumn` — the cells in the first and in the last column of a region
* `Sheet.columnNumbers` — the numbers in one column, from top to bottom

## Main results

* `Sheet.numbers_columnStrip` — to scan a column is to go down its rows
* `Sheet.series_congr` — the series depend on the numbers in the two columns only
* `Sheet.series_walk` — the series of a region are the numbers of its two columns
-/

namespace Worksheet

namespace Region

variable {r : Region} {c : Coord}

/-- The cell is in a row of the region, and in its first or in its last column. -/
def InEdgeColumn (r : Region) (c : Coord) : Prop :=
  (r.topLeft.row ≤ c.row ∧ c.row ≤ r.bottomRight.row) ∧
    (c.col = r.topLeft.col ∨ c.col = r.bottomRight.col)

theorem mem_columnStrip {d : Coord} :
    c ∈ r.columnStrip d ↔ (r.topLeft.row ≤ c.row ∧ c.row ≤ r.bottomRight.row) ∧ c.col = d.col := by
  rw [mem_def]
  simp only [columnStrip]
  omega

theorem inEdgeColumn_iff :
    r.InEdgeColumn c ↔ c ∈ r.columnStrip r.topLeft ∨ c ∈ r.columnStrip r.bottomRight := by
  rw [mem_columnStrip, mem_columnStrip, InEdgeColumn, and_or_left]

/-- A column has one cell in each row. -/
theorem cells_columnStrip (r : Region) (c : Coord) :
    (r.columnStrip c).cells =
      (List.range' r.topLeft.row r.height).filterMap fun row => Coord.ofNat? row c.col := by
  have hrow : ∀ row, (r.columnStrip c).rowCells row = (Coord.ofNat? row c.col).toList := by
    intro row
    have hcount : (r.columnStrip c).width = 1 := by simp [width, columnStrip]
    rw [rowCells, hcount, List.range'_one]
    show [c.col].filterMap (Coord.ofNat? row) = _
    cases hcell : Coord.ofNat? row c.col <;> simp [hcell]
  rw [cells, List.filterMap_eq_flatMap_toList]
  exact List.flatMap_congr fun row _ => hrow row

end Region

namespace Sheet

variable {s t : Sheet} {r : Region} {c : Coord}

/-- The numbers that a column holds in the rows of a region, from top to bottom. -/
def columnNumbers (s : Sheet) (r : Region) (col : Nat) : List Binary64 :=
  (List.range' r.topLeft.row r.height).filterMap fun row =>
    (Coord.ofNat? row col).bind s.number?

/-- To scan a column is to go down its rows. -/
theorem numbers_columnStrip (s : Sheet) (r : Region) (c : Coord) :
    s.numbers (r.columnStrip c) = s.columnNumbers r c.col := by
  rw [numbers_eq_filterMap_cells, Region.cells_columnStrip, List.filterMap_filterMap, columnNumbers]

/-- The series depend on the numbers in the two columns only. -/
theorem series_congr (h : ∀ c, r.InEdgeColumn c → t.number? c = s.number? c) :
    t.series r = s.series r := by
  have hfirst : t.SameNumbers s (r.columnStrip r.topLeft) := fun c hc =>
    h c (Region.inEdgeColumn_iff.mpr (.inl hc))
  have hlast : t.SameNumbers s (r.columnStrip r.bottomRight) := fun c hc =>
    h c (Region.inEdgeColumn_iff.mpr (.inr hc))
  rw [series, numbers_congr hfirst, numbers_congr hlast, series]

/-- They stay when a cell is changed that is not in the columns, or in which no number comes or
goes. -/
theorem series_put {x : Option Content}
    (h : ¬ r.InEdgeColumn c ∨ (s.number? c = none ∧ x.bind Content.number? = none)) :
    (s.put c x).series r = s.series r := by
  refine series_congr fun d hd => ?_
  rcases h with hout | ⟨hold, hnew⟩
  · have hne : d ≠ c := by
      rintro rfl
      exact hout hd
    rw [number?, get?_put_of_ne s x hne, number?]
  · exact number?_put hold hnew d

/-- **The series of a region are the numbers of its two columns**, each from the first row to the
last. So they are the same if there is only one column. They stay when a cell is changed that is not
in the columns, or in which no number comes or goes. It makes no difference which way the columns
are scanned, nor in which order the stored cells are searched. -/
theorem series_walk (s : Sheet) (r : Region) :
    s.series r =
      ⟨s.columnNumbers r r.topLeft.col, s.columnNumbers r r.bottomRight.col⟩ ∧
    (r.topLeft.col = r.bottomRight.col → (s.series r).labels = (s.series r).values) ∧
    (∀ t : Sheet, (∀ c, r.InEdgeColumn c → t.number? c = s.number? c) →
      t.series r = s.series r) ∧
    (∀ (c : Coord) (x : Option Content),
      (¬ r.InEdgeColumn c ∨ (s.number? c = none ∧ x.bind Content.number? = none)) →
        (s.put c x).series r = s.series r) ∧
    (∀ listing : List (Coord × Content), listing.Perm s.entries → ∀ c : Coord,
      ∀ found ∈ [s.scanListed listing (r.columnStrip c), s.scanCells (r.columnStrip c),
          scanEntries listing (r.columnStrip c)],
        found.filterMap (fun e => e.2.number?) = s.columnNumbers r c.col) := by
  have hseries : s.series r =
      ⟨s.columnNumbers r r.topLeft.col, s.columnNumbers r r.bottomRight.col⟩ := by
    rw [series, numbers_columnStrip, numbers_columnStrip]
  refine ⟨hseries, fun hcol => ?_, fun t => series_congr, fun c x => series_put,
    fun listing hlisting c found hfound => ?_⟩
  · rw [hseries, hcol]
  · rw [eq_scan_of_mem hlisting hfound, ← numbers_columnStrip, numbers]

namespace Gaps

/-- The cell `B1`. -/
def topRight : Coord := (Coord.ofNat? 0 1).getD .origin

/-- The region `A1:C3`. -/
def region : Region := .spanning .origin ((Coord.ofNat? 2 2).getD .origin)

/-- The first column holds a number, a text and another number. The last one holds only a number, in
its last row, and between them there is one more. -/
def sheet : Sheet :=
  ((((Sheet.empty.set .origin (.number (.ofNat 1))).set topRight (.number (.ofNat 7))).set
    ((Coord.ofNat? 1 0).getD .origin) (.text "x")).set
    ((Coord.ofNat? 2 0).getD .origin) (.number (.ofNat 3))).set
    region.bottomRight (.number (.ofNat 9))

end Gaps

/-- The series differ in length. They stay when the number between the columns is removed, and the
stored cells may be searched in reverse order. -/
theorem gaps_series :
    Gaps.sheet.series Gaps.region = ⟨[.ofNat 1, .ofNat 3], [.ofNat 9]⟩ ∧
    ¬ Gaps.region.InEdgeColumn Gaps.topRight ∧
    (Gaps.sheet.put Gaps.topRight none).series Gaps.region = Gaps.sheet.series Gaps.region ∧
    Gaps.sheet.entries.reverse.Perm Gaps.sheet.entries ∧
    (scanEntries Gaps.sheet.entries.reverse (Gaps.region.columnStrip .origin)).filterMap
      (fun e => e.2.number?) = [.ofNat 1, .ofNat 3] := by
  obtain ⟨hseries, -, -, hput, hscanned⟩ := series_walk Gaps.sheet Gaps.region
  have hread : Gaps.sheet.series Gaps.region = ⟨[.ofNat 1, .ofNat 3], [.ofNat 9]⟩ := by
    decide +kernel
  have hbetween : ¬ Gaps.region.InEdgeColumn Gaps.topRight := by
    rintro ⟨-, hcol⟩
    revert hcol
    decide
  have hlisting := List.reverse_perm Gaps.sheet.entries
  refine ⟨hread, hbetween, hput _ none (.inl hbetween), hlisting, ?_⟩
  rw [hscanned _ hlisting .origin _ (by simp)]
  exact (congrArg Series.labels (hseries.symm.trans hread))

end Sheet

end Worksheet
