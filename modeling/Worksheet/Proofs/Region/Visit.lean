import Worksheet.Coord.Ordered
import Worksheet.Proofs.Region.Walk

/-!
# Every cell is visited once

A walk through a region ends, and by then it has visited every cell of the region once, in order.
It is also known beforehand how many cells these are.

Places of an axis are counted in 32 bits, and so a walk could fail in a way that `Region.next?` does
not show. It answers `none` at the end of the region, and it would answer `none` as well if it
stepped past the end of an axis. Here the two are told apart: `Region.advance?` has one answer for
the end and another for a step that leaves the axis. A visit of the region is a walk by steps of
which none leaves the axis (`Region.Visits`). It is given by rules and not as a list that is cut off
after some number of steps, so a visit is finite and its end is the end of the walk.

Rows and columns are counted in 32 bits, and cells in 64 bits. `Region.rowCount` and its like do not
show either when this fails, as a count that does not fit begins again at zero. So here is counting
with every result checked. The only regions that have too many rows or columns are those that have
all there are; for every other region the counts in words are right.

## Main definitions

* `Region.advance?` — one step, with its addition checked
* `Region.Visits` — the cells that a walk visits from its present place to its end
* `Region.rowCount?`, `Region.colCount?`, `Region.cellCount?` — counting with every result checked

## Main results

* `Region.advance?_eq_some` — no step leaves the axis
* `Region.visits_iff_eq_cells` — the walk ends, and visits the cells of the region
* `Region.cellCount?_eq_some_iff` — when the cells can be counted, and what the count is
* `Region.cellCount_eq_of_cellCount?` — a count that can be checked is the one in words
* `Region.cellCount_eq_zero_iff` — every other count is zero in words
* `Region.visits_iff` — walking and counting, all in one
-/

namespace Worksheet

namespace Region

variable {r : Region} {c : Coord} {cells others : List Coord} {place : Option Coord}

/-! ### Visits -/

/-- The step after `c`, with its addition checked. There is no answer if it leaves the axis; the
answer is `none` if the walk is at its end. -/
def advance? (r : Region) (c : Coord) : Option (Option Coord) :=
  if c.col < r.bottomRight.col then (Coord.ofNat? c.row (c.col + 1)).map some
  else if c.row < r.bottomRight.row then (Coord.ofNat? (c.row + 1) r.topLeft.col).map some
  else some none

/-- The walk that is at `place` visits the cells of a list, one after another, and then ends. No
step leaves the axis. -/
inductive Visits (r : Region) : Option Coord → List Coord → Prop
  | done : Visits r none []
  | step {c : Coord} {next : Option Coord} {rest : List Coord} (hstep : r.advance? c = some next)
      (hrest : Visits r next rest) : Visits r (some c) (c :: rest)

/-- No step from a cell of the region leaves the axis. -/
theorem advance?_eq_some (hc : c ∈ r) : r.advance? c = some (r.next? c) := by
  have hrow := r.bottomRight.row_lt
  have hcol := r.bottomRight.col_lt
  have hfirst := r.topLeft.col_lt
  rw [mem_def] at hc
  unfold advance? next?
  split
  · rw [Coord.ofNat?, dif_pos (by omega)]
    rfl
  · split
    · rw [Coord.ofNat?, dif_pos (by omega)]
      rfl
    · rfl

/-- From each place there is only one visit. -/
theorem Visits.eq (h : r.Visits place cells) (h' : r.Visits place others) : cells = others := by
  induction h generalizing others with
  | done =>
    cases h'
    rfl
  | step hstep _ ih =>
    cases h' with
    | step hstep' hrest' =>
      rw [hstep, Option.some.injEq] at hstep'
      subst hstep'
      rw [ih hrest']

/-- A walk that does not use up its steps is a visit. -/
theorem visits_walk {n : Nat} (hplace : ∀ c ∈ place, c ∈ r)
    (hlength : (r.walk (n + 1) place).length ≤ n) : r.Visits place (r.walk (n + 1) place) := by
  induction n generalizing place with
  | zero =>
    cases place with
    | none => exact .done
    | some c => cases hlength
  | succ n ih =>
    cases place with
    | none => exact .done
    | some c =>
      have hc : c ∈ r := hplace c rfl
      have hnext : ∀ d ∈ r.next? c, d ∈ r := fun d hd => (next?_eq_some hc hd).1
      exact .step (advance?_eq_some hc) (ih hnext (Nat.le_of_succ_le_succ hlength))

/-- **The walk ends, and visits the cells of the region.** -/
theorem visits_iff_eq_cells : r.Visits (some r.topLeft) cells ↔ cells = r.cells := by
  have hwalk : r.walk (r.height * r.width + 1) (some r.topLeft) = r.cells :=
    firstCells_of_le (Nat.le_succ _)
  have hvisits : r.Visits (some r.topLeft) r.cells := by
    rw [← hwalk]
    refine visits_walk (fun c hc => ?_) (Nat.le_of_eq ?_)
    · cases hc
      exact r.topLeft_mem
    · rw [hwalk, length_cells]
  constructor
  · intro h
    exact h.eq hvisits
  · rintro rfl
    exact hvisits

theorem eq_cells_iff : cells = r.cells ↔ cells.Pairwise (· < ·) ∧ ∀ c, c ∈ cells ↔ c ∈ r := by
  constructor
  · rintro rfl
    exact ⟨r.pairwise_cells, fun c => mem_cells⟩
  · rintro ⟨hordered, hmem⟩
    exact Coord.eq_of_mem_iff id hordered r.pairwise_cells fun c => by rw [hmem, mem_cells]

/-! ### Counts -/

/-- The number, if it is below the limit of the words in which it is counted. -/
def counted? (limit : Nat) : Nat → Option Nat := Option.guard fun n => n < limit

/-- How many places there are from `first` to `last`, in 32 bits. -/
def placeCount? (first last : Nat) : Option Nat :=
  if first ≤ last then counted? 0x100000000 (last - first + 1) else none

/-- How many rows the region has, in 32 bits. -/
def rowCount? (r : Region) : Option Nat := placeCount? r.topLeft.row r.bottomRight.row

/-- How many columns the region has, in 32 bits. -/
def colCount? (r : Region) : Option Nat := placeCount? r.topLeft.col r.bottomRight.col

/-- How many cells the region has, in 64 bits. -/
def cellCount? (r : Region) : Option Nat := do
  counted? 0x10000000000000000 ((← r.rowCount?) * (← r.colCount?))

/-- The region goes from the first to the last row of the axis. -/
def HasAllRows (r : Region) : Prop := r.topLeft.row = 0 ∧ r.bottomRight.row = 0xffffffff

/-- The region goes from the first to the last column of the axis. -/
def HasAllCols (r : Region) : Prop := r.topLeft.col = 0 ∧ r.bottomRight.col = 0xffffffff

theorem counted?_eq_some_iff {limit n m : Nat} :
    counted? limit n = some m ↔ m = n ∧ m < limit := by
  rw [counted?, Option.guard_eq_some_iff, decide_eq_true_iff]
  constructor
  · rintro ⟨rfl, h⟩
    exact ⟨rfl, h⟩
  · rintro ⟨rfl, h⟩
    exact ⟨rfl, h⟩

theorem placeCount?_eq_some_iff {first last n : Nat} (h : first ≤ last) :
    placeCount? first last = some n ↔ n = last - first + 1 ∧ n < 0x100000000 := by
  rw [placeCount?, if_pos h, counted?_eq_some_iff]

/-- The rows can be counted unless the region has all there are. -/
theorem rowCount?_eq_some_iff {n : Nat} :
    r.rowCount? = some n ↔ n = r.height ∧ ¬ r.HasAllRows := by
  have hlast := r.bottomRight.row_lt
  rw [rowCount?, placeCount?_eq_some_iff r.row_le, height, HasAllRows]
  omega

/-- The columns can be counted unless the region has all there are. -/
theorem colCount?_eq_some_iff {n : Nat} :
    r.colCount? = some n ↔ n = r.width ∧ ¬ r.HasAllCols := by
  have hlast := r.bottomRight.col_lt
  rw [colCount?, placeCount?_eq_some_iff r.col_le, width, HasAllCols]
  omega

/-- The cells can be counted if the rows and the columns can, as the product of two numbers of 32
bits is one of 64. -/
theorem cellCount?_eq_some_iff {n : Nat} :
    r.cellCount? = some n ↔ n = r.height * r.width ∧ ¬ r.HasAllRows ∧ ¬ r.HasAllCols := by
  simp only [cellCount?, Option.bind_eq_bind, Option.bind_eq_some_iff, rowCount?_eq_some_iff,
    colCount?_eq_some_iff, counted?_eq_some_iff]
  constructor
  · rintro ⟨_, ⟨rfl, hrows⟩, _, ⟨rfl, hcols⟩, rfl, -⟩
    exact ⟨rfl, hrows, hcols⟩
  · rintro ⟨rfl, hrows, hcols⟩
    have hheight := ((placeCount?_eq_some_iff r.row_le).mp
      (rowCount?_eq_some_iff.mpr ⟨rfl, hrows⟩)).2
    have hwidth := ((placeCount?_eq_some_iff r.col_le).mp
      (colCount?_eq_some_iff.mpr ⟨rfl, hcols⟩)).2
    have hproduct : r.height * r.width < 0x100000000 * 0x100000000 :=
      Nat.mul_lt_mul'' hheight hwidth
    exact ⟨_, ⟨rfl, hrows⟩, _, ⟨rfl, hcols⟩, rfl, hproduct⟩

theorem mod_eq_of_placeCount? {first last n : Nat} (h : first ≤ last)
    (hn : placeCount? first last = some n) : (last - first + 1) % 0x100000000 = n := by
  obtain ⟨rfl, hlt⟩ := (placeCount?_eq_some_iff h).mp hn
  exact Nat.mod_eq_of_lt hlt

theorem rowCount_eq_of_rowCount? {n : Nat} (h : r.rowCount? = some n) : r.rowCount = n :=
  mod_eq_of_placeCount? r.row_le h

theorem colCount_eq_of_colCount? {n : Nat} (h : r.colCount? = some n) : r.colCount = n :=
  mod_eq_of_placeCount? r.col_le h

/-- A count that can be checked is the one in words. -/
theorem cellCount_eq_of_cellCount? {n : Nat} (h : r.cellCount? = some n) : r.cellCount = n := by
  obtain ⟨rfl, hrows, hcols⟩ := cellCount?_eq_some_iff.mp h
  rw [cellCount, rowCount_eq_of_rowCount? (rowCount?_eq_some_iff.mpr ⟨rfl, hrows⟩),
    colCount_eq_of_colCount? (colCount?_eq_some_iff.mpr ⟨rfl, hcols⟩)]

/-- The count of cells in words begins again at zero for the regions that cannot be counted, and for
no other region. -/
theorem cellCount_eq_zero_iff : r.cellCount = 0 ↔ r.HasAllRows ∨ r.HasAllCols := by
  have hlastRow := r.bottomRight.row_lt
  have hlastCol := r.bottomRight.col_lt
  rw [cellCount, Nat.mul_eq_zero, rowCount, colCount, height, width, HasAllRows, HasAllCols]
  omega

/-- **Every cell is visited once, and the number of cells is known.** The walk through a region ends
and makes no step that leaves the axis. What it visits are the cells of the region, each once and
row by row, and the first cells that are asked for are the first ones that it visits. The rows and
the columns are counted without overflow unless the region has all there are, and then the number of
cells is how many are visited. What is counted without overflow is what the words hold. -/
theorem visits_iff (r : Region) :
    (∃ cells, r.Visits (some r.topLeft) cells) ∧
    (∀ cells, r.Visits (some r.topLeft) cells ↔
      cells.Pairwise (· < ·) ∧ ∀ c, c ∈ cells ↔ c ∈ r) ∧
    (∀ cells, r.Visits (some r.topLeft) cells → ∀ n, r.firstCells n = cells.take n) ∧
    (∀ n, r.rowCount? = some n ↔ n = r.height ∧ ¬ r.HasAllRows) ∧
    (∀ n, r.colCount? = some n ↔ n = r.width ∧ ¬ r.HasAllCols) ∧
    (∀ cells, r.Visits (some r.topLeft) cells → ∀ n,
      r.cellCount? = some n ↔ n = cells.length ∧ ¬ r.HasAllRows ∧ ¬ r.HasAllCols) ∧
    (∀ n, r.rowCount? = some n → r.rowCount = n) ∧
    (∀ n, r.colCount? = some n → r.colCount = n) ∧
    (∀ n, r.cellCount? = some n → r.cellCount = n) := by
  refine ⟨⟨r.cells, visits_iff_eq_cells.mpr rfl⟩, fun cells => ?_, fun cells h => ?_,
    fun n => rowCount?_eq_some_iff, fun n => colCount?_eq_some_iff, fun cells h => ?_,
    fun n => rowCount_eq_of_rowCount?, fun n => colCount_eq_of_colCount?,
    fun n => cellCount_eq_of_cellCount?⟩
  · rw [visits_iff_eq_cells, eq_cells_iff]
  · rw [visits_iff_eq_cells.mp h]
    exact r.firstCells_eq_take
  · intro n
    rw [visits_iff_eq_cells.mp h, length_cells]
    exact cellCount?_eq_some_iff

namespace LastCorner

/-- The cell with the given row and column. -/
def cell (row col : Nat) : Coord := (Coord.ofNat? row col).getD .origin

/-- The last two columns of the last two rows. -/
def region : Region := .spanning (cell 0xffffffff 0xffffffff) (cell 0xfffffffe 0xfffffffe)

/-- Its cells, row by row. -/
def visited : List Coord :=
  [cell 0xfffffffe 0xfffffffe, cell 0xfffffffe 0xffffffff,
    cell 0xffffffff 0xfffffffe, cell 0xffffffff 0xffffffff]

end LastCorner

/-- The walk goes from the last column to the next row, and it ends in the last corner. -/
theorem lastCorner_visits :
    LastCorner.region.Visits (some LastCorner.region.topLeft) LastCorner.visited ∧
    LastCorner.region.firstCells 5 = LastCorner.visited ∧
    ¬ LastCorner.region.HasAllRows ∧ ¬ LastCorner.region.HasAllCols ∧
    LastCorner.region.cellCount? = some 4 ∧ LastCorner.region.cellCount = 4 := by
  obtain ⟨-, -, hfirst, -, -, hcount, -, -, hwords⟩ := visits_iff LastCorner.region
  have hvisits : LastCorner.region.Visits (some LastCorner.region.topLeft) LastCorner.visited :=
    .step (by decide) (.step (by decide) (.step (by decide) (.step (by decide) .done)))
  have hrows : ¬ LastCorner.region.HasAllRows := fun h => absurd h.1 (by decide)
  have hcols : ¬ LastCorner.region.HasAllCols := fun h => absurd h.1 (by decide)
  have hfour := (hcount _ hvisits 4).mpr ⟨rfl, hrows, hcols⟩
  exact ⟨hvisits, hfirst _ hvisits 5, hrows, hcols, hfour, hwords 4 hfour⟩

end Region

end Worksheet
