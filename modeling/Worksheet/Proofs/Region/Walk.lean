import Worksheet.Region.Cells

/-!
# The walk through a region

`Region.firstCells` steps through a region by `Region.next?`, and `Region.cells` lists its rows one
after another. Both give the same cells in the same order, for as many steps as are taken.

The proof does not follow rows and columns. It only uses that a step leads to the least cell of the
region that is still to come (`Region.next?_eq_some`, `Region.not_lt_of_next?_eq_none`). In a list
of all cells in increasing order, that is the next entry.

## Main results

* `Region.firstCells_eq_take` — the first `n` steps give the first `n` cells
* `Region.length_cells` — a region has as many cells as its rows and columns say
* `Region.firstCells_of_le` — with enough steps the walk gives all cells, and then ends
-/

namespace Worksheet

namespace Region

variable {r : Region} {c d : Coord}

/-! ### One step -/

/-- A step leads to the least cell of the region after the present one. -/
theorem next?_eq_some (hc : c ∈ r) (h : r.next? c = some d) :
    d ∈ r ∧ c < d ∧ ∀ e ∈ r, c < e → ¬ e < d := by
  rw [mem_def] at hc
  unfold next? at h
  split at h
  · -- one column to the right
    rw [Coord.ofNat?_eq_some_iff] at h
    refine ⟨by rw [mem_def]; omega, by rw [Coord.lt_def]; omega, fun e _ hce hed => ?_⟩
    rw [Coord.lt_def] at hce hed
    omega
  · split at h
    · -- to the beginning of the next row
      rw [Coord.ofNat?_eq_some_iff] at h
      have hcol := r.col_le
      refine ⟨by rw [mem_def]; omega, by rw [Coord.lt_def]; omega, fun e he hce hed => ?_⟩
      rw [mem_def] at he
      rw [Coord.lt_def] at hce hed
      omega
    · cases h

/-- Where there is no step, there is no further cell. -/
theorem not_lt_of_next?_eq_none (hc : c ∈ r) (h : r.next? c = none) : ∀ e ∈ r, ¬ c < e := by
  intro e he hce
  have hrow := r.bottomRight.row_lt
  have hcol := r.bottomRight.col_lt
  rw [mem_def] at hc he
  rw [Coord.lt_def] at hce
  unfold next? at h
  split at h
  · rw [Coord.ofNat?, dif_pos (by omega)] at h
    cases h
  · split at h
    · rw [Coord.ofNat?, dif_pos (by omega)] at h
      cases h
    · omega

/-! ### All steps -/

/-- If all cells of the region are listed in order and the walk stands at one of them, it goes on
with the cells listed after it. -/
theorem walk_eq_take (before : List Coord) {after : List Coord}
    (hcells : r.cells = before ++ c :: after) (n : Nat) :
    r.walk n (some c) = (c :: after).take n := by
  induction n generalizing before c after with
  | zero => rfl
  | succ n ih =>
    have hsorted := r.pairwise_cells
    rw [hcells] at hsorted
    obtain ⟨-, hfrom, hbefore⟩ := List.pairwise_append.mp hsorted
    obtain ⟨hafter, hrest⟩ := List.pairwise_cons.mp hfrom
    have hlisted : ∀ e, e ∈ r ↔ e ∈ before ∨ e = c ∨ e ∈ after := fun e => by
      rw [← mem_cells, hcells, List.mem_append, List.mem_cons]
    have hc : c ∈ r := (hlisted c).mpr (.inr (.inl rfl))
    have hlater : ∀ e ∈ r, c < e → e ∈ after := by
      intro e he hce
      rcases (hlisted e).mp he with hmem | rfl | hmem
      · exact absurd (Coord.lt_trans (hbefore e hmem c (List.mem_cons_self ..)) hce)
          (Coord.lt_irrefl e)
      · exact absurd hce (Coord.lt_irrefl e)
      · exact hmem
    rw [walk, List.take_succ_cons]
    congr 1
    cases hnext : r.next? c with
    | none =>
      have hend := not_lt_of_next?_eq_none hc hnext
      cases after with
      | nil => cases n <;> rfl
      | cons e rest =>
        have he : e ∈ r := (hlisted e).mpr (.inr (.inr (List.mem_cons_self ..)))
        exact absurd (hafter e (List.mem_cons_self ..)) (hend e he)
    | some d =>
      obtain ⟨hd, hcd, hleast⟩ := next?_eq_some hc hnext
      cases after with
      | nil => cases hlater d hd hcd
      | cons e rest =>
        have he : e ∈ r := (hlisted e).mpr (.inr (.inr (List.mem_cons_self ..)))
        -- the step leads to the first cell listed, as both are the least one after `c`
        have hde : d = e := by
          rcases List.mem_cons.mp (hlater d hd hcd) with heq | hmem
          · exact heq
          · exact absurd ((List.pairwise_cons.mp hrest).1 d hmem)
              (hleast e he (hafter e (List.mem_cons_self ..)))
        subst hde
        exact ih (before ++ [c]) (by rw [hcells, List.append_assoc]; rfl)

/-- The first cell listed is the one in the top left corner. -/
theorem exists_cells_eq_cons (r : Region) : ∃ rest, r.cells = r.topLeft :: rest := by
  cases hcells : r.cells with
  | nil =>
    have hmem := mem_cells.mpr r.topLeft_mem
    rw [hcells] at hmem
    cases hmem
  | cons c rest =>
    have hc : c ∈ r := mem_cells.mp (by rw [hcells]; exact List.mem_cons_self ..)
    have hmem := mem_cells.mpr r.topLeft_mem
    have hsorted := r.pairwise_cells
    rw [hcells] at hmem hsorted
    rcases List.mem_cons.mp hmem with rfl | hlater
    · exact ⟨rest, rfl⟩
    · have hlt := (List.pairwise_cons.mp hsorted).1 _ hlater
      rw [mem_def] at hc
      rw [Coord.lt_def] at hlt
      omega

/-- **The walk lists the cells of the region**, as many as it takes steps. -/
theorem firstCells_eq_take (r : Region) (n : Nat) : r.firstCells n = r.cells.take n := by
  obtain ⟨rest, hrest⟩ := r.exists_cells_eq_cons
  rw [firstCells, hrest]
  exact walk_eq_take [] hrest n

/-! ### How many steps there are -/

theorem length_rowCells {row : Nat} (hrow : row ≤ r.bottomRight.row) :
    (r.rowCells row).length = r.width := by
  have hall : ∀ j ∈ List.range' r.topLeft.col r.width, (Coord.ofNat? row j).isSome := by
    intro j hj
    have hlast := r.bottomRight.row_lt
    have hright := r.bottomRight.col_lt
    have hcol := r.col_le
    rw [List.mem_range'_1, width] at hj
    rw [Coord.ofNat?, dif_pos (by omega)]
    rfl
  rw [rowCells, List.filterMap_length_eq_length.mpr hall, List.length_range']

/-- A region has as many cells as rows and columns together say. -/
theorem length_cells (r : Region) : r.cells.length = r.height * r.width := by
  have hrows : ∀ i ∈ List.range' r.topLeft.row r.height, (r.rowCells i).length = r.width := by
    intro i hi
    have hrow := r.row_le
    rw [List.mem_range'_1, height] at hi
    exact length_rowCells (by omega)
  rw [cells, List.length_flatMap, List.map_congr_left hrows, List.map_const',
    List.sum_replicate_nat, List.length_range']

/-- With as many steps as there are cells the walk lists all of them, and it does not go on. -/
theorem firstCells_of_le {n : Nat} (h : r.height * r.width ≤ n) : r.firstCells n = r.cells := by
  rw [firstCells_eq_take, List.take_of_length_le (by rw [length_cells]; exact h)]

end Region

end Worksheet
