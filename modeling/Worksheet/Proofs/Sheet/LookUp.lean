import Worksheet.Proofs.Sheet.Scan

/-!
# Looking up after a change

What a cell holds after each of the operations on a sheet, in terms of what it held before. The
lemmas for setting and erasing one cell stand beside their definitions; here are the ones for the
operations that are made of them, and for those that go through a whole region.

## Main results

* `Sheet.mem_scan`, `Sheet.pairwise_scan` — a scan lists the contents of the cells of a region, in
  order
* `Sheet.get?_put`, `Sheet.get?_foldl_erase`, `Sheet.get?_clear` — one cell, a list of cells and a
  region changed
-/

namespace Worksheet

namespace Sheet

theorem mem_scan {s : Sheet} {r : Region} {e : Coord × Content} :
    e ∈ s.scan r ↔ s.get? e.1 = some e.2 ∧ e.1 ∈ r := by
  rw [scan_eq_scanCells, mem_scanCells]

theorem pairwise_scan (s : Sheet) (r : Region) : (s.scan r).Pairwise fun a b => a.1 < b.1 := by
  rw [scan_eq_scanCells]
  exact pairwise_scanCells s r

theorem get?_put (s : Sheet) (c : Coord) (x : Option Content) (d : Coord) :
    (s.put c x).get? d = if d = c then x else s.get? d := by
  cases x with
  | none => exact get?_erase s c d
  | some content => exact get?_set s c content d

theorem get?_put_self (s : Sheet) (c : Coord) (x : Option Content) : (s.put c x).get? c = x := by
  rw [get?_put, if_pos rfl]

theorem get?_put_of_ne {c d : Coord} (s : Sheet) (x : Option Content) (h : d ≠ c) :
    (s.put c x).get? d = s.get? d := by
  rw [get?_put, if_neg h]

/-- The cells of a list are emptied, in whatever order, and every other cell stays. -/
theorem get?_foldl_erase (cells : List Coord) (s : Sheet) (t : Coord) :
    (cells.foldl erase s).get? t = if t ∈ cells then none else s.get? t := by
  induction cells generalizing s with
  | nil => simp
  | cons c rest ih =>
    rw [List.foldl_cons, ih, get?_erase]
    by_cases hrest : t ∈ rest
    · simp [hrest]
    · by_cases hc : t = c
      · simp [hc]
      · simp [hrest, hc]

/-- The cells of a region are emptied, and every other cell stays. -/
theorem get?_clear (s : Sheet) (r : Region) (c : Coord) :
    (s.clear r).1.get? c = if c ∈ r then none else s.get? c := by
  rw [clear, get?_foldl_erase]
  by_cases hc : c ∈ r
  · cases hx : s.get? c with
    | none => simp [hc]
    | some x =>
      have hmem : c ∈ (s.scan r).map Prod.fst :=
        List.mem_map.mpr ⟨(c, x), mem_scan.mpr ⟨hx, hc⟩, rfl⟩
      rw [if_pos hmem, if_pos hc]
  · have hnot : c ∉ (s.scan r).map Prod.fst := fun hmem => by
      obtain ⟨e, he, rfl⟩ := List.mem_map.mp hmem
      exact hc (mem_scan.mp he).2
    rw [if_neg hnot, if_neg hc]

end Sheet

end Worksheet
