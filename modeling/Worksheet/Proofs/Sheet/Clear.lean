import Mathlib.Data.List.Basic
import Worksheet.Proofs.Sheet.LookUp

/-!
# Emptying a region

To empty a region is to scan it and to erase the cells that are found, one after another. A cell
that the scan missed would be left behind, and one that it came to twice would be listed twice. Both
are seen from the entries of the sheet: the scan finds the entries in the region
(`Sheet.scan_eq_filter`) and those outside remain (`Sheet.entries_clear`), so the entries are split
in two and none is lost.

What is left is described cell by cell by `Sheet.Cleared`, and the description leaves nothing open.
It says nothing about how the cells are found, so it holds of every way to scan the region.

## Main definitions

* `Sheet.Cleared` — what is left of a sheet when a region is emptied, and which cells are listed
* `Sheet.eraseFound` — the sheet with the cells erased that a scan found

## Main results

* `Sheet.size_clear` — as many entries are gone as cells are listed
* `Sheet.clear_clear` — a region that is emptied again is empty already
* `Sheet.clear_eq_iff` — emptying a region empties its cells and no others
-/

namespace Worksheet

namespace Sheet

variable {s : Sheet} {r : Region} {c : Coord} {result result' : Sheet × List Coord}

/-- The sheet that is left, and the cells that are listed, when the region `r` of `s` is emptied. -/
structure Cleared (s : Sheet) (r : Region) (result : Sheet × List Coord) : Prop where
  /-- The cells of the region hold nothing. -/
  emptied : ∀ c ∈ r, result.1.get? c = none
  /-- Every other cell is as it was. -/
  kept : ∀ c, c ∉ r → result.1.get? c = s.get? c
  /-- The cells are listed row by row, and each once. -/
  ordered : result.2.Pairwise (· < ·)
  /-- They are the cells of the region that held something. -/
  listed : ∀ c, c ∈ result.2 ↔ c ∈ r ∧ s.get? c ≠ none

/-- Nothing is left open: two results of emptying the same region are the same. -/
theorem Cleared.eq (h : Cleared s r result) (h' : Cleared s r result') : result = result' := by
  refine Prod.ext (ext_get? fun c => ?_) ?_
  · by_cases hc : c ∈ r
    · rw [h.emptied c hc, h'.emptied c hc]
    · rw [h.kept c hc, h'.kept c hc]
  · exact Coord.eq_of_mem_iff id h.ordered h'.ordered fun c => by rw [h.listed, h'.listed]

/-! ### The listed cells -/

theorem mem_clear : c ∈ (s.clear r).2 ↔ c ∈ r ∧ s.get? c ≠ none := by
  rw [clear, List.mem_map, Option.ne_none_iff_exists']
  constructor
  · rintro ⟨e, he, rfl⟩
    obtain ⟨hx, hc⟩ := mem_scan.mp he
    exact ⟨hc, e.2, hx⟩
  · rintro ⟨hc, x, hx⟩
    exact ⟨(c, x), mem_scan.mpr ⟨hx, hc⟩, rfl⟩

theorem pairwise_clear (s : Sheet) (r : Region) : (s.clear r).2.Pairwise (· < ·) := by
  rw [clear, List.pairwise_map]
  exact pairwise_scan s r

theorem cleared_clear (s : Sheet) (r : Region) : Cleared s r (s.clear r) where
  emptied c hc := by rw [get?_clear, if_pos hc]
  kept c hc := by rw [get?_clear, if_neg hc]
  ordered := pairwise_clear s r
  listed _ := mem_clear

/-! ### The entries -/

/-- A scan finds the entries in the region. -/
theorem scan_eq_filter (s : Sheet) (r : Region) :
    s.scan r = s.entries.filter fun e => decide (e.1 ∈ r) := by
  refine eq_of_mem_iff (pairwise_scan s r) (s.sorted.filter _) fun e => ?_
  rw [mem_scan, get?_eq_some_iff, List.mem_filter, decide_eq_true_eq]

/-- The entries outside the region remain. -/
theorem entries_clear (s : Sheet) (r : Region) :
    (s.clear r).1.entries = s.entries.filter fun e => !decide (e.1 ∈ r) := by
  refine eq_of_mem_iff (s.clear r).1.sorted (s.sorted.filter _) fun e => ?_
  rw [← get?_eq_some_iff, get?_clear, List.mem_filter, ← get?_eq_some_iff]
  by_cases he : e.1 ∈ r <;> simp [he]

/-- As many entries are gone as cells are listed. -/
theorem size_clear (s : Sheet) (r : Region) :
    (s.clear r).1.size + (s.clear r).2.length = s.size := by
  have hlisted : (s.clear r).2.length = (s.entries.filter fun e => decide (e.1 ∈ r)).length := by
    rw [clear, List.length_map, scan_eq_filter]
  rw [size, entries_clear, hlisted, Nat.add_comm, size]
  exact (List.length_eq_length_filter_add _).symm

/-- A region that is emptied again is empty already. -/
theorem clear_clear (s : Sheet) (r : Region) : (s.clear r).1.clear r = ((s.clear r).1, []) := by
  have hempty := (cleared_clear s r).emptied
  refine (cleared_clear _ r).eq ⟨hempty, fun _ _ => rfl, .nil, fun c => ?_⟩
  refine iff_of_false List.not_mem_nil ?_
  rintro ⟨hc, hheld⟩
  exact hheld (hempty c hc)

/-! ### Every way to scan -/

/-- The sheet with the cells erased that a scan found, and these cells. -/
def eraseFound (s : Sheet) (found : List (Coord × Content)) : Sheet × List Coord :=
  ((found.map Prod.fst).foldl erase s, found.map Prod.fst)

/-- **Emptying a region empties its cells and no others.** The cells that held something are listed
row by row, and the sheet has as many cells less. To empty the region again changes nothing and
lists nothing. It makes no difference which way the region is scanned, nor in which order the stored
cells are searched. -/
theorem clear_eq_iff (s : Sheet) (r : Region) (result : Sheet × List Coord) :
    (s.clear r = result ↔ Cleared s r result) ∧
    (s.clear r).1.size + (s.clear r).2.length = s.size ∧
    (s.clear r).1.clear r = ((s.clear r).1, []) ∧
    (∀ listing : List (Coord × Content), listing.Perm s.entries →
      ∀ found ∈ [s.scanListed listing r, s.scanCells r, scanEntries listing r],
        s.eraseFound found = s.clear r) := by
  refine ⟨⟨?_, (cleared_clear s r).eq⟩, size_clear s r, clear_clear s r,
    fun listing hlisting found hfound => ?_⟩
  · rintro rfl
    exact cleared_clear s r
  · rw [eq_scan_of_mem hlisting hfound]
    rfl

namespace FirstRow

/-- The cell `A2`. -/
def below : Coord := (Coord.ofNat? 1 0).getD .origin

/-- The region `A1:D1`, which has more cells than the sheet has entries. -/
def region : Region := .spanning .origin ((Coord.ofNat? 0 3).getD .origin)

/-- Two texts in the region, in `A1` and `D1`, and one below it. -/
def sheet : Sheet :=
  ((Sheet.empty.set .origin (.text "x")).set region.bottomRight (.text "y")).set below (.text "z")

end FirstRow

/-- The stored cells are searched in reverse order. The two in the region are erased, from left to
right, and the one below it stays. -/
theorem firstRow_clear :
    FirstRow.sheet.entries.reverse.Perm FirstRow.sheet.entries ∧
    ¬ FirstRow.region.cellCount ≤ FirstRow.sheet.size ∧
    FirstRow.sheet.eraseFound
      (FirstRow.sheet.scanListed FirstRow.sheet.entries.reverse FirstRow.region) =
        (Sheet.empty.set FirstRow.below (.text "z"), [.origin, FirstRow.region.bottomRight]) ∧
    Cleared FirstRow.sheet FirstRow.region
      (Sheet.empty.set FirstRow.below (.text "z"), [.origin, FirstRow.region.bottomRight]) := by
  have hlisting := List.reverse_perm FirstRow.sheet.entries
  have hclear : FirstRow.sheet.clear FirstRow.region =
      (Sheet.empty.set FirstRow.below (.text "z"), [.origin, FirstRow.region.bottomRight]) := by
    decide +kernel
  obtain ⟨hcleared, -, -, hscanned⟩ := clear_eq_iff FirstRow.sheet FirstRow.region _
  refine ⟨hlisting, by decide, ?_, hcleared.mp hclear⟩
  rw [hscanned _ hlisting _ (List.mem_cons_self ..), hclear]

end Sheet

end Worksheet
