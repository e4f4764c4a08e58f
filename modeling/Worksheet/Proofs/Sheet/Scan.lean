import Worksheet.Proofs.Region.Walk
import Worksheet.Sheet

/-!
# The two ways to scan a region

A scan either looks up the cells of the region or searches the stored cells, and what it takes
depends on how many there are of each. Two sheets that agree on a region can be scanned differently
there, only because they differ elsewhere. So nothing that is computed from a scan can be reasoned
about before it is known that both ways give the same list.

They do because each gives a list in strictly increasing order with the same members, and such a
list is determined by its members (`Sheet.eq_of_mem_iff`). For the search this is also why the order
in which the stored cells are listed does not matter. After this module `Sheet.scan_eq_scanCells` is
all that has to be known of scans.

## Main results

* `Sheet.mem_scanCells`, `Sheet.pairwise_scanCells` — looking up the cells of a region
* `Sheet.mem_scanEntries`, `Sheet.pairwise_scanEntries` — searching the stored cells
* `Sheet.scan_eq_scanCells` — a scan looks up the cells of the region, as far as one can tell
* `Sheet.scanListed_eq_walk` — a scan is a walk through the region that keeps the non-empty cells
-/

namespace Worksheet

namespace Sheet

variable {s : Sheet} {r : Region} {listing : List (Coord × Content)}

/-! ### Looking up the cells of the region -/

theorem stored?_eq_some_iff {c : Coord} {e : Coord × Content} :
    s.stored? c = some e ↔ c = e.1 ∧ s.get? c = some e.2 := by
  rw [stored?, Option.map_eq_some_iff]
  constructor
  · rintro ⟨x, hx, rfl⟩
    exact ⟨rfl, hx⟩
  · rintro ⟨rfl, hx⟩
    exact ⟨e.2, hx, rfl⟩

theorem mem_scanCells {e : Coord × Content} :
    e ∈ s.scanCells r ↔ s.get? e.1 = some e.2 ∧ e.1 ∈ r := by
  simp only [scanCells, List.mem_filterMap, stored?_eq_some_iff, Region.mem_cells]
  constructor
  · rintro ⟨c, hc, rfl, hx⟩
    exact ⟨hx, hc⟩
  · rintro ⟨hx, hc⟩
    exact ⟨e.1, hc, rfl, hx⟩

theorem pairwise_scanCells (s : Sheet) (r : Region) :
    (s.scanCells r).Pairwise fun a b => a.1 < b.1 := by
  refine List.Pairwise.filterMap _ ?_ r.pairwise_cells
  intro c d hcd a ha b hb
  rw [← (stored?_eq_some_iff.mp ha).1, ← (stored?_eq_some_iff.mp hb).1]
  exact hcd

/-! ### Searching the stored cells -/

theorem perm_insertEntry (e : Coord × Content) (entries : List (Coord × Content)) :
    (insertEntry e entries).Perm (e :: entries) := by
  induction entries with
  | nil => exact .refl _
  | cons d rest ih =>
    rw [insertEntry]
    split
    · exact (ih.cons d).trans (.swap e d rest)
    · exact .refl _

/-- An entry for a further cell is put in its place. -/
theorem pairwise_insertEntry {e : Coord × Content} {entries : List (Coord × Content)}
    (hsorted : entries.Pairwise fun a b => a.1 < b.1) (hnew : ∀ d ∈ entries, e.1 ≠ d.1) :
    (insertEntry e entries).Pairwise fun a b => a.1 < b.1 := by
  induction entries with
  | nil => exact List.pairwise_singleton _ _
  | cons d rest ih =>
    obtain ⟨hfirst, hrest⟩ := List.pairwise_cons.mp hsorted
    rw [insertEntry]
    split
    · rename_i hde
      refine List.pairwise_cons.mpr ⟨fun a ha => ?_, ih hrest fun a ha =>
        hnew a (List.mem_cons_of_mem d ha)⟩
      rcases List.mem_cons.mp ((perm_insertEntry e rest).mem_iff.mp ha) with rfl | ha
      · exact hde
      · exact hfirst a ha
    · rename_i hde
      have hed : e.1 < d.1 := by
        rcases Coord.lt_or_eq_or_gt e.1 d.1 with hlt | heq | hgt
        · exact hlt
        · exact absurd heq (hnew d (List.mem_cons_self ..))
        · exact absurd hgt hde
      refine List.pairwise_cons.mpr ⟨fun a ha => ?_, hsorted⟩
      rcases List.mem_cons.mp ha with rfl | ha
      · exact hed
      · exact Coord.lt_trans hed (hfirst a ha)

theorem perm_foldr_insertEntry (entries : List (Coord × Content)) :
    (entries.foldr insertEntry []).Perm entries := by
  induction entries with
  | nil => exact .refl _
  | cons e rest ih => exact (perm_insertEntry e _).trans (ih.cons e)

theorem pairwise_foldr_insertEntry {entries : List (Coord × Content)}
    (h : entries.Pairwise fun a b => a.1 ≠ b.1) :
    (entries.foldr insertEntry []).Pairwise fun a b => a.1 < b.1 := by
  induction entries with
  | nil => exact .nil
  | cons e rest ih =>
    obtain ⟨hfirst, hrest⟩ := List.pairwise_cons.mp h
    exact pairwise_insertEntry (ih hrest) fun d hd =>
      hfirst d ((perm_foldr_insertEntry rest).mem_iff.mp hd)

theorem mem_scanEntries {e : Coord × Content} :
    e ∈ scanEntries listing r ↔ e ∈ listing ∧ e.1 ∈ r := by
  rw [scanEntries, (perm_foldr_insertEntry _).mem_iff, List.mem_filter, decide_eq_true_eq]

/-- The entries of a sheet are for different cells, in whatever order they are listed. -/
theorem pairwise_ne_of_perm (h : listing.Perm s.entries) : listing.Pairwise fun a b => a.1 ≠ b.1 :=
  (h.pairwise_iff fun hne => hne.symm).mpr (s.sorted.imp Coord.ne_of_lt)

theorem pairwise_scanEntries (h : listing.Perm s.entries) :
    (scanEntries listing r).Pairwise fun a b => a.1 < b.1 :=
  pairwise_foldr_insertEntry ((pairwise_ne_of_perm h).filter _)

/-! ### Both are the same -/

theorem scanEntries_eq_scanCells (h : listing.Perm s.entries) :
    scanEntries listing r = s.scanCells r := by
  refine eq_of_mem_iff (pairwise_scanEntries h) (pairwise_scanCells s r) fun e => ?_
  rw [mem_scanEntries, mem_scanCells, h.mem_iff, get?_eq_some_iff]

theorem scanListed_eq_scanCells (h : listing.Perm s.entries) :
    s.scanListed listing r = s.scanCells r := by
  rw [scanListed]
  split
  · rfl
  · exact scanEntries_eq_scanCells h

theorem scan_eq_scanCells (s : Sheet) (r : Region) : s.scan r = s.scanCells r :=
  scanListed_eq_scanCells (.refl _)

/-- Whichever way a region is scanned, the same is found. -/
theorem eq_scan_of_mem {found : List (Coord × Content)} (h : listing.Perm s.entries)
    (hfound : found ∈ [s.scanListed listing r, s.scanCells r, scanEntries listing r]) :
    found = s.scan r := by
  rw [scanListed_eq_scanCells h, scanEntries_eq_scanCells h] at hfound
  rw [scan_eq_scanCells]
  simpa using hfound

/-- **A scan is a walk through the region that keeps the non-empty cells.** This holds for both ways
to scan, whatever the order in which the stored cells are listed. So the scan is strictly
increasing, and no cell of the region that holds something is lost or repeated. -/
theorem scanListed_eq_walk (s : Sheet) (r : Region) {listing : List (Coord × Content)}
    (hlisting : listing.Perm s.entries) {n : Nat} (hn : r.height * r.width ≤ n) :
    s.scan r = (r.firstCells n).filterMap s.stored? ∧
    s.scanListed listing r = (r.firstCells n).filterMap s.stored? ∧
    s.scanCells r = (r.firstCells n).filterMap s.stored? ∧
    scanEntries listing r = (r.firstCells n).filterMap s.stored? ∧
    ((s.scan r).Pairwise fun a b => a.1 < b.1) ∧
    (∀ c x, (c, x) ∈ s.scan r ↔ c ∈ r ∧ s.get? c = some x) := by
  have hwalk : (r.firstCells n).filterMap s.stored? = s.scanCells r := by
    rw [Region.firstCells_of_le hn, scanCells]
  rw [hwalk, scan_eq_scanCells, scanListed_eq_scanCells hlisting, scanEntries_eq_scanCells hlisting]
  refine ⟨rfl, rfl, rfl, rfl, pairwise_scanCells s r, fun c x => ?_⟩
  rw [mem_scanCells, and_comm]

namespace Reversed

/-- The region `A1:B2`. -/
def region : Region := .spanning .origin ((Coord.ofNat? 1 1).getD .origin)

/-- A sheet with texts in two opposite corners of the region, which has more cells. -/
def sheet : Sheet :=
  (Sheet.empty.set region.topLeft (.text "x")).set region.bottomRight (.text "y")

end Reversed

/-- The stored cells are searched in reverse order, and found in the order of the walk. -/
theorem reversed_scanListed :
    Reversed.sheet.entries.reverse.Perm Reversed.sheet.entries ∧
    Reversed.region.height * Reversed.region.width ≤ 4 ∧
    ¬ Reversed.region.cellCount ≤ Reversed.sheet.size ∧
    Reversed.sheet.scanListed Reversed.sheet.entries.reverse Reversed.region =
      (Reversed.region.firstCells 4).filterMap Reversed.sheet.stored? := by
  have hlisting := List.reverse_perm Reversed.sheet.entries
  have hcount : Reversed.region.height * Reversed.region.width ≤ 4 := by decide
  exact ⟨hlisting, hcount, by decide, (scanListed_eq_walk _ _ hlisting hcount).2.1⟩

end Sheet

end Worksheet
