import Worksheet.Content
import Worksheet.Coord.Ordered
import Worksheet.Region.Cells

/-!
# The sheet

A sheet holds the contents of its non-empty cells, in the order in which cells are read: row by row.
The order is part of the type, so a sheet is determined by what each cell holds, and `Sheet.get?` is
the one view in which every operation is described.

There are two ways to find the non-empty cells of a region: to look up the cells of the region, or
to search the cells of the sheet. A scan takes whichever has fewer cells to go through. For this the
cells of the region are counted in words, and if their count begins again at zero, the region is
taken for the smaller one. The search does not rely on the order of the entries: it is told the
stored cells in any order and sorts what it finds.

## Main definitions

* `Sheet` — coordinates and contents, in increasing order of the coordinates
* `Sheet.get?` — what a cell holds
* `Sheet.set`, `Sheet.erase`, `Sheet.put` — change one cell
* `Sheet.scanCells`, `Sheet.scanEntries` — the two ways to find the non-empty cells of a region
* `Sheet.scan` — the non-empty cells of a region, in order
* `Sheet.numbers` — the numbers in a region, in order
* `Sheet.clear` — empty a region

## Main results

* `Sheet.get?_set`, `Sheet.get?_erase` — one cell changes and every other one stays
* `Sheet.get?_eq_some_iff` — what a cell holds is what is listed for it
* `Sheet.eq_of_mem_iff` — entries in order are determined by which they are
* `Sheet.ext_get?` — a sheet is determined by what its cells hold
-/

namespace Worksheet

/-- The contents of the non-empty cells. -/
structure Sheet where
  entries : List (Coord × Content)
  sorted : entries.Pairwise (fun a b => a.1 < b.1)
deriving DecidableEq

namespace Sheet

/-- The sheet on which every cell is empty. -/
def empty : Sheet := ⟨[], .nil⟩

/-- What the cell at `c` holds. -/
def get? (s : Sheet) (c : Coord) : Option Content :=
  (s.entries.find? fun e => decide (e.1 = c)).map Prod.snd

/-- Whether the cell at `c` holds anything. -/
def has (s : Sheet) (c : Coord) : Bool := (s.get? c).isSome

/-- How many cells hold something. -/
def size (s : Sheet) : Nat := s.entries.length

/-- The sheet with `content` in the cell at `c`. -/
def set (s : Sheet) (c : Coord) (content : Content) : Sheet where
  entries := s.entries.filter (fun e => decide (e.1 < c)) ++
    (c, content) :: s.entries.filter (fun e => decide (c < e.1))
  sorted := by
    refine List.pairwise_append.2 ⟨s.sorted.filter _, ?_, ?_⟩
    · refine List.pairwise_cons.2 ⟨?_, s.sorted.filter _⟩
      intro e he
      exact of_decide_eq_true (List.mem_filter.1 he).2
    · intro a ha b hb
      have hac := of_decide_eq_true (List.mem_filter.1 ha).2
      rcases List.mem_cons.1 hb with rfl | hb
      · exact hac
      · exact Coord.lt_trans hac (of_decide_eq_true (List.mem_filter.1 hb).2)

/-- The sheet with the cell at `c` empty. -/
def erase (s : Sheet) (c : Coord) : Sheet where
  entries := s.entries.filter fun e => decide (e.1 ≠ c)
  sorted := s.sorted.filter _

/-- The sheet whose cell at `c` holds what is given, or nothing. -/
def put (s : Sheet) (c : Coord) : Option Content → Sheet
  | some content => s.set c content
  | none => s.erase c

/-! ### Scanning -/

/-- The cell at `c` with what it holds, if it holds anything. -/
def stored? (s : Sheet) (c : Coord) : Option (Coord × Content) := (s.get? c).map fun x => (c, x)

/-- The non-empty cells of a region, found by looking up each of its cells. -/
def scanCells (s : Sheet) (r : Region) : List (Coord × Content) := r.cells.filterMap s.stored?

/-- A further entry in a list of entries in order. -/
def insertEntry (e : Coord × Content) : List (Coord × Content) → List (Coord × Content)
  | [] => [e]
  | d :: rest => if d.1 < e.1 then d :: insertEntry e rest else e :: d :: rest

/-- The non-empty cells of a region, found by going through a listing of stored cells in any order
and sorting those in the region. -/
def scanEntries (listing : List (Coord × Content)) (r : Region) : List (Coord × Content) :=
  (listing.filter fun e => decide (e.1 ∈ r)).foldr insertEntry []

/-- The non-empty cells of a region, when the stored cells are listed in a given order. The smaller
of the region and the sheet is gone through, as far as the count of the region tells. -/
def scanListed (s : Sheet) (listing : List (Coord × Content)) (r : Region) :
    List (Coord × Content) :=
  if r.cellCount ≤ s.size then s.scanCells r else scanEntries listing r

/-- The non-empty cells of a region with their contents, row by row. -/
def scan (s : Sheet) (r : Region) : List (Coord × Content) := s.scanListed s.entries r

/-- The numbers that the cells of a region hold, row by row. -/
def numbers (s : Sheet) (r : Region) : List Binary64 := (s.scan r).filterMap fun e => e.2.number?

/-- The sheet with every cell of a region empty, and the cells that held something. -/
def clear (s : Sheet) (r : Region) : Sheet × List Coord :=
  let cleared := (s.scan r).map Prod.fst
  (cleared.foldl erase s, cleared)

/-! ### Looking up -/

theorem get?_eq_some_iff {s : Sheet} {c : Coord} {content : Content} :
    s.get? c = some content ↔ (c, content) ∈ s.entries := by
  obtain ⟨entries, hsorted⟩ := s
  simp only [get?]
  induction entries with
  | nil => simp
  | cons e rest ih =>
    obtain ⟨hfirst, hrest⟩ := List.pairwise_cons.1 hsorted
    obtain ⟨d, x⟩ := e
    by_cases h : d = c
    · subst h
      have hnot : (d, content) ∉ rest := fun hmem => Coord.lt_irrefl d (hfirst _ hmem)
      simp [hnot, eq_comm]
    · have hne : ¬ c = d := fun heq => h heq.symm
      simpa [h, hne] using ih hrest

/-- Entries in increasing order are determined by which entries they are. -/
theorem eq_of_mem_iff {l m : List (Coord × Content)} (hl : l.Pairwise fun a b => a.1 < b.1)
    (hm : m.Pairwise fun a b => a.1 < b.1) (h : ∀ e, e ∈ l ↔ e ∈ m) : l = m :=
  Coord.eq_of_mem_iff Prod.fst hl hm h

/-- A sheet is determined by what its cells hold. -/
theorem ext_get? {s t : Sheet} (h : ∀ c, s.get? c = t.get? c) : s = t := by
  have hmem : ∀ e, e ∈ s.entries ↔ e ∈ t.entries := by
    rintro ⟨c, content⟩
    rw [← get?_eq_some_iff, ← get?_eq_some_iff, h]
  have heq : s.entries = t.entries := eq_of_mem_iff s.sorted t.sorted hmem
  cases s
  cases t
  simpa using heq

theorem get?_empty (c : Coord) : empty.get? c = none := rfl

theorem get?_set (s : Sheet) (c : Coord) (content : Content) (d : Coord) :
    (s.set c content).get? d = if d = c then some content else s.get? d := by
  ext x
  rw [get?_eq_some_iff]
  split
  · rename_i h
    subst h
    simp [set, Coord.lt_irrefl, eq_comm]
  · rename_i h
    rw [get?_eq_some_iff]
    have hsides := Coord.lt_or_eq_or_gt d c
    simp only [set, List.mem_append, List.mem_cons, List.mem_filter, decide_eq_true_eq,
      Prod.mk.injEq, h, false_and, false_or] at hsides ⊢
    rw [← and_or_left]
    exact and_iff_left hsides

theorem get?_erase (s : Sheet) (c d : Coord) :
    (s.erase c).get? d = if d = c then none else s.get? d := by
  ext x
  rw [get?_eq_some_iff]
  split
  · rename_i h
    simp [erase, h]
  · rename_i h
    rw [get?_eq_some_iff]
    simp [erase, h]

end Sheet

end Worksheet
