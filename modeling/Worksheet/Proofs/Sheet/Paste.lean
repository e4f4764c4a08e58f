import Worksheet.Proofs.Region.Shift
import Worksheet.Proofs.Sheet.LookUp
import Worksheet.Sheet.Paste

/-!
# Writing a snapshot, cell by cell

`Sheet.write` puts the cells of a snapshot down one after another. Here this is turned into a single
simultaneous assignment: what a cell holds afterwards is what the snapshot holds for the one cell
that came to lie there, and what it held before if none did.

## The move as a relation

`Region.Carries` says where a cell comes to lie in whole numbers of any size, with no bound and no
partial operation. `Region.shift` and `Sheet.place?` compute it as far as the axes and the bounds
go. One fact about the relation carries everything below: it keeps row-major order. So the cells of
a snapshot, which are listed in that order, come to lie in different places, and no write undoes an
earlier one.

The snapshot need not be one of the region that is moved. A cell that is in only one of the two is
left out, like a cell whose new place is off the axes or out of the bounds.

## Main definitions

* `Region.Carries` — the cell of a region that is moved, and the cell where it comes to lie
* `Sheet.Written` — what is left by writing a snapshot, as one simultaneous assignment

## Main results

* `Sheet.place?_eq_some_iff` — `place?` is the relation, cut off at the bounds
* `Sheet.get?_write_of_carries`, `Sheet.get?_write_of_not_carries` — a written snapshot, cell by
  cell
* `Sheet.write_eq_iff` — writing a snapshot is the simultaneous assignment
-/

namespace Worksheet

/-! ### Where a cell comes to lie -/

namespace Region

/-- When `source` is moved so that its top left cell comes to lie at `anchor`, its cell `c` comes to
lie at `t`. -/
def Carries (source : Region) (anchor c t : Coord) : Prop :=
  c ∈ source ∧ (t.row : Int) = anchor.row + ((c.row : Int) - source.topLeft.row) ∧
    (t.col : Int) = anchor.col + ((c.col : Int) - source.topLeft.col)

variable {source : Region} {anchor c d t u : Coord}

theorem shift_topLeft_eq_some_iff :
    source.shift source.topLeft anchor c = some t ↔ source.Carries anchor c t := by
  rw [shift_eq_some_iff, Carries]
  constructor
  · rintro ⟨hc, hrow, hcol⟩
    exact ⟨hc, by omega, by omega⟩
  · rintro ⟨hc, hrow, hcol⟩
    exact ⟨hc, by omega, by omega⟩

/-- The move keeps row-major order. -/
theorem Carries.lt_of_lt (hc : source.Carries anchor c t) (hd : source.Carries anchor d u)
    (h : c < d) : t < u :=
  (shift_lt_iff (shift_topLeft_eq_some_iff.mpr hc) (shift_topLeft_eq_some_iff.mpr hd)).mpr h

end Region

namespace Sheet

/-! ### Reading after many writes -/

/-- A cell that is not written stays. -/
theorem get?_foldl_put_of_forall_ne {targets : Snapshot} (s : Sheet) {t : Coord}
    (h : ∀ e ∈ targets, t ≠ e.1) :
    (targets.foldl (fun s e => s.put e.1 e.2) s).get? t = s.get? t := by
  induction targets generalizing s with
  | nil => rfl
  | cons e rest ih =>
    rw [List.foldl_cons, ih _ fun e he => h e (List.mem_cons_of_mem _ he),
      get?_put_of_ne s e.2 (h e (List.mem_cons_self ..))]

/-- A cell that is written once holds what was written. No later write can be to the same cell, as
the targets increase. -/
theorem get?_foldl_put_of_mem {targets : Snapshot} (s : Sheet)
    (hsorted : targets.Pairwise fun a b => a.1 < b.1) {t : Coord} {x : Option Content}
    (h : (t, x) ∈ targets) : (targets.foldl (fun s e => s.put e.1 e.2) s).get? t = x := by
  induction targets generalizing s with
  | nil => cases h
  | cons e rest ih =>
    obtain ⟨hfirst, hrest⟩ := List.pairwise_cons.mp hsorted
    rw [List.foldl_cons]
    rcases List.mem_cons.mp h with rfl | h
    · rw [get?_foldl_put_of_forall_ne _ fun e he => Coord.ne_of_lt (hfirst e he), get?_put_self]
    · exact ih _ hrest h

/-! ### Snapshots -/

variable {source : Region} {anchor : Coord} {bounds : Option Grid}

theorem mem_snapshot {s : Sheet} {r : Region} {e : Coord × Option Content} :
    e ∈ s.snapshot r ↔ e.1 ∈ r ∧ e.2 = s.get? e.1 := by
  rw [snapshot, List.mem_map]
  constructor
  · rintro ⟨c, hc, rfl⟩
    exact ⟨Region.mem_cells.mp hc, rfl⟩
  · rintro ⟨hc, hx⟩
    exact ⟨e.1, Region.mem_cells.mpr hc, by rw [← hx]⟩

theorem pairwise_snapshot (s : Sheet) (r : Region) :
    (s.snapshot r).Pairwise fun a b => a.1 < b.1 := by
  rw [snapshot, List.pairwise_map]
  exact r.pairwise_cells

/-- `place?` is the move, cut off at the bounds. -/
theorem place?_eq_some_iff {c t : Coord} :
    place? source anchor bounds c = some t ↔
      source.Carries anchor c t ∧ ∀ g ∈ bounds, g.contains t = true := by
  rw [place?, Option.filter_eq_some_iff, Region.shift_topLeft_eq_some_iff]
  cases bounds <;> simp

theorem mem_placed {cells : Snapshot} {t : Coord} {x : Option Content} :
    (t, x) ∈ placed source anchor bounds cells ↔
      ∃ c, (c, x) ∈ cells ∧ place? source anchor bounds c = some t := by
  simp only [placed, List.mem_filterMap, Option.map_eq_some_iff, Prod.mk.injEq]
  constructor
  · rintro ⟨⟨c, y⟩, hmem, u, hplace, rfl, rfl⟩
    exact ⟨c, hmem, hplace⟩
  · rintro ⟨c, hmem, hplace⟩
    exact ⟨(c, x), hmem, t, hplace, rfl, rfl⟩

/-- A snapshot in row-major order is put down in row-major order. -/
theorem pairwise_placed {cells : Snapshot} (h : cells.Pairwise fun a b => a.1 < b.1) :
    (placed source anchor bounds cells).Pairwise fun a b => a.1 < b.1 := by
  refine List.Pairwise.filterMap _ ?_ h
  intro a b hab a' ha b' hb
  obtain ⟨t, ht, rfl⟩ := Option.map_eq_some_iff.mp ha
  obtain ⟨u, hu, rfl⟩ := Option.map_eq_some_iff.mp hb
  exact (place?_eq_some_iff.mp ht).1.lt_of_lt (place?_eq_some_iff.mp hu).1 hab

/-! ### The written sheet -/

/-- Where a cell of the snapshot came to lie, the sheet holds what the snapshot holds for it. -/
theorem get?_write_of_carries (s old : Sheet) {r : Region} {c t : Coord} (hmem : c ∈ r)
    (hplace : place? source anchor bounds c = some t) :
    (s.write source anchor bounds (old.snapshot r)).1.get? t = old.get? c :=
  get?_foldl_put_of_mem s (pairwise_placed (old.pairwise_snapshot r))
    (mem_placed.mpr ⟨c, mem_snapshot.mpr ⟨hmem, rfl⟩, hplace⟩)

/-- Where no cell of the snapshot came to lie, the sheet is as it was. -/
theorem get?_write_of_not_carries (s old : Sheet) {r : Region} {t : Coord}
    (h : ∀ c ∈ r, place? source anchor bounds c ≠ some t) :
    (s.write source anchor bounds (old.snapshot r)).1.get? t = s.get? t := by
  refine get?_foldl_put_of_forall_ne s fun e he heq => ?_
  obtain ⟨c, hmem, hplace⟩ := mem_placed.mp he
  exact h c (mem_snapshot.mp hmem).1 (heq ▸ hplace)

/-! ### One simultaneous assignment -/

variable {s old : Sheet} {r : Region} {result result' : Sheet × List Coord}

/-- When a snapshot of `r` is written at `anchor` as one of `source`, its cell `c` is written to the
cell `t`. -/
def WrittenTo (r source : Region) (anchor : Coord) (bounds : Option Grid) (c t : Coord) : Prop :=
  c ∈ r ∧ source.Carries anchor c t ∧ ∀ g ∈ bounds, g.contains t = true

/-- The sheet and the cells that are left when a snapshot of `r`, taken of `old`, is written on `s`
at `anchor` as one of `source`. All cells are written at once. -/
structure Written (s old : Sheet) (r source : Region) (anchor : Coord) (bounds : Option Grid)
    (result : Sheet × List Coord) : Prop where
  /-- A cell that is written to holds what the cell of the snapshot held, or nothing with it. -/
  copied : ∀ c t, WrittenTo r source anchor bounds c t → result.1.get? t = old.get? c
  /-- Every other cell is as it was. -/
  kept : ∀ t, (∀ c, ¬ WrittenTo r source anchor bounds c t) → result.1.get? t = s.get? t
  /-- The cells are listed row by row, and each once. -/
  ordered : result.2.Pairwise (· < ·)
  /-- They are the ones that are written to. -/
  listed : ∀ t, t ∈ result.2 ↔ ∃ c, WrittenTo r source anchor bounds c t

theorem writtenTo_iff {c t : Coord} :
    WrittenTo r source anchor bounds c t ↔ c ∈ r ∧ place? source anchor bounds c = some t := by
  rw [WrittenTo, place?_eq_some_iff]

theorem written_write (s old : Sheet) (r source : Region) (anchor : Coord)
    (bounds : Option Grid) :
    Written s old r source anchor bounds (s.write source anchor bounds (old.snapshot r)) where
  copied c t h := by
    obtain ⟨hmem, hplace⟩ := writtenTo_iff.mp h
    exact get?_write_of_carries s old hmem hplace
  kept t h := get?_write_of_not_carries s old fun c hmem hplace =>
    h c (writtenTo_iff.mpr ⟨hmem, hplace⟩)
  ordered := by
    rw [write, List.pairwise_map]
    exact pairwise_placed (old.pairwise_snapshot r)
  listed t := by
    simp only [write, List.mem_map, Prod.exists, exists_and_right, exists_eq_right, mem_placed,
      mem_snapshot, writtenTo_iff]
    constructor
    · rintro ⟨x, c, ⟨hmem, -⟩, hplace⟩
      exact ⟨c, hmem, hplace⟩
    · rintro ⟨c, hmem, hplace⟩
      exact ⟨old.get? c, c, ⟨hmem, rfl⟩, hplace⟩

/-- Nothing is left open: two results of the same assignment are the same. -/
theorem Written.eq (h : Written s old r source anchor bounds result)
    (h' : Written s old r source anchor bounds result') : result = result' := by
  refine Prod.ext (ext_get? fun t => ?_) ?_
  · by_cases hwritten : ∃ c, WrittenTo r source anchor bounds c t
    · obtain ⟨c, hc⟩ := hwritten
      rw [h.copied c t hc, h'.copied c t hc]
    · rw [h.kept t (not_exists.mp hwritten), h'.kept t (not_exists.mp hwritten)]
  · exact Coord.eq_of_mem_iff id h.ordered h'.ordered fun t => by rw [h.listed, h'.listed]

/-- **Writing a snapshot is a simultaneous assignment.** It does not matter how the snapshot, the
region that it is written as, and the place where it comes to lie overlap, nor in which order the
cells are written. Copying a region is the case where the snapshot is of that region and of the
sheet itself, so what is copied are the original contents. -/
theorem write_eq_iff (s old : Sheet) (r source : Region) (anchor : Coord) (bounds : Option Grid)
    (result : Sheet × List Coord) :
    (s.write source anchor bounds (old.snapshot r) = result ↔
      Written s old r source anchor bounds result) ∧
    (s.paste source anchor bounds = result ↔ Written s s source source anchor bounds result) := by
  have hwrite : ∀ (old : Sheet) (r : Region),
      s.write source anchor bounds (old.snapshot r) = result ↔
        Written s old r source anchor bounds result := by
    intro old r
    constructor
    · rintro rfl
      exact written_write s old r source anchor bounds
    · exact (written_write s old r source anchor bounds).eq
  exact ⟨hwrite old r, hwrite s source⟩

end Sheet

end Worksheet
