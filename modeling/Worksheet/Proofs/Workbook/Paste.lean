import Mathlib.Tactic.ByContra
import Worksheet.Proofs.Sheet.Paste
import Worksheet.Workbook.Command

/-!
# Pasting in a workbook

`Workbook.apply` pastes in three passes: it takes a snapshot of the source, empties the cells that
are moved away, and writes the snapshot where it fits on the grid. Source and destination may
overlap, and the destination may stick out over the edge of the grid.

`Workbook.get?_apply_paste` says what every cell holds after the three passes. It mentions neither
the passes nor their order, and no case is made of how the two rectangles lie to each other.

## What a cut does not keep

A cell of a cut region whose new place is off the grid stays where it is: it is not emptied. It may
still be written to, though, when the old and the new rectangle overlap, because another cell of the
region can come to lie on it. Then its content is gone. `Workbook.cutKeepsContent_iff` says that
this is the only way in which a cut loses content, and `Workbook.edgeCut_not_cutKeepsContent`
shows it happening: an empty cell is moved onto the one cell that has nowhere to go.

## Main definitions

* `Workbook.Brings` — the move of a paste, on the cells that it brings onto the grid
* `Workbook.CutKeepsContent` — no content is lost by a cut
* `Workbook.StrandedUntouched` — nothing is put on top of content that has nowhere to go

## Main results

* `Workbook.get?_apply_paste` — every cell after a paste
* `Workbook.cutKeepsContent_iff` — when a cut keeps all content
-/

namespace Worksheet

/-- A grid of two columns and two rows. -/
def Grid.small : Grid := ⟨2, 2, by decide, by decide⟩

namespace Workbook

variable {w : Workbook} {source : Region} {anchor : Coord}

/-- A paste of `source` at `anchor` brings the cell `c` to the cell `t` of the grid. -/
def Brings (w : Workbook) (source : Region) (anchor c t : Coord) : Prop :=
  source.Carries anchor c t ∧ w.grid.contains t = true

theorem place?_grid_eq_some_iff {c t : Coord} :
    Sheet.place? source anchor (some w.grid) c = some t ↔ w.Brings source anchor c t := by
  rw [Sheet.place?_eq_some_iff, Brings]
  simp

theorem Brings.mem {c t : Coord} (h : w.Brings source anchor c t) : c ∈ source := h.1.1

/-! ### The three passes -/

/-- The cells that a cut empties: those that hold something and have a place on the grid. -/
theorem mem_movedCells {c : Coord} :
    c ∈ w.movedCells source anchor ↔
      (∃ x, w.sheet.get? c = some x) ∧ ∃ t, w.Brings source anchor c t := by
  simp only [movedCells, List.mem_filter, List.mem_map, Sheet.mem_scan, Option.isSome_iff_exists,
    place?_grid_eq_some_iff]
  constructor
  · rintro ⟨⟨⟨d, x⟩, ⟨hx, -⟩, rfl⟩, hplace⟩
    exact ⟨⟨x, hx⟩, hplace⟩
  · rintro ⟨⟨x, hx⟩, t, ht⟩
    exact ⟨⟨(c, x), ⟨hx, ht.mem⟩, rfl⟩, t, ht⟩

/-- The sheet after a paste, as the passes make it. -/
theorem sheet_apply_paste (w : Workbook) (source : Region) (anchor : Coord) (cut : Bool) :
    (w.apply (.paste source anchor cut)).2.sheet =
      (((if cut then w.movedCells source anchor else []).foldl Sheet.erase w.sheet).write source
        anchor (some w.grid) (w.sheet.snapshot source)).1 := rfl

/-- What the snapshot is written over. A cell is empty there if it was empty before or if its
content was moved away. -/
theorem get?_foldl_erase_moved (w : Workbook) (source : Region) (anchor : Coord) (cut : Bool)
    (t : Coord) :
    ((if cut then w.movedCells source anchor else []).foldl Sheet.erase w.sheet).get? t =
      if cut = true ∧ t ∈ w.movedCells source anchor then none else w.sheet.get? t := by
  rw [Sheet.get?_foldl_erase]
  cases cut <;> simp

/-- A cell to which another one is brought holds what that one held. -/
theorem get?_apply_paste_of_brings (cut : Bool) {c t : Coord} (h : w.Brings source anchor c t) :
    (w.apply (.paste source anchor cut)).2.sheet.get? t = w.sheet.get? c := by
  rw [sheet_apply_paste]
  exact Sheet.get?_write_of_carries _ _ h.mem (place?_grid_eq_some_iff.mpr h)

/-- A cell to which none is brought is only affected by being moved away. -/
theorem get?_apply_paste_of_not_brings (cut : Bool) {t : Coord}
    (h : ∀ c, ¬ w.Brings source anchor c t) :
    (w.apply (.paste source anchor cut)).2.sheet.get? t =
      if cut = true ∧ t ∈ w.movedCells source anchor then none else w.sheet.get? t := by
  rw [sheet_apply_paste, Sheet.get?_write_of_not_carries _ _ fun c _ hplace =>
    h c (place?_grid_eq_some_iff.mp hplace), get?_foldl_erase_moved]

/-! ### Every cell after a paste -/

/-- **The meaning of a paste.** A cell of the grid to which a cell of the source is brought holds
what that one held, or nothing if it held nothing. Of the other cells, those that a cut brings
elsewhere are empty, and the rest are as they were. -/
theorem get?_apply_paste (w : Workbook) (source : Region) (anchor : Coord) (cut : Bool)
    (t : Coord) :
    (∀ c, w.Brings source anchor c t →
      (w.apply (.paste source anchor cut)).2.sheet.get? t = w.sheet.get? c) ∧
    ((∀ c, ¬ w.Brings source anchor c t) →
      ((cut = true ∧ t ∈ source ∧ ∃ u, w.Brings source anchor t u) →
        (w.apply (.paste source anchor cut)).2.sheet.get? t = none) ∧
      (¬ (cut = true ∧ t ∈ source ∧ ∃ u, w.Brings source anchor t u) →
        (w.apply (.paste source anchor cut)).2.sheet.get? t = w.sheet.get? t)) := by
  refine ⟨fun c h => get?_apply_paste_of_brings cut h, fun h => ⟨?_, ?_⟩⟩
  · rintro ⟨hcut, -, hmoved⟩
    rw [get?_apply_paste_of_not_brings cut h]
    split
    · rfl
    · rename_i hnot
      -- the cell is brought away but not emptied, so there was nothing to empty
      rw [mem_movedCells] at hnot
      by_contra hheld
      exact hnot ⟨hcut, Option.ne_none_iff_exists'.mp hheld, hmoved⟩
  · intro hstay
    rw [get?_apply_paste_of_not_brings cut h, if_neg]
    rintro ⟨hcut, hmoved⟩
    obtain ⟨-, u, hu⟩ := mem_movedCells.mp hmoved
    exact hstay ⟨hcut, hu.mem, u, hu⟩

/-! ### What a cut keeps -/

/-- No content is lost when `source` is cut and pasted at `anchor`: content whose new place is on
the grid is there afterwards, and content whose new place is off the grid is where it was. -/
def CutKeepsContent (w : Workbook) (source : Region) (anchor : Coord) : Prop :=
  ∀ c ∈ source, ∀ x, w.sheet.get? c = some x →
    (∀ t, w.Brings source anchor c t →
      (w.apply (.paste source anchor true)).2.sheet.get? t = some x) ∧
    ((∀ t, ¬ w.Brings source anchor c t) →
      (w.apply (.paste source anchor true)).2.sheet.get? c = some x)

/-- Content whose new place is off the grid has nothing else put on top of it. -/
def StrandedUntouched (w : Workbook) (source : Region) (anchor : Coord) : Prop :=
  ∀ c ∈ source, ∀ x, w.sheet.get? c = some x → (∀ t, ¬ w.Brings source anchor c t) →
    ∀ d, w.Brings source anchor d c → w.sheet.get? d = some x

/-- **When a cut keeps all content.** Content that has a place on the grid always arrives there. So
content is lost just when it has none and a cell with anything else, or with nothing, is brought to
where it is. -/
theorem cutKeepsContent_iff (w : Workbook) (source : Region) (anchor : Coord) :
    w.CutKeepsContent source anchor ↔ w.StrandedUntouched source anchor := by
  constructor
  · intro hkeeps c hc x hx hstranded d hd
    rw [← get?_apply_paste_of_brings true hd]
    exact (hkeeps c hc x hx).2 hstranded
  · intro huntouched c hc x hx
    refine ⟨fun t ht => by rw [get?_apply_paste_of_brings true ht, hx], fun hstranded => ?_⟩
    by_cases hover : ∃ d, w.Brings source anchor d c
    · obtain ⟨d, hd⟩ := hover
      rw [get?_apply_paste_of_brings true hd]
      exact huntouched c hc x hx hstranded d hd
    · have hnot : ¬ (true = true ∧ c ∈ w.movedCells source anchor) := fun hmoved => by
        obtain ⟨-, t, ht⟩ := mem_movedCells.mp hmoved.2
        exact hstranded t ht
      rw [get?_apply_paste_of_not_brings true (not_exists.mp hover), if_neg hnot, hx]

/-! ### A cut at the edge

On a grid of two columns, the two cells of the first row are cut and moved one column to the right.
Only the second of them holds something. -/

namespace EdgeCut

/-- The cell `A1`, which is empty. -/
def first : Coord := .origin

/-- The cell `B1`, in the last column. -/
def last : Coord := (Coord.ofNat? 0 1).getD .origin

/-- The cell `A2`, where a click gives up the selection of the other two. -/
def below : Coord := (Coord.ofNat? 1 0).getD .origin

/-- The region that is cut. -/
def region : Region := .spanning first last

/-- A text is typed into `B1`, `A1:B1` is selected and cut, and `B1` is selected to paste at. -/
def commands : List Command :=
  [.enter last "x", .click first false, .click last true, .cut, .click below false,
    .click last false]

/-- The workbook that is ready for the paste. -/
def workbook : Workbook := (blank .small).run commands

end EdgeCut

/-- The text in the last column has no place on the grid, and the empty cell beside it is moved to
where it is. Pasting leaves no trace of the text. -/
theorem edgeCut_not_cutKeepsContent :
    EdgeCut.workbook.paste.1 = .paste EdgeCut.region EdgeCut.last true ∧
      EdgeCut.workbook.paste.2.2.sheet = .empty ∧
      ¬ EdgeCut.workbook.CutKeepsContent EdgeCut.region EdgeCut.last := by
  refine ⟨by decide, by decide, fun hkeeps => ?_⟩
  have hheld : EdgeCut.workbook.sheet.get? EdgeCut.last = some (.text "x") := by decide
  have hstranded : ∀ t, ¬ EdgeCut.workbook.Brings EdgeCut.region EdgeCut.last EdgeCut.last t := by
    rintro t ⟨⟨-, -, hcol⟩, hgrid⟩
    have hlt : t.col < 2 := (Grid.contains_eq_true.mp hgrid).2
    have heq : (t.col : Int) = 1 + (1 - 0) := hcol
    omega
  have hkept := (hkeeps EdgeCut.last (Region.bottomRight_mem _) _ hheld).2 hstranded
  have hgone : (EdgeCut.workbook.apply
      (.paste EdgeCut.region EdgeCut.last true)).2.sheet.get? EdgeCut.last = none := by decide
  rw [hgone] at hkept
  cases hkept

end Workbook

end Worksheet
