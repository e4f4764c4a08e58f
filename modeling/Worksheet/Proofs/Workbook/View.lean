import Worksheet.Proofs.Sheet.LookUp
import Worksheet.Workbook.Command
import Worksheet.Workbook.View

/-!
# A region at once and cell by cell

A page asks for the non-empty cells of the region it shows all at once. It could as well ask for
each cell of the region alone and leave out those that hold nothing: the answers are the same and
come in the same order. For this it does not matter how large the region is beside the sheet, nor in
which order the stored cells are listed.

A cell that holds the empty text is not one that holds nothing. Both show the empty text, but only
the first has a text to edit, and is listed.

## Main results

* `Workbook.view_error_eq_some_iff` — an error stands for a formula that evaluates to it
* `Workbook.views_eq_filter` — the non-empty cells of a region, each asked for alone
* `Workbook.views_spanning` — what is listed for a region that is given by two corners
-/

namespace Worksheet

theorem Value.error?_eq_some_iff {v : Value} {error : CellError} :
    v.error? = some error ↔ v = .error error := by
  cases v <;> simp [Value.error?]

/-- A number, a text and a chart have a value on every sheet. -/
theorem Sheet.valueOf_eq_error_iff {s : Sheet} {x : Content} {error : CellError} :
    s.valueOf x = .error error ↔ ∃ f, x = .formula f ∧ s.evaluate f = .error error := by
  cases x <;> simp [Sheet.valueOf]

namespace Workbook

variable {w : Workbook} {r : Region} {c : Coord}

/-! ### One cell -/

theorem editText_view_eq_none_iff : (w.view c).editText = none ↔ w.sheet.get? c = none :=
  Option.map_eq_none_iff

/-- The text that is answered with a cell is the text that the grid asks for alone. -/
theorem shown_view (w : Workbook) (c : Coord) : (w.view c).shown = w.shown c := rfl

theorem shown_of_get?_eq_none (h : w.sheet.get? c = none) : w.shown c = "" := by
  rw [shown, Sheet.value?, h]
  rfl

/-- Only a formula can have an error, and it is the one that it evaluates to. -/
theorem view_error_eq_some_iff {error : CellError} :
    (w.view c).error = some error ↔
      ∃ f, w.sheet.get? c = some (.formula f) ∧ w.sheet.evaluate f = .error error := by
  simp only [view, Sheet.value?, Option.bind_eq_some_iff, Option.map_eq_some_iff,
    Value.error?_eq_some_iff]
  constructor
  · rintro ⟨_, ⟨x, hx, rfl⟩, hvalue⟩
    obtain ⟨f, rfl, hevaluate⟩ := Sheet.valueOf_eq_error_iff.mp hvalue
    exact ⟨f, hx, hevaluate⟩
  · rintro ⟨f, hf, hevaluate⟩
    exact ⟨_, ⟨.formula f, hf, rfl⟩, Sheet.valueOf_eq_error_iff.mpr ⟨f, rfl, hevaluate⟩⟩

/-! ### The cells of a region -/

theorem mem_views {v : CellView} :
    v ∈ w.views r ↔ v.cell ∈ r ∧ w.sheet.get? v.cell ≠ none ∧ v = w.view v.cell := by
  rw [views, List.mem_map]
  constructor
  · rintro ⟨⟨c, x⟩, he, rfl⟩
    obtain ⟨hx, hc⟩ := Sheet.mem_scan.mp he
    exact ⟨hc, Option.ne_none_iff_exists'.mpr ⟨x, hx⟩, rfl⟩
  · rintro ⟨hc, hsome, hv⟩
    obtain ⟨x, hx⟩ := Option.ne_none_iff_exists'.mp hsome
    exact ⟨(v.cell, x), Sheet.mem_scan.mpr ⟨hx, hc⟩, hv.symm⟩

theorem pairwise_views (w : Workbook) (r : Region) :
    (w.views r).Pairwise fun v u => v.cell < u.cell := by
  rw [views]
  exact List.pairwise_map.mpr (Sheet.pairwise_scan w.sheet r)

/-- To ask for a region at once is to ask for each of its cells, and to leave out those that hold
nothing. -/
theorem views_eq_filter (w : Workbook) (r : Region) :
    w.views r = (r.cells.map w.view).filter fun v => v.editText.isSome := by
  rw [views, Sheet.scan_eq_scanCells, Sheet.scanCells]
  induction r.cells with
  | nil => rfl
  | cons c rest ih =>
    rw [List.filterMap_cons, Sheet.stored?, List.map_cons, List.filter_cons]
    cases hx : w.sheet.get? c with
    | none =>
      have hnone : (w.view c).editText = none := editText_view_eq_none_iff.mpr hx
      simpa [hnone] using ih
    | some x =>
      have hsome : (w.view c).editText = some x.editText := by rw [view, hx]; rfl
      simpa [hsome] using ih

theorem mem_map_cell_views :
    c ∈ (w.views r).map CellView.cell ↔ c ∈ r ∧ w.sheet.get? c ≠ none := by
  rw [List.mem_map]
  constructor
  · rintro ⟨v, hv, rfl⟩
    obtain ⟨hmem, hsome, -⟩ := mem_views.mp hv
    exact ⟨hmem, hsome⟩
  · rintro ⟨hmem, hsome⟩
    exact ⟨w.view c, mem_views.mpr ⟨hmem, hsome, rfl⟩, rfl⟩

/-- **The cells of a window are listed as they are read one by one**, whichever opposite corners the
window is given by: those that hold something, each once, row by row and with what is known of it
when it is asked for alone. The others have no text to edit and show none. In which order the stored
cells are searched makes no difference. -/
theorem views_spanning (w : Workbook) (a b : Coord) :
    ((w.views (.spanning a b)).Pairwise fun v u => v.cell < u.cell) ∧
    (∀ c, c ∈ (w.views (.spanning a b)).map CellView.cell ↔
      ((min a.row b.row ≤ c.row ∧ c.row ≤ max a.row b.row) ∧
        (min a.col b.col ≤ c.col ∧ c.col ≤ max a.col b.col)) ∧ w.sheet.get? c ≠ none) ∧
    (∀ v ∈ w.views (.spanning a b), v = w.view v.cell ∧ v.shown = w.shown v.cell) ∧
    (∀ c ∈ Region.spanning a b, c ∉ (w.views (.spanning a b)).map CellView.cell →
      (w.view c).editText = none ∧ (w.view c).shown = "" ∧ w.shown c = "") ∧
    w.views (.spanning a b) =
      ((Region.spanning a b).cells.map w.view).filter (fun v => v.editText.isSome) ∧
    (∀ listing : List (Coord × Content), listing.Perm w.sheet.entries →
      (w.sheet.scanListed listing (.spanning a b)).map (fun e => w.view e.1) =
        w.views (.spanning a b)) := by
  refine ⟨pairwise_views w _, fun c => ?_, fun v hv => ?_, fun c hmem hnot => ?_,
    views_eq_filter w _, fun listing hlisting => ?_⟩
  · rw [mem_map_cell_views, Region.mem_spanning]
  · obtain ⟨-, -, heq⟩ := mem_views.mp hv
    exact ⟨heq, (congrArg CellView.shown heq).trans (shown_view w v.cell)⟩
  · have hnone : w.sheet.get? c = none := Decidable.byContradiction fun hsome =>
      hnot (mem_map_cell_views.mpr ⟨hmem, hsome⟩)
    have hshown := shown_of_get?_eq_none hnone
    exact ⟨editText_view_eq_none_iff.mpr hnone, (shown_view w c).trans hshown, hshown⟩
  · rw [Sheet.scanListed_eq_scanCells hlisting, views, Sheet.scan_eq_scanCells]

namespace Window

/-- The cell `B1`. -/
def topRight : Coord := (Coord.ofNat? 0 1).getD .origin

/-- The cell `A2`. -/
def bottomLeft : Coord := (Coord.ofNat? 1 0).getD .origin

/-- A formula without a number to work on, a chart below it, and a text outside the first four
cells. -/
def workbook : Workbook :=
  (blank .standard).run [.insertChart bottomLeft "B2:A1", .enter .origin "=avg(A2)",
    .enter ((Coord.ofNat? 2 0).getD .origin) "x"]

end Window

/-- The corners are on the wrong sides. Two of the four cells are listed, and one that is not is
blank. -/
theorem window_views :
    (Window.workbook.views (.spanning Window.topRight Window.bottomLeft)).map CellView.cell =
      [.origin, Window.bottomLeft] ∧
    Window.workbook.sheet.entries.reverse.Perm Window.workbook.sheet.entries ∧
    (Window.workbook.sheet.scanListed Window.workbook.sheet.entries.reverse
      (.spanning Window.topRight Window.bottomLeft)).map (fun e => Window.workbook.view e.1) =
        Window.workbook.views (.spanning Window.topRight Window.bottomLeft) ∧
    Window.topRight ∈ Region.spanning Window.topRight Window.bottomLeft ∧
    Window.workbook.shown Window.topRight = "" ∧
    (∀ v ∈ Window.workbook.views (.spanning Window.topRight Window.bottomLeft),
      v = Window.workbook.view v.cell) ∧
    (Window.workbook.view .origin).error = some (.emptyAggregate .average) := by
  have hlisted : (Window.workbook.views (.spanning Window.topRight Window.bottomLeft)).map
      CellView.cell = [.origin, Window.bottomLeft] := by decide +kernel
  have hcell : Window.topRight ∈ Region.spanning Window.topRight Window.bottomLeft := by decide
  have hlisting := List.reverse_perm Window.workbook.sheet.entries
  obtain ⟨-, -, hsingle, hblank, -, hsearched⟩ :=
    views_spanning Window.workbook Window.topRight Window.bottomLeft
  exact ⟨hlisted, hlisting, hsearched _ hlisting, hcell,
    (hblank _ hcell (by rw [hlisted]; decide)).2.2, fun v hv => (hsingle v hv).1,
    by decide +kernel⟩

end Workbook

end Worksheet
