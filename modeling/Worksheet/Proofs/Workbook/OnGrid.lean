import Worksheet.Proofs.Workbook.Run

/-!
# Nothing leaves the grid

Only some of the operations look at the grid: typing, inserting charts, clicks, and the step of an
arrow key. Copying, cutting, deleting, and storing the text of an editor do not, and rely on what
they work on being on the grid already. So that has to be an invariant of the whole workbook, of its
sheet and of all three parts of its session.

A region lies on a grid when its bottom right cell does (`Grid.covers_iff`), which is all that has
to be looked at when a selection grows.

## Main definitions

* `Region.InOrder`, `Grid.Covers` — a region given by its corners in order, and one on a grid
* `Session.OnGrid` — selection, clipboard and editor are on a grid
* `Workbook.OnGrid` — a whole workbook is on its grid

## Main results

* `Session.OnGrid.change` — a small step of a session stays on the grid
* `Workbook.OnGrid.step` — a command stays on the grid
* `Workbook.onGrid_run` — so does every run
-/

namespace Worksheet

/-- The first corner of the region is above and left of the second, or level with it. -/
def Region.InOrder (r : Region) : Prop :=
  r.topLeft.row ≤ r.bottomRight.row ∧ r.topLeft.col ≤ r.bottomRight.col

theorem Region.inOrder (r : Region) : r.InOrder := ⟨r.row_le, r.col_le⟩

/-! ### Regions on a grid -/

namespace Grid

variable {g : Grid} {r : Region} {c : Coord}

/-- The region lies on the grid with all its cells. -/
def Covers (g : Grid) (r : Region) : Prop := r.InOrder ∧ ∀ c ∈ r, g.contains c = true

/-- The bottom right cell decides, as no other cell is lower or further right. -/
theorem covers_iff : g.Covers r ↔ g.contains r.bottomRight = true := by
  constructor
  · intro h
    exact h.2 _ r.bottomRight_mem
  · intro h
    refine ⟨r.inOrder, fun c hc => ?_⟩
    rw [contains_eq_true] at *
    rw [Region.mem_def] at hc
    omega

theorem covers_single (hc : g.contains c = true) : g.Covers (.single c) := covers_iff.mpr hc

theorem Covers.extend (h : g.Covers r) (hc : g.contains c = true) : g.Covers (r.extend c) := by
  rw [covers_iff, contains_eq_true] at *
  simp only [Region.extend, Region.spanning]
  omega

end Grid

/-! ### Sessions on a grid -/

namespace Session

variable {g : Grid} {s s' : Session}

/-- Everything that a session refers to is on the grid. -/
structure OnGrid (g : Grid) (s : Session) : Prop where
  /-- The selected region, if there is one. -/
  selection : ∀ r, s.selection = some r → g.Covers r
  /-- The region to be pasted, if there is one. -/
  clipboard : ∀ clip, s.clipboard = some clip → g.Covers clip.region
  /-- The cell being edited, if there is one. -/
  editor : ∀ edit, s.editor = some edit → g.contains edit.cell = true

theorem onGrid_idle (g : Grid) : OnGrid g idle := by
  constructor <;> rintro _ ⟨⟩

theorem OnGrid.change (hchange : Change g s s') (h : OnGrid g s) : OnGrid g s' := by
  cases hchange with
  | close => exact ⟨h.selection, h.clipboard, by rintro _ ⟨⟩⟩
  | type text =>
    refine ⟨h.selection, h.clipboard, fun edit hedit => ?_⟩
    obtain ⟨old, hold, rfl⟩ := Option.map_eq_some_iff.mp hedit
    exact h.editor old hold
  | deselect => exact ⟨by rintro _ ⟨⟩, h.clipboard, h.editor⟩
  | select c r hgrid hregion =>
    refine ⟨fun selected hselected => ?_, h.clipboard, h.editor⟩
    cases hselected
    rcases hregion with rfl | ⟨old, hold, rfl⟩
    · exact Grid.covers_single hgrid
    · exact (h.selection old hold).extend hgrid
  | openCell c text hgrid =>
    refine ⟨by rintro _ ⟨⟩, h.clipboard, fun edit hedit => ?_⟩
    cases hedit
    exact hgrid
  | remember r cut hselected =>
    refine ⟨h.selection, fun clip hclip => ?_, h.editor⟩
    cases hclip
    exact h.selection r hselected
  | forget =>
    refine ⟨h.selection, fun clip hclip => ?_, h.editor⟩
    exact h.clipboard clip (Option.filter_eq_some_iff.mp hclip).1

end Session

/-! ### Workbooks on their grid -/

namespace Workbook

variable {w : Workbook}

/-- Everything that a workbook stores or refers to is on its grid. -/
structure OnGrid (w : Workbook) : Prop where
  /-- Only cells of the grid hold anything. -/
  cell : ∀ c x, w.sheet.get? c = some x → w.grid.contains c = true
  /-- The session refers to the grid only. -/
  session : Session.OnGrid w.grid w.session

theorem onGrid_blank (g : Grid) : (blank g).OnGrid :=
  ⟨by rintro c x ⟨⟩, Session.onGrid_idle g⟩

theorem OnGrid.step (h : w.OnGrid) (command : Command) : (w.step command).2.OnGrid := by
  refine ⟨fun c x hx => ?_, ?_⟩
  · rw [grid_step]
    cases origin_step hx with
    | kept hheld => exact h.cell c x hheld
    | pasted _ hgrid | typed _ hgrid | inserted _ _ hgrid => exact hgrid
  · rw [grid_step]
    exact (session_step w command).preserves (fun _ _ hchange hs => hs.change hchange) h.session

/-- **A run stays on the grid.** From the blank workbook on, whatever the commands are: each cell
that holds something, each region that is selected or to be pasted, and the cell being edited lie on
the grid, and the regions of all formulas and charts have their corners in order. -/
theorem onGrid_run (g : Grid) (commands : List Command) :
    (∀ c x, ((blank g).run commands).sheet.get? c = some x → g.contains c = true) ∧
    Session.OnGrid g ((blank g).run commands).session ∧
    (∀ c f, ((blank g).run commands).sheet.get? c = some (.formula f) → f.region.InOrder) ∧
    (∀ c r, ((blank g).run commands).sheet.get? c = some (.chart r) → r.InOrder) := by
  have hrun : ((blank g).run commands).OnGrid :=
    run_induction (fun _ command h => h.step command) (onGrid_blank g) commands
  have hgrid : ((blank g).run commands).grid = g := grid_run (blank g) commands
  refine ⟨fun c x hx => ?_, ?_, fun c f _ => f.region.inOrder, fun c r _ => r.inOrder⟩
  · rw [← hgrid]
    exact hrun.cell c x hx
  · have hsession := hrun.session
    rwa [hgrid] at hsession

end Workbook

end Worksheet
