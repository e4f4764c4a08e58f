import Worksheet.Proofs.Sheet.Clear
import Worksheet.Proofs.Workbook.OnGrid

/-!
# The cells to be drawn again

Every answer to a key press, to storing a text and to pasting comes with a list of cells. A page
that draws these cells again, and no others, has to show the new contents of the sheet. So it
matters that no cell is missing whose content is a new one (`Grid.Redraws.complete`). The list may
name other cells too, and does: those that were written with what they held already.

Each effect makes its list in a way of its own. Clearing lists what a scan of the region finds, and
pasting lists what was moved away and what was written, which can be the same cells. What is in
these lists is said by `Sheet.mem_clear` and `Workbook.mem_apply_paste`. The rest follows from what
the cells hold after the effect, which is known already, and from one invariant of runs: only cells
of the grid hold anything (`Workbook.OnGrid.cell`). Clearing and moving rely on it, as they do not
look at the grid for the cells that they empty.

## Main definitions

* `Grid.Redraws` — a list names the cells to be drawn again when one sheet has become another
* `Workbook.AnswersRedraws` — a command answers such a list

## Main results

* `Workbook.mem_apply_paste` — the cells that pasting lists
* `Workbook.redraws_apply` — the list of every effect
* `Workbook.answersRedraws_run` — the list of every answer
-/

namespace Worksheet

/-- A page of the grid that shows the sheet `s` shows the sheet `t` when the listed cells are drawn
again. -/
structure Grid.Redraws (g : Grid) (s t : Sheet) (cells : List Coord) : Prop where
  /-- The cells are listed row by row, and each once. -/
  ordered : cells.Pairwise (· < ·)
  /-- They are on the grid. -/
  onGrid : ∀ c ∈ cells, g.contains c = true
  /-- No cell is missing whose content is not what it was. -/
  complete : ∀ c, t.get? c ≠ s.get? c → c ∈ cells

namespace Grid

variable {g : Grid} {s : Sheet} {c : Coord}

/-- A sheet that is what it was need not be drawn again. -/
theorem redraws_nil (g : Grid) (s : Sheet) : g.Redraws s s [] :=
  ⟨.nil, by rintro c ⟨⟩, fun _ hne => absurd rfl hne⟩

/-- One cell that is filled has to be drawn again. -/
theorem redraws_set (hc : g.contains c = true) (x : Content) : g.Redraws s (s.set c x) [c] where
  ordered := List.pairwise_singleton _ c
  onGrid := by
    intro d hd
    rwa [List.mem_singleton.mp hd]
  complete := by
    intro d hne
    rw [Sheet.get?_set] at hne
    by_cases hd : d = c
    · exact List.mem_singleton.mpr hd
    · rw [if_neg hd] at hne
      exact absurd rfl hne

end Grid

namespace Workbook

variable {w : Workbook} {c : Coord}

/-! ### What the effects list -/

/-- Pasting lists the cells that were moved away and the cells that something was brought to, if
only that there is nothing. -/
theorem mem_apply_paste {source : Region} {anchor : Coord} {cut : Bool} :
    c ∈ (w.apply (.paste source anchor cut)).1 ↔
      (cut = true ∧ c ∈ w.movedCells source anchor) ∨ ∃ d, w.Brings source anchor d c := by
  have hlist : (w.apply (.paste source anchor cut)).1 =
      Coord.ordered ((if cut then w.movedCells source anchor else []) ++
        (Sheet.placed source anchor (some w.grid) (w.sheet.snapshot source)).map Prod.fst) := rfl
  rw [hlist, Coord.mem_ordered, List.mem_append]
  refine or_congr ?_ ?_
  · cases cut <;> simp
  · rw [List.mem_map]
    constructor
    · rintro ⟨⟨t, x⟩, hplaced, rfl⟩
      obtain ⟨d, -, hplace⟩ := Sheet.mem_placed.mp hplaced
      exact ⟨d, place?_grid_eq_some_iff.mp hplace⟩
    · rintro ⟨d, hbrings⟩
      exact ⟨(c, w.sheet.get? d), Sheet.mem_placed.mpr ⟨d, Sheet.mem_snapshot.mpr
        ⟨hbrings.mem, rfl⟩, place?_grid_eq_some_iff.mpr hbrings⟩, rfl⟩

/-! ### One effect -/

section

variable (hheld : ∀ c x, w.sheet.get? c = some x → w.grid.contains c = true)

include hheld

theorem redraws_apply_clear (r : Region) :
    w.grid.Redraws w.sheet (w.apply (.clear r)).2.sheet (w.apply (.clear r)).1 where
  ordered := Sheet.pairwise_clear w.sheet r
  onGrid := by
    intro c hc
    obtain ⟨x, hx⟩ := Option.ne_none_iff_exists'.mp (Sheet.mem_clear.mp hc).2
    exact hheld c x hx
  complete := by
    intro c hne
    rw [show (w.apply (.clear r)).2.sheet = (w.sheet.clear r).1 from rfl, Sheet.get?_clear] at hne
    split at hne
    · rename_i hmem
      exact Sheet.mem_clear.mpr ⟨hmem, hne.symm⟩
    · exact absurd rfl hne

theorem redraws_apply_paste (source : Region) (anchor : Coord) (cut : Bool) :
    w.grid.Redraws w.sheet (w.apply (.paste source anchor cut)).2.sheet
      (w.apply (.paste source anchor cut)).1 where
  ordered := Coord.pairwise_ordered _
  onGrid := by
    intro c hc
    rcases mem_apply_paste.mp hc with ⟨-, hmoved⟩ | ⟨d, hbrings⟩
    · obtain ⟨⟨x, hx⟩, -⟩ := mem_movedCells.mp hmoved
      exact hheld c x hx
    · exact hbrings.2
  complete := by
    intro c hne
    rw [mem_apply_paste]
    by_cases hover : ∃ d, w.Brings source anchor d c
    · exact .inr hover
    · rw [get?_apply_paste_of_not_brings cut (not_exists.mp hover)] at hne
      split at hne
      · rename_i hmoved
        exact .inl hmoved
      · exact absurd rfl hne

omit hheld in
theorem redraws_apply_commit (c : Coord) (text : String) :
    w.grid.Redraws w.sheet (w.apply (.commit c text)).2.sheet (w.apply (.commit c text)).1 := by
  rw [show w.apply (.commit c text) =
    (if (w.enter c text).1 then [c] else [], (w.enter c text).2) from rfl]
  rcases w.enter_cases c text with ⟨-, henter⟩ | ⟨-, hgrid, henter⟩
  · rw [henter]
    exact w.grid.redraws_nil w.sheet
  · rw [henter]
    exact Grid.redraws_set hgrid (.ofEntry text)

/-- **Every effect lists the cells to be drawn again.** -/
theorem redraws_apply (effect : Effect) :
    w.grid.Redraws w.sheet (w.apply effect).2.sheet (w.apply effect).1 := by
  cases effect with
  | idle => exact w.grid.redraws_nil w.sheet
  | redraw => exact w.grid.redraws_nil w.sheet
  | clear r => exact redraws_apply_clear hheld r
  | paste source anchor cut => exact redraws_apply_paste hheld source anchor cut
  | commit c text => exact redraws_apply_commit c text

/-- A session's answer is drawn as its effect is. -/
theorem redraws_settle (answer : Effect × Session) :
    w.grid.Redraws w.sheet (w.settle answer).2.2.sheet (w.settle answer).2.1 :=
  redraws_apply (w := { w with session := answer.2 }) hheld answer.1

end

/-! ### One answer -/

/-- The command is answered with the cells to be drawn again. -/
def AnswersRedraws (w : Workbook) (command : Command) : Prop :=
  ∃ effect cells, (w.step command).1 = .acted effect cells ∧
    w.grid.Redraws w.sheet (w.step command).2.sheet cells

/-- **The list of every answer is complete.** Whatever the commands were, a key press, storing the
text of the editor and pasting are answered with cells of the grid, row by row and each once, and
among them is every cell whose content is not what it was. -/
theorem answersRedraws_run (g : Grid) (commands : List Command) :
    (∀ name m, ((blank g).run commands).AnswersRedraws (.press (.ofName name) m)) ∧
      ((blank g).run commands).AnswersRedraws .commit ∧
      ((blank g).run commands).AnswersRedraws .paste := by
  have hrun : ((blank g).run commands).OnGrid :=
    run_induction (fun _ command h => h.step command) (onGrid_blank g) commands
  refine ⟨fun name m => ?_, ?_, ?_⟩
  · exact ⟨_, _, rfl, redraws_settle hrun.cell _⟩
  · exact ⟨_, _, rfl, redraws_settle hrun.cell _⟩
  · exact ⟨_, _, rfl, redraws_settle hrun.cell _⟩

end Workbook

end Worksheet
