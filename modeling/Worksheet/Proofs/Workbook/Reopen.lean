import Worksheet.Proofs.Entry
import Worksheet.Proofs.Workbook.Editing

/-!
# Opening a cell and storing it again

A user who opens a cell, types nothing, and stores what the editor shows expects nothing to happen.
Two things have to come together for that. The click that opens the cell must not store anything
else: it would store what is being edited, but a cell can only be opened if something is selected,
and then nothing is being edited (`Workbook.exclusive_run`). And the text that the editor shows has
to mean what the cell held, which is known of contents that can be typed
(`Content.Storable.equal_ofEntry_editText`). So it has to be known of a run that cells come to hold
no others, apart from charts.

A chart is shown as the reference to its region, and there is no way to type a chart. Opening one
and storing it leaves the reference as a text, as `Workbook.reopenedChart_not_equal` shows.

## Main definitions

* `Workbook.HoldsStorable` — what cells come to hold can be typed, or is a chart

## Main results

* `Workbook.holdsStorable_run` — what cells come to hold
* `Workbook.get?_run_reopen` — every cell after one was opened and stored
-/

namespace Worksheet

/-- A click opens a cell only if it is selected. The cell is opened with its text, and nothing is
selected any more. -/
theorem Session.click_opened {s : Session} {c d : Coord} {shift : Bool} {textOf : Coord → String}
    (h : (s.click c shift textOf).1 = .opened d) :
    d = c ∧ s.selection ≠ none ∧
      (s.click c shift textOf).2 = { s with selection := none, editor := some ⟨c, textOf c⟩ } := by
  cases hsel : s.selection with
  | none => simp [click, Selection.click, hsel] at h
  | some r =>
    by_cases hin : c ∈ r
    · simp only [click, Selection.click, hsel, hin, if_true, ClickOutcome.opened.injEq] at h ⊢
      exact ⟨h.symm, Option.some_ne_none r, trivial⟩
    · cases shift <;> simp [click, Selection.click, hsel, hin] at h

namespace Workbook

variable {w : Workbook} {c d : Coord}

/-! ### Runs -/

/-- Every cell that holds something holds what can be typed, or a chart. -/
def HoldsStorable (w : Workbook) : Prop := ∀ c x, w.sheet.get? c = some x → x.Storable

theorem HoldsStorable.step (h : w.HoldsStorable) (command : Command) :
    (w.step command).2.HoldsStorable := by
  intro c x hx
  cases origin_step hx with
  | kept hheld => exact h c x hheld
  | pasted d hgrid hheld => exact h d x hheld
  | typed text hgrid hblank hmeans =>
    rw [hmeans]
    exact .typed text hblank
  | inserted reference r hgrid hread hchart =>
    rw [hchart]
    exact .chart reference r hread

/-- **What cells come to hold** is what can be typed, and charts. -/
theorem holdsStorable_run (g : Grid) (commands : List Command) :
    ((blank g).run commands).HoldsStorable :=
  run_induction (fun _ command h => h.step command) (by rintro c x ⟨⟩) commands

/-! ### Opening -/

/-- A click that opens a cell changes the session only. -/
theorem click_opened {shift : Bool} (hexclusive : w.session.Exclusive)
    (h : (w.click c shift).1 = some (.opened d)) :
    d = c ∧ w.grid.contains c = true ∧
      (w.click c shift).2 =
        { w with session :=
          { w.session with selection := none, editor := some ⟨c, w.editText c⟩ } } := by
  by_cases hgrid : w.grid.contains c = true
  · rw [click_of_contains shift hgrid] at h ⊢
    have hselected := (Session.click_opened (Option.some.inj h)).2.1
    rw [session_commit] at hselected
    -- something is selected, so nothing is being edited and committing does nothing
    have hcommit : w.commit.2.2 = w := commit_of_closed (hexclusive.resolve_right hselected)
    rw [hcommit] at h ⊢
    obtain ⟨hcell, -, hsession⟩ := Session.click_opened (Option.some.inj h)
    exact ⟨hcell, hgrid, by rw [hsession]⟩
  · rw [click, if_neg hgrid] at h
    cases h

/-! ### Storing -/

/-- Typing what an editor shows for a cell changes that cell only, and not in what it means. -/
theorem get?_enter_editText (hgrid : w.grid.contains c = true) (hstorable : w.HoldsStorable) :
    (∀ t, t ≠ c → (w.enter c (w.editText c)).2.sheet.get? t = w.sheet.get? t) ∧
      Option.Rel Content.Equal ((w.enter c (w.editText c)).2.sheet.get? c)
        ((w.sheet.get? c).map Content.retyped) := by
  cases hx : w.sheet.get? c with
  | none =>
    have htext : w.editText c = "" := by rw [editText, hx]; rfl
    rw [htext, show w.enter c "" = (false, w) from rfl, hx]
    exact ⟨fun t _ => rfl, .none⟩
  | some x =>
    have htext : w.editText c = x.editText := by rw [editText, hx]; rfl
    have henter : (w.enter c x.editText).2.sheet = w.sheet.set c (.ofEntry x.editText) := by
      rw [enter, (hstorable c x hx).allBlank_editText, hgrid]
      rfl
    rw [htext, henter]
    refine ⟨fun t ht => by rw [Sheet.get?_set, if_neg ht], ?_⟩
    rw [Sheet.get?_set, if_pos rfl]
    exact .some (hstorable c x hx).equal_ofEntry_editText

/-! ### Both together -/

/-- **Opening a cell and storing what the editor shows** leaves every cell as it was, up to the sign
of a zero, but for one thing: a chart gives way to the reference to its region. -/
theorem get?_run_reopen (g : Grid) (commands : List Command) {c d : Coord} {shift : Bool}
    {store : Command}
    (hopened : (((blank g).run commands).step (.click c shift)).1 = .clicked (some (.opened d)))
    (hstores : store.Stores g) :
    (∀ t, t ≠ c → ((blank g).run (commands ++ [.click c shift, store])).sheet.get? t =
      ((blank g).run commands).sheet.get? t) ∧
    Option.Rel Content.Equal
      (((blank g).run (commands ++ [.click c shift, store])).sheet.get? c)
      ((((blank g).run commands).sheet.get? c).map Content.retyped) := by
  rw [run_append]
  have hgrid := grid_run (blank g) commands
  have hexclusive := exclusive_run g commands
  have hstorable := holdsStorable_run g commands
  generalize (blank g).run commands = w at *
  obtain ⟨-, hcell, hclick⟩ := click_opened hexclusive (Reply.clicked.inj hopened)
  have hsheet : (w.run [.click c shift, store]).sheet = (w.enter c (w.editText c)).2.sheet := by
    show ((w.click c shift).2.step store).2.sheet = _
    rw [hclick, sheet_step_of_stores (by rwa [hgrid]), sheet_commit rfl, sheet_enter]
  rw [hsheet]
  exact get?_enter_editText hcell hstorable

namespace Reopened

/-- A negative zero is typed into `A1`, and the cell is selected. -/
def zero : List Command := [.enter .origin "-0", .click .origin false]

/-- A chart of the whole grid is inserted in `A1`, and the cell is selected. -/
def chart : List Command := [.insertChart .origin "A1:B2", .click .origin false]

end Reopened

/-- A negative zero that is opened and stored again is equal to what it was. -/
theorem reopenedZero_equal :
    ((blank .small).run Reopened.zero).sheet.get? .origin = some (.number (.zero true)) ∧
      Option.Rel Content.Equal
        (((blank .small).run (Reopened.zero ++
          [.click .origin false, .press .enter .none])).sheet.get? .origin)
        (some (.number (.zero true))) := by
  have hheld : ((blank .small).run Reopened.zero).sheet.get? .origin =
      some (.number (.zero true)) := by decide
  have hopened : (((blank .small).run Reopened.zero).step (.click .origin false)).1 =
      .clicked (some (.opened .origin)) := by decide
  refine ⟨hheld, ?_⟩
  have hequal := (get?_run_reopen .small Reopened.zero hopened .confirm).2
  rwa [hheld] at hequal

/-- A chart that is opened and stored again is not what it was: the click opens the cell, nothing is
typed, and committing leaves a text. -/
theorem reopenedChart_not_equal :
    (((blank .small).run Reopened.chart).step (.click .origin false)).1 =
        .clicked (some (.opened .origin)) ∧
      Command.Stores .small .commit ∧
      ¬ Option.Rel Content.Equal
        (((blank .small).run (Reopened.chart ++ [.click .origin false, .commit])).sheet.get?
          .origin)
        (((blank .small).run Reopened.chart).sheet.get? .origin) := by
  have hbefore : ((blank .small).run Reopened.chart).sheet.get? .origin =
      some (.chart (.spanning .origin ⟨1, 1, by decide, by decide⟩)) := by decide +kernel
  have hafter : ((blank .small).run
      (Reopened.chart ++ [.click .origin false, .commit])).sheet.get? .origin =
      some (.text "A1:B2") := by decide +kernel
  refine ⟨by decide +kernel, .commit, fun hequal => ?_⟩
  rw [hafter, hbefore] at hequal
  cases hequal with
  | some h => cases h

end Workbook

end Worksheet
