import Worksheet.Proofs.Workbook.Editing

/-!
# Requests that are refused

A request can ask for what cannot be done: to fill a cell off the grid or with a blank text, to
insert a chart of a region that no text refers to, to click beside the grid, to type where no editor
is open, or to empty a cell that is empty. The answer says that it was refused, and why if it was a
chart. Then the workbook is what it was, with all that the user has under way. This is not only a
matter of the cell in question: a click on the grid stores what is being edited before anything
else, so a click beside it must be refused before that.

What is not refused is done, and filling or emptying a cell does nothing besides. In particular an
open editor stays open, even if it is the cell being edited that is filled.

Copying and cutting can be refused as well, when nothing is selected. They are answered as refused
only if there is nothing to be pasted from before either, so what is said of refused requests is
said of them too.

## Main definitions

* `Reply.Refuses` — the answer to a request that was refused
* `Workbook.OnlyCell` — two workbooks that differ in one cell only
* `Workbook.AllOrNothing` — a request is refused for a reason and changes nothing, or it is done

## Main results

* `Workbook.step_of_refuses` — what is refused changes nothing
* `Workbook.step_allOrNothing` — requests are done or refused
-/

namespace Worksheet

/-- The answer says that the request was refused. -/
def Reply.Refuses : Reply → Prop
  | .flag done => done = false
  | .chart error? => error? ≠ none
  | .clicked outcome? => outcome? = none
  | .acted _ _ | .silent => False

namespace Workbook

variable {w : Workbook} {c : Coord} {shift : Bool}

/-- The workbook `v` differs from `w` in the cell `c` only, and there it holds `x`, or nothing. -/
structure OnlyCell (w v : Workbook) (c : Coord) (x : Option Content) : Prop where
  cell : v.sheet.get? c = x
  others : ∀ d, d ≠ c → v.sheet.get? d = w.sheet.get? d
  grid : v.grid = w.grid
  session : v.session = w.session

theorem onlyCell_put (w : Workbook) (c : Coord) (x : Option Content) :
    w.OnlyCell (w.withSheet (w.sheet.put c x)) c x where
  cell := Sheet.get?_put_self w.sheet c x
  others _ hd := Sheet.get?_put_of_ne w.sheet x hd
  grid := rfl
  session := rfl

/-! ### Answers -/

theorem step_enter_eq_false_iff (w : Workbook) (c : Coord) (typed : String) :
    (w.step (.enter c typed)).1 = .flag false ↔
      Text.allBlank typed = true ∨ w.grid.contains c = false := by
  rcases w.enter_cases c typed with ⟨hbad, henter⟩ | ⟨hblank, hgrid, henter⟩
  · simp [step, henter, hbad]
  · simp [step, henter, hblank, hgrid]

theorem step_erase_eq_false_iff (w : Workbook) (c : Coord) :
    (w.step (.erase c)).1 = .flag false ↔ w.sheet.get? c = none := by
  rcases w.erase_cases c with ⟨hempty, herase⟩ | ⟨hheld, herase⟩
  · simp [step, herase, hempty]
  · simp [step, herase, hheld]

theorem step_insertChart_eq_error_iff (w : Workbook) (c : Coord) (reference : String)
    (error : CellError) : (w.step (.insertChart c reference)).1 = .chart (some error) ↔
      Region.ofReference reference = .error error ∨
        ((∃ r, Region.ofReference reference = .ok r) ∧ w.grid.contains c = false ∧
          error = .invalidReference c.reference) := by
  rw [step_insertChart]
  rcases w.insertChart_cases c reference with
    ⟨cause, hread, hinsert⟩ | ⟨r, hread, hgrid, hinsert⟩ | ⟨r, hread, hgrid, hinsert⟩
  · simp [hinsert, hread]
  · simp [hinsert, hread, hgrid, eq_comm]
  · simp [hinsert, hread, hgrid]

theorem click_of_not_contains (hgrid : w.grid.contains c = false) :
    w.click c shift = (none, w) := by
  rw [click, if_neg (by rw [hgrid]; exact Bool.false_ne_true)]

theorem click_eq_none_iff (w : Workbook) (c : Coord) (shift : Bool) :
    (w.click c shift).1 = none ↔ w.grid.contains c = false := by
  cases hgrid : w.grid.contains c with
  | false => rw [click_of_not_contains hgrid]; simp
  | true => rw [click_of_contains shift hgrid]; simp

theorem edit_eq_false_iff (w : Workbook) (text : String) :
    (w.edit text).1 = false ↔ w.session.editor = none := by
  rw [edit, isEditing, Option.isSome_eq_false_iff, Option.isNone_iff_eq_none]

/-! ### What is refused -/

/-- Without an editor there is no text to be replaced. -/
theorem edit_of_closed {text : String} (h : w.session.editor = none) : (w.edit text).2 = w := by
  obtain ⟨grid, sheet, selection, editor, clipboard⟩ := w
  cases h
  rfl

/-- After copying or cutting the clipboard is empty only if it was empty before and nothing is
selected. -/
theorem act_of_clipboard_eq_none {action : Action} (haction : action = .copy ∨ action = .cut)
    (h : (w.act action).2.2.session.clipboard.isSome = false) : (w.act action).2.2 = w := by
  cases hselected : w.session.selection with
  | none =>
    have hends : ¬ action.EndsEditing := by
      rcases haction with rfl | rfl <;> simp [Action.EndsEditing]
    rw [act_of_deselected hselected hends]
  | some r =>
    rw [act, session_settle] at h
    rcases haction with rfl | rfl <;> simp [Session.act, Session.remember, hselected] at h

/-- **What is refused changes nothing.** -/
theorem step_of_refuses {command : Command} (h : (w.step command).1.Refuses) :
    (w.step command).2 = w := by
  cases command with
  | enter c typed =>
    rcases w.enter_cases c typed with ⟨-, henter⟩ | ⟨-, -, henter⟩
    · rw [step, henter]
    · rw [step, henter] at h
      cases h
  | erase c =>
    rcases w.erase_cases c with ⟨-, herase⟩ | ⟨-, herase⟩
    · rw [step, herase]
    · rw [step, herase] at h
      cases h
  | insertChart c reference =>
    rcases w.insertChart_cases c reference with
      ⟨error, -, hinsert⟩ | ⟨r, -, -, hinsert⟩ | ⟨r, -, -, hinsert⟩
    · rw [step, hinsert]
    · rw [step, hinsert]
    · rw [step, hinsert] at h
      exact absurd rfl h
  | click c shift =>
    show (w.click c shift).2 = w
    rw [click_of_not_contains ((w.click_eq_none_iff c shift).mp h)]
  | edit text => exact edit_of_closed ((w.edit_eq_false_iff text).mp h)
  | copy => exact act_of_clipboard_eq_none (.inl rfl) h
  | cut => exact act_of_clipboard_eq_none (.inr rfl) h
  | press key m => cases h
  | commit => cases h
  | cancelEdit => cases h
  | paste => cases h

/-! ### What is done -/

theorem onlyCell_step_enter {typed : String} (h : ¬ (w.step (.enter c typed)).1.Refuses) :
    (w.step (.enter c typed)).1 = .flag true ∧
      w.OnlyCell (w.step (.enter c typed)).2 c (some (.ofEntry typed)) := by
  rcases w.enter_cases c typed with ⟨-, henter⟩ | ⟨-, -, henter⟩
  · rw [step, henter] at h
    exact absurd rfl h
  · rw [step, henter]
    exact ⟨rfl, w.onlyCell_put c (some (.ofEntry typed))⟩

theorem onlyCell_step_insertChart {reference : String}
    (h : ¬ (w.step (.insertChart c reference)).1.Refuses) :
    (w.step (.insertChart c reference)).1 = .chart none ∧
      ∃ r, Region.ofReference reference = .ok r ∧
        w.OnlyCell (w.step (.insertChart c reference)).2 c (some (.chart r)) := by
  rcases w.insertChart_cases c reference with
    ⟨error, -, hinsert⟩ | ⟨r, -, -, hinsert⟩ | ⟨r, hread, -, hinsert⟩
  · rw [step, hinsert] at h
    exact absurd (Option.some_ne_none error) h
  · rw [step, hinsert] at h
    exact absurd (Option.some_ne_none _) h
  · rw [step, hinsert]
    exact ⟨rfl, r, hread, w.onlyCell_put c (some (.chart r))⟩

theorem onlyCell_step_erase (h : ¬ (w.step (.erase c)).1.Refuses) :
    (w.step (.erase c)).1 = .flag true ∧ w.OnlyCell (w.step (.erase c)).2 c none := by
  rcases w.erase_cases c with ⟨-, herase⟩ | ⟨-, herase⟩
  · rw [step, herase] at h
    exact absurd rfl h
  · rw [step, herase]
    exact ⟨rfl, w.onlyCell_put c none⟩

/-! ### All or nothing -/

/-- A request is refused for a reason and then changes nothing, or it is done; and filling or
emptying a cell changes this cell only. -/
structure AllOrNothing (w : Workbook) : Prop where
  /-- A text is not stored if it is blank or the cell off the grid. -/
  enter : ∀ c typed, (w.step (.enter c typed)).1 = .flag false ↔
    Text.allBlank typed = true ∨ w.grid.contains c = false
  /-- A chart is not inserted if the text refers to no region or the cell is off the grid. The first
  is reported before the second. -/
  insertChart : ∀ c reference error, (w.step (.insertChart c reference)).1 = .chart (some error) ↔
    Region.ofReference reference = .error error ∨
      ((∃ r, Region.ofReference reference = .ok r) ∧ w.grid.contains c = false ∧
        error = .invalidReference c.reference)
  /-- A click does nothing if it is off the grid. -/
  click : ∀ c shift, (w.step (.click c shift)).1 = .clicked none ↔ w.grid.contains c = false
  /-- Typing needs an open editor. -/
  edit : ∀ text, (w.step (.edit text)).1 = .flag false ↔ w.session.editor = none
  /-- Emptying a cell needs a cell that is not empty. -/
  erase : ∀ c, (w.step (.erase c)).1 = .flag false ↔ w.sheet.get? c = none
  /-- What is refused changes nothing. -/
  refused : ∀ command, (w.step command).1.Refuses → (w.step command).2 = w
  /-- A text that is stored is stored in its cell, and nothing else is changed. -/
  entered : ∀ c typed, ¬ (w.step (.enter c typed)).1.Refuses →
    (w.step (.enter c typed)).1 = .flag true ∧
      w.OnlyCell (w.step (.enter c typed)).2 c (some (.ofEntry typed))
  /-- A chart that is inserted is one of the region that the text refers to. -/
  inserted : ∀ c reference, ¬ (w.step (.insertChart c reference)).1.Refuses →
    (w.step (.insertChart c reference)).1 = .chart none ∧
      ∃ r, Region.ofReference reference = .ok r ∧
        w.OnlyCell (w.step (.insertChart c reference)).2 c (some (.chart r))
  /-- A cell that is emptied is the only one that is. -/
  erased : ∀ c, ¬ (w.step (.erase c)).1.Refuses →
    (w.step (.erase c)).1 = .flag true ∧ w.OnlyCell (w.step (.erase c)).2 c none

/-- **Requests are done or refused.** This holds of every workbook, whatever is selected, being
edited or to be pasted. -/
theorem step_allOrNothing (w : Workbook) : w.AllOrNothing where
  enter := w.step_enter_eq_false_iff
  insertChart := w.step_insertChart_eq_error_iff
  click c shift := by
    rw [show (w.step (.click c shift)).1 = .clicked (w.click c shift).1 from rfl,
      Reply.clicked.injEq]
    exact w.click_eq_none_iff c shift
  edit text := by
    rw [show (w.step (.edit text)).1 = .flag (w.edit text).1 from rfl, Reply.flag.injEq]
    exact w.edit_eq_false_iff text
  erase := w.step_erase_eq_false_iff
  refused _ := step_of_refuses
  entered _ _ := onlyCell_step_enter
  inserted _ _ := onlyCell_step_insertChart
  erased _ := onlyCell_step_erase

namespace Interrupted

/-- The cell `A2`. -/
def below : Coord := (Coord.ofNat? 1 0).getD .origin

/-- The cell `C1`, beside the grid. -/
def beside : Coord := (Coord.ofNat? 0 2).getD .origin

/-- On a grid of two columns and two rows `A1` is selected and opened, and a text is typed. -/
def workbook : Workbook :=
  (blank .small).run [.click .origin false, .click .origin false, .edit "7"]

end Interrupted

/-- While `A1` is being edited, a click beside the grid is refused and so is a chart there, if its
region is read. A text for `A2` is stored, and `A1` is still being edited. -/
theorem interrupted_allOrNothing :
    Interrupted.workbook.session.editor = some ⟨.origin, "7"⟩ ∧
    Interrupted.workbook.step (.click Interrupted.beside true) =
      (.clicked none, Interrupted.workbook) ∧
    (Interrupted.workbook.step (.insertChart Interrupted.beside "A0")).1 =
      .chart (some (.invalidReference "A0")) ∧
    (Interrupted.workbook.step (.insertChart Interrupted.beside "A1")).1 =
      .chart (some (.invalidReference "C1")) ∧
    (Interrupted.workbook.step (.enter Interrupted.below "x")).2.session.editor =
      some ⟨.origin, "7"⟩ ∧
    (Interrupted.workbook.step (.enter Interrupted.below "x")).2.sheet.get? Interrupted.below =
      some (.ofEntry "x") := by
  have hall := step_allOrNothing Interrupted.workbook
  have hedit : Interrupted.workbook.session.editor = some ⟨.origin, "7"⟩ := by decide
  have hoff : Interrupted.workbook.grid.contains Interrupted.beside = false := by decide
  have hclick := (hall.click Interrupted.beside true).mpr hoff
  have hstored : (Interrupted.workbook.step (.enter Interrupted.below "x")).1 = .flag true := by
    decide +kernel
  have hentered := (hall.entered Interrupted.below "x" (by rw [hstored]; exact Bool.noConfusion)).2
  refine ⟨hedit, Prod.ext hclick (hall.refused _ (by rw [hclick]; rfl)), ?_, ?_, ?_, hentered.cell⟩
  · exact (hall.insertChart _ _ _).mpr (.inl (by rfl))
  · exact (hall.insertChart _ _ _).mpr (.inr ⟨⟨.single .origin, by rfl⟩, hoff, by decide +kernel⟩)
  · rw [hentered.session, hedit]

end Workbook

end Worksheet
