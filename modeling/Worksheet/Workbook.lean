import Worksheet.Coord.Ordered
import Worksheet.Entry
import Worksheet.Evaluation
import Worksheet.Grid.Description
import Worksheet.Session
import Worksheet.Sheet.Paste
import Worksheet.Sheet.Series

/-!
# Workbooks

A workbook is a sheet on a grid together with the session of its user. Everything that a user does
is an operation on workbooks: it answers what the page has to know, and gives the workbook
afterwards.

Cells can be filled on the grid only. A paste that moves a region does not empty a cell whose new
place is off the grid. Another cell of the region may still come to lie on it.

## Main definitions

* `Workbook` — grid, sheet and session
* `Workbook.enter` — type a text into a cell
* `Workbook.insertChart`, `Workbook.erase` — put a chart into a cell, or empty it
* `Workbook.apply` — do what an effect asks for
* `Workbook.click`, `Workbook.press` — clicks and key presses
* `Workbook.act`, `Workbook.commit` — actions, and storing what is typed
-/

namespace Worksheet

/-- A sheet on a grid, with the session of its user. -/
structure Workbook where
  grid : Grid
  sheet : Sheet
  session : Session
deriving DecidableEq

namespace Workbook

/-- The workbook with an empty sheet on the given grid. -/
def blank (g : Grid) : Workbook := ⟨g, .empty, .idle⟩

/-- Whether a cell is being edited. -/
def isEditing (w : Workbook) : Bool := w.session.editor.isSome

/-- The workbook with another sheet. -/
def withSheet (w : Workbook) (s : Sheet) : Workbook := { w with sheet := s }

/-! ### Filling cells -/

/-- Type a text into the cell at `c`. Nothing is stored if the text is blank or the cell off the
grid; the answer says whether something was. -/
def enter (w : Workbook) (c : Coord) (typed : String) : Bool × Workbook :=
  if Text.allBlank typed || !w.grid.contains c then (false, w)
  else (true, w.withSheet (w.sheet.set c (.ofEntry typed)))

/-- Put a chart of the region that a text refers to into the cell at `c`. A text that refers to no
region is reported before a cell that is off the grid. -/
def insertChart (w : Workbook) (c : Coord) (reference : String) :
    Except CellError Unit × Workbook :=
  match Region.ofReference reference with
  | .error error => (.error error, w)
  | .ok region =>
    if w.grid.contains c then (.ok (), w.withSheet (w.sheet.set c (.chart region)))
    else (.error (.invalidReference c.reference), w)

/-- Empty the cell at `c`; the answer says whether it held something. -/
def erase (w : Workbook) (c : Coord) : Bool × Workbook :=
  if w.sheet.has c then (true, w.withSheet (w.sheet.erase c)) else (false, w)

/-! ### Effects -/

/-- The cells of `source` that hold something and stay on the grid when it is moved to `anchor`. -/
def movedCells (w : Workbook) (source : Region) (anchor : Coord) : List Coord :=
  ((w.sheet.scan source).map Prod.fst).filter fun c =>
    (Sheet.place? source anchor (some w.grid) c).isSome

/-- Copy `source` to `anchor`, or move it there, and answer the cells that were written or emptied.
All of the source is read before the cells to be moved are emptied. -/
def pasteRegion (w : Workbook) (source : Region) (anchor : Coord) (cut : Bool) :
    List Coord × Workbook :=
  let cells := w.sheet.snapshot source
  let moved := if cut then w.movedCells source anchor else []
  let (sheet, written) := (moved.foldl Sheet.erase w.sheet).write source anchor (some w.grid) cells
  (Coord.ordered (moved ++ written), w.withSheet sheet)

/-- Do what an effect asks for, and answer the cells that were written or emptied. -/
def apply (w : Workbook) : Effect → List Coord × Workbook
  | .idle => ([], w)
  | .redraw => ([], w)
  | .clear region =>
    let (sheet, cleared) := w.sheet.clear region
    (cleared, w.withSheet sheet)
  | .paste source anchor cut => w.pasteRegion source anchor cut
  | .commit cell typed =>
    let (stored, w) := w.enter cell typed
    (if stored then [cell] else [], w)

/-- Take up a session's answer: the new session, with its effect applied to the sheet. -/
def settle (w : Workbook) (answer : Effect × Session) : Effect × List Coord × Workbook :=
  let (changed, w) := { w with session := answer.2 }.apply answer.1
  (answer.1, changed, w)

/-! ### Requests -/

/-- Do an action. The answer is its effect and the cells that were written or emptied. -/
def act (w : Workbook) (action : Action) : Effect × List Coord × Workbook :=
  w.settle (w.session.act w.grid action)

/-- Close the editor and store its text. -/
def commit (w : Workbook) : Effect × List Coord × Workbook := w.settle w.session.commit

/-- The action that a key press asks for. While a cell is being edited every key but Enter and
Escape belongs to the editor. -/
def actionOf (w : Workbook) (key : Key) (m : Modifiers) : Action :=
  match Action.ofKey key m with
  | .confirm => .confirm
  | .cancel => .cancel
  | action => if w.isEditing then .ignore else action

/-- Press a key. -/
def press (w : Workbook) (key : Key) (m : Modifiers) : Effect × List Coord × Workbook :=
  w.act (w.actionOf key m)

/-- The text that an editor shows for the cell at `c`. -/
def editText (w : Workbook) (c : Coord) : String := ((w.sheet.get? c).map Content.editText).getD ""

/-- Click on the cell at `c`. Off the grid nothing happens; on it, what is being edited elsewhere is
stored first. -/
def click (w : Workbook) (c : Coord) (shift : Bool) : Option ClickOutcome × Workbook :=
  if w.grid.contains c then
    let (_, _, w) := w.commit
    let (outcome, session) := w.session.click c shift w.editText
    (some outcome, { w with session })
  else (none, w)

/-- Replace the text of the editor; the answer says whether a cell is being edited. -/
def edit (w : Workbook) (text : String) : Bool × Workbook :=
  (w.isEditing, { w with session.editor := w.session.editor.update text })

/-- Give up what is being edited. -/
def cancelEdit (w : Workbook) : Workbook := { w with session.editor := none }

/-- Copy the selected region; the answer says whether there is a region to paste. -/
def copy (w : Workbook) : Bool × Workbook :=
  let (_, _, w) := w.act .copy
  (w.session.clipboard.isSome, w)

/-- Cut the selected region; the answer says whether there is a region to paste. -/
def cut (w : Workbook) : Bool × Workbook :=
  let (_, _, w) := w.act .cut
  (w.session.clipboard.isSome, w)

/-- Paste at the top left cell of the selected region. -/
def paste (w : Workbook) : Effect × List Coord × Workbook := w.act .paste

end Workbook

end Worksheet
