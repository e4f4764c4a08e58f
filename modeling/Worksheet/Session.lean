import Worksheet.Session.Key
import Worksheet.Session.Selection

/-!
# Sessions

A session is what a user has under way: the selection, the text being typed into a cell, and the
region that was copied or cut. It does not know the sheet. What a request means for the sheet is
answered as an effect, and whoever holds the sheet applies it.

## Main definitions

* `Edit` — the cell being edited and its text
* `Clip` — the region copied or cut
* `Session` — selection, editor and clipboard
* `Effect` — what a request means for the sheet
* `Session.click`, `Session.act` — clicks and actions
-/

namespace Worksheet

/-- A cell being edited, and what is typed so far. -/
structure Edit where
  cell : Coord
  text : String
deriving DecidableEq

/-- The cell being edited, if there is one. -/
abbrev Editor := Option Edit

namespace Editor

/-- The editor with its text replaced; without a cell being edited nothing changes. -/
def update (e : Editor) (text : String) : Editor := e.map fun edit => { edit with text }

end Editor

/-- A region to be pasted, and whether it is then to be moved rather than copied. -/
structure Clip where
  region : Region
  cut : Bool
deriving DecidableEq

/-- The region to be pasted, if there is one. -/
abbrev Clipboard := Option Clip

namespace Clipboard

/-- The clipboard after pasting: what was cut can be pasted once, and what was copied again and
again. -/
def afterPaste (clipboard : Clipboard) : Clipboard := clipboard.filter fun clip => !clip.cut

end Clipboard

/-- What a request means for the sheet and the page that shows it. -/
inductive Effect where
  /-- Nothing. -/
  | idle
  /-- Show the selection or the editor anew. -/
  | redraw
  /-- Empty the cells of a region. -/
  | clear (region : Region)
  /-- Copy a region so that its top left cell comes to lie at the anchor, or move it there. -/
  | paste (source : Region) (anchor : Coord) (cut : Bool)
  /-- Store a typed text. -/
  | commit (cell : Coord) (typed : String)
deriving DecidableEq

/-- What a user has under way. -/
structure Session where
  selection : Selection
  editor : Editor
  clipboard : Clipboard
deriving DecidableEq

namespace Session

/-- Nothing selected, typed or copied. -/
def idle : Session := ⟨none, none, none⟩

/-- What a click on `c` does. If it opens the cell, `textOf` gives the text to begin with. -/
def click (s : Session) (c : Coord) (shift : Bool) (textOf : Coord → String) :
    ClickOutcome × Session :=
  match s.selection.click c shift with
  | (.opened cell, selection) =>
    (.opened cell, { s with selection, editor := some ⟨cell, textOf cell⟩ })
  | (outcome, selection) => (outcome, { s with selection })

/-- Close the editor and store its text. -/
def commit (s : Session) : Effect × Session :=
  match s.editor with
  | some edit => (.commit edit.cell edit.text, { s with editor := none })
  | none => (.idle, s)

/-- Select what an arrow key selects. -/
def advance (s : Session) (d : Direction) (shift : Bool) (g : Grid) : Effect × Session :=
  match s.selection.advance? d shift g with
  | some r => (.redraw, { s with selection := some r })
  | none => (.idle, s)

/-- Give up what is typed, or the selection if nothing is being edited. -/
def cancel (s : Session) : Effect × Session :=
  match s.editor with
  | some _ => (.redraw, { s with editor := none })
  | none => (.redraw, { s with selection := none })

/-- Remember the selected region, to be copied or to be moved. -/
def remember (s : Session) (cut : Bool) : Effect × Session :=
  match s.selection with
  | some r => (.idle, { s with clipboard := some ⟨r, cut⟩ })
  | none => (.idle, s)

/-- Paste the remembered region at the top left cell of the selected one. -/
def paste (s : Session) : Effect × Session :=
  match s.clipboard, s.selection with
  | some clip, some target =>
    (.paste clip.region target.topLeft clip.cut, { s with clipboard := s.clipboard.afterPaste })
  | _, _ => (.idle, s)

/-- What an action does. -/
def act (s : Session) (g : Grid) : Action → Effect × Session
  | .move d => s.advance d false g
  | .extend d => s.advance d true g
  | .cancel => s.cancel
  | .confirm => s.commit
  | .delete =>
    match s.selection with
    | some r => (.clear r, s)
    | none => (.idle, s)
  | .copy => s.remember false
  | .cut => s.remember true
  | .paste => s.paste
  | .ignore => (.idle, s)

end Session

end Worksheet
