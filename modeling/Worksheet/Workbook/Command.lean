import Worksheet.Workbook

/-!
# Runs of a workbook

Everything that can change a workbook, as one type of commands, and what is answered to each. A run
is a list of commands, carried out one after another.

## Main definitions

* `Command`, `Reply` — the requests and the answers
* `Workbook.step` — carry out one command
* `Workbook.run` — carry out a list of commands
-/

namespace Worksheet

/-- A request that can change a workbook. -/
inductive Command where
  | enter (cell : Coord) (typed : String)
  | erase (cell : Coord)
  | insertChart (cell : Coord) (reference : String)
  | click (cell : Coord) (shift : Bool)
  | press (key : Key) (modifiers : Modifiers)
  | edit (text : String)
  | commit
  | cancelEdit
  | copy
  | cut
  | paste
deriving DecidableEq

/-- What is answered to a command. -/
inductive Reply where
  /-- Whether something was done. -/
  | flag (done : Bool)
  /-- That a chart was inserted, or why it was not. -/
  | chart (error? : Option CellError)
  /-- What a click did, if it was on the grid. -/
  | clicked (outcome? : Option ClickOutcome)
  /-- The effect on the sheet and the cells that were written or emptied. -/
  | acted (effect : Effect) (changed : List Coord)
  /-- Nothing. -/
  | silent
deriving DecidableEq

namespace Workbook

/-- Carry out a command. -/
def step (w : Workbook) : Command → Reply × Workbook
  | .enter c typed => let (done, w) := w.enter c typed; (.flag done, w)
  | .erase c => let (done, w) := w.erase c; (.flag done, w)
  | .insertChart c reference =>
    match w.insertChart c reference with
    | (.ok (), w) => (.chart none, w)
    | (.error error, w) => (.chart (some error), w)
  | .click c shift => let (outcome, w) := w.click c shift; (.clicked outcome, w)
  | .press key m => let (effect, changed, w) := w.press key m; (.acted effect changed, w)
  | .edit text => let (done, w) := w.edit text; (.flag done, w)
  | .commit => let (effect, changed, w) := w.commit; (.acted effect changed, w)
  | .cancelEdit => (.silent, w.cancelEdit)
  | .copy => let (done, w) := w.copy; (.flag done, w)
  | .cut => let (done, w) := w.cut; (.flag done, w)
  | .paste => let (effect, changed, w) := w.paste; (.acted effect changed, w)

/-- The workbook after a list of commands. -/
def run (w : Workbook) (commands : List Command) : Workbook :=
  commands.foldl (fun w command => (w.step command).2) w

@[simp] theorem run_nil (w : Workbook) : w.run [] = w := rfl

@[simp] theorem run_cons (w : Workbook) (command : Command) (rest : List Command) :
    w.run (command :: rest) = (w.step command).2.run rest := rfl

theorem run_append (w : Workbook) (first second : List Command) :
    w.run (first ++ second) = (w.run first).run second := List.foldl_append

end Workbook

end Worksheet
