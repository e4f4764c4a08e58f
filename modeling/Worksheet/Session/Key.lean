import Worksheet.Direction

/-!
# Keys and what they ask for

A key press is the key and the modifier keys held with it. What it asks for is an action: arrow keys
move or extend the selection, Escape cancels, Enter confirms what was typed, Delete empties cells,
and the usual letters with the control or the command key copy, cut and paste.

## Main definitions

* `Key`, `Modifiers` — what was pressed
* `Key.ofName` — the key with a given name
* `Action` — what can be asked for
* `Action.ofKey` — what a key press asks for
-/

namespace Worksheet

/-- A key, as far as the sheet tells keys apart. -/
inductive Key where
  | arrow (direction : Direction)
  | enter
  | escape
  | delete
  | char (c : Char)
  | other
deriving DecidableEq

/-- The key with the given name. A name of one character is the key that types it. -/
def Key.ofName (name : String) : Key :=
  match name with
  | "ArrowUp" => arrow .up
  | "ArrowDown" => arrow .down
  | "ArrowLeft" => arrow .left
  | "ArrowRight" => arrow .right
  | "Enter" => enter
  | "Escape" | "Esc" => escape
  | "Delete" | "Del" => delete
  | _ =>
    match name.toList with
    | [c] => char c
    | _ => other

/-- The modifier keys that are held. -/
structure Modifiers where
  shift : Bool
  control : Bool
  alt : Bool
  /-- The command key, or the one with the system's sign. -/
  command : Bool
deriving DecidableEq

namespace Modifiers

/-- No modifier key is held. -/
def none : Modifiers := ⟨false, false, false, false⟩

/-- Whether no modifier key is held. -/
def noneHeld (m : Modifiers) : Bool := !m.shift && !m.control && !m.alt && !m.command

/-- Whether shift is held and no other modifier key. -/
def onlyShift (m : Modifiers) : Bool := m.shift && !m.control && !m.alt && !m.command

/-- Whether the control or the command key is held. -/
def controlOrCommand (m : Modifiers) : Bool := m.control || m.command

end Modifiers

/-- What a user can ask for. -/
inductive Action where
  /-- Select the next cell instead. -/
  | move (direction : Direction)
  /-- Select the next cell as well. -/
  | extend (direction : Direction)
  /-- Give up what is typed, or else the selection. -/
  | cancel
  /-- Store what is typed. -/
  | confirm
  /-- Empty the selected cells. -/
  | delete
  | copy
  | cut
  | paste
  /-- Nothing. -/
  | ignore
deriving DecidableEq

/-- What a key press asks for. -/
def Action.ofKey (key : Key) (m : Modifiers) : Action :=
  match key with
  | .arrow d => if m.noneHeld then move d else if m.onlyShift then extend d else ignore
  | .escape => cancel
  | .enter => if m.noneHeld then confirm else ignore
  | .delete => delete
  | .char c =>
    if m.controlOrCommand then
      match c.toLower with
      | 'c' => copy
      | 'x' => cut
      | 'v' => paste
      | _ => ignore
    else ignore
  | .other => ignore

end Worksheet
