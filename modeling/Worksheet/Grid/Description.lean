import Worksheet.Grid
import Worksheet.Json.Reader

/-!
# Describing a grid

A page describes its grid in JSON, either as an object with the members `width` and `height` or as
an array of these two numbers. What is left out is taken from the standard grid: either member, or
the end of the array. Other members of the object are ignored, whatever their values.

A size is written as digits only, without sign, point or exponent. A member that is given twice
makes the description unreadable, and so does a longer array.

## Main definitions

* `Grid.sizeOf?` — the numbers that a description gives
* `Grid.ofDescription` — the grid that a text describes
-/

namespace Worksheet

namespace Grid

/-- The size that an object gives by the member `name`, or `default` if it has no such member. -/
def memberSize? (members : List (Option String × Json)) (name : String) (default : Nat) :
    Option Nat :=
  match members.filter fun m => m.1 = some name with
  | [] => some default
  | [(_, value)] => value.natural?
  | _ => none

/-- The width and the height that a JSON value gives. -/
def sizeOf? : Json → Option (Nat × Nat)
  | .array [] => some (standard.width, standard.height)
  | .array [w] => do return (← w.natural?, standard.height)
  | .array [w, h] => do return (← w.natural?, ← h.natural?)
  | .object members =>
    if members.all fun m => m.1.isSome then do
      return (← memberSize? members "width" standard.width,
        ← memberSize? members "height" standard.height)
    else none
  | _ => none

/-- The grid that a text describes. -/
def ofDescription (text : String) : Except GridError Grid :=
  match Json.read? text >>= sizeOf? with
  | some (width, height) => ofSize width height
  | none => .error .unreadable

end Grid

end Worksheet
