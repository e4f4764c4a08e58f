import Worksheet.Binary64.Text
import Worksheet.CellError

/-!
# Values

What a cell shows: a number, a text, or an error in place of a value.

## Main definitions

* `Value` — the result of evaluating a cell
* `Value.shown` — its text in the grid
-/

namespace Worksheet

/-- The value of a cell. -/
inductive Value where
  | number (value : Binary64)
  | text (value : String)
  | error (cause : CellError)
deriving DecidableEq

namespace Value

/-- The value's number, if it is one. -/
def number? : Value → Option Binary64
  | number x => some x
  | text _ | error _ => none

/-- The error in place of a value, if there is one. -/
def error? : Value → Option CellError
  | error e => some e
  | number _ | text _ => none

/-- The text that the grid shows. -/
def shown : Value → String
  | number x => x.text
  | text s => s
  | error e => e.message

end Value

end Worksheet
