import Worksheet.Aggregate

/-!
# Errors of a cell

What can go wrong with a cell's formula is a value like any other: the formula keeps it, evaluation
hands it on, and the cell shows its message.

## Main definitions

* `CellError` — the causes
* `CellError.message` — what the cell shows
* `CellError.code` — a name for the cause that does not change with the wording
-/

namespace Worksheet

/-- Why a cell has no value. -/
inductive CellError where
  /-- The text is not a reference to cells. -/
  | invalidReference (text : String)
  /-- No function has this name. -/
  | unknownFunction (name : String)
  /-- The function needs a number, and its region holds none. -/
  | emptyAggregate (function : Aggregate)
deriving DecidableEq

namespace CellError

/-- The text that the cell shows in place of a value. -/
def message : CellError → String
  | invalidReference _ => "Invalid Reference"
  | unknownFunction _ => "Unknown Function"
  | emptyAggregate f => f.emptyText

/-- The cause by a fixed name. -/
def code : CellError → String
  | invalidReference _ => "INVALID_REFERENCE"
  | unknownFunction _ => "UNKNOWN_FUNCTION"
  | emptyAggregate _ => "EMPTY_AGGREGATE"

end CellError

end Worksheet
