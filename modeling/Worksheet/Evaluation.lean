import Worksheet.Binary64.Arithmetic
import Worksheet.Sheet
import Worksheet.Value

/-!
# Evaluation

An aggregate is applied to the numbers that the cells of its region hold, row by row. Only cells
that hold a number themselves count: a formula among them is passed over, not evaluated. So
evaluation needs no order among formulas, and a formula whose region contains its own cell is
harmless.

## Main definitions

* `Aggregate.apply` — a function's value on a list of numbers
* `Sheet.evaluate` — the value of a formula
* `Sheet.value?` — the value of a cell
-/

namespace Worksheet

/-- The value of a function on a list of numbers. Without a number there is no average, minimum or
maximum. -/
def Aggregate.apply (function : Aggregate) (xs : List Binary64) : Value :=
  match function, xs with
  | sum, xs => .number (Binary64.total xs)
  | count, xs => .number (Binary64.ofNat xs.length)
  | average, [] | minimum, [] | maximum, [] => .error (.emptyAggregate function)
  | average, x :: rest =>
    .number ((Binary64.total (x :: rest)).div (Binary64.ofNat (x :: rest).length))
  | minimum, x :: rest => .number (rest.foldl Binary64.min x)
  | maximum, x :: rest => .number (rest.foldl Binary64.max x)

namespace Sheet

/-- The value of a formula on the sheet. -/
def evaluate (s : Sheet) (f : Formula) : Value :=
  match f.error? with
  | some error => .error error
  | none => f.function.apply (s.numbers f.region)

/-- The value of a content on the sheet. -/
def valueOf (s : Sheet) : Content → Value
  | .number x => .number x
  | .text t => .text t
  | .formula f => s.evaluate f
  | .chart r => .text ("chart(" ++ r.reference ++ ")")

/-- The value of the cell at `c`, if it holds anything. -/
def value? (s : Sheet) (c : Coord) : Option Value := (s.get? c).map s.valueOf

end Sheet

end Worksheet
