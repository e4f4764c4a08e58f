/-!
# Aggregates

The functions that a formula may apply to a region, and the names by which a formula calls them. A
name has to be written exactly, in small letters and without blanks.

## Main definitions

* `Aggregate` — sum, average, minimum, maximum, count
* `Aggregate.name`, `Aggregate.ofName?` — between functions and their names
* `Aggregate.emptyText` — what a cell shows when there was no number to work on

## Main results

* `Aggregate.ofName?_eq_some_iff` — a name belongs to at most one function
-/

namespace Worksheet

/-- A function from the numbers of a region to one number. -/
inductive Aggregate where
  | sum
  | average
  | minimum
  | maximum
  | count
deriving DecidableEq

namespace Aggregate

/-- Every function, in the order in which they are listed to a user. -/
def all : List Aggregate := [sum, average, minimum, maximum, count]

/-- The name by which a formula calls the function. -/
def name : Aggregate → String
  | sum => "sum"
  | average => "avg"
  | minimum => "min"
  | maximum => "max"
  | count => "count"

/-- The function with the given name. -/
def ofName? (text : String) : Option Aggregate := all.find? fun f => f.name = text

/-- The text a cell shows when the function needs a number and its region holds none. An average
over nothing would divide by zero. -/
def emptyText : Aggregate → String
  | average => "DIV0"
  | sum | minimum | maximum | count => "N/A"

@[simp] theorem mem_all (f : Aggregate) : f ∈ all := by
  cases f <;> simp [all]

theorem ofName?_eq_some_iff {text : String} {f : Aggregate} :
    ofName? text = some f ↔ text = f.name := by
  constructor
  · intro h
    have hname := List.find?_some h
    exact (of_decide_eq_true hname).symm
  · rintro rfl
    cases f <;> rfl

end Aggregate

end Worksheet
