import Worksheet.CellError
import Worksheet.Region

/-!
# Formulas

A formula applies an aggregate to a region, or it is in error because its text could not be read.
Either way it keeps the text it was read from, to be edited again, and either way it names a
function and a region. In error these are not looked at, and `Formula.Body.invalid` fills them in.

## Main definitions

* `Formula.Body` — what the text of a formula says
* `Formula.Body.call`, `Formula.Body.invalid` — a text that could be read, and one that could not
* `Formula` — the text and what it says
-/

namespace Worksheet

/-- What the text of a formula says: to apply a function to a region, unless there is an error. -/
@[ext]
structure Formula.Body where
  function : Aggregate
  region : Region
  /-- Why the text could not be read. -/
  error? : Option CellError
deriving DecidableEq

namespace Formula.Body

/-- Apply a function to a region. -/
def call (function : Aggregate) (region : Region) : Body := ⟨function, region, none⟩

/-- The text is no formula. It stands for the sum of the first cell. -/
def invalid (error : CellError) : Body := ⟨.sum, .single .origin, some error⟩

end Formula.Body

/-- A formula as it was typed and as it was understood. -/
structure Formula where
  source : String
  body : Formula.Body
deriving DecidableEq

namespace Formula

/-- The error of a formula whose text could not be read. -/
def error? (f : Formula) : Option CellError := f.body.error?

/-- The function that the formula applies. -/
def function (f : Formula) : Aggregate := f.body.function

/-- The region that the formula reads. -/
def region (f : Formula) : Region := f.body.region

theorem body_eq_call_iff {f : Formula} {function : Aggregate} {r : Region} :
    f.body = .call function r ↔ f.error? = none ∧ f.function = function ∧ f.region = r := by
  rw [Body.ext_iff, and_comm, and_assoc, and_comm, and_assoc]
  exact Iff.rfl

end Formula

end Worksheet
