import Worksheet.CellError
import Worksheet.ColumnLabel
import Worksheet.Coord
import Worksheet.Text.Blank

/-!
# References to a cell

A reference is the label of a column followed by the number of a row, as in `B7`. Rows are counted
from one here. A reference is read in capitals or small letters, with leading zeros in its row and
with blanks around it; it is written in capitals and without either.

A row number has to be below `2 ^ 32` to be read. The last row of the axis has the number `2 ^ 32`:
it can be written, but its reference is not read back.

## Main definitions

* `Coord.reference` — the reference to a cell
* `Coord.ofReference` — the cell that a text refers to
-/

namespace Worksheet

namespace Coord

/-- The characters of the reference to `c`. -/
def referenceChars (c : Coord) : List Char :=
  ColumnLabel.letters c.col ++ Nat.toDigits 10 (c.row + 1)

/-- The reference to `c`. -/
def reference (c : Coord) : String := String.ofList c.referenceChars

/-- The letters and the digits of a text that consists of letters and then digits, at least one of
each. -/
def splitReference? (text : List Char) : Option (List Char × List Char) :=
  let letters := text.takeWhile Char.isAlpha
  let digits := text.dropWhile Char.isAlpha
  if letters ≠ [] ∧ digits ≠ [] ∧ digits.all Char.isDigit then some (letters, digits) else none

/-- The zero-based row whose number, which counts from one, has the given digits. -/
def rowOfDigits? (digits : List Char) : Option Nat :=
  let number := Nat.ofDigitChars 10 digits 0
  if 1 ≤ number ∧ number < 0x100000000 then some (number - 1) else none

/-- The cell that the characters refer to. -/
def ofReferenceChars? (text : List Char) : Option Coord := do
  let (letters, digits) ← splitReference? text
  let col ← ColumnLabel.decodeChars? letters
  let row ← rowOfDigits? digits
  ofNat? row col

/-- The cell that a text refers to, read without the blanks around it. The error names the text as
it was given. -/
def ofReference (text : String) : Except CellError Coord :=
  match ofReferenceChars? (Text.trimChars text.toList) with
  | some c => .ok c
  | none => .error (.invalidReference text)

end Coord

end Worksheet
