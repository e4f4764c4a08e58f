import Worksheet.Coord.Reference
import Worksheet.Formula
import Worksheet.Text.Reader

/-!
# Reading formulas

A formula is written `=name(A1)` or `=name(A1:B4)`. The name runs up to the first parenthesis and
has to be that of a function exactly. Inside the parentheses stand one or two references, the
corners of the region in any order. Spaces, tabs and line ends may stand around each reference and
after the closing parenthesis, and other blanks nowhere.

Every text is read as some formula. A text that breaks these rules is a formula in error, and the
first rule broken, in the order above, decides the error.

## Main definitions

* `Formula.Corners` — the references between the parentheses, as written
* `Formula.arguments` — the reader of an argument list
* `Formula.readCorners?` — the references of an argument list
* `Formula.ofText` — the formula that a text says
-/

namespace Worksheet

namespace Formula

/-- The one or two references between the parentheses of a formula. -/
structure Corners where
  first : List Char
  second? : Option (List Char)
deriving DecidableEq

/-- The characters that may stand around a reference. -/
def isGap (c : Char) : Bool := c == ' ' || c == '\t' || c == '\r' || c == '\n'

/-- The gap at the beginning of a text, which may be empty. -/
def gap : Reader (List Char) := .run isGap

/-- What a reader reads, with gaps around it. -/
def spaced {α : Type} (reader : Reader α) : Reader α := gap.between reader gap

/-- A reference: letters and then digits, at least one of each. Which cell it refers to, if any, is
not looked at here. -/
def reference : Reader (List Char) :=
  (Reader.pair (.run1 Char.isAlpha) (.run1 Char.isDigit)).taken

/-- An argument list: one or two references between parentheses. -/
def arguments : Reader Corners :=
  let corners :=
    (spaced reference).pair ((Reader.char ':').preceded (spaced reference)).optional
  ((spaced (.char '(')).between corners (spaced (.char ')'))).map fun (first, second?) =>
    ⟨first, second?⟩

/-- The references of an argument list, which takes up the whole text. -/
def readCorners? (text : List Char) : Option Corners := arguments.whole? text

/-- The region with the given corners, a second one being the same as the first if there is none.
The first corner that is no cell is the error. -/
def Corners.region (corners : Corners) : Except CellError Region := do
  let a ← Coord.ofReference (String.ofList corners.first)
  let b ←
    match corners.second? with
    | none => pure a
    | some second => Coord.ofReference (String.ofList second)
  return .spanning a b

/-- The region that an argument list names. -/
def readRegion (arguments : List Char) : Except CellError Region :=
  match readCorners? arguments with
  | some corners => corners.region
  | none => .error (.invalidReference (String.ofList (Text.trimChars arguments)))

/-- What a formula says whose text, after the sign that marks formulas, is given. -/
def readBody (text : List Char) : Body :=
  let name := String.ofList (text.takeWhile (· ≠ '('))
  match Aggregate.ofName? name with
  | none => .invalid (.unknownFunction name)
  | some function =>
    match readRegion (text.dropWhile (· ≠ '(')) with
    | .ok region => .call function region
    | .error error => .invalid error

/-- The text of a formula without the sign that marks formulas. -/
def dropMark : List Char → List Char
  | '=' :: rest => rest
  | text => text

/-- The formula that a text says. -/
def ofText (text : String) : Formula := ⟨text, readBody (dropMark text.toList)⟩

end Formula

end Worksheet
