import Worksheet.Binary64.Decimal
import Worksheet.Text.Reader

/-!
# Number literals

A literal is an optional sign, digits with an optional point before, among or after them, and an
optional exponent: `7`, `-3.5`, `.5`, `7.`, `+1e-3`. At least one digit stands before the exponent.

A number is read in two steps. `Literal.reader` takes a literal from the beginning of a text,
whatever follows it; an exponent mark without digits after it is left to what follows. Then
`Literal.ofChars?` finds the parts of the literal, and with them its value.

## Main definitions

* `Literal` — the parts of a literal
* `Literal.value` — the binary64 number nearest to it
* `Literal.reader` — the reader of literals
* `Literal.ofChars?` — the literal that is written in a text
-/

namespace Worksheet

/-- The sign, the digits before and after the point, and the exponent of a literal. -/
structure Literal where
  negative : Bool
  whole : List Char
  fraction : List Char
  exponent : Int
deriving DecidableEq

namespace Literal

/-- The exact decimal that the literal denotes, apart from its sign. -/
def decimal (l : Literal) : Decimal where
  coefficient := Nat.ofDigitChars 10 (l.whole ++ l.fraction) 0
  exponent := l.exponent - l.fraction.length

/-- The binary64 number nearest to the literal. -/
def value (l : Literal) : Binary64 := l.decimal.nearest l.negative

/-! ### Taking a literal from a text -/

/-- A sign, if there is one. -/
def signReader : Reader (Option Char) := (Reader.oneOf ['+', '-']).optional

/-- Digits, at least one of them, with a point before, among or after them if there is one. -/
def digitsReader : Reader (List Char) :=
  .either
    (Reader.pair (.run1 Char.isDigit) ((Reader.char '.').pair (.run Char.isDigit)).optional).taken
    ((Reader.char '.').pair (.run1 Char.isDigit)).taken

/-- An exponent with its mark. -/
def exponentReader : Reader (Char × Option Char × List Char) :=
  (Reader.oneOf ['e', 'E']).pair (signReader.pair (.run1 Char.isDigit))

/-- The literal at the beginning of a text. -/
def reader : Reader (List Char) :=
  (signReader.pair (digitsReader.pair exponentReader.optional)).taken

/-! ### The parts of a literal -/

/-- Whether the text begins with a minus sign, and the text after a sign of either kind. -/
def takeSign : List Char → Bool × List Char
  | '-' :: rest => (true, rest)
  | '+' :: rest => (false, rest)
  | text => (false, text)

/-- The digits at the beginning of a text, and what follows them. -/
def takeDigits (text : List Char) : List Char × List Char :=
  (text.takeWhile Char.isDigit, text.dropWhile Char.isDigit)

/-- The digits after a point at the beginning of a text, and what follows them. -/
def takeFraction : List Char → List Char × List Char
  | '.' :: rest => takeDigits rest
  | text => ([], text)

/-- The exponent at the beginning of a text, and what follows it. Without a complete exponent there
it is zero, and nothing is taken. -/
def takeExponent (text : List Char) : Int × List Char :=
  match text with
  | [] => (0, [])
  | mark :: rest =>
    let (negative, unsigned) := takeSign rest
    let (digits, after) := takeDigits unsigned
    if (mark = 'e' ∨ mark = 'E') ∧ digits ≠ [] then
      let size : Int := Nat.ofDigitChars 10 digits 0
      (if negative then -size else size, after)
    else (0, text)

/-- The literal that is written in a text, which holds nothing else. -/
def ofChars? (text : List Char) : Option Literal :=
  let (negative, unsigned) := takeSign text
  let (whole, afterWhole) := takeDigits unsigned
  let (fraction, afterFraction) := takeFraction afterWhole
  let (exponent, rest) := takeExponent afterFraction
  if (whole ≠ [] ∨ fraction ≠ []) ∧ rest = [] then some ⟨negative, whole, fraction, exponent⟩
  else none

end Literal

end Worksheet
