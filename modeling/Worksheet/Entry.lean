import Worksheet.Binary64.Literal
import Worksheet.Content
import Worksheet.Formula.Reader

/-!
# Typed text

What a text means that is typed into a cell. If it begins with an equals sign it is a formula. If,
without the blanks around it, it begins with a number literal, it is that number, and what follows
the literal is ignored; the first comma counts as a decimal point. Anything else is kept as text,
blanks included, and so is a literal too large to be a finite number.

## Main definitions

* `Entry.number?` — the number that a typed text begins with
* `Content.ofEntry` — the content that a typed text means
-/

namespace Worksheet

namespace Entry

/-- The text with its first comma replaced by a point. -/
def commaToPoint : List Char → List Char
  | [] => []
  | c :: rest => if c = ',' then '.' :: rest else c :: commaToPoint rest

/-- The finite number whose literal the text begins with, blanks aside. -/
def number? (text : List Char) : Option Binary64 := do
  let (chars, _) ← Literal.reader (commaToPoint (Text.trimChars text))
  let literal ← Literal.ofChars? chars
  if literal.value.isFinite then some literal.value else none

/-- Whether the text is marked as a formula. -/
def isFormula (text : List Char) : Bool := text.head? == some '='

end Entry

/-- The content that a typed text means. -/
def Content.ofEntry (typed : String) : Content :=
  if Entry.isFormula typed.toList then .formula (.ofText typed)
  else match Entry.number? typed.toList with
    | some x => .number x
    | none => .text typed

end Worksheet
