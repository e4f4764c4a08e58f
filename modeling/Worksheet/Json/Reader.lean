import Worksheet.Json

/-!
# Reading JSON

A text is read as one JSON value with blanks around it; anything else after the value makes the text
unreadable. Objects and arrays may be nested to any depth.

Each step of the reader takes the text that is left and answers what it read and what is left then.
The steps for values call each other, on ever shorter texts; a bound on the number of calls in a
row, twice the length of the text, lets them be defined by recursion on that bound.

## Main definitions

* `Json.Piece` — a character of a string, or a code unit written as an escape
* `Json.readPieces?` — the contents of a string up to its closing quote
* `Json.textOf?` — the text of a string's contents
* `Json.readNumber?` — a number
* `Json.read?` — the value that a text is
-/

namespace Worksheet

namespace Json

/-- Whether the character may stand between the parts of a value. -/
def isBlank (c : Char) : Bool := c == ' ' || c == '\n' || c == '\t' || c == '\r'

/-- The text after the blanks at its beginning. -/
def skipBlanks (text : List Char) : List Char := text.dropWhile isBlank

/-! ### Strings -/

/-- A part of a string's contents. -/
inductive Piece where
  /-- A character, by itself or by a short escape. -/
  | char (c : Char)
  /-- A 16-bit code unit, escaped by its four hexadecimal digits. -/
  | unit (code : Nat)
deriving DecidableEq

/-- The value of a hexadecimal digit. -/
def hexDigit? (c : Char) : Option Nat :=
  if c.isDigit then some (c.toNat - '0'.toNat)
  else if 'a' ≤ c ∧ c ≤ 'f' then some (c.toNat - 'a'.toNat + 10)
  else if 'A' ≤ c ∧ c ≤ 'F' then some (c.toNat - 'A'.toNat + 10)
  else none

/-- The character that a short escape stands for. -/
def shortEscape? : Char → Option Char
  | '"' => some '"'
  | '\\' => some '\\'
  | '/' => some '/'
  | 'b' => some (Char.ofNat 0x08)
  | 'f' => some (Char.ofNat 0x0c)
  | 'n' => some '\n'
  | 'r' => some '\r'
  | 't' => some '\t'
  | _ => none

/-- The contents of a string up to its closing quote, and what follows the quote. Control characters
have to be escaped. -/
def readPieces? : List Char → Option (List Piece × List Char)
  | [] => none
  | '"' :: rest => some ([], rest)
  | '\\' :: 'u' :: a :: b :: c :: d :: rest => do
    let a ← hexDigit? a
    let b ← hexDigit? b
    let c ← hexDigit? c
    let d ← hexDigit? d
    let (pieces, after) ← readPieces? rest
    return (.unit (((a * 16 + b) * 16 + c) * 16 + d) :: pieces, after)
  | '\\' :: mark :: rest => do
    let c ← shortEscape? mark
    let (pieces, after) ← readPieces? rest
    return (.char c :: pieces, after)
  | c :: rest =>
    if c.toNat < 0x20 then none
    else do
      let (pieces, after) ← readPieces? rest
      return (.char c :: pieces, after)

/-- Whether the code unit is the first half of a surrogate pair. -/
def isHighSurrogate (code : Nat) : Bool := decide (0xd800 ≤ code) && decide (code < 0xdc00)

/-- Whether the code unit is the second half of a surrogate pair. -/
def isLowSurrogate (code : Nat) : Bool := decide (0xdc00 ≤ code) && decide (code < 0xe000)

/-- The characters of a string's contents. Two code units that form a surrogate pair are one
character, and a half of a pair that stands alone is none. -/
def textOf? : List Piece → Option (List Char)
  | [] => some []
  | .char c :: rest => (textOf? rest).map (c :: ·)
  | .unit high :: .unit low :: rest =>
    if isHighSurrogate high && isLowSurrogate low then
      (textOf? rest).map (Char.ofNat (0x10000 + (high - 0xd800) * 0x400 + (low - 0xdc00)) :: ·)
    else if isHighSurrogate high || isLowSurrogate high then none
    else (textOf? (.unit low :: rest)).map (Char.ofNat high :: ·)
  | .unit code :: rest =>
    if isHighSurrogate code || isLowSurrogate code then none
    else (textOf? rest).map (Char.ofNat code :: ·)

/-- The text of the string whose contents begin the given text, and what follows the string. -/
def readString? (text : List Char) : Option (Option String × List Char) :=
  (readPieces? text).map fun (pieces, after) => ((textOf? pieces).map String.ofList, after)

/-! ### Numbers -/

/-- The digits at the beginning of a text, at least one, and what follows them. -/
def readDigits? (text : List Char) : Option (List Char × List Char) :=
  let digits := text.takeWhile Char.isDigit
  if digits = [] then none else some (digits, text.dropWhile Char.isDigit)

/-- What follows a fraction at the beginning of a text, if there is none the whole text. A point
needs digits after it. -/
def skipFraction? : List Char → Option (List Char)
  | '.' :: rest => (readDigits? rest).map Prod.snd
  | text => some text

/-- The text after a sign at its beginning. -/
def skipSign : List Char → List Char
  | '+' :: rest => rest
  | '-' :: rest => rest
  | text => text

/-- What follows an exponent at the beginning of a text, if there is none the whole text. An
exponent mark needs digits after it. -/
def skipExponent? : List Char → Option (List Char)
  | 'e' :: rest => (readDigits? (skipSign rest)).map Prod.snd
  | 'E' :: rest => (readDigits? (skipSign rest)).map Prod.snd
  | text => some text

/-- The number without a sign that a text begins with, and what follows it. Only the number zero
begins with the digit zero. -/
def readUnsigned? (text : List Char) : Option (Json × List Char) := do
  let (digits, afterDigits) ← readDigits? text
  if digits.head? = some '0' ∧ digits ≠ ['0'] then none
  else
    let after ← skipFraction? afterDigits >>= skipExponent?
    let natural? := if after = afterDigits then some (Nat.ofDigitChars 10 digits 0) else none
    return (.number natural?, after)

/-- The number that a text begins with, and what follows it. -/
def readNumber? : List Char → Option (Json × List Char)
  | '-' :: rest => (readUnsigned? rest).map fun (_, after) => (.number none, after)
  | text => readUnsigned? text

/-! ### Values -/

/-- What follows the given word at the beginning of a text. -/
def skipWord? : List Char → List Char → Option (List Char)
  | [], text => some text
  | _ :: _, [] => none
  | c :: word, d :: rest => if c = d then skipWord? word rest else none

mutual

/-- The value that a text begins with, and what follows it. -/
def readValue? : Nat → List Char → Option (Json × List Char)
  | 0, _ => none
  | fuel + 1, text =>
    match text with
    | [] => none
    | '"' :: rest => (readString? rest).map fun (s, after) => (.string s, after)
    | '[' :: rest =>
      match skipBlanks rest with
      | ']' :: after => some (.array [], after)
      | items => (readItems? fuel items).map fun (xs, after) => (.array xs, after)
    | '{' :: rest =>
      match skipBlanks rest with
      | '}' :: after => some (.object [], after)
      | members => (readMembers? fuel members).map fun (ms, after) => (.object ms, after)
    | 'n' :: rest => (skipWord? ['u', 'l', 'l'] rest).map fun after => (.null, after)
    | 't' :: rest => (skipWord? ['r', 'u', 'e'] rest).map fun after => (.bool true, after)
    | 'f' :: rest => (skipWord? ['a', 'l', 's', 'e'] rest).map fun after => (.bool false, after)
    | text => readNumber? text

/-- The items of an array up to its closing bracket, at least one, and what follows the bracket. -/
def readItems? : Nat → List Char → Option (List Json × List Char)
  | 0, _ => none
  | fuel + 1, text => do
    let (item, rest) ← readValue? fuel text
    match skipBlanks rest with
    | ']' :: after => return ([item], after)
    | ',' :: rest => do
      let (items, after) ← readItems? fuel (skipBlanks rest)
      return (item :: items, after)
    | _ => none

/-- The members of an object up to its closing brace, at least one, and what follows the brace. -/
def readMembers? : Nat → List Char → Option (List (Option String × Json) × List Char)
  | 0, _ => none
  | fuel + 1, text => do
    let (key, rest) ← (skipWord? ['"'] text) >>= readString?
    let rest ← skipWord? [':'] (skipBlanks rest)
    let (value, rest) ← readValue? fuel (skipBlanks rest)
    match skipBlanks rest with
    | '}' :: after => return ([(key, value)], after)
    | ',' :: rest => do
      let (members, after) ← readMembers? fuel (skipBlanks rest)
      return ((key, value) :: members, after)
    | _ => none

end

/-- The value that a text is, blanks around it aside. -/
def read? (text : String) : Option Json := do
  let chars := text.toList
  let (value, rest) ← readValue? (2 * chars.length + 2) (skipBlanks chars)
  if skipBlanks rest = [] then some value else none

end Json

end Worksheet
