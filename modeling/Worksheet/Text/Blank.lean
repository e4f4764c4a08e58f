/-!
# Blank characters

A character is blank when Unicode gives it the property `White_Space`. Typed text and references are
read without the blanks around them, and text that holds nothing else counts as blank.

## Main definitions

* `Text.blankRanges` — the code points with the property, as closed ranges
* `Text.isBlank` — whether a character is blank
* `Text.trimChars` — the characters of a text without the blanks around it
* `Text.allBlank` — whether a text holds blanks only
-/

namespace Worksheet

namespace Text

/-- The code points with the Unicode property `White_Space`: the ASCII blanks and line ends, the
next line control, the no-break space, and the spaces and separators of the blocks above. -/
def blankRanges : List (Nat × Nat) :=
  [(0x09, 0x0d), (0x20, 0x20), (0x85, 0x85), (0xa0, 0xa0), (0x1680, 0x1680), (0x2000, 0x200a),
    (0x2028, 0x2029), (0x202f, 0x202f), (0x205f, 0x205f), (0x3000, 0x3000)]

/-- Whether `c` is white space. -/
def isBlank (c : Char) : Bool :=
  blankRanges.any fun range => decide (range.1 ≤ c.toNat) && decide (c.toNat ≤ range.2)

/-- The characters of a text without the blanks before and after them. -/
def trimChars (text : List Char) : List Char :=
  ((text.dropWhile isBlank).reverse.dropWhile isBlank).reverse

/-- Whether a text holds nothing but blanks; the empty text does. -/
def allBlank (text : String) : Bool := text.toList.all isBlank

@[simp] theorem trimChars_nil : trimChars [] = [] := rfl

end Text

end Worksheet
