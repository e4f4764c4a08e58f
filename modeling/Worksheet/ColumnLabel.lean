/-!
# Column labels

Columns are labelled `A`, `B`, …, `Z`, `AA`, `AB`, …: the bijective numeral of the column's
one-based number in base 26, whose digits are the letters with the values 1 to 26. There is no digit
for zero, so every non-empty string of letters is the label of exactly one number.

A label is written from its last letter on. Where plain base 26 would write a zero, the letter is
`Z`, and the letters before it stand for one less.

A label is read from its first letter on, and the column counted from zero. Every step is checked
against the length of the axis, so a label that is too long is refused at the letter that leaves the
axis, and no number past the axis is ever multiplied further.

## Main definitions

* `ColumnLabel.letters` — the letters of a zero-based column
* `ColumnLabel.appendLetter?` — the column read so far, with one more letter
* `ColumnLabel.encode`, `ColumnLabel.decode?` — between columns and label text
-/

namespace Worksheet

namespace ColumnLabel

/-- The letter with value `d + 1`. -/
def letter (d : Nat) : Char := Char.ofNat ('A'.toNat + d)

/-- The place of a letter in the alphabet, from 0 for `A` to 25 for `Z`; capitals and small letters
count alike. -/
def letterPlace (c : Char) : Nat := c.toUpper.toNat - 'A'.toNat

/-! ### Writing -/

/-- The bijective numeral of `n` in base 26; that of zero is empty. -/
def numeral (n : Nat) : List Char :=
  if n = 0 then []
  else if n % 26 = 0 then numeral (n / 26 - 1) ++ [letter 25]
  else numeral (n / 26) ++ [letter (n % 26 - 1)]
termination_by n
decreasing_by all_goals omega

/-- The label of column `n`, counted from zero. -/
def letters (n : Nat) : List Char := numeral (n + 1)

/-- The label of a column counted from zero. -/
def encode (n : Nat) : String := String.ofList (letters n)

/-! ### Reading -/

/-- The number, if it is a place of the axis. -/
def onAxis? (n : Nat) : Option Nat := if n < 0x100000000 then some n else none

/-- The column that a label names when `c` is put after what was read of it so far, if anything. A
further letter moves the column up one place of base 26. -/
def appendLetter? (read? : Option Nat) (c : Char) : Option Nat :=
  if c.isAlpha then
    match read? with
    | none => some (letterPlace c)
    | some col => do
      let number ← onAxis? (col + 1)
      let moved ← onAxis? (number * 26)
      onAxis? (moved + letterPlace c)
  else none

/-- The column that a label names whose first letters have been read already. -/
def decodeFrom? : Option Nat → List Char → Option Nat
  | read?, [] => read?
  | read?, c :: rest => do decodeFrom? (some (← appendLetter? read? c)) rest

/-- The zero-based column that a string of characters labels: it has to consist of letters, at least
one, and name a column of the axis. -/
def decodeChars? (label : List Char) : Option Nat := decodeFrom? none label

/-- The zero-based column that a text labels, if it labels one. -/
def decode? (label : String) : Option Nat := decodeChars? label.toList

theorem numeral_zero : numeral 0 = [] := by rw [numeral, if_pos rfl]

theorem letters_of_lt {n : Nat} (h : n < 26) : letters n = [letter n] := by
  rw [letters, numeral, if_neg (by omega)]
  split
  · have hlast : n = 25 := by omega
    subst hlast
    rw [numeral_zero, List.nil_append]
  · rw [show (n + 1) / 26 = 0 by omega, numeral_zero, List.nil_append,
      show (n + 1) % 26 - 1 = n by omega]

/-- The last letter of a longer label stands for the column's remainder, and the letters before it
label a column of their own. -/
theorem letters_of_le {n : Nat} (h : 26 ≤ n) :
    letters n = letters (n / 26 - 1) ++ [letter (n % 26)] := by
  rw [letters, letters, numeral, if_neg (by omega), show n / 26 - 1 + 1 = n / 26 by omega]
  split
  · rw [show (n + 1) / 26 - 1 = n / 26 by omega, show n % 26 = 25 by omega]
  · rw [show (n + 1) / 26 = n / 26 by omega, show (n + 1) % 26 - 1 = n % 26 by omega]

end ColumnLabel

end Worksheet
