import Mathlib.Data.List.Induction
import Mathlib.Data.Nat.Digits.Defs
import Worksheet.Proofs.ColumnLabel

/-!
# Columns and labels correspond

Each column of the axis is written as one label in capitals, and each label that denotes a column of
the axis, in capitals or not, is read as that column. The other strings are not read at all: the
empty one, those with a character that is no letter, and those that denote a number past the axis.

A numeral without a zero is written by dividing, and where the remainder is zero the letter is `Z`
and one has to be taken from the quotient. On natural numbers this can always be done, since nothing
is taken from zero, and so an error would not be seen. Here writing is also done in rounds, each of
which gives up if there is nothing to be taken away. No round does, and seven are enough.

## Main definitions

* `ColumnLabel.writeLetter?` — one round, with its subtraction checked
* `ColumnLabel.writeIn?` — a number of rounds

## Main results

* `ColumnLabel.writeIn?_eq_some` — the rounds write the numeral, and there are few of them
* `ColumnLabel.value_eq_ofDigits` — a label denotes the number with its letters as digits
* `ColumnLabel.encode_corresponds_decode?` — columns and labels correspond
-/

namespace Worksheet

namespace ColumnLabel

/-! ### Writing in rounds -/

/-- What is left of a number after its last letter has been written, and this letter. One is taken
from the quotient if the letter is `Z`, and there is no answer if the quotient is zero then. -/
def writeLetter? (n : Nat) : Option (Nat × Char) :=
  if n % 26 = 0 then
    if n / 26 = 0 then none else some (n / 26 - 1, letter 25)
  else some (n / 26, letter (n % 26 - 1))

/-- The letters of a number in front of those that are written already, if the number is used up in
at most so many rounds. -/
def writeIn? : Nat → Nat → List Char → Option (List Char)
  | _, 0, written => some written
  | 0, _ + 1, _ => none
  | rounds + 1, n + 1, written => do
    let (rest, c) ← writeLetter? (n + 1)
    writeIn? rounds rest (c :: written)

/-- One can always be taken away, as only a multiple of 26 ends in `Z`. -/
theorem exists_writeLetter? {n : Nat} (hn : 0 < n) :
    ∃ rest c, writeLetter? n = some (rest, c) ∧ rest ≤ n / 26 ∧
      numeral n = numeral rest ++ [c] := by
  by_cases hz : n % 26 = 0
  · have hquotient : n / 26 ≠ 0 := by omega
    refine ⟨n / 26 - 1, letter 25, ?_, Nat.sub_le _ _, ?_⟩
    · rw [writeLetter?, if_pos hz, if_neg hquotient]
    · rw [numeral, if_neg hn.ne', if_pos hz]
  · refine ⟨n / 26, letter (n % 26 - 1), ?_, Nat.le_refl _, ?_⟩
    · rw [writeLetter?, if_neg hz]
    · rw [numeral, if_neg hn.ne', if_neg hz]

/-- **Writing ends, and takes nothing from zero.** A number with at most so many digits in plain
base 26 is used up in as many rounds. -/
theorem writeIn?_eq_some {rounds n : Nat} (h : n < 26 ^ rounds) (written : List Char) :
    writeIn? rounds n written = some (numeral n ++ written) := by
  induction rounds generalizing n written with
  | zero =>
    have hzero : n = 0 := by omega
    rw [hzero, writeIn?, numeral_zero, List.nil_append]
  | succ rounds ih =>
    cases n with
    | zero => rw [writeIn?, numeral_zero, List.nil_append]
    | succ n =>
      obtain ⟨rest, c, hround, hrest, hnumeral⟩ := exists_writeLetter? n.succ_pos
      have hquotient : (n + 1) / 26 < 26 ^ rounds := by
        rw [Nat.div_lt_iff_lt_mul (by decide), ← Nat.pow_succ]
        exact h
      have hrounds : writeIn? (rounds + 1) (n + 1) written =
          writeIn? rounds rest (c :: written) := by
        rw [writeIn?, hround]
        rfl
      rw [hrounds, ih (Nat.lt_of_le_of_lt hrest hquotient), hnumeral, List.append_assoc,
        List.singleton_append]

/-! ### Capitals -/

theorem isUpper_letter : ∀ d < 26, (letter d).isUpper = true := by
  decide

theorem isUpper_of_mem_letters {n : Nat} {c : Char} (hc : c ∈ letters n) : c.isUpper = true := by
  obtain ⟨d, hd, rfl⟩ := exists_letter_of_mem_letters hc
  exact isUpper_letter d hd

/-! ### The number of a label -/

/-- The number that a label denotes is the one with its letters as digits, `A` for 1 to `Z` for 26;
the last letter is the digit of the ones. -/
theorem value_eq_ofDigits (label : List Char) :
    value label = Nat.ofDigits 26 (label.reverse.map fun c => letterPlace c + 1) := by
  induction label using List.reverseRecOn with
  | nil => rfl
  | append_singleton init c ih =>
    rw [value_append_singleton, ih, List.reverse_append, List.reverse_singleton,
      List.singleton_append, List.map_cons, Nat.ofDigits_cons, Nat.add_comm]

/-! ### Labels as strings -/

variable {label : String} {n : Nat}

theorem decode?_eq_some_iff :
    decode? label = some n ↔ label ≠ "" ∧ (∀ c ∈ label.toList, c.isAlpha = true) ∧
      value label.toList = n + 1 ∧ n < 0x100000000 := by
  rw [decode?, decodeChars?_eq_some_iff, Ne, String.toList_eq_nil_iff]

theorem encode_ne_empty (n : Nat) : encode n ≠ "" := by
  rw [encode, Ne, String.ofList_eq_empty_iff]
  exact letters_ne_nil n

theorem encode_eq_toUpper (h : decode? label = some n) : encode n = label.toUpper := by
  obtain ⟨-, halpha, hvalue, -⟩ := decode?_eq_some_iff.mp h
  rw [encode, letters_eq_map_toUpper halpha hvalue, String.toUpper, String.map_eq_internal]

/-- A string is not read if it is empty, if it has something else than letters, or if it denotes a
number past the axis. -/
theorem decode?_eq_none_iff :
    decode? label = none ↔ label = "" ∨ (∃ c ∈ label.toList, c.isAlpha = false) ∨
      0x100000000 < value label.toList := by
  constructor
  · intro hnone
    by_contra! hread
    obtain ⟨hne, halpha, hle⟩ := hread
    have hpos : value label.toList ≠ 0 := fun hzero =>
      hne (String.toList_eq_nil_iff.mp (eq_nil_of_value_eq_zero hzero))
    have hsome : decode? label = some (value label.toList - 1) :=
      decode?_eq_some_iff.mpr ⟨hne, fun c hc => Bool.eq_true_of_not_eq_false (halpha c hc),
        by omega, by omega⟩
    rw [hnone] at hsome
    cases hsome
  · intro hunread
    rw [Option.eq_none_iff_forall_ne_some]
    intro n hsome
    obtain ⟨hne, halpha, hvalue, hn⟩ := decode?_eq_some_iff.mp hsome
    rcases hunread with hempty | ⟨c, hc, hnot⟩ | hlarge
    · exact hne hempty
    · rw [halpha c hc] at hnot
      cases hnot
    · omega

/-- **Columns and labels correspond.** A column of the axis is written, in at most seven rounds, as
a label in capitals that is read as this column. A string is read as a column exactly if it consists
of letters, at least one, whose number is that of the column, counted from one, and the column is on
the axis; then it is the label of the column, but for small letters. -/
theorem encode_corresponds_decode? :
    (∀ n < 0x100000000,
      writeIn? 7 (n + 1) [] = some (encode n).toList ∧ encode n ≠ "" ∧
      (∀ c ∈ (encode n).toList, c.isUpper = true) ∧ decode? (encode n) = some n) ∧
    (∀ label n, decode? label = some n ↔ label ≠ "" ∧ (∀ c ∈ label.toList, c.isAlpha = true) ∧
      value label.toList = n + 1 ∧ n < 0x100000000) ∧
    (∀ label n, decode? label = some n → encode n = label.toUpper) ∧
    (∀ label, decode? label = none ↔ label = "" ∨ (∃ c ∈ label.toList, c.isAlpha = false) ∨
      0x100000000 < value label.toList) ∧
    (∀ label, value label = Nat.ofDigits 26 (label.reverse.map fun c => letterPlace c + 1)) := by
  refine ⟨fun n hn => ⟨?_, encode_ne_empty n, fun c hc => ?_, ?_⟩,
    fun _ _ => decode?_eq_some_iff, fun _ _ => encode_eq_toUpper, fun _ => decode?_eq_none_iff,
    value_eq_ofDigits⟩
  · have hrounds : n + 1 < 26 ^ 7 := by omega
    rw [writeIn?_eq_some hrounds, List.append_nil, encode, String.toList_ofList, letters]
  · rw [encode, String.toList_ofList] at hc
    exact isUpper_of_mem_letters hc
  · rw [decode?, encode, String.toList_ofList]
    exact decodeChars?_letters hn

/-- The last column has a label of seven letters, also in small ones, and the next label is not
read. -/
theorem lastColumn_corresponds :
    0xffffffff < 0x100000000 ∧
    writeIn? 7 (0xffffffff + 1) [] = some (encode 0xffffffff).toList ∧
    decode? "mwlqkwv" = some 0xffffffff ∧ encode 0xffffffff = "mwlqkwv".toUpper ∧
    value "mwlqkww".toList = 0xffffffff + 2 ∧ decode? "mwlqkww" = none := by
  obtain ⟨hwritten, hread, hlabel, hunread, -⟩ := encode_corresponds_decode?
  have halpha : ∀ c ∈ "mwlqkwv".toList, c.isAlpha = true := List.all_eq_true.mp (by decide)
  have hlast : decode? "mwlqkwv" = some 0xffffffff :=
    (hread _ _).mpr ⟨by decide, halpha, by decide, by decide⟩
  exact ⟨by decide, (hwritten _ (by decide)).1, hlast, hlabel _ _ hlast, by decide,
    (hunread _).mpr (.inr (.inr (by decide)))⟩

end ColumnLabel

end Worksheet
