import Worksheet.ColumnLabel
import Worksheet.Text.Blank

/-!
# Column labels are bijective numerals

A string of letters denotes a number: the letters are the digits 1 to 26 of a numeral in base 26.
Writing a column gives the only string of capitals that denotes its one-based number, and reading
a label gives back the number that it denotes, as long as that is on the axis.

Reading checks every step against the length of the axis, and it may stop at a letter in the middle
of a label. This makes no difference to the answer, since a further letter never makes the number
smaller: a label that is refused half-way denotes a number past the axis.

## Main definitions

* `ColumnLabel.value` — the number that a string of letters denotes

## Main results

* `ColumnLabel.exists_letter_of_mem_letters` — a label is made of the 26 letters
* `ColumnLabel.decodeChars?_eq_some_iff` — the column that is read is the one denoted
* `ColumnLabel.value_letters` — a written label denotes the column's one-based number
* `ColumnLabel.letters_eq_map_toUpper` — no other string of capitals does
-/

namespace Worksheet

namespace ColumnLabel

/-! ### Letters -/

/-- What holds of the 26 capitals and of the 26 small letters holds of every letter. -/
theorem forall_isAlpha {P : Char → Prop} (capital : ∀ d < 26, P (letter d))
    (small : ∀ d < 26, P (Char.ofNat ('a'.toNat + d))) {c : Char} (h : c.isAlpha = true) : P c := by
  have h : (decide (65 ≤ c.toNat ∧ c.toNat ≤ 90) ||
      (decide (97 ≤ c.toNat) && decide (c.toNat ≤ 122))) = true := h
  simp only [Bool.or_eq_true, Bool.and_eq_true, decide_eq_true_eq] at h
  rcases h with ⟨hlow, hhigh⟩ | ⟨hlow, hhigh⟩
  · have hplace : 'A'.toNat + (c.toNat - 65) = c.toNat := Nat.add_sub_cancel' hlow
    rw [← Char.ofNat_toNat c, ← hplace]
    exact capital _ (by omega)
  · have hplace : 'a'.toNat + (c.toNat - 97) = c.toNat := Nat.add_sub_cancel' hlow
    rw [← Char.ofNat_toNat c, ← hplace]
    exact small _ (by omega)

theorem letterPlace_lt {c : Char} (h : c.isAlpha = true) : letterPlace c < 26 :=
  forall_isAlpha (P := fun c => letterPlace c < 26) (by decide) (by decide) h

/-- The letter at the place of a letter is that letter as a capital. -/
theorem letter_letterPlace {c : Char} (h : c.isAlpha = true) :
    letter (letterPlace c) = c.toUpper :=
  forall_isAlpha (P := fun c => letter (letterPlace c) = c.toUpper) (by decide) (by decide) h

/-- A letter is neither a digit nor a blank. -/
theorem plain_of_isAlpha {c : Char} (h : c.isAlpha = true) :
    c.isDigit = false ∧ Text.isBlank c = false :=
  forall_isAlpha (P := fun c => c.isDigit = false ∧ Text.isBlank c = false) (by decide) (by decide)
    h

/-- A capital is neither a blank nor a mark, and it does not begin a number. -/
theorem letter_plain : ∀ d < 26, Text.isBlank (letter d) = false ∧ (letter d).isDigit = false ∧
    letter d ∉ ['-', '+', '.', ','] ∧ letter d ≠ '=' := by
  decide

theorem letterPlace_letter : ∀ d < 26, letterPlace (letter d) = d := by
  decide

theorem isAlpha_letter : ∀ d < 26, (letter d).isAlpha = true := by
  decide

/-! ### Written labels -/

/-- To prove something of every column, prove it of those with one letter, and of every further
column assume it of the one that its label without the last letter names. -/
theorem letters_induction {P : Nat → Prop} (one : ∀ n < 26, P n)
    (more : ∀ n, 26 ≤ n → P (n / 26 - 1) → P n) (n : Nat) : P n := by
  induction n using Nat.strongRecOn with
  | ind n ih =>
    rcases Nat.lt_or_ge n 26 with h | h
    · exact one n h
    · exact more n h (ih _ (by omega))

theorem letters_ne_nil (n : Nat) : letters n ≠ [] := by
  rcases Nat.lt_or_ge n 26 with h | h
  · rw [letters_of_lt h]
    exact List.cons_ne_nil _ _
  · rw [letters_of_le h]
    exact List.append_ne_nil_of_right_ne_nil _ (List.cons_ne_nil _ _)

theorem exists_letter_of_mem_letters {n : Nat} {c : Char} (hc : c ∈ letters n) :
    ∃ d < 26, c = letter d := by
  induction n using letters_induction with
  | one n h =>
    rw [letters_of_lt h, List.mem_singleton] at hc
    exact ⟨n, h, hc⟩
  | more n h ih =>
    rw [letters_of_le h, List.mem_append, List.mem_singleton] at hc
    rcases hc with hc | rfl
    · exact ih hc
    · exact ⟨n % 26, Nat.mod_lt _ (by decide), rfl⟩

theorem isAlpha_of_mem_letters {n : Nat} {c : Char} (hc : c ∈ letters n) : c.isAlpha = true := by
  obtain ⟨d, hd, rfl⟩ := exists_letter_of_mem_letters hc
  exact isAlpha_letter d hd

/-! ### The number of a label -/

/-- The number that the letters denote when `n` is denoted by those before them. -/
def valueFrom (n : Nat) (label : List Char) : Nat :=
  label.foldl (fun n c => 26 * n + (letterPlace c + 1)) n

/-- The bijective base 26 number that a string of letters denotes; `A` is the digit 1. -/
def value (label : List Char) : Nat := valueFrom 0 label

@[simp] theorem value_nil : value [] = 0 := rfl

theorem value_append_singleton (label : List Char) (c : Char) :
    value (label ++ [c]) = 26 * value label + (letterPlace c + 1) := by
  simp [value, valueFrom]

theorem valueFrom_cons (n : Nat) (c : Char) (rest : List Char) :
    valueFrom n (c :: rest) = valueFrom (26 * n + (letterPlace c + 1)) rest := rfl

/-- A further letter never makes the number smaller. -/
theorem le_valueFrom (n : Nat) (label : List Char) : n ≤ valueFrom n label := by
  induction label generalizing n with
  | nil => exact Nat.le_refl n
  | cons c rest ih =>
    rw [valueFrom_cons]
    exact Nat.le_trans (by omega) (ih _)

theorem eq_nil_of_value_eq_zero {label : List Char} (h : value label = 0) : label = [] := by
  cases label with
  | nil => rfl
  | cons c rest =>
    have hle := le_valueFrom (26 * 0 + (letterPlace c + 1)) rest
    rw [value, valueFrom_cons] at h
    omega

/-- A string that denotes a number has a last letter. -/
theorem exists_append_singleton {label : List Char} {n : Nat} (h : value label = n + 1) :
    ∃ init c, label = init ++ [c] := by
  have hne : label ≠ [] := by
    rintro rfl
    cases h
  exact ⟨label.dropLast, label.getLast hne, (List.dropLast_concat_getLast hne).symm⟩

/-! ### Reading -/

theorem onAxis?_eq_some_iff {n m : Nat} : onAxis? n = some m ↔ n = m ∧ m < 0x100000000 := by
  rw [onAxis?]
  split
  · rw [Option.some.injEq]
    omega
  · simp only [reduceCtorEq, false_iff]
    omega

/-- The three checks of one step come down to one: that of its result. -/
theorem appendLetter?_some_eq_some_iff {col n : Nat} {c : Char} :
    appendLetter? (some col) c = some n ↔
      c.isAlpha = true ∧ n = 26 * (col + 1) + letterPlace c ∧ n < 0x100000000 := by
  rw [appendLetter?]
  by_cases halpha : c.isAlpha = true
  · simp only [halpha, if_true, true_and, Option.bind_eq_bind, Option.bind_eq_some_iff,
      onAxis?_eq_some_iff]
    constructor
    · rintro ⟨_, ⟨rfl, -⟩, _, ⟨rfl, -⟩, rfl, hn⟩
      exact ⟨by omega, hn⟩
    · rintro ⟨rfl, hn⟩
      exact ⟨col + 1, ⟨rfl, by omega⟩, (col + 1) * 26, ⟨rfl, by omega⟩, by omega, hn⟩
  · simp [halpha]

theorem decodeFrom?_some_eq_some_iff {col n : Nat} {label : List Char} (hcol : col < 0x100000000) :
    decodeFrom? (some col) label = some n ↔
      (∀ c ∈ label, c.isAlpha = true) ∧ valueFrom (col + 1) label = n + 1 ∧ n < 0x100000000 := by
  induction label generalizing col with
  | nil =>
    simp only [decodeFrom?, valueFrom, List.foldl_nil, List.not_mem_nil, false_imp_iff,
      implies_true, true_and, Option.some.injEq]
    omega
  | cons c rest ih =>
    rw [decodeFrom?, Option.bind_eq_bind, Option.bind_eq_some_iff]
    simp only [appendLetter?_some_eq_some_iff]
    have hstep : 26 * (col + 1) + (letterPlace c + 1) = 26 * (col + 1) + letterPlace c + 1 := by
      omega
    rw [valueFrom_cons, hstep, List.forall_mem_cons]
    constructor
    · rintro ⟨next, ⟨halpha, rfl, hnext⟩, hrest⟩
      obtain ⟨hletters, hvalue⟩ := (ih hnext).mp hrest
      exact ⟨⟨halpha, hletters⟩, hvalue⟩
    · rintro ⟨⟨halpha, hletters⟩, hvalue, hn⟩
      -- the number so far is at most the number of the whole label, which is on the axis
      have hle := le_valueFrom (26 * (col + 1) + letterPlace c + 1) rest
      have hnext : 26 * (col + 1) + letterPlace c < 0x100000000 := by omega
      exact ⟨_, ⟨halpha, rfl, hnext⟩, (ih hnext).mpr ⟨hletters, hvalue, hn⟩⟩

/-- **The column that is read is the one denoted.** -/
theorem decodeChars?_eq_some_iff {label : List Char} {n : Nat} :
    decodeChars? label = some n ↔
      label ≠ [] ∧ (∀ c ∈ label, c.isAlpha = true) ∧ value label = n + 1 ∧ n < 0x100000000 := by
  cases label with
  | nil => simp [decodeChars?, decodeFrom?]
  | cons c rest =>
    by_cases halpha : c.isAlpha = true
    · have hplace := letterPlace_lt halpha
      have hstep : 26 * 0 + (letterPlace c + 1) = letterPlace c + 1 := by omega
      rw [decodeChars?, decodeFrom?, appendLetter?, if_pos halpha, Option.bind_eq_bind,
        Option.bind_some, decodeFrom?_some_eq_some_iff (by omega), value, valueFrom_cons, hstep,
        List.forall_mem_cons]
      simp [halpha]
    · simp [decodeChars?, decodeFrom?, appendLetter?, halpha]

/-! ### Writing and reading -/

/-- **A written label denotes the column's one-based number.** -/
theorem value_letters (n : Nat) : value (letters n) = n + 1 := by
  induction n using letters_induction with
  | one n h =>
    rw [letters_of_lt h, ← List.nil_append [letter n], value_append_singleton,
      letterPlace_letter n h]
    exact Nat.zero_add _
  | more n h ih =>
    rw [letters_of_le h, value_append_singleton, ih,
      letterPlace_letter _ (Nat.mod_lt _ (by decide))]
    omega

theorem decodeChars?_letters {n : Nat} (h : n < 0x100000000) : decodeChars? (letters n) = some n :=
  decodeChars?_eq_some_iff.mpr
    ⟨letters_ne_nil n, fun _ hc => isAlpha_of_mem_letters hc, value_letters n, h⟩

/-- **The label of a column is the only one in capitals**: the column that a label denotes is
written as that label with its letters in capitals. -/
theorem letters_eq_map_toUpper {label : List Char} {n : Nat}
    (halpha : ∀ c ∈ label, c.isAlpha = true) (hvalue : value label = n + 1) :
    letters n = label.map Char.toUpper := by
  induction n using letters_induction generalizing label with
  | one n h =>
    obtain ⟨init, c, rfl⟩ := exists_append_singleton hvalue
    have hc := halpha c (List.mem_append_right _ (List.mem_singleton_self c))
    rw [value_append_singleton] at hvalue
    have hinit : init = [] := eq_nil_of_value_eq_zero (by omega)
    have hplace : letterPlace c = n := by
      rw [hinit, value_nil] at hvalue
      omega
    rw [letters_of_lt h, hinit, ← hplace, letter_letterPlace hc]
    rfl
  | more n h ih =>
    obtain ⟨init, c, rfl⟩ := exists_append_singleton hvalue
    have hc := halpha c (List.mem_append_right _ (List.mem_singleton_self c))
    have hlt := letterPlace_lt hc
    rw [value_append_singleton] at hvalue
    have hplace : n % 26 = letterPlace c := by omega
    have hinit := ih (fun d hd => halpha d (List.mem_append_left _ hd))
      (by omega : value init = n / 26 - 1 + 1)
    rw [letters_of_le h, hinit, hplace, letter_letterPlace hc, List.map_append, List.map_singleton]

end ColumnLabel

end Worksheet
