import Worksheet.Coord.Reference
import Worksheet.Proofs.ColumnLabel
import Worksheet.Proofs.Text.Blank

/-!
# Which texts refer to a cell

A text refers to a cell if it is a column label and a row number with blanks around them, and if the
label and the number are those of the cell. `Coord.Denotes` says so without saying how it is found
out. It holds of many texts for each cell: of every mixture of capitals and small letters, with any
number of zeros in front of the row, and with any blanks around.

One of these texts is the reference that is written for the cell. It is found from any of the others
by taking away what can vary, and it is read back like them, with one exception. Row numbers are
read below `2 ^ 32`, and rows are numbered from one; so the number of the last row is written, but
not read.

## Main definitions

* `Coord.Spelled` — the label and the row number of a cell
* `Coord.Denotes` — a text refers to a cell
* `Coord.Reading` — what reading a text answers
* `Coord.canonicalChars` — a reference without what can vary in it

## Main results

* `Coord.ofReference_eq_iff` — reading answers the cell denoted, or an error with the whole text
* `Coord.ofReference_reference` — a written reference is read back, but in the last row
* `Coord.Denotes.referenceChars_eq` — what is written is the canonical form of what was read
-/

namespace Worksheet

/-! ### Digits -/

namespace Text

/-- What holds of the ten digits holds of every digit. -/
theorem forall_isDigit {P : Char → Prop} (digit : ∀ d < 10, P (Char.ofNat ('0'.toNat + d)))
    {c : Char} (h : c.isDigit = true) : P c := by
  have h : (decide (48 ≤ c.toNat) && decide (c.toNat ≤ 57)) = true := h
  simp only [Bool.and_eq_true, decide_eq_true_eq] at h
  have hplace : '0'.toNat + (c.toNat - 48) = c.toNat := Nat.add_sub_cancel' h.1
  rw [← Char.ofNat_toNat c, ← hplace]
  exact digit _ (by omega)

theorem isAlpha_of_isDigit {c : Char} (h : c.isDigit = true) : c.isAlpha = false :=
  forall_isDigit (P := fun c => c.isAlpha = false) (by decide) h

/-- A digit is written for the number that it stands for. -/
theorem toDigits_digit {c : Char} (h : c.isDigit = true) :
    c.toNat - '0'.toNat < 10 ∧ Nat.toDigits 10 (c.toNat - '0'.toNat) = [c] :=
  forall_isDigit (P := fun c => c.toNat - '0'.toNat < 10 ∧
    Nat.toDigits 10 (c.toNat - '0'.toNat) = [c]) (by decide) h

/-- Digits after a number other than zero are written after it. -/
theorem toDigits_ofDigitChars_of_pos {digits : List Char} {n : Nat}
    (h : ∀ c ∈ digits, c.isDigit = true) (hn : 0 < n) :
    Nat.toDigits 10 (Nat.ofDigitChars 10 digits n) = Nat.toDigits 10 n ++ digits := by
  induction digits generalizing n with
  | nil => simp [Nat.ofDigitChars_nil]
  | cons c rest ih =>
    obtain ⟨hc, hrest⟩ := List.forall_mem_cons.mp h
    obtain ⟨hlt, hdigit⟩ := toDigits_digit hc
    rw [Nat.ofDigitChars_cons, ih hrest (by omega),
      ← Nat.toDigits_append_toDigits (by decide) hn hlt, hdigit, List.append_assoc]
    rfl

/-- The digits of a number other than zero are those that it was read from, without the zeros in
front. -/
theorem toDigits_ofDigitChars {digits : List Char} (h : ∀ c ∈ digits, c.isDigit = true)
    (hpos : 0 < Nat.ofDigitChars 10 digits 0) :
    Nat.toDigits 10 (Nat.ofDigitChars 10 digits 0) = digits.dropWhile (· = '0') := by
  induction digits with
  | nil => cases hpos
  | cons c rest ih =>
    obtain ⟨hc, hrest⟩ := List.forall_mem_cons.mp h
    rw [Nat.ofDigitChars_cons, Nat.mul_zero, Nat.zero_add] at hpos ⊢
    by_cases hzero : c = '0'
    · subst hzero
      rw [List.dropWhile_cons_of_pos (by decide)]
      exact ih hrest hpos
    · obtain ⟨hlt, hdigit⟩ := toDigits_digit hc
      have hn : 0 < c.toNat - '0'.toNat := by
        refine Nat.pos_of_ne_zero fun heq => hzero ?_
        rw [heq] at hdigit
        exact (List.cons.inj hdigit).1.symm
      rw [toDigits_ofDigitChars_of_pos hrest hn, hdigit,
        List.dropWhile_cons_of_neg (by simpa using hzero)]
      rfl

end Text

namespace Coord

variable {text letters digits : List Char} {c : Coord}

/-! ### The texts that refer to a cell -/

/-- Letters and then digits, at least one of each. -/
structure IsSplit (letters digits : List Char) : Prop where
  letters_ne_nil : letters ≠ []
  isAlpha : ∀ a ∈ letters, a.isAlpha = true
  digits_ne_nil : digits ≠ []
  isDigit : ∀ a ∈ digits, a.isDigit = true

/-- The column label and the row number of `c`, in any spelling. -/
structure Spelled (letters digits : List Char) (c : Coord) : Prop extends
    IsSplit letters digits where
  /-- The label denotes the one-based number of the column. -/
  col : ColumnLabel.value letters = c.col + 1
  /-- The digits denote the one-based number of the row. -/
  row : Nat.ofDigitChars 10 digits 0 = c.row + 1
  /-- The row is not the last one of the axis. -/
  row_lt : c.row + 1 < 0x100000000

/-- The text is the label and the row number of `c`, with blanks around them. -/
def Denotes (text : List Char) (c : Coord) : Prop :=
  ∃ before letters digits after, text = before ++ (letters ++ digits) ++ after ∧
    (∀ a ∈ before, Text.isBlank a = true) ∧ (∀ a ∈ after, Text.isBlank a = true) ∧
    Spelled letters digits c

/-- What reading a text answers: the cell that it refers to, or an error with the text as it is. -/
inductive Reading (text : String) : Except CellError Coord → Prop
  | cell (c : Coord) (h : Denotes text.toList c) : Reading text (.ok c)
  | noCell (h : ∀ c, ¬ Denotes text.toList c) : Reading text (.error (.invalidReference text))

/-- Nothing but letters and digits stands in a reference. -/
theorem IsSplit.notMem (h : IsSplit letters digits) {a : Char} (halpha : a.isAlpha = false)
    (hdigit : a.isDigit = false) : a ∉ letters ++ digits := by
  intro ha
  rcases List.mem_append.mp ha with ha | ha
  · rw [h.isAlpha a ha] at halpha
    cases halpha
  · rw [h.isDigit a ha] at hdigit
    cases hdigit

/-- Nothing but letters, digits and blanks stands in a text that refers to a cell. -/
theorem Denotes.notMem (h : Denotes text c) {a : Char} (halpha : a.isAlpha = false)
    (hdigit : a.isDigit = false) (hblank : Text.isBlank a = false) : a ∉ text := by
  obtain ⟨before, letters, digits, after, rfl, hbefore, hafter, h⟩ := h
  have hblanks : ∀ blanks : List Char, (∀ b ∈ blanks, Text.isBlank b = true) → a ∉ blanks := by
    intro blanks hall ha
    rw [hall a ha] at hblank
    cases hblank
  simp only [List.mem_append, not_or]
  exact ⟨⟨hblanks before hbefore, not_or.mp (mt List.mem_append.mpr (h.notMem halpha hdigit))⟩,
    hblanks after hafter⟩

/-! ### Reading -/

theorem IsSplit.not_isBlank (h : IsSplit letters digits) :
    ∀ a ∈ letters ++ digits, Text.isBlank a = false := by
  intro a ha
  rcases List.mem_append.mp ha with ha | ha
  · exact (ColumnLabel.plain_of_isAlpha (h.isAlpha a ha)).2
  · exact Text.isBlank_of_isDigit (h.isDigit a ha)

/-- The letters end where the digits begin, as no digit is a letter. -/
theorem IsSplit.takeWhile_dropWhile (h : IsSplit letters digits) :
    (letters ++ digits).takeWhile Char.isAlpha = letters ∧
      (letters ++ digits).dropWhile Char.isAlpha = digits := by
  rw [List.takeWhile_append_of_pos h.isAlpha, List.dropWhile_append_of_pos h.isAlpha]
  obtain ⟨-, -, hne, hdigits⟩ := h
  cases digits with
  | nil => exact absurd rfl hne
  | cons d rest =>
    simp [Text.isAlpha_of_isDigit (hdigits d (List.mem_cons_self ..))]

theorem splitReference?_eq_some_iff :
    splitReference? text = some (letters, digits) ↔
      text = letters ++ digits ∧ IsSplit letters digits := by
  constructor
  · intro h
    simp only [splitReference?] at h
    split at h
    · rename_i hsplit
      obtain ⟨rfl, rfl⟩ := Prod.mk.inj (Option.some.inj h)
      obtain ⟨hletters, hdigits, hall⟩ := hsplit
      exact ⟨List.takeWhile_append_dropWhile.symm, hletters,
        List.all_eq_true.mp List.all_takeWhile, hdigits, List.all_eq_true.mp hall⟩
    · cases h
  · rintro ⟨rfl, h⟩
    obtain ⟨htake, hdrop⟩ := h.takeWhile_dropWhile
    simp only [splitReference?, htake, hdrop]
    rw [if_pos ⟨h.letters_ne_nil, h.digits_ne_nil, List.all_eq_true.mpr h.isDigit⟩]

theorem rowOfDigits?_eq_some_iff {row : Nat} :
    rowOfDigits? digits = some row ↔
      Nat.ofDigitChars 10 digits 0 = row + 1 ∧ row + 1 < 0x100000000 := by
  simp only [rowOfDigits?]
  split
  · rw [Option.some.injEq]
    omega
  · simp only [reduceCtorEq, false_iff]
    omega

/-- Reading characters finds the label and the number that they consist of. -/
theorem ofReferenceChars?_eq_some_iff :
    ofReferenceChars? text = some c ↔
      ∃ letters digits, text = letters ++ digits ∧ Spelled letters digits c := by
  simp only [ofReferenceChars?, Option.bind_eq_bind, Option.bind_eq_some_iff, Prod.exists,
    splitReference?_eq_some_iff, rowOfDigits?_eq_some_iff, ColumnLabel.decodeChars?_eq_some_iff,
    ofNat?_eq_some_iff]
  constructor
  · rintro ⟨letters, digits, ⟨htext, hsplit⟩, col, ⟨-, -, hcol, -⟩, row, ⟨hrow, hlt⟩, rfl, rfl⟩
    exact ⟨letters, digits, htext, hsplit, hcol, hrow, hlt⟩
  · rintro ⟨letters, digits, htext, h⟩
    exact ⟨letters, digits, ⟨htext, h.toIsSplit⟩, c.col,
      ⟨h.letters_ne_nil, h.isAlpha, h.col, c.col_lt⟩, c.row, ⟨h.row, h.row_lt⟩, rfl, rfl⟩

theorem ofReferenceChars?_trimChars :
    ofReferenceChars? (Text.trimChars text) = some c ↔ Denotes text c := by
  rw [ofReferenceChars?_eq_some_iff]
  constructor
  · rintro ⟨letters, digits, htrim, h⟩
    obtain ⟨before, after, htext, hbefore, hafter⟩ := Text.exists_append_trimChars text
    exact ⟨before, letters, digits, after, by rw [← htrim]; exact htext, hbefore, hafter, h⟩
  · rintro ⟨before, letters, digits, after, rfl, hbefore, hafter, h⟩
    exact ⟨letters, digits, Text.trimChars_append hbefore h.not_isBlank hafter, h⟩

/-- **Reading answers the cell denoted, or an error with the whole text.** -/
theorem ofReference_eq_iff {text : String} {answer : Except CellError Coord} :
    ofReference text = answer ↔ Reading text answer := by
  rw [ofReference]
  cases hchars : ofReferenceChars? (Text.trimChars text.toList) with
  | some c =>
    have hc := ofReferenceChars?_trimChars.mp hchars
    constructor
    · rintro rfl
      exact .cell c hc
    · rintro (⟨d, hd⟩ | hnone)
      · rw [← ofReferenceChars?_trimChars, hchars] at hd
        rw [Option.some.inj hd]
      · exact absurd hc (hnone c)
  | none =>
    have hnone : ∀ c, ¬ Denotes text.toList c := by
      intro c hc
      rw [← ofReferenceChars?_trimChars, hchars] at hc
      cases hc
    constructor
    · rintro rfl
      exact .noCell hnone
    · rintro (⟨d, hd⟩ | -)
      · exact absurd hd (hnone d)
      · rfl

theorem ofReference_eq_ok_iff {text : String} :
    ofReference text = .ok c ↔ Denotes text.toList c := by
  rw [ofReference_eq_iff]
  constructor
  · intro h
    cases h with
    | cell c h => exact h
  · exact .cell c

theorem ofReference_eq_error_iff {text : String} {error : CellError} :
    ofReference text = .error error ↔
      (∀ c, ¬ Denotes text.toList c) ∧ error = .invalidReference text := by
  rw [ofReference_eq_iff]
  constructor
  · intro h
    cases h with
    | noCell h => exact ⟨h, rfl⟩
  · rintro ⟨h, rfl⟩
    exact .noCell h

theorem ofReference_ofList_eq_ok_iff :
    ofReference (String.ofList text) = .ok c ↔ Denotes text c := by
  rw [ofReference_eq_ok_iff, String.toList_ofList]

theorem ofReference_ofList_eq_error_iff {error : CellError} :
    ofReference (String.ofList text) = .error error ↔
      (∀ c, ¬ Denotes text c) ∧ error = .invalidReference (String.ofList text) := by
  rw [ofReference_eq_error_iff, String.toList_ofList]

/-! ### Written references -/

/-- The reference to any cell consists of letters and digits. -/
theorem isSplit_reference (c : Coord) :
    IsSplit (ColumnLabel.letters c.col) (Nat.toDigits 10 (c.row + 1)) where
  letters_ne_nil := ColumnLabel.letters_ne_nil c.col
  isAlpha _ ha := ColumnLabel.isAlpha_of_mem_letters ha
  digits_ne_nil := Nat.toDigits_ne_nil
  isDigit _ ha := Nat.isDigit_of_mem_toDigits (by decide) (by decide) ha

/-- A reference begins with a capital. -/
theorem exists_referenceChars_cons (c : Coord) :
    ∃ d < 26, ∃ rest, c.referenceChars = ColumnLabel.letter d :: rest := by
  cases hletters : ColumnLabel.letters c.col with
  | nil => exact absurd hletters (ColumnLabel.letters_ne_nil c.col)
  | cons a rest =>
    have hmem : a ∈ ColumnLabel.letters c.col := by
      rw [hletters]
      exact List.mem_cons_self ..
    obtain ⟨d, hd, rfl⟩ := ColumnLabel.exists_letter_of_mem_letters hmem
    refine ⟨d, hd, rest ++ Nat.toDigits 10 (c.row + 1), ?_⟩
    rw [referenceChars, hletters, List.cons_append]

/-- The reference to a cell spells it, unless it is in the last row. -/
theorem spelled_reference (h : c.row + 1 < 0x100000000) :
    Spelled (ColumnLabel.letters c.col) (Nat.toDigits 10 (c.row + 1)) c :=
  ⟨c.isSplit_reference, ColumnLabel.value_letters c.col, Nat.ofDigitChars_ten_toDigits, h⟩

theorem ofReferenceChars?_referenceChars (c : Coord) :
    ofReferenceChars? c.referenceChars = if c.row + 1 < 0x100000000 then some c else none := by
  split
  · rename_i h
    exact ofReferenceChars?_eq_some_iff.mpr ⟨_, _, rfl, spelled_reference h⟩
  · rename_i h
    have hsplit : splitReference? c.referenceChars =
        some (ColumnLabel.letters c.col, Nat.toDigits 10 (c.row + 1)) :=
      splitReference?_eq_some_iff.mpr ⟨rfl, c.isSplit_reference⟩
    have hrow : rowOfDigits? (Nat.toDigits 10 (c.row + 1)) = none := by
      simp [rowOfDigits?, Nat.ofDigitChars_ten_toDigits]
      omega
    simp [ofReferenceChars?, hsplit, ColumnLabel.decodeChars?_letters c.col_lt, hrow]

theorem trimChars_referenceChars (c : Coord) :
    Text.trimChars c.referenceChars = c.referenceChars :=
  Text.trimChars_eq_self c.isSplit_reference.not_isBlank

/-- **A written reference is read back**, unless it is to a cell of the last row: the number of that
row is not read. -/
theorem ofReference_reference (c : Coord) :
    ofReference c.reference =
      if c.row + 1 < 0x100000000 then .ok c else .error (.invalidReference c.reference) := by
  rw [ofReference, reference, String.toList_ofList, trimChars_referenceChars,
    ofReferenceChars?_referenceChars]
  by_cases h : c.row + 1 < 0x100000000
  · rw [if_pos h, if_pos h]
  · rw [if_neg h, if_neg h]

/-- A cell that a text refers to is not in the last row. -/
theorem Denotes.row_lt (h : Denotes text c) : c.row + 1 < 0x100000000 := by
  obtain ⟨_, _, _, _, -, -, -, h⟩ := h
  exact h.row_lt

/-! ### Canonical form -/

/-- A reference with its letters in capitals and without the zeros in front of its row. -/
def canonicalChars (text : List Char) : List Char :=
  (text.takeWhile Char.isAlpha).map Char.toUpper ++
    (text.dropWhile Char.isAlpha).dropWhile (· = '0')

/-- **What is written is the canonical form of what was read.** -/
theorem Denotes.referenceChars_eq (h : Denotes text c) :
    c.referenceChars = canonicalChars (Text.trimChars text) := by
  obtain ⟨before, letters, digits, after, rfl, hbefore, hafter, h⟩ := h
  obtain ⟨htake, hdrop⟩ := h.takeWhile_dropWhile
  rw [Text.trimChars_append hbefore h.not_isBlank hafter, canonicalChars, htake, hdrop,
    referenceChars, ColumnLabel.letters_eq_map_toUpper h.isAlpha h.col, ← h.row,
    Text.toDigits_ofDigitChars h.isDigit (by rw [h.row]; exact Nat.succ_pos _)]

end Coord

end Worksheet
