import Mathlib.Data.List.Shortlex
import Worksheet.Grid
import Worksheet.Proofs.ColumnLabel.Bijection

/-!
# Labels are ordered like their columns

The columns of a grid are headed by their labels. From left to right the labels increase, in the
order in which a shorter label comes before a longer one and labels of one length are in
alphabetical order.

The places to look at are those where a letter is used up: after `AZ` comes `BA`, and after `ZZ`
comes `AAA`. They need no case of their own. A label is that of the quotient by 26 with one letter
for the remainder put after it. A larger column has a larger quotient, and then the labels before
the last letters are in order by induction, whatever these letters are
(`ColumnLabel.shortlex_append_singleton`); or it has the same quotient and a larger remainder, and
then the last letters decide.

## Main definitions

* `ColumnLabel.Precedes` — shorter labels first, then in alphabetical order

## Main results

* `ColumnLabel.precedes_encode_iff` — labels are ordered like their columns
* `ColumnLabel.length_letters_le` — how long a label can be
* `ColumnLabel.columnLabels_ordered` — the labels of a grid, from left to right
-/

namespace Worksheet

namespace ColumnLabel

/-! ### The order of labels -/

/-- The order of labels: a shorter one comes first, and of two with the same length the one that is
first in the alphabet. -/
def Precedes (label other : String) : Prop :=
  List.Shortlex (· < ·) label.toList other.toList

/-- What is put after two words of one length does not change which is first. -/
theorem lex_append {s t : List Char} (h : List.Lex (· < ·) s t) (hlength : s.length = t.length)
    (u v : List Char) : List.Lex (· < ·) (s ++ u) (t ++ v) := by
  induction h with
  | nil => cases hlength
  | cons _ ih => exact .cons (ih (Nat.succ.inj hlength))
  | rel hlt => exact .rel hlt

theorem shortlex_append_singleton {s t : List Char} (h : List.Shortlex (· < ·) s t) (c d : Char) :
    List.Shortlex (· < ·) (s ++ [c]) (t ++ [d]) := by
  rw [List.shortlex_def] at h
  rcases h with hshorter | ⟨hlength, hlex⟩
  · refine .of_length_lt ?_
    rw [List.length_append, List.length_append]
    exact Nat.add_lt_add_right hshorter 1
  · refine .of_lex ?_ (lex_append hlex hlength [c] [d])
    rw [List.length_append, List.length_append, hlength]
    rfl

/-! ### Labels of columns -/

variable {m n : Nat}

theorem letter_lt_letter : ∀ e < 26, ∀ d < e, letter d < letter e := by
  decide

/-- The label of a larger column comes later. -/
theorem shortlex_letters (h : m < n) : List.Shortlex (· < ·) (letters m) (letters n) := by
  induction n using letters_induction generalizing m with
  | one n hn =>
    rw [letters_of_lt (Nat.lt_trans h hn), letters_of_lt hn, List.shortlex_singleton_iff]
    exact letter_lt_letter n hn m h
  | more n hn ih =>
    rcases Nat.lt_or_ge m 26 with hm | hm
    · -- one letter before at least two
      have hpos : 0 < (letters (n / 26 - 1)).length := List.length_pos_iff.mpr (letters_ne_nil _)
      refine .of_length_lt ?_
      rw [letters_of_lt hm, letters_of_le hn, List.length_append]
      exact Nat.succ_lt_succ hpos
    · rw [letters_of_le hm, letters_of_le hn]
      rcases Nat.lt_or_ge (m / 26) (n / 26) with hquotient | hquotient
      · exact shortlex_append_singleton (ih (by omega)) _ _
      · have hsame : m / 26 = n / 26 := by omega
        have hremainder : m % 26 < n % 26 := by omega
        rw [hsame]
        refine List.Shortlex.append_left ?_ _
        rw [List.shortlex_singleton_iff]
        exact letter_lt_letter _ (Nat.mod_lt n (by decide)) _ hremainder

/-- **Labels are ordered like their columns.** -/
theorem precedes_encode_iff : Precedes (encode m) (encode n) ↔ m < n := by
  rw [Precedes, encode, encode, String.toList_ofList, String.toList_ofList]
  constructor
  · intro h
    rcases Nat.lt_trichotomy m n with hlt | rfl | hgt
    · exact hlt
    · exact absurd h (Std.Asymm.asymm _ _ h)
    · exact absurd h (Std.Asymm.asymm _ _ (shortlex_letters hgt))
  · exact shortlex_letters

/-- A column whose one-based number has at most so many digits in plain base 26 has a label of at
most so many letters. -/
theorem length_letters_le {length : Nat} (h : n + 1 < 26 ^ length) :
    (letters n).length ≤ length := by
  induction length generalizing n with
  | zero => omega
  | succ length ih =>
    rcases Nat.lt_or_ge n 26 with hn | hn
    · rw [letters_of_lt hn]
      exact Nat.succ_pos length
    · have hquotient : n / 26 - 1 + 1 < 26 ^ length := by
        rw [Nat.pow_succ] at h
        omega
      rw [letters_of_le hn, List.length_append]
      exact Nat.succ_le_succ (ih hquotient)

theorem length_encode_le (h : n < 0x100000000) : (encode n).length ≤ 7 := by
  rw [encode, String.length_ofList]
  exact length_letters_le (by omega)

/-! ### The labels of a grid -/

theorem getElem?_columnLabels (g : Grid) {i : Nat} (hi : i < g.width) :
    g.columnLabels[i]? = some (encode i) := by
  rw [Grid.columnLabels, List.getElem?_map, List.getElem?_range hi, Option.map_some]

theorem pairwise_columnLabels (g : Grid) : g.columnLabels.Pairwise Precedes := by
  rw [Grid.columnLabels, List.pairwise_map]
  exact List.pairwise_lt_range.imp precedes_encode_iff.mpr

theorem Precedes.ne {label other : String} (h : Precedes label other) : label ≠ other := by
  rintro rfl
  rw [Precedes] at h
  exact Std.Asymm.asymm _ _ h h

/-- **The labels of a grid increase from left to right.** Of two columns the left one has the label
that comes first, and no column of the axis has a label of more than seven letters. A grid has one
label for each of its columns, these are in order and no two are the same, and each is read as the
column that it stands at. -/
theorem columnLabels_ordered :
    (∀ m n, Precedes (encode m) (encode n) ↔ m < n) ∧
    (∀ n < 0x100000000, (encode n).length ≤ 7) ∧
    (∀ g : Grid, g.columnLabels.length = g.width ∧ g.columnLabels.Pairwise Precedes ∧
      g.columnLabels.Nodup ∧
      ∀ i < g.width, ∃ label, g.columnLabels[i]? = some label ∧ decode? label = some i) := by
  refine ⟨fun m n => precedes_encode_iff, fun n => length_encode_le, fun g => ?_⟩
  have hordered := pairwise_columnLabels g
  refine ⟨g.length_columnLabels, hordered, hordered.imp Precedes.ne, fun i hi => ?_⟩
  have haxis : i < 0x100000000 := Nat.lt_trans hi g.width_range.2
  refine ⟨encode i, getElem?_columnLabels g hi, ?_⟩
  rw [decode?, encode, String.toList_ofList]
  exact decodeChars?_letters haxis

/-- A label is followed by a longer one where all its letters are used up. The last column of the
axis has seven letters, and the last one of the standard grid is `Z`. -/
theorem lettersUsedUp_ordered :
    encode 701 = "ZZ" ∧ encode 702 = "AAA" ∧ 701 < 702 ∧ Precedes "ZZ" "AAA" ∧
    0xffffffff < 0x100000000 ∧ (encode 0xffffffff).length ≤ 7 ∧
    25 < Grid.standard.width ∧
    ∃ label, Grid.standard.columnLabels[25]? = some label ∧ decode? label = some 25 := by
  obtain ⟨hprecedes, hlength, hgrid⟩ := columnLabels_ordered
  have hfirstLetters : letters 701 = ['Z', 'Z'].map Char.toUpper :=
    letters_eq_map_toUpper (List.all_eq_true.mp (by decide)) (by decide)
  have hsecondLetters : letters 702 = ['A', 'A', 'A'].map Char.toUpper :=
    letters_eq_map_toUpper (List.all_eq_true.mp (by decide)) (by decide)
  have hfirst : encode 701 = "ZZ" := congrArg String.ofList hfirstLetters
  have hsecond : encode 702 = "AAA" := congrArg String.ofList hsecondLetters
  have hcarry : Precedes "ZZ" "AAA" := by
    rw [← hfirst, ← hsecond]
    exact (hprecedes 701 702).mpr (by decide)
  obtain ⟨-, -, -, hread⟩ := hgrid Grid.standard
  exact ⟨hfirst, hsecond, by decide, hcarry, by decide, hlength _ (by decide), by decide,
    hread 25 (by decide)⟩

end ColumnLabel

end Worksheet
