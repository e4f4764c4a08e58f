/-!
# Cell coordinates

A cell is addressed by a row and a column, both counted from zero. Each axis has `2 ^ 32` places,
and the bound is part of the type: every arithmetic step that could leave the axis goes through
`Coord.ofNat?` or `Coord.ofInt?`, which answer `none` instead of wrapping around.

Coordinates are ordered row by row, and by column inside a row. This is the order in which a sheet
is read, and every list of cells in this library follows it.

## Main definitions

* `Coord` — a row and a column, each below `2 ^ 32`
* `Coord.ofNat?`, `Coord.ofInt?` — the coordinate with given numbers, if both are on their axis
* `Coord.within` — whether a coordinate lies on a grid of given size
* the instance `LT Coord` — row-major order

## Main results

* `Coord.lt_irrefl`, `Coord.lt_trans`, `Coord.lt_or_eq_or_gt` — the order is strict and total
-/

namespace Worksheet

/-- A cell's place on the sheet, both axes counted from zero. -/
@[ext]
structure Coord where
  row : Nat
  col : Nat
  row_lt : row < 0x100000000
  col_lt : col < 0x100000000
deriving DecidableEq

namespace Coord

/-- The coordinate in the top left corner of every sheet. -/
def origin : Coord := ⟨0, 0, by decide, by decide⟩

/-- The coordinate with the given row and column, if both are on their axis. -/
def ofNat? (row col : Nat) : Option Coord :=
  if h : row < 0x100000000 ∧ col < 0x100000000 then some ⟨row, col, h.1, h.2⟩ else none

/-- The coordinate with the given row and column, if both are on their axis. A negative number lies
before the axis begins. -/
def ofInt? (row col : Int) : Option Coord :=
  if 0 ≤ row ∧ 0 ≤ col then ofNat? row.toNat col.toNat else none

/-- Whether `c` lies on a grid of `rows` rows and `cols` columns. -/
def within (c : Coord) (rows cols : Nat) : Bool :=
  decide (c.row < rows) && decide (c.col < cols)

@[simp] theorem ofNat?_row_col (c : Coord) : ofNat? c.row c.col = some c := by
  simp only [ofNat?, c.row_lt, c.col_lt, and_self, dite_true]

theorem ofNat?_eq_some_iff {row col : Nat} {c : Coord} :
    ofNat? row col = some c ↔ row = c.row ∧ col = c.col := by
  constructor
  · intro h
    unfold ofNat? at h
    split at h
    · cases h
      exact ⟨rfl, rfl⟩
    · cases h
  · rintro ⟨rfl, rfl⟩
    exact ofNat?_row_col c

theorem ofInt?_eq_some_iff {row col : Int} {c : Coord} :
    ofInt? row col = some c ↔ row = c.row ∧ col = c.col := by
  unfold ofInt?
  split
  · rw [ofNat?_eq_some_iff]
    omega
  · simp only [reduceCtorEq, false_iff]
    omega

theorem within_eq_true {c : Coord} {rows cols : Nat} :
    c.within rows cols = true ↔ c.row < rows ∧ c.col < cols := by
  simp [within]

/-! ### Row-major order -/

instance : LT Coord := ⟨fun a b => a.row < b.row ∨ (a.row = b.row ∧ a.col < b.col)⟩

theorem lt_def {a b : Coord} : a < b ↔ a.row < b.row ∨ (a.row = b.row ∧ a.col < b.col) := Iff.rfl

instance : DecidableRel (α := Coord) (· < ·) := fun a b =>
  inferInstanceAs (Decidable (a.row < b.row ∨ (a.row = b.row ∧ a.col < b.col)))

theorem lt_irrefl (a : Coord) : ¬ a < a := by
  rw [lt_def]
  omega

theorem lt_trans {a b c : Coord} (hab : a < b) (hbc : b < c) : a < c := by
  rw [lt_def] at *
  omega

theorem ne_of_lt {a b : Coord} (h : a < b) : a ≠ b := by
  rintro rfl
  exact lt_irrefl a h

theorem lt_or_eq_or_gt (a b : Coord) : a < b ∨ a = b ∨ b < a := by
  rw [lt_def, lt_def, Coord.ext_iff]
  omega

end Coord

end Worksheet
