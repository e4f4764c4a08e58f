import Mathlib.Algebra.Order.Group.Int
import Mathlib.Algebra.Order.Monoid.Prod
import Mathlib.Data.Set.Defs
import Mathlib.Tactic.Abel
import Worksheet.Region

/-!
# Shifts are translations of the plane

The cells of a sheet are points of a plane in which both axes go on without end in both directions.
There a move is an addition: each point goes to its sum with one fixed vector. A shift of a region
is this addition, as far as it starts in the region and ends on the axes
(`Region.shift_eq_some_iff_point`).

What one wants to know of shifts are facts about addition then. Different cells go to different
cells, since addition can be cancelled. Row-major order is kept, since it is the lexicographic order
of the plane, and the plane is an ordered group with it. The way back is the addition of the
opposite vector.

A shift is computed with numbers of 64 bits. These are large enough for all sums and differences of
coordinates, and this is not seen in `Region.shift`, which is about whole numbers of any size. So
the same steps are also taken with every result checked (`Region.shiftInWords?`).

## Main definitions

* `Coord.point` — a cell as a point of the plane
* `Coord.axes` — the points between the ends of both axes
* `Region.shiftInWords?` — a shift with every sum and difference checked

## Main results

* `Region.shift_eq_some_iff_point` — a shift is an addition in the plane
* `Region.shiftInWords?_eq_some` — no sum or difference is too large
* `Region.shift_isTranslation` — what shifts do, all in one
-/

namespace Worksheet

namespace Coord

variable {a b c : Coord} {p : ℤ × ℤ}

/-! ### The plane -/

/-- A cell as a point of the plane. -/
def point (c : Coord) : ℤ × ℤ := (c.row, c.col)

/-- The points of which both numbers are places of an axis. -/
def axes : Set (ℤ × ℤ) := {p | (0 ≤ p.1 ∧ p.1 ≤ 0xffffffff) ∧ (0 ≤ p.2 ∧ p.2 ≤ 0xffffffff)}

theorem mem_axes_iff :
    p ∈ axes ↔ (0 ≤ p.1 ∧ p.1 ≤ 0xffffffff) ∧ (0 ≤ p.2 ∧ p.2 ≤ 0xffffffff) := Iff.rfl

/-- These points are the cells. -/
theorem mem_axes_iff_exists : p ∈ axes ↔ ∃ c : Coord, c.point = p := by
  rw [mem_axes_iff]
  constructor
  · rintro ⟨hrow, hcol⟩
    refine ⟨⟨p.1.toNat, p.2.toNat, by omega, by omega⟩, ?_⟩
    exact Prod.ext (Int.toNat_of_nonneg hrow.1) (Int.toNat_of_nonneg hcol.1)
  · rintro ⟨c, rfl⟩
    have hrow := c.row_lt
    have hcol := c.col_lt
    simp only [point]
    omega

theorem point_inj : a.point = b.point ↔ a = b := by
  rw [point, point, Prod.mk.injEq, Coord.ext_iff]
  omega

/-- Row-major order is the lexicographic order of the plane. -/
theorem toLex_point_lt_iff : toLex a.point < toLex b.point ↔ a < b := by
  rw [Prod.Lex.toLex_lt_toLex, lt_def]
  simp only [point]
  omega

end Coord

namespace Region

variable {r q : Region} {a b c d t u : Coord}

/-! ### Shifts as additions -/

/-- **A shift is an addition in the plane.** -/
theorem shift_eq_some_iff_point :
    r.shift a b c = some t ↔ c ∈ r ∧ t.point = c.point + (b.point - a.point) := by
  rw [shift_eq_some_iff]
  simp only [Coord.point, Prod.mk_sub_mk, Prod.mk_add_mk, Prod.mk.injEq]

/-- The shift of a cell of the region is only missing if it is not on the axes. -/
theorem exists_shift_iff :
    (∃ t, r.shift a b c = some t) ↔ c ∈ r ∧ c.point + (b.point - a.point) ∈ Coord.axes := by
  rw [Coord.mem_axes_iff_exists]
  simp only [shift_eq_some_iff_point, exists_and_left]

/-- Row-major order is kept, and two cells never come to lie at the same place. -/
theorem shift_lt_iff (hc : r.shift a b c = some t) (hd : r.shift a b d = some u) :
    t < u ↔ c < d := by
  obtain ⟨-, ht⟩ := shift_eq_some_iff_point.mp hc
  obtain ⟨-, hu⟩ := shift_eq_some_iff_point.mp hd
  rw [← Coord.toLex_point_lt_iff, ← Coord.toLex_point_lt_iff, ht, hu, toLex_add, toLex_add]
  exact add_lt_add_iff_right _

theorem shift_inj (hc : r.shift a b c = some t) (hd : r.shift a b d = some t) : c = d := by
  obtain ⟨-, ht⟩ := shift_eq_some_iff_point.mp hc
  obtain ⟨-, hu⟩ := shift_eq_some_iff_point.mp hd
  exact Coord.point_inj.mp (add_right_cancel (ht.symm.trans hu))

/-- The opposite shift leads back, in any region that has the cell. -/
theorem shift_back (hc : r.shift a b c = some t) (ht : t ∈ q) : q.shift b a t = some c := by
  obtain ⟨-, hpoint⟩ := shift_eq_some_iff_point.mp hc
  refine shift_eq_some_iff_point.mpr ⟨ht, ?_⟩
  rw [hpoint]
  abel

/-! ### Shifts in numbers of 64 bits -/

/-- The number, if it is one of 64 bits with a sign. -/
def inWord? : ℤ → Option ℤ :=
  Option.guard fun n => -0x8000000000000000 ≤ n ∧ n < 0x8000000000000000

theorem inWord?_eq_some {n : ℤ} (h : -0x8000000000000000 ≤ n ∧ n < 0x8000000000000000) :
    inWord? n = some n := by
  rw [inWord?, Option.guard_eq_some_iff]
  exact ⟨rfl, decide_eq_true h⟩

/-- A shift with each sum and each difference checked: there is no answer if one of them is too
large for 64 bits. -/
def shiftInWords? (r : Region) (source target c : Coord) : Option (Option Coord) := do
  let rows ← inWord? (target.row - source.row)
  let cols ← inWord? (target.col - source.col)
  if c ∈ r then
    let row ← inWord? (c.row + rows)
    let col ← inWord? (c.col + cols)
    return Coord.ofInt? row col
  else return none

/-- No sum and no difference is too large. -/
theorem shiftInWords?_eq_some (r : Region) (source target c : Coord) :
    r.shiftInWords? source target c = some (r.shift source target c) := by
  have hsource := And.intro source.row_lt source.col_lt
  have htarget := And.intro target.row_lt target.col_lt
  have hc := And.intro c.row_lt c.col_lt
  have hrows := inWord?_eq_some (n := target.row - source.row) (by omega)
  have hcols := inWord?_eq_some (n := target.col - source.col) (by omega)
  have hrow := inWord?_eq_some (n := c.row + (target.row - source.row)) (by omega)
  have hcol := inWord?_eq_some (n := c.col + (target.col - source.col)) (by omega)
  rw [shiftInWords?, shift, hrows, hcols]
  simp only [Option.bind_eq_bind, Option.bind_some, hrow, hcol]
  split <;> rfl

/-- **A shift is an exact partial translation.** It is computed without overflow. A cell of the
region is shifted if its sum with the difference of the two anchors is on the axes, and then to this
sum; no other cell is shifted. Shifts are injective, they keep row-major order in both directions,
and the shift the other way leads back. -/
theorem shift_isTranslation (r : Region) (a b : Coord) :
    (∀ c, r.shiftInWords? a b c = some (r.shift a b c)) ∧
    (∀ c, (∃ t, r.shift a b c = some t) ↔
      c ∈ r ∧ c.point + (b.point - a.point) ∈ Coord.axes) ∧
    (∀ c t, r.shift a b c = some t ↔ c ∈ r ∧ t.point = c.point + (b.point - a.point)) ∧
    (∀ c d t, r.shift a b c = some t → r.shift a b d = some t → c = d) ∧
    (∀ c d t u, r.shift a b c = some t → r.shift a b d = some u → (t < u ↔ c < d)) ∧
    (∀ c t, r.shift a b c = some t → ∀ q : Region, t ∈ q → q.shift b a t = some c) :=
  ⟨shiftInWords?_eq_some r a b, fun _ => exists_shift_iff, fun _ _ => shift_eq_some_iff_point,
    fun _ _ _ => shift_inj, fun _ _ _ _ => shift_lt_iff, fun _ _ hc _ => shift_back hc⟩

namespace RightColumn

/-- The cell `E3`. -/
def top : Coord := (Coord.ofNat? 2 4).getD .origin

/-- The cell `E4`. -/
def bottom : Coord := (Coord.ofNat? 3 4).getD .origin

/-- The cell `D4`. -/
def left : Coord := (Coord.ofNat? 3 3).getD .origin

/-- The cell `A2`. -/
def target : Coord := (Coord.ofNat? 1 0).getD .origin

/-- The region `D3:E4`, which is shifted so that `E3` comes to lie at `A1`. -/
def region : Region := .spanning top left

end RightColumn

/-- The right column of the region is shifted, and the left one goes off the axes. -/
theorem rightColumn_isTranslation :
    RightColumn.region.shift RightColumn.top .origin RightColumn.top = some .origin ∧
    RightColumn.region.shift RightColumn.top .origin RightColumn.bottom =
      some RightColumn.target ∧
    RightColumn.region.shift RightColumn.top .origin RightColumn.left = none ∧
    (Coord.origin < RightColumn.target ↔ RightColumn.top < RightColumn.bottom) ∧
    Coord.origin ∈ single .origin ∧
    (single .origin).shift .origin RightColumn.top .origin = some RightColumn.top := by
  obtain ⟨-, -, -, -, hordered, hback⟩ :=
    shift_isTranslation RightColumn.region RightColumn.top .origin
  have htop : RightColumn.region.shift RightColumn.top .origin RightColumn.top = some .origin := by
    decide
  have hbottom : RightColumn.region.shift RightColumn.top .origin RightColumn.bottom =
      some RightColumn.target := by
    decide
  exact ⟨htop, hbottom, by decide, hordered _ _ _ _ htop hbottom, by decide,
    hback _ _ htop _ (by decide)⟩

end Region

end Worksheet
