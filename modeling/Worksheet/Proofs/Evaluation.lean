import Mathlib.Data.List.Basic
import Worksheet.Evaluation
import Worksheet.Proofs.Sheet.LookUp

/-!
# What a value depends on

The value of a formula depends on the numbers that stand in the cells of its region, and on nothing
else. A text, a chart, another formula or nothing at all in such a cell make no difference, and
neither does anything outside the region. Two sheets with the same numbers there may be scanned in
different ways, as the way depends on how much else they hold. The functions are still applied to
the same list, in the same order: a sum is rounded after each addition, so the order matters.

This is also what makes evaluation safe. A formula that reads its own cell, or two that read each
other's, find no number there, and a cell that changes from one content without a number to another
changes the value of no other cell.

## Main definitions

* `Sheet.number?` — the number that a cell holds
* `Sheet.SameNumbers` — two sheets hold the same numbers in a region

## Main results

* `Sheet.numbers_eq_filterMap_cells` — the numbers of a region, cell by cell
* `Sheet.evaluate_eq_of_sameNumbers` — the value of a formula depends on the numbers in its region
-/

namespace Worksheet

namespace Sheet

variable {s t : Sheet} {r : Region}

/-- The number that the cell at `c` holds. The value of a formula is not held by its cell. -/
def number? (s : Sheet) (c : Coord) : Option Binary64 := (s.get? c).bind Content.number?

/-- In the cells of a region, two sheets hold the same numbers, whatever else they hold. -/
def SameNumbers (s t : Sheet) (r : Region) : Prop := ∀ c ∈ r, s.number? c = t.number? c

instance (s t : Sheet) (r : Region) : Decidable (s.SameNumbers t r) :=
  decidable_of_iff (∀ c ∈ r.cells, s.number? c = t.number? c)
    (forall_congr' fun _ => imp_congr_left Region.mem_cells)

/-! ### The numbers of a region -/

/-- Whichever way a region is scanned, its numbers are those of its cells, row by row. -/
theorem numbers_eq_filterMap_cells (s : Sheet) (r : Region) :
    s.numbers r = r.cells.filterMap s.number? := by
  rw [numbers, scan_eq_scanCells, scanCells, List.filterMap_filterMap]
  refine List.filterMap_congr fun c _ => ?_
  rw [stored?, number?]
  cases s.get? c <;> rfl

theorem numbers_congr (h : s.SameNumbers t r) : s.numbers r = t.numbers r := by
  rw [numbers_eq_filterMap_cells, numbers_eq_filterMap_cells]
  exact List.filterMap_congr fun c hc => h c (Region.mem_cells.mp hc)

/-! ### Values -/

theorem evaluate_congr {f : Formula} (h : s.SameNumbers t f.region) :
    s.evaluate f = t.evaluate f := by
  rw [evaluate, evaluate, numbers_congr h]

/-- A content has the same value on two sheets with the same numbers everywhere. -/
theorem valueOf_congr (h : ∀ c, s.number? c = t.number? c) (x : Content) :
    s.valueOf x = t.valueOf x := by
  cases x with
  | formula f => exact evaluate_congr fun c _ => h c
  | number _ | text _ | chart _ => rfl

/-- Where no number is replaced by something that is not a number either, each cell holds the number
it held. -/
theorem number?_put {c : Coord} {x : Option Content} (hold : s.number? c = none)
    (hnew : x.bind Content.number? = none) (d : Coord) : (s.put c x).number? d = s.number? d := by
  rw [number?, get?_put]
  split
  · rename_i h
    rw [hnew, h, hold]
  · rfl

/-- **The value of a formula depends on the numbers in its region only.** Two sheets with the same
numbers there hand them to the function of the formula in the same order. So to change what a cell
holds without a number coming or going changes the value of no other cell. -/
theorem evaluate_eq_of_sameNumbers :
    (∀ (s t : Sheet) (f : Formula), s.SameNumbers t f.region →
      s.numbers f.region = t.numbers f.region ∧ s.evaluate f = t.evaluate f) ∧
    (∀ (s : Sheet) (c : Coord) (x : Option Content), s.number? c = none →
      x.bind Content.number? = none → ∀ d, d ≠ c → (s.put c x).value? d = s.value? d) := by
  refine ⟨fun s t f h => ⟨numbers_congr h, evaluate_congr h⟩, fun s c x hold hnew d hd => ?_⟩
  rw [value?, value?, get?_put_of_ne s x hd]
  have hvalueOf : (s.put c x).valueOf = s.valueOf := funext (valueOf_congr (number?_put hold hnew))
  rw [hvalueOf]

namespace SelfReference

/-- The cell `A2`. -/
def below : Coord := (Coord.ofNat? 1 0).getD .origin

/-- The region `A1:B1`. -/
def region : Region := .spanning .origin ((Coord.ofNat? 0 1).getD .origin)

/-- A formula that is stored in `B1` and so reads its own cell. -/
def formula : Formula := ⟨"=sum(A1:B1)", .call .sum region⟩

/-- The sheet with the number one in `A1`. -/
def lone : Sheet := Sheet.empty.set .origin (.number (.ofNat 1))

/-- The same sheet with the formula beside the number and a text below it. -/
def crowded : Sheet := (lone.set region.bottomRight (.formula formula)).set below (.text "x")

end SelfReference

/-- Where the formula reads its own cell, the region is looked up cell by cell, and where the number
is alone, the stored cells are searched. The value is the same, and it stays when the text is
removed. -/
theorem selfReference_evaluate :
    SelfReference.region.cellCount ≤ SelfReference.crowded.size ∧
    ¬ SelfReference.region.cellCount ≤ SelfReference.lone.size ∧
    SelfReference.lone.evaluate SelfReference.formula = .number (.ofNat 1) ∧
    SelfReference.crowded.evaluate SelfReference.formula = .number (.ofNat 1) ∧
    (SelfReference.crowded.put SelfReference.below none).value? SelfReference.region.bottomRight =
      SelfReference.crowded.value? SelfReference.region.bottomRight := by
  have hsame : SelfReference.crowded.SameNumbers SelfReference.lone
      SelfReference.formula.region := by decide +kernel
  have hone : SelfReference.lone.evaluate SelfReference.formula = .number (.ofNat 1) := by
    decide +kernel
  refine ⟨by decide, by decide, hone, ?_, ?_⟩
  · rw [(evaluate_eq_of_sameNumbers.1 _ _ _ hsame).2, hone]
  · exact evaluate_eq_of_sameNumbers.2 _ _ none (by decide +kernel) rfl _ (by decide)

end Sheet

end Worksheet
