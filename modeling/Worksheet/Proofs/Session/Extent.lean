import Mathlib.Order.Bounds.Basic
import Worksheet.Proofs.Region.Order
import Worksheet.Session.Selection

/-!
# Extending a selection by many cells

A selection that is extended by one cell after another becomes the least region with all of them,
and with what was selected before. So it does not matter in which order the cells come, or whether
one of them comes again, and it does not matter either that the first cell is selected alone if
nothing was selected before.

The proof is about the regions that have the cells, and not about the one that is selected
(`Selection.forall_extendAll_le_iff`): each cell leaves out of them those that do not have it, so
after the last one those are left that have all. This is the only induction. A region is the least
one of a set if what is above it is that set.

## Main definitions

* `Selection.extendAll` — a selection extended by a list of cells
* `Selection.covering` — the regions with all selected cells and those of a list

## Main results

* `Selection.forall_extendAll_le_iff` — the regions above what is selected in the end
* `Selection.extendAll_isLeast` — what is selected in the end is the least region with all cells
-/

namespace Worksheet

namespace Selection

variable {s : Selection} {r q : Region} {c : Coord} {cells others : List Coord}

/-- The selection after it is extended by the cells of a list, one after another. -/
def extendAll (s : Selection) (cells : List Coord) : Selection :=
  cells.foldl (fun s c => some (extendTo s c)) s

/-- The regions with all selected cells and with those of a list. -/
def covering (s : Selection) (cells : List Coord) : Set Region :=
  {q | (∀ r ∈ s, r ≤ q) ∧ ∀ c ∈ cells, c ∈ q}

theorem mem_covering : q ∈ s.covering cells ↔ (∀ r ∈ s, r ≤ q) ∧ ∀ c ∈ cells, c ∈ q := Iff.rfl

/-- Only which cells are listed matters. -/
theorem covering_congr (h : ∀ c, c ∈ others ↔ c ∈ cells) :
    s.covering others = s.covering cells := by
  ext q
  simp only [mem_covering, h]

/-! ### Regions above the selection -/

/-- The extended region is the least one with all selected cells and the further one. -/
theorem extendTo_le_iff : s.extendTo c ≤ q ↔ (∀ r ∈ s, r ≤ q) ∧ c ∈ q := by
  cases s with
  | none => simp [extendTo, Region.single_le_iff]
  | some r => simp [extendTo, Region.extend_le_iff]

/-- What is selected in the end is in a region just when all the cells are. -/
theorem forall_extendAll_le_iff : (∀ r ∈ s.extendAll cells, r ≤ q) ↔ q ∈ s.covering cells := by
  induction cells generalizing s with
  | nil => simp [extendAll, mem_covering]
  | cons c rest ih =>
    have hfirst : (∀ r ∈ (some (s.extendTo c) : Selection), r ≤ q) ↔
        (∀ r ∈ s, r ≤ q) ∧ c ∈ q := by
      rw [← extendTo_le_iff]
      simp
    rw [show s.extendAll (c :: rest) = extendAll (some (s.extendTo c)) rest from rfl, ih,
      mem_covering, hfirst, mem_covering, List.forall_mem_cons, and_assoc]

/-- From the first cell on there is a selection. -/
theorem exists_extendAll (h : cells ≠ []) : ∃ r, s.extendAll cells = some r := by
  obtain ⟨first, c, rfl⟩ := (List.eq_nil_or_concat cells).resolve_left h
  rw [extendAll, List.concat_eq_append, List.foldl_append]
  exact ⟨_, rfl⟩

theorem isLeast_covering (h : s.extendAll cells = some r) : IsLeast (s.covering cells) r := by
  have habove : ∀ q, r ≤ q ↔ q ∈ s.covering cells := by
    intro q
    rw [← forall_extendAll_le_iff, h]
    simp
  exact ⟨(habove r).mp le_rfl, fun q hq => (habove q).mpr hq⟩

theorem extendAll_eq_some_iff (h : cells ≠ []) :
    s.extendAll cells = some r ↔ IsLeast (s.covering cells) r := by
  constructor
  · exact isLeast_covering
  · intro hleast
    obtain ⟨r', hr'⟩ := exists_extendAll (s := s) h
    rw [hr', (isLeast_covering hr').unique hleast]

/-- **A selection that is extended by many cells is the least region with all of them.** There is
such a region whatever was selected before, if anything was. It has these cells, it is in every
region that has them, and it is the same for every list of the same cells, in whatever order they
are listed and however often. -/
theorem extendAll_isLeast (s : Selection) {cells : List Coord} (hcells : cells ≠ []) :
    (∃ r, s.extendAll cells = some r) ∧
    (∀ r, s.extendAll cells = some r ↔ IsLeast (s.covering cells) r) ∧
    (∀ others : List Coord, (∀ c, c ∈ others ↔ c ∈ cells) →
      s.extendAll others = s.extendAll cells) := by
  refine ⟨exists_extendAll hcells, fun r => extendAll_eq_some_iff hcells, fun others hsame => ?_⟩
  obtain ⟨r, hr⟩ := exists_extendAll (s := s) hcells
  obtain ⟨c, hc⟩ := List.exists_mem_of_ne_nil cells hcells
  have hothers : others ≠ [] := List.ne_nil_of_mem ((hsame c).mpr hc)
  rw [hr, extendAll_eq_some_iff hothers, covering_congr hsame]
  exact isLeast_covering hr

namespace Corners

/-- The cell `C1`. -/
def topRight : Coord := (Coord.ofNat? 0 2).getD .origin

/-- The cell `A3`. -/
def bottomLeft : Coord := (Coord.ofNat? 2 0).getD .origin

/-- The region `A1:C3`, of which neither cell is a corner by which it is stored. -/
def region : Region := .spanning topRight bottomLeft

end Corners

/-- Nothing is selected before, and the second list names one of the cells twice. -/
theorem corners_extendAll :
    [Corners.topRight, Corners.bottomLeft] ≠ [] ∧
    extendAll none [Corners.topRight, Corners.bottomLeft] = some Corners.region ∧
    IsLeast (covering none [Corners.topRight, Corners.bottomLeft]) Corners.region ∧
    extendAll none [Corners.bottomLeft, Corners.topRight, Corners.bottomLeft] =
      some Corners.region := by
  have hcells : [Corners.topRight, Corners.bottomLeft] ≠ [] := List.cons_ne_nil _ _
  obtain ⟨-, hleast, hsame⟩ := extendAll_isLeast none hcells
  have hregion : extendAll none [Corners.topRight, Corners.bottomLeft] = some Corners.region := by
    decide
  refine ⟨hcells, hregion, (hleast _).mp hregion, ?_⟩
  rw [hsame _ (by simp [or_comm]), hregion]

end Selection

end Worksheet
