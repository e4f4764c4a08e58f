import Worksheet.Proofs.Formula.Call
import Worksheet.Proofs.Workbook.Reopen
import Worksheet.Workbook.View

/-!
# Charts from the text of a chart

A page shows the reference to the region of a chart. The reference can be given to another cell, or
to another workbook, and there makes a chart of the same region. This is not so for every region:
one that reaches the last row is written with a number that is not read. But a chart is only made of
a region that was read from a text, and this is known of every chart that a run comes to hold
(`Workbook.holdsStorable_run`).

The same holds of everything else that is read from a text and written again, cells and formulas.

## Main results

* `Workbook.exists_ofReference_of_chart` — the region of every chart was read from a text
* `Workbook.written_stable` — what was read is written in one form, and that is read back
-/

namespace Worksheet

/-- Only the chart of a region that a text refers to is stored. -/
theorem Content.Storable.exists_ofReference {r : Region} (h : (Content.chart r).Storable) :
    ∃ reference, Region.ofReference reference = .ok r := by
  generalize hx : Content.chart r = x at h
  cases h with
  | chart reference r' hread =>
    cases hx
    exact ⟨reference, hread⟩
  | typed entry =>
    -- nothing that can be typed is a chart
    rcases ofEntry_cases entry with ⟨-, hmeans⟩ | ⟨_, -, hmeans⟩ | hmeans
    all_goals rw [hmeans] at hx; cases hx

namespace Workbook

variable {w : Workbook} {c : Coord} {r : Region} {text : String}

theorem chart_view_eq_some_iff :
    (w.view c).chart = some text ↔ ∃ r, w.sheet.get? c = some (.chart r) ∧ r.reference = text := by
  simp only [view, Option.map_eq_some_iff, Option.bind_eq_some_iff]
  constructor
  · rintro ⟨r, ⟨x, hx, hchart⟩, rfl⟩
    cases x with
    | chart r' =>
      cases hchart
      exact ⟨r, hx, rfl⟩
    | number | text | formula => cases hchart
  · rintro ⟨r, hx, rfl⟩
    exact ⟨r, ⟨_, hx, rfl⟩, rfl⟩

/-- The region of every chart that a run comes to hold was read from a text. -/
theorem exists_ofReference_of_chart (g : Grid) (commands : List Command)
    (h : ((blank g).run commands).sheet.get? c = some (.chart r)) :
    ∃ reference, Region.ofReference reference = .ok r :=
  (holdsStorable_run g commands c _ h).exists_ofReference

/-- The text that refers to a region makes a chart of it, in every cell of the grid. -/
theorem insertChart_of_ofReference (hread : Region.ofReference text = .ok r)
    (hgrid : w.grid.contains c = true) :
    (w.insertChart c text).1 = .ok () ∧
      (w.insertChart c text).2.sheet.get? c = some (.chart r) := by
  have hinsert : w.insertChart c text = (.ok (), w.withSheet (w.sheet.set c (.chart r))) := by
    simp only [insertChart, hread, hgrid, if_true]
  rw [hinsert]
  refine ⟨rfl, ?_⟩
  rw [withSheet, Sheet.get?_set, if_pos rfl]

/-- **What was read is written in one form, and that is read back.** This holds of regions, of cells
and of the calls of formulas. So the text that is shown for a chart makes the same chart again,
wherever it is inserted. -/
theorem written_stable :
    (∀ text r, Region.ofReference text = .ok r → Region.ofReference r.reference = .ok r) ∧
    (∀ text c, Coord.ofReference text = .ok c →
      c.reference = String.ofList (Coord.canonicalChars (Text.trimChars text.toList))) ∧
    (∀ text f r, (Formula.ofText text).body = .call f r →
      (Formula.ofText (Formula.callText f r)).body = .call f r) ∧
    (∀ g commands c text, (((blank g).run commands).view c).chart = some text →
      ∃ r, ((blank g).run commands).sheet.get? c = some (.chart r) ∧
        ∀ (v : Workbook) (d : Coord), v.grid.contains d = true →
          (v.insertChart d text).1 = .ok () ∧
            (v.insertChart d text).2.sheet.get? d = some (.chart r)) := by
  refine ⟨fun text r => Region.ofReference_reference_of_ofReference, fun text c hread => ?_,
    fun text f r => Formula.ofText_callText_of_ofText, fun g commands c text hview => ?_⟩
  · rw [← (Coord.ofReference_eq_ok_iff.mp hread).referenceChars_eq]
    rfl
  · obtain ⟨r, hchart, rfl⟩ := chart_view_eq_some_iff.mp hview
    obtain ⟨reference, hread⟩ := exists_ofReference_of_chart g commands hchart
    have hback := Region.ofReference_reference_of_ofReference hread
    exact ⟨r, hchart, fun v d => insertChart_of_ofReference hback⟩

namespace SwappedChart

/-- The region of the first four cells. -/
def region : Region := .spanning .origin ⟨1, 1, by decide, by decide⟩

/-- The region is given by its corners in the wrong order, one of them with a small letter and a
zero. -/
def commands : List Command := [.insertChart .origin "b02:A1"]

end SwappedChart

/-- A chart that was inserted with swapped corners is shown with them in order. -/
theorem swappedChart_stable :
    Region.ofReference "b02:A1" = .ok SwappedChart.region ∧
    Region.ofReference SwappedChart.region.reference = .ok SwappedChart.region ∧
    Coord.ofReference " b02" = .ok SwappedChart.region.bottomRight ∧
    SwappedChart.region.bottomRight.reference =
      String.ofList (Coord.canonicalChars (Text.trimChars " b02".toList)) ∧
    (Formula.ofText "=sum( b02 : A1 )").body = .call .sum SwappedChart.region ∧
    (Formula.ofText (Formula.callText .sum SwappedChart.region)).body =
      .call .sum SwappedChart.region ∧
    (((blank .small).run SwappedChart.commands).view .origin).chart = some "A1:B2" ∧
    ∃ r, ((blank .small).run SwappedChart.commands).sheet.get? .origin = some (.chart r) ∧
      ((blank .small).insertChart SwappedChart.region.bottomRight "A1:B2").2.sheet.get?
        SwappedChart.region.bottomRight = some (.chart r) := by
  obtain ⟨hregion, hcell, hcall, hchart⟩ := written_stable
  have hswapped : Region.ofReference "b02:A1" = .ok SwappedChart.region := by rfl
  have hblank : Coord.ofReference " b02" = .ok SwappedChart.region.bottomRight := by rfl
  have hsum : (Formula.ofText "=sum( b02 : A1 )").body = .call .sum SwappedChart.region := by
    decide +kernel
  have hshown : (((blank .small).run SwappedChart.commands).view .origin).chart =
      some "A1:B2" := by
    decide +kernel
  obtain ⟨r, hheld, hinsert⟩ := hchart .small SwappedChart.commands .origin "A1:B2" hshown
  exact ⟨hswapped, hregion _ _ hswapped, hblank, hcell _ _ hblank, hsum, hcall _ _ _ hsum, hshown,
    r, hheld, (hinsert (blank .small) SwappedChart.region.bottomRight (by decide)).2⟩

end Workbook

end Worksheet
