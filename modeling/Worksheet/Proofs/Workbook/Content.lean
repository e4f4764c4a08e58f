import Worksheet.Proofs.Workbook.Reopen

/-!
# What cells hold

Neither evaluation nor the editor looks twice at what it finds in a cell. A number is taken to be
finite, a text not to be a number as well, and a formula to say what its text says. All of this
depends on what can get into a cell, and it is lost for good if a single operation lets in anything
else.

`Content.Storable` says where contents come from: they were typed, or read as the region of a chart.
`Content.WellFormed` says of each kind of content what can be relied on, and has nothing to say
about where it came from. Both are the same, so there is no more to be relied on than that: every
well-formed content is held by some cell after some run. The one number for which this is not plain
is the negative zero, because its text is that of the other zero; it has to be typed as `-0`.

## Main definitions

* `Content.WellFormed` — what can be relied on
* `Workbook.HoldsWellFormed` — every cell that holds anything holds what can be relied on

## Main results

* `Content.storable_iff_wellFormed` — what can be relied on is what can be stored
* `Workbook.holdsWellFormed_run` — commands keep it, and it is as much as can be said of runs
-/

namespace Worksheet

namespace Content

/-- What can be relied on. The text that an editor shows for the content means that content again,
or a chart of the same region, and numbers are finite. -/
def WellFormed : Content → Prop
  | number x => x.isFinite = true
  | text s => Text.allBlank s = false ∧ ofEntry s = text s
  | formula f => f = .ofText f.source ∧ f.source.toList.head? = some '='
  | chart r => r.InOrder ∧ Region.ofReference r.reference = .ok r

theorem wellFormed_ofEntry {entry : String} (hblank : Text.allBlank entry = false) :
    (ofEntry entry).WellFormed := by
  rcases ofEntry_cases entry with ⟨hmark, hmeans⟩ | ⟨x, hfinite, hmeans⟩ | hmeans
  · rw [hmeans]
    exact ⟨rfl, Entry.isFormula_iff.mp hmark⟩
  · rw [hmeans]
    exact hfinite
  · rw [hmeans]
    exact ⟨hblank, hmeans⟩

/-- Every finite number can be typed. Its text means it, up to the sign of a zero. -/
theorem exists_ofEntry_eq_number {x : Binary64} (h : x.isFinite = true) :
    ∃ entry, Text.allBlank entry = false ∧ ofEntry entry = number x := by
  have hequal := equal_ofEntry_text h
  cases hmeans : ofEntry x.text with
  | number y =>
    rw [hmeans] at hequal
    rcases Binary64.Equal.eq_or_zero hequal with rfl | ⟨-, negative, -, rfl⟩
    · exact ⟨y.text, Binary64.allBlank_text h, hmeans⟩
    · cases negative with
      | false => exact ⟨"0", by decide, by decide⟩
      | true => exact ⟨"-0", by decide, by decide⟩
  | text | formula | chart =>
    rw [hmeans] at hequal
    cases hequal

theorem allBlank_of_head? {s : String} (h : s.toList.head? = some '=') :
    Text.allBlank s = false := by
  obtain ⟨rest, hchars⟩ := List.head?_eq_some_iff.mp h
  rw [Text.allBlank, hchars, List.all_cons, show Text.isBlank '=' = false by decide, Bool.false_and]

/-- **What can be stored is what is well formed.** -/
theorem storable_iff_wellFormed {x : Content} : x.Storable ↔ x.WellFormed := by
  constructor
  · intro h
    cases h with
    | typed entry hblank => exact wellFormed_ofEntry hblank
    | chart reference r hread =>
      exact ⟨r.inOrder, Region.ofReference_reference_of_ofReference hread⟩
  · intro h
    cases x with
    | number x =>
      obtain ⟨entry, hblank, hmeans⟩ := exists_ofEntry_eq_number h
      rw [← hmeans]
      exact .typed entry hblank
    | text s =>
      rw [← h.2]
      exact .typed s h.1
    | formula f =>
      have hmeans : ofEntry f.source = formula f := by
        rw [ofEntry, if_pos (Entry.isFormula_iff.mpr h.2), ← h.1]
      rw [← hmeans]
      exact .typed f.source (allBlank_of_head? h.2)
    | chart r => exact .chart r.reference r h.2

end Content

namespace Workbook

variable {w : Workbook} {x : Content}

/-- Every cell that holds anything holds what is well formed. -/
def HoldsWellFormed (w : Workbook) : Prop := ∀ c x, w.sheet.get? c = some x → x.WellFormed

theorem holdsStorable_iff : w.HoldsStorable ↔ w.HoldsWellFormed :=
  forall_congr' fun _ => forall_congr' fun _ =>
    imp_congr_right fun _ => Content.storable_iff_wellFormed

/-- What can be stored is held by a cell after one command on a blank workbook. -/
theorem exists_run_of_storable (h : x.Storable) :
    ∃ g commands c, ((blank g).run commands).sheet.get? c = some x := by
  cases h with
  | typed entry hblank =>
    have henter : ((blank .small).enter .origin entry).2.sheet =
        Sheet.empty.set .origin (.ofEntry entry) := by
      rw [enter, hblank]
      rfl
    refine ⟨.small, [.enter .origin entry], .origin, ?_⟩
    show ((blank .small).enter .origin entry).2.sheet.get? .origin = _
    rw [henter, Sheet.get?_set, if_pos rfl]
  | chart reference r hread =>
    refine ⟨.small, [.insertChart .origin reference], .origin, ?_⟩
    rw [run_cons, run_nil, step_insertChart_snd, insertChart, hread]
    rfl

/-- **What can be relied on in every cell**, whatever the commands were: numbers are finite, texts
are neither blank nor mean anything else, formulas say what their text says, and the regions of
charts have their corners in order and can be referred to. No command breaks this, whether it
copies, moves, empties, fails or gives up an editor. Nothing more holds of all runs, as every
content of which this is true is held by a cell after some run. -/
theorem holdsWellFormed_run :
    (∀ g commands, ((blank g).run commands).HoldsWellFormed) ∧
    (∀ (w : Workbook) command, w.HoldsWellFormed → (w.step command).2.HoldsWellFormed) ∧
    (∀ x : Content, x.WellFormed →
      ∃ g commands c, ((blank g).run commands).sheet.get? c = some x) := by
  refine ⟨fun g commands => ?_, fun w command h => ?_, fun x h => ?_⟩
  · exact holdsStorable_iff.mp (holdsStorable_run g commands)
  · exact holdsStorable_iff.mp ((holdsStorable_iff.mpr h).step command)
  · exact exists_run_of_storable (Content.storable_iff_wellFormed.mpr h)

end Workbook

end Worksheet
