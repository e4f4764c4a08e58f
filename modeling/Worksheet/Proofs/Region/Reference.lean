import Mathlib.Data.List.TakeDrop
import Worksheet.Proofs.Coord.Reference
import Worksheet.Region.Reference

/-!
# Which texts refer to a region

A text without a colon refers to the region of one cell, and one with a colon to the region that has
two cells as opposite corners. It is the first colon that counts: a second one is part of the text
of the second corner, which then is no cell.

Writing a region and reading it again gives the region, for every region that does not reach the
last row. One that does is refused, although it was written. Reading never gives such a region, so
what was read can always be written and read again.

## Main definitions

* `Region.Reading` — what reading a text answers

## Main results

* `Region.ofReference_eq_iff` — reading answers the region of the corners denoted, or an error with
  the first corner that is none
* `Region.ofReference_classified` — what every text is read as, for cells and for regions
* `Region.ofReference_reference`, `Region.reference_readBack_iff` — a written region is read back,
  unless it reaches the last row
* `Region.ofReference_reference_of_ofReference` — a region that was read is read back
-/

namespace Worksheet

namespace Region

variable {text first second : String} {r : Region}

/-! ### Reading -/

/-- What reading a text answers: the region that it refers to, or an error with the first corner
that is no cell, as that is written. -/
inductive Reading (text : String) : Except CellError Region → Prop
  | single (hcolon : ':' ∉ text.toList) (c : Coord) (h : Coord.Denotes text.toList c) :
      Reading text (.ok (.single c))
  | noCell (hcolon : ':' ∉ text.toList) (h : ∀ c, ¬ Coord.Denotes text.toList c) :
      Reading text (.error (.invalidReference text))
  | spanning (first second : String) (htext : text = first ++ ":" ++ second)
      (hcolon : ':' ∉ first.toList) (a b : Coord) (ha : Coord.Denotes first.toList a)
      (hb : Coord.Denotes second.toList b) : Reading text (.ok (.spanning a b))
  | noFirst (first second : String) (htext : text = first ++ ":" ++ second)
      (hcolon : ':' ∉ first.toList) (ha : ∀ a, ¬ Coord.Denotes first.toList a) :
      Reading text (.error (.invalidReference first))
  | noSecond (first second : String) (htext : text = first ++ ":" ++ second)
      (hcolon : ':' ∉ first.toList) (a : Coord) (ha : Coord.Denotes first.toList a)
      (hb : ∀ b, ¬ Coord.Denotes second.toList b) : Reading text (.error (.invalidReference second))

/-- A text has no colon, or it is split by its first one. -/
theorem exists_split (text : String) :
    ':' ∉ text.toList ∨ ∃ first second : String, text = first ++ ":" ++ second ∧
      ':' ∉ first.toList := by
  by_cases h : ':' ∈ text.toList
  · obtain ⟨first, second, htext, hfirst⟩ := List.eq_append_cons_of_mem h
    refine .inr ⟨String.ofList first, String.ofList second, ?_, by rwa [String.toList_ofList]⟩
    rw [← String.ofList_toList (s := text), htext, String.append_assoc, String.ofList_append,
      String.ofList_cons]
    rfl
  · exact .inl h

/-- Up to its first colon a text is split. -/
theorem span_of_notMem {chars : List Char} (h : ':' ∉ chars) (rest : List Char) :
    (chars ++ rest).span (· ≠ ':') =
      (chars ++ rest.takeWhile (· ≠ ':'), rest.dropWhile (· ≠ ':')) := by
  have hall : ∀ c ∈ chars, decide (c ≠ ':') = true := by
    intro c hc
    refine decide_eq_true fun heq => h ?_
    rwa [← heq]
  rw [List.span_eq_takeWhile_dropWhile, List.takeWhile_append_of_pos hall,
    List.dropWhile_append_of_pos hall]

theorem ofReference_of_notMem (h : ':' ∉ text.toList) :
    ofReference text = (Coord.ofReference text).map single := by
  have hspan := span_of_notMem h []
  rw [List.append_nil] at hspan
  rw [ofReference, hspan]
  rfl

theorem toList_append_colon (first second : String) :
    (first ++ ":" ++ second).toList = first.toList ++ ':' :: second.toList := by
  rw [String.append_assoc, String.toList_append, String.toList_append]
  rfl

theorem ofReference_append (h : ':' ∉ first.toList) :
    ofReference (first ++ ":" ++ second) = do
      let a ← Coord.ofReference first
      let b ← Coord.ofReference second
      return spanning a b := by
  have hspan := span_of_notMem h (':' :: second.toList)
  rw [List.takeWhile_cons_of_neg (by decide), List.dropWhile_cons_of_neg (by decide),
    List.append_nil] at hspan
  rw [ofReference, toList_append_colon, hspan]
  simp only [String.ofList_toList]

/-- **Reading answers the region of the corners denoted**, or an error with the first corner that is
no cell. -/
theorem ofReference_eq_iff {answer : Except CellError Region} :
    ofReference text = answer ↔ Reading text answer := by
  constructor
  · rintro rfl
    obtain hcolon | ⟨first, second, rfl, hcolon⟩ := exists_split text
    · rw [ofReference_of_notMem hcolon]
      cases hc : Coord.ofReference text with
      | ok c => exact .single hcolon c (Coord.ofReference_eq_ok_iff.mp hc)
      | error error =>
        obtain ⟨hnone, rfl⟩ := Coord.ofReference_eq_error_iff.mp hc
        exact .noCell hcolon hnone
    · rw [ofReference_append hcolon]
      cases ha : Coord.ofReference first with
      | error error =>
        obtain ⟨hnone, rfl⟩ := Coord.ofReference_eq_error_iff.mp ha
        exact .noFirst first second rfl hcolon hnone
      | ok a =>
        have ha := Coord.ofReference_eq_ok_iff.mp ha
        cases hb : Coord.ofReference second with
        | error error =>
          obtain ⟨hnone, rfl⟩ := Coord.ofReference_eq_error_iff.mp hb
          exact .noSecond first second rfl hcolon a ha hnone
        | ok b =>
          exact .spanning first second rfl hcolon a b ha (Coord.ofReference_eq_ok_iff.mp hb)
  · intro h
    cases h with
    | single hcolon c h =>
      rw [ofReference_of_notMem hcolon, Coord.ofReference_eq_ok_iff.mpr h]
      rfl
    | noCell hcolon h =>
      rw [ofReference_of_notMem hcolon, Coord.ofReference_eq_error_iff.mpr ⟨h, rfl⟩]
      rfl
    | spanning first second htext hcolon a b ha hb =>
      rw [htext, ofReference_append hcolon, Coord.ofReference_eq_ok_iff.mpr ha,
        Coord.ofReference_eq_ok_iff.mpr hb]
      rfl
    | noFirst first second htext hcolon ha =>
      rw [htext, ofReference_append hcolon, Coord.ofReference_eq_error_iff.mpr ⟨ha, rfl⟩]
      rfl
    | noSecond first second htext hcolon a ha hb =>
      rw [htext, ofReference_append hcolon, Coord.ofReference_eq_ok_iff.mpr ha,
        Coord.ofReference_eq_error_iff.mpr ⟨hb, rfl⟩]
      rfl

/-- A second colon is part of the text of the second corner, and no cell has one. -/
theorem exists_error_of_colons (h : 1 < text.toList.count ':') :
    ∃ part, ofReference text = .error (.invalidReference part) := by
  have hread : Reading text (ofReference text) := ofReference_eq_iff.mp rfl
  cases hanswer : ofReference text with
  | error error =>
    rw [hanswer] at hread
    cases hread with
    | noCell | noFirst | noSecond => exact ⟨_, rfl⟩
  | ok r =>
    rw [hanswer] at hread
    cases hread with
    | single hcolon =>
      rw [List.count_eq_zero.mpr hcolon] at h
      exact absurd h (by decide)
    | spanning first second htext hcolon a b ha hb =>
      have hsecond : ':' ∉ second.toList := hb.notMem (by decide) (by decide) (by decide)
      rw [htext, toList_append_colon, List.count_append, List.count_cons_self,
        List.count_eq_zero.mpr hcolon, List.count_eq_zero.mpr hsecond] at h
      exact absurd h (by decide)

/-- **Every text is read as a cell and as a region by what it denotes**, and two colons are always
an error. -/
theorem ofReference_classified (text : String) :
    (∀ answer, Coord.ofReference text = answer ↔ Coord.Reading text answer) ∧
      (∀ answer, Region.ofReference text = answer ↔ Region.Reading text answer) ∧
      (text.toList.count ':' ≤ 1 ∨
        ∃ part, Region.ofReference text = .error (.invalidReference part)) := by
  refine ⟨fun _ => Coord.ofReference_eq_iff, fun _ => ofReference_eq_iff, ?_⟩
  by_cases hcolons : text.toList.count ':' ≤ 1
  · exact .inl hcolons
  · exact .inr (exists_error_of_colons (Nat.lt_of_not_le hcolons))

/-! ### Written references -/

theorem notMem_reference (c : Coord) : ':' ∉ c.reference.toList := by
  rw [Coord.reference, String.toList_ofList]
  exact c.isSplit_reference.notMem (by decide) (by decide)

theorem spanning_corners (r : Region) : spanning r.topLeft r.bottomRight = r := by
  have hrow := r.row_le
  have hcol := r.col_le
  rw [Region.ext_iff, Coord.ext_iff, Coord.ext_iff]
  simp only [spanning]
  omega

theorem spanning_self (c : Coord) : spanning c c = single c := spanning_corners (single c)

/-- A region of one cell is written as that cell, and any other by its corners. -/
theorem reference_cases (r : Region) :
    (r = single r.topLeft ∧ r.reference = r.topLeft.reference) ∨
      r.reference = r.topLeft.reference ++ ":" ++ r.bottomRight.reference := by
  rw [reference]
  split
  · rename_i hsingle
    have hcorners : r.topLeft = r.bottomRight := of_decide_eq_true hsingle
    exact .inl ⟨Region.ext rfl hcorners.symm, rfl⟩
  · exact .inr rfl

/-- A reference begins with a capital. That keeps it apart from numbers and formulas. -/
theorem exists_reference_cons (r : Region) :
    ∃ d < 26, ∃ rest, r.reference.toList = ColumnLabel.letter d :: rest := by
  obtain ⟨d, hd, rest, hchars⟩ := r.topLeft.exists_referenceChars_cons
  have hfirst : r.topLeft.reference.toList = ColumnLabel.letter d :: rest := by
    rw [Coord.reference, String.toList_ofList, hchars]
  obtain ⟨-, href⟩ | href := r.reference_cases
  · exact ⟨d, hd, rest, by rw [href, hfirst]⟩
  · exact ⟨d, hd, _, by rw [href, toList_append_colon, hfirst, List.cons_append]⟩

/-- Nothing in a reference is blank. -/
theorem not_isBlank_reference (r : Region) : ∀ a ∈ r.reference.toList, Text.isBlank a = false := by
  have hcell : ∀ c : Coord, ∀ a ∈ c.reference.toList, Text.isBlank a = false := fun c => by
    rw [Coord.reference, String.toList_ofList]
    exact c.isSplit_reference.not_isBlank
  obtain ⟨-, href⟩ | href := r.reference_cases
  · rw [href]
    exact hcell r.topLeft
  · rw [href, toList_append_colon, List.forall_mem_append, List.forall_mem_cons]
    exact ⟨hcell r.topLeft, by decide, hcell r.bottomRight⟩

theorem allBlank_reference (r : Region) : Text.allBlank r.reference = false := by
  obtain ⟨d, hd, rest, hchars⟩ := r.exists_reference_cons
  rw [Text.allBlank, hchars, List.all_cons, (ColumnLabel.letter_plain d hd).1, Bool.false_and]

/-- A written region is read by its two corners, also where only one of them is written. -/
theorem ofReference_reference_eq (r : Region) :
    ofReference r.reference = do
      let a ← Coord.ofReference r.topLeft.reference
      let b ← Coord.ofReference r.bottomRight.reference
      return spanning a b := by
  obtain ⟨hsingle, href⟩ | href := r.reference_cases
  · have hcorners : r.bottomRight = r.topLeft := congrArg bottomRight hsingle
    rw [href, ofReference_of_notMem (notMem_reference _), hcorners]
    cases Coord.ofReference r.topLeft.reference with
    | error error => rfl
    | ok a => exact congrArg Except.ok (spanning_self a).symm
  · rw [href]
    exact ofReference_append (notMem_reference _)

/-- **A written region is read back**, unless it reaches the last row. The error then names the
first corner in that row. -/
theorem ofReference_reference (r : Region) :
    ofReference r.reference =
      if r.bottomRight.row + 1 < 0x100000000 then .ok r
      else if r.topLeft.row + 1 < 0x100000000 then
        .error (.invalidReference r.bottomRight.reference)
      else .error (.invalidReference r.topLeft.reference) := by
  have hrow := r.row_le
  rw [ofReference_reference_eq, Coord.ofReference_reference, Coord.ofReference_reference]
  by_cases hfirst : r.topLeft.row + 1 < 0x100000000
  · rw [if_pos hfirst, if_pos hfirst]
    split
    · exact congrArg Except.ok (spanning_corners r)
    · rfl
  · have hsecond : ¬ r.bottomRight.row + 1 < 0x100000000 := by omega
    rw [if_neg hfirst, if_neg hfirst, if_neg hsecond, if_neg hsecond]
    rfl

/-- **What is written is read back in all rows but the last**, for cells and for regions. -/
theorem reference_readBack_iff (c : Coord) (r : Region) :
    (Coord.ofReference c.reference = .ok c ↔ c.row ≠ 0xffffffff) ∧
      (ofReference r.reference = .ok r ↔ r.bottomRight.row ≠ 0xffffffff) := by
  constructor
  · have hrow := c.row_lt
    rw [Coord.ofReference_reference]
    split
    · simp only [true_iff]
      omega
    · simp only [reduceCtorEq, false_iff]
      omega
  · have hrow := r.bottomRight.row_lt
    rw [ofReference_reference]
    split
    · simp only [true_iff]
      omega
    · split
      · simp only [reduceCtorEq, false_iff]
        omega
      · simp only [reduceCtorEq, false_iff]
        omega

/-- The first cell of the last row. -/
def lastRowCell : Coord := { Coord.origin with row := 0xffffffff, row_lt := by decide }

/-- The last row is numbered `2 ^ 32`. Its number is written, and refused when it is read. -/
theorem lastRow_not_readBack :
    lastRowCell.reference = "A4294967296" ∧
      Coord.ofReference lastRowCell.reference ≠ .ok lastRowCell ∧
      ofReference (single lastRowCell).reference ≠ .ok (single lastRowCell) := by
  refine ⟨by decide +kernel, ?_, ?_⟩
  · rw [Coord.ofReference_reference, if_neg (by decide)]
    rintro ⟨⟩
  · rw [ofReference_reference, if_neg (by decide), if_neg (by decide)]
    rintro ⟨⟩

/-- Corners that a text refers to span no region that reaches the last row. -/
theorem row_lt_of_denotes {first second : List Char} {a b : Coord} (ha : Coord.Denotes first a)
    (hb : Coord.Denotes second b) : (spanning a b).bottomRight.row + 1 < 0x100000000 := by
  have ha := ha.row_lt
  have hb := hb.row_lt
  simp only [spanning]
  omega

/-- A region that was read does not reach the last row. -/
theorem Reading.row_lt {r : Region} (h : Reading text (.ok r)) :
    r.bottomRight.row + 1 < 0x100000000 := by
  cases h with
  | single hcolon c h => exact h.row_lt
  | spanning first second htext hcolon a b ha hb => exact row_lt_of_denotes ha hb

/-- A region that was read is read back when it is written. -/
theorem ofReference_reference_of_ofReference (h : ofReference text = .ok r) :
    ofReference r.reference = .ok r := by
  rw [ofReference_reference, if_pos (ofReference_eq_iff.mp h).row_lt]

end Region

end Worksheet
