import Worksheet.Coord

/-!
# Lists of cells in order

Cells collected in any order, sorted row by row with repetitions removed.

## Main definitions

* `Coord.insertOrdered` — a further cell in a sorted list
* `Coord.ordered` — the cells of a list, sorted and each once

## Main results

* `Coord.mem_ordered` — no cell is lost and none is added
* `Coord.pairwise_ordered` — the cells are in strictly increasing order
* `Coord.eq_of_mem_iff` — a list in strictly increasing order is determined by its members
-/

namespace Worksheet

namespace Coord

/-- The cells before `c`, then `c`, then the cells after it. -/
def insertOrdered (c : Coord) (cells : List Coord) : List Coord :=
  cells.filter (fun d => decide (d < c)) ++ c :: cells.filter (fun d => decide (c < d))

/-- The cells of the list in increasing order, each of them once. -/
def ordered (cells : List Coord) : List Coord := cells.foldr insertOrdered []

theorem mem_insertOrdered {c d : Coord} {cells : List Coord} :
    d ∈ insertOrdered c cells ↔ d = c ∨ d ∈ cells := by
  have hsides := lt_or_eq_or_gt d c
  simp only [insertOrdered, List.mem_append, List.mem_cons, List.mem_filter, decide_eq_true_eq]
  constructor
  · rintro (⟨hmem, -⟩ | heq | ⟨hmem, -⟩)
    · exact .inr hmem
    · exact .inl heq
    · exact .inr hmem
  · rintro (heq | hmem)
    · exact .inr (.inl heq)
    · rcases hsides with hlt | heq | hgt
      · exact .inl ⟨hmem, hlt⟩
      · exact .inr (.inl heq)
      · exact .inr (.inr ⟨hmem, hgt⟩)

theorem mem_ordered {d : Coord} {cells : List Coord} : d ∈ ordered cells ↔ d ∈ cells := by
  induction cells with
  | nil => simp [ordered]
  | cons c rest ih =>
    rw [show ordered (c :: rest) = insertOrdered c (ordered rest) from rfl, mem_insertOrdered, ih,
      List.mem_cons]

theorem pairwise_insertOrdered (c : Coord) {cells : List Coord} (h : cells.Pairwise (· < ·)) :
    (insertOrdered c cells).Pairwise (· < ·) := by
  refine List.pairwise_append.2 ⟨h.filter _, List.pairwise_cons.2 ⟨?_, h.filter _⟩, ?_⟩
  · intro d hd
    exact of_decide_eq_true (List.mem_filter.1 hd).2
  · intro a ha b hb
    have hac := of_decide_eq_true (List.mem_filter.1 ha).2
    rcases List.mem_cons.1 hb with rfl | hb
    · exact hac
    · exact lt_trans hac (of_decide_eq_true (List.mem_filter.1 hb).2)

theorem pairwise_ordered (cells : List Coord) : (ordered cells).Pairwise (· < ·) := by
  induction cells with
  | nil => exact .nil
  | cons c rest ih => exact pairwise_insertOrdered c ih

/-- Lists in strictly increasing order are the same if they have the same members. The members may
be anything that is placed at cells by a `key`. -/
theorem eq_of_mem_iff {α : Type} (key : α → Coord) {l m : List α}
    (hl : l.Pairwise fun a b => key a < key b) (hm : m.Pairwise fun a b => key a < key b)
    (h : ∀ a, a ∈ l ↔ a ∈ m) : l = m := by
  have hnodup : ∀ k : List α, (k.Pairwise fun a b => key a < key b) → k.Nodup :=
    fun k hk => hk.imp fun {a b} hlt (heq : a = b) => ne_of_lt hlt (congrArg key heq)
  have hperm : l.Perm m := (List.perm_ext_iff_of_nodup (hnodup l hl) (hnodup m hm)).2 h
  exact hperm.eq_of_pairwise
    (fun a b _ _ hab hba => absurd (lt_trans hab hba) (lt_irrefl _)) hl hm

end Coord

end Worksheet
