import Mathlib.Order.Bounds.Basic
import Worksheet.Evaluation
import Worksheet.Proofs.Binary64.Extended

/-!
# Least and greatest numbers

The minimum and the maximum of a list are found by going through it once, and the better one of two
numbers is kept at each step. What is not a number gives way, wherever it stands: at the beginning,
where it is kept until the first number comes, in the middle or at the end.

This order of steps does not matter. In terms of values, a step merges two optional values, and so
going through the list merges those that there are (`Binary64.toEReal?_foldl`). Of a list of values,
the least one is found whatever their order. Only the sign of a zero can depend on it, as both zeros
have the same value.

## Main definitions

* `Binary64.values` — the values of the numbers in a list
* `Binary64.mergeAll` — the values of a list merged from left to right
* `Aggregate.Finds` — a function finds the least number of a list, or the greatest

## Main results

* `Binary64.toEReal?_min`, `Binary64.toEReal?_max` — one step in terms of values
* `Binary64.toEReal?_foldl` — all steps in terms of values
* `Aggregate.finds_extremes` — minimum and maximum are the extremes of a list in any order
-/

namespace Worksheet

namespace Binary64

/-- The values of the numbers in a list; what is not a number has none. -/
def values (xs : List Binary64) : Set EReal := {p | ∃ x ∈ xs, x.toEReal? = some p}

theorem mem_values_iff {xs : List Binary64} {p : EReal} :
    p ∈ values xs ↔ p ∈ xs.filterMap toEReal? := List.mem_filterMap.symm

/-! ### One step -/

variable {x y : Binary64}

/-- To keep the better one of two numbers merges their values, whatever the better one is. -/
theorem toEReal?_ite {op : EReal → EReal → EReal} {better : Prop} [Decidable better]
    (hop : ∀ p q, x.toEReal? = some p → y.toEReal? = some q →
      op p q = if better then q else p) :
    (if x = nan then y else if y = nan then x else if better then y else x).toEReal? =
      x.toEReal?.merge op y.toEReal? := by
  by_cases hx : x = nan
  · rw [if_pos hx, toEReal?_eq_none_iff.mpr hx, Option.merge_none_left]
  · by_cases hy : y = nan
    · rw [if_neg hx, if_pos hy, toEReal?_eq_none_iff.mpr hy, Option.merge_none_right]
    · obtain ⟨p, hp⟩ := exists_toEReal? hx
      obtain ⟨q, hq⟩ := exists_toEReal? hy
      rw [if_neg hx, if_neg hy, hp, hq, Option.merge_some_some, hop p q hp hq]
      split
      · exact hq
      · exact hp

theorem toEReal?_min (x y : Binary64) :
    (x.min y).toEReal? = x.toEReal?.merge Min.min y.toEReal? := by
  refine toEReal?_ite fun p q hp hq => ?_
  simp only [lt_eq_true_iff hq hp]
  rw [min_comm, min_def_lt]

theorem toEReal?_max (x y : Binary64) :
    (x.max y).toEReal? = x.toEReal?.merge Max.max y.toEReal? := by
  refine toEReal?_ite fun p q hp hq => ?_
  simp only [lt_eq_true_iff hp hq]
  exact max_def_lt p q

/-! ### All steps -/

/-- The values of a list, merged from left to right, if there are any. -/
def mergeAll (op : EReal → EReal → EReal) : List EReal → Option EReal
  | [] => none
  | p :: rest => some (rest.foldl op p)

/-- If each step merges two values, then all steps merge those that there are. -/
theorem toEReal?_foldl {better : Binary64 → Binary64 → Binary64} {op : EReal → EReal → EReal}
    (hstep : ∀ x y, (better x y).toEReal? = x.toEReal?.merge op y.toEReal?) (x : Binary64)
    (xs : List Binary64) :
    (xs.foldl better x).toEReal? = mergeAll op ((x :: xs).filterMap toEReal?) := by
  induction xs generalizing x with
  | nil =>
    rw [List.foldl_nil, List.filterMap_cons]
    cases x.toEReal? <;> rfl
  | cons y rest ih =>
    rw [List.foldl_cons, ih, List.filterMap_cons, List.filterMap_cons, List.filterMap_cons, hstep]
    cases x.toEReal? <;> cases y.toEReal? <;> rfl

theorem mergeAll_ne_none {op : EReal → EReal → EReal} {xs : List Binary64}
    (h : ∃ x ∈ xs, x ≠ nan) : mergeAll op (xs.filterMap toEReal?) ≠ none := by
  obtain ⟨x, hx, hne⟩ := h
  obtain ⟨p, hp⟩ := exists_toEReal? hne
  have hmem : p ∈ xs.filterMap toEReal? := List.mem_filterMap.mpr ⟨x, hx, hp⟩
  cases hvalues : xs.filterMap toEReal? with
  | nil => simp [hvalues] at hmem
  | cons q rest => exact Option.some_ne_none _

theorem mergeAll_min (ps : List EReal) : mergeAll Min.min ps = ps.min? := by
  cases ps <;> rfl

theorem mergeAll_max (ps : List EReal) : mergeAll Max.max ps = ps.max? := by
  cases ps <;> rfl

theorem mergeAll_min_eq_some_iff {xs : List Binary64} {p : EReal} :
    mergeAll Min.min (xs.filterMap toEReal?) = some p ↔ IsLeast (values xs) p := by
  rw [mergeAll_min, List.min?_eq_some_iff]
  simp only [← mem_values_iff]
  rfl

theorem mergeAll_max_eq_some_iff {xs : List Binary64} {p : EReal} :
    mergeAll Max.max (xs.filterMap toEReal?) = some p ↔ IsGreatest (values xs) p := by
  rw [mergeAll_max, List.max?_eq_some_iff]
  simp only [← mem_values_iff]
  rfl

end Binary64

namespace Aggregate

open Binary64

variable {f : Aggregate} {xs ys : List Binary64}

/-- The function finds an extreme number in a list: the least one, the greatest one, or whatever
`extreme` says of a set of values and one of them. -/
structure Finds (f : Aggregate) (extreme : Set EReal → EReal → Prop) : Prop where
  /-- If there are numbers in the list, the extreme one of their values is found. -/
  number : ∀ xs, (∃ x ∈ xs, x ≠ nan) →
    ∃ z p, f.apply xs = .number z ∧ z.toEReal? = some p ∧ extreme (values xs) p
  /-- If there are none, what is found is not a number either. -/
  nan : ∀ xs, xs ≠ [] → (∀ x ∈ xs, x = nan) → f.apply xs = .number nan
  /-- The order of the list makes no difference, but for the sign of zero. -/
  perm : ∀ xs ys, xs ≠ [] → xs.Perm ys → ∃ z z', f.apply xs = .number z ∧ f.apply ys = .number z' ∧
    (z = z' ∨ ∃ negative negative', z = zero negative ∧ z' = zero negative')

theorem values_congr (h : xs.Perm ys) : values xs = values ys := by
  ext p
  rw [mem_values_iff, mem_values_iff, (h.filterMap toEReal?).mem_iff]

/-- A function that merges the values of the numbers in a list finds what is extreme among them, as
this does not depend on their order. -/
theorem Finds.of_mergeAll (op : EReal → EReal → EReal) {extreme : Set EReal → EReal → Prop}
    (happly : ∀ xs, xs ≠ [] →
      ∃ z, f.apply xs = .number z ∧ z.toEReal? = mergeAll op (xs.filterMap toEReal?))
    (hextreme : ∀ xs p, mergeAll op (xs.filterMap toEReal?) = some p ↔ extreme (values xs) p) :
    f.Finds extreme where
  number := by
    intro xs hnumber
    have hne : xs ≠ [] := by
      rintro rfl
      simp at hnumber
    obtain ⟨z, hz, hvalue⟩ := happly xs hne
    obtain ⟨p, hp⟩ := Option.ne_none_iff_exists'.mp (mergeAll_ne_none hnumber)
    exact ⟨z, p, hz, hvalue.trans hp, (hextreme xs p).mp hp⟩
  nan := by
    intro xs hne hnan
    obtain ⟨z, hz, hvalue⟩ := happly xs hne
    have hnone : xs.filterMap toEReal? = [] :=
      List.filterMap_eq_nil_iff.mpr fun x hx => toEReal?_eq_none_iff.mpr (hnan x hx)
    rw [hnone] at hvalue
    rw [hz, toEReal?_eq_none_iff.mp hvalue]
  perm := by
    intro xs ys hne hperm
    have hne' : ys ≠ [] := by
      rintro rfl
      exact hne hperm.eq_nil
    obtain ⟨z, hz, hvalue⟩ := happly xs hne
    obtain ⟨z', hz', hvalue'⟩ := happly ys hne'
    refine ⟨z, z', hz, hz', eq_or_zero_of_toEReal?_eq (Option.ext fun p => ?_)⟩
    rw [hvalue, hvalue', hextreme, hextreme, values_congr hperm]

/-- **Minimum and maximum are the extremes of a list in any order**, whatever in it is not a
number. -/
theorem finds_extremes : minimum.Finds IsLeast ∧ maximum.Finds IsGreatest := by
  constructor
  · refine .of_mergeAll Min.min (fun xs hne => ?_) fun _ _ => mergeAll_min_eq_some_iff
    obtain ⟨x, rest, rfl⟩ := List.exists_cons_of_ne_nil hne
    exact ⟨_, rfl, toEReal?_foldl toEReal?_min x rest⟩
  · refine .of_mergeAll Max.max (fun xs hne => ?_) fun _ _ => mergeAll_max_eq_some_iff
    obtain ⟨x, rest, rfl⟩ := List.exists_cons_of_ne_nil hne
    exact ⟨_, rfl, toEReal?_foldl toEReal?_max x rest⟩

/-- Both zeros are least. Which of them is found is left open by the format; here it is the one that
comes first. -/
theorem bothZeros_finds :
    [zero false, nan, zero true].Perm [zero true, nan, zero false] ∧
    minimum.apply [zero false, nan, zero true] = .number (zero false) ∧
    minimum.apply [zero true, nan, zero false] = .number (zero true) ∧
    ∃ z z', minimum.apply [zero false, nan, zero true] = .number z ∧
      minimum.apply [zero true, nan, zero false] = .number z' ∧
      (z = z' ∨ ∃ negative negative', z = zero negative ∧ z' = zero negative') := by
  have hperm : [zero false, nan, zero true].Perm [zero true, nan, zero false] := by decide
  exact ⟨hperm, by decide, by decide, finds_extremes.1.perm _ _ (List.cons_ne_nil _ _) hperm⟩

end Aggregate

end Worksheet
