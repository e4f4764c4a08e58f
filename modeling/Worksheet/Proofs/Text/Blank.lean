import Mathlib.Data.List.Basic
import Worksheet.Proofs.Text.Reader
import Worksheet.Text.Blank

/-!
# Trimming

`Text.trimChars` takes the blanks around a text and nothing else. Where there is nothing to take, at
least at one end, the text keeps that end.

## Main definitions

* `Text.Trimmed` — a text, and what is left without the blanks around it

## Main results

* `Text.trimmed_iff` — trimming takes the blanks around a text, and nothing else
* `Text.trimChars_append`, `Text.trimChars_eq_self` — what is left has no blanks at all
* `Text.exists_trimChars_cons` — a text that does not begin with a blank keeps its beginning
-/

namespace Worksheet

namespace Text

theorem isBlank_of_isDigit {c : Char} (h : c.isDigit = true) : isBlank c = false := by
  rw [Char.isDigit, Bool.and_eq_true, decide_eq_true_eq, decide_eq_true_eq] at h
  have hlow : 48 ≤ c.toNat := h.1
  have hhigh : c.toNat ≤ 57 := h.2
  simp [isBlank, blankRanges]
  omega

/-- The text is `core` with blanks around it, and `core` neither begins nor ends with a blank. -/
structure Trimmed (text core : List Char) : Prop where
  /-- Around `core` there are blanks and nothing else. -/
  around : ∃ before after, text = before ++ core ++ after ∧
    (∀ c ∈ before, isBlank c = true) ∧ ∀ c ∈ after, isBlank c = true
  /-- What is left does not begin with a blank. -/
  first : ∀ c ∈ core.head?, isBlank c = false
  /-- It does not end with one. -/
  last : ∀ c ∈ core.getLast?, isBlank c = false

variable {text core before after : List Char}

/-- Blanks are dropped up to the first character that is none. -/
theorem dropWhile_isBlank_append {rest : List Char} (hbefore : ∀ c ∈ before, isBlank c = true)
    (hrest : ∀ c ∈ rest.head?, isBlank c = false) :
    (before ++ rest).dropWhile isBlank = rest :=
  congrArg Prod.snd (Option.some.inj (Reader.run_eq_some_iff.mpr ⟨rfl, hbefore, hrest⟩))

theorem Trimmed.trimChars_eq (h : Trimmed text core) : trimChars text = core := by
  obtain ⟨⟨before, after, rfl, hbefore, hafter⟩, hfirst, hlast⟩ := h
  cases core with
  | nil =>
    have hall : ∀ c ∈ before ++ after, isBlank c = true := fun c hc =>
      (List.mem_append.mp hc).elim (hbefore c) (hafter c)
    have hdrop : (before ++ after ++ []).dropWhile isBlank = [] :=
      dropWhile_isBlank_append hall (by simp)
    rw [trimChars, List.append_nil, ← List.append_nil (before ++ after), hdrop]
    rfl
  | cons c core =>
    have hfront : (before ++ (c :: core ++ after)).dropWhile isBlank = c :: core ++ after :=
      dropWhile_isBlank_append hbefore hfirst
    have hback : (after.reverse ++ (c :: core).reverse).dropWhile isBlank = (c :: core).reverse :=
      dropWhile_isBlank_append (fun c hc => hafter c (List.mem_reverse.mp hc))
        (by rwa [List.head?_reverse])
    rw [trimChars, List.append_assoc, hfront, List.reverse_append, hback, List.reverse_reverse]

/-- Trimming takes blanks from a text and nothing else. -/
theorem exists_append_trimChars (text : List Char) :
    ∃ before after, text = before ++ trimChars text ++ after ∧
      (∀ c ∈ before, isBlank c = true) ∧ ∀ c ∈ after, isBlank c = true := by
  have hall : ∀ chars : List Char, ∀ c ∈ chars.takeWhile isBlank, isBlank c = true :=
    fun chars => List.all_eq_true.mp List.all_takeWhile
  let front := text.dropWhile isBlank
  refine ⟨text.takeWhile isBlank, (front.reverse.takeWhile isBlank).reverse, ?_, hall text, ?_⟩
  · have hback : trimChars text ++ (front.reverse.takeWhile isBlank).reverse = front := by
      rw [trimChars, ← List.reverse_append, List.takeWhile_append_dropWhile, List.reverse_reverse]
    rw [List.append_assoc, hback, List.takeWhile_append_dropWhile]
  · intro c hc
    exact hall _ c (List.mem_reverse.mp hc)

/-- **Trimming takes all the blanks around a text, and nothing else.** -/
theorem trimmed_iff : Trimmed text core ↔ trimChars text = core := by
  refine ⟨Trimmed.trimChars_eq, ?_⟩
  rintro rfl
  refine ⟨exists_append_trimChars text, ?_, ?_⟩
  · intro c hc
    rw [trimChars, List.head?_reverse] at hc
    have hlast : c ∈ (text.dropWhile isBlank).reverse.getLast? := by
      rw [← List.takeWhile_append_dropWhile (p := isBlank) (l := (text.dropWhile isBlank).reverse)]
      exact List.mem_getLast?_append_of_mem_getLast? hc
    rw [List.getLast?_reverse] at hlast
    exact Reader.stops_dropWhile isBlank text c hlast
  · intro c hc
    rw [trimChars, List.getLast?_reverse] at hc
    exact Reader.stops_dropWhile isBlank _ c hc

/-! ### Texts that keep an end -/

theorem Trimmed.of_forall (hcore : ∀ c ∈ core, isBlank c = false)
    (hbefore : ∀ c ∈ before, isBlank c = true) (hafter : ∀ c ∈ after, isBlank c = true) :
    Trimmed (before ++ core ++ after) core where
  around := ⟨before, after, rfl, hbefore, hafter⟩
  first c hc := hcore c (List.mem_of_mem_head? hc)
  last c hc := hcore c (List.mem_of_mem_getLast? hc)

/-- Trimming takes all the blanks around a text without blanks. -/
theorem trimChars_append (hbefore : ∀ c ∈ before, isBlank c = true)
    (hcore : ∀ c ∈ core, isBlank c = false) (hafter : ∀ c ∈ after, isBlank c = true) :
    trimChars (before ++ core ++ after) = core :=
  (Trimmed.of_forall hcore hbefore hafter).trimChars_eq

/-- A text without blanks is trimmed to itself. -/
theorem trimChars_eq_self (h : ∀ c ∈ text, isBlank c = false) : trimChars text = text := by
  have hnil : ∀ c ∈ ([] : List Char), isBlank c = true := by
    rintro c ⟨⟩
  have htrim := trimChars_append hnil h hnil
  rwa [List.nil_append, List.append_nil] at htrim

/-- A text that does not begin with a blank keeps its beginning when it is trimmed. -/
theorem exists_trimChars_cons {c : Char} (hc : isBlank c = false) (rest : List Char) :
    ∃ rest', trimChars (c :: rest) = c :: rest' := by
  refine ⟨(rest.reverse.dropWhile isBlank).reverse, ?_⟩
  rw [trimChars, List.dropWhile_cons_of_neg (by rw [hc]; decide), List.reverse_cons,
    List.dropWhile_append]
  split
  · rename_i hempty
    rw [List.isEmpty_iff.mp hempty, List.dropWhile_cons_of_neg (by rw [hc]; decide)]
    rfl
  · rw [List.reverse_append]
    rfl

end Text

end Worksheet
