import Worksheet.Proofs.Binary64.Text
import Worksheet.Proofs.Entry.Meaning
import Worksheet.Proofs.Region.Reference

/-!
# Typing what an editor shows

An editor that is opened on a cell shows a text for its content, and storing it means that this text
is typed. Formulas and texts are shown as they were typed. A number is shown in the one notation of
`Binary64.text`, whatever was typed for it, and that is a literal with the same value, except that a
negative zero loses its sign.

A chart is not something that can be typed. It is shown as the reference to its region, and typing a
reference means a text.

## Main definitions

* `Content.Equal` — equality of contents, in which both zeros are equal
* `Content.retyped` — a content, or the text that takes the place of a chart
* `Content.Storable` — the contents that cells can come to hold

## Main results

* `Content.ofEntry_cases` — the three things that can be typed
* `Content.equal_ofEntry_text` — the text of a finite number means that number
* `Content.ofEntry_editText_ofEntry` — what was typed is the same after it was opened in an editor
* `Content.ofEntry_reference` — a reference means itself as a text
* `Content.Storable.equal_ofEntry_editText` — what an editor shows means what it was opened on
-/

namespace Worksheet

/-! ### Numbers -/

namespace Entry

/-- The number of a plain literal is its value. -/
theorem number?_chars {l : Literal} (h : l.Plain) (hfinite : l.value.isFinite = true) :
    number? l.chars = some l.value := by
  have hblank : ∀ c ∈ l.chars, Text.isBlank c = false := by
    intro c hc
    rcases h.mem_chars hc with rfl | rfl | hdigit
    · decide
    · decide
    · exact Text.isBlank_of_isDigit hdigit
  have hcomma : ',' ∉ l.chars := h.notMem_chars (by decide) (by decide) (by decide)
  have hlongest : Literal.IsLongest l.chars l.chars :=
    ⟨List.prefix_rfl, ⟨l, h.spells⟩, fun other hother _ => hother.length_le⟩
  exact number?_eq_some_iff.mpr ⟨l, ⟨l.chars, l.chars, l.chars,
    Text.trimmed_iff.mpr (Text.trimChars_eq_self hblank), .none hcomma, hlongest, h.spells⟩, rfl,
    hfinite⟩

theorem isFormula_chars {l : Literal} (h : l.Plain) : isFormula l.chars = false := by
  rw [isFormula, beq_eq_false_iff_ne]
  intro hhead
  exact h.notMem_chars (by decide) (by decide) (by decide) (List.mem_of_mem_head? hhead)

/-- A text that begins neither with a blank nor with a character that can begin a literal is no
number. -/
theorem number?_eq_none {c : Char} (rest : List Char) (hblank : Text.isBlank c = false)
    (hdigit : c.isDigit = false) (hsigns : c ∉ ['-', '+', '.', ',']) :
    number? (c :: rest) = none := by
  simp only [List.mem_cons, List.not_mem_nil, or_false, not_or] at hsigns
  obtain ⟨hminus, hplus, hpoint, hcomma⟩ := hsigns
  obtain ⟨rest', htrim⟩ := Text.exists_trimChars_cons hblank rest
  have hread : Literal.reader (c :: commaToPoint rest') = none := by
    rw [Literal.reader_eq_none_iff]
    rintro chars hbegins ⟨l, hspells⟩
    obtain ⟨d, chars, rfl, hd⟩ := hspells.exists_cons
    obtain rfl : d = c := (List.cons_prefix_cons.mp hbegins).1
    simp [hdigit, hminus, hplus, hpoint] at hd
  rw [number?, htrim, commaToPoint, if_neg hcomma, hread]
  rfl

end Entry

/-- The text of a finite number has digits, so it is not blank. -/
theorem Binary64.allBlank_text {x : Binary64} (h : x.isFinite = true) :
    Text.allBlank x.text = false := by
  obtain ⟨l, hplain, hchars, -⟩ := Binary64.exists_plain_textChars h
  obtain ⟨c, hc⟩ := List.exists_mem_of_ne_nil l.whole hplain.whole_ne_nil
  rw [Text.allBlank, Binary64.text, String.toList_ofList, hchars, List.all_eq_false]
  refine ⟨c, ?_, ?_⟩
  · exact List.mem_append_right _ (List.mem_append_left _ hc)
  · rw [Text.isBlank_of_isDigit (hplain.whole c hc)]
    exact Bool.false_ne_true

/-! ### Content -/

namespace Content

/-- Two contents are equal, where numbers are compared as numbers. -/
def Equal : Content → Content → Prop
  | number x, number y => x.Equal y
  | x, y => x = y

instance : (x y : Content) → Decidable (x.Equal y)
  | number x, number y => inferInstanceAs (Decidable (x.Equal y))
  | number _, text _ | number _, formula _ | number _, chart _ | text _, _ | formula _, _
  | chart _, _ => inferInstanceAs (Decidable (_ = _))

/-- What is typed when an editor was opened on the content and is closed again: a chart gives way to
the reference to its region. -/
def retyped : Content → Content
  | chart r => text r.reference
  | x => x

/-- What can be typed is a formula, a finite number or a text, and of a formula or a text nothing is
lost. -/
theorem ofEntry_cases (typed : String) :
    (Entry.isFormula typed.toList = true ∧ ofEntry typed = formula (.ofText typed)) ∨
      (∃ x : Binary64, x.isFinite = true ∧ ofEntry typed = number x) ∨
      ofEntry typed = text typed := by
  cases hformula : Entry.isFormula typed.toList with
  | true => exact .inl ⟨rfl, by rw [ofEntry, if_pos hformula]⟩
  | false =>
    cases hnumber : Entry.number? typed.toList with
    | some x =>
      obtain ⟨l, -, -, hfinite⟩ := Entry.number?_eq_some_iff.mp hnumber
      exact .inr (.inl ⟨x, hfinite, ofEntry_of_number? hformula hnumber⟩)
    | none => exact .inr (.inr (ofEntry_of_number?_eq_none hformula hnumber))

/-- A chart cannot be typed. -/
theorem retyped_ofEntry (typed : String) : (ofEntry typed).retyped = ofEntry typed := by
  rcases ofEntry_cases typed with ⟨-, hmeans⟩ | ⟨x, -, hmeans⟩ | hmeans
  · rw [hmeans]
    rfl
  · rw [hmeans]
    rfl
  · rw [hmeans]
    rfl

/-- **The text of a finite number means that number.** -/
theorem equal_ofEntry_text {x : Binary64} (h : x.isFinite = true) :
    (ofEntry x.text).Equal (number x) := by
  obtain ⟨l, hplain, hchars, hfinite, hvalue⟩ := Binary64.exists_plain_textChars h
  have htext : x.text.toList = l.chars := by rw [Binary64.text, String.toList_ofList, hchars]
  rw [ofEntry_of_number? (by rw [htext, Entry.isFormula_chars hplain])
    (by rw [htext, Entry.number?_chars hplain hfinite])]
  exact hvalue

/-- Whatever was typed, the text that an editor shows for its meaning means the same. -/
theorem equal_ofEntry_editText_typed (typed : String) :
    (ofEntry (ofEntry typed).editText).Equal (ofEntry typed) := by
  rcases ofEntry_cases typed with ⟨-, hmeans⟩ | ⟨x, hfinite, hmeans⟩ | hmeans
  · rw [hmeans]
    show (ofEntry typed).Equal (formula (.ofText typed))
    rw [hmeans]
    exact rfl
  · rw [hmeans]
    exact equal_ofEntry_text hfinite
  · rw [hmeans]
    show (ofEntry typed).Equal (text typed)
    rw [hmeans]
    exact rfl

/-- Equal contents are shown alike. -/
theorem Equal.editText_eq {x y : Content} (h : x.Equal y) : x.editText = y.editText := by
  cases x with
  | number x =>
    cases y with
    | number y => exact congrArg String.ofList (Binary64.Equal.textChars_eq h)
    | text s => cases h
    | formula f => cases h
    | chart r => cases h
  | text s => exact congrArg editText h
  | formula f => exact congrArg editText h
  | chart r => exact congrArg editText h

/-- **What was typed is not changed by opening it in an editor and closing that again**, and the
editor shows the same text the next time. -/
theorem ofEntry_editText_ofEntry (typed : String) :
    (ofEntry (ofEntry typed).editText).Equal (ofEntry typed) ∧
      (ofEntry (ofEntry typed).editText).editText = (ofEntry typed).editText :=
  ⟨equal_ofEntry_editText_typed typed, (equal_ofEntry_editText_typed typed).editText_eq⟩

/-- **A reference means itself as a text.** -/
theorem ofEntry_reference (r : Region) : ofEntry r.reference = text r.reference := by
  obtain ⟨d, hd, rest, hchars⟩ := r.exists_reference_cons
  obtain ⟨hblank, hdigit, hsigns, hmark⟩ := ColumnLabel.letter_plain d hd
  refine ofEntry_of_number?_eq_none ?_ ?_
  · rw [hchars]
    simp [Entry.isFormula, hmark]
  · rw [hchars, Entry.number?_eq_none rest hblank hdigit hsigns]

/-- The contents that cells can come to hold: what can be typed, and charts of regions that a text
refers to. -/
inductive Storable : Content → Prop
  | typed (entry : String) (hblank : Text.allBlank entry = false) : Storable (ofEntry entry)
  | chart (reference : String) (r : Region) (hread : Region.ofReference reference = .ok r) :
      Storable (chart r)

/-- **What an editor shows means what it was opened on**, unless that is a chart. -/
theorem Storable.equal_ofEntry_editText {x : Content} (h : x.Storable) :
    (ofEntry x.editText).Equal x.retyped := by
  cases h with
  | chart reference r hread =>
    show (ofEntry r.reference).Equal (text r.reference)
    rw [ofEntry_reference]
    exact rfl
  | typed entry hblank =>
    rw [retyped_ofEntry]
    exact equal_ofEntry_editText_typed entry

/-- What an editor shows for a cell that holds something can be stored. -/
theorem Storable.allBlank_editText {x : Content} (h : x.Storable) :
    Text.allBlank x.editText = false := by
  cases h with
  | chart reference r hread => exact r.allBlank_reference
  | typed entry hblank =>
    rcases ofEntry_cases entry with ⟨-, hmeans⟩ | ⟨x, hfinite, hmeans⟩ | hmeans
    · rw [hmeans]
      exact hblank
    · rw [hmeans]
      exact Binary64.allBlank_text hfinite
    · rw [hmeans]
      exact hblank

end Content

end Worksheet
