import Worksheet.Entry
import Worksheet.Proofs.Binary64.Literal
import Worksheet.Proofs.Binary64.Nearest
import Worksheet.Proofs.Text.Blank

/-!
# The meaning of a typed text

What a typed text means depends on how it begins: with an equals sign, with a number literal, or
with neither. A literal is looked for behind the blanks, in the text in which a point stands for the
first comma, and it reaches as far as it can. Its value has to be a finite number; where it is not,
the text means itself, as if there were no literal.

## Main definitions

* `Entry.PointForComma` — a text, and the text with a point for its first comma
* `Entry.BeginsWith` — the literal that a typed text begins with
* `Entry.Means` — the content that a typed text means

## Main results

* `Entry.number?_eq_some_iff`, `Entry.number?_eq_none_iff` — the number that a text begins with
* `Content.ofEntry_eq_iff` — typing a text stores what it means
-/

namespace Worksheet

namespace Entry

/-- In the second text a point stands in the place of the first comma of the first one, if it has a
comma. -/
inductive PointForComma : List Char → List Char → Prop
  | none {text : List Char} (h : ',' ∉ text) : PointForComma text text
  | first {before after : List Char} (h : ',' ∉ before) :
      PointForComma (before ++ ',' :: after) (before ++ '.' :: after)

/-- The literal is the longest one that the text begins with, when the blanks around the text are
taken away and a point stands for its first comma. -/
def BeginsWith (text : List Char) (l : Literal) : Prop :=
  ∃ core pointed chars, Text.Trimmed text core ∧ PointForComma core pointed ∧
    Literal.IsLongest chars pointed ∧ Literal.Spells chars l

/-- The content that a typed text means. -/
inductive Means (typed : String) : Content → Prop
  /-- A text that begins with an equals sign is a formula. -/
  | formula (hmark : typed.toList.head? = some '=') : Means typed (.formula (.ofText typed))
  /-- A text that begins with a literal is the number nearest to it, if that is finite. -/
  | number {l : Literal} {x : Binary64} (hmark : typed.toList.head? ≠ some '=')
      (hbegins : BeginsWith typed.toList l) (hvalue : l.Denotes x) (hfinite : x.isFinite = true) :
      Means typed (.number x)
  /-- Any other text is kept as it is. -/
  | text (hmark : typed.toList.head? ≠ some '=')
      (hnone : ∀ l x, BeginsWith typed.toList l → l.Denotes x → x.isFinite = false) :
      Means typed (.text typed)

variable {text pointed : List Char}

/-! ### Commas -/

theorem commaToPoint_eq_self (h : ',' ∉ text) : commaToPoint text = text := by
  induction text with
  | nil => rfl
  | cons c rest ih =>
    rw [List.mem_cons, not_or] at h
    rw [commaToPoint, if_neg (Ne.symm h.1), ih h.2]

theorem commaToPoint_append {before : List Char} (h : ',' ∉ before) (after : List Char) :
    commaToPoint (before ++ ',' :: after) = before ++ '.' :: after := by
  induction before with
  | nil => rfl
  | cons c rest ih =>
    rw [List.mem_cons, not_or] at h
    rw [List.cons_append, commaToPoint, if_neg (Ne.symm h.1), ih h.2, List.cons_append]

theorem pointForComma_iff : PointForComma text pointed ↔ commaToPoint text = pointed := by
  constructor
  · rintro (h | h)
    · exact commaToPoint_eq_self h
    · exact commaToPoint_append h _
  · rintro rfl
    by_cases hcomma : ',' ∈ text
    · obtain ⟨before, after, rfl, hbefore⟩ := List.eq_append_cons_of_mem hcomma
      rw [commaToPoint_append hbefore]
      exact .first hbefore
    · rw [commaToPoint_eq_self hcomma]
      exact .none hcomma

/-! ### Numbers -/

/-- The literal that a typed text begins with is what is read. -/
theorem beginsWith_iff {l : Literal} :
    BeginsWith text l ↔ ∃ chars rest,
      Literal.reader (commaToPoint (Text.trimChars text)) = some (chars, rest) ∧
        Literal.ofChars? chars = some l := by
  constructor
  · rintro ⟨core, pointed, chars, htrim, hcomma, hlongest, hspells⟩
    rw [Text.trimmed_iff.mp htrim, pointForComma_iff.mp hcomma]
    obtain ⟨rest, rfl⟩ := hlongest.begins
    exact ⟨chars, rest, Literal.reader_eq_some_iff.mpr ⟨rfl, hlongest⟩, hspells.ofChars?_eq⟩
  · rintro ⟨chars, rest, hread, hl⟩
    obtain ⟨-, hlongest⟩ := Literal.reader_eq_some_iff.mp hread
    obtain ⟨l', hspells⟩ := hlongest.spelled
    obtain rfl : l' = l := Option.some.inj (hspells.ofChars?_eq.symm.trans hl)
    exact ⟨_, _, chars, Text.trimmed_iff.mpr rfl, pointForComma_iff.mpr rfl, hlongest, hspells⟩

/-- **The number of a typed text is the value of the literal that it begins with**, if the value is
finite. -/
theorem number?_eq_some_iff {x : Binary64} :
    number? text = some x ↔ ∃ l, BeginsWith text l ∧ l.value = x ∧ x.isFinite = true := by
  simp only [number?, Option.bind_eq_bind, Option.bind_eq_some_iff, Option.ite_none_right_eq_some,
    Option.some.injEq, Prod.exists, beginsWith_iff]
  constructor
  · rintro ⟨chars, rest, hread, l, hl, hfinite, rfl⟩
    exact ⟨l, ⟨chars, rest, hread, hl⟩, rfl, hfinite⟩
  · rintro ⟨l, ⟨chars, rest, hread, hl⟩, rfl, hfinite⟩
    exact ⟨chars, rest, hread, l, hl, hfinite, rfl⟩

/-- There is none if the text does not begin with a literal, or with one that is too large. -/
theorem number?_eq_none_iff :
    number? text = none ↔ ∀ l, BeginsWith text l → l.value.isFinite = false := by
  constructor
  · intro h l hbegins
    rw [← Bool.not_eq_true]
    intro hfinite
    rw [number?_eq_some_iff.mpr ⟨l, hbegins, rfl, hfinite⟩] at h
    cases h
  · intro h
    rw [Option.eq_none_iff_forall_ne_some]
    intro x hx
    obtain ⟨l, hbegins, rfl, hfinite⟩ := number?_eq_some_iff.mp hx
    rw [h l hbegins] at hfinite
    cases hfinite

theorem isFormula_iff : isFormula text = true ↔ text.head? = some '=' := beq_iff_eq

end Entry

namespace Content

variable {typed : String}

theorem ofEntry_of_number? (h : Entry.isFormula typed.toList = false)
    {x : Binary64} (hx : Entry.number? typed.toList = some x) : ofEntry typed = number x := by
  rw [ofEntry, h, if_neg Bool.false_ne_true, hx]

theorem ofEntry_of_number?_eq_none (h : Entry.isFormula typed.toList = false)
    (hx : Entry.number? typed.toList = none) : ofEntry typed = text typed := by
  rw [ofEntry, h, if_neg Bool.false_ne_true, hx]

/-- **Typing a text stores what it means.** -/
theorem ofEntry_eq_iff {content : Content} :
    ofEntry typed = content ↔ Entry.Means typed content := by
  constructor
  · rintro rfl
    cases hformula : Entry.isFormula typed.toList with
    | true =>
      rw [ofEntry, if_pos hformula]
      exact .formula (Entry.isFormula_iff.mp hformula)
    | false =>
      have hmark : typed.toList.head? ≠ some '=' := by
        rw [ne_eq, ← Entry.isFormula_iff, hformula]
        exact Bool.false_ne_true
      cases hnumber : Entry.number? typed.toList with
      | some x =>
        rw [ofEntry_of_number? hformula hnumber]
        obtain ⟨l, hbegins, hvalue, hfinite⟩ := Entry.number?_eq_some_iff.mp hnumber
        exact .number hmark hbegins (l.denotes_iff.mpr hvalue) hfinite
      | none =>
        rw [ofEntry_of_number?_eq_none hformula hnumber]
        refine .text hmark fun l x hbegins hvalue => ?_
        rw [← l.denotes_iff.mp hvalue]
        exact Entry.number?_eq_none_iff.mp hnumber l hbegins
  · intro h
    cases h with
    | formula hmark => rw [ofEntry, if_pos (Entry.isFormula_iff.mpr hmark)]
    | @number l x hmark hbegins hvalue hfinite =>
      rw [ne_eq, ← Entry.isFormula_iff, Bool.not_eq_true] at hmark
      exact ofEntry_of_number? hmark
        (Entry.number?_eq_some_iff.mpr ⟨l, hbegins, l.denotes_iff.mp hvalue, hfinite⟩)
    | text hmark hnone =>
      rw [ne_eq, ← Entry.isFormula_iff, Bool.not_eq_true] at hmark
      exact ofEntry_of_number?_eq_none hmark
        (Entry.number?_eq_none_iff.mpr fun l hbegins =>
          hnone l _ hbegins (l.denotes_iff.mpr rfl))

end Content

end Worksheet
