import Worksheet.Binary64.Literal
import Worksheet.Proofs.Text.Reader

/-!
# The grammar of literals

What a literal is can be said without a reader: a sign or none, digits with a point before, among or
after them, and an exponent or none. `Literal.Spells` says it, part by part, together with the value
of each part.

The reader of literals is greedy, so it takes a literal from the beginning of a text if there is
one. That it takes the longest one is less plain, because what continues a literal need not be a
literal, as in `1e` or `2e+`. The grammar has one place only where a choice is made too early to be
taken back: the exponent, whose mark, sign and digits are taken together or not at all. Everywhere
else a longer literal has more digits, or a point, where the shorter one ends, and the reader has
taken these already.

## Main definitions

* `Literal.Spells` — the grammar: the characters of a literal and its parts
* `Literal.IsLongest` — the longest literal that a text begins with

## Main results

* `Literal.reader_eq_some_iff`, `Literal.reader_eq_none_iff` — the reader takes the longest literal
* `Literal.Spells.ofChars?_eq` — the parts of a literal are found
-/

namespace Worksheet

namespace Literal

/-! ### The grammar -/

/-- A sign, and whether it is a minus sign. It may be left out. -/
inductive SpellsSign : List Char → Bool → Prop
  | none : SpellsSign [] false
  | plus : SpellsSign ['+'] false
  | minus : SpellsSign ['-'] true

/-- The characters are digits. -/
def AllDigits (chars : List Char) : Prop := ∀ c ∈ chars, c.isDigit = true

/-- Digits, at least one of them: all the characters, the digits before the point, and those after
it. Digits before the point may do without it. -/
inductive SpellsDigits : List Char → List Char → List Char → Prop
  | whole {whole : List Char} (hne : whole ≠ []) (hwhole : AllDigits whole) :
      SpellsDigits whole whole []
  | pointed {whole fraction : List Char} (hne : whole ≠ []) (hwhole : AllDigits whole)
      (hfraction : AllDigits fraction) :
      SpellsDigits (whole ++ '.' :: fraction) whole fraction
  | fraction {fraction : List Char} (hne : fraction ≠ []) (hfraction : AllDigits fraction) :
      SpellsDigits ('.' :: fraction) [] fraction

/-- An exponent with its mark, and its value. It may be left out. -/
inductive SpellsExponent : List Char → Int → Prop
  | none : SpellsExponent [] 0
  | marked {mark : Char} {sign digits : List Char} {negative : Bool} (hmark : mark ∈ ['e', 'E'])
      (hsign : SpellsSign sign negative) (hne : digits ≠ []) (hdigits : AllDigits digits) :
      SpellsExponent (mark :: (sign ++ digits))
        (if negative then -(Nat.ofDigitChars 10 digits 0 : Int) else Nat.ofDigitChars 10 digits 0)

/-- The characters of a literal, and its parts. -/
inductive Spells : List Char → Literal → Prop
  | parts {sign digits mark whole fraction : List Char} {negative : Bool} {exponent : Int}
      (hsign : SpellsSign sign negative) (hdigits : SpellsDigits digits whole fraction)
      (hexponent : SpellsExponent mark exponent) :
      Spells (sign ++ (digits ++ mark)) ⟨negative, whole, fraction, exponent⟩

/-- The characters are the longest literal that the text begins with. -/
structure IsLongest (chars text : List Char) : Prop where
  /-- The text begins with them. -/
  begins : chars <+: text
  /-- They are a literal. -/
  spelled : ∃ l, Spells chars l
  /-- No literal that the text begins with has more characters. -/
  longest : ∀ other, other <+: text → (∃ l, Spells other l) → other.length ≤ chars.length

variable {text chars rest tail sign digits mark whole fraction : List Char} {negative : Bool}
  {exponent : Int} {l : Literal}

/-! ### Where the parts meet -/

/-- The text does not begin with a sign. -/
def Unsigned (text : List Char) : Prop := ∀ c ∈ text.head?, c ≠ '+' ∧ c ≠ '-'

theorem unsigned_cons {c : Char} (hplus : c ≠ '+') (hminus : c ≠ '-') (rest : List Char) :
    Unsigned (c :: rest) := by
  rintro d hd
  obtain rfl : c = d := Option.some.inj hd
  exact ⟨hplus, hminus⟩

theorem AllDigits.unsigned_append (h : AllDigits digits) (hne : digits ≠ []) (tail : List Char) :
    Unsigned (digits ++ tail) := by
  cases digits with
  | nil => exact absurd rfl hne
  | cons c digits =>
    have hc : c.isDigit = true := h c (List.mem_cons_self ..)
    refine unsigned_cons ?_ ?_ _
    · rintro rfl
      exact absurd hc (by decide)
    · rintro rfl
      exact absurd hc (by decide)

theorem SpellsDigits.unsigned_append (h : SpellsDigits digits whole fraction) (tail : List Char) :
    Unsigned (digits ++ tail) := by
  cases h with
  | whole hne hwhole => exact hwhole.unsigned_append hne tail
  | pointed hne hwhole hfraction =>
    rw [List.append_assoc]
    exact hwhole.unsigned_append hne _
  | fraction hne hfraction => exact unsigned_cons (by decide) (by decide) _

/-- The characters that digits with a point are made of. -/
def isPlace (c : Char) : Bool := c.isDigit || c == '.'

theorem isPlace_of_isDigit {c : Char} (h : c.isDigit = true) : isPlace c = true := by
  rw [isPlace, h, Bool.true_or]

/-- None of them can be mistaken for the mark of an exponent. -/
theorem SpellsExponent.stops (h : SpellsExponent mark exponent) : Reader.Stops isPlace mark := by
  cases h with
  | none => exact Reader.stops_nil
  | marked hmark hsign hne hdigits =>
    refine Reader.stops_cons.mpr ?_
    rcases List.mem_cons.mp hmark with rfl | hmark
    · rfl
    · obtain rfl := List.mem_singleton.mp hmark
      rfl

/-- What continues digits with a point does not reach into an exponent. -/
theorem SpellsExponent.eq_nil_or {more : List Char} (h : SpellsExponent mark exponent)
    (hmore : ∀ c ∈ more, isPlace c = true) (heq : mark ++ tail = more ++ rest) :
    mark = [] ∨ more = [] := by
  cases mark with
  | nil => exact .inl rfl
  | cons c mark =>
    cases more with
    | nil => exact .inr rfl
    | cons d more =>
      obtain rfl : c = d := (List.cons.inj heq).1
      have hc := Reader.stops_cons.mp h.stops
      rw [hmore c (List.mem_cons_self ..)] at hc
      cases hc

/-- A literal begins with a sign, a digit or a point. -/
theorem Spells.exists_cons (h : Spells chars l) :
    ∃ c rest, chars = c :: rest ∧ (c.isDigit = true ∨ c ∈ ['+', '-', '.']) := by
  cases h with
  | @parts sign digits mark whole fraction negative exponent hsign hdigits hexponent =>
    cases hsign with
    | plus => exact ⟨'+', _, rfl, .inr (by decide)⟩
    | minus => exact ⟨'-', _, rfl, .inr (by decide)⟩
    | none =>
      cases hdigits with
      | fraction hne hfraction => exact ⟨'.', _, rfl, .inr (by decide)⟩
      | whole hne hwhole =>
        obtain ⟨c, rest, rfl⟩ := List.exists_cons_of_ne_nil hne
        exact ⟨c, _, rfl, .inl (hwhole c (List.mem_cons_self ..))⟩
      | pointed hne hwhole hfraction =>
        obtain ⟨c, rest, rfl⟩ := List.exists_cons_of_ne_nil hne
        exact ⟨c, _, rfl, .inl (hwhole c (List.mem_cons_self ..))⟩

/-! ### What the reader takes is a literal -/

theorem of_signReader_eq_some {sign? : Option Char} (h : signReader text = some (sign?, rest)) :
    ∃ sign, text = sign ++ rest ∧ ∃ negative, SpellsSign sign negative := by
  rw [signReader, Reader.optional_eq_some_iff] at h
  rcases h with ⟨c, hread, -⟩ | ⟨-, -, rfl⟩
  · obtain ⟨hc, rfl⟩ := Reader.oneOf_eq_some_iff.mp hread
    rcases List.mem_cons.mp hc with rfl | hc
    · exact ⟨['+'], rfl, false, .plus⟩
    · obtain rfl := List.mem_singleton.mp hc
      exact ⟨['-'], rfl, true, .minus⟩
  · exact ⟨[], rfl, false, .none⟩

theorem of_digitsReader_eq_some (h : digitsReader text = some (digits, rest)) :
    text = digits ++ rest ∧ ∃ whole fraction, SpellsDigits digits whole fraction := by
  rw [digitsReader, Reader.either_eq_some_iff] at h
  rcases h with h | ⟨-, h⟩
  · refine Reader.of_taken_eq_some (∃ whole fraction, SpellsDigits · whole fraction) ?_ h
    rintro ⟨whole, fraction?⟩ rest hread
    obtain ⟨middle, hwhole, hfraction⟩ := Reader.pair_eq_some_iff.mp hread
    obtain ⟨hne, rfl, hdigits, -⟩ := Reader.run1_eq_some_iff.mp hwhole
    rcases Reader.optional_eq_some_iff.mp hfraction with ⟨⟨point, fraction⟩, hread, -⟩ | ⟨-, -, rfl⟩
    · obtain ⟨after, hpoint, hrun⟩ := Reader.pair_eq_some_iff.mp hread
      obtain ⟨rfl, rfl⟩ := Reader.char_eq_some_iff.mp hpoint
      obtain ⟨rfl, hfraction, -⟩ := Reader.run_eq_some_iff.mp hrun
      exact ⟨whole ++ '.' :: fraction, by simp, whole, fraction, .pointed hne hdigits hfraction⟩
    · exact ⟨whole, rfl, whole, [], .whole hne hdigits⟩
  · refine Reader.of_taken_eq_some (∃ whole fraction, SpellsDigits · whole fraction) ?_ h
    rintro ⟨point, fraction⟩ rest hread
    obtain ⟨after, hpoint, hrun⟩ := Reader.pair_eq_some_iff.mp hread
    obtain ⟨rfl, rfl⟩ := Reader.char_eq_some_iff.mp hpoint
    obtain ⟨hne, rfl, hfraction, -⟩ := Reader.run1_eq_some_iff.mp hrun
    exact ⟨'.' :: fraction, rfl, [], fraction, .fraction hne hfraction⟩

theorem of_exponentReader_eq_some {read : Char × Option Char × List Char}
    (h : exponentReader text = some (read, rest)) :
    ∃ mark, text = mark ++ rest ∧ ∃ exponent, SpellsExponent mark exponent := by
  obtain ⟨mark, sign?, digits⟩ := read
  obtain ⟨afterMark, hmark, hread⟩ := Reader.pair_eq_some_iff.mp h
  obtain ⟨afterSign, hsign, hrun⟩ := Reader.pair_eq_some_iff.mp hread
  obtain ⟨hmem, rfl⟩ := Reader.oneOf_eq_some_iff.mp hmark
  obtain ⟨sign, rfl, negative, hspells⟩ := of_signReader_eq_some hsign
  obtain ⟨hne, rfl, hdigits, -⟩ := Reader.run1_eq_some_iff.mp hrun
  exact ⟨mark :: (sign ++ digits), by simp, _, .marked hmem hspells hne hdigits⟩

/-- An exponent that may be missing is read as one that may be left out. -/
theorem of_optional_exponentReader_eq_some {read? : Option (Char × Option Char × List Char)}
    (h : exponentReader.optional text = some (read?, rest)) :
    ∃ mark, text = mark ++ rest ∧ ∃ exponent, SpellsExponent mark exponent := by
  rcases Reader.optional_eq_some_iff.mp h with ⟨read, hread, -⟩ | ⟨-, -, rfl⟩
  · exact of_exponentReader_eq_some hread
  · exact ⟨[], rfl, 0, .none⟩

/-- What the reader takes is a literal. -/
theorem of_reader_eq_some (h : reader text = some (chars, rest)) :
    text = chars ++ rest ∧ ∃ l, Spells chars l := by
  refine Reader.of_taken_eq_some (∃ l, Spells · l) ?_ h
  rintro ⟨sign?, digits, exponent?⟩ rest hread
  obtain ⟨afterSign, hsign, hread⟩ := Reader.pair_eq_some_iff.mp hread
  obtain ⟨afterDigits, hdigits, hexponent⟩ := Reader.pair_eq_some_iff.mp hread
  obtain ⟨sign, rfl, negative, hsign'⟩ := of_signReader_eq_some hsign
  obtain ⟨rfl, whole, fraction, hdigits'⟩ := of_digitsReader_eq_some hdigits
  obtain ⟨mark, rfl, exponent, hexponent'⟩ := of_optional_exponentReader_eq_some hexponent
  exact ⟨sign ++ (digits ++ mark), by simp, _, .parts hsign' hdigits' hexponent'⟩

/-! ### The reader takes every literal -/

theorem SpellsSign.exists_signReader_append (h : SpellsSign sign negative) (htail : Unsigned tail) :
    ∃ sign?, signReader (sign ++ tail) = some (sign?, tail) := by
  cases h with
  | plus => exact ⟨some '+', rfl⟩
  | minus => exact ⟨some '-', rfl⟩
  | none =>
    refine ⟨Option.none, Reader.optional_eq_some_iff.mpr (.inr ⟨?_, rfl, rfl⟩)⟩
    rw [List.nil_append, Option.eq_none_iff_forall_ne_some]
    rintro ⟨c, rest⟩ hread
    obtain ⟨hc, rfl⟩ := Reader.oneOf_eq_some_iff.mp hread
    obtain ⟨hplus, hminus⟩ := htail c rfl
    simp [hplus, hminus] at hc

/-- A point and the digits after it are taken, if they are there. -/
theorem exists_optional_point (text : List Char) :
    ∃ read? more rest, text = more ++ rest ∧ (∀ c ∈ more, isPlace c = true) ∧
      ((Reader.char '.').pair (.run Char.isDigit)).optional text = some (read?, rest) := by
  cases hread : (Reader.char '.').pair (.run Char.isDigit) text with
  | none => exact ⟨none, [], text, rfl, by simp, by rw [Reader.optional, hread]⟩
  | some read =>
    obtain ⟨⟨point, fraction⟩, rest⟩ := read
    obtain ⟨after, hpoint, hrun⟩ := Reader.pair_eq_some_iff.mp hread
    obtain ⟨rfl, rfl⟩ := Reader.char_eq_some_iff.mp hpoint
    obtain ⟨rfl, hfraction, -⟩ := Reader.run_eq_some_iff.mp hrun
    refine ⟨some ('.', fraction), '.' :: fraction, rest, rfl, ?_, by rw [Reader.optional, hread]⟩
    intro c hc
    rcases List.mem_cons.mp hc with rfl | hc
    · rfl
    · exact isPlace_of_isDigit (hfraction c hc)

/-- Digits with their point are taken, and with them what continues them. -/
theorem SpellsDigits.exists_digitsReader_append (h : SpellsDigits digits whole fraction)
    (tail : List Char) :
    ∃ more rest, tail = more ++ rest ∧ (∀ c ∈ more, isPlace c = true) ∧
      digitsReader (digits ++ tail) = some (digits ++ more, rest) := by
  cases h with
  | whole hne hwhole =>
    obtain ⟨more, middle, rfl, hmore, hrun⟩ := Reader.exists_run1_append hne hwhole tail
    obtain ⟨read?, more', rest, rfl, hmore', hpoint⟩ := exists_optional_point middle
    refine ⟨more ++ more', rest, by simp, ?_, Reader.either_eq_some_iff.mpr (.inl ?_)⟩
    · intro c hc
      exact (List.mem_append.mp hc).elim (fun hc => isPlace_of_isDigit (hmore c hc)) (hmore' c)
    · rw [show digits ++ (more ++ (more' ++ rest)) = digits ++ (more ++ more') ++ rest by simp,
        Reader.taken_append_eq_some_iff]
      exact ⟨_, Reader.pair_eq_some_iff.mpr ⟨_, by simpa using hrun, hpoint⟩⟩
  | @pointed whole fraction hne hwhole hfraction =>
    obtain ⟨more, rest, rfl, hmore, hrun⟩ := Reader.exists_run_append hfraction tail
    refine ⟨more, rest, rfl, fun c hc => isPlace_of_isDigit (hmore c hc),
      Reader.either_eq_some_iff.mpr (.inl ?_)⟩
    have hwhole : Reader.run1 Char.isDigit (whole ++ ('.' :: (fraction ++ (more ++ rest)))) =
        some (whole, '.' :: (fraction ++ (more ++ rest))) :=
      Reader.run1_eq_some_iff.mpr ⟨hne, rfl, hwhole, Reader.stops_cons.mpr (by decide)⟩
    have hpoint : (Reader.char '.').pair (.run Char.isDigit) ('.' :: (fraction ++ (more ++ rest))) =
        some (('.', fraction ++ more), rest) :=
      Reader.pair_eq_some_iff.mpr ⟨_, rfl, hrun⟩
    rw [← List.append_assoc, Reader.taken_append_eq_some_iff]
    refine ⟨(whole, some ('.', fraction ++ more)), Reader.pair_eq_some_iff.mpr
      ⟨'.' :: (fraction ++ (more ++ rest)), ?_, ?_⟩⟩
    · simpa using hwhole
    · exact Reader.optional_eq_some_iff.mpr (.inl ⟨_, hpoint, rfl⟩)
  | fraction hne hfraction =>
    obtain ⟨more, rest, rfl, hmore, hrun⟩ := Reader.exists_run1_append hne hfraction tail
    refine ⟨more, rest, rfl, fun c hc => isPlace_of_isDigit (hmore c hc),
      Reader.either_eq_some_iff.mpr (.inr ?_)⟩
    rw [← List.append_assoc, Reader.taken_append_eq_some_iff]
    refine ⟨?_, ('.', fraction ++ more), Reader.pair_eq_some_iff.mpr ⟨_, rfl, ?_⟩⟩
    · rfl
    · simpa using hrun

/-- An exponent is taken, and with it what continues it. -/
theorem SpellsExponent.exists_exponentReader_append (h : SpellsExponent mark exponent)
    (tail : List Char) :
    ∃ read? more rest, tail = more ++ rest ∧
      exponentReader.optional (mark ++ tail) = some (read?, rest) := by
  cases h with
  | none =>
    cases hread : exponentReader tail with
    | none => exact ⟨Option.none, [], tail, rfl, by rw [List.nil_append, Reader.optional, hread]⟩
    | some read =>
      obtain ⟨read, rest⟩ := read
      obtain ⟨more, htail, -⟩ := of_exponentReader_eq_some hread
      exact ⟨some read, more, rest, htail, by rw [List.nil_append, Reader.optional, hread]⟩
  | @marked mark sign digits negative hmark hsign hne hdigits =>
    obtain ⟨more, rest, rfl, -, hrun⟩ := Reader.exists_run1_append hne hdigits tail
    obtain ⟨sign?, hread⟩ :=
      hsign.exists_signReader_append (hdigits.unsigned_append hne (more ++ rest))
    refine ⟨some (mark, sign?, digits ++ more), more, rest, rfl,
      Reader.optional_eq_some_iff.mpr (.inl ⟨_, Reader.pair_eq_some_iff.mpr ⟨_, ?_,
        Reader.pair_eq_some_iff.mpr ⟨_, hread, hrun⟩⟩, rfl⟩)⟩
    exact Reader.oneOf_eq_some_iff.mpr ⟨hmark, by simp⟩

/-- A literal at the beginning of a text is taken, and with it what continues it. -/
theorem Spells.exists_reader_append (h : Spells chars l) (tail : List Char) :
    ∃ more rest, tail = more ++ rest ∧ reader (chars ++ tail) = some (chars ++ more, rest) := by
  cases h with
  | @parts sign digits mark whole fraction negative exponent hsign hdigits hexponent =>
    obtain ⟨sign?, hsignRead⟩ :=
      hsign.exists_signReader_append (hdigits.unsigned_append (mark ++ tail))
    obtain ⟨more, middle, hmiddle, hmore, hdigitsRead⟩ :=
      hdigits.exists_digitsReader_append (mark ++ tail)
    -- either the exponent is left out, or the digits are taken up to its mark
    obtain ⟨read?, front, rest, htail, hread⟩ : ∃ read? front rest,
        mark ++ tail = mark ++ (front ++ rest) ∧
          exponentReader.optional middle = some (read?, rest) := by
      rcases hexponent.eq_nil_or hmore hmiddle with rfl | rfl
      · obtain ⟨read?, front, rest, rfl, hread⟩ :=
          SpellsExponent.none.exists_exponentReader_append middle
        exact ⟨read?, more ++ front, rest, by simpa using hmiddle, hread⟩
      · obtain ⟨read?, front, rest, rfl, hread⟩ := hexponent.exists_exponentReader_append tail
        rw [List.nil_append] at hmiddle
        exact ⟨read?, front, rest, rfl, hmiddle ▸ hread⟩
    obtain rfl := List.append_cancel_left htail
    refine ⟨front, rest, rfl, ?_⟩
    rw [← List.append_assoc, reader, Reader.taken_append_eq_some_iff]
    refine ⟨(sign?, digits ++ more, read?), Reader.pair_eq_some_iff.mpr ⟨_, ?_,
      Reader.pair_eq_some_iff.mpr ⟨middle, hdigitsRead, hread⟩⟩⟩
    simpa using hsignRead

/-! ### The longest literal -/

/-- **The reader takes the longest literal that a text begins with.** -/
theorem reader_eq_some_iff :
    reader text = some (chars, rest) ↔ text = chars ++ rest ∧ IsLongest chars text := by
  constructor
  · intro h
    obtain ⟨rfl, hchars⟩ := of_reader_eq_some h
    refine ⟨rfl, List.prefix_append chars rest, hchars, ?_⟩
    rintro other ⟨tail, htail⟩ ⟨l, hother⟩
    obtain ⟨more, rest', -, hread⟩ := hother.exists_reader_append tail
    rw [htail, h, Option.some.injEq, Prod.mk.injEq] at hread
    rw [hread.1, List.length_append]
    exact Nat.le_add_right ..
  · rintro ⟨rfl, hlongest⟩
    obtain ⟨l, hchars⟩ := hlongest.spelled
    obtain ⟨more, rest', rfl, hread⟩ := hchars.exists_reader_append rest
    obtain ⟨htext, hmore⟩ := of_reader_eq_some hread
    have hle := hlongest.longest (chars ++ more) ⟨rest', htext.symm⟩ hmore
    rw [List.length_append] at hle
    obtain rfl : more = [] := List.eq_nil_of_length_eq_zero (by omega)
    rw [hread, List.append_nil, List.nil_append]

/-- An exponent that is not complete is left where it is. -/
example : reader ['2', '.', 'e', '+'] = some (['2', '.'], ['e', '+']) := by decide

/-- It fails only where a text does not begin with a literal. -/
theorem reader_eq_none_iff :
    reader text = none ↔ ∀ chars, chars <+: text → ¬ ∃ l, Spells chars l := by
  constructor
  · rintro h chars ⟨tail, rfl⟩ ⟨l, hchars⟩
    obtain ⟨more, rest, -, hread⟩ := hchars.exists_reader_append tail
    rw [h] at hread
    cases hread
  · intro h
    rw [Option.eq_none_iff_forall_ne_some]
    rintro ⟨chars, rest⟩ hread
    obtain ⟨rfl, hchars⟩ := of_reader_eq_some hread
    exact h chars (List.prefix_append chars rest) hchars

/-! ### The parts of a literal -/

theorem SpellsSign.takeSign_append (h : SpellsSign sign negative) (htail : Unsigned tail) :
    takeSign (sign ++ tail) = (negative, tail) := by
  cases h with
  | plus => rfl
  | minus => rfl
  | none =>
    rw [List.nil_append, takeSign]
    · rintro rest rfl
      exact (htail '-' rfl).2 rfl
    · rintro rest rfl
      exact (htail '+' rfl).1 rfl

/-- Digits are taken up to the first character that is none. -/
theorem AllDigits.takeDigits_append (h : AllDigits digits)
    (hrest : Reader.Stops Char.isDigit rest) : takeDigits (digits ++ rest) = (digits, rest) :=
  Option.some.inj (Reader.run_eq_some_iff.mpr ⟨rfl, h, hrest⟩)

theorem takeFraction_of_stops (h : Reader.Stops isPlace rest) : takeFraction rest = ([], rest) := by
  rw [takeFraction]
  rintro rest rfl
  exact absurd (Reader.stops_cons.mp h) (by decide)

/-- Digits with a point are taken up to the first character that is neither. -/
theorem SpellsDigits.exists_takeDigits_append (h : SpellsDigits digits whole fraction)
    (hrest : Reader.Stops isPlace rest) :
    ∃ after, takeDigits (digits ++ rest) = (whole, after) ∧
      takeFraction after = (fraction, rest) := by
  have hdigit : Reader.Stops Char.isDigit rest := fun c hc => by
    have hplace := hrest c hc
    rw [isPlace, Bool.or_eq_false_iff] at hplace
    exact hplace.1
  have hpoint : ∀ after, Reader.Stops Char.isDigit ('.' :: after) := fun after =>
    Reader.stops_cons.mpr (by decide)
  cases h with
  | whole hne hwhole =>
    exact ⟨rest, hwhole.takeDigits_append hdigit, takeFraction_of_stops hrest⟩
  | pointed hne hwhole hfraction =>
    refine ⟨'.' :: (fraction ++ rest), ?_, hfraction.takeDigits_append hdigit⟩
    rw [List.append_assoc]
    exact hwhole.takeDigits_append (hpoint _)
  | fraction hne hfraction =>
    have hnil : AllDigits [] := by
      rintro c ⟨⟩
    exact ⟨'.' :: (fraction ++ rest), hnil.takeDigits_append (hpoint _),
      hfraction.takeDigits_append hdigit⟩

theorem SpellsDigits.ne_nil (h : SpellsDigits digits whole fraction) :
    whole ≠ [] ∨ fraction ≠ [] := by
  cases h with
  | whole hne _ => exact .inl hne
  | pointed hne _ _ => exact .inl hne
  | fraction hne _ => exact .inr hne

theorem SpellsExponent.takeExponent_eq (h : SpellsExponent mark exponent) :
    takeExponent mark = (exponent, []) := by
  cases h with
  | none => rfl
  | @marked mark sign digits negative hmark hsign hne hdigits =>
    have hsign' := hsign.takeSign_append (hdigits.unsigned_append hne [])
    have hdigits' := hdigits.takeDigits_append Reader.stops_nil
    rw [List.append_nil] at hsign' hdigits'
    have hmark' : mark = 'e' ∨ mark = 'E' := by simpa using hmark
    simp only [takeExponent, hsign', hdigits', hmark', hne, ne_eq, not_false_eq_true, and_self,
      if_true]

/-- **The parts of a literal are found.** -/
theorem Spells.ofChars?_eq (h : Spells chars l) : ofChars? chars = some l := by
  cases h with
  | @parts sign digits mark whole fraction negative exponent hsign hdigits hexponent =>
    obtain ⟨after, hwhole, hfraction⟩ := hdigits.exists_takeDigits_append hexponent.stops
    simp only [ofChars?, hsign.takeSign_append (hdigits.unsigned_append mark), hwhole, hfraction,
      hexponent.takeExponent_eq, hdigits.ne_nil, and_self, if_true]

end Literal

end Worksheet
