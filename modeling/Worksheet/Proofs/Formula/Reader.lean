import Worksheet.Formula.Reader
import Worksheet.Proofs.Region.Reference
import Worksheet.Proofs.Text.Reader

/-!
# The grammar of formulas

A text is read as a formula in three stages, and each of them can fail with an error of its own. The
text is split into a name and an argument list, the argument list into references, and the
references are looked up as corners. Here every stage has a description of what it accepts that
mentions no reader: `Formula.Splits`, `Formula.Lists` and `Formula.Corners.Reading`. Put together
they say what a text says (`Formula.Says`), and this is what it is read as, whatever the text is.

Gaps are the one difficulty. An argument list has two of them before each reference and after it,
one that belongs to the reference and one that belongs to the sign beside it. As the readers are
greedy, one of the two is always empty. The description has a single gap at each place, of any
length, and joins the two.

## Main definitions

* `Formula.Lists` — the argument lists, with the references in them
* `Formula.Corners.Reading` — what the corners answer
* `Formula.Splits`, `Formula.Says` — what a text says, with the error if it is no formula

## Main results

* `Formula.arguments_eq_some_iff` — the reader of argument lists reads those of the description
* `Formula.readBody_eq_iff` — a text is read as what it says
* `Formula.ofText_eq_iff` — every text is read as one formula
-/

namespace Worksheet

namespace Formula

open Reader

variable {α : Type} {text rest ref : List Char} {corners : Corners}

/-! ### Argument lists -/

/-- Letters and then digits, at least one of each. Whether there is such a cell is another
question. -/
def IsReference (ref : List Char) : Prop :=
  ∃ letters digits, ref = letters ++ digits ∧ Coord.IsSplit letters digits

/-- Characters that may stand around a reference, in any number. -/
def IsGap (chars : List Char) : Prop := ∀ c ∈ chars, isGap c = true

/-- The argument lists, with the references that stand in them. -/
inductive Lists : List Char → Corners → Prop
  | one {g₁ ref g₂ g₃ : List Char} (h₁ : IsGap g₁) (href : IsReference ref) (h₂ : IsGap g₂)
      (h₃ : IsGap g₃) : Lists ('(' :: (g₁ ++ (ref ++ (g₂ ++ ')' :: g₃)))) ⟨ref, none⟩
  | two {g₁ first g₂ g₃ second g₄ g₅ : List Char} (h₁ : IsGap g₁) (hfirst : IsReference first)
      (h₂ : IsGap g₂) (h₃ : IsGap g₃) (hsecond : IsReference second) (h₄ : IsGap g₄)
      (h₅ : IsGap g₅) :
      Lists ('(' :: (g₁ ++ (first ++ (g₂ ++ ':' :: (g₃ ++ (second ++ (g₄ ++ ')' :: g₅)))))))
        ⟨first, some second⟩

theorem isGap_nil : IsGap [] := by
  rintro c ⟨⟩

theorem IsGap.append {g h : List Char} (hg : IsGap g) (hh : IsGap h) : IsGap (g ++ h) := by
  intro c hc
  rcases List.mem_append.mp hc with hc | hc
  · exact hg c hc
  · exact hh c hc

/-- A gap is no part of a reference. -/
theorem not_isGap_of_isAlpha {c : Char} (h : c.isAlpha = true) : isGap c = false :=
  ColumnLabel.forall_isAlpha (P := fun c => isGap c = false) (by decide) (by decide) h

theorem isDigit_of_isGap {c : Char} (h : isGap c = true) : c.isDigit = false := by
  simp only [isGap, Bool.or_eq_true, beq_iff_eq] at h
  rcases h with ((rfl | rfl) | rfl) | rfl <;> rfl

theorem gap_eq_some_iff {g : List Char} :
    gap text = some (g, rest) ↔ text = g ++ rest ∧ IsGap g ∧ Stops isGap rest := run_eq_some_iff

theorem reference_eq_some_iff :
    reference text = some (ref, rest) ↔
      IsReference ref ∧ text = ref ++ rest ∧ Stops Char.isDigit rest := by
  -- what both runs take is the two of them together
  have hpair : ∀ letters digits rest',
      pair (.run1 Char.isAlpha) (.run1 Char.isDigit) text = some ((letters, digits), rest') ↔
        Coord.IsSplit letters digits ∧ text = (letters ++ digits) ++ rest' ∧
          Stops Char.isDigit rest' := by
    intro letters digits rest'
    simp only [pair_eq_some_iff, run1_eq_some_iff]
    constructor
    · rintro ⟨middle, ⟨hletters, rfl, halpha, -⟩, hdigits, rfl, hdigit, hrest⟩
      exact ⟨⟨hletters, halpha, hdigits, hdigit⟩, (List.append_assoc ..).symm, hrest⟩
    · rintro ⟨h, rfl, hrest⟩
      refine ⟨digits ++ rest', ⟨h.letters_ne_nil, List.append_assoc .., h.isAlpha, ?_⟩,
        h.digits_ne_nil, rfl, h.isDigit, hrest⟩
      exact stops_append h.digits_ne_nil fun c hc => Text.isAlpha_of_isDigit (h.isDigit c hc)
  rw [reference, taken_eq_some_iff fun a rest' h => ⟨_, ((hpair a.1 a.2 rest').mp h).2.1⟩]
  simp only [Prod.exists, hpair]
  constructor
  · rintro ⟨rfl, letters, digits, hsplit, htext, hrest⟩
    exact ⟨⟨letters, digits, List.append_cancel_right htext, hsplit⟩, rfl, hrest⟩
  · rintro ⟨⟨letters, digits, rfl, hsplit⟩, rfl, hrest⟩
    exact ⟨rfl, letters, digits, hsplit, rfl, hrest⟩

theorem spaced_eq_some_iff {reader : Reader α} {a : α} :
    spaced reader text = some (a, rest) ↔
      ∃ before middle after, text = before ++ middle ∧ IsGap before ∧ Stops isGap middle ∧
        reader middle = some (a, after ++ rest) ∧ IsGap after ∧ Stops isGap rest := by
  rw [spaced, between_eq_some_iff]
  simp only [gap_eq_some_iff]
  constructor
  · rintro ⟨before, middle, last, after, ⟨htext, hbefore, hstop⟩, hread, rfl, hafter, hrest⟩
    exact ⟨before, middle, after, htext, hbefore, hstop, hread, hafter, hrest⟩
  · rintro ⟨before, middle, after, htext, hbefore, hstop, hread, hafter, hrest⟩
    exact ⟨before, middle, after ++ rest, after, ⟨htext, hbefore, hstop⟩, hread, rfl, hafter, hrest⟩

theorem spaced_char_eq_some_iff {c d : Char} (hc : isGap c = false) :
    spaced (.char c) text = some (d, rest) ↔
      d = c ∧ ∃ before after, text = before ++ c :: (after ++ rest) ∧ IsGap before ∧ IsGap after ∧
        Stops isGap rest := by
  simp only [spaced_eq_some_iff, char_eq_some_iff]
  constructor
  · rintro ⟨before, _, after, rfl, hbefore, -, ⟨rfl, rfl⟩, hafter, hrest⟩
    exact ⟨rfl, before, after, rfl, hbefore, hafter, hrest⟩
  · rintro ⟨rfl, before, after, rfl, hbefore, hafter, hrest⟩
    exact ⟨before, _, after, rfl, hbefore, stops_cons.mpr hc, ⟨rfl, rfl⟩, hafter, hrest⟩

theorem IsReference.stops (h : IsReference ref) : Stops isGap (ref ++ rest) := by
  obtain ⟨letters, digits, rfl, h⟩ := h
  rw [List.append_assoc]
  exact stops_append h.letters_ne_nil fun c hc => not_isGap_of_isAlpha (h.isAlpha c hc)

theorem spaced_reference_eq_some_iff :
    spaced reference text = some (ref, rest) ↔
      IsReference ref ∧ ∃ before after, text = before ++ (ref ++ (after ++ rest)) ∧ IsGap before ∧
        IsGap after ∧ Stops isGap rest ∧ Stops Char.isDigit (after ++ rest) := by
  simp only [spaced_eq_some_iff, reference_eq_some_iff]
  constructor
  · rintro ⟨before, _, after, rfl, hbefore, -, ⟨href, rfl, hdigit⟩, hafter, hrest⟩
    exact ⟨href, before, after, rfl, hbefore, hafter, hrest, hdigit⟩
  · rintro ⟨href, before, after, rfl, hbefore, hafter, hrest, hdigit⟩
    exact ⟨before, _, after, rfl, hbefore, href.stops, ⟨href, rfl, hdigit⟩, hafter, hrest⟩

/-- A reference is read up to the end of the gap after it. -/
theorem spaced_reference_append {before after : List Char} (c : Char) (rest : List Char)
    (hbefore : IsGap before) (href : IsReference ref) (hafter : IsGap after)
    (hgap : isGap c = false) (hdigit : c.isDigit = false) :
    spaced reference (before ++ (ref ++ (after ++ c :: rest))) = some (ref, c :: rest) := by
  refine spaced_reference_eq_some_iff.mpr
    ⟨href, before, after, rfl, hbefore, hafter, stops_cons.mpr hgap, ?_⟩
  cases after with
  | nil => exact stops_cons.mpr hdigit
  | cons a after => exact stops_cons.mpr (isDigit_of_isGap (hafter a (List.mem_cons_self ..)))

theorem spaced_char_append {before after : List Char} {c : Char} (hc : isGap c = false)
    (hbefore : IsGap before) (hafter : IsGap after) (hrest : Stops isGap rest) :
    spaced (.char c) (before ++ c :: (after ++ rest)) = some (c, rest) :=
  (spaced_char_eq_some_iff hc).mpr ⟨rfl, before, after, rfl, hbefore, hafter, hrest⟩

/-- No gap stands before a parenthesis at the beginning of a text. -/
theorem spaced_open_eq_some_iff {inside : List Char} {d : Char} :
    spaced (.char '(') ('(' :: inside) = some (d, rest) ↔
      d = '(' ∧ ∃ after, inside = after ++ rest ∧ IsGap after ∧ Stops isGap rest := by
  rw [spaced_char_eq_some_iff rfl]
  constructor
  · rintro ⟨rfl, before, after, htext, hbefore, hafter, hrest⟩
    cases before with
    | nil => exact ⟨rfl, after, (List.cons.inj htext).2, hafter, hrest⟩
    | cons c before =>
      have hc := hbefore c (List.mem_cons_self ..)
      rw [← (List.cons.inj htext).1] at hc
      cases hc
  · rintro ⟨rfl, after, rfl, hafter, hrest⟩
    exact ⟨rfl, [], after, rfl, isGap_nil, hafter, hrest⟩

/-- The reader of argument lists reads the argument lists. -/
theorem arguments_eq_some_iff {inside : List Char} :
    arguments ('(' :: inside) = some (corners, []) ↔ Lists ('(' :: inside) corners := by
  constructor
  · intro h
    simp only [arguments, map_eq_some_iff, Prod.exists, between_eq_some_iff, pair_eq_some_iff,
      optional_eq_some_iff, preceded_eq_some_iff, char_eq_some_iff, spaced_open_eq_some_iff,
      spaced_char_eq_some_iff (c := ')') rfl, spaced_reference_eq_some_iff] at h
    obtain ⟨first, second?, ⟨-, -, last, -, ⟨-, g₀, rfl, hg₀, -⟩,
      ⟨_, ⟨hfirst, g₁, g₂, rfl, hg₁, hg₂, -⟩, hsecond⟩, -, g₄, g₅, hlast, hg₄, hg₅, -⟩, rfl⟩ := h
    -- the gaps before and after the first reference meet those of the parentheses
    rw [List.append_nil] at hlast
    subst hlast
    rw [← List.append_assoc]
    rcases hsecond with ⟨second, ⟨_, _, ⟨-, rfl⟩, hsecond, g₃, g, rfl, hg₃, hg, -⟩, rfl⟩ |
      ⟨-, rfl, rfl⟩
    · rw [← List.append_assoc g]
      exact .two (hg₀.append hg₁) hfirst hg₂ hg₃ hsecond (hg.append hg₄) hg₅
    · rw [← List.append_assoc g₂]
      exact .one (hg₀.append hg₁) hfirst (hg₂.append hg₄) hg₅
  · have hclose : ∀ {g : List Char}, IsGap g → spaced (.char ')') (')' :: g) = some (')', []) := by
      intro g hg
      have hread := spaced_char_append (c := ')') rfl isGap_nil hg stops_nil
      rwa [List.append_nil] at hread
    intro h
    rw [arguments, map_eq_some_iff]
    cases h with
    | @one g₁ ref g₂ g₃ h₁ href h₂ h₃ =>
      have hread := spaced_reference_append ')' g₃ isGap_nil href h₂ rfl rfl
      exact ⟨(_, none), between_eq_some_iff.mpr ⟨'(', _, _, ')',
        spaced_open_eq_some_iff.mpr ⟨rfl, g₁, rfl, h₁, href.stops⟩,
        pair_eq_some_iff.mpr ⟨_, hread, rfl⟩, hclose h₃⟩, rfl⟩
    | @two g₁ first g₂ g₃ second g₄ g₅ h₁ hfirst h₂ h₃ hsecond h₄ h₅ =>
      let tail := g₃ ++ (second ++ (g₄ ++ ')' :: g₅))
      have hread := spaced_reference_append ':' tail isGap_nil hfirst h₂ rfl rfl
      have htail := spaced_reference_append ')' g₅ h₃ hsecond h₄ rfl rfl
      have hafter : (Reader.char ':').preceded (spaced reference) (':' :: tail) =
          some (second, ')' :: g₅) :=
        preceded_eq_some_iff.mpr ⟨':', tail, char_eq_some_iff.mpr ⟨rfl, rfl⟩, htail⟩
      exact ⟨(_, some _), between_eq_some_iff.mpr ⟨'(', _, _, ')',
        spaced_open_eq_some_iff.mpr ⟨rfl, g₁, rfl, h₁, hfirst.stops⟩,
        pair_eq_some_iff.mpr ⟨_, hread, optional_eq_some_iff.mpr (.inl ⟨_, hafter, rfl⟩)⟩,
        hclose h₅⟩, rfl⟩

/-- The end of a text from its first parenthesis on is read by the references it lists. -/
theorem readCorners?_eq_some_iff {args : List Char} (hargs : Stops (· ≠ '(') args) :
    readCorners? args = some corners ↔ Lists args corners := by
  rw [readCorners?, whole?_eq_some_iff]
  cases args with
  | nil =>
    constructor
    · intro h
      cases h
    · rintro ⟨⟩
  | cons c inside =>
    have hc : c = '(' := by simpa using stops_cons.mp hargs
    rw [hc]
    exact arguments_eq_some_iff

/-! ### Corners -/

/-- What the corners of an argument list answer: the region between them, or an error with the
first corner that is no cell. -/
inductive Corners.Reading : Corners → Except CellError Region → Prop
  | single (first : List Char) (a : Coord) (ha : Coord.Denotes first a) :
      Reading ⟨first, none⟩ (.ok (.single a))
  | spanning (first second : List Char) (a b : Coord) (ha : Coord.Denotes first a)
      (hb : Coord.Denotes second b) : Reading ⟨first, some second⟩ (.ok (.spanning a b))
  | noFirst (corners : Corners) (ha : ∀ a, ¬ Coord.Denotes corners.first a) :
      Reading corners (.error (.invalidReference (String.ofList corners.first)))
  | noSecond (first second : List Char) (a : Coord) (ha : Coord.Denotes first a)
      (hb : ∀ b, ¬ Coord.Denotes second b) :
      Reading ⟨first, some second⟩ (.error (.invalidReference (String.ofList second)))

theorem Corners.region_eq_iff {answer : Except CellError Region} :
    corners.region = answer ↔ corners.Reading answer := by
  obtain ⟨first, second?⟩ := corners
  constructor
  · rintro rfl
    rw [region]
    cases ha : Coord.ofReference (String.ofList first) with
    | error error =>
      obtain ⟨hnone, rfl⟩ := Coord.ofReference_ofList_eq_error_iff.mp ha
      exact .noFirst _ hnone
    | ok a =>
      have ha := Coord.ofReference_ofList_eq_ok_iff.mp ha
      cases second? with
      | none =>
        have hsingle := Reading.single first a ha
        rwa [← Region.spanning_self] at hsingle
      | some second =>
        cases hb : Coord.ofReference (String.ofList second) with
        | error error =>
          obtain ⟨hnone, rfl⟩ := Coord.ofReference_ofList_eq_error_iff.mp hb
          simp only [hb]
          exact .noSecond first second a ha hnone
        | ok b =>
          simp only [hb]
          exact .spanning first second a b ha (Coord.ofReference_ofList_eq_ok_iff.mp hb)
  · intro h
    cases h with
    | single _ a ha =>
      rw [region, Coord.ofReference_ofList_eq_ok_iff.mpr ha, ← Region.spanning_self a]
      rfl
    | spanning _ second a b ha hb =>
      rw [region, Coord.ofReference_ofList_eq_ok_iff.mpr ha]
      simp only [Coord.ofReference_ofList_eq_ok_iff.mpr hb]
      rfl
    | noFirst _ ha =>
      rw [region, Coord.ofReference_ofList_eq_error_iff.mpr ⟨ha, rfl⟩]
      rfl
    | noSecond _ second a ha hb =>
      rw [region, Coord.ofReference_ofList_eq_ok_iff.mpr ha]
      simp only [Coord.ofReference_ofList_eq_error_iff.mpr ⟨hb, rfl⟩]
      rfl

/-! ### Formulas -/

/-- The text is a name and what follows it from the first parenthesis on. -/
structure Splits (text : List Char) (name : String) (args : List Char) : Prop where
  text_eq : text = name.toList ++ args
  notMem : '(' ∉ name.toList
  /-- What follows the name is empty if there is no parenthesis. -/
  args_eq : args = [] ∨ ∃ inside, args = '(' :: inside

/-- What a text says, given without the mark of formulas. -/
inductive Says (text : List Char) : Body → Prop
  | unknown (name : String) (args : List Char) (h : Splits text name args)
      (hname : ∀ f : Aggregate, f.name ≠ name) : Says text (.invalid (.unknownFunction name))
  | malformed (f : Aggregate) (args : List Char) (h : Splits text f.name args)
      (hargs : ∀ corners, ¬ Lists args corners) :
      Says text (.invalid (.invalidReference (String.ofList (Text.trimChars args))))
  | noCell (f : Aggregate) (args : List Char) (h : Splits text f.name args) (corners : Corners)
      (hargs : Lists args corners) (error : CellError) (hcorner : corners.Reading (.error error)) :
      Says text (.invalid error)
  | call (f : Aggregate) (args : List Char) (h : Splits text f.name args) (corners : Corners)
      (hargs : Lists args corners) (r : Region) (hcorners : corners.Reading (.ok r)) :
      Says text (.call f r)

theorem Splits.stops {name : String} {args : List Char} (h : Splits text name args) :
    Stops (· ≠ '(') args := by
  obtain hnil | ⟨inside, hcons⟩ := h.args_eq
  · rw [hnil]
    exact stops_nil
  · rw [hcons]
    exact stops_cons.mpr (by decide)

theorem splits_iff {name : String} {args : List Char} :
    Splits text name args ↔
      text.takeWhile (· ≠ '(') = name.toList ∧ text.dropWhile (· ≠ '(') = args := by
  have hrun : (text.takeWhile (· ≠ '(') = name.toList ∧ text.dropWhile (· ≠ '(') = args) ↔
      Reader.run (· ≠ '(') text = some (name.toList, args) := by
    simp [run]
  rw [hrun, run_eq_some_iff]
  constructor
  · intro h
    refine ⟨h.text_eq, fun c hc => decide_eq_true fun heq => h.notMem ?_, h.stops⟩
    rwa [← heq]
  · rintro ⟨htext, hname, hargs⟩
    refine ⟨htext, fun hmem => by simpa using hname _ hmem, ?_⟩
    cases args with
    | nil => exact .inl rfl
    | cons c inside =>
      have hc : c = '(' := by simpa using stops_cons.mp hargs
      exact .inr ⟨inside, by rw [hc]⟩

theorem exists_splits (text : List Char) : ∃ name args, Splits text name args :=
  ⟨String.ofList (text.takeWhile (· ≠ '(')), text.dropWhile (· ≠ '('),
    splits_iff.mpr ⟨String.toList_ofList.symm, rfl⟩⟩

theorem readBody_of_unknown {name : String} {args : List Char} (h : Splits text name args)
    (hname : ∀ f : Aggregate, f.name ≠ name) :
    readBody text = .invalid (.unknownFunction name) := by
  have hnone : Aggregate.ofName? name = none := by
    rw [Option.eq_none_iff_forall_ne_some]
    intro f hf
    exact hname f (Aggregate.ofName?_eq_some_iff.mp hf).symm
  rw [readBody, (splits_iff.mp h).1, String.ofList_toList, hnone]

/-- A text that names a function says what its arguments say. -/
theorem readBody_of_splits {f : Aggregate} {args : List Char} (h : Splits text f.name args) :
    (∀ r, readRegion args = .ok r → readBody text = .call f r) ∧
      ∀ error, readRegion args = .error error → readBody text = .invalid error := by
  obtain ⟨hname, hargs⟩ := splits_iff.mp h
  have hf : Aggregate.ofName? (String.ofList (text.takeWhile (· ≠ '('))) = some f := by
    rw [hname, String.ofList_toList, Aggregate.ofName?_eq_some_iff]
  constructor
  · intro r hr
    simp only [readBody, hf, hargs, hr]
  · intro error herror
    simp only [readBody, hf, hargs, herror]

theorem readRegion_of_lists {args : List Char} (h : Lists args corners) :
    readRegion args = corners.region := by
  have hargs : Stops (· ≠ '(') args := by
    cases h <;> exact stops_cons.mpr (by decide)
  rw [readRegion, (readCorners?_eq_some_iff hargs).mpr h]

theorem readRegion_of_not_lists {args : List Char} (hargs : Stops (· ≠ '(') args)
    (h : ∀ corners, ¬ Lists args corners) :
    readRegion args = .error (.invalidReference (String.ofList (Text.trimChars args))) := by
  have hnone : readCorners? args = none := by
    rw [Option.eq_none_iff_forall_ne_some]
    exact fun corners hcorners => h corners ((readCorners?_eq_some_iff hargs).mp hcorners)
  rw [readRegion, hnone]

/-- **A text is read as what it says**: its name, then its argument list, then the corners. -/
theorem readBody_eq_iff {body : Body} : readBody text = body ↔ Says text body := by
  constructor
  · rintro rfl
    obtain ⟨name, args, h⟩ := exists_splits text
    by_cases hname : ∀ f : Aggregate, f.name ≠ name
    · rw [readBody_of_unknown h hname]
      exact .unknown name args h hname
    obtain ⟨f, rfl⟩ : ∃ f : Aggregate, f.name = name := by simpa using hname
    by_cases hargs : ∀ corners, ¬ Lists args corners
    · rw [(readBody_of_splits h).2 _ (readRegion_of_not_lists h.stops hargs)]
      exact .malformed f args h hargs
    obtain ⟨corners, hargs⟩ : ∃ corners, Lists args corners := by simpa using hargs
    cases hregion : corners.region with
    | ok r =>
      rw [(readBody_of_splits h).1 r ((readRegion_of_lists hargs).trans hregion)]
      exact .call f args h corners hargs r (Corners.region_eq_iff.mp hregion)
    | error error =>
      rw [(readBody_of_splits h).2 error ((readRegion_of_lists hargs).trans hregion)]
      exact .noCell f args h corners hargs error (Corners.region_eq_iff.mp hregion)
  · intro h
    cases h with
    | unknown name args h hname => exact readBody_of_unknown h hname
    | malformed f args h hargs =>
      exact (readBody_of_splits h).2 _ (readRegion_of_not_lists h.stops hargs)
    | noCell f args h corners hargs error hcorner =>
      refine (readBody_of_splits h).2 error ?_
      rw [readRegion_of_lists hargs, Corners.region_eq_iff.mpr hcorner]
    | call f args h corners hargs r hcorners =>
      refine (readBody_of_splits h).1 r ?_
      rw [readRegion_of_lists hargs, Corners.region_eq_iff.mpr hcorners]

/-- One mark is taken off, and only from the beginning. -/
theorem dropMark_eq_iff {body : List Char} :
    dropMark text = body ↔ text = '=' :: body ∨ text = body ∧ body.head? ≠ some '=' := by
  rw [dropMark.eq_def]
  split
  · rename_i rest
    constructor
    · rintro rfl
      exact .inl rfl
    · rintro (h | ⟨rfl, hhead⟩)
      · exact (List.cons.inj h).2
      · exact absurd rfl hhead
  · rename_i hmark
    constructor
    · rintro rfl
      refine .inr ⟨rfl, fun hhead => ?_⟩
      obtain ⟨rest, hrest⟩ := List.head?_eq_some_iff.mp hhead
      exact hmark rest hrest
    · rintro (h | ⟨h, -⟩)
      · exact absurd h (hmark body)
      · exact h

/-- A text that says no call stands for the sum of the first cell. -/
theorem Says.error?_eq_none_or {body : Body} (h : Says text body) :
    body.error? = none ∨ body.function = .sum ∧ body.region = .single .origin := by
  cases h with
  | unknown | malformed | noCell => exact .inr ⟨rfl, rfl⟩
  | call => exact .inl rfl

/-- **Every text is read as one formula.** It keeps the text, and it is what the text says without
its mark; in error it stands for the sum of the first cell. -/
theorem ofText_eq_iff (text : String) :
    (∀ f : Formula, ofText text = f ↔
      f.source = text ∧
        ∃ body, (text.toList = '=' :: body ∨ text.toList = body ∧ body.head? ≠ some '=') ∧
          Says body f.body) ∧
      ((ofText text).error? = none ∨
        (ofText text).function = .sum ∧ (ofText text).region = .single .origin) := by
  refine ⟨fun f => ?_, (readBody_eq_iff.mp rfl).error?_eq_none_or⟩
  obtain ⟨source, said⟩ := f
  simp only [ofText, Formula.mk.injEq, ← dropMark_eq_iff, exists_eq_left', readBody_eq_iff]
  exact and_congr_left' eq_comm

end Formula

end Worksheet
