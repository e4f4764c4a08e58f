import Worksheet.Proofs.Formula.Reader

/-!
# Calls of a function on a region

There are two ways to read a reference to a region. `Region.ofReference` cuts a text at its first
colon and trims the two parts. A formula goes through its argument list from the left, with the
references, the colon and the gaps between them as they come. Neither looks at the other, and the
text of a call can hold anything between its parentheses, further parentheses and colons included.

Still they agree. The argument of a call is read as the region that it refers to, and the only texts
for which this fails are those with a blank that is no gap (`Formula.ofText_callWith_iff`): around a
reference in a formula stand spaces, tabs and line ends, and around any other all blanks.

A call that is written for a region has no blanks at all. So it is read back exactly when the
reference to the region is.

## Main definitions

* `Formula.callWith` — the text of a call with any argument
* `Formula.callText` — the text of the call on a region
* `Formula.Names` — the texts that may stand between the parentheses
* `Formula.Gapped` — a text with no other blanks than gaps

## Main results

* `Formula.lists_enclosed_iff` — what is listed between two parentheses
* `Formula.exists_names_iff` — the references named there are read as the region referred to
* `Formula.ofText_callWith_iff` — a call is read on the region that its argument refers to
* `Formula.ofText_callText_iff`, `Formula.ofText_callText_of_ofText` — a call that is written is
  read back if the reference to its region is, and so if it was read
-/

namespace Worksheet

namespace Formula

open Reader

variable {text ref : List Char} {corners : Corners} {r : Region}

/-! ### Between the parentheses -/

/-- The text is a reference with gaps around it. -/
def Pads (text ref : List Char) : Prop :=
  ∃ before after, text = before ++ (ref ++ after) ∧ IsGap before ∧ IsReference ref ∧ IsGap after

/-- The texts that may stand between the parentheses of a call, with the references in them. -/
inductive Names : List Char → Corners → Prop
  | one {text ref : List Char} (h : Pads text ref) : Names text ⟨ref, none⟩
  | two {left first right second : List Char} (hleft : Pads left first)
      (hright : Pads right second) : Names (left ++ ':' :: right) ⟨first, some second⟩

/-- A text that ends with a parenthesis has no gap after it. -/
theorem eq_of_append_close {inside before after : List Char} (hafter : IsGap after)
    (h : inside ++ [')'] = before ++ ')' :: after) : inside = before := by
  rcases List.eq_nil_or_concat after with rfl | ⟨front, last, rfl⟩
  · exact List.append_cancel_right h
  · rw [List.concat_eq_append, ← List.cons_append, ← List.append_assoc] at h
    have hlast : [')'] = [last] := (List.append_inj' h rfl).2
    have hgap := hafter last (by simp)
    rw [← List.head_eq_of_cons_eq hlast] at hgap
    cases hgap

/-- An argument list that a parenthesis opens and another one closes lists what is named between
them. -/
theorem lists_enclosed_iff {inside : List Char} :
    Lists ('(' :: (inside ++ [')'])) corners ↔ Names inside corners := by
  constructor
  · intro h
    generalize hargs : '(' :: (inside ++ [')']) = args at h
    cases h with
    | @one g₁ ref g₂ g₃ h₁ href h₂ h₃ =>
      have hinside : inside ++ [')'] = (g₁ ++ (ref ++ g₂)) ++ ')' :: g₃ := by
        rw [(List.cons.inj hargs).2, List.append_assoc, List.append_assoc]
      rw [eq_of_append_close h₃ hinside]
      exact .one ⟨g₁, g₂, rfl, h₁, href, h₂⟩
    | @two g₁ first g₂ g₃ second g₄ g₅ h₁ hfirst h₂ h₃ hsecond h₄ h₅ =>
      have hinside : inside ++ [')'] =
          ((g₁ ++ (first ++ g₂)) ++ ':' :: (g₃ ++ (second ++ g₄))) ++ ')' :: g₅ := by
        simp only [(List.cons.inj hargs).2, List.append_assoc, List.cons_append]
      rw [eq_of_append_close h₅ hinside]
      exact .two ⟨g₁, g₂, rfl, h₁, hfirst, h₂⟩ ⟨g₃, g₄, rfl, h₃, hsecond, h₄⟩
  · intro h
    cases h with
    | one h =>
      obtain ⟨before, after, rfl, hbefore, href, hafter⟩ := h
      rw [List.append_assoc, List.append_assoc]
      exact .one hbefore href hafter isGap_nil
    | two hleft hright =>
      obtain ⟨g₁, g₂, rfl, h₁, hfirst, h₂⟩ := hleft
      obtain ⟨g₃, g₄, rfl, h₃, hsecond, h₄⟩ := hright
      simp only [List.append_assoc, List.cons_append]
      exact .two h₁ hfirst h₂ h₃ hsecond h₄ isGap_nil

/-! ### What is named is what is referred to -/

/-- The only blanks in the text are those that may stand in a formula. -/
def Gapped (text : List Char) : Prop := ∀ a ∈ text, Text.isBlank a = true → isGap a = true

theorem isBlank_of_isGap {a : Char} (h : isGap a = true) : Text.isBlank a = true := by
  simp only [isGap, Bool.or_eq_true, beq_iff_eq] at h
  rcases h with ((rfl | rfl) | rfl) | rfl <;> rfl

theorem gapped_append {before after : List Char} :
    Gapped (before ++ after) ↔ Gapped before ∧ Gapped after := List.forall_mem_append

theorem gapped_of_not_isBlank (h : ∀ a ∈ text, Text.isBlank a = false) : Gapped text := by
  intro a ha hblank
  rw [h a ha] at hblank
  cases hblank

theorem IsGap.gapped (h : IsGap text) : Gapped text := fun a ha _ => h a ha

/-- A text refers to a cell, with no other blanks than gaps around, if it is a reference to it with
gaps around. -/
theorem exists_pads_iff {c : Coord} :
    (∃ ref, Pads text ref ∧ Coord.Denotes ref c) ↔ Coord.Denotes text c ∧ Gapped text := by
  constructor
  · rintro ⟨ref, ⟨before, after, rfl, hbefore, href, hafter⟩, hdenotes⟩
    constructor
    · obtain ⟨front, letters, digits, back, rfl, hfront, hback, hspelled⟩ := hdenotes
      refine ⟨before ++ front, letters, digits, back ++ after, by simp only [List.append_assoc],
        ?_, ?_, hspelled⟩
      · exact List.forall_mem_append.mpr ⟨fun a ha => isBlank_of_isGap (hbefore a ha), hfront⟩
      · exact List.forall_mem_append.mpr ⟨hback, fun a ha => isBlank_of_isGap (hafter a ha)⟩
    · obtain ⟨letters, digits, rfl, hsplit⟩ := href
      rw [gapped_append, gapped_append]
      exact ⟨hbefore.gapped, gapped_of_not_isBlank hsplit.not_isBlank, hafter.gapped⟩
  · rintro ⟨⟨before, letters, digits, after, rfl, hbefore, hafter, hspelled⟩, hgapped⟩
    rw [gapped_append, gapped_append] at hgapped
    obtain ⟨⟨hfront, -⟩, hback⟩ := hgapped
    refine ⟨letters ++ digits, ⟨before, after, List.append_assoc .., ?_, ?_, ?_⟩, ?_⟩
    · exact fun a ha => hfront a ha (hbefore a ha)
    · exact ⟨letters, digits, rfl, hspelled.toIsSplit⟩
    · exact fun a ha => hback a ha (hafter a ha)
    · exact ⟨[], letters, digits, [], by simp, by simp, by simp, hspelled⟩

/-- **The references named in a text are read as the region that the text refers to.** -/
theorem exists_names_iff {argument : String} :
    (∃ corners, Names argument.toList corners ∧ corners.Reading (.ok r)) ↔
      Region.Reading argument (.ok r) ∧ Gapped argument.toList := by
  constructor
  · rintro ⟨corners, hnames, hread⟩
    generalize htext : argument.toList = text at hnames
    cases hnames with
    | one hpads =>
      cases hread with
      | single _ c hc =>
        obtain ⟨hdenotes, hgapped⟩ := exists_pads_iff.mp ⟨_, hpads, hc⟩
        subst htext
        exact ⟨.single (hdenotes.notMem rfl rfl rfl) c hdenotes, hgapped⟩
    | @two left first right second hleft hright =>
      cases hread with
      | spanning _ _ a b ha hb =>
        obtain ⟨hfirst, hgleft⟩ := exists_pads_iff.mp ⟨_, hleft, ha⟩
        obtain ⟨hsecond, hgright⟩ := exists_pads_iff.mp ⟨_, hright, hb⟩
        refine ⟨.spanning (String.ofList left) (String.ofList right) ?_ ?_ a b ?_ ?_, ?_⟩
        · rw [← String.toList_inj, Region.toList_append_colon, String.toList_ofList,
            String.toList_ofList, htext]
        · rw [String.toList_ofList]
          exact hfirst.notMem rfl rfl rfl
        · rwa [String.toList_ofList]
        · rwa [String.toList_ofList]
        · rw [← List.singleton_append, gapped_append, gapped_append]
          exact ⟨hgleft, gapped_of_not_isBlank (by simp; decide), hgright⟩
  · rintro ⟨hread, hgapped⟩
    cases hread with
    | single hcolon c hc =>
      obtain ⟨ref, hpads, href⟩ := exists_pads_iff.mpr ⟨hc, hgapped⟩
      exact ⟨_, .one hpads, .single ref c href⟩
    | spanning first second htext hcolon a b ha hb =>
      rw [htext, Region.toList_append_colon, ← List.singleton_append, gapped_append,
        gapped_append] at hgapped
      obtain ⟨hgfirst, -, hgsecond⟩ := hgapped
      obtain ⟨ref₁, hpads₁, href₁⟩ := exists_pads_iff.mpr ⟨ha, hgfirst⟩
      obtain ⟨ref₂, hpads₂, href₂⟩ := exists_pads_iff.mpr ⟨hb, hgsecond⟩
      refine ⟨⟨ref₁, some ref₂⟩, ?_, .spanning ref₁ ref₂ a b href₁ href₂⟩
      rw [htext, Region.toList_append_colon]
      exact .two hpads₁ hpads₂

/-! ### Calls -/

/-- The text of the call of a function with an argument, whatever that is. -/
def callWith (f : Aggregate) (argument : String) : String :=
  "=" ++ f.name ++ "(" ++ argument ++ ")"

variable {f g : Aggregate} {argument : String}

theorem toList_callWith :
    (callWith f argument).toList =
      '=' :: (f.name.toList ++ '(' :: (argument.toList ++ [')'])) := by
  simp only [callWith, String.toList_append, List.append_assoc]
  rfl

theorem splits_call {inside : List Char} :
    Splits (f.name.toList ++ '(' :: inside) f.name ('(' :: inside) := by
  refine ⟨rfl, ?_, .inr ⟨inside, rfl⟩⟩
  cases f <;> decide

theorem Splits.unique {name name' : String} {args args' : List Char} (h : Splits text name args)
    (h' : Splits text name' args') : name = name' ∧ args = args' := by
  rw [splits_iff] at h h'
  exact ⟨String.toList_inj.mp (h.1.symm.trans h'.1), h.2.symm.trans h'.2⟩

/-- A call says what its argument names. -/
theorem body_callWith_eq_call_iff :
    (ofText (callWith f argument)).body = .call g r ↔
      g = f ∧ ∃ corners, Names argument.toList corners ∧ corners.Reading (.ok r) := by
  have hbody : (ofText (callWith f argument)).body =
      readBody (f.name.toList ++ '(' :: (argument.toList ++ [')'])) := by
    rw [ofText, toList_callWith, dropMark]
  rw [hbody, readBody_eq_iff]
  constructor
  · intro h
    cases h with
    | call g args hsplits corners hlists r hread =>
      obtain ⟨hname, rfl⟩ := hsplits.unique splits_call
      refine ⟨?_, corners, lists_enclosed_iff.mp hlists, hread⟩
      exact Option.some.inj ((Aggregate.ofName?_eq_some_iff.mpr rfl).symm.trans
        (Aggregate.ofName?_eq_some_iff.mpr hname))
  · rintro ⟨rfl, corners, hnames, hread⟩
    exact .call g _ splits_call corners (lists_enclosed_iff.mpr hnames) r hread

/-- A formula that is not in error is a call. -/
theorem error?_eq_none_and_region_eq_iff {f : Formula} :
    f.error? = none ∧ f.region = r ↔ ∃ g, f.body = .call g r := by
  simp only [body_eq_call_iff, exists_and_left, exists_eq_left']

/-- **A call is read on the region that its argument refers to**, whatever the function and the
argument are, if the argument has no other blanks than may stand in a formula. Otherwise the formula
is in error. -/
theorem ofText_callWith_iff (f : Aggregate) (argument : String) (r : Region) :
    ((ofText (callWith f argument)).error? = none ∧ (ofText (callWith f argument)).region = r ↔
      Region.ofReference argument = .ok r ∧
        ∀ c ∈ argument.toList, Text.isBlank c = true → isGap c = true) ∧
    ((ofText (callWith f argument)).error? = none →
      (ofText (callWith f argument)).function = f) := by
  constructor
  · rw [error?_eq_none_and_region_eq_iff, Region.ofReference_eq_iff]
    simp only [body_callWith_eq_call_iff, exists_eq_left]
    exact exists_names_iff
  · intro hnone
    obtain ⟨g, hbody⟩ := error?_eq_none_and_region_eq_iff.mp ⟨hnone, rfl⟩
    obtain ⟨rfl, -⟩ := body_callWith_eq_call_iff.mp hbody
    exact (body_eq_call_iff.mp hbody).2.1

/-! ### Calls on a region -/

/-- The text of the call of a function on a region. -/
def callText (f : Aggregate) (r : Region) : String := callWith f r.reference

/-- A call that is written is read back if the reference to the region is. -/
theorem ofText_callText_iff :
    (ofText (callText f r)).body = .call f r ↔ Region.ofReference r.reference = .ok r := by
  rw [callText, body_callWith_eq_call_iff,
    exists_names_iff, Region.ofReference_eq_iff, and_iff_right rfl,
    and_iff_left (gapped_of_not_isBlank r.not_isBlank_reference)]

theorem Corners.Reading.row_lt (h : corners.Reading (.ok r)) :
    r.bottomRight.row + 1 < 0x100000000 := by
  cases h with
  | single first a ha => exact ha.row_lt
  | spanning first second a b ha hb => exact Region.row_lt_of_denotes ha hb

/-- **What a text calls can be written and read back.** -/
theorem ofText_callText_of_ofText {text : String} (h : (ofText text).body = .call f r) :
    (ofText (callText f r)).body = .call f r := by
  cases readBody_eq_iff.mp h with
  | call _ _ _ _ _ _ hcorners =>
    rw [ofText_callText_iff, Region.ofReference_reference, if_pos hcorners.row_lt]

end Formula

end Worksheet
