import Worksheet.Proofs.Binary64.Literal
import Worksheet.Proofs.Binary64.Shortest

/-!
# The text of a number reads back

The text of a finite number is a plain literal: a sign if it is negative, digits, and a point with
further digits if the number has a fraction. Such a literal is read to its end, whatever the digits
are, and its value depends on the digits only through the decimal that they spell. So the text of a
number reads back as soon as its shortest decimal does.

A whole number is written with its own digits, not with those of its shortest decimal. They spell it
exactly, so they read back as well.

## Main definitions

* `Literal.Plain` — digits, and no exponent
* `Literal.chars` — the characters of a plain literal
* `Decimal.literal` — the plain literal with the digits of a decimal
* `Binary64.Equal` — equality of numbers, in which both zeros are equal

## Main results

* `Literal.Plain.spells` — a plain literal is a literal
* `Decimal.value_literal` — the digits of a decimal have its value
* `Binary64.exists_plain_textChars` — the text of a number is a plain literal with its value
-/

namespace Worksheet

/-! ### Plain literals -/

namespace Literal

variable {l : Literal}

/-- A literal that is digits before and after the point and nothing else. -/
structure Plain (l : Literal) : Prop where
  /-- At least one digit stands before the point. -/
  whole_ne_nil : l.whole ≠ []
  /-- Only digits stand before it. -/
  whole : ∀ c ∈ l.whole, c.isDigit = true
  /-- Only digits stand after it. -/
  fraction : ∀ c ∈ l.fraction, c.isDigit = true
  /-- There is no exponent. -/
  exponent : l.exponent = 0

/-- The fraction of a literal with the point in front of it, if there is one. -/
def pointed : List Char → List Char
  | [] => []
  | c :: rest => '.' :: c :: rest

/-- The characters of a plain literal. -/
def chars (l : Literal) : List Char :=
  Binary64.signChars l.negative ++ (l.whole ++ pointed l.fraction)

theorem spellsSign_signChars (negative : Bool) :
    SpellsSign (Binary64.signChars negative) negative := by
  cases negative with
  | true => exact .minus
  | false => exact .none

/-- **A plain literal is a literal.** -/
theorem Plain.spells (h : l.Plain) : Spells l.chars l := by
  obtain ⟨negative, whole, fraction, exponent⟩ := l
  obtain ⟨hne, hwhole, hfraction, rfl⟩ := h
  have hdigits : SpellsDigits (whole ++ pointed fraction) whole fraction := by
    cases fraction with
    | nil =>
      rw [pointed, List.append_nil]
      exact .whole hne hwhole
    | cons c rest => exact .pointed hne hwhole hfraction
  have hspells := Spells.parts (spellsSign_signChars negative) hdigits .none
  rwa [List.append_nil] at hspells

/-- A plain literal is made of digits, a minus sign and a point. -/
theorem Plain.mem_chars (h : l.Plain) {c : Char} (hc : c ∈ l.chars) :
    c = '-' ∨ c = '.' ∨ c.isDigit = true := by
  rw [chars, List.mem_append, List.mem_append] at hc
  rcases hc with hsign | hwhole | hfraction
  · rw [Binary64.signChars] at hsign
    split at hsign
    · exact .inl (List.mem_singleton.mp hsign)
    · cases hsign
  · exact .inr (.inr (h.whole c hwhole))
  · cases hl : l.fraction with
    | nil =>
      rw [hl] at hfraction
      cases hfraction
    | cons d rest =>
      rw [hl, pointed, List.mem_cons, ← hl] at hfraction
      exact .inr (hfraction.imp_right (h.fraction c))

theorem Plain.notMem_chars (h : l.Plain) {c : Char} (hminus : c ≠ '-') (hpoint : c ≠ '.')
    (hdigit : c.isDigit = false) : c ∉ l.chars := by
  intro hc
  rcases h.mem_chars hc with heq | heq | hdigit'
  · exact hminus heq
  · exact hpoint heq
  · rw [hdigit] at hdigit'
    cases hdigit'

end Literal

/-! ### The digits of a decimal -/

namespace Decimal

theorem ofDigitChars_fixedDigits (width n init : Nat) :
    Nat.ofDigitChars 10 (fixedDigits width n) init = init * 10 ^ width + n % 10 ^ width := by
  induction width generalizing n with
  | zero => simp [fixedDigits, Nat.mod_one]
  | succ width ih =>
    rw [fixedDigits, Nat.ofDigitChars_append, ih,
      Nat.ofDigitChars_cons_digitChar_of_lt_ten (Nat.mod_lt _ (by decide)), Nat.ofDigitChars_nil,
      Nat.pow_succ', Nat.mod_mul]
    ring

theorem isDigit_of_mem_fixedDigits {width n : Nat} {c : Char} (hc : c ∈ fixedDigits width n) :
    c.isDigit = true := by
  induction width generalizing n with
  | zero => cases hc
  | succ width ih =>
    rw [fixedDigits, List.mem_append, List.mem_singleton] at hc
    rcases hc with hc | rfl
    · exact ih hc
    · rw [Nat.isDigit_digitChar, decide_eq_true_eq]
      exact Nat.mod_lt _ (by decide)

/-- Only zeros are dropped, and only at the end. -/
theorem exists_append_replicate (digits : List Char) :
    ∃ k, digits = dropTrailingZeros digits ++ List.replicate k '0' := by
  refine ⟨(digits.reverse.takeWhile (· = '0')).length, ?_⟩
  have hzeros : digits.reverse.takeWhile (· = '0') =
      List.replicate (digits.reverse.takeWhile (· = '0')).length '0' := by
    rw [List.eq_replicate_iff]
    exact ⟨rfl, fun c hc => of_decide_eq_true (List.all_eq_true.mp List.all_takeWhile c hc)⟩
  rw [← List.reverse_replicate, ← hzeros, dropTrailingZeros, ← List.reverse_append,
    List.takeWhile_append_dropWhile, List.reverse_reverse]

/-- The digits before the point. -/
def whole (d : Decimal) : List Char :=
  Nat.toDigits 10 (d.coefficient * Nat.pow 10 d.exponent.toNat / Nat.pow 10 (-d.exponent).toNat)

/-- The digits after the point, without the zeros that could be left out. -/
def fraction (d : Decimal) : List Char :=
  dropTrailingZeros (fixedDigits (-d.exponent).toNat
    (d.coefficient * Nat.pow 10 d.exponent.toNat % Nat.pow 10 (-d.exponent).toNat))

/-- The literal that the digits of a decimal are, with the given sign. -/
def literal (negative : Bool) (d : Decimal) : Literal := ⟨negative, d.whole, d.fraction, 0⟩

variable (negative : Bool) (d : Decimal)

theorem positionalChars_eq : d.positionalChars = d.whole ++ Literal.pointed d.fraction := by
  rw [positionalChars, ← fraction, ← whole]
  cases d.fraction with
  | nil => exact (List.append_nil _).symm
  | cons c rest => rfl

/-- All digits after the point are those of the fraction and zeros that could be left out. -/
theorem exists_fraction_append :
    ∃ k, fixedDigits (-d.exponent).toNat
        (d.coefficient * Nat.pow 10 d.exponent.toNat % Nat.pow 10 (-d.exponent).toNat) =
      d.fraction ++ List.replicate k '0' :=
  exists_append_replicate _

theorem plain_literal : (d.literal negative).Plain where
  whole_ne_nil := Nat.toDigits_ne_nil
  whole c hc := Nat.isDigit_of_mem_toDigits (by decide) (by decide) hc
  fraction c hc := by
    obtain ⟨k, hk⟩ := d.exists_fraction_append
    have hmem := List.mem_append_left (List.replicate k '0') hc
    rw [literal, ← hk] at hmem
    exact isDigit_of_mem_fixedDigits hmem
  exponent := rfl

/-- All digits together are the coefficient, apart from the zeros that were left out. -/
theorem exists_coefficient_literal :
    ∃ k : Nat, (d.literal negative).decimal.coefficient * 10 ^ k =
        d.coefficient * 10 ^ d.exponent.toNat ∧
      (d.literal negative).decimal.exponent = -(-d.exponent).toNat + k := by
  obtain ⟨k, hk⟩ := d.exists_fraction_append
  refine ⟨k, ?_, ?_⟩
  · have hdigits : Nat.ofDigitChars 10 (d.whole ++ (d.fraction ++ List.replicate k '0')) 0 =
        d.coefficient * 10 ^ d.exponent.toNat := by
      rw [← hk, Nat.ofDigitChars_append, ofDigitChars_fixedDigits, whole,
        Nat.ofDigitChars_ten_toDigits, Nat.pow_eq, Nat.pow_eq, Nat.mod_mod, Nat.div_add_mod']
    rw [← List.append_assoc, Nat.ofDigitChars_append, Nat.ofDigitChars_replicate_zero,
      Nat.mul_comm] at hdigits
    exact hdigits
  · have hlength := congrArg List.length hk
    rw [length_fixedDigits, List.length_append, List.length_replicate] at hlength
    simp only [literal, Literal.decimal]
    omega

/-- **The digits of a decimal have its value.** -/
theorem value_literal : (d.literal negative).value = d.nearest negative := by
  obtain ⟨k, hcoefficient, hexponent⟩ := d.exists_coefficient_literal negative
  calc (d.literal negative).value
      = nearest negative ⟨(d.literal negative).decimal.coefficient,
          -(-d.exponent).toNat + k⟩ := by rw [← hexponent]; rfl
    _ = nearest negative ⟨d.coefficient * 10 ^ d.exponent.toNat, -(-d.exponent).toNat⟩ := by
        rw [← nearest_mul_pow, hcoefficient]
    _ = nearest negative ⟨d.coefficient, -(-d.exponent).toNat + d.exponent.toNat⟩ :=
        nearest_mul_pow negative _ _ _
    _ = d.nearest negative := by
        rw [show -((-d.exponent).toNat : Int) + d.exponent.toNat = d.exponent by omega]

end Decimal

/-! ### The text of a number -/

namespace Binary64

/-- Two numbers are equal as numbers: neither is not a number, and both have the same place in the
order. Both zeros are equal. -/
def Equal (x y : Binary64) : Prop := x.key? = y.key? ∧ x.key? ≠ none

instance (x y : Binary64) : Decidable (x.Equal y) := inferInstanceAs (Decidable (_ ∧ _))

theorem equal_refl_of_isFinite {x : Binary64} (h : x.isFinite = true) : x.Equal x := by
  cases x with
  | finite negative rank => exact ⟨rfl, by simp [key?]⟩
  | nan => cases h
  | infinite negative => cases h

/-- What is a number at all has a sign and a rank, the infinities included. -/
theorem exists_eq_ofRank {x : Binary64} (h : x.key? ≠ none) :
    ∃ negative n, x = ofRank negative n ∧ x.key? = some (if negative then -(n : Int) else n) := by
  cases x with
  | nan => exact absurd rfl h
  | infinite negative => exact ⟨negative, rankLimit, rfl, rfl⟩
  | finite negative rank => exact ⟨negative, rank, (ofRank_of_lt negative rank).symm, rfl⟩

/-- Equal numbers are the same, unless they are zeros. -/
theorem Equal.eq_or_zero {x y : Binary64} (h : x.Equal y) :
    x = y ∨ ∃ negative negative', x = zero negative ∧ y = zero negative' := by
  obtain ⟨hkey, hx⟩ := h
  obtain ⟨negative, n, rfl, hkeyx⟩ := exists_eq_ofRank hx
  obtain ⟨negative', n', rfl, hkeyy⟩ := exists_eq_ofRank (hkey ▸ hx)
  rw [hkeyx, hkeyy, Option.some.injEq] at hkey
  by_cases hsign : negative = negative'
  · subst hsign
    have hn : n = n' := by
      cases negative <;> simpa using hkey
    exact .inl (by rw [hn])
  · have hzero : n = 0 ∧ n' = 0 := by
      cases negative <;> cases negative' <;> simp at hsign hkey <;> omega
    obtain ⟨rfl, rfl⟩ := hzero
    exact .inr ⟨negative, negative', rfl, rfl⟩

/-- Both zeros are written alike. -/
theorem textChars_zero (negative : Bool) : (zero negative).textChars = ['0'] := by
  cases negative <;> decide

theorem Equal.textChars_eq {x y : Binary64} (h : x.Equal y) : x.textChars = y.textChars := by
  rcases h.eq_or_zero with rfl | ⟨negative, negative', rfl, rfl⟩
  · rfl
  · rw [textChars_zero, textChars_zero]

/-- The digits of a whole number of moderate size read back. -/
theorem nearest_whole {size : Nat} {rank : Fin 0x7ff0000000000000} (h : size <<< 1074 = units rank)
    (hsize : size < 1000000000000000) (negative : Bool) :
    Decimal.nearest negative ⟨size, 0⟩ = finite negative rank := by
  have hrank : nearestRank (size <<< 1074) 1 = rank := by
    rw [h, ← Nat.mul_one (units rank)]
    exact nearestRank_units rank Nat.one_pos
  rw [← ofRank_of_lt, ← hrank]
  rcases Nat.eq_zero_or_pos size with rfl | hpos
  · have hzero : nearestRank (0 <<< 1074) 1 = 0 := by decide
    rw [hzero]
    rfl
  · have hdigits : Decimal.digitCount size ≤ 15 :=
      (Decimal.digitCount_le_iff (by decide)).mpr hsize
    have hmagnitude : Decimal.magnitude ⟨size, 0⟩ = Decimal.digitCount size := Int.add_zero _
    rw [Decimal.nearest, if_neg (Nat.ne_of_gt hpos), hmagnitude, if_neg (by omega),
      if_neg (by omega), nearest]
    simp

/-- A whole number is told by its sign and its size. -/
theorem exists_of_wholeNumber? {x : Binary64} {n : Int} (h : x.wholeNumber? = some n) :
    ∃ negative rank size, x = finite negative rank ∧ size <<< 1074 = units rank ∧
      size < 1000000000000000 ∧ n = if negative then -(size : Int) else size := by
  cases x with
  | nan => cases h
  | infinite negative => cases h
  | finite negative rank =>
    rw [wholeNumber?] at h
    split at h
    · rename_i hwhole
      exact ⟨negative, rank, _, rfl, hwhole.1, hwhole.2, (Option.some.inj h).symm⟩
    · cases h

/-- The literal of a whole number. -/
def wholeLiteral (n : Int) : Literal := ⟨decide (n < 0), Nat.toDigits 10 n.natAbs, [], 0⟩

theorem plain_wholeLiteral (n : Int) : (wholeLiteral n).Plain where
  whole_ne_nil := Nat.toDigits_ne_nil
  whole _ hc := Nat.isDigit_of_mem_toDigits (by decide) (by decide) hc
  fraction := by
    rintro c ⟨⟩
  exponent := rfl

theorem chars_wholeLiteral (n : Int) : (wholeLiteral n).chars = wholeChars n := by
  simp [Literal.chars, wholeLiteral, wholeChars, Literal.pointed]

theorem value_wholeLiteral (n : Int) :
    (wholeLiteral n).value = Decimal.nearest (decide (n < 0)) ⟨n.natAbs, 0⟩ := by
  simp [Literal.value, Literal.decimal, wholeLiteral]

/-- The digits of a whole number have its value, except that both zeros are written alike. -/
theorem equal_value_wholeLiteral {x : Binary64} {n : Int} (h : x.wholeNumber? = some n) :
    (wholeLiteral n).value.isFinite = true ∧ (wholeLiteral n).value.Equal x := by
  obtain ⟨negative, rank, size, rfl, hunits, hsize, hn⟩ := exists_of_wholeNumber? h
  have habs : n.natAbs = size := by
    cases negative <;> simp [hn]
  have hvalue : (wholeLiteral n).value = finite (decide (n < 0)) rank := by
    rw [value_wholeLiteral, habs, nearest_whole hunits hsize]
  rw [hvalue]
  refine ⟨rfl, ?_, by simp [key?]⟩
  rcases Nat.eq_zero_or_pos size with rfl | hpos
  · have hzero : rank.val = 0 := by
      refine Nat.eq_zero_of_not_pos fun hpos => ?_
      have hunits' := units_pos hpos
      rw [← hunits, Nat.zero_shiftLeft] at hunits'
      exact Nat.lt_irrefl 0 hunits'
    simp [key?, hzero]
  · have hsign : decide (n < 0) = negative := by
      cases negative with
      | true => simpa [hn] using hpos
      | false => simp [hn]
    rw [hsign]

/-- **The text of a finite number is a plain literal whose value is equal to that number.** -/
theorem exists_plain_textChars {x : Binary64} (h : x.isFinite = true) :
    ∃ l : Literal, l.Plain ∧ x.textChars = l.chars ∧ l.value.isFinite = true ∧ l.value.Equal x := by
  cases hwhole : x.wholeNumber? with
  | some n =>
    refine ⟨wholeLiteral n, plain_wholeLiteral n, ?_, equal_value_wholeLiteral hwhole⟩
    rw [textChars, hwhole, chars_wholeLiteral]
  | none =>
    cases x with
    | nan => cases h
    | infinite negative => cases h
    | finite negative rank =>
      have hvalue : ((shortest rank).literal negative).value = finite negative rank := by
        rw [Decimal.value_literal, nearest_shortest]
      refine ⟨(shortest rank).literal negative, (shortest rank).plain_literal negative, ?_, ?_, ?_⟩
      · rw [textChars, hwhole, decimalChars, Decimal.positionalChars_eq]
        rfl
      · rw [hvalue]
        rfl
      · rw [hvalue]
        exact equal_refl_of_isFinite rfl

end Binary64

end Worksheet
