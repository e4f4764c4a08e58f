import Mathlib.Algebra.Order.Field.Rat
import Mathlib.Algebra.Order.Field.Power
import Mathlib.Algebra.Ring.Parity
import Mathlib.Tactic.FieldSimp
import Mathlib.Tactic.Linarith
import Mathlib.Tactic.Positivity
import Mathlib.Tactic.Ring
import Worksheet.Binary64.Literal
import Worksheet.Proofs.Binary64.Decimal

/-!
# The number nearest to a literal

A literal denotes a rational number, and its value is the binary64 number nearest to that one. Of
two numbers that are equally near it is the one with the even rank. The ranks go on past the last
finite magnitude here, and a literal that is nearest to a magnitude past it has an infinite value.

Magnitudes grow with their ranks, so a rational number lies between two neighbours and has to be
compared with these two only. `Binary64.nearestRank` finds them by dividing: the whole part of the
quotient and the next whole number are the significands of the neighbours, in the scale of the lower
one. It is here that a 54th bit does no harm, because the significand `2 ^ 53` in one scale is the
significand `2 ^ 52` in the next.

## Main definitions

* `Binary64.magnitude` — the magnitude of a rank, as a rational number
* `Binary64.IsNearest` — the rank whose magnitude is nearest to a rational number
* `Literal.Denotes` — the number nearest to a literal

## Main results

* `Binary64.units_strictMono` — magnitudes are ordered as their ranks are
* `Binary64.isNearest_nearestRank` — a quotient is rounded to the nearest rank
* `Decimal.exists_isNearest` — so is a decimal, also one that is answered from its first digit alone
* `Literal.denotes_iff` — the value of a literal is the number nearest to it
-/

namespace Worksheet

namespace Binary64

/-- The magnitude of the given rank. -/
def magnitude (rank : ℕ) : ℚ := units rank / 2 ^ 1074

/-- No magnitude is nearer to `q` than the one of the given rank, and if another one is as near, the
rank is even. -/
structure IsNearest (q : ℚ) (rank : ℕ) : Prop where
  nearest : ∀ other, |q - magnitude rank| ≤ |q - magnitude other|
  even : ∀ other ≠ rank, |q - magnitude rank| = |q - magnitude other| → Even rank

/-! ### The order of magnitudes -/

/-- A significand that fills its 53 bits, or a shift of no places, makes a rank of its own. The
significand may also be the first one with 54 bits. -/
theorem units_add {m shift : ℕ} (hm : m ≤ 0x20000000000000)
    (hshift : shift = 0 ∨ 0x10000000000000 ≤ m) :
    units (m + shift * 0x10000000000000) = m * 2 ^ shift := by
  rw [units, Nat.shiftLeft_eq]
  by_cases htop : m = 0x20000000000000
  · have hscale : scale (m + shift * 0x10000000000000) = shift + 1 := by
      unfold scale
      omega
    have hsignificand : significand (m + shift * 0x10000000000000) = 0x10000000000000 := by
      rw [significand, hscale]
      omega
    rw [hscale, hsignificand, htop, Nat.pow_succ]
    omega
  · have hscale : scale (m + shift * 0x10000000000000) = shift := by
      unfold scale
      omega
    have hsignificand : significand (m + shift * 0x10000000000000) = m := by
      rw [significand, hscale]
      omega
    rw [hscale, hsignificand]

theorem units_strictMono : StrictMono units := by
  refine strictMono_nat_of_lt_succ fun rank => ?_
  have hlt := significand_lt rank
  have hshift : scale rank = 0 ∨ 0x10000000000000 ≤ significand rank := by
    rcases Nat.eq_zero_or_pos (scale rank) with hzero | hpos
    · exact .inl hzero
    · exact .inr (le_significand_of_scale_pos hpos)
  have hsucc : significand rank + 1 + scale rank * 0x10000000000000 = rank + 1 := by
    rw [Nat.add_right_comm, significand_add_scale]
  rw [← hsucc, units_add hlt (hshift.imp_right Nat.le_succ_of_le), units, Nat.shiftLeft_eq]
  exact Nat.mul_lt_mul_of_pos_right (Nat.lt_succ_self _) (Nat.two_pow_pos _)

theorem magnitude_strictMono : StrictMono magnitude := fun a b h => by
  rw [magnitude, magnitude]
  exact div_lt_div_of_pos_right (Nat.cast_lt.mpr (units_strictMono h)) (by positivity)

/-! ### Between two neighbours -/

variable {q : ℚ} {low rank other : ℕ}

/-- Every other magnitude is farther from a number than one of the two that it lies between. -/
theorem eq_or_lt_of_between (hlow : magnitude low ≤ q) (hhigh : q ≤ magnitude (low + 1))
    (other : ℕ) :
    other = low ∨ other = low + 1 ∨ |q - magnitude low| < |q - magnitude other| ∨
      |q - magnitude (low + 1)| < |q - magnitude other| := by
  rcases lt_trichotomy other low with hlt | rfl | hgt
  · have hmag := magnitude_strictMono hlt
    refine .inr (.inr (.inl ?_))
    rw [abs_of_nonneg (by linarith), abs_of_nonneg (by linarith)]
    linarith
  · exact .inl rfl
  · rcases Nat.eq_or_lt_of_le (Nat.succ_le_of_lt hgt) with rfl | hlt
    · exact .inr (.inl rfl)
    · have hmag := magnitude_strictMono hlt
      refine .inr (.inr (.inr ?_))
      rw [abs_of_nonpos (by linarith), abs_of_nonpos (by linarith)]
      linarith

/-- The nearer one of the two is nearest. -/
theorem isNearest_of_between (hlow : magnitude low ≤ q) (hhigh : q ≤ magnitude (low + 1))
    {near far : ℕ} (hpair : near = low ∧ far = low + 1 ∨ near = low + 1 ∧ far = low)
    (hle : |q - magnitude near| ≤ |q - magnitude far|)
    (heven : |q - magnitude near| = |q - magnitude far| → Even near) : IsNearest q near := by
  have hother : ∀ other,
      other = near ∨ other = far ∨ |q - magnitude near| < |q - magnitude other| := by
    intro other
    rcases hpair with ⟨rfl, rfl⟩ | ⟨rfl, rfl⟩ <;>
      rcases eq_or_lt_of_between hlow hhigh other with heq | heq | hlt | hlt
    · exact .inl heq
    · exact .inr (.inl heq)
    · exact .inr (.inr hlt)
    · exact .inr (.inr (hle.trans_lt hlt))
    · exact .inr (.inl heq)
    · exact .inl heq
    · exact .inr (.inr (hle.trans_lt hlt))
    · exact .inr (.inr hlt)
  constructor
  · intro other
    rcases hother other with rfl | rfl | hlt
    · exact le_refl _
    · exact hle
    · exact hlt.le
  · intro other hne heq
    rcases hother other with rfl | rfl | hlt
    · exact absurd rfl hne
    · exact heven heq
    · exact absurd heq hlt.ne

/-- At most one rank is nearest. -/
theorem IsNearest.eq {rank' : ℕ} (h : IsNearest q rank) (h' : IsNearest q rank') :
    rank = rank' := by
  wlog hlt : rank < rank' generalizing rank rank'
  · rcases Nat.lt_or_ge rank' rank with hgt | hge
    · exact (this h' h hgt).symm
    · omega
  have heq : |q - magnitude rank| = |q - magnitude rank'| :=
    le_antisymm (h.nearest rank') (h'.nearest rank)
  -- both are even, so there is another magnitude between them, and it is nearer
  obtain ⟨a, ha⟩ := h.even rank' hlt.ne' heq
  obtain ⟨b, hb⟩ := h'.even rank hlt.ne heq.symm
  have hbelow := magnitude_strictMono (Nat.lt_succ_self rank)
  have habove := magnitude_strictMono (show rank + 1 < rank' by omega)
  have hnear := h.nearest (rank + 1)
  rcases abs_cases (q - magnitude rank) with ⟨h₁, h₁'⟩ | ⟨h₁, h₁'⟩ <;>
    rcases abs_cases (q - magnitude rank') with ⟨h₂, h₂'⟩ | ⟨h₂, h₂'⟩ <;>
      rcases abs_cases (q - magnitude (rank + 1)) with ⟨h₃, h₃'⟩ | ⟨h₃, h₃'⟩ <;>
        linarith

/-! ### Quotients -/

/-- Where a quotient is rounded down or up, in terms of its remainder. -/
theorem roundHalfEven_cases (num den : ℕ) :
    roundHalfEven num den = num / den ∧
        (2 * (num % den) < den ∨ 2 * (num % den) = den ∧ Even (num / den)) ∨
      roundHalfEven num den = num / den + 1 ∧
        (den < 2 * (num % den) ∨ 2 * (num % den) = den ∧ Even (num / den + 1)) := by
  simp only [roundHalfEven, Nat.even_iff]
  split_ifs with hbelow habove <;> omega

/-- The quotient is counted in steps of a power of two such that its whole part has at most 53 bits,
and no fewer unless the steps are units. -/
theorem div_shift_bounds {num den shift : ℕ} (hshift : Nat.log2 (num / den) - 52 = shift) :
    num / (den * 2 ^ shift) < 0x20000000000000 ∧
      (shift = 0 ∨ 0x10000000000000 ≤ num / (den * 2 ^ shift)) := by
  rw [← Nat.div_div_eq_div_mul]
  have hstep : 0 < 2 ^ shift := Nat.two_pow_pos shift
  rcases Nat.eq_zero_or_pos (num / den) with hzero | hpos
  · rw [hzero] at hshift ⊢
    rw [Nat.zero_div]
    exact ⟨by decide, .inl hshift.symm⟩
  · constructor
    · rw [Nat.div_lt_iff_lt_mul hstep]
      calc num / den < 2 ^ (Nat.log2 (num / den) + 1) := Nat.lt_log2_self
        _ ≤ 2 ^ (53 + shift) := Nat.pow_le_pow_right (by decide) (by omega)
        _ = 0x20000000000000 * 2 ^ shift := Nat.pow_add 2 53 shift
    · refine (Nat.eq_zero_or_pos shift).imp_right fun hshift' => ?_
      rw [Nat.le_div_iff_mul_le hstep]
      calc 0x10000000000000 * 2 ^ shift = 2 ^ (52 + shift) := (Nat.pow_add 2 52 shift).symm
        _ = 2 ^ Nat.log2 (num / den) := by rw [show 52 + shift = Nat.log2 (num / den) by omega]
        _ ≤ num / den := Nat.log2_self_le (Nat.ne_of_gt hpos)

/-- The distances of a quotient from the multiples of a step that it lies between. -/
theorem distances {num den k step rest : ℕ} {low high u : ℚ} (hden : 0 < den) (hu : 0 < u)
    (hnum : den * step * k + rest = num) (hrest : rest < den * step) (hlow : low = k * step / u)
    (hhigh : high = (k + 1) * step / u) :
    (num / (den * u) : ℚ) - low = rest / (den * u) ∧
      high - (num / (den * u) : ℚ) = (den * step - rest : ℕ) / (den * u) := by
  have hden' : (den : ℚ) ≠ 0 := Nat.cast_ne_zero.mpr hden.ne'
  have hu' : u ≠ 0 := hu.ne'
  rw [hlow, hhigh, ← hnum, Nat.cast_sub hrest.le]
  push_cast
  constructor
  · field_simp
    ring
  · field_simp
    ring

/-- The neighbours that a quotient lies between are reached by dividing, and it is rounded to the
one or the other as the remainder says. -/
theorem exists_neighbours (num : ℕ) {den : ℕ} (hden : 0 < den) :
    ∃ low step rest : ℕ, rest < step ∧
      (num / (den * 2 ^ 1074) : ℚ) - magnitude low = rest / (den * 2 ^ 1074) ∧
      magnitude (low + 1) - (num / (den * 2 ^ 1074) : ℚ) =
        (step - rest : ℕ) / (den * 2 ^ 1074) ∧
      (nearestRank num den = low ∧ (2 * rest < step ∨ 2 * rest = step ∧ Even low) ∨
        nearestRank num den = low + 1 ∧
          (step < 2 * rest ∨ 2 * rest = step ∧ Even (low + 1))) := by
  obtain ⟨shift, hshift⟩ : ∃ shift, Nat.log2 (num / den) - 52 = shift := ⟨_, rfl⟩
  obtain ⟨htop, hbottom⟩ := div_shift_bounds hshift
  have hrest : num % (den * 2 ^ shift) < den * 2 ^ shift :=
    Nat.mod_lt num (Nat.mul_pos hden (Nat.two_pow_pos shift))
  have hrank : nearestRank num den =
      roundHalfEven num (den * 2 ^ shift) + shift * 0x10000000000000 := by
    simp only [nearestRank, hshift, Nat.shiftLeft_eq]
  have hlow : magnitude (num / (den * 2 ^ shift) + shift * 0x10000000000000) =
      (num / (den * 2 ^ shift) : ℕ) * (2 ^ shift : ℕ) / 2 ^ 1074 := by
    rw [magnitude, units_add htop.le hbottom, Nat.cast_mul]
  have hhigh : magnitude (num / (den * 2 ^ shift) + shift * 0x10000000000000 + 1) =
      ((num / (den * 2 ^ shift) : ℕ) + 1) * (2 ^ shift : ℕ) / 2 ^ 1074 := by
    rw [Nat.add_right_comm, magnitude, units_add htop (hbottom.imp_right Nat.le_succ_of_le),
      Nat.cast_mul, Nat.cast_succ]
  obtain ⟨hbelow, habove⟩ := distances hden (by positivity)
    (Nat.div_add_mod num (den * 2 ^ shift)) hrest hlow hhigh
  refine ⟨_, den * 2 ^ shift, num % (den * 2 ^ shift), hrest, hbelow, habove, ?_⟩
  rw [hrank]
  have hcases := roundHalfEven_cases num (den * 2 ^ shift)
  simp only [Nat.even_iff] at hcases ⊢
  omega

/-- **The rank to which a quotient is rounded is nearest to it.** -/
theorem isNearest_nearestRank (num : ℕ) {den : ℕ} (hden : 0 < den) :
    IsNearest (num / (den * 2 ^ 1074)) (nearestRank num den) := by
  obtain ⟨low, step, rest, hrest, hbelow, habove, hrank⟩ := exists_neighbours num hden
  have hpos : (0 : ℚ) < den * 2 ^ 1074 := mul_pos (Nat.cast_pos.mpr hden) (by positivity)
  have hlow : magnitude low ≤ num / (den * 2 ^ 1074) := by
    rw [← sub_nonneg, hbelow]
    exact div_nonneg (Nat.cast_nonneg _) hpos.le
  have hhigh : (num / (den * 2 ^ 1074) : ℚ) ≤ magnitude (low + 1) := by
    rw [← sub_nonneg, habove]
    exact div_nonneg (Nat.cast_nonneg _) hpos.le
  rw [← abs_of_nonneg (sub_nonneg.mpr hlow)] at hbelow
  rw [← abs_of_nonneg (sub_nonneg.mpr hhigh), abs_sub_comm] at habove
  rcases hrank with ⟨hdown, hhalf⟩ | ⟨hup, hhalf⟩
  · rw [hdown]
    refine isNearest_of_between hlow hhigh (.inl ⟨rfl, rfl⟩) ?_ ?_
    · rw [hbelow, habove, div_le_div_iff_of_pos_right hpos, Nat.cast_le]
      omega
    · rw [hbelow, habove, div_left_inj' hpos.ne', Nat.cast_inj]
      intro heq
      exact hhalf.elim (fun hlt => absurd heq (by omega)) And.right
  · rw [hup]
    refine isNearest_of_between hlow hhigh (.inr ⟨rfl, rfl⟩) ?_ ?_
    · rw [hbelow, habove, div_le_div_iff_of_pos_right hpos, Nat.cast_le]
      omega
    · rw [hbelow, habove, div_left_inj' hpos.ne', Nat.cast_inj]
      intro heq
      exact hhalf.elim (fun hlt => absurd heq (by omega)) And.right

/-! ### Very large and very small numbers -/

/-- The rank that is nearest is at least that of any magnitude which is not exceeded. -/
theorem IsNearest.le_of_magnitude_le (h : IsNearest q rank) (hlow : magnitude low ≤ q) :
    low ≤ rank := by
  by_contra hlt
  have hmag := magnitude_strictMono (Nat.lt_of_not_le hlt)
  have hnear := h.nearest low
  rw [abs_of_nonneg (by linarith), abs_of_nonneg (by linarith)] at hnear
  linarith

theorem magnitude_zero : magnitude 0 = 0 := by
  have hunits : units 0 = 0 := by decide
  rw [magnitude, hunits, Nat.cast_zero, zero_div]

/-- What is less than half of the least positive magnitude is nearest to zero. -/
theorem isNearest_zero (hq : 0 ≤ q) (hhalf : 2 * q < magnitude 1) : IsNearest q 0 := by
  have hlow : magnitude 0 ≤ q := by rwa [magnitude_zero]
  have hhigh : q ≤ magnitude (0 + 1) := by
    rw [Nat.zero_add]
    linarith
  refine isNearest_of_between hlow hhigh (.inl ⟨rfl, rfl⟩) ?_ fun _ => .zero
  rw [abs_of_nonneg (sub_nonneg.mpr hlow), abs_of_nonpos (sub_nonpos.mpr hhigh), magnitude_zero,
    Nat.zero_add]
  linarith

theorem ofRank_of_rankLimit_le (negative : Bool) (h : rankLimit ≤ rank) :
    ofRank negative rank = infinite negative :=
  dif_neg (Nat.not_lt.mpr h)

theorem magnitude_rankLimit_le : magnitude rankLimit ≤ 10 ^ 309 := by
  have hunits : units rankLimit ≤ 10 ^ 309 * 2 ^ 1074 := by decide +kernel
  rw [magnitude, div_le_iff₀ (by positivity)]
  exact_mod_cast hunits

theorem le_magnitude_one : 2 * (10 ^ 324)⁻¹ ≤ magnitude 1 := by
  have hpow : 2 * 2 ^ 1074 ≤ 10 ^ 324 := by decide +kernel
  have hunits : units 1 = 1 := by decide
  rw [magnitude, hunits, Nat.cast_one, ← div_eq_mul_inv,
    div_le_div_iff₀ (by positivity) (by positivity), one_mul]
  exact_mod_cast hpow

end Binary64

namespace Decimal

/-- The value of a decimal. -/
def toRat (d : Decimal) : ℚ := d.coefficient * 10 ^ d.exponent

variable (d : Decimal)

theorem toRat_nonneg : 0 ≤ d.toRat := mul_nonneg (Nat.cast_nonneg _) (by positivity)

theorem shiftLeft_div (num den places : ℕ) :
    ((num <<< places : ℕ) / (den * 2 ^ places) : ℚ) = num / den := by
  rw [Nat.shiftLeft_eq, Nat.cast_mul, Nat.cast_pow, Nat.cast_ofNat,
    mul_div_mul_right _ _ (by positivity)]

/-- The value as the quotient that is rounded. -/
theorem toRat_eq_div :
    d.toRat = (d.coefficient * Nat.pow 10 d.exponent.toNat : ℕ) /
      (Nat.pow 10 (-d.exponent).toNat : ℕ) := by
  have hexponent : d.exponent = (d.exponent.toNat : ℤ) - ((-d.exponent).toNat : ℤ) := by omega
  have htens : (10 : ℚ) ^ d.exponent = 10 ^ d.exponent.toNat / 10 ^ (-d.exponent).toNat := by
    rw [← zpow_natCast, ← zpow_natCast, ← zpow_sub₀ (by norm_num), ← hexponent]
  rw [Nat.pow_eq, Nat.pow_eq, Nat.cast_mul, Nat.cast_pow, Nat.cast_pow, Nat.cast_ofNat, toRat,
    htens, mul_div_assoc]

theorem toRat_lt : d.toRat < 10 ^ d.magnitude := by
  have hlt : (d.coefficient : ℚ) < 10 ^ digitCount d.coefficient := by
    exact_mod_cast lt_pow_digitCount d.coefficient
  rw [toRat, magnitude, zpow_add₀ (by norm_num), zpow_natCast]
  exact mul_lt_mul_of_pos_right hlt (by positivity)

theorem le_toRat (h : d.coefficient ≠ 0) : 10 ^ (d.magnitude - 1) ≤ d.toRat := by
  have hle : (10 : ℚ) ^ (digitCount d.coefficient - 1) ≤ d.coefficient := by
    exact_mod_cast pow_digitCount_sub_one_le h
  have hmagnitude : d.magnitude - 1 = (digitCount d.coefficient - 1 : ℕ) + d.exponent := by
    have hpos := digitCount_pos d.coefficient
    rw [magnitude]
    omega
  rw [toRat, hmagnitude, zpow_add₀ (by norm_num), zpow_natCast]
  exact mul_le_mul_of_nonneg_right hle (by positivity)

open Binary64 in
/-- **The number that a decimal is rounded to is nearest to it.** -/
theorem exists_isNearest (negative : Bool) :
    ∃ rank, IsNearest d.toRat rank ∧ d.nearest negative = ofRank negative rank := by
  have hden : 0 < Nat.pow 10 (-d.exponent).toNat := Nat.pow_pos (by decide)
  have hrank :=
    isNearest_nearestRank ((d.coefficient * Nat.pow 10 d.exponent.toNat) <<< 1074) hden
  rw [shiftLeft_div, ← toRat_eq_div] at hrank
  have hpos := magnitude_strictMono Nat.zero_lt_one
  rw [magnitude_zero] at hpos
  rw [nearest]
  split_ifs with hzero hbig hsmall
  · refine ⟨0, isNearest_zero d.toRat_nonneg ?_, rfl⟩
    rw [toRat, hzero]
    simpa using hpos
  · have hlarge : Binary64.magnitude rankLimit ≤ d.toRat :=
      calc Binary64.magnitude rankLimit ≤ (10 : ℚ) ^ 309 := magnitude_rankLimit_le
        _ = (10 : ℚ) ^ (309 : ℤ) := (zpow_natCast 10 309).symm
        _ ≤ 10 ^ (d.magnitude - 1) := zpow_le_zpow_right₀ (by norm_num) (by omega)
        _ ≤ d.toRat := d.le_toRat hzero
    exact ⟨_, hrank, (ofRank_of_rankLimit_le negative (hrank.le_of_magnitude_le hlarge)).symm⟩
  · refine ⟨0, isNearest_zero d.toRat_nonneg ?_, rfl⟩
    calc 2 * d.toRat < 2 * 10 ^ d.magnitude := by linarith [d.toRat_lt]
      _ ≤ 2 * (10 : ℚ) ^ (-324 : ℤ) := by
          have := zpow_le_zpow_right₀ (show (1 : ℚ) ≤ 10 by norm_num) hsmall
          linarith
      _ = 2 * (10 ^ 324)⁻¹ := by rw [zpow_neg, zpow_ofNat]
      _ ≤ Binary64.magnitude 1 := le_magnitude_one
  · exact ⟨_, hrank, rfl⟩

end Decimal

/-! ### Literals -/

namespace Literal

/-- The value of a literal, apart from its sign. -/
def size (l : Literal) : ℚ :=
  (Nat.ofDigitChars 10 l.whole 0 + Nat.ofDigitChars 10 l.fraction 0 / 10 ^ l.fraction.length) *
    10 ^ l.exponent

/-- The number is the one that is nearest to the literal. A literal that is nearer to what would be
the next magnitude after the last one, or halfway to it, is nearest to infinity. -/
def Denotes (l : Literal) (x : Binary64) : Prop :=
  ∃ rank, Binary64.IsNearest l.size rank ∧ x = .ofRank l.negative rank

variable (l : Literal)

/-- The digits before and after the point, read as one whole number, are shifted back. -/
theorem toRat_decimal : l.decimal.toRat = l.size := by
  have hdigits : Nat.ofDigitChars 10 (l.whole ++ l.fraction) 0 =
      10 ^ l.fraction.length * Nat.ofDigitChars 10 l.whole 0 +
        Nat.ofDigitChars 10 l.fraction 0 := by
    rw [Nat.ofDigitChars_append, Nat.ofDigitChars_eq_ofDigitChars_zero]
  rw [Decimal.toRat, decimal, size, hdigits, zpow_sub₀ (by norm_num), zpow_natCast]
  push_cast
  field_simp

/-- **The value of a literal is the number nearest to it.** -/
theorem denotes_iff {x : Binary64} : l.Denotes x ↔ l.value = x := by
  obtain ⟨rank, hrank, hvalue⟩ := l.decimal.exists_isNearest l.negative
  rw [toRat_decimal] at hrank
  rw [value, hvalue]
  constructor
  · rintro ⟨rank', hrank', rfl⟩
    rw [hrank.eq hrank']
  · rintro rfl
    exact ⟨rank, hrank, rfl⟩

end Literal

end Worksheet
