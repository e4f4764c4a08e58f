import Worksheet.Binary64

/-!
# Rounding to the nearest number

A quotient of whole numbers is rounded to the nearest magnitude, and halfway between two magnitudes
to the one with the even rank. The quotient is counted in units of the least positive magnitude.

Below `2 ^ 53` units every whole number of units is a magnitude. Above, only the multiples of a
power of two are, chosen so that the multiple has 53 bits. So the quotient is first divided by that
power, then rounded to a whole number, which is the significand. If rounding up fills a 54th bit,
the rank that is put together from significand and scale is that of the first magnitude of the next
binade, which is the right one.

## Main definitions

* `roundHalfEven` — the whole number nearest to a quotient, a tie going to the even one
* `Binary64.nearestRank` — the rank of the magnitude nearest to a quotient
* `Binary64.nearest` — the number nearest to a signed quotient

## Main results

* `Binary64.nearestRank_units` — a magnitude is nearest to itself
-/

namespace Worksheet

/-- The whole number nearest to `num / den`; of two equally near ones the even one. -/
def roundHalfEven (num den : Nat) : Nat :=
  let quotient := num / den
  let rest := num % den
  if 2 * rest < den then quotient
  else if den < 2 * rest then quotient + 1
  else quotient + quotient % 2

theorem roundHalfEven_mul {k den : Nat} (h : 0 < den) : roundHalfEven (k * den) den = k := by
  unfold roundHalfEven
  simp only [Nat.mul_div_cancel k h, Nat.mul_mod_left, Nat.mul_zero, h, if_true]

namespace Binary64

/-- The rank of the magnitude nearest to `num / den` units; of two equally near ones the even rank.
Past the last finite magnitude the ranks go on as if there were larger binades. -/
def nearestRank (num den : Nat) : Nat :=
  let shift := Nat.log2 (num / den) - 52
  roundHalfEven num (den <<< shift) + shift * 0x10000000000000

/-- The number nearest to `num / den` units, with the given sign. -/
def nearest (negative : Bool) (num den : Nat) : Binary64 := ofRank negative (nearestRank num den)

/-- The number nearest to a whole number. -/
def ofNat (n : Nat) : Binary64 := nearest false (n <<< 1074) 1

theorem log2_units_sub (rank : Nat) : Nat.log2 (units rank) - 52 = scale rank := by
  have hlt := significand_lt rank
  rcases Nat.eq_zero_or_pos (scale rank) with hzero | hpos
  · rw [units, hzero, Nat.shiftLeft_zero]
    rcases Nat.eq_zero_or_pos (significand rank) with hs | hs
    · rw [hs]
      decide
    · have : Nat.log2 (significand rank) < 53 := (Nat.log2_lt (by omega)).2 hlt
      omega
  · have hle := le_significand_of_scale_pos hpos
    have hrank : 0 < rank := by
      unfold scale at hpos
      omega
    have hlog : Nat.log2 (units rank) = 52 + scale rank := by
      rw [Nat.log2_eq_iff (Nat.ne_of_gt (units_pos hrank)), units, Nat.shiftLeft_eq]
      constructor
      · rw [Nat.pow_add]
        exact Nat.mul_le_mul_right _ hle
      · rw [show 52 + scale rank + 1 = 53 + scale rank by omega, Nat.pow_add]
        exact Nat.mul_lt_mul_of_pos_right hlt (Nat.two_pow_pos _)
    omega

/-- A magnitude is nearest to itself, whatever fraction it is written as. -/
theorem nearestRank_units (rank : Nat) {den : Nat} (h : 0 < den) :
    nearestRank (units rank * den) den = rank := by
  unfold nearestRank
  simp only [Nat.mul_div_cancel _ h, log2_units_sub]
  have hnum : units rank * den = significand rank * (den <<< scale rank) := by
    rw [units, Nat.shiftLeft_eq, Nat.shiftLeft_eq, Nat.mul_assoc, Nat.mul_comm _ den]
  have hden : 0 < den <<< scale rank := by
    rw [Nat.shiftLeft_eq]
    exact Nat.mul_pos h (Nat.two_pow_pos _)
  rw [hnum, roundHalfEven_mul hden]
  exact significand_add_scale rank

end Binary64

end Worksheet
