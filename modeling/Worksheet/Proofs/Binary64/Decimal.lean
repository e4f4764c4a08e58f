import Mathlib.Tactic.Ring
import Worksheet.Binary64.Decimal

/-!
# Decimals of equal value

The number nearest to a decimal depends on the value of the decimal only. Two decimals have equal
values when one is the other with zeros appended to its coefficient and the exponent lowered by as
many places, so that is the form in which it is stated here.

Neither of the two steps of `Decimal.nearest` sees the difference. Its answers for decimals out of
range depend on the place of the first digit, which appended zeros leave alone. For the others, the
quotient that is rounded has a numerator and a denominator with another common factor.

## Main results

* `Binary64.nearestRank_congr` — equal quotients are rounded to equal ranks
* `Decimal.digitCount_mul_pow` — appended zeros are counted as digits
* `Decimal.nearest_mul_pow` — they do not change the number that is nearest
-/

namespace Worksheet

/-! ### Quotients -/

theorem roundHalfEven_mul_mul (num den : Nat) {m : Nat} (hm : 0 < m) :
    roundHalfEven (num * m) (den * m) = roundHalfEven num den := by
  have hlt : ∀ a b : Nat, a * m < b * m ↔ a < b := fun a b => Nat.mul_lt_mul_right hm
  simp only [roundHalfEven, Nat.mul_div_mul_right _ _ hm, Nat.mul_mod_mul_right, ← Nat.mul_assoc,
    hlt]

namespace Binary64

theorem nearestRank_mul_mul (num den : Nat) {m : Nat} (hm : 0 < m) :
    nearestRank (num * m) (den * m) = nearestRank num den := by
  have hshift : ∀ k, (den * m) <<< k = den <<< k * m := fun k => by
    rw [Nat.shiftLeft_eq, Nat.shiftLeft_eq, Nat.mul_right_comm]
  simp only [nearestRank, Nat.mul_div_mul_right _ _ hm, hshift, roundHalfEven_mul_mul _ _ hm]

/-- Equal quotients are rounded to equal ranks. -/
theorem nearestRank_congr {num den num' den' : Nat} (hden : 0 < den) (hden' : 0 < den')
    (h : num * den' = num' * den) : nearestRank num den = nearestRank num' den' :=
  calc nearestRank num den = nearestRank (num * den') (den * den') :=
        (nearestRank_mul_mul num den hden').symm
    _ = nearestRank (num' * den) (den' * den) := by rw [h, Nat.mul_comm den]
    _ = nearestRank num' den' := nearestRank_mul_mul num' den' hden

end Binary64

namespace Decimal

/-! ### Digits -/

theorem digitCount_le_iff {n k : Nat} (hk : 0 < k) : digitCount n ≤ k ↔ n < 10 ^ k := by
  rw [digitCount_eq]
  exact Nat.length_toDigits_le_iff (by decide) hk

theorem digitCount_pos (n : Nat) : 0 < digitCount n := by
  rw [digitCount_eq]
  exact List.length_pos_iff.mpr Nat.toDigits_ne_nil

theorem lt_pow_digitCount (n : Nat) : n < 10 ^ digitCount n :=
  (digitCount_le_iff (digitCount_pos n)).mp (Nat.le_refl _)

theorem pow_digitCount_sub_one_le {n : Nat} (hn : n ≠ 0) : 10 ^ (digitCount n - 1) ≤ n := by
  rcases Nat.eq_zero_or_pos (digitCount n - 1) with hzero | hpos
  · rw [hzero]
    exact Nat.one_le_iff_ne_zero.mpr hn
  · rw [← Nat.not_lt, ← digitCount_le_iff hpos]
    omega

/-- A zero appended to a number other than zero is one more digit. -/
theorem digitCount_mul_pow {n : Nat} (hn : 0 < n) (k : Nat) :
    digitCount (n * 10 ^ k) = digitCount n + k := by
  have hpow : 0 < 10 ^ k := Nat.pow_pos (by decide)
  refine Nat.le_antisymm ?_ ?_
  · rw [digitCount_le_iff (Nat.add_pos_left (digitCount_pos n) k), Nat.pow_add]
    exact Nat.mul_lt_mul_of_pos_right (lt_pow_digitCount n) hpow
  · have hlt : n * 10 ^ k < 10 ^ digitCount (n * 10 ^ k) := lt_pow_digitCount _
    -- the number has more than `k` digits, so `k` of them can be taken away
    have hk : k < digitCount (n * 10 ^ k) := by
      rw [← Nat.pow_lt_pow_iff_right (a := 10) (by decide)]
      exact Nat.lt_of_le_of_lt (Nat.le_mul_of_pos_left _ hn) hlt
    have hn' : n < 10 ^ (digitCount (n * 10 ^ k) - k) := by
      refine Nat.lt_of_mul_lt_mul_right (a := 10 ^ k) ?_
      rwa [← Nat.pow_add, Nat.sub_add_cancel (Nat.le_of_lt hk)]
    have hle := (digitCount_le_iff (Nat.sub_pos_of_lt hk)).mpr hn'
    omega

theorem magnitude_mul_pow {n : Nat} (hn : 0 < n) (k : Nat) (e : Int) :
    magnitude ⟨n * 10 ^ k, e⟩ = magnitude ⟨n, e + k⟩ := by
  simp only [magnitude, digitCount_mul_pow hn]
  omega

/-! ### The nearest number -/

/-- The rank nearest to a decimal that is neither zero nor out of range, in units of any size. -/
theorem nearestRank_mul_pow (n k places : Nat) (e : Int) :
    Binary64.nearestRank ((n * 10 ^ k * Nat.pow 10 e.toNat) <<< places) (Nat.pow 10 (-e).toNat) =
      Binary64.nearestRank ((n * Nat.pow 10 (e + k).toNat) <<< places)
        (Nat.pow 10 (-(e + k)).toNat) := by
  refine Binary64.nearestRank_congr (Nat.pow_pos (by decide)) (Nat.pow_pos (by decide)) ?_
  have hexp : k + e.toNat + (-(e + k)).toNat = (e + k).toNat + (-e).toNat := by omega
  rw [Nat.shiftLeft_eq, Nat.shiftLeft_eq]
  calc n * 10 ^ k * 10 ^ e.toNat * 2 ^ places * 10 ^ (-(e + k)).toNat
      = n * 2 ^ places * 10 ^ (k + e.toNat + (-(e + k)).toNat) := by ring
    _ = n * 2 ^ places * 10 ^ ((e + k).toNat + (-e).toNat) := by rw [hexp]
    _ = n * 10 ^ (e + k).toNat * 2 ^ places * 10 ^ (-e).toNat := by ring

/-- **Decimals of equal value are nearest to the same number.** -/
theorem nearest_mul_pow (negative : Bool) (n k : Nat) (e : Int) :
    nearest negative ⟨n * 10 ^ k, e⟩ = nearest negative ⟨n, e + k⟩ := by
  rcases Nat.eq_zero_or_pos n with rfl | hn
  · simp [nearest]
  · have hpos : 0 < n * 10 ^ k := Nat.mul_pos hn (Nat.pow_pos (by decide))
    simp only [nearest, Nat.ne_of_gt hn, Nat.ne_of_gt hpos, if_false, magnitude_mul_pow hn,
      Binary64.nearest, nearestRank_mul_pow]

end Decimal

end Worksheet
