import Mathlib.Data.EReal.Basic
import Worksheet.Binary64.Arithmetic
import Worksheet.Proofs.Binary64.Nearest
import Worksheet.Proofs.Binary64.Text

/-!
# Numbers as extended reals

A number of the format is an extended real: a rational number if it is finite, and otherwise one of
the two infinities. Only what is not a number has no such value. Both zeros have the same one, and
otherwise the value determines the number.

Numbers are compared by their keys, which are ranks with a sign. That this is the order of the
values is what makes it the order of numbers at all, and it is shown here for every pair of them.

## Main definitions

* `Binary64.toEReal?` — the extended real that a number is

## Main results

* `Binary64.lt_eq_true_iff` — numbers are ordered as their values are
* `Binary64.eq_or_zero_of_toEReal?_eq` — a value belongs to one number, but for the sign of zero
* `Binary64.toEReal?_ofNat` — the whole numbers below `2 ^ 53` are numbers of the format
-/

namespace Worksheet

namespace Binary64

/-- A magnitude with its sign. -/
def signedMagnitude (negative : Bool) (rank : ℕ) : ℚ :=
  if negative then -magnitude rank else magnitude rank

/-- The extended real that a number is, if it is one. -/
noncomputable def toEReal? : Binary64 → Option EReal
  | nan => none
  | infinite true => some ⊥
  | infinite false => some ⊤
  | finite negative rank => some ((signedMagnitude negative rank : ℝ) : EReal)

variable {x y : Binary64}

theorem zero_eq (negative : Bool) : zero negative = finite negative 0 := ofRank_of_lt negative 0

/-- Both zeros are zero. -/
theorem toEReal?_zero (negative : Bool) : (zero negative).toEReal? = some 0 := by
  rw [zero_eq, toEReal?, signedMagnitude, Fin.val_zero, magnitude_zero, neg_zero, ite_self,
    Rat.cast_zero, EReal.coe_zero]

theorem toEReal?_eq_none_iff : x.toEReal? = none ↔ x = nan := by
  rcases x with _ | ⟨_ | _⟩ | _ <;> simp [toEReal?]

theorem exists_toEReal? (h : x ≠ nan) : ∃ p, x.toEReal? = some p :=
  Option.ne_none_iff_exists'.mp (mt toEReal?_eq_none_iff.mp h)

/-! ### Order -/

theorem magnitude_nonneg (rank : ℕ) : 0 ≤ magnitude rank := by
  rw [← magnitude_zero]
  exact magnitude_strictMono.monotone (Nat.zero_le rank)

theorem magnitude_pos_iff {rank : ℕ} : 0 < magnitude rank ↔ 0 < rank := by
  rw [← magnitude_zero, magnitude_strictMono.lt_iff_lt]

/-- A negative magnitude is less than another one that is not negative, unless both are zero. -/
theorem neg_magnitude_lt_iff {rank rank' : ℕ} :
    -magnitude rank < magnitude rank' ↔ 0 < rank ∨ 0 < rank' := by
  have hle := magnitude_nonneg rank
  have hle' := magnitude_nonneg rank'
  rw [← magnitude_pos_iff, ← magnitude_pos_iff]
  constructor
  · intro h
    by_contra! hzero
    linarith
  · rintro (hpos | hpos) <;> linarith

/-- Magnitudes with their signs are ordered as their ranks with these signs. -/
theorem signedMagnitude_lt_iff {negative negative' : Bool} {rank rank' : ℕ} :
    signedMagnitude negative rank < signedMagnitude negative' rank' ↔
      (if negative then -(rank : ℤ) else rank) < (if negative' then -(rank' : ℤ) else rank') := by
  cases negative with
  | false =>
    cases negative' with
    | false =>
      have hlt : magnitude rank < magnitude rank' ↔ rank < rank' := magnitude_strictMono.lt_iff_lt
      simpa [signedMagnitude] using hlt
    | true =>
      have hle := magnitude_nonneg rank
      have hle' := magnitude_nonneg rank'
      have hnot : ¬ magnitude rank < -magnitude rank' := by linarith
      simp only [signedMagnitude, hnot, if_true, Bool.false_eq_true, if_false, false_iff]
      omega
  | true =>
    cases negative' with
    | false =>
      simp only [signedMagnitude, if_true, Bool.false_eq_true, if_false, neg_magnitude_lt_iff]
      omega
    | true =>
      have hlt : magnitude rank' < magnitude rank ↔ rank' < rank := magnitude_strictMono.lt_iff_lt
      simpa [signedMagnitude] using hlt

/-- **Numbers are ordered as their values are.** -/
theorem lt_eq_true_iff {p q : EReal} (hx : x.toEReal? = some p) (hy : y.toEReal? = some q) :
    x.lt y = true ↔ p < q := by
  rcases x with _ | ⟨_ | _⟩ | ⟨negative, rank⟩ <;>
    rcases y with _ | ⟨_ | _⟩ | ⟨negative', rank'⟩ <;> cases hx <;> cases hy <;>
      simp [lt, key?, rankLimit, signedMagnitude_lt_iff]
  -- left is a finite number beside an infinity, whose key no rank reaches
  all_goals split <;> omega

/-- What has a value has a key. -/
theorem exists_key? {p : EReal} (hx : x.toEReal? = some p) : ∃ a, x.key? = some a := by
  cases x with
  | nan => cases hx
  | infinite negative => exact ⟨_, rfl⟩
  | finite negative rank => exact ⟨_, rfl⟩

/-- **Numbers are equal when their values are.** -/
theorem equal_iff_exists_toEReal? :
    x.Equal y ↔ ∃ p, x.toEReal? = some p ∧ y.toEReal? = some p := by
  -- equal keys are those of which none is less, and so are equal values
  have hiff : ∀ p q a b, x.toEReal? = some p → y.toEReal? = some q → x.key? = some a →
      y.key? = some b → (a = b ↔ p = q) := by
    intro p q a b hp hq ha hb
    have hlt := lt_eq_true_iff hp hq
    have hgt := lt_eq_true_iff hq hp
    simp only [lt, ha, hb, decide_eq_true_eq] at hlt hgt
    rw [eq_iff_le_not_lt, eq_iff_le_not_lt, ← not_lt, ← not_lt, hlt, hgt]
  constructor
  · rintro ⟨hkey, hsome⟩
    have hx : x ≠ nan := by
      rintro rfl
      exact hsome rfl
    have hy : y ≠ nan := by
      rintro rfl
      exact hsome hkey
    obtain ⟨p, hp⟩ := exists_toEReal? hx
    obtain ⟨q, hq⟩ := exists_toEReal? hy
    obtain ⟨a, ha⟩ := exists_key? hp
    obtain rfl := (hiff p q a a hp hq ha (hkey ▸ ha)).mp rfl
    exact ⟨p, hp, hq⟩
  · rintro ⟨p, hp, hq⟩
    obtain ⟨a, ha⟩ := exists_key? hp
    obtain ⟨b, hb⟩ := exists_key? hq
    obtain rfl := (hiff p p a b hp hq ha hb).mpr rfl
    exact ⟨ha.trans hb.symm, by simp [ha]⟩

/-- **A value belongs to one number, but for the sign of zero.** -/
theorem eq_or_zero_of_toEReal?_eq (h : x.toEReal? = y.toEReal?) :
    x = y ∨ ∃ negative negative', x = zero negative ∧ y = zero negative' := by
  cases hx : x.toEReal? with
  | none =>
    have hy : y.toEReal? = none := h ▸ hx
    rw [toEReal?_eq_none_iff] at hx hy
    exact .inl (hx.trans hy.symm)
  | some p => exact (equal_iff_exists_toEReal?.mpr ⟨p, hx, h ▸ hx⟩).eq_or_zero

/-! ### Whole numbers -/

/-- A whole number below `2 ^ 53` is a magnitude: shifted until it has 53 bits, it is a significand,
and the binade is as many places below that of the ones. -/
theorem exists_units_eq {n : ℕ} (hn : n < 0x20000000000000) :
    ∃ rank : Fin 0x7ff0000000000000, units rank = n <<< 1074 := by
  rcases Nat.eq_zero_or_pos n with rfl | hpos
  · exact ⟨0, by decide⟩
  · have hlog : Nat.log2 n < 53 := (Nat.log2_lt hpos.ne').mpr hn
    obtain ⟨places, hplaces⟩ : ∃ places, Nat.log2 n + places = 52 := ⟨52 - Nat.log2 n, by omega⟩
    have hlow : 0x10000000000000 ≤ n * 2 ^ places :=
      calc 0x10000000000000 = 2 ^ Nat.log2 n * 2 ^ places := by rw [← Nat.pow_add, hplaces]
        _ ≤ n * 2 ^ places := Nat.mul_le_mul_right _ (Nat.log2_self_le hpos.ne')
    have hhigh : n * 2 ^ places ≤ 0x20000000000000 :=
      calc n * 2 ^ places ≤ 2 ^ (Nat.log2 n + 1) * 2 ^ places :=
            Nat.mul_le_mul_right _ Nat.lt_log2_self.le
        _ = 0x20000000000000 := by
          rw [← Nat.pow_add, show Nat.log2 n + 1 + places = 53 by omega]
    refine ⟨⟨n * 2 ^ places + (1074 - places) * 0x10000000000000, by omega⟩, ?_⟩
    rw [units_add hhigh (.inr hlow), ← Nat.shiftLeft_eq, ← Nat.shiftLeft_eq, ← Nat.shiftLeft_add,
      show places + (1074 - places) = 1074 by omega]

/-- Such a number is the one that the whole number is read as. -/
theorem exists_ofNat_eq {n : ℕ} (hn : n < 0x20000000000000) :
    ∃ rank : Fin 0x7ff0000000000000, ofNat n = finite false rank ∧ magnitude rank = n := by
  obtain ⟨rank, hunits⟩ := exists_units_eq hn
  refine ⟨rank, ?_, ?_⟩
  · rw [ofNat, nearest, ← hunits, ← Nat.mul_one (units rank), nearestRank_units rank Nat.one_pos,
      ofRank_of_lt]
  · rw [magnitude, hunits, ← one_mul (2 ^ 1074 : ℚ), ← Nat.cast_one, Decimal.shiftLeft_div,
      Nat.cast_one, div_one]

/-- **A whole number below `2 ^ 53` is a number of the format.** -/
theorem toEReal?_ofNat {n : ℕ} (hn : n < 0x20000000000000) :
    (ofNat n).toEReal? = some ((n : ℝ) : EReal) := by
  obtain ⟨rank, hnumber, hmagnitude⟩ := exists_ofNat_eq hn
  rw [hnumber, toEReal?, signedMagnitude, if_neg Bool.false_ne_true, hmagnitude, Rat.cast_natCast]

end Binary64

end Worksheet
