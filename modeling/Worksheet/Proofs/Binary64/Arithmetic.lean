import Mathlib.Data.EReal.Operations
import Worksheet.Proofs.Binary64.Extended

/-!
# Sums and quotients are nearest to the exact ones

Addition and division compute with whole numbers of units, and nothing in them says that these stand
for a sum or a quotient. Here it is said in terms of rational numbers. What is computed is the
number nearest to the exact result, as the value of a literal is the number nearest to the literal,
and there is only one such number (`Binary64.RoundsTo`).

The sign of a zero does not show in its value. Each operation has a rule of its own for it, which
applies when the exact result is zero. A result that is only too small for the format is rounded to
zero and keeps its sign.

A list is added up from the negative zero, as this is the one number that changes no number when it
is added to it. A list of negative zeros added up from the other zero would come to that one.

## Main definitions

* `Binary64.RoundsTo` — the number nearest to a rational number, with its sign

## Main results

* `Binary64.roundsTo_ofNat` — a whole number is read as the number nearest to it
* `Binary64.add_finite_eq_iff` — a sum is the number nearest to the exact sum
* `Binary64.toEReal?_add` — a sum with an infinity is exact
* `Binary64.div_finite_eq_iff` — a quotient is the number nearest to the exact quotient
* `Binary64.add_eq_nan_iff`, `Binary64.div_eq_nan_iff` — when there is no sum, and no quotient
* `Binary64.total_singleton`, `Binary64.roundsTo_total_append` — a list is added up number by number
-/

namespace Worksheet

namespace Binary64

variable {q : ℚ} {rank : ℕ} {negative : Bool} {x y z z' : Binary64}

/-! ### Rounding -/

/-- The number `z` is nearest to `q`. It has the sign of `q`, or the given one if `q` is zero. -/
def RoundsTo (q : ℚ) (negative : Bool) (z : Binary64) : Prop :=
  ∃ rank, IsNearest |q| rank ∧ z = ofRank (if q = 0 then negative else decide (q < 0)) rank

theorem RoundsTo.eq (h : RoundsTo q negative z) (h' : RoundsTo q negative z') : z = z' := by
  obtain ⟨rank, hrank, rfl⟩ := h
  obtain ⟨rank', hrank', rfl⟩ := h'
  rw [hrank.eq hrank']

theorem RoundsTo.eq_iff (h : RoundsTo q negative z) : z = z' ↔ RoundsTo q negative z' := by
  constructor
  · rintro rfl
    exact h
  · exact h.eq

/-- The given sign has no part in what is rounded to, except for zero. -/
theorem RoundsTo.of_ne_zero {negative' : Bool} (h : RoundsTo q negative z) (hq : q ≠ 0) :
    RoundsTo q negative' z := by
  obtain ⟨rank, hrank, rfl⟩ := h
  exact ⟨rank, hrank, by rw [if_neg hq, if_neg hq]⟩

theorem RoundsTo.ne_nan (h : RoundsTo q negative z) : z ≠ nan := by
  obtain ⟨rank, -, rfl⟩ := h
  rw [ofRank]
  split
  · exact Binary64.noConfusion
  · exact Binary64.noConfusion

/-- A size with a sign rounds to the rank nearest to the size, with that sign. -/
theorem roundsTo_ite {size : ℚ} (hsize : 0 ≤ size) (hrank : IsNearest size rank) :
    RoundsTo (if negative then -size else size) negative (ofRank negative rank) := by
  cases negative with
  | false =>
    rw [if_neg Bool.false_ne_true]
    refine ⟨rank, ?_, ?_⟩
    · rwa [abs_of_nonneg hsize]
    · rw [decide_eq_false (not_lt.mpr hsize), ite_self]
  | true =>
    rw [if_pos rfl]
    refine ⟨rank, ?_, ?_⟩
    · rwa [abs_neg, abs_of_nonneg hsize]
    · split
      · rfl
      · rename_i hne
        have hpos : 0 < size := lt_of_le_of_ne hsize fun h => hne (by rw [← h, neg_zero])
        rw [decide_eq_true (neg_neg_of_pos hpos)]

/-- A whole number is read as the number nearest to it. -/
theorem roundsTo_ofNat (n : ℕ) : RoundsTo n false (ofNat n) := by
  have hrank := isNearest_nearestRank (n <<< 1074) Nat.one_pos
  rw [Decimal.shiftLeft_div, Nat.cast_one, div_one] at hrank
  have hrounds : RoundsTo (if false then -n else n) false (ofRank false _) :=
    roundsTo_ite n.cast_nonneg hrank
  rwa [if_neg Bool.false_ne_true] at hrounds

theorem isNearest_magnitude (rank : ℕ) : IsNearest (magnitude rank) rank := by
  have hzero : |magnitude rank - magnitude rank| = 0 := by rw [sub_self, abs_zero]
  constructor
  · intro other
    rw [hzero]
    exact abs_nonneg _
  · intro other hne heq
    rw [hzero, eq_comm, abs_eq_zero, sub_eq_zero] at heq
    exact absurd (magnitude_strictMono.injective heq).symm hne

/-- A number is nearest to itself. -/
theorem roundsTo_finite (negative : Bool) (rank : Fin 0x7ff0000000000000) :
    RoundsTo (signedMagnitude negative rank) negative (finite negative rank) := by
  rw [← ofRank_of_lt]
  exact roundsTo_ite (magnitude_nonneg rank) (isNearest_magnitude rank)

/-! ### Sums -/

variable {a b : Bool} {j k : Fin 0x7ff0000000000000}

theorem signedMagnitude_eq_div (negative : Bool) (rank : ℕ) :
    signedMagnitude negative rank = signedUnits negative rank / 2 ^ 1074 := by
  cases negative with
  | false =>
    rw [signedMagnitude, signedUnits, if_neg Bool.false_ne_true, if_neg Bool.false_ne_true,
      magnitude, Int.cast_natCast]
  | true =>
    rw [signedMagnitude, signedUnits, if_pos rfl, if_pos rfl, magnitude, Int.cast_neg,
      Int.cast_natCast, neg_div]

/-- A whole number of units other than zero is rounded by its size and its sign. -/
theorem roundsTo_units {sum : ℤ} (hne : sum ≠ 0) :
    RoundsTo (sum / 2 ^ 1074) negative (nearest (decide (sum < 0)) sum.natAbs 1) := by
  have hunit : (0 : ℚ) < 2 ^ 1074 := by positivity
  have hrank := isNearest_nearestRank sum.natAbs Nat.one_pos
  rw [Nat.cast_one, one_mul] at hrank
  have hsign : (if decide (sum < 0) then -(sum.natAbs / 2 ^ 1074 : ℚ) else sum.natAbs / 2 ^ 1074) =
      sum / 2 ^ 1074 := by
    rw [Nat.cast_natAbs]
    by_cases hneg : sum < 0
    · rw [if_pos (decide_eq_true hneg), abs_of_neg hneg, Int.cast_neg, neg_div, neg_neg]
    · rw [if_neg (by simpa using hneg), abs_of_nonneg (not_lt.mp hneg)]
  have hrounds : RoundsTo _ (decide (sum < 0)) (ofRank _ _) :=
    roundsTo_ite (div_nonneg (Nat.cast_nonneg _) hunit.le) hrank
  rw [hsign] at hrounds
  exact hrounds.of_ne_zero (div_ne_zero (Int.cast_ne_zero.mpr hne) hunit.ne')

/-- The sum of the units is the exact sum in units. -/
theorem roundsTo_add (a b : Bool) (j k : Fin 0x7ff0000000000000) :
    RoundsTo (signedMagnitude a j + signedMagnitude b k) (a && b)
      ((finite a j).add (finite b k)) := by
  rw [signedMagnitude_eq_div, signedMagnitude_eq_div, ← add_div, ← Int.cast_add]
  simp only [add]
  split
  · rename_i hzero
    have hnearest := roundsTo_finite (a && b) 0
    rwa [signedMagnitude, Fin.val_zero, magnitude_zero, neg_zero, ite_self, ← ofRank_of_lt,
      ← zero_div (2 ^ 1074), ← Int.cast_zero, ← hzero] at hnearest
  · rename_i hne
    exact roundsTo_units hne

/-- **A sum is the number nearest to the exact sum.** If that is zero, the sum is negative only if
both numbers are. -/
theorem add_finite_eq_iff :
    (finite a j).add (finite b k) = z ↔
      RoundsTo (signedMagnitude a j + signedMagnitude b k) (a && b) z :=
  (roundsTo_add a b j k).eq_iff

/-- Only infinities of opposite sign have no sum. -/
theorem add_eq_nan_iff :
    x.add y = nan ↔
      x = nan ∨ y = nan ∨ ∃ negative, x = infinite negative ∧ y = infinite !negative := by
  cases x with
  | nan => simp [add]
  | infinite a =>
    cases y with
    | nan => simp [add]
    | infinite b => cases a <;> cases b <;> simp [add]
    | finite b k => simp [add]
  | finite a j =>
    cases y with
    | nan => simp [add]
    | infinite b => simp [add]
    | finite b k => simpa using (roundsTo_add a b j k).ne_nan

/-- A sum with an infinity is exact. -/
theorem toEReal?_add {p p' : EReal} (hx : x.toEReal? = some p) (hy : y.toEReal? = some p')
    (hinfinite : x.isFinite = false ∨ y.isFinite = false) (hsum : x.add y ≠ nan) :
    (x.add y).toEReal? = some (p + p') := by
  cases x with
  | nan => cases hx
  | infinite a =>
    cases y with
    | nan => cases hy
    | infinite b =>
      -- infinities of opposite sign are left out, as they have no sum
      cases a <;> cases b <;> cases hx <;> cases hy <;> simp_all [add, toEReal?]
    | finite b k => cases a <;> cases hx <;> cases hy <;> simp [add, toEReal?]
  | finite a j =>
    cases y with
    | nan => cases hy
    | infinite b => cases b <;> cases hx <;> cases hy <;> simp [add, toEReal?]
    | finite b k => simp [isFinite] at hinfinite

/-! ### Quotients -/

theorem magnitude_div (j k : ℕ) : magnitude j / magnitude k = (units j / units k : ℚ) := by
  rw [magnitude, magnitude, div_div_div_cancel_right₀ (by positivity)]

theorem signedMagnitude_div (a b : Bool) (j k : ℕ) :
    signedMagnitude a j / signedMagnitude b k =
      if a != b then -(magnitude j / magnitude k) else magnitude j / magnitude k := by
  cases a <;> cases b <;> simp [signedMagnitude, neg_div, div_neg]

/-- The quotient of the units is the exact quotient, and it is taken in units again. -/
theorem roundsTo_div (a b : Bool) (j : Fin 0x7ff0000000000000) (hk : k ≠ 0) :
    RoundsTo (signedMagnitude a j / signedMagnitude b k) (a != b)
      ((finite a j).div (finite b k)) := by
  have hval : k.val ≠ 0 := fun h => hk (Fin.ext h)
  have hrank := isNearest_nearestRank (units j <<< 1074) (units_pos (Nat.pos_of_ne_zero hval))
  rw [Decimal.shiftLeft_div, ← magnitude_div] at hrank
  rw [signedMagnitude_div, div, if_neg hval]
  exact roundsTo_ite (div_nonneg (magnitude_nonneg j) (magnitude_nonneg k)) hrank

/-- **A quotient is the number nearest to the exact quotient.** It is negative if the signs differ,
also if it is zero. -/
theorem div_finite_eq_iff (hk : k ≠ 0) :
    (finite a j).div (finite b k) = z ↔
      RoundsTo (signedMagnitude a j / signedMagnitude b k) (a != b) z :=
  (roundsTo_div a b j hk).eq_iff

/-- Only two infinities and two zeros have no quotient. -/
theorem div_eq_nan_iff :
    x.div y = nan ↔
      x = nan ∨ y = nan ∨ ∃ a b, x = infinite a ∧ y = infinite b ∨ x = zero a ∧ y = zero b := by
  simp only [zero_eq]
  cases x with
  | nan => simp [div]
  | infinite a => cases y <;> simp [div]
  | finite a j =>
    cases y with
    | nan => simp [div]
    | infinite b => simp [div, zero_eq]
    | finite b k =>
      by_cases hk : k = 0
      · subst hk
        by_cases hj : j = 0
        · simp [div, hj]
        · simp [div, hj]
      · simpa [hk] using (roundsTo_div a b j hk).ne_nan

/-! ### Totals -/

/-- The negative zero changes no number when it is added to it. -/
theorem zero_true_add (x : Binary64) : (zero true).add x = x := by
  cases x with
  | nan => rfl
  | infinite negative => rfl
  | finite negative rank =>
    rw [zero_eq, add_finite_eq_iff, signedMagnitude, if_pos rfl, Fin.val_zero, magnitude_zero,
      neg_zero, zero_add, Bool.true_and]
    exact roundsTo_finite negative rank

theorem total_singleton (x : Binary64) : total [x] = x := zero_true_add x

/-- A list is added up number by number, and each time the sum is rounded. -/
theorem roundsTo_total_append {xs : List Binary64} (htotal : total xs = finite a j) (b : Bool)
    (k : Fin 0x7ff0000000000000) :
    RoundsTo (signedMagnitude a j + signedMagnitude b k) (a && b) (total (xs ++ [finite b k])) := by
  have happend : total (xs ++ [finite b k]) = (total xs).add (finite b k) := List.foldl_append
  rw [happend, htotal]
  exact roundsTo_add a b j k

end Binary64

end Worksheet
