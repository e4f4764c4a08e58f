import Worksheet.Binary64.Text
import Worksheet.Proofs.Binary64.Decimal

/-!
# The shortest decimal of a number

A number is written with the digits of its shortest decimal, and it has to be the same number when
they are read. The search for that decimal takes a candidate only if it reads back, so what is to be
shown is that the candidate it ends with does, from which no digit is dropped. This is the exact
decimal. Its value is a magnitude of the format, and a magnitude is nearest to itself.

Reading does not look at the value of a decimal whose first digit is too far from the point. The
exact decimal of a finite number is never that far: it is less than `2 ^ 1024`, and at least
`2 ^ (-1074)` unless it is zero.

## Main results

* `Binary64.readsBack_exact` — the exact decimal of a finite number reads back
* `Binary64.nearest_shortest` — so does the shortest one, with either sign
-/

namespace Worksheet

namespace Binary64

/-! ### Signs -/

theorem ofRank_of_lt (negative : Bool) (rank : Fin 0x7ff0000000000000) :
    ofRank negative rank = finite negative rank := by
  rw [ofRank, dif_pos rank.isLt]

theorem eq_of_ofRank_eq_finite {negative : Bool} {n : Nat} {rank : Fin 0x7ff0000000000000}
    (h : ofRank negative n = finite negative rank) : n = rank := by
  rw [ofRank] at h
  split at h
  · cases h
    rfl
  · cases h

end Binary64

namespace Decimal

open Binary64 in
/-- The sign is put in front of a rank that does not depend on it. -/
theorem exists_nearest_eq_ofRank (d : Decimal) :
    ∃ n, ∀ negative, d.nearest negative = ofRank negative n := by
  by_cases hzero : d.coefficient = 0
  · exact ⟨0, fun negative => by rw [nearest, if_pos hzero, zero]⟩
  · by_cases hbig : 310 ≤ d.magnitude
    · refine ⟨rankLimit, fun negative => ?_⟩
      rw [nearest, if_neg hzero, if_pos hbig, ofRank, dif_neg (by decide)]
    · by_cases hsmall : d.magnitude ≤ -324
      · refine ⟨0, fun negative => ?_⟩
        rw [nearest, if_neg hzero, if_neg hbig, if_pos hsmall, zero]
      · refine ⟨nearestRank ((d.coefficient * Nat.pow 10 d.exponent.toNat) <<< 1074)
          (Nat.pow 10 (-d.exponent).toNat), fun negative => ?_⟩
        rw [nearest, if_neg hzero, if_neg hbig, if_neg hsmall, Binary64.nearest]

/-- A decimal that reads back without a sign reads back with one. -/
theorem nearest_eq_finite {d : Decimal} {rank : Fin 0x7ff0000000000000}
    (h : d.nearest false = .finite false rank) (negative : Bool) :
    d.nearest negative = .finite negative rank := by
  obtain ⟨n, hn⟩ := d.exists_nearest_eq_ofRank
  rw [hn] at h ⊢
  rw [Binary64.eq_of_ofRank_eq_finite h, Binary64.ofRank_of_lt]

end Decimal

/-! ### The shortest decimal -/

namespace Binary64

variable (rank : Fin 0x7ff0000000000000)

theorem units_lt_of_scale_le {n k : Nat} (h : scale n ≤ k) : units n < Nat.pow 2 (53 + k) := by
  rw [units, Nat.shiftLeft_eq, Nat.pow_eq, Nat.pow_add]
  exact Nat.mul_lt_mul_of_lt_of_le (significand_lt n) (Nat.pow_le_pow_right (by decide) h)
    (Nat.two_pow_pos _)

/-- Many factors of five make many digits. -/
theorem lt_digitCount_mul_pow {u digits places : Nat} (h : Nat.pow 10 digits ≤ Nat.pow 5 places)
    (hdigits : 0 < digits) (hu : 0 < u) :
    digits < Decimal.digitCount (u * Nat.pow 5 places) := by
  rw [← Nat.not_le, Decimal.digitCount_le_iff hdigits, Nat.not_lt]
  exact Nat.le_trans h (Nat.le_mul_of_pos_left _ hu)

theorem digitCount_mul_pow_le {u bound digits places : Nat}
    (h : bound * Nat.pow 5 places ≤ Nat.pow 10 digits) (hdigits : 0 < digits) (hu : u < bound) :
    Decimal.digitCount (u * Nat.pow 5 places) ≤ digits := by
  rw [Decimal.digitCount_le_iff hdigits]
  exact Nat.lt_of_lt_of_le (Nat.mul_lt_mul_of_pos_right hu (Nat.pow_pos (by decide))) h

/-- A magnitude is nearest to the exact decimal with as many places as there are binary ones. -/
theorem nearestRank_exact (n places : Nat) :
    nearestRank ((units n * Nat.pow 5 places * Nat.pow 10 0) <<< places) (Nat.pow 10 places) =
      n := by
  have htens : (units n * Nat.pow 5 places * Nat.pow 10 0) <<< places =
      units n * Nat.pow 10 places := by
    rw [Nat.shiftLeft_eq]
    calc units n * 5 ^ places * 10 ^ 0 * 2 ^ places
        = units n * (5 ^ places * 2 ^ places) := by ring
      _ = units n * 10 ^ places := by rw [← Nat.mul_pow]
  rw [htens]
  exact nearestRank_units n (Nat.pow_pos (by decide))

theorem exactCoefficient_eq_zero {n : Nat} (h : n = 0) : exactCoefficient n = 0 := by
  have hunits : units n = 0 := by rw [h]; rfl
  simp only [exactCoefficient, hunits, Nat.zero_mul]

/-- The exact decimal of a magnitude other than zero is within the range that is read exactly. -/
theorem magnitude_exact (hpos : 0 < rank.val) :
    -324 < Decimal.magnitude ⟨exactCoefficient rank, -1074⟩ ∧
      Decimal.magnitude ⟨exactCoefficient rank, -1074⟩ < 310 := by
  have hscale : scale rank ≤ 2045 := by
    have hrank := rank.isLt
    rw [scale]
    omega
  have hunits := units_lt_of_scale_le hscale
  have hleast : Nat.pow 10 750 ≤ Nat.pow 5 1074 := by decide +kernel
  have hgreatest : Nat.pow 2 (53 + 2045) * Nat.pow 5 1074 ≤ Nat.pow 10 1383 := by decide +kernel
  have hlow := lt_digitCount_mul_pow hleast (by decide) (units_pos hpos)
  have hhigh := digitCount_mul_pow_le hgreatest (by decide) hunits
  rw [← exactCoefficient] at hlow hhigh
  simp only [Decimal.magnitude]
  omega

/-- The exact decimal reads back, so the search for the shortest one ends with one that does. -/
theorem readsBack_exact : readsBack rank ⟨exactCoefficient rank, -1074⟩ = true := by
  rw [readsBack, decide_eq_true_eq, ← ofRank_of_lt, Decimal.nearest]
  rcases Nat.eq_zero_or_pos rank.val with hzero | hpos
  · rw [if_pos (exactCoefficient_eq_zero hzero), zero, hzero]
  · obtain ⟨hlow, hhigh⟩ := magnitude_exact rank hpos
    have hcoefficient : exactCoefficient rank ≠ 0 := fun hzero => by
      rw [hzero] at hlow
      exact absurd hlow (by decide)
    rw [if_neg hcoefficient, if_neg (Int.not_le.mpr hhigh), if_neg (Int.not_le.mpr hlow), nearest]
    -- the number of places is given a name, so that no power of it is computed
    obtain ⟨places, hplaces⟩ : ∃ places : Nat, 1074 = places := ⟨1074, rfl⟩
    have hwhole : (-1074 : Int).toNat = 0 := rfl
    have hfraction : (- -1074 : Int).toNat = 1074 := rfl
    dsimp only
    rw [hwhole, hfraction, exactCoefficient, hplaces, nearestRank_exact]

/-- A candidate is taken only if it reads back. -/
theorem readsBack_ite {rank : Fin 0x7ff0000000000000} {candidate other : Decimal}
    (h : readsBack rank other = true) :
    readsBack rank (if readsBack rank candidate then candidate else other) = true := by
  by_cases hcandidate : readsBack rank candidate = true
  · rwa [if_pos hcandidate]
  · rwa [if_neg hcandidate]

theorem readsBack_shortestDropping (dropped : Nat) :
    readsBack rank (shortestDropping rank dropped) = true := by
  induction dropped with
  | zero => exact readsBack_exact rank
  | succ dropped ih =>
    rw [shortestDropping]
    exact readsBack_ite (readsBack_ite ih)

/-- **The shortest decimal of a number reads back as that number.** -/
theorem nearest_shortest (negative : Bool) :
    (shortest rank).nearest negative = finite negative rank :=
  Decimal.nearest_eq_finite (of_decide_eq_true (readsBack_shortestDropping rank _)) negative

end Binary64

end Worksheet
