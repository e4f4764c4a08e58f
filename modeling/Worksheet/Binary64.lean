/-!
# Binary64 numbers

The numbers of a sheet are those of the 64-bit binary floating point format. They are kept as exact
data, so that every operation is a computation on whole numbers.

The non-negative finite numbers of the format, in increasing order, are numbered from zero: this
number is the *rank* of the magnitude. A binade holds `2 ^ 52` magnitudes, and there are 2047 of
them, the subnormal numbers being the first. Ranks, rather than fields of bits, are what this
library computes with: the word of a number is its rank together with a sign bit, the order of
magnitudes is the order of ranks, and the next larger magnitude has the next rank, also across
binades.

Every finite magnitude is a whole multiple of `2 ^ (-1074)`, the least positive one.
`Binary64.units` says which multiple.

## Main definitions

* `Binary64` — not a number, an infinity, or a finite number as sign and rank
* `Binary64.units` — a finite magnitude as a multiple of the least positive one
* `Binary64.ofBits`, `Binary64.toBits` — between numbers and 64-bit words
* `Binary64.key?`, `Binary64.lt` — the order of the numbers, in which both zeros are equal
* `Binary64.min`, `Binary64.max` — the lesser and the greater of two numbers

## Main results

* `Binary64.significand_add_scale` — significand and scale determine the rank
* `Binary64.ofBits_toBits` — the word of a number determines it
-/

namespace Worksheet

/-- A number of the 64-bit binary format. Words that are not numbers are not told apart. -/
inductive Binary64 where
  /-- Not a number. -/
  | nan
  /-- The infinity of the given sign. -/
  | infinite (negative : Bool)
  /-- The finite number of the given sign whose magnitude has the given rank. -/
  | finite (negative : Bool) (rank : Fin 0x7ff0000000000000)
deriving DecidableEq

namespace Binary64

/-- The number of finite magnitudes, which is the rank that an infinity would have. -/
def rankLimit : Nat := 0x7ff0000000000000

/-- The number with the given sign and rank; past the last finite magnitude there is infinity. -/
def ofRank (negative : Bool) (rank : Nat) : Binary64 :=
  if h : rank < 0x7ff0000000000000 then finite negative ⟨rank, h⟩ else infinite negative

/-- The zero of the given sign. -/
def zero (negative : Bool) : Binary64 := ofRank negative 0

/-! ### Magnitudes -/

/-- How far the significand of a magnitude is shifted. The subnormal numbers and the first binade of
normal ones are not shifted, and every further binade is shifted by one place more. -/
def scale (rank : Nat) : Nat := rank / 0x10000000000000 - 1

/-- The significand of a magnitude, a whole number below `2 ^ 53`. -/
def significand (rank : Nat) : Nat := rank - scale rank * 0x10000000000000

/-- The magnitude of the given rank as a multiple of the least positive one. -/
def units (rank : Nat) : Nat := significand rank <<< scale rank

theorem significand_lt (rank : Nat) : significand rank < 0x20000000000000 := by
  unfold significand scale
  omega

/-- A shifted significand has its leading bit in place 52. -/
theorem le_significand_of_scale_pos {rank : Nat} (h : 0 < scale rank) :
    0x10000000000000 ≤ significand rank := by
  unfold significand scale at *
  omega

theorem significand_add_scale (rank : Nat) :
    significand rank + scale rank * 0x10000000000000 = rank := by
  unfold significand scale
  omega

theorem units_pos {rank : Nat} (h : 0 < rank) : 0 < units rank := by
  rw [units, Nat.shiftLeft_eq]
  refine Nat.mul_pos ?_ (Nat.two_pow_pos _)
  unfold significand scale
  omega

/-! ### Words -/

/-- The number of a word: its top bit is the sign, and the others are the rank. -/
def ofBits (bits : Nat) : Binary64 :=
  let negative := bits / 0x8000000000000000 != 0
  let rank := bits % 0x8000000000000000
  if rank ≤ 0x7ff0000000000000 then ofRank negative rank else nan

/-- The word of a number. -/
def toBits : Binary64 → Nat
  | nan => 0x7ff8000000000000
  | infinite negative => negative.toNat * 0x8000000000000000 + 0x7ff0000000000000
  | finite negative rank => negative.toNat * 0x8000000000000000 + rank

theorem ofBits_toBits (x : Binary64) : ofBits x.toBits = x := by
  cases x with
  | nan => decide
  | infinite negative => cases negative <;> decide
  | finite negative rank =>
    have hrank := rank.isLt
    have hword : (negative.toNat * 0x8000000000000000 + (rank : Nat)) % 0x8000000000000000
        = rank := by
      omega
    have hsign : (negative.toNat * 0x8000000000000000 + (rank : Nat)) / 0x8000000000000000
        = negative.toNat := by
      omega
    simp only [toBits, ofBits, hword, hsign, Nat.le_of_lt hrank, if_true, ofRank, hrank, dite_true]
    cases negative <;> rfl

/-! ### Order -/

/-- A number's place in the order of the numbers, if it has one. Both zeros are at place zero. -/
def key? : Binary64 → Option Int
  | nan => none
  | infinite negative => some (if negative then -(rankLimit : Int) else rankLimit)
  | finite negative rank => some (if negative then -(rank : Int) else rank)

/-- Whether `x` is less than `y`. -/
def lt (x y : Binary64) : Bool :=
  match x.key?, y.key? with
  | some a, some b => decide (a < b)
  | _, _ => false

/-- The lesser of two numbers; what is not a number gives way to one that is. -/
def min (x y : Binary64) : Binary64 :=
  if x = nan then y else if y = nan then x else if y.lt x then y else x

/-- The greater of two numbers; what is not a number gives way to one that is. -/
def max (x y : Binary64) : Binary64 :=
  if x = nan then y else if y = nan then x else if x.lt y then y else x

/-- Whether the number is a finite one. -/
def isFinite : Binary64 → Bool
  | finite _ _ => true
  | nan | infinite _ => false

end Binary64

end Worksheet
