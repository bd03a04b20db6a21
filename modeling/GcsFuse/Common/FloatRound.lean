import Mathlib.Algebra.Order.Ring.Int
import Mathlib.Data.UInt
import Mathlib.Data.Int.Notation
import Mathlib.Order.Basic
/-!
# Integers through a binary floating-point format

Converting an integer to a binary floating-point number with a `p`-bit
significand rounds it to the nearest value that has such a significand,
ties to even (IEEE 754 round to nearest). The result is again an
integer, so converting it back is exact: the round trip is `roundInt p`.

Below `2 ^ p` every integer is representable and the round trip is the
identity (`roundInt_of_lt`); just above it, the first tie already goes
down to the even neighbour (`roundNat_two_pow_add_one`).
-/

namespace GcsFuse

namespace FloatRound

/-- The nearest natural number to `n / P`, ties to even. -/
def rne (n P : ℕ) : ℕ :=
  if P < 2 * (n % P) ∨ (2 * (n % P) = P ∧ n / P % 2 = 1) then n / P + 1 else n / P

/-- `n` rounded to a `p`-bit significand, ties to even, with no bound on
the exponent. -/
def roundNat (p n : ℕ) : ℕ :=
  if n < 2 ^ p then n else rne n (2 ^ (n.log2 + 1 - p)) * 2 ^ (n.log2 + 1 - p)

/-- An integer rounded to a `p`-bit significand: the magnitude rounds, the
sign stays. -/
def roundInt (p : ℕ) (n : ℤ) : ℤ :=
  if 0 ≤ n then (roundNat p n.toNat : ℤ) else -(roundNat p n.natAbs : ℤ)

theorem roundNat_of_lt {p n : ℕ} (h : n < 2 ^ p) : roundNat p n = n := by
  rw [roundNat, if_pos h]

/-- **Exact below `2 ^ p`**: an integer of at most `p` bits survives the
round trip. -/
theorem roundInt_of_lt {p : ℕ} {n : ℤ} (h : n.natAbs < 2 ^ p) : roundInt p n = n := by
  unfold roundInt
  split
  · rename_i hn
    rw [roundNat_of_lt (by omega)]
    omega
  · rw [roundNat_of_lt h]
    omega

/-- The sign survives: a negative integer rounds to at most zero. -/
theorem roundInt_nonpos (p : ℕ) {n : ℤ} (h : n < 0) : roundInt p n ≤ 0 := by
  unfold roundInt
  rw [if_neg (by omega)]
  omega

theorem log2_two_pow_add_one {p : ℕ} (hp : p ≠ 0) : (2 ^ p + 1).log2 = p := by
  have h2 : 2 ≤ 2 ^ p := Nat.one_lt_two_pow hp
  -- `2 ^ p ≤ 2 ^ p + 1 < 2 ^ (p + 1)`
  rw [Nat.log2_eq_iff (Nat.succ_ne_zero _), Nat.pow_succ, Nat.succ_eq_add_one]
  constructor <;> omega

/-- **The first value that does not survive**: `2 ^ p + 1` lies halfway
between `2 ^ p` and `2 ^ p + 2`, and the tie goes to `2 ^ p`, whose
significand is even. -/
theorem roundNat_two_pow_add_one {p : ℕ} (hp : 2 ≤ p) : roundNat p (2 ^ p + 1) = 2 ^ p := by
  have hpos : 2 ^ p = 2 * 2 ^ (p - 1) := by
    rw [← Nat.pow_succ']
    congr 1
    omega
  have heven : 2 ^ (p - 1) % 2 = 0 := by
    obtain ⟨k, hk⟩ : ∃ k, p - 1 = k + 1 := ⟨p - 2, by omega⟩
    rw [hk, Nat.pow_succ, Nat.mul_mod_left]
  rw [roundNat, if_neg (by omega), log2_two_pow_add_one (by omega), show p + 1 - p = 1 by omega, Nat.pow_one]
  -- one bit is dropped, and it is exactly half
  have hdiv : (2 ^ p + 1) / 2 = 2 ^ (p - 1) := by omega
  have hmod : (2 ^ p + 1) % 2 = 1 := by omega
  rw [rne, hdiv, hmod, heven, if_neg (by omega)]
  omega

/-- The same for the round trip of an integer. -/
theorem roundInt_two_pow_add_one {p : ℕ} (hp : 2 ≤ p) : roundInt p (2 ^ p + 1) = 2 ^ p := by
  have hcast : ((2 ^ p + 1 : ℕ) : ℤ) = 2 ^ p + 1 := by push_cast; rfl
  rw [← hcast, roundInt, if_pos (Int.natCast_nonneg _), Int.toNat_natCast, roundNat_two_pow_add_one hp]
  push_cast
  rfl

end FloatRound

end GcsFuse
