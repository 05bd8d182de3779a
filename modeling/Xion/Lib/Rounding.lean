import Mathlib.Algebra.Order.Group.Nat
import Mathlib.Algebra.GroupWithZero.Nat
import Mathlib.Algebra.Order.Ring.Int

/-!
# Rounding a quotient half to even

A fixed-point decimal keeps a number as an integer count of `1/p`. The product of two of them, or
a quotient scaled up first, holds too many digits and is divided back by `p`, rounded to the
nearest integer with ties to the even one ("banker's rounding"). `roundHalfEven p n` does this on
naturals in the way such code computes it: the truncated quotient, plus one when the remainder is
above half of `p`, or exactly half with the quotient odd. `roundHalfEvenInt p x` rounds the
magnitude and puts the sign back, so that ties go to the even integer on both sides of zero.

Rounding keeps order (`roundHalfEven_mono`, `roundHalfEvenInt_mono`), is exact on multiples of `p`
(`roundHalfEven_mul`, `roundHalfEvenInt_mul`), and stays within one of the truncated quotient
(`roundHalfEven_le_div_succ`, `natAbs_roundHalfEvenInt_le`). With these, a bound or a sign of the
exact value carries over to the rounded one. The truncated division such code rounds the result of
keeps bounds and signs too (`tdiv_le_of_le_mul`, `le_tdiv_of_mul_le`, `tdiv_nonpos`).
-/

namespace Rounding

/-- `n / p` rounded to the nearest natural, ties to the even one. -/
def roundHalfEven (p n : ℕ) : ℕ :=
  if n % p = 0 then n / p
  else if n % p < p / 2 then n / p
  else if p / 2 < n % p then n / p + 1
  else if n / p % 2 = 0 then n / p
  else n / p + 1

/-- `x / p` rounded to the nearest integer, ties to the even one: the magnitude of a negative `x`
is rounded and the sign put back. -/
def roundHalfEvenInt (p : ℕ) (x : ℤ) : ℤ :=
  if x < 0 then -(roundHalfEven p (-x).toNat : ℤ) else roundHalfEven p x.toNat

section Nat

variable {p : ℕ}

/-- Rounding adds one to the truncated quotient or nothing. -/
theorem roundHalfEven_cases (p n : ℕ) :
    roundHalfEven p n = n / p ∨ roundHalfEven p n = n / p + 1 := by
  unfold roundHalfEven
  split_ifs <;> simp

theorem div_le_roundHalfEven (p n : ℕ) : n / p ≤ roundHalfEven p n := by
  rcases roundHalfEven_cases p n with h | h <;> omega

theorem roundHalfEven_le_div_succ (p n : ℕ) : roundHalfEven p n ≤ n / p + 1 := by
  rcases roundHalfEven_cases p n with h | h <;> omega

/-- A multiple of `p` is rounded exactly. -/
theorem roundHalfEven_mul (hp : 0 < p) (k : ℕ) : roundHalfEven p (k * p) = k := by
  rw [roundHalfEven, if_pos (Nat.mul_mod_left k p), Nat.mul_div_cancel k hp]

/-- Rounding keeps order. Past the truncated quotient the larger value is at least one more, which
is all the smaller one can round to; with the same quotient the larger value has the larger
remainder, and rounds up whenever the smaller one does. -/
theorem roundHalfEven_mono (hp : 0 < p) {n m : ℕ} (h : n ≤ m) :
    roundHalfEven p n ≤ roundHalfEven p m := by
  have hq : n / p ≤ m / p := Nat.div_le_div_right h
  rcases Nat.lt_or_eq_of_le hq with hlt | heq
  · calc roundHalfEven p n ≤ n / p + 1 := roundHalfEven_le_div_succ p n
      _ ≤ m / p := hlt
      _ ≤ roundHalfEven p m := div_le_roundHalfEven p m
  · -- the same quotient: compare the remainders
    have hn := Nat.div_add_mod n p
    have hm := Nat.div_add_mod m p
    have hr : n % p ≤ m % p := by
      rw [← heq] at hm
      omega
    unfold roundHalfEven
    rw [heq]
    split_ifs <;> omega

end Nat

section Int

variable {p : ℕ}

theorem roundHalfEvenInt_of_nonneg {x : ℤ} (hx : 0 ≤ x) :
    roundHalfEvenInt p x = roundHalfEven p x.toNat := by
  rw [roundHalfEvenInt, if_neg (not_lt.2 hx)]

theorem roundHalfEvenInt_of_neg {x : ℤ} (hx : x < 0) :
    roundHalfEvenInt p x = -(roundHalfEven p (-x).toNat : ℤ) := by
  rw [roundHalfEvenInt, if_pos hx]

theorem roundHalfEvenInt_zero : roundHalfEvenInt p 0 = 0 := by
  rw [roundHalfEvenInt_of_nonneg le_rfl, Int.toNat_zero, roundHalfEven]
  simp

/-- A multiple of `p` is rounded exactly, on either side of zero. -/
theorem roundHalfEvenInt_mul (hp : 0 < p) (k : ℤ) : roundHalfEvenInt p (k * p) = k := by
  have hp' : (0 : ℤ) < p := by omega
  rcases lt_or_ge k 0 with hk | hk
  · have hk' : -k = ((-k).toNat : ℤ) := (Int.toNat_of_nonneg (by omega)).symm
    have hneg : -(k * p) = ((-k).toNat * p : ℕ) := by
      rw [Nat.cast_mul, ← hk', Int.neg_mul]
    rw [roundHalfEvenInt_of_neg (Int.mul_neg_of_neg_of_pos hk hp'), hneg, Int.toNat_natCast,
      roundHalfEven_mul hp, ← hk', neg_neg]
  · have hk' : k = (k.toNat : ℤ) := (Int.toNat_of_nonneg hk).symm
    have hpos : k * p = (k.toNat * p : ℕ) := by
      rw [Nat.cast_mul, ← hk']
    rw [roundHalfEvenInt_of_nonneg (Int.mul_nonneg hk hp'.le), hpos, Int.toNat_natCast,
      roundHalfEven_mul hp, ← hk']

/-- Rounding keeps order on the integers: within a sign by the rounding of magnitudes, and across
zero because the rounding keeps the sign. -/
theorem roundHalfEvenInt_mono (hp : 0 < p) {x y : ℤ} (h : x ≤ y) :
    roundHalfEvenInt p x ≤ roundHalfEvenInt p y := by
  rcases lt_or_ge x 0 with hx | hx <;> rcases lt_or_ge y 0 with hy | hy
  · -- both negative: the larger value has the smaller magnitude
    rw [roundHalfEvenInt_of_neg hx, roundHalfEvenInt_of_neg hy, neg_le_neg_iff, Nat.cast_le]
    exact roundHalfEven_mono hp (by omega)
  · rw [roundHalfEvenInt_of_neg hx, roundHalfEvenInt_of_nonneg hy]
    omega
  · omega
  · rw [roundHalfEvenInt_of_nonneg hx, roundHalfEvenInt_of_nonneg hy, Nat.cast_le]
    exact roundHalfEven_mono hp (by omega)

theorem roundHalfEvenInt_nonneg (hp : 0 < p) {x : ℤ} (hx : 0 ≤ x) : 0 ≤ roundHalfEvenInt p x :=
  roundHalfEvenInt_zero (p := p) ▸ roundHalfEvenInt_mono hp hx

theorem roundHalfEvenInt_nonpos (hp : 0 < p) {x : ℤ} (hx : x ≤ 0) : roundHalfEvenInt p x ≤ 0 :=
  roundHalfEvenInt_zero (p := p) ▸ roundHalfEvenInt_mono hp hx

/-- A value at most `k` units of `p` rounds to at most `k`. -/
theorem roundHalfEvenInt_le_of_le_mul (hp : 0 < p) {x k : ℤ} (h : x ≤ k * p) :
    roundHalfEvenInt p x ≤ k :=
  roundHalfEvenInt_mul hp k ▸ roundHalfEvenInt_mono hp h

/-- A value at least `k` units of `p` rounds to at least `k`. -/
theorem le_roundHalfEvenInt_of_mul_le (hp : 0 < p) {x k : ℤ} (h : k * p ≤ x) :
    k ≤ roundHalfEvenInt p x :=
  roundHalfEvenInt_mul hp k ▸ roundHalfEvenInt_mono hp h

/-- The rounded magnitude is at most one more than the truncated quotient of the magnitude. -/
theorem natAbs_roundHalfEvenInt_le (p : ℕ) (x : ℤ) :
    (roundHalfEvenInt p x).natAbs ≤ x.natAbs / p + 1 := by
  rcases lt_or_ge x 0 with hx | hx
  · rw [roundHalfEvenInt_of_neg hx, Int.natAbs_neg, Int.natAbs_natCast]
    have habs : (-x).toNat = x.natAbs := by omega
    rw [habs]
    exact roundHalfEven_le_div_succ p x.natAbs
  · rw [roundHalfEvenInt_of_nonneg hx, Int.natAbs_natCast]
    have habs : x.toNat = x.natAbs := by omega
    rw [habs]
    exact roundHalfEven_le_div_succ p x.natAbs

end Int

/-! ## Truncated division

Go's `big.Int.Quo` truncates towards zero (`Int.tdiv`); on a non-negative dividend it is the floor
division, and it keeps the sign of the dividend over a positive divisor. -/

section Trunc

/-- A dividend at most `k` times the divisor gives a quotient at most `k`. -/
theorem tdiv_le_of_le_mul {x k d : ℤ} (hd : 0 < d) (hk : 0 ≤ k) (h : x ≤ k * d) :
    x.tdiv d ≤ k := by
  rcases lt_or_ge x 0 with hx | hx
  · have hneg : 0 ≤ (-x).tdiv d := Int.tdiv_nonneg (by omega) hd.le
    rw [Int.neg_tdiv] at hneg
    omega
  · rw [Int.tdiv_eq_ediv_of_nonneg hx]
    exact Int.ediv_le_of_le_mul hd h

/-- A dividend at least `k` times the divisor gives a quotient at least `k`. -/
theorem le_tdiv_of_mul_le {x k d : ℤ} (hd : 0 < d) (hk : 0 ≤ k) (h : k * d ≤ x) :
    k ≤ x.tdiv d := by
  have hx : 0 ≤ x := le_trans (Int.mul_nonneg hk hd.le) h
  rw [Int.tdiv_eq_ediv_of_nonneg hx]
  exact Int.le_ediv_of_mul_le hd h

/-- A dividend at most zero over a non-negative divisor gives a quotient at most zero. -/
theorem tdiv_nonpos {x d : ℤ} (hx : x ≤ 0) (hd : 0 ≤ d) : x.tdiv d ≤ 0 := by
  have hneg : 0 ≤ (-x).tdiv d := Int.tdiv_nonneg (by omega) hd
  rw [Int.neg_tdiv] at hneg
  omega

end Trunc

end Rounding
