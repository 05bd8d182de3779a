import Mathlib.Data.Nat.Digits.Lemmas

/-!
# Fixed-width limbs of a natural number

A big integer as a circuit takes it: a fixed number `k` of limbs of `n` bits each, low limb
first. `split n k N` reads the limb `i` as `N / 2^(i·n) mod 2^n`, whatever the size of `N`, so
the limbs are the base-`2^n` digits of `N mod 2^(n·k)`: their value (`Nat.ofDigits (2^n)`) is
`N mod 2^(n·k)` (`ofDigits_split`), and two numbers have the same limbs exactly when they agree
modulo `2^(n·k)` (`split_eq_split_iff`). Only a number below `2^(n·k)` is its limbs' value; the
bits above are dropped.
-/

namespace Limbs

/-- The `k` limbs of `n` bits of `N`, low limb first. -/
def split (n k N : ℕ) : List ℕ := (List.range k).map fun i => N / 2 ^ (i * n) % 2 ^ n

variable {n k N M : ℕ}

/-- The limbs of `N` are its low limb and the limbs of the rest. -/
theorem split_succ : split n (k + 1) N = N % 2 ^ n :: split n k (N / 2 ^ n) := by
  rw [split, List.range_succ_eq_map, List.map_cons, List.map_map]
  congr 1
  · simp
  · refine List.map_congr_left fun i _ => ?_
    -- Shifting by `(i + 1)·n` bits is shifting by `n`, then by `i·n`.
    have hshift : 2 ^ ((i + 1) * n) = 2 ^ n * 2 ^ (i * n) := by
      rw [Nat.succ_mul, pow_add, Nat.mul_comm]
    simp only [Function.comp_apply]
    rw [hshift, Nat.div_div_eq_div_mul]

/-- The value of the limbs of `N` is `N` modulo `2^(n·k)`. -/
theorem ofDigits_split : Nat.ofDigits (2 ^ n) (split n k N) = N % 2 ^ (n * k) := by
  induction k generalizing N with
  | zero => simp [split, Nat.mod_one]
  | succ k ih =>
    rw [split_succ, Nat.ofDigits_cons, ih]
    -- The low limb and the shifted rest recombine: `x % (a·b) = x % a + a·(x / a % b)`.
    rw [Nat.mul_succ, pow_add, Nat.mul_comm (2 ^ (n * k)) (2 ^ n), Nat.mod_mul]

/-- The limbs read `N` modulo `2^(n·k)` only. -/
theorem split_mod : split n k (N % 2 ^ (n * k)) = split n k N := by
  induction k generalizing N with
  | zero => rfl
  | succ k ih =>
    have hlow : N % 2 ^ (n * (k + 1)) % 2 ^ n = N % 2 ^ n :=
      Nat.mod_mod_of_dvd N (pow_dvd_pow 2 (Nat.le_mul_of_pos_right n (Nat.succ_pos k)))
    have hhigh : N % 2 ^ (n * (k + 1)) / 2 ^ n = N / 2 ^ n % 2 ^ (n * k) := by
      rw [Nat.mul_succ, pow_add, Nat.mul_comm (2 ^ (n * k)) (2 ^ n), Nat.mod_mul_right_div_self]
    rw [split_succ, split_succ, hlow, hhigh, ih]

/-- Two numbers have the same limbs exactly when they agree modulo `2^(n·k)`. -/
theorem split_eq_split_iff : split n k N = split n k M ↔ N % 2 ^ (n * k) = M % 2 ^ (n * k) := by
  constructor
  · intro h
    rw [← ofDigits_split, ← ofDigits_split, h]
  · intro h
    rw [← split_mod, h, split_mod]

end Limbs
