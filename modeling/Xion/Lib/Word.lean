import Mathlib.Data.List.Basic
import Mathlib.Algebra.Order.Group.Nat
import Mathlib.Algebra.GroupWithZero.Nat

/-!
# Sums in 64-bit words

Go adds unsigned 64-bit integers modulo `2^64`, and code that must not wrap tests each addition
before it trusts it: for words `a` and `b`, `a + b < a` holds exactly when the true sum does not fit
(`add_lt_self_iff`), and otherwise the word is the true sum (`toNat_add_of_not_lt`).

`checkedSum` is the loop that accumulates a list of words this way and stops at the first addition
that wraps. It succeeds exactly when the true total fits in 64 bits, and then returns it
(`checkedSum_eq_some_iff`), whatever the order in which the partial sums reach the bound.
-/

namespace Word

/-- An addition wraps exactly when the sum of the two values reaches `2^64`. -/
theorem add_lt_self_iff (a b : UInt64) : a + b < a ↔ 2 ^ 64 ≤ a.toNat + b.toNat := by
  rw [UInt64.lt_iff_toNat_lt, UInt64.toNat_add]
  have ha := a.toNat_lt
  have hb := b.toNat_lt
  omega

/-- An addition that passes the wrap test is exact. -/
theorem toNat_add_of_not_lt {a b : UInt64} (h : ¬a + b < a) :
    (a + b).toNat = a.toNat + b.toNat := by
  rw [add_lt_self_iff] at h
  rw [UInt64.toNat_add]
  exact Nat.mod_eq_of_lt (by omega)

/-- The words `xs` added onto `acc` one after another, each addition tested for wrapping first;
none at the first addition that wraps. -/
def checkedSum (acc : UInt64) : List UInt64 → Option UInt64
  | [] => some acc
  | x :: xs => if acc + x < acc then none else checkedSum (acc + x) xs

theorem checkedSum_nil (acc : UInt64) : checkedSum acc [] = some acc := rfl

theorem checkedSum_cons (acc x : UInt64) (xs : List UInt64) :
    checkedSum acc (x :: xs) = if acc + x < acc then none else checkedSum (acc + x) xs := rfl

/-- The checked sum succeeds exactly when the true total fits in 64 bits, and it is then the true
total. Once a partial sum wraps, every longer one is at least as large, so testing each step is
the same as testing the total. -/
theorem checkedSum_eq_some_iff (acc : UInt64) (xs : List UInt64) (s : UInt64) :
    checkedSum acc xs = some s ↔
      acc.toNat + (xs.map UInt64.toNat).sum < 2 ^ 64 ∧
        s.toNat = acc.toNat + (xs.map UInt64.toNat).sum := by
  induction xs generalizing acc with
  | nil =>
    rw [checkedSum_nil, Option.some_inj, List.map_nil, List.sum_nil, Nat.add_zero,
      ← UInt64.toNat_inj]
    constructor
    · intro h
      exact ⟨acc.toNat_lt, h.symm⟩
    · rintro ⟨-, h⟩
      exact h.symm
  | cons x xs ih =>
    rw [checkedSum_cons, List.map_cons, List.sum_cons]
    by_cases hwrap : acc + x < acc
    · -- the partial sum already reaches `2^64`, and so does the total
      rw [if_pos hwrap]
      have := (add_lt_self_iff acc x).1 hwrap
      simp only [reduceCtorEq, false_iff, not_and]
      omega
    · rw [if_neg hwrap, ih, toNat_add_of_not_lt hwrap, Nat.add_assoc]

end Word
