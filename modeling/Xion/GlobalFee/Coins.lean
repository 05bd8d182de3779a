import Xion.Lib.BinarySearch
import Xion.Lib.Bytes
import Mathlib.Data.List.Dedup
import Mathlib.Data.List.Lex
import Mathlib.Data.List.Sort
import Mathlib.Order.Fin.Basic

/-!
# Coin sets of the fee checks

The SDK's coin sets as the `globalfee` module reads them: lists of entries of a denomination and
an amount. A decimal amount (`math.LegacyDec`) is a number of `10^-18` units, non-negative in a
valid set; a coin amount is a non-negative integer. `sort`, `amountOf`, `isZero` and `isAnyGTE`
are the SDK's methods of `DecCoins` and `Coins`; `find`, `maxCoins` and `combinedFeeRequirement`
are the module's `fee_utils.go`.

`amountOf` and `find` are binary searches: they answer as a lookup on sorted sets with distinct
denominations (`amountOf_of_sorted`), which is what `maxCoins` builds, so the amount of a
denomination in `maxCoins a b` is the larger of its amounts in `a` and `b` (`amountOf_maxCoins`).
Because `maxCoins` sorts its arguments first, that holds of sets in any order whose
denominations are distinct (`amountOf_sort`), and the result depends on neither the order of
the sets nor that of the arguments (`maxCoins_comm`).

`CombinedFeeRequirement` raises each global fee to the minimum gas price of its denomination
(`combinedFeeRequirement_eq`). It sorts both sets only when there are prices: then the result is
sorted and the same for any order of either set, while without prices it is the global fees in
the order given (`combinedFeeRequirement_max_of_global`).
-/

namespace Xion.GlobalFee

open Bytes SortedMap

/-- A denomination. -/
abbrev Denom := Bytes

/-- `sdk.DecCoins`: amounts in units of `10^-18`. -/
abbrev DecCoins := List (Denom × ℕ)

/-- `sdk.Coins`. -/
abbrev Coins := List (Denom × ℕ)

/-- The number of units in one (`LegacyDec`'s 18 decimal places). -/
def decOne : ℕ := 10 ^ 18

/-- Entries ordered by denomination, the order of `Sort`. -/
def DenomLE (a b : Denom × ℕ) : Prop := a.1 ≤ b.1

instance : DecidableRel DenomLE := fun a b => inferInstanceAs (Decidable (a.1 ≤ b.1))

instance : Std.Total DenomLE := ⟨fun a b => le_total a.1 b.1⟩

instance : IsTrans (Denom × ℕ) DenomLE := ⟨fun _ _ _ h₁ h₂ => le_trans h₁ h₂⟩

/-! ## The SDK's methods -/

/-- `DecCoins.Sort`: by denomination. -/
def sort (l : List (Denom × ℕ)) : List (Denom × ℕ) := l.insertionSort DenomLE

/-- `AmountOf`: the amount of the denomination that a binary search finds, zero when it finds
none. -/
def amountOf (l : List (Denom × ℕ)) (d : Denom) : ℕ :=
  ((BinarySearch.find l d).map Prod.snd).getD 0

theorem amountOf_def (l : List (Denom × ℕ)) (d : Denom) :
    amountOf l d = ((BinarySearch.find l d).map Prod.snd).getD 0 := rfl

/-- `IsZero`: every amount is zero (an empty set too). -/
def isZero (l : List (Denom × ℕ)) : Bool := l.all fun c => c.2 = 0

/-- `Coins.IsAnyGTE`: `coinsB` is not empty and some coin of `coins` reaches the amount of its
denomination in `coinsB`, where that amount is not zero. -/
def isAnyGTE (coins coinsB : Coins) : Bool :=
  !coinsB.isEmpty && coins.any fun c => amountOf coinsB c.1 ≤ c.2 && amountOf coinsB c.1 ≠ 0

/-! ## The module's utilities -/

/-- `Find`: the binary search of `fee_utils.go`. -/
def find (coins : DecCoins) (denom : Denom) : Option (Denom × ℕ) := BinarySearch.find coins denom

/-- The larger of two amounts, as `MaxCoins` picks it: the second when it is greater. -/
def maxAmount (amountA amountB : ℕ) : ℕ := if amountB > amountA then amountB else amountA

/-- `MaxCoins`: for each denomination of `a` or `b`, the larger of its amounts in the two sorted
sets, sorted. -/
def maxCoins (a b : DecCoins) : DecCoins :=
  let a := sort a
  let b := sort b
  sort (((a ++ b).map Prod.fst).dedup.map fun d => (d, maxAmount (amountOf a d) (amountOf b d)))

/-- `CombinedFeeRequirement`'s failure: no global fee. -/
inductive CombineError
  | globalFeeEmpty
  deriving DecidableEq, Repr

/-- `CombinedFeeRequirement`: each global fee, raised to the minimum gas price of its denomination
where that is higher; the minimum gas prices of other denominations are left out. -/
def combinedFeeRequirement (globalFees minGasPrices : DecCoins) : Except CombineError DecCoins :=
  if globalFees = [] then .error .globalFeeEmpty
  else if minGasPrices = [] then .ok globalFees
  else
    let globalFees := sort globalFees
    let minGasPrices := sort minGasPrices
    .ok (sort (globalFees.map fun fee =>
      match find minGasPrices fee.1 with
      | some c => if c.2 > fee.2 then c else fee
      | none => fee))

/-! ## Lemmas -/

theorem maxAmount_eq_max (amountA amountB : ℕ) :
    maxAmount amountA amountB = max amountA amountB := by
  unfold maxAmount
  split_ifs with h
  · exact (max_eq_right h.le).symm
  · exact (max_eq_left (not_lt.1 h)).symm

theorem mem_sort {l : List (Denom × ℕ)} {c : Denom × ℕ} : c ∈ sort l ↔ c ∈ l :=
  List.mem_insertionSort DenomLE

theorem sort_pairwise (l : List (Denom × ℕ)) : (sort l).Pairwise DenomLE :=
  List.pairwise_insertionSort DenomLE l

theorem sort_eq_self {l : List (Denom × ℕ)} (h : l.Pairwise DenomLE) : sort l = l :=
  List.Pairwise.insertionSort_eq h

theorem sort_sort (l : List (Denom × ℕ)) : sort (sort l) = sort l :=
  sort_eq_self (sort_pairwise l)

/-- A set sorted by denomination whose denominations are distinct is sorted strictly. -/
theorem pairwise_lt_of_sorted {l : List (Denom × ℕ)} (hs : l.Pairwise DenomLE)
    (hd : (l.map Prod.fst).Nodup) : l.Pairwise fun a b => a.1 < b.1 := by
  have hne : l.Pairwise fun a b => a.1 ≠ b.1 := List.pairwise_map.1 hd
  exact (hs.and hne).imp fun h => lt_of_le_of_ne h.1 h.2

/-- A missing denomination has amount zero. -/
theorem amountOf_eq_zero {l : List (Denom × ℕ)} {d : Denom} (h : d ∉ l.map Prod.fst) :
    amountOf l d = 0 := by
  simp only [amountOf_def]
  cases hf : BinarySearch.find l d with
  | none => rfl
  | some e =>
    obtain ⟨he, hk⟩ := BinarySearch.find_mem hf
    exact absurd (List.mem_map.2 ⟨e, he, hk⟩) h

/-- On a set sorted strictly by denomination, `AmountOf` is the amount listed. -/
theorem amountOf_of_sorted {l : List (Denom × ℕ)} (hl : l.Pairwise fun a b => a.1 < b.1)
    {d : Denom} {v : ℕ} (hv : (d, v) ∈ l) : amountOf l d = v := by
  rw [amountOf_def, BinarySearch.find_eq_lookup hl, (lookup_eq_some_iff hl d v).2 hv]
  rfl

/-- `AmountOf` reads the amounts only where the search ends: the amounts of a set with the same
denominations in the same order are read through the same path. -/
theorem amountOf_map (l : List (Denom × ℕ)) (f : ℕ → ℕ) (hf : f 0 = 0) (d : Denom) :
    amountOf (l.map fun c => (c.1, f c.2)) d = f (amountOf l d) := by
  simp only [amountOf_def]
  rw [BinarySearch.find_map_snd]
  cases BinarySearch.find l d with
  | none => exact hf.symm
  | some e => rfl

/-- A set with distinct denominations, sorted, is sorted strictly. -/
theorem sort_strict {l : List (Denom × ℕ)} (hd : (l.map Prod.fst).Nodup) :
    (sort l).Pairwise fun a b => a.1 < b.1 :=
  pairwise_lt_of_sorted (sort_pairwise l)
    (((List.perm_insertionSort DenomLE l).map Prod.fst).nodup_iff.2 hd)

/-- Sorting a set with distinct denominations keeps what each denomination maps to. -/
theorem lookup_sort {l : List (Denom × ℕ)} (hd : (l.map Prod.fst).Nodup) (d : Denom) :
    lookup d (sort l) = lookup d l :=
  (lookup_perm (List.perm_insertionSort DenomLE l).symm hd d).symm

/-- On a set with distinct denominations, `AmountOf` after `Sort` is the amount listed, whatever
the order of the set. -/
theorem amountOf_sort {l : List (Denom × ℕ)} (hd : (l.map Prod.fst).Nodup) (d : Denom) :
    amountOf (sort l) d = (lookup d l).getD 0 := by
  rw [amountOf_def, BinarySearch.find_eq_lookup (sort_strict hd), lookup_sort hd]
  cases lookup d l <;> rfl

section MaxCoins

variable (a b : DecCoins)

/-- The denominations `MaxCoins` lists, before sorting: each of `a` or `b` once. -/
theorem maxCoins_keys_perm :
    ((maxCoins a b).map Prod.fst).Perm ((sort a ++ sort b).map Prod.fst).dedup := by
  have hperm := (List.perm_insertionSort DenomLE
    (((sort a ++ sort b).map Prod.fst).dedup.map
      fun d => (d, maxAmount (amountOf (sort a) d) (amountOf (sort b) d)))).map Prod.fst
  rw [List.map_map] at hperm
  exact hperm.trans (List.Perm.of_eq (by simp [Function.comp_def]))

/-- `MaxCoins` is sorted strictly by denomination. -/
theorem maxCoins_strict : (maxCoins a b).Pairwise fun x y => x.1 < y.1 :=
  pairwise_lt_of_sorted (sort_pairwise _)
    ((maxCoins_keys_perm a b).nodup_iff.2 (List.nodup_dedup _))

/-- The entries of `MaxCoins`: a denomination of either set with the larger of its two amounts. -/
theorem mem_maxCoins (x : Denom × ℕ) :
    x ∈ maxCoins a b ↔ x.1 ∈ ((sort a ++ sort b).map Prod.fst).dedup ∧
      x.2 = max (amountOf (sort a) x.1) (amountOf (sort b) x.1) := by
  rw [maxCoins, mem_sort, List.mem_map]
  constructor
  · rintro ⟨d, hd, rfl⟩
    exact ⟨hd, maxAmount_eq_max _ _⟩
  · rintro ⟨hd, hx⟩
    exact ⟨x.1, hd, Prod.ext rfl (hx.trans (maxAmount_eq_max _ _).symm).symm⟩

/-- `MaxCoins` lists exactly the denominations of `a` and of `b`. -/
theorem mem_keys_maxCoins (d : Denom) :
    d ∈ (maxCoins a b).map Prod.fst ↔ d ∈ a.map Prod.fst ∨ d ∈ b.map Prod.fst := by
  have hkeys : ∀ l : List (Denom × ℕ), d ∈ (sort l).map Prod.fst ↔ d ∈ l.map Prod.fst :=
    fun l => ((List.perm_insertionSort DenomLE l).map Prod.fst).mem_iff
  rw [(maxCoins_keys_perm a b).mem_iff, List.mem_dedup, List.map_append, List.mem_append,
    hkeys, hkeys]

/-- The amount of a denomination in `MaxCoins` is the larger of its amounts in the two sets. -/
theorem amountOf_maxCoins (d : Denom) :
    amountOf (maxCoins a b) d = max (amountOf (sort a) d) (amountOf (sort b) d) := by
  set ds := ((sort a ++ sort b).map Prod.fst).dedup
  by_cases hd : d ∈ ds
  · exact amountOf_of_sorted (maxCoins_strict a b) ((mem_maxCoins a b (d, _)).2 ⟨hd, rfl⟩)
  · -- A denomination of neither set has amount zero everywhere.
    have hnot : ∀ l : List (Denom × ℕ), l.map Prod.fst ⊆ ds → amountOf l d = 0 := fun l hl =>
      amountOf_eq_zero fun h => hd (hl h)
    rw [hnot _ (maxCoins_keys_perm a b).subset,
      hnot (sort a) fun x hx => List.mem_dedup.2 (by simp_all),
      hnot (sort b) fun x hx => List.mem_dedup.2 (by simp_all), max_self]

/-- `MaxCoins` does not depend on the order of its arguments. -/
theorem maxCoins_comm : maxCoins a b = maxCoins b a := by
  -- Both results are sorted strictly, so they are equal once they have the same entries.
  refine eq_of_lookup_eq (maxCoins_strict a b) (maxCoins_strict b a) fun k => Option.ext fun v => ?_
  rw [lookup_eq_some_iff (maxCoins_strict a b), lookup_eq_some_iff (maxCoins_strict b a),
    mem_maxCoins, mem_maxCoins]
  simp only [List.mem_dedup, List.map_append, List.mem_append, or_comm, max_comm]

end MaxCoins

/-! ## `CombinedFeeRequirement`

With minimum gas prices, the global fees and the prices are sorted before the binary search, so
each global fee is raised to the price of its denomination whatever the order of either set
(`combinedFeeRequirement_eq`). Without minimum gas prices the global fees are returned as they
are given, not sorted. -/

/-- A global fee raised to the minimum gas price of its denomination, where there is one (an
amount is never negative, so `max` with zero keeps the fee where there is none). -/
def raisedFee (minGasPrices : DecCoins) (fee : Denom × ℕ) : Denom × ℕ :=
  (fee.1, max fee.2 ((lookup fee.1 minGasPrices).getD 0))

theorem raisedFee_def (minGasPrices : DecCoins) (fee : Denom × ℕ) :
    raisedFee minGasPrices fee = (fee.1, max fee.2 ((lookup fee.1 minGasPrices).getD 0)) := rfl

section Combined

variable {globalFees minGasPrices : DecCoins}

/-- With minimum gas prices, `CombinedFeeRequirement` is the sorted global fees, each raised to
the price of its denomination. -/
theorem combinedFeeRequirement_eq (hgf : globalFees ≠ []) (hmg : minGasPrices ≠ [])
    (hm : (minGasPrices.map Prod.fst).Nodup) :
    combinedFeeRequirement globalFees minGasPrices =
      .ok (sort ((sort globalFees).map (raisedFee minGasPrices))) := by
  rw [combinedFeeRequirement, if_neg hgf, if_neg hmg]
  refine congrArg (fun l => Except.ok (sort l)) (List.map_congr_left fun fee _ => ?_)
  -- the search runs on the sorted prices, where it is a lookup
  have hfind : find (sort minGasPrices) fee.1 =
      (lookup fee.1 minGasPrices).map fun v => (fee.1, v) := by
    rw [find, BinarySearch.find_eq_lookup (sort_strict hm), lookup_sort hm]
  rw [hfind, raisedFee_def]
  cases lookup fee.1 minGasPrices with
  | none => simp
  | some v =>
    simp only [Option.map_some, Option.getD_some]
    split_ifs with hv
    · rw [max_eq_right hv.le]
    · rw [max_eq_left (not_lt.1 hv)]

/-- The entries of the combined requirement: each global fee, raised. -/
theorem mem_sort_map_raisedFee {d : Denom} {a : ℕ} :
    (d, a) ∈ sort ((sort globalFees).map (raisedFee minGasPrices)) ↔
      ∃ g, (d, g) ∈ globalFees ∧ a = max g ((lookup d minGasPrices).getD 0) := by
  rw [mem_sort, List.mem_map]
  constructor
  · rintro ⟨fee, hfee, hraised⟩
    rw [raisedFee_def, Prod.mk.injEq] at hraised
    obtain ⟨rfl, rfl⟩ := hraised
    exact ⟨fee.2, mem_sort.1 hfee, rfl⟩
  · rintro ⟨g, hg, rfl⟩
    exact ⟨(d, g), mem_sort.2 hg, rfl⟩

/-- Raising the fees keeps their denominations, so the combined requirement is sorted strictly
when the global fees have distinct denominations. -/
theorem sort_map_raisedFee_strict (hg : (globalFees.map Prod.fst).Nodup) :
    (sort ((sort globalFees).map (raisedFee minGasPrices))).Pairwise fun x y => x.1 < y.1 := by
  have hkeys : ((sort globalFees).map (raisedFee minGasPrices)).map Prod.fst =
      (sort globalFees).map Prod.fst := by
    rw [List.map_map]
    rfl
  refine sort_strict ?_
  rw [hkeys]
  exact ((List.perm_insertionSort DenomLE globalFees).map Prod.fst).nodup_iff.2 hg

/-- `CombinedFeeRequirement` on global fees and minimum gas prices with distinct denominations,
each in any order: the global fees, each with the larger of its amount and the price of its
denomination; with prices, sorted strictly and the same for any order of either set, and without
prices, the global fees as given. -/
theorem combinedFeeRequirement_max_of_global (hgf : globalFees ≠ [])
    (hg : (globalFees.map Prod.fst).Nodup) (hm : (minGasPrices.map Prod.fst).Nodup) :
    ∃ r, combinedFeeRequirement globalFees minGasPrices = .ok r ∧
      (∀ d a, (d, a) ∈ r ↔ ∃ g, (d, g) ∈ globalFees ∧ a = max g ((lookup d minGasPrices).getD 0)) ∧
      (minGasPrices = [] → r = globalFees) ∧
      (minGasPrices ≠ [] → r.Pairwise (fun x y => x.1 < y.1) ∧
        ∀ globalFees' minGasPrices', globalFees'.Perm globalFees →
          minGasPrices'.Perm minGasPrices →
            combinedFeeRequirement globalFees' minGasPrices' = .ok r) := by
  by_cases hmg : minGasPrices = []
  · -- no prices: the global fees come back as they are, each at its own amount
    subst hmg
    refine ⟨globalFees, by rw [combinedFeeRequirement, if_neg hgf, if_pos rfl],
      fun d a => ?_, fun _ => rfl, fun h => absurd rfl h⟩
    simp [lookup_nil]
  refine ⟨_, combinedFeeRequirement_eq hgf hmg hm, fun d a => mem_sort_map_raisedFee,
    fun h => absurd h hmg, fun _ => ⟨sort_map_raisedFee_strict hg, ?_⟩⟩
  intro globalFees' minGasPrices' hgf' hmg'
  -- the reordered sets have the same entries and the same prices, so the same sorted result
  have hm' : (minGasPrices'.map Prod.fst).Nodup := (hmg'.map Prod.fst).nodup_iff.2 hm
  have hg' : (globalFees'.map Prod.fst).Nodup := (hgf'.map Prod.fst).nodup_iff.2 hg
  rw [combinedFeeRequirement_eq (fun h => hgf (List.nil_perm.1 (h ▸ hgf')))
    (fun h => hmg (List.nil_perm.1 (h ▸ hmg'))) hm']
  refine congrArg Except.ok (eq_of_mem_iff (sort_map_raisedFee_strict hg')
    (sort_map_raisedFee_strict hg) ?_)
  rintro ⟨d, a⟩
  rw [mem_sort_map_raisedFee, mem_sort_map_raisedFee, lookup_perm hmg' hm' d]
  simp only [hgf'.mem_iff]

end Combined

/-- The global fees of `TestCombinedFeeRequirementUnsortedBug`, out of order. -/
def unsortedGlobalFees : DecCoins := [(ofAscii "uxion", 3), (ofAscii "uatom", 7)]

/-- The test's global fees and prices satisfy the hypotheses, and the combined requirement is the
larger amount of each denomination. -/
theorem unsorted_test_combined :
    unsortedGlobalFees ≠ [] ∧ (unsortedGlobalFees.map Prod.fst).Nodup ∧
      (([(ofAscii "uxion", 4), (ofAscii "uatom", 8)] : DecCoins).map Prod.fst).Nodup ∧
      ∃ r, combinedFeeRequirement unsortedGlobalFees [(ofAscii "uxion", 4), (ofAscii "uatom", 8)] =
          .ok r ∧
        (∀ d a, (d, a) ∈ r ↔ ∃ g, (d, g) ∈ unsortedGlobalFees ∧
          a = max g ((lookup d [(ofAscii "uxion", 4), (ofAscii "uatom", 8)]).getD 0)) ∧
        ([(ofAscii "uxion", 4), (ofAscii "uatom", 8)] = [] → r = unsortedGlobalFees) ∧
        ([(ofAscii "uxion", 4), (ofAscii "uatom", 8)] ≠ [] →
          r.Pairwise (fun x y => x.1 < y.1) ∧
          ∀ globalFees' minGasPrices', globalFees'.Perm unsortedGlobalFees →
            minGasPrices'.Perm [(ofAscii "uxion", 4), (ofAscii "uatom", 8)] →
              combinedFeeRequirement globalFees' minGasPrices' = .ok r) :=
  ⟨by decide, by decide, by decide,
    combinedFeeRequirement_max_of_global (by decide) (by decide) (by decide)⟩

/-- Without minimum gas prices the global fees come back out of order, and in another order for
the same fees in another order. -/
theorem combinedFeeRequirement_unsorted_without_prices :
    combinedFeeRequirement unsortedGlobalFees [] = .ok unsortedGlobalFees ∧
      ¬unsortedGlobalFees.Pairwise (fun x y => x.1 < y.1) ∧
      unsortedGlobalFees.Perm unsortedGlobalFees.reverse ∧
      combinedFeeRequirement unsortedGlobalFees.reverse [] ≠
        combinedFeeRequirement unsortedGlobalFees [] := by
  decide

end Xion.GlobalFee
