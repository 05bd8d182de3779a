import Xion.Lib.Run
import Xion.Lib.Bytes
import Xion.Lib.KeyedList
import Xion.Lib.SortedMap
import Mathlib.Algebra.Order.BigOperators.Group.List
import Mathlib.Data.List.Dedup
import Mathlib.Data.List.Lex
import Mathlib.Order.Fin.Basic

/-!
# The SDK's integers and coin sets

`math.Int` and `sdk.Coins` of the Cosmos SDK (`cosmossdk.io/math` v1.5, `types/coin.go` of
cosmos-sdk v0.53), and the input and output checks of its bank module (`x/bank/types`), as the
`x/xion` module calls them. They are not part of the repository; they are modelled from those
releases because what the module's fee rewriting does depends on them: `Add` coalesces the coins
of each denomination, drops zero coins and sorts, `SafeSub` adds the negated coins, and an
integer of more than 256 bits panics.

A panic is an error here. The denominations' own format check is left out: every coin set the
module builds has the denominations of a set that passed it.

A set that `Add` returns, from sets sorted strictly by denomination whose sums fit in 256 bits,
is `Normal`: sorted strictly, with amounts that fit and are not zero, and each denomination's
amount the sum of its amounts in the two sets (`safeAdd_spec`). Normal sets are determined by
their amounts (`Normal.ext`), which is how `Equal` is read (`equal_eq_true_iff`).
-/

namespace Xion.Sdk

open Bytes Run KeyedList

/-- A denomination. -/
abbrev Denom := Bytes

/-- `sdk.Coin`: a denomination and an amount of `math.Int`. -/
abbrev Coin := Denom × ℤ

/-- `sdk.Coins`. -/
abbrev Coins := List Coin

/-- The errors of the SDK's coin arithmetic and of the bank's checks; the first six are
panics. -/
inductive SdkError
  /-- The panic of `Add` on a set that is not sorted. -/
  | coinsNotSorted
  /-- The panic of an integer of more than 256 bits. -/
  | intOverflow
  /-- The panic of `NewCoin` and `Sub` on a negative amount. -/
  | negativeCoinAmount
  /-- The panic of the bank on a module name without an account. -/
  | unknownModuleAccount
  /-- The panic of `Coin.IsLT` and `Coin.Sub` on coins of different denominations. -/
  | differentDenoms
  /-- The panic of a division by zero. -/
  | divisionByZero
  /-- `ErrInvalidAddress`. -/
  | invalidAddress
  /-- `ErrInvalidCoins`. -/
  | invalidCoins
  /-- `ErrNoOutputs`. -/
  | noOutputs
  /-- `ErrInputOutputMismatch`. -/
  | inputOutputMismatch
  deriving DecidableEq, Repr

/-! ## `math.Int` -/

/-- `MaxBitLen`. -/
def maxBitLen : ℕ := 256

/-- `Int.Add`: a sum of more than `MaxBitLen` bits panics. -/
def intAdd (a b : ℤ) : Except SdkError ℤ :=
  if bitLen (a + b).natAbs > maxBitLen then .error .intOverflow else .ok (a + b)

/-- `Int.Sub`: a difference of more than `MaxBitLen` bits panics. -/
def intSub (a b : ℤ) : Except SdkError ℤ :=
  if bitLen (a - b).natAbs > maxBitLen then .error .intOverflow else .ok (a - b)

/-- `Int.Mul`: operands whose bit lengths add up to more than `MaxBitLen + 1`, or a product of
more than `MaxBitLen` bits, panic. -/
def intMul (a b : ℤ) : Except SdkError ℤ :=
  if bitLen a.natAbs + bitLen b.natAbs - 1 > maxBitLen then .error .intOverflow
  else if bitLen (a * b).natAbs > maxBitLen then .error .intOverflow
  else .ok (a * b)

/-- `NewIntFromBigInt`: a value of more than `MaxBitLen` bits panics. -/
def newIntFromBigInt (x : ℤ) : Except SdkError ℤ :=
  if bitLen x.natAbs > maxBitLen then .error .intOverflow else .ok x

/-! ## `sdk.Coins` -/

/-- `NewCoin`: a negative amount panics. -/
def newCoin (denom : Denom) (amount : ℤ) : Except SdkError Coin :=
  if amount < 0 then .error .negativeCoinAmount else .ok (denom, amount)

/-- `Coin.IsLT`: coins of one denomination compared by amount. -/
def coinIsLT (coin other : Coin) : Except SdkError Bool := do
  failIf (coin.1 ≠ other.1) .differentDenoms
  pure (decide (coin.2 < other.2))

/-- `Coin.Sub`: coins of one denomination, the difference of which must not be negative. -/
def coinSub (coin coinB : Coin) : Except SdkError Coin := do
  failIf (coin.1 ≠ coinB.1) .differentDenoms
  let amount ← intSub coin.2 coinB.2
  failIf (amount < 0) .negativeCoinAmount
  pure (coin.1, amount)

/-- `Coins.Sort`: by denomination. -/
def sort (coins : Coins) : Coins := sortByKey coins

/-- `Coins.isSorted`: no denomination is above the next one. -/
def isSorted : Coins → Bool
  | a :: b :: rest => decide (a.1 ≤ b.1) && isSorted (b :: rest)
  | _ => true

/-- The amount of `comboCoin` in `safeAdd`: the amounts of one denomination added to zero one
by one with `Int.Add`. -/
def comboAmount (cL : Coins) : Except SdkError ℤ := cL.foldlM (fun acc c => intAdd acc c.2) 0

/-- `Coins.safeAdd`, which `Add` is: both sets must be sorted; the coins of each denomination
are added up, the zero sums dropped, and the result sorted. -/
def safeAdd (coins coinsB : Coins) : Except SdkError Coins := do
  failIf (isSorted coins = false) .coinsNotSorted
  failIf (isSorted coinsB = false) .coinsNotSorted
  let all := coins ++ coinsB
  let combos ← (all.map Prod.fst).dedup.mapM fun denom => do
    let amount ← comboAmount (all.filter fun c => c.1 = denom)
    pure (denom, amount)
  pure (sort (combos.filter fun c => c.2 ≠ 0))

/-- `Coins.negative`. -/
def negative (coins : Coins) : Coins := coins.map fun c => (c.1, -c.2)

/-- `Coins.IsAnyNegative`. -/
def isAnyNegative (coins : Coins) : Bool := coins.any fun c => c.2 < 0

/-- `Coins.SafeSub`: the sum with the negated coins, and whether an amount is negative. -/
def safeSub (coins coinsB : Coins) : Except SdkError (Coins × Bool) := do
  let diff ← safeAdd coins (negative coinsB)
  pure (diff, isAnyNegative diff)

/-- `Coins.Sub`: `SafeSub`, where a negative amount panics. -/
def sub (coins coinsB : Coins) : Except SdkError Coins := do
  let (diff, hasNeg) ← safeSub coins coinsB
  if hasNeg then .error .negativeCoinAmount else pure diff

/-- `Coins.IsZero`: every amount is zero (an empty set too). -/
def isZero (coins : Coins) : Bool := coins.all fun c => c.2 = 0

/-- `Coins.IsAllPositive`: a set that is not empty and whose amounts are all positive. -/
def isAllPositive (coins : Coins) : Bool := !coins.isEmpty && coins.all fun c => 0 < c.2

/-- The loop of `Coins.Validate` after the first coin: each denomination above the one before,
each amount positive. -/
def isValidAbove (lowDenom : Denom) : Coins → Bool
  | [] => true
  | c :: rest => decide (lowDenom < c.1) && decide (0 < c.2) && isValidAbove c.1 rest

/-- `Coins.IsValid`: sorted strictly by denomination, with positive amounts. -/
def isValid : Coins → Bool
  | [] => true
  | c :: rest => decide (0 < c.2) && isValidAbove c.1 rest

/-- `NewCoins`: the coins without the zero ones, sorted, which must then be valid. -/
def newCoins (coins : Coins) : Except SdkError Coins := do
  let newCoins := sort (coins.filter fun c => c.2 ≠ 0)
  failIf (isValid newCoins = false) .invalidCoins
  pure newCoins

/-- `Coins.Equal`: as many coins, and the same coins once sorted. -/
def equal (coins coinsB : Coins) : Bool :=
  coins.length == coinsB.length && sort coins == sort coinsB

/-! ## The bank's inputs and outputs -/

/-- `banktypes.Input`. -/
structure Input where
  address : Bytes
  coins : Coins
  deriving DecidableEq, Repr

/-- `banktypes.Output`. -/
structure Output where
  address : Bytes
  coins : Coins
  deriving DecidableEq, Repr

/-- The checks of `Input.ValidateBasic` and `Output.ValidateBasic`: an account address, and a
valid set of positive coins, not empty. `accAddress` is `AccAddressFromBech32`. -/
def validateAddressCoins (accAddress : Bytes → Option Bytes) (address : Bytes) (coins : Coins) :
    Except SdkError Unit := do
  failIf (accAddress address).isNone .invalidAddress
  failIf (isValid coins = false) .invalidCoins
  failIf (isAllPositive coins = false) .invalidCoins

/-- `Input.ValidateBasic`. -/
def Input.validateBasic (accAddress : Bytes → Option Bytes) (i : Input) : Except SdkError Unit :=
  validateAddressCoins accAddress i.address i.coins

/-- `Output.ValidateBasic`. -/
def Output.validateBasic (accAddress : Bytes → Option Bytes) (o : Output) :
    Except SdkError Unit :=
  validateAddressCoins accAddress o.address o.coins

/-- `ValidateInputOutputs`, which `InputOutputCoins` runs first: a valid input, some outputs,
each valid, and the outputs' coins adding up to the input's. -/
def validateInputOutputs (accAddress : Bytes → Option Bytes) (input : Input)
    (outputs : List Output) : Except SdkError Unit := do
  input.validateBasic accAddress
  failIf (outputs = []) .noOutputs
  let totalOut ← outputs.foldlM (fun totalOut out => do
    out.validateBasic accAddress
    safeAdd totalOut out.coins) []
  failIf (equal input.coins totalOut = false) .inputOutputMismatch

/-! ## Spec lemmas -/

/-- A set sorted strictly by denomination. -/
def Strict (l : Coins) : Prop := l.Pairwise fun a b => a.1 < b.1

/-- A set whose amounts are all `math.Int` values: below `2^256` in absolute value. -/
def Bounded (l : Coins) : Prop := ∀ c ∈ l, c.2.natAbs < 2 ^ maxBitLen

/-- A set whose amounts are all positive. -/
def Positive (l : Coins) : Prop := ∀ c ∈ l, 0 < c.2

instance (l : Coins) : Decidable (Strict l) := inferInstanceAs (Decidable (List.Pairwise _ l))

instance (l : Coins) : Decidable (Bounded l) := inferInstanceAs (Decidable (∀ c ∈ l, _))

instance (l : Coins) : Decidable (Positive l) := inferInstanceAs (Decidable (∀ c ∈ l, _))

/-- What `Add` returns: sorted strictly, with amounts that fit and are not zero. -/
structure Normal (l : Coins) : Prop where
  strict : Strict l
  bounded : Bounded l
  ne_zero : ∀ c ∈ l, c.2 ≠ 0

theorem Strict.nodup_keys {l : Coins} (h : Strict l) : (l.map Prod.fst).Nodup :=
  (List.pairwise_map.2 h).imp ne_of_lt

/-- An integer fits when its bit length is at most `MaxBitLen`. -/
theorem not_bitLen_gt_iff (n : ℕ) : ¬bitLen n > maxBitLen ↔ n < 2 ^ maxBitLen := by
  rw [not_lt, bitLen_le_iff]

theorem intAdd_of_lt {a b : ℤ} (h : (a + b).natAbs < 2 ^ maxBitLen) : intAdd a b = .ok (a + b) := by
  rw [intAdd, if_neg ((not_bitLen_gt_iff _).2 h)]

theorem intAdd_eq_ok_iff {a b v : ℤ} :
    intAdd a b = .ok v ↔ (a + b).natAbs < 2 ^ maxBitLen ∧ v = a + b := by
  rw [intAdd, ite_error_eq_ok, not_bitLen_gt_iff]

theorem intSub_eq_ok_iff {a b v : ℤ} :
    intSub a b = .ok v ↔ (a - b).natAbs < 2 ^ maxBitLen ∧ v = a - b := by
  rw [intSub, ite_error_eq_ok, not_bitLen_gt_iff]

theorem newIntFromBigInt_of_lt {x : ℤ} (h : x.natAbs < 2 ^ maxBitLen) :
    newIntFromBigInt x = .ok x := by
  rw [newIntFromBigInt, if_neg ((not_bitLen_gt_iff _).2 h)]

theorem newIntFromBigInt_eq_ok_iff {x v : ℤ} :
    newIntFromBigInt x = .ok v ↔ x.natAbs < 2 ^ maxBitLen ∧ v = x := by
  rw [newIntFromBigInt, ite_error_eq_ok, not_bitLen_gt_iff]

theorem newCoin_eq_ok_iff {denom : Denom} {amount : ℤ} {coin : Coin} :
    newCoin denom amount = .ok coin ↔ 0 ≤ amount ∧ coin = (denom, amount) := by
  rw [newCoin, ite_error_eq_ok, not_lt]

theorem newCoin_of_nonneg {denom : Denom} {amount : ℤ} (h : 0 ≤ amount) :
    newCoin denom amount = .ok (denom, amount) := by
  rw [newCoin, if_neg (not_lt.2 h)]

/-- A set sorted strictly passes `isSorted`. -/
theorem isSorted_of_strict : ∀ {l : Coins}, Strict l → isSorted l = true
  | [], _ => rfl
  | [_], _ => rfl
  | a :: b :: rest, h => by
    obtain ⟨hhead, htail⟩ := List.pairwise_cons.1 h
    rw [isSorted, isSorted_of_strict htail, Bool.and_true, decide_eq_true_eq]
    exact le_of_lt (hhead b List.mem_cons_self)

theorem intAdd_zero_of_lt {x : ℤ} (h : x.natAbs < 2 ^ maxBitLen) : intAdd 0 x = .ok x := by
  rw [intAdd_of_lt (by rwa [zero_add]), zero_add]

theorem comboAmount_singleton {c : Coin} (h : c.2.natAbs < 2 ^ maxBitLen) :
    comboAmount [c] = .ok c.2 := by
  rw [comboAmount, List.foldlM_cons, intAdd_zero_of_lt h, bind_of_ok rfl]
  rfl

theorem comboAmount_pair {c c' : Coin} (h : c.2.natAbs < 2 ^ maxBitLen)
    (h' : (c.2 + c'.2).natAbs < 2 ^ maxBitLen) : comboAmount [c, c'] = .ok (c.2 + c'.2) := by
  rw [comboAmount, List.foldlM_cons, intAdd_zero_of_lt h, bind_of_ok rfl, List.foldlM_cons,
    intAdd_of_lt h', bind_of_ok rfl]
  rfl

section SafeAdd

variable {a b : Coins}

/-- The coins of one denomination of two strictly sorted sets add up to the sum of its amounts,
when that sum fits: there are at most two of them. -/
theorem comboAmount_filter (ha : Strict a) (hb : Strict b) (hba : Bounded a) (hbb : Bounded b)
    {d : Denom} (hfit : (total a d + total b d).natAbs < 2 ^ maxBitLen) :
    comboAmount ((a ++ b).filter fun c => c.1 = d) = .ok (total a d + total b d) := by
  rw [List.filter_append, filter_key_of_strict ha, filter_key_of_strict hb]
  by_cases hka : d ∈ a.map Prod.fst
  · by_cases hkb : d ∈ b.map Prod.fst
    · rw [if_pos hka, if_pos hkb]
      exact comboAmount_pair (hba _ (mem_of_mem_keys ha hka)) hfit
    · rw [if_pos hka, if_neg hkb, total_eq_zero hkb, add_zero]
      exact comboAmount_singleton (hba _ (mem_of_mem_keys ha hka))
  · by_cases hkb : d ∈ b.map Prod.fst
    · rw [if_neg hka, if_pos hkb, total_eq_zero hka, zero_add]
      exact comboAmount_singleton (hbb _ (mem_of_mem_keys hb hkb))
    · rw [if_neg hka, if_neg hkb, total_eq_zero hka, total_eq_zero hkb]
      rfl

/-- The entries `safeAdd` sorts: each denomination of either set with its summed amount, where
that sum is not zero. -/
def addEntries (a b : Coins) : Coins :=
  (((a ++ b).map Prod.fst).dedup.map fun d => (d, total a d + total b d)).filter fun c => c.2 ≠ 0

theorem safeAdd_eq_ok (ha : Strict a) (hb : Strict b) (hba : Bounded a) (hbb : Bounded b)
    (hfit : ∀ d, (total a d + total b d).natAbs < 2 ^ maxBitLen) :
    safeAdd a b = .ok (sort (addEntries a b)) := by
  have hcombos : ((a ++ b).map Prod.fst).dedup.mapM (fun denom => do
      let amount ← comboAmount ((a ++ b).filter fun c => c.1 = denom)
      pure (denom, amount)) =
      .ok (((a ++ b).map Prod.fst).dedup.map fun d => (d, total a d + total b d)) :=
    mapM_eq_ok_of fun d _ => by rw [comboAmount_filter ha hb hba hbb (hfit d), bind_of_ok rfl]; rfl
  simp only [safeAdd, isSorted_of_strict ha, isSorted_of_strict hb, failIf, Bool.true_eq_false,
    if_false, bind_of_ok rfl, hcombos]
  rfl

theorem nodup_keys_addEntries : ((addEntries a b).map Prod.fst).Nodup := by
  have hkeys : (((a ++ b).map Prod.fst).dedup.map fun d => (d, total a d + total b d)).map
      Prod.fst = ((a ++ b).map Prod.fst).dedup := by
    rw [List.map_map]
    exact List.map_id' _
  have hsub : ((addEntries a b).map Prod.fst).Sublist ((a ++ b).map Prod.fst).dedup :=
    hkeys ▸ (List.filter_sublist (l := ((a ++ b).map Prod.fst).dedup.map
      fun d => (d, total a d + total b d))).map Prod.fst
  exact hsub.nodup (List.nodup_dedup _)

/-- The amount of a denomination after `Add` is the sum of its amounts. -/
theorem total_sort_addEntries (d : Denom) :
    total (sort (addEntries a b)) d = total a d + total b d := by
  have hs : Strict (sort (addEntries a b)) := sortByKey_strict nodup_keys_addEntries
  by_cases hmem : (d, total a d + total b d) ∈ addEntries a b
  · exact total_of_mem hs (mem_sortByKey.2 hmem)
  · -- The denomination is missing: from both sets, or because its sum is zero.
    have hnot : d ∉ (sort (addEntries a b)).map Prod.fst := fun hk => by
      obtain ⟨x, hx, rfl⟩ := List.mem_map.1 hk
      obtain ⟨hx, hne⟩ := List.mem_filter.1 (mem_sortByKey.1 hx)
      obtain ⟨e, he, rfl⟩ := List.mem_map.1 hx
      exact hmem (List.mem_filter.2 ⟨List.mem_map.2 ⟨e, he, rfl⟩, hne⟩)
    rw [total_eq_zero hnot]
    by_cases hd : d ∈ ((a ++ b).map Prod.fst).dedup
    · have hzero : ¬(total a d + total b d ≠ 0) := fun hne =>
        hmem (List.mem_filter.2 ⟨List.mem_map.2 ⟨d, hd, rfl⟩, by simpa using hne⟩)
      exact (not_not.1 hzero).symm
    · rw [List.mem_dedup, List.map_append, List.mem_append, not_or] at hd
      rw [total_eq_zero hd.1, total_eq_zero hd.2, add_zero]

theorem normal_sort_addEntries (hfit : ∀ d, (total a d + total b d).natAbs < 2 ^ maxBitLen) :
    Normal (sort (addEntries a b)) where
  strict := sortByKey_strict nodup_keys_addEntries
  bounded c hc := by
    obtain ⟨hc, -⟩ := List.mem_filter.1 (mem_sortByKey.1 hc)
    obtain ⟨d, -, rfl⟩ := List.mem_map.1 hc
    exact hfit d
  ne_zero c hc := by simpa using (List.mem_filter.1 (mem_sortByKey.1 hc)).2

/-- A denomination's coins add up without a panic only when their sum fits. -/
theorem comboAmount_filter_fit (ha : Strict a) (hb : Strict b) (hba : Bounded a) (hbb : Bounded b)
    {d : Denom} {v : ℤ} (h : comboAmount ((a ++ b).filter fun c => c.1 = d) = .ok v) :
    (total a d + total b d).natAbs < 2 ^ maxBitLen := by
  rw [List.filter_append, filter_key_of_strict ha, filter_key_of_strict hb] at h
  by_cases hka : d ∈ a.map Prod.fst
  · by_cases hkb : d ∈ b.map Prod.fst
    · -- Two coins: the second addition is the sum.
      rw [if_pos hka, if_pos hkb, List.singleton_append, comboAmount, List.foldlM_cons,
        intAdd_zero_of_lt (hba _ (mem_of_mem_keys ha hka)), bind_of_ok rfl, List.foldlM_cons,
        bind_eq_ok] at h
      obtain ⟨w, hw, -⟩ := h
      exact (intAdd_eq_ok_iff.1 hw).1
    · rw [total_eq_zero hkb, add_zero]
      exact hba _ (mem_of_mem_keys ha hka)
  · rw [total_eq_zero hka, zero_add]
    by_cases hkb : d ∈ b.map Prod.fst
    · exact hbb _ (mem_of_mem_keys hb hkb)
    · rw [total_eq_zero hkb]
      exact Nat.two_pow_pos _

/-- `Add` of strictly sorted sets succeeds only when every sum fits. -/
theorem safeAdd_fit (ha : Strict a) (hb : Strict b) (hba : Bounded a) (hbb : Bounded b) {r : Coins}
    (h : safeAdd a b = .ok r) (d : Denom) : (total a d + total b d).natAbs < 2 ^ maxBitLen := by
  by_cases hd : d ∈ (a ++ b).map Prod.fst
  · rw [safeAdd, bind_const_eq_ok, bind_const_eq_ok, bind_eq_ok] at h
    obtain ⟨-, -, combos, hcombos, -⟩ := h
    obtain ⟨y, hy⟩ := ok_of_mapM_eq_ok hcombos d (List.mem_dedup.2 hd)
    obtain ⟨v, hv, -⟩ := bind_eq_ok.1 hy
    exact comboAmount_filter_fit ha hb hba hbb hv
  · rw [List.map_append, List.mem_append, not_or] at hd
    rw [total_eq_zero hd.1, total_eq_zero hd.2]
    exact Nat.two_pow_pos _

/-- `Add` of two strictly sorted sets whose sums fit: a normal set holding, of each
denomination, the sum of its amounts. -/
theorem safeAdd_spec (ha : Strict a) (hb : Strict b) (hba : Bounded a) (hbb : Bounded b)
    (hfit : ∀ d, (total a d + total b d).natAbs < 2 ^ maxBitLen) :
    ∃ r, safeAdd a b = .ok r ∧ Normal r ∧ ∀ d, total r d = total a d + total b d :=
  ⟨_, safeAdd_eq_ok ha hb hba hbb hfit, normal_sort_addEntries hfit, total_sort_addEntries⟩

end SafeAdd

section Sub

variable {a b : Coins}

theorem strict_negative (h : Strict a) : Strict (negative a) := List.pairwise_map.2 h

theorem bounded_negative (h : Bounded a) : Bounded (negative a) := by
  intro c hc
  obtain ⟨c', hc', rfl⟩ := List.mem_map.1 hc
  simpa using h c' hc'

theorem total_negative (d : Denom) : total (negative a) d = -total a d := by
  induction a with
  | nil => simp [negative]
  | cons c cs ih =>
    rw [negative, List.map_cons, total_cons, ← negative, ih, total_cons]
    by_cases hc : c.1 = d
    · rw [if_pos hc, if_pos hc, neg_add]
    · rw [if_neg hc, if_neg hc]

/-- A normal set has a negative amount exactly when some denomination's amount is negative. -/
theorem isAnyNegative_eq_false_iff (h : Normal a) :
    isAnyNegative a = false ↔ ∀ d, 0 ≤ total a d := by
  rw [isAnyNegative, List.any_eq_false]
  constructor
  · intro hneg d
    by_cases hd : d ∈ a.map Prod.fst
    · have hmem := mem_of_mem_keys h.strict hd
      simpa using hneg _ hmem
    · rw [total_eq_zero hd]
  · intro hnonneg c hc
    have := hnonneg c.1
    rw [total_of_mem h.strict hc] at this
    simpa using this

/-- `SafeSub` of strictly sorted sets whose differences fit: a normal set of the differences,
flagged when one is negative. -/
theorem safeSub_spec (ha : Strict a) (hb : Strict b) (hba : Bounded a) (hbb : Bounded b)
    (hfit : ∀ d, (total a d - total b d).natAbs < 2 ^ maxBitLen) :
    ∃ r, safeSub a b = .ok (r, isAnyNegative r) ∧ Normal r ∧
      ∀ d, total r d = total a d - total b d := by
  have hfit' : ∀ d, (total a d + total (negative b) d).natAbs < 2 ^ maxBitLen := fun d => by
    rw [total_negative, ← sub_eq_add_neg]
    exact hfit d
  obtain ⟨r, hr, hnormal, htotal⟩ :=
    safeAdd_spec ha (strict_negative hb) hba (bounded_negative hbb) hfit'
  refine ⟨r, by rw [safeSub, hr, bind_of_ok rfl]; rfl, hnormal, fun d => ?_⟩
  rw [htotal, total_negative, ← sub_eq_add_neg]

/-- `Sub` of strictly sorted sets, where the second holds no more of any denomination than the
first: the normal set of the differences, with no panic. -/
theorem sub_spec (ha : Strict a) (hb : Strict b) (hba : Bounded a) (hbb : Bounded b)
    (hle : ∀ d, 0 ≤ total b d ∧ total b d ≤ total a d) :
    ∃ r, sub a b = .ok r ∧ Normal r ∧ ∀ d, total r d = total a d - total b d := by
  -- A difference between zero and an amount fits.
  have hfit : ∀ d, (total a d - total b d).natAbs < 2 ^ maxBitLen := fun d => by
    by_cases hd : d ∈ a.map Prod.fst
    · have ha' := hba _ (mem_of_mem_keys ha hd)
      obtain ⟨h0, h1⟩ := hle d
      simp only at ha'
      omega
    · obtain ⟨h0, h1⟩ := hle d
      rw [total_eq_zero hd] at h1 ⊢
      have : total b d = 0 := le_antisymm h1 h0
      rw [this]
      simp [maxBitLen]
  obtain ⟨r, hr, hnormal, htotal⟩ := safeSub_spec ha hb hba hbb hfit
  have hnonneg : isAnyNegative r = false :=
    (isAnyNegative_eq_false_iff hnormal).2 fun d => by rw [htotal]; exact sub_nonneg.2 (hle d).2
  refine ⟨r, ?_, hnormal, htotal⟩
  rw [sub, hr, bind_of_ok rfl, hnonneg]
  rfl

end Sub

/-! ### Normal sets -/

/-- Normal sets with the same amounts are equal. -/
theorem Normal.ext {a b : Coins} (ha : Normal a) (hb : Normal b)
    (h : ∀ d, total a d = total b d) : a = b := by
  -- An entry of a normal set is a denomination with its amount, which is not zero.
  have hmem : ∀ {l : Coins}, Normal l → ∀ d v, (d, v) ∈ l ↔ total l d = v ∧ v ≠ 0 :=
    fun {l} hl d v => by
      constructor
      · intro hv
        exact ⟨total_of_mem hl.strict hv, hl.ne_zero _ hv⟩
      · rintro ⟨rfl, hne⟩
        by_contra hnot
        have hd : d ∉ l.map Prod.fst := fun hd => hnot (mem_of_mem_keys hl.strict hd)
        exact hne (total_eq_zero hd)
  refine SortedMap.eq_of_lookup_eq ha.strict hb.strict fun d => Option.ext fun v => ?_
  rw [SortedMap.lookup_eq_some_iff ha.strict, SortedMap.lookup_eq_some_iff hb.strict, hmem ha,
    hmem hb, h]

theorem normal_nil : Normal [] := ⟨List.Pairwise.nil, fun _ h => absurd h List.not_mem_nil,
  fun _ h => absurd h List.not_mem_nil⟩

/-- Every amount of a normal set fits. -/
theorem Normal.natAbs_total_lt {l : Coins} (h : Normal l) (d : Denom) :
    (total l d).natAbs < 2 ^ maxBitLen := by
  by_cases hd : d ∈ l.map Prod.fst
  · exact h.bounded _ (mem_of_mem_keys h.strict hd)
  · rw [total_eq_zero hd]
    exact Nat.two_pow_pos _

/-- A normal set with no negative amount has positive amounts. -/
theorem Normal.positive {l : Coins} (h : Normal l) (hnn : ∀ d, 0 ≤ total l d) : Positive l :=
  fun c hc => by
    have h0 := hnn c.1
    rw [total_of_mem h.strict hc] at h0
    exact lt_of_le_of_ne h0 (Ne.symm (h.ne_zero c hc))

/-- A normal set is zero exactly when it is empty. -/
theorem isZero_eq_true_iff {a : Coins} (h : Normal a) : isZero a = true ↔ a = [] := by
  rw [isZero, List.all_eq_true]
  constructor
  · intro hz
    cases a with
    | nil => rfl
    | cons c cs => exact absurd (by simpa using hz c List.mem_cons_self) (h.ne_zero c List.mem_cons_self)
  · rintro rfl
    simp

/-- `Equal` of normal sets is equality of their amounts. -/
theorem equal_eq_true_iff {a b : Coins} (ha : Normal a) (hb : Normal b) :
    equal a b = true ↔ ∀ d, total a d = total b d := by
  rw [equal, sort, sort, sortByKey_eq_self ha.strict, sortByKey_eq_self hb.strict]
  constructor
  · intro h d
    simp only [Bool.and_eq_true, beq_iff_eq] at h
    rw [h.2]
  · intro h
    rw [Normal.ext ha hb h]
    simp

/-! ### Validity -/

theorem isValidAbove_eq_true_iff {low : Denom} :
    ∀ {l : Coins}, isValidAbove low l = true ↔ (∀ c ∈ l, low < c.1) ∧ Strict l ∧ Positive l
  | [] => by simp [isValidAbove, Strict, Positive]
  | c :: rest => by
    simp only [isValidAbove, Bool.and_eq_true, decide_eq_true_eq, isValidAbove_eq_true_iff, Strict,
      List.pairwise_cons, Positive, List.forall_mem_cons]
    -- The bound on the rest is the bound on the first coin, carried by the order.
    constructor
    · rintro ⟨⟨hlow, hpos⟩, habove, hstrict, hrest⟩
      exact ⟨⟨hlow, fun x hx => lt_trans hlow (habove x hx)⟩, ⟨habove, hstrict⟩, hpos, hrest⟩
    · rintro ⟨⟨hlow, -⟩, ⟨habove, hstrict⟩, hpos, hrest⟩
      exact ⟨⟨hlow, hpos⟩, habove, hstrict, hrest⟩

/-- `IsValid` is a set sorted strictly with positive amounts. -/
theorem isValid_eq_true_iff : ∀ {l : Coins}, isValid l = true ↔ Strict l ∧ Positive l
  | [] => by simp [isValid, Strict, Positive]
  | c :: rest => by
    simp only [isValid, Bool.and_eq_true, decide_eq_true_eq, isValidAbove_eq_true_iff, Strict,
      List.pairwise_cons, Positive, List.forall_mem_cons]
    constructor
    · rintro ⟨hpos, habove, hstrict, hrest⟩
      exact ⟨⟨habove, hstrict⟩, hpos, hrest⟩
    · rintro ⟨⟨habove, hstrict⟩, hpos, hrest⟩
      exact ⟨hpos, habove, hstrict, hrest⟩

theorem isAllPositive_eq_true_iff {l : Coins} : isAllPositive l = true ↔ l ≠ [] ∧ Positive l := by
  simp [isAllPositive, Positive, List.isEmpty_eq_false_iff]

/-- The checks of an input or an output: an address, and a strictly sorted set of positive
amounts that is not empty. -/
theorem validateAddressCoins_eq_ok {accAddress : Bytes → Option Bytes} {address : Bytes}
    {coins : Coins} :
    validateAddressCoins accAddress address coins = .ok () ↔
      (accAddress address).isSome ∧ Strict coins ∧ coins ≠ [] ∧ Positive coins := by
  simp only [validateAddressCoins, bind_const_eq_ok, failIf_eq_ok, Bool.not_eq_false,
    isValid_eq_true_iff, isAllPositive_eq_true_iff, Option.isNone_iff_eq_none,
    Option.isSome_iff_ne_none]
  tauto

/-- A nonnegative integer below `2^MaxBitLen` fits. -/
theorem natAbs_lt_of_nonneg {x : ℤ} (h0 : 0 ≤ x) (h : x < 2 ^ maxBitLen) :
    x.natAbs < 2 ^ maxBitLen := by
  have hcast : ((2 ^ maxBitLen : ℕ) : ℤ) = 2 ^ maxBitLen := by push_cast; rfl
  omega

/-- An integer that fits is below `2^MaxBitLen`. -/
theorem lt_of_natAbs_lt {x : ℤ} (h : x.natAbs < 2 ^ maxBitLen) : x < 2 ^ maxBitLen := by
  have hcast : ((2 ^ maxBitLen : ℕ) : ℤ) = 2 ^ maxBitLen := by push_cast; rfl
  omega

theorem total_nonneg {l : Coins} (h : Positive l) (d : Denom) : 0 ≤ total l d := by
  induction l with
  | nil => rfl
  | cons c cs ih =>
    rw [Positive, List.forall_mem_cons] at h
    rw [total_cons]
    split
    · exact add_nonneg (le_of_lt h.1) (ih h.2)
    · exact ih h.2

/-- A strictly sorted set of positive amounts is normal when its amounts fit. -/
theorem Normal.of_positive {l : Coins} (hs : Strict l) (hp : Positive l) (hb : Bounded l) :
    Normal l :=
  ⟨hs, hb, fun c hc => ne_of_gt (hp c hc)⟩

/-! ### Single coins -/

/-- Coins of one denomination compare by amount. -/
theorem coinIsLT_of_denom_eq {coin other : Coin} (h : coin.1 = other.1) :
    coinIsLT coin other = .ok (decide (coin.2 < other.2)) := by
  simp [coinIsLT, failIf, h]

/-- `Coin.Sub` succeeds exactly on coins of one denomination whose difference fits and is not
negative. -/
theorem coinSub_eq_ok {coin coinB r : Coin} :
    coinSub coin coinB = .ok r ↔ coin.1 = coinB.1 ∧ 0 ≤ coin.2 - coinB.2 ∧
      (coin.2 - coinB.2).natAbs < 2 ^ maxBitLen ∧ r = (coin.1, coin.2 - coinB.2) := by
  rw [coinSub, bind_const_eq_ok, failIf_eq_ok, not_not, bind_eq_ok]
  constructor
  · rintro ⟨hd, amount, ha, hrest⟩
    obtain ⟨hfit, rfl⟩ := intSub_eq_ok_iff.1 ha
    rw [bind_const_eq_ok, failIf_eq_ok, pure_eq_ok, not_lt] at hrest
    exact ⟨hd, hrest.1, hfit, hrest.2.symm⟩
  · rintro ⟨hd, hnn, hfit, rfl⟩
    refine ⟨hd, _, intSub_eq_ok_iff.2 ⟨hfit, rfl⟩, ?_⟩
    rw [bind_const_eq_ok, failIf_eq_ok, pure_eq_ok, not_lt]
    exact ⟨hnn, rfl⟩

/-- `NewCoins` of one coin that is not negative: the coin, unless it is zero. -/
theorem newCoins_singleton {coin : Coin} (h : 0 ≤ coin.2) :
    newCoins [coin] = .ok ([coin].filter fun c => c.2 ≠ 0) := by
  have hs : Strict ([coin].filter fun c => c.2 ≠ 0) :=
    (List.pairwise_singleton _ coin).sublist List.filter_sublist
  have hp : Positive ([coin].filter fun c => c.2 ≠ 0) := by
    intro c hc
    obtain ⟨rfl, hne⟩ : c = coin ∧ c.2 ≠ 0 := by simpa using hc
    exact lt_of_le_of_ne h (Ne.symm hne)
  rw [newCoins, sort, sortByKey_eq_self hs, bind_of_ok (failIf_eq_ok.2 ?_)]
  · rfl
  · simpa using isValid_eq_true_iff.2 ⟨hs, hp⟩

/-- The coins `NewCoins` makes of one coin that is not negative carry its amount. -/
theorem total_newCoins_singleton {coin : Coin} {r : Coins} (h : 0 ≤ coin.2)
    (hr : newCoins [coin] = .ok r) (d : Denom) :
    total r d = if coin.1 = d then coin.2 else 0 := by
  rw [newCoins_singleton h, Except.ok.injEq] at hr
  rw [← hr, total_filter_ne_zero, total_singleton]

/-! ### The bank's input and output check -/

/-- The amount of a denomination the outputs carry together. -/
def outputsTotal (outputs : List Output) (d : Denom) : ℤ := (outputs.map fun o => total o.coins d).sum

@[simp]
theorem outputsTotal_nil (d : Denom) : outputsTotal [] d = 0 := rfl

@[simp]
theorem outputsTotal_cons (o : Output) (outputs : List Output) (d : Denom) :
    outputsTotal (o :: outputs) d = total o.coins d + outputsTotal outputs d := rfl

theorem outputsTotal_append (o₁ o₂ : List Output) (d : Denom) :
    outputsTotal (o₁ ++ o₂) d = outputsTotal o₁ d + outputsTotal o₂ d := by
  simp [outputsTotal]

section Outputs

variable {accAddress : Bytes → Option Bytes}

/-- An output that passes its check holds no negative amount. -/
theorem total_nonneg_of_validateBasic {o : Output} (h : o.validateBasic accAddress = .ok ())
    (d : Denom) : 0 ≤ total o.coins d :=
  total_nonneg (validateAddressCoins_eq_ok.1 h).2.2.2 d

theorem outputsTotal_nonneg {outputs : List Output}
    (h : ∀ o ∈ outputs, o.validateBasic accAddress = .ok ()) (d : Denom) :
    0 ≤ outputsTotal outputs d :=
  List.sum_nonneg fun x hx => by
    obtain ⟨o, ho, rfl⟩ := List.mem_map.1 hx
    exact total_nonneg_of_validateBasic (h o ho) d

/-- The loop of `ValidateInputOutputs` over outputs that pass their checks, from a normal sum:
the sum of all of them, as long as it fits. -/
theorem foldOutputs_eq_ok : ∀ {outputs : List Output} {acc : Coins},
    (∀ o ∈ outputs, o.validateBasic accAddress = .ok ()) → (∀ o ∈ outputs, Bounded o.coins) →
    Normal acc → (∀ d, 0 ≤ total acc d) →
    (∀ d, total acc d + outputsTotal outputs d < 2 ^ maxBitLen) →
    ∃ r, outputs.foldlM (fun totalOut (out : Output) => do
        out.validateBasic accAddress
        safeAdd totalOut out.coins) acc = .ok r ∧
      Normal r ∧ ∀ d, total r d = total acc d + outputsTotal outputs d
  | [], acc, _, _, hacc, _, _ => ⟨acc, rfl, hacc, fun d => by simp⟩
  | o :: os, acc, hv, hb, hacc, hnonneg, hfit => by
    have hvo := hv o List.mem_cons_self
    have hvos : ∀ o' ∈ os, o'.validateBasic accAddress = .ok () :=
      fun o' h => hv o' (List.mem_cons_of_mem o h)
    have hos := outputsTotal_nonneg hvos
    have ho := total_nonneg_of_validateBasic hvo
    -- The sum so far and the next output fit: they are below the whole sum.
    have hstep : ∀ d, (total acc d + total o.coins d).natAbs < 2 ^ maxBitLen := fun d => by
      have hlt := hfit d
      rw [outputsTotal_cons] at hlt
      have hrest := hos d
      exact natAbs_lt_of_nonneg (add_nonneg (hnonneg d) (ho d)) (by omega)
    obtain ⟨t, ht, htn, htt⟩ := safeAdd_spec hacc.strict (validateAddressCoins_eq_ok.1 hvo).2.1
      hacc.bounded (hb o List.mem_cons_self) hstep
    obtain ⟨r, hr, hrn, hrt⟩ := foldOutputs_eq_ok hvos (fun o' h => hb o' (List.mem_cons_of_mem o h))
      htn (fun d => by rw [htt]; exact add_nonneg (hnonneg d) (ho d))
      (fun d => by rw [htt, add_assoc]; simpa using hfit d)
    refine ⟨r, ?_, hrn, fun d => by rw [hrt, htt, outputsTotal_cons, add_assoc]⟩
    rw [List.foldlM_cons, hvo, bind_of_ok rfl, ht, bind_of_ok rfl, hr]

/-- When the loop of `ValidateInputOutputs` succeeds from a normal sum, every output passed its
check and the result is the normal sum of all of them. -/
theorem foldOutputs_of_eq_ok : ∀ {outputs : List Output} {acc r : Coins},
    (∀ o ∈ outputs, Bounded o.coins) → Normal acc →
    outputs.foldlM (fun totalOut (out : Output) => do
        out.validateBasic accAddress
        safeAdd totalOut out.coins) acc = .ok r →
    (∀ o ∈ outputs, o.validateBasic accAddress = .ok ()) ∧ Normal r ∧
      ∀ d, total r d = total acc d + outputsTotal outputs d
  | [], acc, r, _, hacc, h => by
    rw [List.foldlM_nil] at h
    cases h
    exact ⟨fun _ h => absurd h List.not_mem_nil, hacc, fun d => by simp⟩
  | o :: os, acc, r, hb, hacc, h => by
    rw [List.foldlM_cons, bind_eq_ok] at h
    obtain ⟨t, ht, hrest⟩ := h
    obtain ⟨hvo, hadd⟩ := bind_const_eq_ok.1 ht
    have hs := (validateAddressCoins_eq_ok.1 hvo).2.1
    have hbo := hb o List.mem_cons_self
    -- The step succeeded, so its sums fit and it is the normal sum.
    obtain ⟨t', ht', htn, htt⟩ :=
      safeAdd_spec hacc.strict hs hacc.bounded hbo (safeAdd_fit hacc.strict hs hacc.bounded hbo hadd)
    obtain rfl : t = t' := Except.ok.inj (hadd.symm.trans ht')
    obtain ⟨hvs, hrn, hrt⟩ :=
      foldOutputs_of_eq_ok (fun o' h => hb o' (List.mem_cons_of_mem o h)) htn hrest
    refine ⟨List.forall_mem_cons.2 ⟨hvo, hvs⟩, hrn, fun d => ?_⟩
    rw [hrt, htt, outputsTotal_cons, add_assoc]

/-- What an accepted `ValidateInputOutputs` establishes: a valid input, outputs that pass their
checks, and the outputs carrying, of each denomination, what the input holds. -/
theorem validateInputOutputs_of_eq_ok {input : Input} {outputs : List Output}
    (hbin : Bounded input.coins) (hb : ∀ o ∈ outputs, Bounded o.coins)
    (h : validateInputOutputs accAddress input outputs = .ok ()) :
    input.validateBasic accAddress = .ok () ∧ outputs ≠ [] ∧
      (∀ o ∈ outputs, o.validateBasic accAddress = .ok ()) ∧
      ∀ d, total input.coins d = outputsTotal outputs d := by
  rw [validateInputOutputs, bind_const_eq_ok, bind_const_eq_ok, bind_eq_ok] at h
  obtain ⟨hin, hne, r, hr, hequal⟩ := h
  obtain ⟨hv, hrn, hrt⟩ := foldOutputs_of_eq_ok hb normal_nil hr
  have hinput := validateAddressCoins_eq_ok.1 hin
  have hinn : Normal input.coins := Normal.of_positive hinput.2.1 hinput.2.2.2 hbin
  rw [failIf_eq_ok, Bool.not_eq_false, equal_eq_true_iff hinn hrn] at hequal
  refine ⟨hin, failIf_eq_ok.1 hne, hv, fun d => ?_⟩
  rw [hequal, hrt, total_nil, zero_add]

/-- `ValidateInputOutputs` of a valid input and outputs that pass their checks, where every
amount fits: it accepts exactly when the outputs carry, of each denomination, what the input
holds. -/
theorem validateInputOutputs_eq_ok {input : Input} {outputs : List Output}
    (hin : input.validateBasic accAddress = .ok ()) (hbin : Bounded input.coins)
    (hne : outputs ≠ []) (hv : ∀ o ∈ outputs, o.validateBasic accAddress = .ok ())
    (hb : ∀ o ∈ outputs, Bounded o.coins) (hfit : ∀ d, outputsTotal outputs d < 2 ^ maxBitLen) :
    validateInputOutputs accAddress input outputs = .ok () ↔
      ∀ d, total input.coins d = outputsTotal outputs d := by
  obtain ⟨r, hr, hrn, hrt⟩ :=
    foldOutputs_eq_ok hv hb normal_nil (fun d => le_refl _) (fun d => by simpa using hfit d)
  have hinput := validateAddressCoins_eq_ok.1 hin
  have hinn : Normal input.coins := Normal.of_positive hinput.2.1 hinput.2.2.2 hbin
  -- Only the comparison with the sum is left to decide.
  have hval : validateInputOutputs accAddress input outputs =
      failIf (equal input.coins r = false) .inputOutputMismatch := by
    rw [validateInputOutputs, bind_of_ok hin, bind_of_ok (failIf_eq_ok.2 hne), bind_of_ok hr]
  rw [hval, failIf_eq_ok, Bool.not_eq_false, equal_eq_true_iff hinn hrn]
  simp only [hrt, total_nil, zero_add]

end Outputs

end Xion.Sdk
