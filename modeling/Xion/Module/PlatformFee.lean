import Xion.Sdk.Coins
import Mathlib.Data.Rat.Floor

/-!
# The platform fee

`getPlatformCoins` and `meetsConfiguredMinimums` of `x/xion/keeper/msg_server.go`. The fee of a
coin is `amount · percentage / 10000` rounded up, computed by one of two paths: with `big.Int`
when the amount is above `maxSafeAmount = (2^64 - 1) / percentage`, and with `math.Int` below.
For a positive amount of `math.Int` and a percentage in `(0, 10000]`, both give the ceiling
(`platformFee_eq_ok`, `ceilFee_eq_ceil`), which is positive and at most the amount
(`ceilFee_pos`, `ceilFee_le`).

On a valid coin set, `getPlatformCoins` is then the normal set of the fees of its denominations
(`getPlatformCoins_spec`), and taking it from the coin set, with `Sub` as `Send` does or with
`SafeSub` as `MultiSend` does, leaves no negative amount (`sub_getPlatformCoins`,
`safeSub_getPlatformCoins`).
-/

namespace Xion.Module

open Bytes Run KeyedList Sdk

/-- `math.MaxUint64`. -/
def maxUint64 : ℤ := 2 ^ 64 - 1

/-- The fee of one coin in `getPlatformCoins`: with `big.Int` above `maxSafeAmount`, where
nothing bounds the product until `NewIntFromBigInt`, and with `math.Int` below. Both divisions
truncate, as `Quo` does. -/
def platformFee (amount percentage : ℤ) : Except SdkError ℤ :=
  let maxSafeAmount := maxUint64.tdiv percentage
  if amount > maxSafeAmount then
    newIntFromBigInt ((amount * percentage + (10000 - 1)).tdiv 10000)
  else do
    let product ← intMul amount percentage
    let sum ← intAdd product 9999
    pure (sum.tdiv 10000)

/-- `getPlatformCoins`: the fees of the coins, each added with `Coins.Add`; a zero percentage
adds a zero coin for each, which `Add` drops. -/
def getPlatformCoins (coins : Coins) (percentage : ℤ) : Except SdkError Coins :=
  if percentage = 0 then
    coins.foldlM (fun platformCoins coin => do
      let c ← newCoin coin.1 0
      safeAdd platformCoins [c]) []
  else
    coins.foldlM (fun platformCoins coin => do
      let fee ← platformFee coin.2 percentage
      let c ← newCoin coin.1 fee
      safeAdd platformCoins [c]) []

/-- `meetsConfiguredMinimums`: minimums must be configured, every denomination sent must have
one (a later minimum of a denomination replaces an earlier one), and every amount must reach its
minimum unless that is zero. -/
def meetsConfiguredMinimums (amt mins : Coins) : Bool :=
  if mins.length = 0 then false
  else
    let minMap : Denom → Option ℤ :=
      mins.foldl (fun minMap m => fun d => if d = m.1 then some m.2 else minMap d) fun _ => none
    amt.all fun c =>
      match minMap c.1 with
      | none => false
      | some min => !(min ≠ 0 && c.2 < min)

/-! ## The fee of a coin -/

/-- The fee that the platform takes of an amount: `amount · percentage / 10000`, rounded up. -/
def ceilFee (percentage amount : ℤ) : ℤ := (amount * percentage + 9999) / 10000

/-- Adding `9999` before dividing by `10000` rounds up. -/
theorem ceilFee_eq_ceil (percentage amount : ℤ) :
    ceilFee percentage amount = ⌈(amount * percentage : ℚ) / 10000⌉ := by
  rw [eq_comm, Int.ceil_eq_iff, ceilFee]
  have h1 : ((amount * percentage + 9999) / 10000 - 1) * 10000 < amount * percentage := by omega
  have h2 : amount * percentage ≤ (amount * percentage + 9999) / 10000 * 10000 := by omega
  constructor
  · rw [lt_div_iff₀ (by norm_num)]
    exact_mod_cast h1
  · rw [div_le_iff₀ (by norm_num)]
    exact_mod_cast h2

@[simp]
theorem ceilFee_zero (percentage : ℤ) : ceilFee percentage 0 = 0 := by
  simp [ceilFee]

section Fee

variable {amount percentage : ℤ}

/-- The fee of a percentage up to `10000` is at most the amount. -/
theorem ceilFee_le (ha : 0 ≤ amount) (hp : percentage ≤ 10000) : ceilFee percentage amount ≤ amount := by
  have h : amount * percentage ≤ amount * 10000 := mul_le_mul_of_nonneg_left hp ha
  rw [ceilFee]
  omega

/-- A positive amount pays a positive fee to a positive percentage. -/
theorem ceilFee_pos (ha : 0 < amount) (hp : 0 < percentage) : 0 < ceilFee percentage amount := by
  have h : 0 < amount * percentage := mul_pos ha hp
  rw [ceilFee]
  omega

theorem ceilFee_nonneg (ha : 0 ≤ amount) (hp : 0 ≤ percentage) : 0 ≤ ceilFee percentage amount := by
  have h : 0 ≤ amount * percentage := mul_nonneg ha hp
  rw [ceilFee]
  omega

/-- A value below `2^64` has at most 64 bits. -/
theorem bitLen_natAbs_le_64 {x : ℤ} (h0 : 0 ≤ x) (h : x < 2 ^ 64) : bitLen x.natAbs ≤ 64 := by
  rw [bitLen_le_iff]
  omega

/-- Below `maxSafeAmount`, the product is below `2^64`: `math.Int` cannot overflow. -/
theorem mul_lt_of_le_maxSafe (hp : 0 < percentage)
    (hsafe : amount ≤ maxUint64.tdiv percentage) : amount * percentage < 2 ^ 64 := by
  rw [Int.tdiv_eq_ediv_of_nonneg (by decide)] at hsafe
  have h : amount * percentage ≤ maxUint64 / percentage * percentage :=
    mul_le_mul_of_nonneg_right hsafe (le_of_lt hp)
  have h' : maxUint64 / percentage * percentage ≤ maxUint64 := Int.ediv_mul_le _ (ne_of_gt hp)
  rw [maxUint64] at h h'
  omega

/-- Both paths of `platformFee` compute the rounded-up fee of a positive amount of `math.Int`,
for a percentage in `(0, 10000]`. -/
theorem platformFee_eq_ok (ha : 0 < amount) (hb : amount.natAbs < 2 ^ maxBitLen)
    (hp : 0 < percentage) (hp' : percentage ≤ 10000) :
    platformFee amount percentage = .ok (ceilFee percentage amount) := by
  have hnum : 0 ≤ amount * percentage + 9999 := by
    have := mul_pos ha hp
    omega
  rw [platformFee]
  split
  · -- The `big.Int` path: the quotient is the fee, which is at most the amount and so fits.
    rw [show (10000 - 1 : ℤ) = 9999 from rfl, Int.tdiv_eq_ediv_of_nonneg hnum]
    have hle := ceilFee_le (le_of_lt ha) hp'
    have hfit : (ceilFee percentage amount).natAbs < 2 ^ maxBitLen := by
      have := ceilFee_nonneg (le_of_lt ha) (le_of_lt hp)
      omega
    exact newIntFromBigInt_of_lt hfit
  · -- The `math.Int` path: the product is below `2^64`, so neither `Mul` nor `Add` panics.
    rename_i hsafe
    have hprod := mul_lt_of_le_maxSafe hp (not_lt.1 hsafe)
    have hpos := mul_pos ha hp
    have hle : amount ≤ amount * percentage := le_mul_of_one_le_right (le_of_lt ha) (by omega)
    have hbits : ¬bitLen amount.natAbs + bitLen percentage.natAbs - 1 > maxBitLen := by
      have h1 := bitLen_natAbs_le_64 (le_of_lt ha) (by omega)
      have h2 := bitLen_natAbs_le_64 (le_of_lt hp) (by omega)
      rw [maxBitLen]
      omega
    have hmul : intMul amount percentage = .ok (amount * percentage) := by
      rw [intMul, if_neg hbits, if_neg ((not_bitLen_gt_iff _).2 (by rw [maxBitLen]; omega))]
    rw [hmul, bind_of_ok rfl, intAdd_of_lt (by rw [maxBitLen]; omega), bind_of_ok rfl,
      Int.tdiv_eq_ediv_of_nonneg hnum]
    rfl

end Fee

/-! ## The fees of a coin set -/

/-- What is left of a coin set once the platform has taken its fee of each coin; the coins of
which nothing is left are dropped. -/
def afterFee (percentage : ℤ) (coins : Coins) : Coins :=
  (coins.map fun c => (c.1, c.2 - ceilFee percentage c.2)).filter fun c => c.2 ≠ 0

section AfterFee

variable {percentage : ℤ} {coins : Coins}

theorem total_afterFee (hs : Strict coins) (d : Denom) :
    total (afterFee percentage coins) d = total coins d - ceilFee percentage (total coins d) := by
  rw [afterFee, total_filter_ne_zero,
    total_map_snd (g := fun x => x - ceilFee percentage x) (by simp) hs.nodup_keys]

theorem strict_afterFee (hs : Strict coins) : Strict (afterFee percentage coins) := by
  have hmap : Strict (coins.map fun c => (c.1, c.2 - ceilFee percentage c.2)) :=
    List.pairwise_map.2 hs
  exact hmap.filter _

/-- What is left of a positive amount after a fee of at most `10000` is between zero and the
amount. -/
theorem sub_ceilFee_mem {a : ℤ} (ha : 0 < a) (hp : 0 ≤ percentage) (hp' : percentage ≤ 10000) :
    0 ≤ a - ceilFee percentage a ∧ a - ceilFee percentage a ≤ a :=
  ⟨sub_nonneg.2 (ceilFee_le (le_of_lt ha) hp'),
    sub_le_self _ (ceilFee_nonneg (le_of_lt ha) hp)⟩

/-- A coin left after the fee is a coin of the set, less its fee, with something left. -/
theorem mem_afterFee {c : Coin} :
    c ∈ afterFee percentage coins ↔
      ∃ x ∈ coins, c = (x.1, x.2 - ceilFee percentage x.2) ∧ x.2 - ceilFee percentage x.2 ≠ 0 := by
  rw [afterFee, List.mem_filter, List.mem_map]
  constructor
  · rintro ⟨⟨x, hx, rfl⟩, hne⟩
    exact ⟨x, hx, rfl, by simpa using hne⟩
  · rintro ⟨x, hx, rfl, hne⟩
    exact ⟨⟨x, hx, rfl⟩, by simpa using hne⟩

theorem positive_afterFee (hpos : Positive coins) (hp : 0 ≤ percentage)
    (hp' : percentage ≤ 10000) : Positive (afterFee percentage coins) := fun c hc => by
  obtain ⟨x, hx, rfl, hne⟩ := mem_afterFee.1 hc
  exact lt_of_le_of_ne (sub_ceilFee_mem (hpos x hx) hp hp').1 (Ne.symm hne)

/-- On a valid coin set of `math.Int` amounts and a percentage in `[0, 10000]`, what is left
after the fee is a normal set. -/
theorem normal_afterFee (hv : isValid coins = true) (hb : Bounded coins) (hp : 0 ≤ percentage)
    (hp' : percentage ≤ 10000) : Normal (afterFee percentage coins) := by
  obtain ⟨hs, hpos⟩ := isValid_eq_true_iff.1 hv
  refine Normal.of_positive (strict_afterFee hs) (positive_afterFee hpos hp hp') fun c hc => ?_
  · obtain ⟨x, hx, rfl, -⟩ := mem_afterFee.1 hc
    have h := sub_ceilFee_mem (hpos x hx) hp hp'
    have := hb x hx
    simp only at this ⊢
    omega

/-- Something is left of a positive coin set exactly when some coin is more than its fee. -/
theorem afterFee_ne_nil_iff (hpos : Positive coins) (hp' : percentage ≤ 10000) :
    afterFee percentage coins ≠ [] ↔ ∃ c ∈ coins, ceilFee percentage c.2 < c.2 := by
  rw [Ne, List.eq_nil_iff_forall_not_mem]
  constructor
  · intro h
    obtain ⟨c, hc⟩ := not_forall_not.1 h
    obtain ⟨x, hx, -, hne⟩ := mem_afterFee.1 hc
    exact ⟨x, hx, lt_of_le_of_ne (ceilFee_le (le_of_lt (hpos x hx)) hp') fun he => hne (by omega)⟩
  · rintro ⟨c, hc, hlt⟩ hnil
    exact hnil _ (mem_afterFee.2 ⟨c, hc, rfl, by omega⟩)

end AfterFee

section Coins

variable {percentage : ℤ}

/-- A strictly sorted set lists each denomination once: after its first coin, no other coin
has that denomination. -/
theorem total_tail_eq_zero {c : Coin} {cs : Coins} (h : Strict (c :: cs)) : total cs c.1 = 0 :=
  total_eq_zero fun hmem => by
    obtain ⟨x, hx, hx1⟩ := List.mem_map.1 hmem
    exact lt_irrefl c.1 (hx1 ▸ (List.pairwise_cons.1 h).1 x hx)

/-- The loop of `getPlatformCoins` over the rest of a valid coin set, from fees that hold none of
its denominations: it adds the fee of each. -/
theorem foldFees_eq_ok (hp : 0 < percentage) (hp' : percentage ≤ 10000) :
    ∀ {coins acc : Coins}, Strict coins → Positive coins → Bounded coins → Normal acc →
      (∀ c ∈ coins, total acc c.1 = 0) →
      ∃ r, coins.foldlM (fun platformCoins coin => do
          let fee ← platformFee coin.2 percentage
          let c ← newCoin coin.1 fee
          safeAdd platformCoins [c]) acc = .ok r ∧
        Normal r ∧ ∀ d, total r d = total acc d + ceilFee percentage (total coins d)
  | [], acc, _, _, _, hacc, _ => ⟨acc, rfl, hacc, fun d => by simp⟩
  | c :: cs, acc, hs, hpos, hb, hacc, hfresh => by
    have hc0 : 0 < c.2 := hpos c List.mem_cons_self
    have hcb : c.2.natAbs < 2 ^ maxBitLen := hb c List.mem_cons_self
    have hf0 := ceilFee_pos hc0 hp
    have hfle := ceilFee_le (le_of_lt hc0) hp'
    have hfb : (ceilFee percentage c.2).natAbs < 2 ^ maxBitLen := by omega
    -- Adding the fee of `c` fits: its denomination holds nothing yet.
    have hfit : ∀ d, (total acc d + total [(c.1, ceilFee percentage c.2)] d).natAbs <
        2 ^ maxBitLen := fun d => by
      rw [total_singleton]
      by_cases hd : c.1 = d
      · rw [if_pos hd, ← hd, hfresh c List.mem_cons_self, zero_add]
        exact hfb
      · rw [if_neg hd, add_zero]
        exact hacc.natAbs_total_lt d
    obtain ⟨t, ht, htn, htt⟩ := safeAdd_spec hacc.strict (List.pairwise_singleton _ _)
      hacc.bounded (fun x hx => by rw [List.mem_singleton.1 hx]; exact hfb) hfit
    have hfresh' : ∀ x ∈ cs, total t x.1 = 0 := fun x hx => by
      have hne : c.1 ≠ x.1 := ne_of_lt ((List.pairwise_cons.1 hs).1 x hx)
      rw [htt, hfresh x (List.mem_cons_of_mem c hx), total_singleton, if_neg hne, add_zero]
    obtain ⟨r, hr, hrn, hrt⟩ := foldFees_eq_ok hp hp' (List.pairwise_cons.1 hs).2
      (fun x hx => hpos x (List.mem_cons_of_mem c hx)) (fun x hx => hb x (List.mem_cons_of_mem c hx))
      htn hfresh'
    refine ⟨r, ?_, hrn, fun d => ?_⟩
    · rw [List.foldlM_cons, platformFee_eq_ok hc0 hcb hp hp', bind_of_ok rfl,
        newCoin_of_nonneg (le_of_lt hf0), bind_of_ok rfl, ht, bind_of_ok rfl, hr]
    · -- The fee of the denomination of `c` is its coin's; the others' come from the rest.
      rw [hrt, htt, total_singleton, total_cons]
      by_cases hd : c.1 = d
      · rw [if_pos hd, if_pos hd, ← hd, total_tail_eq_zero hs, ceilFee_zero, add_zero, add_zero]
      · rw [if_neg hd, if_neg hd, add_zero]

/-- `getPlatformCoins` of a valid coin set, for a percentage in `(0, 10000]`: the normal set
holding, of each denomination, the rounded-up fee of its amount. -/
theorem getPlatformCoins_spec {coins : Coins} (hv : isValid coins = true) (hb : Bounded coins)
    (hp : 0 < percentage) (hp' : percentage ≤ 10000) :
    ∃ pc, getPlatformCoins coins percentage = .ok pc ∧ Normal pc ∧
      ∀ d, total pc d = ceilFee percentage (total coins d) := by
  obtain ⟨hs, hpos⟩ := isValid_eq_true_iff.1 hv
  obtain ⟨pc, hpc, hn, ht⟩ := foldFees_eq_ok hp hp' hs hpos hb normal_nil (fun _ _ => total_nil _)
  refine ⟨pc, ?_, hn, fun d => by rw [ht, total_nil, zero_add]⟩
  rw [getPlatformCoins, if_neg (ne_of_gt hp)]
  exact hpc

section Subtract

variable {coins pc : Coins}

/-- The fees are no more than the coins they are taken from. -/
theorem total_fee_le (hv : isValid coins = true) (hp : 0 < percentage) (hp' : percentage ≤ 10000)
    (ht : ∀ d, total pc d = ceilFee percentage (total coins d)) (d : Denom) :
    0 ≤ total pc d ∧ total pc d ≤ total coins d := by
  have h0 := total_nonneg (isValid_eq_true_iff.1 hv).2 d
  rw [ht]
  exact ⟨ceilFee_nonneg h0 (le_of_lt hp), ceilFee_le h0 hp'⟩

/-- `Sub` of the fees, as `Send` takes them, does not panic: it leaves the normal set of what is
left of each denomination. -/
theorem sub_getPlatformCoins (hv : isValid coins = true) (hb : Bounded coins)
    (hp : 0 < percentage) (hp' : percentage ≤ 10000)
    (hpc : getPlatformCoins coins percentage = .ok pc) :
    ∃ r, sub coins pc = .ok r ∧ Normal r ∧
      ∀ d, total r d = total coins d - ceilFee percentage (total coins d) := by
  obtain ⟨pc', hpc', hn, ht⟩ := getPlatformCoins_spec hv hb hp hp'
  obtain rfl : pc = pc' := Except.ok.inj (hpc.symm.trans hpc')
  obtain ⟨r, hr, hrn, hrt⟩ := sub_spec (isValid_eq_true_iff.1 hv).1 hn.strict hb hn.bounded
    (total_fee_le hv hp hp' ht)
  exact ⟨r, hr, hrn, fun d => by rw [hrt, ht]⟩

/-- `SafeSub` of the fees, as `MultiSend` takes them, reports no negative amount. -/
theorem safeSub_getPlatformCoins (hv : isValid coins = true) (hb : Bounded coins)
    (hp : 0 < percentage) (hp' : percentage ≤ 10000)
    (hpc : getPlatformCoins coins percentage = .ok pc) :
    ∃ r, safeSub coins pc = .ok (r, false) ∧ Normal r ∧
      ∀ d, total r d = total coins d - ceilFee percentage (total coins d) := by
  obtain ⟨pc', hpc', hn, ht⟩ := getPlatformCoins_spec hv hb hp hp'
  obtain rfl : pc = pc' := Except.ok.inj (hpc.symm.trans hpc')
  have hcn : Normal coins :=
    Normal.of_positive (isValid_eq_true_iff.1 hv).1 (isValid_eq_true_iff.1 hv).2 hb
  -- What is left of a denomination lies between zero and its amount, so it fits.
  have hfit : ∀ d, (total coins d - total pc d).natAbs < 2 ^ maxBitLen := fun d => by
    obtain ⟨h0, h1⟩ := total_fee_le hv hp hp' ht d
    have := hcn.natAbs_total_lt d
    omega
  obtain ⟨r, hr, hrn, hrt⟩ := safeSub_spec hcn.strict hn.strict hb hn.bounded hfit
  have hneg : isAnyNegative r = false := (isAnyNegative_eq_false_iff hrn).2 fun d => by
    rw [hrt]
    exact sub_nonneg.2 (total_fee_le hv hp hp' ht d).2
  exact ⟨r, hneg ▸ hr, hrn, fun d => by rw [hrt, ht]⟩

/-- What `SafeSub` leaves of the fees' coin set is `afterFee`. -/
theorem safeSub_getPlatformCoins_eq (hv : isValid coins = true) (hb : Bounded coins)
    (hp : 0 < percentage) (hp' : percentage ≤ 10000)
    (hpc : getPlatformCoins coins percentage = .ok pc) :
    safeSub coins pc = .ok (afterFee percentage coins, false) := by
  obtain ⟨r, hr, hrn, hrt⟩ := safeSub_getPlatformCoins hv hb hp hp' hpc
  have hafter : r = afterFee percentage coins :=
    Normal.ext hrn (normal_afterFee hv hb (le_of_lt hp) hp') fun d => by
      rw [hrt, total_afterFee (isValid_eq_true_iff.1 hv).1]
  rw [hr, hafter]

end Subtract

end Coins

end Xion.Module
