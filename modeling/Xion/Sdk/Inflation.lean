import Xion.Sdk.Mint
import Xion.Lib.Rounding
import Xion.Lib.GoStrings

/-!
# The inflation rate of x/mint

`NextInflationRate` of `x/mint/types/minter.go`, the body of `DefaultInflationCalculationFn`, which
`app.go` gives `StakedInflationMintFn` as its `ic`. Each block moves the annual inflation by
`(1 - bondedRatio / GoalBonded) * InflationRateChange / BlocksPerYear` and clamps the result to
`InflationMax` and then to `InflationMin`. The arithmetic is `math.LegacyDec`'s: `Quo` scales the
count by `10^36`, truncates, and rounds eighteen digits away half to even; `Mul` rounds the product
the same way (`chopPrecisionAndRound`, over `Rounding.roundHalfEvenInt`); every operation panics on
a result of more than `maxDecBitLen` bits, and `Quo` on a zero divisor.

With parameters that pass `Params.Validate`:
* the new rate lies between `InflationMin` and `InflationMax` (`nextInflationRate_within`);
* it moves towards the goal: below the bonded goal the clamped rate never falls, above it never
  rises, whatever the rounding (`nextInflationRate_toward_goal`);
* it is computed without a panic for every bonded ratio between zero and one and every rate that
  leaves `2^128` units of room in a `LegacyDec` (`nextInflationRate_ok`), so the mint function
  never stops on it.
-/

namespace Xion.Sdk

open Bytes Run GoStrings

namespace LegacyDec

/-- `LegacyOneDec`. -/
def one : LegacyDec := ⟨precisionReuse⟩

/-- `LegacyNewDecFromInt`, which `Int.ToLegacyDec` calls: the integer as a decimal. -/
def newDecFromInt (i : ℤ) : LegacyDec := ⟨i * precisionReuse⟩

/-- `chopPrecisionAndRound`: eighteen digits removed with banker's rounding of what they held, the
sign of a negative count put back. -/
def chopPrecisionAndRound (d : ℤ) : ℤ := Rounding.roundHalfEvenInt precisionReuse.toNat d

/-- The check that ends each arithmetic operation of `LegacyDec`: a count of more than
`maxDecBitLen` bits panics with "Int overflow". -/
def checked (i : ℤ) : Except SdkError LegacyDec :=
  if bitLen i.natAbs > maxDecBitLen then .error .intOverflow else .ok ⟨i⟩

/-- `LegacyDec.Add`. -/
def add (d d2 : LegacyDec) : Except SdkError LegacyDec := checked (d.i + d2.i)

/-- `LegacyDec.Sub`. -/
def sub (d d2 : LegacyDec) : Except SdkError LegacyDec := checked (d.i - d2.i)

/-- `LegacyDec.Mul`: the product of the counts, rounded back to eighteen decimals. -/
def mul (d d2 : LegacyDec) : Except SdkError LegacyDec :=
  checked (chopPrecisionAndRound (d.i * d2.i))

/-- `LegacyDec.Quo`: the count multiplied by `squaredPrecisionReuse`, divided by Go's truncating
`big.Int.Quo`, which panics on a zero divisor, and rounded back to eighteen decimals. -/
def quo (d d2 : LegacyDec) : Except SdkError LegacyDec :=
  if d2.i = 0 then .error .divisionByZero
  else checked (chopPrecisionAndRound ((d.i * (precisionReuse * precisionReuse)).tdiv d2.i))

theorem precisionReuse_eq : precisionReuse = 1000000000000000000 := rfl

theorem precisionReuse_toNat : precisionReuse.toNat = 1000000000000000000 := rfl

theorem precisionReuse_pos : 0 < precisionReuse := by decide

theorem checked_eq_ok {i : ℤ} {r : LegacyDec} :
    checked i = .ok r ↔ i.natAbs < 2 ^ maxDecBitLen ∧ r = ⟨i⟩ := by
  rw [checked, ite_error_eq_ok, not_lt, bitLen_le_iff]

theorem add_eq_ok {d d2 r : LegacyDec} :
    d.add d2 = .ok r ↔ (d.i + d2.i).natAbs < 2 ^ maxDecBitLen ∧ r = ⟨d.i + d2.i⟩ :=
  checked_eq_ok

theorem sub_eq_ok {d d2 r : LegacyDec} :
    d.sub d2 = .ok r ↔ (d.i - d2.i).natAbs < 2 ^ maxDecBitLen ∧ r = ⟨d.i - d2.i⟩ :=
  checked_eq_ok

theorem mul_eq_ok {d d2 r : LegacyDec} :
    d.mul d2 = .ok r ↔ (chopPrecisionAndRound (d.i * d2.i)).natAbs < 2 ^ maxDecBitLen ∧
      r = ⟨chopPrecisionAndRound (d.i * d2.i)⟩ :=
  checked_eq_ok

theorem quo_eq_ok {d d2 r : LegacyDec} :
    d.quo d2 = .ok r ↔ d2.i ≠ 0 ∧
      let c := chopPrecisionAndRound ((d.i * (precisionReuse * precisionReuse)).tdiv d2.i)
      c.natAbs < 2 ^ maxDecBitLen ∧ r = ⟨c⟩ := by
  rw [quo]
  by_cases h0 : d2.i = 0
  · rw [if_pos h0]
    simp [h0]
  · rw [if_neg h0, checked_eq_ok]
    exact ⟨fun h => ⟨h0, h⟩, fun h => h.2⟩

/-! ### Rounding back to eighteen decimals -/

theorem chopPrecisionAndRound_nonneg {x : ℤ} (hx : 0 ≤ x) : 0 ≤ chopPrecisionAndRound x :=
  Rounding.roundHalfEvenInt_nonneg (by rw [precisionReuse_toNat]; omega) hx

theorem chopPrecisionAndRound_nonpos {x : ℤ} (hx : x ≤ 0) : chopPrecisionAndRound x ≤ 0 :=
  Rounding.roundHalfEvenInt_nonpos (by rw [precisionReuse_toNat]; omega) hx

/-- A count of at most `k` units rounds to at most `k`. -/
theorem chopPrecisionAndRound_le {x k : ℤ} (h : x ≤ k * precisionReuse) :
    chopPrecisionAndRound x ≤ k :=
  Rounding.roundHalfEvenInt_le_of_le_mul (by rw [precisionReuse_toNat]; omega)
    (by rw [precisionReuse_toNat]; exact h)

/-- A count of at least `k` units rounds to at least `k`. -/
theorem le_chopPrecisionAndRound {x k : ℤ} (h : k * precisionReuse ≤ x) :
    k ≤ chopPrecisionAndRound x :=
  Rounding.le_roundHalfEvenInt_of_mul_le (by rw [precisionReuse_toNat]; omega)
    (by rw [precisionReuse_toNat]; exact h)

theorem natAbs_chopPrecisionAndRound_le (x : ℤ) :
    (chopPrecisionAndRound x).natAbs ≤ x.natAbs / 1000000000000000000 + 1 := by
  have h := Rounding.natAbs_roundHalfEvenInt_le precisionReuse.toNat x
  rwa [precisionReuse_toNat] at h

/-- A quotient whose bound fits does not panic: its count is at most the dividend's, in units of
the divisor's, plus one. -/
theorem quo_ok_of_le {d d2 : LegacyDec} (hd : d2.i ≠ 0)
    (hfit : d.i.natAbs * 1000000000000000000 / d2.i.natAbs + 1 < 2 ^ maxDecBitLen) :
    ∃ r, d.quo d2 = .ok r ∧
      r.i.natAbs ≤ d.i.natAbs * 1000000000000000000 / d2.i.natAbs + 1 := by
  -- the scaling by `10^36` and the rounding by `10^18` leave one factor `10^18`
  have hquotient : ((d.i * (precisionReuse * precisionReuse)).tdiv d2.i).natAbs =
      d.i.natAbs * (1000000000000000000 * 1000000000000000000) / d2.i.natAbs := by
    rw [Int.natAbs_tdiv, Int.natAbs_mul, precisionReuse_eq]
    rfl
  have hscaled : ((d.i * (precisionReuse * precisionReuse)).tdiv d2.i).natAbs /
      1000000000000000000 = d.i.natAbs * 1000000000000000000 / d2.i.natAbs := by
    rw [hquotient, Nat.div_div_eq_div_mul, ← Nat.mul_assoc]
    exact Nat.mul_div_mul_right _ _ (by decide)
  have hbound := natAbs_chopPrecisionAndRound_le
    ((d.i * (precisionReuse * precisionReuse)).tdiv d2.i)
  rw [hscaled] at hbound
  exact ⟨_, quo_eq_ok.2 ⟨hd, lt_of_le_of_lt hbound hfit, rfl⟩, hbound⟩

/-- A product whose bound fits does not panic: its count is at most the product of the counts
over one unit, plus one. -/
theorem mul_ok_of_le {d d2 : LegacyDec}
    (hfit : d.i.natAbs * d2.i.natAbs / 1000000000000000000 + 1 < 2 ^ maxDecBitLen) :
    ∃ r, d.mul d2 = .ok r ∧ r.i.natAbs ≤ d.i.natAbs * d2.i.natAbs / 1000000000000000000 + 1 := by
  have hbound := natAbs_chopPrecisionAndRound_le (d.i * d2.i)
  rw [Int.natAbs_mul] at hbound
  exact ⟨_, mul_eq_ok.2 ⟨lt_of_le_of_lt hbound hfit, rfl⟩, hbound⟩

/-- A count of at most one unit in magnitude leaves `2^128` units of room below the largest count
a `LegacyDec` holds. -/
theorem room_of_natAbs_le_one {x : ℤ} (hx : x.natAbs ≤ 1000000000000000000) :
    x.natAbs + 2 ^ 128 ≤ 2 ^ maxDecBitLen := by
  have hpow : 2 ^ 128 + 2 ^ 128 ≤ 2 ^ maxDecBitLen := by
    rw [← Nat.two_pow_succ]
    apply Nat.pow_le_pow_right <;> decide
  have hbig : 1000000000000000000 < 2 ^ 128 := by decide
  omega

end LegacyDec

namespace Mint

/-! ## `NextInflationRate` -/

/-- The change of the inflation rate over one block, `inflationRateChange` of `NextInflationRate`:
`(1 - bondedRatio/GoalBonded) * InflationRateChange`, over the blocks of a year. -/
def inflationRateChange (params : Params) (bondedRatio : LegacyDec) :
    Except SdkError LegacyDec := do
  let inflationRateChangePerYear ←
    (← LegacyDec.one.sub (← bondedRatio.quo params.goalBonded)).mul params.inflationRateChange
  let blocksPerYear := LegacyDec.newDecFromInt params.blocksPerYear.toNat
  inflationRateChangePerYear.quo blocksPerYear

/-- The two caps of `NextInflationRate`: down to `InflationMax`, then up to `InflationMin`. -/
def clampInflation (params : Params) (inflation : LegacyDec) : LegacyDec :=
  let inflation := if inflation.i > params.inflationMax.i then params.inflationMax else inflation
  if inflation.i < params.inflationMin.i then params.inflationMin else inflation

/-- `Minter.NextInflationRate`: the rate moved by a block's change, then clamped. -/
def Minter.nextInflationRate (m : Minter) (params : Params) (bondedRatio : LegacyDec) :
    Except SdkError LegacyDec := do
  let inflationRateChange ← inflationRateChange params bondedRatio
  -- note inflationRateChange may be negative
  let inflation ← m.inflation.add inflationRateChange
  pure (clampInflation params inflation)

/-- `DefaultInflationCalculationFn`. -/
def defaultInflationCalculationFn (minter : Minter) (params : Params) (bondedRatio : LegacyDec) :
    Except SdkError LegacyDec :=
  minter.nextInflationRate params bondedRatio

/-! ## Validation -/

/-- The errors of `Params.Validate` and `ValidateMinter`, with their texts. -/
inductive ParamsError where
  /-- "mint denom cannot be blank". -/
  | blankMintDenom
  /-- The error of `sdk.ValidateDenom`, "invalid denom: %s". -/
  | invalidDenom (denom : Denom)
  /-- "%s cannot be negative: %s", after the name of the parameter. -/
  | negative (name : String) (v : LegacyDec)
  /-- "%s too large: %s", after the name of the parameter. -/
  | tooLarge (name : String) (v : LegacyDec)
  /-- "goal bonded must be positive: %s". -/
  | goalBondedNotPositive (v : LegacyDec)
  /-- "blocks per year must be positive: %d". -/
  | blocksPerYearNotPositive (v : UInt64)
  /-- "max inflation (%s) must be greater than or equal to min inflation (%s)". -/
  | maxBelowMin (max min : LegacyDec)
  /-- "mint parameter Inflation should be positive, is %s". -/
  | negativeInflation (v : LegacyDec)

/-- A letter of a denomination's first character. -/
def isDenomLetter (c : Byte) : Bool :=
  decide (65 ≤ c.val ∧ c.val ≤ 90 ∨ 97 ≤ c.val ∧ c.val ≤ 122)

/-- A character of the rest of a denomination: a letter, a digit, `/`, `:`, `.`, `_` or `-`. -/
def isDenomChar (c : Byte) : Bool :=
  isDenomLetter c || decide (48 ≤ c.val ∧ c.val ≤ 57) || decide (c.val ∈ [47, 58, 46, 95, 45])

/-- `sdk.ValidateDenom` with the SDK's expression `[a-zA-Z][a-zA-Z0-9/:._-]{2,127}`. -/
def validateDenom : Denom → Bool
  | [] => false
  | c :: rest => isDenomLetter c && decide (2 ≤ rest.length ∧ rest.length ≤ 127) &&
    rest.all isDenomChar

/-- `validateMintDenom`. -/
def validateMintDenom (v : Denom) : Except ParamsError Unit := do
  failIf (trimSpace v = []) .blankMintDenom
  failIf (!validateDenom v) (.invalidDenom v)

/-- The check of `validateInflationRateChange`, `validateInflationMax` and `validateInflationMin`:
a decimal between zero and one, named `name` in the errors. -/
def validateUnitDec (name : String) (v : LegacyDec) : Except ParamsError Unit := do
  failIf (v.i < 0) (.negative name v)
  failIf (v.i > LegacyDec.one.i) (.tooLarge name v)

/-- `validateInflationRateChange`. -/
def validateInflationRateChange (v : LegacyDec) : Except ParamsError Unit :=
  validateUnitDec "inflation rate change" v

/-- `validateInflationMax`. -/
def validateInflationMax (v : LegacyDec) : Except ParamsError Unit :=
  validateUnitDec "max inflation" v

/-- `validateInflationMin`. -/
def validateInflationMin (v : LegacyDec) : Except ParamsError Unit :=
  validateUnitDec "min inflation" v

/-- `validateGoalBonded`: unlike the other decimals, zero is refused. -/
def validateGoalBonded (v : LegacyDec) : Except ParamsError Unit := do
  failIf (v.i < 0 ∨ v.i = 0) (.goalBondedNotPositive v)
  failIf (v.i > LegacyDec.one.i) (.tooLarge "goal bonded" v)

/-- `validateBlocksPerYear`. -/
def validateBlocksPerYear (v : UInt64) : Except ParamsError Unit :=
  failIf (v = 0) (.blocksPerYearNotPositive v)

/-- `Params.Validate`. -/
def Params.validate (p : Params) : Except ParamsError Unit := do
  validateMintDenom p.mintDenom
  validateInflationRateChange p.inflationRateChange
  validateInflationMax p.inflationMax
  validateInflationMin p.inflationMin
  validateGoalBonded p.goalBonded
  validateBlocksPerYear p.blocksPerYear
  failIf (p.inflationMax.i < p.inflationMin.i) (.maxBelowMin p.inflationMax p.inflationMin)

/-- `ValidateMinter`. -/
def validateMinter (minter : Minter) : Except ParamsError Unit :=
  failIf (minter.inflation.i < 0) (.negativeInflation minter.inflation)

/-- `minttypes.GenesisState`. -/
structure GenesisState where
  minter : Minter
  params : Params

/-- `ValidateGenesis`. -/
def validateGenesis (data : GenesisState) : Except ParamsError Unit := do
  data.params.validate
  validateMinter data.minter

/-- `DefaultParams`, with `sdk.DefaultBondDenom`. -/
def defaultParams : Params where
  mintDenom := ofAscii "stake"
  inflationRateChange := ⟨130000000000000000⟩
  inflationMax := ⟨200000000000000000⟩
  inflationMin := ⟨70000000000000000⟩
  goalBonded := ⟨670000000000000000⟩
  blocksPerYear := 60 * 60 * 8766 / 5

/-- `DefaultInitialMinter`: an inflation of 13% and no annual provisions. -/
def defaultInitialMinter : Minter := ⟨⟨130000000000000000⟩, ⟨0⟩⟩

/-- What `Params.Validate` accepts, as the inflation's proofs use it. -/
structure Params.Valid (p : Params) : Prop where
  rateChange_nonneg : 0 ≤ p.inflationRateChange.i
  rateChange_le_one : p.inflationRateChange.i ≤ precisionReuse
  max_le_one : p.inflationMax.i ≤ precisionReuse
  min_nonneg : 0 ≤ p.inflationMin.i
  min_le_max : p.inflationMin.i ≤ p.inflationMax.i
  goalBonded_pos : 0 < p.goalBonded.i
  goalBonded_le_one : p.goalBonded.i ≤ precisionReuse
  blocksPerYear_pos : 0 < p.blocksPerYear.toNat

theorem validateUnitDec_eq_ok {name : String} {v : LegacyDec} :
    validateUnitDec name v = .ok () ↔ 0 ≤ v.i ∧ v.i ≤ precisionReuse := by
  rw [validateUnitDec, bind_eq_ok, exists_unit, failIf_eq_ok, failIf_eq_ok, not_lt, not_lt]
  rfl

theorem validateGoalBonded_eq_ok {v : LegacyDec} :
    validateGoalBonded v = .ok () ↔ 0 < v.i ∧ v.i ≤ precisionReuse := by
  rw [validateGoalBonded, bind_eq_ok, exists_unit, failIf_eq_ok, failIf_eq_ok, not_lt]
  constructor
  · rintro ⟨hpos, hle⟩
    exact ⟨by omega, hle⟩
  · rintro ⟨hpos, hle⟩
    exact ⟨by omega, hle⟩

/-- Parameters that pass `Params.Validate` are valid. -/
theorem Params.valid_of_validate {p : Params} (h : p.validate = .ok ()) : p.Valid := by
  simp only [Params.validate, bind_eq_ok, exists_unit] at h
  obtain ⟨-, hrc, hmax, hmin, hgoal, hblocks, hle⟩ := h
  rw [validateInflationRateChange, validateUnitDec_eq_ok] at hrc
  rw [validateInflationMax, validateUnitDec_eq_ok] at hmax
  rw [validateInflationMin, validateUnitDec_eq_ok] at hmin
  rw [validateGoalBonded_eq_ok] at hgoal
  rw [validateBlocksPerYear, failIf_eq_ok] at hblocks
  rw [failIf_eq_ok, not_lt] at hle
  have hbpy : 0 < p.blocksPerYear.toNat := by
    rw [Nat.pos_iff_ne_zero, Ne, ← UInt64.toNat_zero, UInt64.toNat_inj]
    exact hblocks
  exact ⟨hrc.1, hrc.2, hmax.2, hmin.1, hle, hgoal.1, hgoal.2, hbpy⟩

theorem defaultParams_validate : defaultParams.validate = .ok () := rfl

theorem defaultGenesis_validate :
    validateGenesis ⟨defaultInitialMinter, defaultParams⟩ = .ok () := rfl

/-! ## What `NextInflationRate` computes -/

section Rate

variable {m : Minter} {params : Params} {bondedRatio c r : LegacyDec}

/-- The clamp is the rate cut to `InflationMax` and raised to `InflationMin`. -/
theorem clampInflation_i (params : Params) (inflation : LegacyDec) :
    (clampInflation params inflation).i =
      max params.inflationMin.i (min inflation.i params.inflationMax.i) := by
  simp only [clampInflation]
  split_ifs <;> omega

theorem clampInflation_mono (params : Params) {x y : LegacyDec} (h : x.i ≤ y.i) :
    (clampInflation params x).i ≤ (clampInflation params y).i := by
  rw [clampInflation_i, clampInflation_i]
  omega

theorem inflationRateChange_eq_ok :
    inflationRateChange params bondedRatio = .ok c ↔
      ∃ ratio gap perYear, bondedRatio.quo params.goalBonded = .ok ratio ∧
        LegacyDec.one.sub ratio = .ok gap ∧ gap.mul params.inflationRateChange = .ok perYear ∧
        perYear.quo (LegacyDec.newDecFromInt params.blocksPerYear.toNat) = .ok c := by
  simp only [inflationRateChange, bind_eq_ok]
  constructor
  · rintro ⟨ratio, hratio, gap, hgap, perYear, hper, hc⟩
    exact ⟨ratio, gap, perYear, hratio, hgap, hper, hc⟩
  · rintro ⟨ratio, gap, perYear, hratio, hgap, hper, hc⟩
    exact ⟨ratio, hratio, gap, hgap, perYear, hper, hc⟩

theorem nextInflationRate_eq_ok :
    m.nextInflationRate params bondedRatio = .ok r ↔
      ∃ c, inflationRateChange params bondedRatio = .ok c ∧
        (m.inflation.i + c.i).natAbs < 2 ^ maxDecBitLen ∧
        r = clampInflation params ⟨m.inflation.i + c.i⟩ := by
  simp only [Minter.nextInflationRate, bind_eq_ok, LegacyDec.add_eq_ok, pure_eq_ok]
  constructor
  · rintro ⟨c, hc, _, ⟨hfit, rfl⟩, rfl⟩
    exact ⟨c, hc, hfit, rfl⟩
  · rintro ⟨c, hc, hfit, rfl⟩
    exact ⟨c, hc, _, ⟨hfit, rfl⟩, rfl⟩

/-- Below the bonded goal a block's change is not negative: the ratio to the goal rounds to at
most one. -/
theorem inflationRateChange_nonneg (hv : params.Valid) (hb : bondedRatio.i ≤ params.goalBonded.i)
    (h : inflationRateChange params bondedRatio = .ok c) : 0 ≤ c.i := by
  obtain ⟨ratio, gap, perYear, hratio, hgap, hper, hc⟩ := inflationRateChange_eq_ok.1 h
  obtain ⟨-, -, rfl⟩ := LegacyDec.quo_eq_ok.1 hratio
  obtain ⟨-, rfl⟩ := LegacyDec.sub_eq_ok.1 hgap
  obtain ⟨-, rfl⟩ := LegacyDec.mul_eq_ok.1 hper
  obtain ⟨-, -, rfl⟩ := LegacyDec.quo_eq_ok.1 hc
  have hP := LegacyDec.precisionReuse_pos
  have hscaled : bondedRatio.i * (precisionReuse * precisionReuse) ≤
      (precisionReuse * precisionReuse) * params.goalBonded.i := by
    rw [Int.mul_comm (precisionReuse * precisionReuse)]
    exact Int.mul_le_mul_of_nonneg_right hb (Int.mul_nonneg hP.le hP.le)
  have hratio_le : LegacyDec.chopPrecisionAndRound
      ((bondedRatio.i * (precisionReuse * precisionReuse)).tdiv params.goalBonded.i) ≤
        precisionReuse :=
    LegacyDec.chopPrecisionAndRound_le
      (Rounding.tdiv_le_of_le_mul hv.goalBonded_pos (Int.mul_nonneg hP.le hP.le) hscaled)
  have hgap_nonneg : 0 ≤ LegacyDec.one.i - LegacyDec.chopPrecisionAndRound
      ((bondedRatio.i * (precisionReuse * precisionReuse)).tdiv params.goalBonded.i) := by
    change 0 ≤ precisionReuse - _
    omega
  have hper_nonneg := LegacyDec.chopPrecisionAndRound_nonneg
    (Int.mul_nonneg hgap_nonneg hv.rateChange_nonneg)
  apply LegacyDec.chopPrecisionAndRound_nonneg
  apply Int.tdiv_nonneg (Int.mul_nonneg hper_nonneg (Int.mul_nonneg hP.le hP.le))
  exact Int.mul_nonneg (Int.natCast_nonneg _) hP.le

/-- Above the bonded goal a block's change is not positive: the ratio to the goal rounds to at
least one. -/
theorem inflationRateChange_nonpos (hv : params.Valid) (hb : params.goalBonded.i ≤ bondedRatio.i)
    (h : inflationRateChange params bondedRatio = .ok c) : c.i ≤ 0 := by
  obtain ⟨ratio, gap, perYear, hratio, hgap, hper, hc⟩ := inflationRateChange_eq_ok.1 h
  obtain ⟨-, -, rfl⟩ := LegacyDec.quo_eq_ok.1 hratio
  obtain ⟨-, rfl⟩ := LegacyDec.sub_eq_ok.1 hgap
  obtain ⟨-, rfl⟩ := LegacyDec.mul_eq_ok.1 hper
  obtain ⟨-, -, rfl⟩ := LegacyDec.quo_eq_ok.1 hc
  have hP := LegacyDec.precisionReuse_pos
  have hscaled : (precisionReuse * precisionReuse) * params.goalBonded.i ≤
      bondedRatio.i * (precisionReuse * precisionReuse) := by
    rw [Int.mul_comm (precisionReuse * precisionReuse)]
    exact Int.mul_le_mul_of_nonneg_right hb (Int.mul_nonneg hP.le hP.le)
  have hratio_ge : precisionReuse ≤ LegacyDec.chopPrecisionAndRound
      ((bondedRatio.i * (precisionReuse * precisionReuse)).tdiv params.goalBonded.i) :=
    LegacyDec.le_chopPrecisionAndRound
      (Rounding.le_tdiv_of_mul_le hv.goalBonded_pos (Int.mul_nonneg hP.le hP.le) hscaled)
  have hgap_nonpos : LegacyDec.one.i - LegacyDec.chopPrecisionAndRound
      ((bondedRatio.i * (precisionReuse * precisionReuse)).tdiv params.goalBonded.i) ≤ 0 := by
    change precisionReuse - _ ≤ 0
    omega
  have hper_nonpos := LegacyDec.chopPrecisionAndRound_nonpos
    (Int.mul_nonpos_of_nonpos_of_nonneg hgap_nonpos hv.rateChange_nonneg)
  apply LegacyDec.chopPrecisionAndRound_nonpos
  apply Rounding.tdiv_nonpos
    (Int.mul_nonpos_of_nonpos_of_nonneg hper_nonpos (Int.mul_nonneg hP.le hP.le))
  exact Int.mul_nonneg (Int.natCast_nonneg _) hP.le

/-- With parameters that pass `Params.Validate`, the new rate lies between `InflationMin` and
`InflationMax`. -/
theorem nextInflationRate_within (hv : params.validate = .ok ())
    (h : m.nextInflationRate params bondedRatio = .ok r) :
    params.inflationMin.i ≤ r.i ∧ r.i ≤ params.inflationMax.i := by
  have hle := (Params.valid_of_validate hv).min_le_max
  obtain ⟨c, -, -, rfl⟩ := nextInflationRate_eq_ok.1 h
  rw [clampInflation_i]
  omega

/-- With parameters that pass `Params.Validate`, a block moves the clamped rate towards the goal:
with a bonded ratio at most `GoalBonded` the new rate is at least the old one clamped, and with a
bonded ratio at least `GoalBonded` at most the old one clamped, whatever the rounding does. -/
theorem nextInflationRate_toward_goal (hv : params.validate = .ok ())
    (h : m.nextInflationRate params bondedRatio = .ok r) :
    (bondedRatio.i ≤ params.goalBonded.i → (clampInflation params m.inflation).i ≤ r.i) ∧
      (params.goalBonded.i ≤ bondedRatio.i → r.i ≤ (clampInflation params m.inflation).i) := by
  have hvalid := Params.valid_of_validate hv
  obtain ⟨c, hc, -, rfl⟩ := nextInflationRate_eq_ok.1 h
  constructor
  · intro hb
    have hc0 := inflationRateChange_nonneg hvalid hb hc
    apply clampInflation_mono
    change m.inflation.i ≤ m.inflation.i + c.i
    omega
  · intro hb
    have hc0 := inflationRateChange_nonpos hvalid hb hc
    apply clampInflation_mono
    change m.inflation.i + c.i ≤ m.inflation.i
    omega

/-- The default parameters at a bonded ratio of one half, below the goal of 67%: the rate of 13%
rises by a little over `5 * 10^-9`. -/
theorem nextInflationRate_toward_goal_half_bonded :
    defaultParams.validate = .ok () ∧
      defaultInitialMinter.nextInflationRate defaultParams ⟨500000000000000000⟩ =
        .ok ⟨130000005226169707⟩ ∧
      ((⟨500000000000000000⟩ : LegacyDec).i ≤ defaultParams.goalBonded.i →
        (clampInflation defaultParams defaultInitialMinter.inflation).i ≤
          (⟨130000005226169707⟩ : LegacyDec).i) ∧
      (defaultParams.goalBonded.i ≤ (⟨500000000000000000⟩ : LegacyDec).i →
        (⟨130000005226169707⟩ : LegacyDec).i ≤
          (clampInflation defaultParams defaultInitialMinter.inflation).i) :=
  ⟨rfl, rfl, nextInflationRate_toward_goal rfl rfl⟩

/-- With valid parameters and a bonded ratio between zero and one, a block's change is computed
without a panic: the ratio to the goal is at most `10^18` in units, and the gap to one, its
product with the rate change and the quotient by the blocks of a year are each at most one unit
larger than the one before. -/
theorem inflationRateChange_ok (hv : params.Valid) (hb0 : 0 ≤ bondedRatio.i)
    (hb1 : bondedRatio.i ≤ precisionReuse) :
    ∃ c, inflationRateChange params bondedRatio = .ok c ∧
      c.i.natAbs ≤ 1000000000000000000 * 1000000000000000000 + 1000000000000000000 + 4 := by
  have hbig : 4 * (1000000000000000000 * 1000000000000000000) < 2 ^ maxDecBitLen :=
    calc 4 * (1000000000000000000 * 1000000000000000000) < 2 ^ 128 := by decide
      _ ≤ 2 ^ maxDecBitLen := Nat.pow_le_pow_right (by omega) (by decide)
  have hP := LegacyDec.precisionReuse_eq
  have hb : bondedRatio.i.natAbs ≤ 1000000000000000000 := by omega
  have hgoal : 1 ≤ params.goalBonded.i.natAbs := by
    have := hv.goalBonded_pos
    omega
  have hrc : params.inflationRateChange.i.natAbs ≤ 1000000000000000000 := by
    have := hv.rateChange_nonneg
    have := hv.rateChange_le_one
    omega
  -- the ratio to the goal
  have hratioBound : bondedRatio.i.natAbs * 1000000000000000000 / params.goalBonded.i.natAbs ≤
      1000000000000000000 * 1000000000000000000 :=
    calc _ ≤ bondedRatio.i.natAbs * 1000000000000000000 := Nat.div_le_self _ _
      _ ≤ 1000000000000000000 * 1000000000000000000 := Nat.mul_le_mul_right _ hb
  obtain ⟨ratio, hratio, hratioAbs⟩ :=
    @LegacyDec.quo_ok_of_le bondedRatio params.goalBonded (by omega) (by omega)
  -- the gap to one
  have hgapAbs : (LegacyDec.one.i - ratio.i).natAbs ≤
      1000000000000000000 * 1000000000000000000 + 1000000000000000000 + 1 := by
    change (precisionReuse - ratio.i).natAbs ≤ _
    omega
  have hgap : LegacyDec.one.sub ratio = .ok ⟨LegacyDec.one.i - ratio.i⟩ :=
    LegacyDec.sub_eq_ok.2 ⟨by omega, rfl⟩
  -- times the rate change, which is at most one
  have hperBound : (LegacyDec.one.i - ratio.i).natAbs * params.inflationRateChange.i.natAbs /
      1000000000000000000 ≤ (LegacyDec.one.i - ratio.i).natAbs := by
    apply Nat.div_le_of_le_mul
    rw [Nat.mul_comm 1000000000000000000]
    exact Nat.mul_le_mul_left _ hrc
  obtain ⟨perYear, hper, hperAbs⟩ :=
    @LegacyDec.mul_ok_of_le ⟨LegacyDec.one.i - ratio.i⟩ params.inflationRateChange
      (by dsimp only; omega)
  dsimp only at hperAbs
  -- over the blocks of a year, which are at least one
  have hblocks : (LegacyDec.newDecFromInt params.blocksPerYear.toNat).i.natAbs =
      params.blocksPerYear.toNat * 1000000000000000000 := by
    rw [LegacyDec.newDecFromInt, Int.natAbs_mul, Int.natAbs_natCast, hP]
    rfl
  have hbpy := hv.blocksPerYear_pos
  have hcBound : perYear.i.natAbs * 1000000000000000000 /
      (LegacyDec.newDecFromInt params.blocksPerYear.toNat).i.natAbs ≤ perYear.i.natAbs := by
    rw [hblocks]
    apply Nat.div_le_of_le_mul
    calc perYear.i.natAbs * 1000000000000000000
        = 1 * 1000000000000000000 * perYear.i.natAbs := by rw [Nat.one_mul, Nat.mul_comm]
      _ ≤ params.blocksPerYear.toNat * 1000000000000000000 * perYear.i.natAbs :=
        Nat.mul_le_mul_right _ (Nat.mul_le_mul_right _ hbpy)
  obtain ⟨c, hc, hcAbs⟩ :=
    LegacyDec.quo_ok_of_le (d := perYear) (by rw [← Int.natAbs_ne_zero, hblocks]; omega)
      (by omega)
  exact ⟨c, inflationRateChange_eq_ok.2 ⟨ratio, _, perYear, hratio, hgap, hper, hc⟩, by omega⟩

/-- With parameters that pass `Params.Validate` and a bonded ratio between zero and one,
`NextInflationRate` returns for every rate that leaves `2^128` units of room below the largest
count a `LegacyDec` holds: it never panics on the minter a block has left, whose rate is at most
one. -/
theorem nextInflationRate_ok (hv : params.validate = .ok ()) (hb0 : 0 ≤ bondedRatio.i)
    (hb1 : bondedRatio.i ≤ precisionReuse)
    (hm : m.inflation.i.natAbs + 2 ^ 128 ≤ 2 ^ maxDecBitLen) :
    ∃ r, m.nextInflationRate params bondedRatio = .ok r := by
  obtain ⟨c, hc, hcAbs⟩ := inflationRateChange_ok (Params.valid_of_validate hv) hb0 hb1
  have hbig : 1000000000000000000 * 1000000000000000000 + 1000000000000000000 + 4 < 2 ^ 128 := by
    decide
  have hfit : (m.inflation.i + c.i).natAbs < 2 ^ maxDecBitLen := by omega
  exact ⟨_, nextInflationRate_eq_ok.2 ⟨c, hc, hfit, rfl⟩⟩

end Rate

end Mint

end Xion.Sdk
