import Xion.Sdk.Bank

/-!
# The SDK's mint keeper and its decimals

The parts of the `x/mint` module that the repository's mint function (`x/xion/keeper/mint.go`)
calls: the stored `Minter` and `Params`, and `NextAnnualProvisions` and `BlockProvision` as the
repository's copy of the module's types, `x/mint/types/minter.go`, has them; and the mint keeper's
`MintCoins` and `AddCollectedFees`. The keeper is the SDK's, not part of the repository: its two
calls are the fields of `Keeper`, and `Keeper.Pays` states what they do, minting to the mint
module's account and paying from it the fee collector the keeper is built with in `app.go`.

`math.LegacyDec` is an integer count of `10^-18`. Only the operations the mint function uses are
modelled: `MulInt`, which panics on a product of more than `maxDecBitLen` bits, `QuoInt`, which
truncates and panics on a zero divisor, and `TruncateInt`, which truncates to a `math.Int`. The
inflation rate comes from an `InflationCalculationFn`, which the mint function takes as a
parameter; `NextInflationRate` and the rounding `Mul` and `Quo` it uses are in `Sdk/Inflation`.
-/

namespace Xion.Sdk

open Bytes Run KeyedList

/-- `math.LegacyDec`: `i` counts `10^-18`. -/
structure LegacyDec where
  i : ℤ
  deriving DecidableEq, Repr

/-- `decimalTruncateBits`, the bits a truncation removes at least. -/
def decimalTruncateBits : ℕ := 59

/-- `maxDecBitLen`. -/
def maxDecBitLen : ℕ := maxBitLen + decimalTruncateBits

/-- `precisionReuse`, the `LegacyDec` of one. -/
def precisionReuse : ℤ := 10 ^ 18

namespace LegacyDec

/-- `LegacyDec.MulInt`. -/
def mulInt (d : LegacyDec) (i : ℤ) : Except SdkError LegacyDec :=
  if bitLen (d.i * i).natAbs > maxDecBitLen then .error .intOverflow else .ok ⟨d.i * i⟩

/-- `LegacyDec.QuoInt`: Go's truncating `big.Int.Quo`, which panics on zero. -/
def quoInt (d : LegacyDec) (i : ℤ) : Except SdkError LegacyDec :=
  if i = 0 then .error .divisionByZero else .ok ⟨d.i.tdiv i⟩

/-- `LegacyDec.TruncateInt`: the precision chopped off, then `NewIntFromBigInt`. -/
def truncateInt (d : LegacyDec) : Except SdkError ℤ :=
  newIntFromBigInt (d.i.tdiv precisionReuse)

theorem quoInt_eq_ok_iff {d r : LegacyDec} {i : ℤ} :
    d.quoInt i = .ok r ↔ i ≠ 0 ∧ r = ⟨d.i.tdiv i⟩ := by
  rw [quoInt, ite_error_eq_ok]

theorem truncateInt_eq_ok_iff {d : LegacyDec} {v : ℤ} :
    d.truncateInt = .ok v ↔
      (d.i.tdiv precisionReuse).natAbs < 2 ^ maxBitLen ∧ v = d.i.tdiv precisionReuse := by
  rw [truncateInt, newIntFromBigInt_eq_ok_iff]

end LegacyDec

namespace Mint

/-- `minttypes.ModuleName`. -/
def moduleName : Bytes := ofAscii "mint"

/-- `minttypes.Minter`. -/
structure Minter where
  inflation : LegacyDec
  annualProvisions : LegacyDec
  deriving DecidableEq, Repr

/-- `minttypes.Params`. -/
structure Params where
  mintDenom : Denom
  inflationRateChange : LegacyDec
  inflationMax : LegacyDec
  inflationMin : LegacyDec
  goalBonded : LegacyDec
  blocksPerYear : UInt64
  deriving DecidableEq, Repr

/-- `minttypes.InflationCalculationFn`, without the context; a panic of the function is an
error. -/
abbrev InflationCalculationFn := Minter → Params → LegacyDec → Except SdkError LegacyDec

/-- `Minter.NextAnnualProvisions`. -/
def Minter.nextAnnualProvisions (m : Minter) (_params : Params) (totalSupply : ℤ) :
    Except SdkError LegacyDec :=
  m.inflation.mulInt totalSupply

/-- `Minter.BlockProvision`. -/
def Minter.blockProvision (m : Minter) (params : Params) : Except SdkError Coin := do
  let blocksPerYear : ℤ := params.blocksPerYear.toNat
  let provisionAmt ← m.annualProvisions.quoInt blocksPerYear
  newCoin params.mintDenom (← provisionAmt.truncateInt)

/-- The calls of the mint keeper that the mint function makes, on the bank's ledger. -/
structure Keeper where
  /-- `MintCoins`. -/
  mintCoins : Ledger → Coins → Except SdkError Ledger
  /-- `AddCollectedFees`. -/
  addCollectedFees : Ledger → Coins → Except SdkError Ledger

/-- The SDK's mint keeper with the mint module's account `minter` and the fee collector's account
`collector`: `MintCoins` mints to the mint module (nothing, for no coins), and `AddCollectedFees`
sends from it to the fee collector. -/
structure Keeper.Pays (k : Keeper) (minter collector : Bytes) : Prop where
  mintCoins : ∀ l coins l', k.mintCoins l coins = .ok l' → l' = l.mint minter coins
  addCollectedFees : ∀ l coins l', k.addCollectedFees l coins = .ok l' →
    l' = l.move minter collector coins

/-- The block provision: the annual provisions over the blocks of a year, as a `LegacyDec`
truncated to an integer, in the mint denomination. -/
theorem Minter.blockProvision_eq_ok {m : Minter} {params : Params} {coin : Coin} :
    m.blockProvision params = .ok coin ↔ 0 < params.blocksPerYear.toNat ∧
      let amount := (m.annualProvisions.i.tdiv params.blocksPerYear.toNat).tdiv precisionReuse
      amount.natAbs < 2 ^ maxBitLen ∧ 0 ≤ amount ∧ coin = (params.mintDenom, amount) := by
  rw [blockProvision, bind_eq_ok]
  constructor
  · rintro ⟨provisionAmt, hq, h⟩
    obtain ⟨hne, rfl⟩ := LegacyDec.quoInt_eq_ok_iff.1 hq
    obtain ⟨amount, ht, hc⟩ := bind_eq_ok.1 h
    obtain ⟨hfit, rfl⟩ := LegacyDec.truncateInt_eq_ok_iff.1 ht
    exact ⟨by omega, hfit, newCoin_eq_ok_iff.1 hc⟩
  · rintro ⟨hpos, hfit, hnn, rfl⟩
    refine ⟨_, LegacyDec.quoInt_eq_ok_iff.2 ⟨by omega, rfl⟩, ?_⟩
    have ht : (⟨m.annualProvisions.i.tdiv params.blocksPerYear.toNat⟩ : LegacyDec).truncateInt =
        .ok ((m.annualProvisions.i.tdiv params.blocksPerYear.toNat).tdiv precisionReuse) :=
      LegacyDec.truncateInt_eq_ok_iff.2 ⟨hfit, rfl⟩
    rw [bind_of_ok ht]
    exact newCoin_eq_ok_iff.2 ⟨hnn, rfl⟩

/-- The block provision is a coin of the mint denomination, not negative. -/
theorem Minter.blockProvision_nonneg {m : Minter} {params : Params} {coin : Coin}
    (h : m.blockProvision params = .ok coin) : coin.1 = params.mintDenom ∧ 0 ≤ coin.2 := by
  obtain ⟨-, -, hnn, rfl⟩ := blockProvision_eq_ok.1 h
  exact ⟨rfl, hnn⟩

/-- Minting and then `AddCollectedFees` of the same coins mints them to the fee collector. -/
theorem Keeper.Pays.addCollectedFees_of_mintCoins {k : Keeper} {minter collector : Bytes}
    (hk : k.Pays minter collector) {l l₁ l₂ : Ledger} {coins : Coins}
    (h₁ : k.mintCoins l coins = .ok l₁) (h₂ : k.addCollectedFees l₁ coins = .ok l₂) :
    l₂ = l.mint collector coins := by
  rw [hk.addCollectedFees _ _ _ h₂, hk.mintCoins _ _ _ h₁, Ledger.move_mint]

end Mint

end Xion.Sdk
