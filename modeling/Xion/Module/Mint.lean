import Xion.Module.MsgServer
import Xion.Sdk.Mint
import Xion.Sdk.Inflation

/-!
# The mint function of x/xion

`StakedInflationMintFn` of `x/xion/keeper/mint.go`, which `app.go` gives the SDK's mint module
as the function it runs at the start of each block. It recomputes the inflation and the annual
provisions from the bonded tokens, stores the minter, and then settles the fee collector on the
block provision: what the collected fees fall short of it is minted and sent to the fee
collector (`mintShortfall`), and what they exceed it by is burned from the fee collector
(`burnSurplus`).

When the mint keeper pays the account the mint function reads (`app.go` names the fee collector
for both), a successful run leaves the fee collector holding exactly the block provision of the
mint denomination; the minted amount is the shortfall, the burned amount the excess, and the
supply moves by their difference.
-/

namespace Xion.Module

open Bytes Run KeyedList Sdk

/-- The errors of the mint function: those of the SDK's calls, and those the staking keeper
returns. -/
inductive MintError
  | sdk (e : SdkError)
  | staking
  deriving DecidableEq, Repr

/-- An error of the SDK, as the mint function returns it. -/
def liftMint {α : Type} (x : Except SdkError α) : Except MintError α := x.mapError .sdk

theorem liftMint_eq_ok {α : Type} {x : Except SdkError α} {b : α} :
    liftMint x = .ok b ↔ x = .ok b :=
  mapError_eq_ok

/-- The mint keeper's store and the bank's ledger. -/
structure MintState where
  minter : Mint.Minter
  params : Mint.Params
  ledger : Ledger

/-- What the mint function reads from the other keepers: the bank keeper, the account keeper's
module accounts, and the bonded ratio and bonded tokens of the staking keeper, none where it
returns an error. -/
structure MintEnv where
  bank : BankKeeper
  modules : ModuleAccounts
  bondedRatio : Option LegacyDec
  totalBondedTokens : Option ℤ

/-- The attributes of the mint event. -/
structure MintEvent where
  bondedRatio : LegacyDec
  inflation : LegacyDec
  annualProvisions : LegacyDec
  neededAmount : ℤ
  mintedAmount : ℤ
  collectedAmount : ℤ
  burnedAmount : ℤ
  deriving DecidableEq, Repr

/-- The branch of `StakedInflationMintFn` where the collected fees are below the block
provision: the difference is minted and added to the collected fees. -/
def mintShortfall (k : Mint.Keeper) (l : Ledger) (collectedFeeCoin neededCoin : Coin) :
    Except MintError (Ledger × Coin) := do
  let mintedCoin ← liftMint (coinSub neededCoin collectedFeeCoin)
  let mintedCoins ← liftMint (newCoins [mintedCoin])
  let l ← liftMint (k.mintCoins l mintedCoins)
  let l ← liftMint (k.addCollectedFees l mintedCoins)
  pure (l, mintedCoin)

/-- The branch of `StakedInflationMintFn` where the collected fees reach the block provision:
the rest is burned from the fee collector. -/
def burnSurplus (bankKeeper : BankKeeper) (feeCollectorName : Bytes) (l : Ledger)
    (collectedFeeCoin neededCoin : Coin) : Except MintError (Ledger × Coin) := do
  let burnedCoin ← liftMint (coinSub collectedFeeCoin neededCoin)
  let burnedCoins ← liftMint (newCoins [burnedCoin])
  let l ← liftMint (bankKeeper.burnCoins l feeCollectorName burnedCoins)
  pure (l, burnedCoin)

/-- `StakedInflationMintFn`: `feeCollectorName` and `ic` are its arguments, `k` the mint keeper
it is called with. -/
def stakedInflationMintFn (feeCollectorName : Bytes) (ic : Mint.InflationCalculationFn)
    (env : MintEnv) (k : Mint.Keeper) (s : MintState) :
    Except MintError (MintState × MintEvent) := do
  let minter := s.minter
  let params := s.params
  let feeCollector ← liftMint
    (ofOption (env.modules.address feeCollectorName) .unknownModuleAccount)
  let collectedFeeCoin := getBalance s.ledger feeCollector params.mintDenom
  let bondedRatio ← ofOption env.bondedRatio .staking
  let inflation ← liftMint (ic minter params bondedRatio)
  let minter := { minter with inflation }
  let bondedTokenSupply ← ofOption env.totalBondedTokens .staking
  let annualProvisions ← liftMint (minter.nextAnnualProvisions params bondedTokenSupply)
  let minter := { minter with annualProvisions }
  let neededCoin ← liftMint (minter.blockProvision params)
  let mintedCoin : Coin := (params.mintDenom, 0)
  let burnedCoin : Coin := (params.mintDenom, 0)
  let (ledger, mintedCoin, burnedCoin) ←
    if ← liftMint (coinIsLT collectedFeeCoin neededCoin) then do
      let (ledger, mintedCoin) ← mintShortfall k s.ledger collectedFeeCoin neededCoin
      pure (ledger, mintedCoin, burnedCoin)
    else do
      let (ledger, burnedCoin) ←
        burnSurplus env.bank feeCollectorName s.ledger collectedFeeCoin neededCoin
      pure (ledger, mintedCoin, burnedCoin)
  pure ({ minter, params, ledger },
    { bondedRatio, inflation := minter.inflation, annualProvisions := minter.annualProvisions,
      neededAmount := neededCoin.2, mintedAmount := mintedCoin.2,
      collectedAmount := collectedFeeCoin.2, burnedAmount := burnedCoin.2 })

/-- After the minting branch, with a mint keeper that pays the fee collector `fc`, the fee
collector and the supply have grown by the shortfall, in the provision's denomination. -/
theorem mintShortfall_effect {k : Mint.Keeper} {minter fc : Bytes} (hk : k.Pays minter fc)
    {l l' : Ledger} {collectedFeeCoin neededCoin mintedCoin : Coin}
    (h : mintShortfall k l collectedFeeCoin neededCoin = .ok (l', mintedCoin)) :
    let shortfall := neededCoin.2 - collectedFeeCoin.2
    mintedCoin = (neededCoin.1, shortfall) ∧ 0 ≤ shortfall ∧
      (∀ a d, l'.balance a d =
        l.balance a d + if a = fc then (if neededCoin.1 = d then shortfall else 0) else 0) ∧
      ∀ d, l'.supply d = l.supply d + if neededCoin.1 = d then shortfall else 0 := by
  rw [mintShortfall, bind_eq_ok] at h
  obtain ⟨minted, hsub, h⟩ := h
  obtain ⟨mintedCoins, hnew, h⟩ := bind_eq_ok.1 h
  obtain ⟨l₁, hmint, h⟩ := bind_eq_ok.1 h
  obtain ⟨l₂, hcollect, h⟩ := bind_eq_ok.1 h
  obtain ⟨rfl, rfl⟩ := Prod.mk.inj (pure_eq_ok.1 h)
  obtain ⟨-, hnn, -, rfl⟩ := coinSub_eq_ok.1 (liftMint_eq_ok.1 hsub)
  have htot := total_newCoins_singleton hnn (liftMint_eq_ok.1 hnew)
  -- the coins minted to the mint module reach the fee collector
  obtain rfl := hk.addCollectedFees_of_mintCoins (liftMint_eq_ok.1 hmint)
    (liftMint_eq_ok.1 hcollect)
  refine ⟨rfl, hnn, fun a d => ?_, fun d => ?_⟩
  · rw [Ledger.balance_mint, htot]
  · rw [Ledger.supply_mint, htot]

/-- After the burning branch, with a bank that burns as `BurnCoins` does, the fee collector and
the supply have shrunk by the excess, in the collected coin's denomination. -/
theorem burnSurplus_effect {bankKeeper : BankKeeper} {modules : ModuleAccounts}
    (hb : bankKeeper.BurnsFrom modules) {feeCollectorName : Bytes} {l l' : Ledger}
    {collectedFeeCoin neededCoin burnedCoin : Coin}
    (h : burnSurplus bankKeeper feeCollectorName l collectedFeeCoin neededCoin =
      .ok (l', burnedCoin)) :
    let excess := collectedFeeCoin.2 - neededCoin.2
    burnedCoin = (collectedFeeCoin.1, excess) ∧ 0 ≤ excess ∧
      ∃ fc, modules.address feeCollectorName = some fc ∧
        (∀ a d, l'.balance a d =
          l.balance a d - if a = fc then (if collectedFeeCoin.1 = d then excess else 0) else 0) ∧
        ∀ d, l'.supply d = l.supply d - if collectedFeeCoin.1 = d then excess else 0 := by
  rw [burnSurplus, bind_eq_ok] at h
  obtain ⟨burned, hsub, h⟩ := h
  obtain ⟨burnedCoins, hnew, h⟩ := bind_eq_ok.1 h
  obtain ⟨l₁, hburn, h⟩ := bind_eq_ok.1 h
  obtain ⟨rfl, rfl⟩ := Prod.mk.inj (pure_eq_ok.1 h)
  obtain ⟨-, hnn, -, rfl⟩ := coinSub_eq_ok.1 (liftMint_eq_ok.1 hsub)
  have htot := total_newCoins_singleton hnn (liftMint_eq_ok.1 hnew)
  obtain ⟨fc, hfc, rfl⟩ := hb _ _ _ _ (liftMint_eq_ok.1 hburn)
  refine ⟨rfl, hnn, fc, hfc, fun a d => ?_, fun d => ?_⟩
  · rw [Ledger.balance_burn, htot]
  · rw [Ledger.supply_burn, htot]

section Effect

variable {feeCollectorName : Bytes} {ic : Mint.InflationCalculationFn} {env : MintEnv}
  {k : Mint.Keeper} {s s' : MintState} {ev : MintEvent}

/-- A successful block, step by step: the fee collector's account and the bonded ratio it reads,
the inflation `ic` returns, the provision of the updated minter in the mint denomination, and the
branch it takes by the collected fees; the parameters are left as they were. -/
theorem stakedInflationMintFn_eq_ok
    (h : stakedInflationMintFn feeCollectorName ic env k s = .ok (s', ev)) :
    ∃ fc bondedRatio neededCoin, env.modules.address feeCollectorName = some fc ∧
      env.bondedRatio = some bondedRatio ∧
      ic s.minter s.params bondedRatio = .ok s'.minter.inflation ∧ s'.params = s.params ∧
      s'.minter.blockProvision s.params = .ok neededCoin ∧
      neededCoin = (s.params.mintDenom, ev.neededAmount) ∧
      ev.collectedAmount = s.ledger.balance fc s.params.mintDenom ∧
      (ev.collectedAmount < ev.neededAmount ∧ ev.burnedAmount = 0 ∧
          (∃ c, mintShortfall k s.ledger (getBalance s.ledger fc s.params.mintDenom) neededCoin =
            .ok (s'.ledger, c) ∧ ev.mintedAmount = c.2) ∨
        ¬ev.collectedAmount < ev.neededAmount ∧ ev.mintedAmount = 0 ∧
          ∃ c, burnSurplus env.bank feeCollectorName s.ledger
            (getBalance s.ledger fc s.params.mintDenom) neededCoin = .ok (s'.ledger, c) ∧
            ev.burnedAmount = c.2) := by
  dsimp only [stakedInflationMintFn] at h
  obtain ⟨fc, hfc, h⟩ := bind_eq_ok.1 h
  obtain ⟨bondedRatio, hb, h⟩ := bind_eq_ok.1 h
  obtain ⟨inflation, hinflation, h⟩ := bind_eq_ok.1 h
  obtain ⟨bondedTokenSupply, -, h⟩ := bind_eq_ok.1 h
  obtain ⟨annualProvisions, -, h⟩ := bind_eq_ok.1 h
  obtain ⟨neededCoin, hneeded, h⟩ := bind_eq_ok.1 h
  obtain ⟨isLT, hlt, h⟩ := bind_eq_ok.1 h
  -- the provision is a coin of the mint denomination, so the comparison is by amount
  have hprov := liftMint_eq_ok.1 hneeded
  obtain ⟨hdenom, -⟩ := Mint.Minter.blockProvision_nonneg hprov
  rw [liftMint_eq_ok, coinIsLT_of_denom_eq hdenom.symm, Except.ok.injEq] at hlt
  subst hlt
  refine ⟨fc, bondedRatio, neededCoin, ofOption_eq_ok.1 (liftMint_eq_ok.1 hfc),
    ofOption_eq_ok.1 hb, ?_⟩
  -- both branches store the updated minter with the parameters, each with its own ledger
  by_cases hcn : (getBalance s.ledger fc s.params.mintDenom).2 < neededCoin.2
  · rw [if_pos (decide_eq_true hcn), bind_eq_ok] at h
    obtain ⟨⟨l', c⟩, hms, h⟩ := h
    rw [pure_bind, pure_eq_ok] at h
    obtain ⟨rfl, rfl⟩ := Prod.mk.inj h
    exact ⟨liftMint_eq_ok.1 hinflation, rfl, hprov, Prod.ext hdenom rfl, rfl,
      .inl ⟨hcn, rfl, c, hms, rfl⟩⟩
  · rw [if_neg (by simpa using hcn), bind_eq_ok] at h
    obtain ⟨⟨l', c⟩, hbs, h⟩ := h
    rw [pure_bind, pure_eq_ok] at h
    obtain ⟨rfl, rfl⟩ := Prod.mk.inj h
    exact ⟨liftMint_eq_ok.1 hinflation, rfl, hprov, Prod.ext hdenom rfl, rfl,
      .inr ⟨hcn, rfl, c, hbs, rfl⟩⟩

/-- A successful run, with a bank that burns as `BurnCoins` does and a mint keeper that pays the
account the function reads the collected fees of: the stored minter's provision is the one the
event reports, the shortfall is reported as minted and the excess as burned, and of all balances
and supplies only the fee collector's balance and the supply of the mint denomination move, by
the provision less the collected fees. -/
theorem stakedInflationMintFn_effect (hb : env.bank.BurnsFrom env.modules)
    (hk : ∀ fc, env.modules.address feeCollectorName = some fc → ∃ minter, k.Pays minter fc)
    (h : stakedInflationMintFn feeCollectorName ic env k s = .ok (s', ev)) :
    ∃ fc, env.modules.address feeCollectorName = some fc ∧
      s'.minter.blockProvision s'.params = .ok (s.params.mintDenom, ev.neededAmount) ∧
      ev.collectedAmount = s.ledger.balance fc s.params.mintDenom ∧
      ev.mintedAmount = max 0 (ev.neededAmount - ev.collectedAmount) ∧
      ev.burnedAmount = max 0 (ev.collectedAmount - ev.neededAmount) ∧
      (∀ a d, s'.ledger.balance a d = s.ledger.balance a d +
        if a = fc ∧ s.params.mintDenom = d then ev.neededAmount - ev.collectedAmount else 0) ∧
      ∀ d, s'.ledger.supply d = s.ledger.supply d +
        if s.params.mintDenom = d then ev.neededAmount - ev.collectedAmount else 0 := by
  obtain ⟨fc, -, neededCoin, hfc, -, -, hparams, hprov, rfl, hcoll, hbranch⟩ :=
    stakedInflationMintFn_eq_ok h
  refine ⟨fc, hfc, hparams ▸ hprov, hcoll, ?_⟩
  rcases hbranch with ⟨hcn, hburn, c, hms, hmint⟩ | ⟨hcn, hmint, c, hbs, hburn⟩
  · -- the mint keeper pays the account the function read the collected fees of
    obtain ⟨minter, hpays⟩ := hk fc hfc
    obtain ⟨rfl, -, hbal, hsup⟩ := mintShortfall_effect hpays hms
    dsimp only [getBalance] at hmint hbal hsup
    refine ⟨by omega, by omega, fun a d => ?_, fun d => ?_⟩
    · rw [hbal, ite_and, hcoll]
    · rw [hsup, hcoll]
  · obtain ⟨rfl, -, fc', hfc', hbal, hsup⟩ := burnSurplus_effect hb hbs
    obtain rfl : fc = fc' := Option.some_injective _ (hfc.symm.trans hfc')
    dsimp only [getBalance] at hburn hbal hsup
    refine ⟨by omega, by omega, fun a d => ?_, fun d => ?_⟩
    -- burning the excess is adding the provision less the collected fees
    · rw [hbal, ite_and, hcoll]
      by_cases ha : a = fc <;> by_cases hd : s.params.mintDenom = d <;>
        simp only [ha, hd, if_true, if_false] <;> omega
    · rw [hsup, hcoll]
      by_cases hd : s.params.mintDenom = d <;> simp only [hd, if_true, if_false] <;> omega

end Effect

/-- After a successful run, with a bank that burns as `BurnCoins` does and a mint keeper that
pays the fee collector the function reads, the fee collector holds the block provision of the
stored minter, which was minted up to or burned down to from the collected fees, and the supply
moved by the same amount. -/
theorem stakedInflationMint_settles (feeCollectorName : Bytes)
    (ic : Mint.InflationCalculationFn) (env : MintEnv) (k : Mint.Keeper) (s s' : MintState)
    (ev : MintEvent) (hb : env.bank.BurnsFrom env.modules)
    (hk : ∀ fc, env.modules.address feeCollectorName = some fc → ∃ minter, k.Pays minter fc)
    (h : stakedInflationMintFn feeCollectorName ic env k s = .ok (s', ev)) :
    ∃ fc, env.modules.address feeCollectorName = some fc ∧
      ev.collectedAmount = s.ledger.balance fc s.params.mintDenom ∧
      s'.minter.blockProvision s'.params = .ok (s.params.mintDenom, ev.neededAmount) ∧
      s'.ledger.balance fc s.params.mintDenom = ev.neededAmount ∧
      ev.mintedAmount = max 0 (ev.neededAmount - ev.collectedAmount) ∧
      ev.burnedAmount = max 0 (ev.collectedAmount - ev.neededAmount) ∧
      s'.ledger.supply s.params.mintDenom =
        s.ledger.supply s.params.mintDenom + ev.mintedAmount - ev.burnedAmount := by
  obtain ⟨fc, hfc, hprov, hcoll, hmint, hburn, hbal, hsup⟩ := stakedInflationMintFn_effect hb hk h
  have hbfc := hbal fc s.params.mintDenom
  have hs := hsup s.params.mintDenom
  rw [if_pos ⟨rfl, rfl⟩] at hbfc
  rw [if_pos rfl] at hs
  exact ⟨fc, hfc, hcoll, hprov, by omega, hmint, hburn, by omega⟩

/-- The mint function moves no other balance than the fee collector's of the mint
denomination, and no other supply: the mint module's account ends where it started. -/
theorem stakedInflationMintFn_frame {feeCollectorName : Bytes}
    {ic : Mint.InflationCalculationFn} {env : MintEnv} {k : Mint.Keeper} {s s' : MintState}
    {ev : MintEvent} (hb : env.bank.BurnsFrom env.modules)
    (hk : ∀ fc, env.modules.address feeCollectorName = some fc → ∃ minter, k.Pays minter fc)
    (h : stakedInflationMintFn feeCollectorName ic env k s = .ok (s', ev)) :
    ∃ fc, env.modules.address feeCollectorName = some fc ∧
      (∀ a d, (a ≠ fc ∨ s.params.mintDenom ≠ d) →
        s'.ledger.balance a d = s.ledger.balance a d) ∧
      ∀ d, s.params.mintDenom ≠ d → s'.ledger.supply d = s.ledger.supply d := by
  obtain ⟨fc, hfc, -, -, -, -, hbal, hsup⟩ := stakedInflationMintFn_effect hb hk h
  refine ⟨fc, hfc, fun a d had => ?_, fun d hd => ?_⟩
  · rw [hbal, if_neg (by tauto), add_zero]
  · rw [hsup, if_neg hd, add_zero]

/-- The fee collector's and the mint module's accounts. -/
def mintModules : ModuleAccounts :=
  ⟨fun n => if n = feeCollectorName then some (ofAscii "collector")
    else if n = Mint.moduleName then some (ofAscii "minter") else none⟩

/-- A mint keeper for the examples: it mints to the account `minter` and pays `collector`, with no
check. -/
def plainMintKeeper : Mint.Keeper :=
  ⟨fun l coins => .ok (l.mint (ofAscii "minter") coins),
    fun l coins => .ok (l.move (ofAscii "minter") (ofAscii "collector") coins)⟩

/-- The example keeper pays the fee collector of `mintModules`. -/
theorem plainMintKeeper_pays (fc : Bytes) (hfc : mintModules.address feeCollectorName = some fc) :
    ∃ minter, plainMintKeeper.Pays minter fc := by
  obtain rfl : ofAscii "collector" = fc := Option.some_injective _ (Eq.trans (by decide) hfc)
  exact ⟨_, ⟨fun _ _ _ h => (Except.ok.inj h).symm, fun _ _ _ h => (Except.ok.inj h).symm⟩⟩

/-- A block of 13000 bonded tokens at an inflation of 0.1 over ten blocks a year: a provision of
`130uxion`. -/
def shortfallEnv : MintEnv := ⟨uncheckedBank mintModules, mintModules, some ⟨0⟩, some 13000⟩

/-- A fee collector holding `50uxion`, short of the provision. -/
def shortfallState : MintState :=
  ⟨⟨⟨10 ^ 17⟩, ⟨0⟩⟩, ⟨ofAscii "uxion", ⟨0⟩, ⟨0⟩, ⟨0⟩, ⟨0⟩, 10⟩,
    ⟨fun a d => if a = ofAscii "collector" ∧ d = ofAscii "uxion" then 50 else 0,
      fun d => if d = ofAscii "uxion" then 1000 else 0⟩⟩

/-- The block of `shortfallState` mints `80uxion` for the fee collector. -/
theorem shortfall_block_settled :
    ∃ s' ev, stakedInflationMintFn feeCollectorName (fun m _ _ => .ok m.inflation) shortfallEnv
        plainMintKeeper shortfallState = .ok (s', ev) ∧
      ∃ fc, mintModules.address feeCollectorName = some fc ∧
        ev.collectedAmount = shortfallState.ledger.balance fc (ofAscii "uxion") ∧
        s'.minter.blockProvision s'.params = .ok (ofAscii "uxion", ev.neededAmount) ∧
        s'.ledger.balance fc (ofAscii "uxion") = ev.neededAmount ∧
        ev.mintedAmount = max 0 (ev.neededAmount - ev.collectedAmount) ∧
        ev.burnedAmount = max 0 (ev.collectedAmount - ev.neededAmount) ∧
        s'.ledger.supply (ofAscii "uxion") =
          shortfallState.ledger.supply (ofAscii "uxion") + ev.mintedAmount - ev.burnedAmount := by
  obtain ⟨⟨s', ev⟩, h⟩ : ∃ r, stakedInflationMintFn feeCollectorName
      (fun m _ _ => .ok m.inflation) shortfallEnv plainMintKeeper shortfallState = .ok r :=
    ⟨_, rfl⟩
  exact ⟨s', ev, h, stakedInflationMint_settles _ _ _ _ _ _ _ (uncheckedBank_burnsFrom _)
    plainMintKeeper_pays h⟩

example : (stakedInflationMintFn feeCollectorName (fun m _ _ => .ok m.inflation) shortfallEnv
    plainMintKeeper shortfallState).toOption.map Prod.snd =
      some ⟨⟨0⟩, ⟨10 ^ 17⟩, ⟨13 * 10 ^ 20⟩, 130, 80, 50, 0⟩ := by
  decide

/-- The block of `shortfallState` changes no balance but the fee collector's `uxion`, and no
supply but that of `uxion`. -/
theorem shortfall_block_frame :
    ∃ s' ev, stakedInflationMintFn feeCollectorName (fun m _ _ => .ok m.inflation) shortfallEnv
        plainMintKeeper shortfallState = .ok (s', ev) ∧
      ∃ fc, shortfallEnv.modules.address feeCollectorName = some fc ∧
        (∀ a d, (a ≠ fc ∨ shortfallState.params.mintDenom ≠ d) →
          s'.ledger.balance a d = shortfallState.ledger.balance a d) ∧
        ∀ d, shortfallState.params.mintDenom ≠ d →
          s'.ledger.supply d = shortfallState.ledger.supply d := by
  obtain ⟨⟨s', ev⟩, h⟩ : ∃ r, stakedInflationMintFn feeCollectorName
      (fun m _ _ => .ok m.inflation) shortfallEnv plainMintKeeper shortfallState = .ok r :=
    ⟨_, rfl⟩
  exact ⟨s', ev, h, stakedInflationMintFn_frame (uncheckedBank_burnsFrom _) plainMintKeeper_pays h⟩

/-! ## The inflation over a run of blocks

`app.go` gives the mint function the SDK's `DefaultInflationCalculationFn`, which is
`NextInflationRate`; where that panics the block stops. -/

section Run

variable {feeCollectorName : Bytes} {ic : Mint.InflationCalculationFn} {env : MintEnv}
  {k : Mint.Keeper} {s s' : MintState} {ev : MintEvent}

/-- The mint function stores the inflation `ic` returns on the stored minter and parameters and
the staking keeper's bonded ratio, and leaves the parameters. -/
theorem stakedInflationMintFn_minter
    (h : stakedInflationMintFn feeCollectorName ic env k s = .ok (s', ev)) :
    ∃ bondedRatio, env.bondedRatio = some bondedRatio ∧
      ic s.minter s.params bondedRatio = .ok s'.minter.inflation ∧ s'.params = s.params := by
  obtain ⟨-, bondedRatio, -, -, hb, hinflation, hparams, -⟩ := stakedInflationMintFn_eq_ok h
  exact ⟨bondedRatio, hb, hinflation, hparams⟩

/-- A block with the default calculation under parameters that pass `Params.Validate` stores the
rate `NextInflationRate` returns, which lies between `InflationMin` and `InflationMax`, and leaves
the parameters. -/
theorem stakedInflationMintFn_inflation (hv : s.params.validate = .ok ())
    (h : stakedInflationMintFn feeCollectorName Mint.defaultInflationCalculationFn env k s =
      .ok (s', ev)) :
    s'.params = s.params ∧ s.params.inflationMin.i ≤ s'.minter.inflation.i ∧
      s'.minter.inflation.i ≤ s.params.inflationMax.i := by
  obtain ⟨b, -, hrate, hparams⟩ := stakedInflationMintFn_minter h
  exact ⟨hparams, Mint.nextInflationRate_within hv hrate⟩

/-- The blocks of a run: the mint function at the start of each block, with that block's
environment, until one fails. -/
def mintRun (feeCollectorName : Bytes) (ic : Mint.InflationCalculationFn) (k : Mint.Keeper)
    (s : MintState) (envs : List MintEnv) : Except MintError MintState :=
  envs.foldlM (fun s env => (stakedInflationMintFn feeCollectorName ic env k s).map Prod.fst) s

theorem mintRun_concat (s : MintState) (envs : List MintEnv) (env : MintEnv) :
    mintRun feeCollectorName ic k s (envs ++ [env]) =
      mintRun feeCollectorName ic k s envs >>= fun t =>
        (stakedInflationMintFn feeCollectorName ic env k t).map Prod.fst := by
  simp only [mintRun, List.foldlM_append, List.foldlM_cons, List.foldlM_nil, bind_pure]

theorem map_fst_eq_ok {x : Except MintError (MintState × MintEvent)} {t : MintState} :
    x.map Prod.fst = .ok t ↔ ∃ ev, x = .ok (t, ev) := by
  cases x with
  | error e => simp [Except.map]
  | ok p => simp [Except.map, Prod.ext_iff, eq_comm]

/-- A rate within the band of valid parameters has room left in a `LegacyDec`. -/
theorem room_of_within {params : Mint.Params} {x : LegacyDec} (hv : params.validate = .ok ())
    (hmin : params.inflationMin.i ≤ x.i) (hmax : x.i ≤ params.inflationMax.i) :
    x.i.natAbs + 2 ^ 128 ≤ 2 ^ maxDecBitLen := by
  have hvalid := Mint.Params.valid_of_validate hv
  have hmax1 := hvalid.max_le_one
  have hmin0 := hvalid.min_nonneg
  rw [LegacyDec.precisionReuse_eq] at hmax1
  exact LegacyDec.room_of_natAbs_le_one (by omega)

/-- Every block of a run with the default calculation keeps the parameters `p`, which pass
`Params.Validate`, and leaves room in the rate. -/
theorem mintRun_params_room {p : Mint.Params} (hv : p.validate = .ok ()) {envs : List MintEnv}
    {t t' : MintState} (ht : t.params = p ∧ t.minter.inflation.i.natAbs + 2 ^ 128 ≤ 2 ^ maxDecBitLen)
    (h : mintRun feeCollectorName Mint.defaultInflationCalculationFn k t envs = .ok t') :
    t'.params = p ∧ t'.minter.inflation.i.natAbs + 2 ^ 128 ≤ 2 ^ maxDecBitLen := by
  refine Run.foldlM_inv (I := fun u => u.params = p ∧
    u.minter.inflation.i.natAbs + 2 ^ 128 ≤ 2 ^ maxDecBitLen) ?_ ht h
  rintro u e u' - ⟨hu, -⟩ hblock
  obtain ⟨ev, hblock⟩ := map_fst_eq_ok.1 hblock
  rw [← hu] at hv ⊢
  obtain ⟨hparams, hmin, hmax⟩ := stakedInflationMintFn_inflation hv hblock
  exact ⟨hparams, room_of_within hv hmin hmax⟩

/-- Over every run of blocks with the default inflation calculation, from parameters that pass
`Params.Validate` and a rate with room left: the parameters stay, after a block the inflation lies
between `InflationMin` and `InflationMax`, and in every state the run reaches `NextInflationRate`
returns for every bonded ratio between zero and one, so the next block's calculation never
panics. -/
theorem mintRun_inflation_within (hv : s.params.validate = .ok ())
    (hm : s.minter.inflation.i.natAbs + 2 ^ 128 ≤ 2 ^ maxDecBitLen) (envs : List MintEnv)
    {t : MintState}
    (h : mintRun feeCollectorName Mint.defaultInflationCalculationFn k s envs = .ok t) :
    t.params = s.params ∧
      (envs ≠ [] → s.params.inflationMin.i ≤ t.minter.inflation.i ∧
        t.minter.inflation.i ≤ s.params.inflationMax.i) ∧
      ∀ b : LegacyDec, 0 ≤ b.i → b.i ≤ precisionReuse →
        ∃ r, t.minter.nextInflationRate t.params b = .ok r := by
  obtain ⟨hparams, hroom⟩ := mintRun_params_room hv ⟨rfl, hm⟩ h
  refine ⟨hparams, fun hne => ?_, fun b hb0 hb1 => ?_⟩
  · -- the last block brings the rate into the band
    rw [← List.dropLast_append_getLast hne, mintRun_concat, bind_eq_ok] at h
    obtain ⟨u, hu, hlast⟩ := h
    obtain ⟨ev, hlast⟩ := map_fst_eq_ok.1 hlast
    have hu' := (mintRun_params_room hv ⟨rfl, hm⟩ hu).1
    rw [← hu'] at hv ⊢
    exact (stakedInflationMintFn_inflation hv hlast).2
  · rw [hparams]
    exact Mint.nextInflationRate_ok hv hb0 hb1 hroom

end Run

/-- The default parameters in `uxion`, at the default minter, with a fee collector holding
`50uxion`. -/
def defaultMintState : MintState :=
  ⟨Mint.defaultInitialMinter, { Mint.defaultParams with mintDenom := ofAscii "uxion" },
    ⟨fun a d => if a = ofAscii "collector" ∧ d = ofAscii "uxion" then 50 else 0,
      fun d => if d = ofAscii "uxion" then 1000 else 0⟩⟩

/-- A block at a bonded ratio of one half with 13000 bonded tokens. -/
def halfBondedEnv : MintEnv :=
  ⟨uncheckedBank mintModules, mintModules, some ⟨500000000000000000⟩, some 13000⟩

/-- Two blocks at a bonded ratio of one half from the default state. -/
theorem mintRun_inflation_within_two_blocks :
    ∃ t, mintRun feeCollectorName Mint.defaultInflationCalculationFn plainMintKeeper
        defaultMintState [halfBondedEnv, halfBondedEnv] = .ok t ∧
      t.params = defaultMintState.params ∧
      ([halfBondedEnv, halfBondedEnv] ≠ [] →
        defaultMintState.params.inflationMin.i ≤ t.minter.inflation.i ∧
        t.minter.inflation.i ≤ defaultMintState.params.inflationMax.i) ∧
      ∀ b : LegacyDec, 0 ≤ b.i → b.i ≤ precisionReuse →
        ∃ r, t.minter.nextInflationRate t.params b = .ok r := by
  obtain ⟨t, h⟩ : ∃ t, mintRun feeCollectorName Mint.defaultInflationCalculationFn
      plainMintKeeper defaultMintState [halfBondedEnv, halfBondedEnv] = .ok t := ⟨_, rfl⟩
  exact ⟨t, h, mintRun_inflation_within rfl (LegacyDec.room_of_natAbs_le_one (by decide)) _ h⟩

end Xion.Module
