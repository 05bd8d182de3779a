import Xion.Sdk.Coins

/-!
# The bank keeper's ledger

The balances and the supply that the bank keeper of the Cosmos SDK keeps, and the calls of it
that the repository makes through `x/xion/types/expected_keepers.go`'s `BankKeeper`. The bank
keeper is not part of the repository, so its calls are the fields of `BankKeeper`, and what a
proof needs of one is a hypothesis on them, in the terms the SDK documents the call in
(`BankKeeper.BurnsFrom`). The account keeper's module accounts are `ModuleAccounts`.

`Ledger.move`, `Ledger.mint` and `Ledger.burn` are the ledgers after a send, a mint and a burn
of a coin set, as the hypotheses state the effect of a call: a send moves the coin set's amount
of each denomination from one account to another and leaves the supply, a mint adds it to an
account and to the supply, and a burn takes it from both.
-/

namespace Xion.Sdk

open Bytes KeyedList

/-- The bank's store: the balance of each account in each denomination, and the supply of each
denomination. An account is the canonical text of its address. -/
structure Ledger where
  balance : Bytes → Denom → ℤ
  supply : Denom → ℤ

/-- The module accounts, as the account keeper registers them from `maccPerms`:
`GetModuleAccount(name).GetAddress()`, as text; none for a name without an account. -/
structure ModuleAccounts where
  address : Bytes → Option Bytes

/-- `GetBalance`. -/
def getBalance (l : Ledger) (addr : Bytes) (denom : Denom) : Coin := (denom, l.balance addr denom)

/-- The ledger after the coins `amt` leave the account `src` for the account `dst`. -/
def Ledger.move (l : Ledger) (src dst : Bytes) (amt : Coins) : Ledger where
  balance a d :=
    l.balance a d - (if a = src then total amt d else 0) + (if a = dst then total amt d else 0)
  supply := l.supply

/-- The ledger after the coins `amt` are minted to the account `acc`. -/
def Ledger.mint (l : Ledger) (acc : Bytes) (amt : Coins) : Ledger where
  balance a d := l.balance a d + if a = acc then total amt d else 0
  supply d := l.supply d + total amt d

/-- The ledger after the coins `amt` are burnt from the account `acc`. -/
def Ledger.burn (l : Ledger) (acc : Bytes) (amt : Coins) : Ledger where
  balance a d := l.balance a d - if a = acc then total amt d else 0
  supply d := l.supply d - total amt d

@[simp]
theorem Ledger.balance_mint (l : Ledger) (acc : Bytes) (amt : Coins) (a : Bytes) (d : Denom) :
    (l.mint acc amt).balance a d = l.balance a d + if a = acc then total amt d else 0 := rfl

@[simp]
theorem Ledger.supply_mint (l : Ledger) (acc : Bytes) (amt : Coins) (d : Denom) :
    (l.mint acc amt).supply d = l.supply d + total amt d := rfl

@[simp]
theorem Ledger.balance_burn (l : Ledger) (acc : Bytes) (amt : Coins) (a : Bytes) (d : Denom) :
    (l.burn acc amt).balance a d = l.balance a d - if a = acc then total amt d else 0 := rfl

@[simp]
theorem Ledger.supply_burn (l : Ledger) (acc : Bytes) (amt : Coins) (d : Denom) :
    (l.burn acc amt).supply d = l.supply d - total amt d := rfl

/-- Coins minted to an account and moved on from it are coins minted to where they went. -/
theorem Ledger.move_mint (l : Ledger) (acc dst : Bytes) (amt : Coins) :
    (l.mint acc amt).move acc dst amt = l.mint dst amt := by
  simp only [Ledger.move, Ledger.mint, Ledger.mk.injEq, and_true]
  funext a d
  split_ifs <;> omega

/-- The calls of the bank keeper that the repository makes, each on the bank's ledger. -/
structure BankKeeper where
  /-- `IsSendEnabledCoins`. -/
  isSendEnabledCoins : Coins → Except SdkError Unit
  /-- `BlockedAddr`. -/
  blockedAddr : Bytes → Bool
  /-- `SendCoins(fromAddr, toAddr, amt)`. -/
  sendCoins : Ledger → Bytes → Bytes → Coins → Except SdkError Ledger
  /-- `SendCoinsFromAccountToModule(senderAddr, recipientModule, amt)`. -/
  sendCoinsFromAccountToModule : Ledger → Bytes → Bytes → Coins → Except SdkError Ledger
  /-- `InputOutputCoins(input, outputs)`. -/
  inputOutputCoins : Ledger → Input → List Output → Except SdkError Ledger
  /-- `BurnCoins(moduleName, amt)`. -/
  burnCoins : Ledger → Bytes → Coins → Except SdkError Ledger

/-- `BurnCoins` as the SDK documents it: a burn that succeeds takes the coins from the account of
the module and from the supply. -/
def BankKeeper.BurnsFrom (bk : BankKeeper) (m : ModuleAccounts) : Prop :=
  ∀ l moduleName amt l', bk.burnCoins l moduleName amt = .ok l' →
    ∃ acc, m.address moduleName = some acc ∧ l' = l.burn acc amt

end Xion.Sdk
