import Xion.Module.PlatformFee
import Xion.Sdk.Bank

/-!
# The message server of `x/xion`

The handlers of `x/xion/keeper/msg_server.go`, the `ValidateBasic` of their messages
(`types/msgs.go`) and the module's genesis (`types/genesis.go`, `keeper/genesis.go`). The module
stores a platform percentage, in basis points, and per-denomination minimums; `Send` and
`MultiSend` are the bank's sends with the percentage taken as a fee for the fee collector.

Only `SetPlatformPercentage` and `InitGenesis` write the percentage. The handler rejects a
percentage above `10000`, and genesis validation does too (`InitGenesis` itself does not), so
every run from a validated genesis keeps it at most `10000` (`run_platformPercentage_le`).

`MultiSend` rewrites the outputs before the bank checks them (`multiSendOutputs`): each output
is reduced by its fee and one output for the fee collector carries the fees. The rewritten
outputs carry, of each denomination, what the original ones did (`outputsTotal_multiSendOutputs`).
An output whose coins the fees consume entirely is left with no coins, which the bank's check
rejects.
-/

namespace Xion.Module

open Bytes Run KeyedList Sdk

/-- `authtypes.FeeCollectorName`. -/
def feeCollectorName : Bytes := ofAscii "fee_collector"

/-- The chain around the module. -/
structure XionEnv where
  /-- `sdk.AccAddressFromBech32` followed by `AccAddress.String`: the canonical text of an
  address, none for a string that is not one. -/
  accAddress : Bytes → Option Bytes
  /-- Whether `bech32.Decode`, which accepts any prefix, accepts a string. -/
  bech32Decode : Bytes → Bool
  /-- The module's authority. -/
  authority : Bytes
  /-- The bank keeper. -/
  bank : BankKeeper
  /-- The module accounts of the account keeper. -/
  modules : ModuleAccounts

/-- The module's store and the bank's ledger. The percentage is stored from a `uint32`. -/
structure XionState where
  platformPercentage : UInt32
  platformMinimums : Coins
  ledger : Ledger

/-- `GetPlatformPercentage`. -/
def getPlatformPercentage (s : XionState) : ℤ := s.platformPercentage.toNat

/-- The errors of the handlers. -/
inductive XionError
  /-- An error of the SDK's coins or of the bank. -/
  | sdk (e : SdkError)
  /-- The decoding error of `AccAddressFromBech32`, which `Send` returns as it is. -/
  | invalidAddress
  /-- `ErrUnauthorized`: a blocked recipient. -/
  | unauthorized
  /-- `ErrMinimumNotMet`. -/
  | minimumNotMet
  /-- The error of `MultiSend` when `SafeSub` reports a negative amount. -/
  | subtractFailed
  /-- The panic of `msg.Inputs[0]` on a message without inputs. -/
  | indexOutOfRange
  /-- `ErrInvalidSigner`. -/
  | invalidSigner
  /-- `ErrInvalidRequest`, and the errors of the percentage's `ValidateBasic` and genesis
  validation. -/
  | invalidRequest
  /-- `ErrNoInputs`. -/
  | noInputs
  /-- `ErrMultipleSenders`. -/
  | multipleSenders
  deriving DecidableEq, Repr

/-- An error of the SDK, as a handler returns it. -/
def liftSdk {α : Type} (x : Except SdkError α) : Except XionError α := x.mapError .sdk

/-- `MsgSend`. -/
structure MsgSend where
  fromAddress : Bytes
  toAddress : Bytes
  amount : Coins
  deriving DecidableEq, Repr

/-- `MsgMultiSend`. -/
structure MsgMultiSend where
  inputs : List Input
  outputs : List Output
  deriving DecidableEq, Repr

/-- `MsgSetPlatformPercentage`. -/
structure MsgSetPlatformPercentage where
  authority : Bytes
  platformPercentage : UInt32
  deriving DecidableEq, Repr

/-- `MsgSetPlatformMinimum`. -/
structure MsgSetPlatformMinimum where
  authority : Bytes
  minimums : Coins
  deriving DecidableEq, Repr

/-! ## The handlers -/

section Handlers

variable (env : XionEnv)

/-- `Send`: the bank's ledger after the send, the platform's fee paid to the fee collector
first. -/
def send (s : XionState) (msg : MsgSend) : Except XionError Ledger := do
  liftSdk (env.bank.isSendEnabledCoins msg.amount)
  let fromAddr ← ofOption (env.accAddress msg.fromAddress) .invalidAddress
  let toAddr ← ofOption (env.accAddress msg.toAddress) .invalidAddress
  failIf (env.bank.blockedAddr toAddr = true) .unauthorized
  let percentage := getPlatformPercentage s
  let minimums := s.platformMinimums
  failIf (meetsConfiguredMinimums msg.amount minimums = false) .minimumNotMet
  let (throughCoins, ledger) ← if percentage ≠ 0 then do
      let platformCoins ← liftSdk (getPlatformCoins msg.amount percentage)
      let throughCoins ← liftSdk (sub msg.amount platformCoins)
      let ledger ← liftSdk (env.bank.sendCoinsFromAccountToModule s.ledger fromAddr
        feeCollectorName platformCoins)
      pure (throughCoins, ledger)
    else pure (msg.amount, s.ledger)
  liftSdk (env.bank.sendCoins ledger fromAddr toAddr throughCoins)

/-- One output in the loop of `MultiSend`: its address checked, and under a platform fee, the
output reduced by its fee and the fee added to the total. -/
def rewriteOutput (percentage : ℤ) (acc : List Output × Coins) (out : Output) :
    Except XionError (List Output × Coins) := do
  let accAddr ← ofOption (env.accAddress out.address) (.sdk .invalidAddress)
  failIf (env.bank.blockedAddr accAddr = true) .unauthorized
  if percentage ≠ 0 then
    let platformCoins ← liftSdk (getPlatformCoins out.coins percentage)
    let (throughCoins, wentNegative) ← liftSdk (safeSub out.coins platformCoins)
    failIf (wentNegative = true) .subtractFailed
    let totalPlatformCoins ← liftSdk (safeAdd acc.2 platformCoins)
    pure (acc.1 ++ [⟨accAddr, throughCoins⟩], totalPlatformCoins)
  else
    pure (acc.1 ++ [out], acc.2)

/-- The loop of `MultiSend` over the outputs, from no outputs and `sdk.NewCoins()`. -/
def rewriteOutputs (percentage : ℤ) (outs : List Output) :
    Except XionError (List Output × Coins) :=
  outs.foldlM (rewriteOutput env percentage) ([], [])

/-- The outputs that `MultiSend` hands to `InputOutputCoins`: the rewritten ones, and one to the
fee collector with the fees when they are not zero. -/
def multiSendOutputs (percentage : ℤ) (outs : List Output) : Except XionError (List Output) := do
  let (outputs, totalPlatformCoins) ← rewriteOutputs env percentage outs
  if isZero totalPlatformCoins = false then
    let feeCollectorAcc ← ofOption (env.modules.address feeCollectorName)
      (.sdk .unknownModuleAccount)
    pure (outputs ++ [⟨feeCollectorAcc, totalPlatformCoins⟩])
  else pure outputs

/-- `MultiSend`: the bank's ledger after moving the first input's coins to the rewritten
outputs. -/
def multiSend (s : XionState) (msg : MsgMultiSend) : Except XionError Ledger := do
  msg.inputs.forM fun input => liftSdk (env.bank.isSendEnabledCoins input.coins)
  let percentage := getPlatformPercentage s
  let minimums := s.platformMinimums
  let input ← ofOption msg.inputs.head? .indexOutOfRange
  failIf (meetsConfiguredMinimums input.coins minimums = false) .minimumNotMet
  let outputs ← multiSendOutputs env percentage msg.outputs
  liftSdk (env.bank.inputOutputCoins s.ledger input outputs)

/-- `SetPlatformPercentage`. -/
def setPlatformPercentage (s : XionState) (msg : MsgSetPlatformPercentage) :
    Except XionError XionState := do
  failIf (env.authority ≠ msg.authority) .invalidSigner
  failIf (msg.platformPercentage > 10000) .invalidRequest
  pure { s with platformPercentage := msg.platformPercentage }

/-- `SetPlatformMinimum`; the minimums always marshal. -/
def setPlatformMinimum (s : XionState) (msg : MsgSetPlatformMinimum) :
    Except XionError XionState := do
  failIf (env.authority ≠ msg.authority) .invalidSigner
  pure { s with platformMinimums := msg.minimums }

end Handlers

/-! ## Messages and runs -/

/-- The module's messages. -/
inductive XionMsg
  | send (msg : MsgSend)
  | multiSend (msg : MsgMultiSend)
  | setPlatformPercentage (msg : MsgSetPlatformPercentage)
  | setPlatformMinimum (msg : MsgSetPlatformMinimum)
  deriving DecidableEq, Repr

/-- `MsgMultiSend.ValidateBasic`: one input, some outputs, and the bank's input and output
check. -/
def MsgMultiSend.validateBasic (accAddress : Bytes → Option Bytes) (msg : MsgMultiSend) :
    Except XionError Unit := do
  failIf (msg.inputs = []) .noInputs
  failIf (msg.inputs.length ≠ 1) .multipleSenders
  failIf (msg.outputs = []) (.sdk .noOutputs)
  let input ← ofOption msg.inputs.head? .noInputs
  liftSdk (validateInputOutputs accAddress input msg.outputs)

/-- The `ValidateBasic` of each message, which the chain runs before the handler. -/
def XionMsg.validateBasic (env : XionEnv) : XionMsg → Except XionError Unit
  | .send msg => do
    failIf (env.bech32Decode msg.fromAddress = false) (.sdk .invalidAddress)
    failIf (env.bech32Decode msg.toAddress = false) (.sdk .invalidAddress)
    failIf (isValid msg.amount = false) (.sdk .invalidCoins)
    failIf (isAllPositive msg.amount = false) (.sdk .invalidCoins)
  | .multiSend msg => msg.validateBasic env.accAddress
  | .setPlatformPercentage msg => failIf (msg.platformPercentage > 10000) .invalidRequest
  | .setPlatformMinimum msg => do
    failIf (env.bech32Decode msg.authority = false) (.sdk .invalidAddress)
    failIf (isValid msg.minimums = false) (.sdk .invalidCoins)
    failIf (isAnyNegative msg.minimums = true) (.sdk .invalidCoins)

/-- The handler of a message; the sends write only the bank's ledger. -/
def handle (env : XionEnv) : XionMsg → XionState → Except XionError XionState
  | .send msg, s => do
    let ledger ← send env s msg
    pure { s with ledger }
  | .multiSend msg, s => do
    let ledger ← multiSend env s msg
    pure { s with ledger }
  | .setPlatformPercentage msg, s => setPlatformPercentage env s msg
  | .setPlatformMinimum msg, s => setPlatformMinimum env s msg

/-- One delivered message: checked, then handled; its writes when both succeed, none otherwise. -/
def step (env : XionEnv) (s : XionState) (m : XionMsg) : XionState :=
  commit (fun s => do
    m.validateBasic env
    handle env m s) s

/-- A run of messages. -/
def run (env : XionEnv) (s : XionState) (ms : List XionMsg) : XionState := exec (step env) s ms

/-! ## Genesis -/

/-- `types.GenesisState`. -/
structure GenesisState where
  platformPercentage : UInt32
  platformMinimums : Coins
  deriving DecidableEq, Repr

/-- `GenesisState.Validate`. -/
def GenesisState.validate (gs : GenesisState) : Except XionError Unit :=
  failIf (gs.platformPercentage > 10000) .invalidRequest

/-- `InitGenesis`, over the bank's ledger of the chain's genesis; it writes without checking. -/
def initGenesis (ledger : Ledger) (gs : GenesisState) : XionState :=
  { platformPercentage := gs.platformPercentage, platformMinimums := gs.platformMinimums, ledger }

/-! ## The stored percentage -/

/-- The stored percentage is at most `10000`. -/
def PercentageBounded (s : XionState) : Prop := s.platformPercentage.toNat ≤ 10000

/-- A handler keeps the stored percentage at most `10000`: the sends and `SetPlatformMinimum`
do not write it, and `SetPlatformPercentage` rejects a larger one. -/
theorem handle_percentageBounded {env : XionEnv} {s s' : XionState} (m : XionMsg)
    (hs : PercentageBounded s) (h : handle env m s = .ok s') : PercentageBounded s' := by
  cases m with
  | send msg =>
    obtain ⟨ledger, -, hl⟩ := bind_eq_ok.1 h
    rw [← pure_eq_ok.1 hl]
    exact hs
  | multiSend msg =>
    obtain ⟨ledger, -, hl⟩ := bind_eq_ok.1 h
    rw [← pure_eq_ok.1 hl]
    exact hs
  | setPlatformPercentage msg =>
    simp only [handle, setPlatformPercentage, bind_const_eq_ok, failIf_eq_ok, pure_eq_ok] at h
    obtain ⟨-, hle, rfl⟩ := h
    simp only [PercentageBounded, UInt32.lt_iff_toNat_lt, not_lt] at hle ⊢
    exact hle
  | setPlatformMinimum msg =>
    simp only [handle, setPlatformMinimum, bind_const_eq_ok, failIf_eq_ok, pure_eq_ok] at h
    obtain ⟨-, rfl⟩ := h
    exact hs

theorem step_percentageBounded {env : XionEnv} {s : XionState} (m : XionMsg)
    (hs : PercentageBounded s) : PercentageBounded (step env s m) :=
  commit_inv hs fun _ h => handle_percentageBounded m hs (bind_const_eq_ok.1 h).2

/-- From a validated genesis, every run keeps the stored percentage at most `10000`. -/
theorem run_platformPercentage_le {env : XionEnv} {ledger : Ledger} {gs : GenesisState}
    (hgs : gs.validate = .ok ()) (ms : List XionMsg) :
    getPlatformPercentage (run env (initGenesis ledger gs) ms) ≤ 10000 := by
  have h0 : PercentageBounded (initGenesis ledger gs) := by
    simp only [GenesisState.validate, failIf_eq_ok, UInt32.lt_iff_toNat_lt, not_lt] at hgs
    exact hgs
  have hrun : PercentageBounded (run env (initGenesis ledger gs) ms) :=
    exec_inv (fun s m hs => step_percentageBounded m hs) ms h0
  rw [getPlatformPercentage]
  exact_mod_cast hrun

/-! ## The platform fee never exceeds the amount -/

/-- The fee of every valid coin set under every percentage in `(0, 10000]` is, per denomination,
`amount · percentage / 10000` rounded up, whichever path computes it; it is at most the amount,
so neither `Sub` in `Send` nor `SafeSub` in `MultiSend` goes negative. And every stored
percentage is in `[0, 10000]`. -/
theorem getPlatformCoins_ceil_within_amount :
    (∀ (coins : Coins) (percentage : ℤ), isValid coins = true → Bounded coins →
      0 < percentage → percentage ≤ 10000 →
      ∃ pc, getPlatformCoins coins percentage = .ok pc ∧
        (∀ d, total pc d = ⌈(total coins d * percentage : ℚ) / 10000⌉ ∧
          total pc d ≤ total coins d) ∧
        (∃ r, sub coins pc = .ok r) ∧ ∃ r, safeSub coins pc = .ok (r, false)) ∧
    ∀ (env : XionEnv) (ledger : Ledger) (gs : GenesisState) (ms : List XionMsg),
      gs.validate = .ok () → getPlatformPercentage (run env (initGenesis ledger gs) ms) ≤ 10000 := by
  refine ⟨fun coins percentage hv hb hp hp' => ?_,
    fun env ledger gs ms hgs => run_platformPercentage_le hgs ms⟩
  obtain ⟨pc, hpc, -, ht⟩ := getPlatformCoins_spec hv hb hp hp'
  obtain ⟨r, hr, -⟩ := sub_getPlatformCoins hv hb hp hp' hpc
  obtain ⟨r', hr', -⟩ := safeSub_getPlatformCoins hv hb hp hp' hpc
  refine ⟨pc, hpc, fun d => ⟨?_, (total_fee_le hv hp hp' ht d).2⟩, ⟨r, hr⟩, r', hr'⟩
  rw [ht, ceilFee_eq_ceil]

/-- A bank for the examples over the module accounts `m`: it blocks no address, sends every
denomination, and moves and burns coins without checking a balance; `InputOutputCoins` takes each
output's coins from the input's account. -/
def uncheckedBank (m : ModuleAccounts) : BankKeeper where
  isSendEnabledCoins _ := .ok ()
  blockedAddr _ := false
  sendCoins l fromAddr toAddr amt := .ok (l.move fromAddr toAddr amt)
  sendCoinsFromAccountToModule l senderAddr recipientModule amt :=
    (ofOption (m.address recipientModule) .unknownModuleAccount).map (l.move senderAddr · amt)
  inputOutputCoins l input outputs :=
    .ok (outputs.foldl (fun l out => l.move input.address out.address out.coins) l)
  burnCoins l moduleName amt :=
    (ofOption (m.address moduleName) .unknownModuleAccount).map (l.burn · amt)

theorem uncheckedBank_burnsFrom (m : ModuleAccounts) : (uncheckedBank m).BurnsFrom m := by
  intro l moduleName amt l' h
  cases hm : m.address moduleName with
  | none => simp [uncheckedBank, hm, ofOption, Except.map] at h
  | some acc =>
    simp only [uncheckedBank, hm, ofOption, Except.map, Except.ok.injEq] at h
    exact ⟨acc, rfl, h.symm⟩

/-- The module accounts of the examples: the fee collector's is `collector`. -/
def plainModules : ModuleAccounts :=
  ⟨fun n => if n = feeCollectorName then some (ofAscii "collector") else none⟩

/-- A chain where every string is the canonical text of an address, nothing is blocked, every
denomination can be sent, and the fee collector's account is `collector`. -/
def plainEnv : XionEnv where
  accAddress := some
  bech32Decode _ := true
  authority := ofAscii "gov"
  bank := uncheckedBank plainModules
  modules := plainModules

/-- An empty ledger. -/
def emptyLedger : Ledger := ⟨fun _ _ => 0, fun _ => 0⟩

/-- `12345uxion`. -/
def uxionCoins : Coins := [(ofAscii "uxion", 12345)]

theorem uxion_fee_within_amount :
    (∃ pc, getPlatformCoins uxionCoins 250 = .ok pc ∧
        (∀ d, total pc d = ⌈(total uxionCoins d * (250 : ℤ) : ℚ) / 10000⌉ ∧
          total pc d ≤ total uxionCoins d) ∧
        (∃ r, sub uxionCoins pc = .ok r) ∧ ∃ r, safeSub uxionCoins pc = .ok (r, false)) ∧
      getPlatformPercentage (run plainEnv (initGenesis emptyLedger ⟨250, []⟩)
        [.setPlatformPercentage ⟨ofAscii "gov", 500⟩]) ≤ 10000 :=
  ⟨getPlatformCoins_ceil_within_amount.1 uxionCoins 250 (by decide) (by decide) (by decide)
      (by decide),
    getPlatformCoins_ceil_within_amount.2 plainEnv emptyLedger ⟨250, []⟩ _ (by decide)⟩

end Xion.Module
