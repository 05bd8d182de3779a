import Xion.GlobalFee.Coins
import Xion.Lib.Run

/-!
# The fee checks of the ante chain

`FeeDecorator.AnteHandle` of `x/globalfee/ante/fee.go`, and its place in the chain that
`NewAnteHandler` builds in `app/ante.go`: after the set-up decorators and before the validation
checks and the SDK's `DeductFeeDecorator`, which `setAnteHandler` creates with no fee checker, so
with the SDK's `checkTxFeeWithValidatorMinGasPrices`.

Outside the path of transactions made only of bypass messages, the decorator compares the fee
with nothing: it puts the required minimum gas prices on the context (the global fees in
DeliverTx, and in CheckTx the per-denomination maximum of the node's and the global ones) and
leaves the comparison to the default checker, which compares only in CheckTx. So a transaction
that passes the chain in CheckTx pays, in some denomination, its gas at the larger of the node's
and the global price (`checkTx_fee_covers`); in DeliverTx the chain accepts it whatever its fee,
as long as its payer can pay that fee (`deliverTx_anteHandler_ok_iff`); `fee_required_by_mode`
states the two together. The comment on `GetTxFeeRequired`, that the global fees are the
requirement in DeliverTx, is not what the chain does.

A transaction made only of bypass messages is judged on its gas limit and the denominations of
its fee alone (`checkBypassFee_eq_ok`), and a zero fee clears the node's prices for the rest of
the chain.

The other decorators of the chain are parameters (`AnteEnv`): each accepts or rejects the
transaction, and none reads the context's minimum gas prices.
-/

namespace Xion.GlobalFee

open Bytes Run

/-- The fields of `sdk.Context` that the fee checks read. -/
structure Ctx where
  isCheckTx : Bool
  minGasPrices : DecCoins
  blockHeight : ℕ
  deriving DecidableEq, Repr

/-- An `sdk.FeeTx`: the type URLs of its messages, its gas limit and its fee. -/
structure FeeTx where
  msgs : List Bytes
  gas : UInt64
  fee : Coins
  deriving DecidableEq, Repr

/-- The module's parameter subspace; a parameter that `Has` does not find is `none`. -/
structure ParamSource where
  minimumGasPrices : Option DecCoins
  bypassMinFeeMsgTypes : Option (List Bytes)
  maxTotalBypassMinFeeMsgGasUsage : Option UInt64
  deriving DecidableEq, Repr

/-- The errors of the chain's fee checks; a panic is the error the base app turns it into. -/
inductive AnteError
  | insufficientFee
  | invalidCoins
  | emptyBondDenom
  | invalidGasLimit
  | insufficientFunds
  | panic
  | rejected
  deriving DecidableEq, Repr

/-- `DefaultmaxTotalBypassMinFeeMsgGasUsage`. -/
def defaultMaxTotalBypassMinFeeMsgGasUsage : UInt64 := 1000000

/-! ## The global-fee decorator -/

section Decorator

variable (ps : ParamSource) (bondDenom : Denom)

/-- `DefaultZeroGlobalFee`: a zero price in the bond denomination. -/
def defaultZeroGlobalFee : Except AnteError DecCoins :=
  if bondDenom = [] then .error .emptyBondDenom else .ok [(bondDenom, 0)]

/-- `GetGlobalFee`: the parameter, or the zero price when it is unset or empty, sorted. -/
def getGlobalFee : Except AnteError DecCoins := do
  let globalMinGasPrices := ps.minimumGasPrices.getD []
  let globalMinGasPrices ←
    if globalMinGasPrices = [] then defaultZeroGlobalFee bondDenom else pure globalMinGasPrices
  pure (sort globalMinGasPrices)

/-- `GetBypassMsgTypes`. -/
def getBypassMsgTypes : List Bytes := ps.bypassMinFeeMsgTypes.getD []

/-- `GetMaxTotalBypassMinFeeMsgGasUsage`. -/
def getMaxTotalBypassMinFeeMsgGasUsage : UInt64 :=
  ps.maxTotalBypassMinFeeMsgGasUsage.getD defaultMaxTotalBypassMinFeeMsgGasUsage

/-- `ContainsOnlyBypassMinFeeMsgs`: every message's type URL is a bypass type (true of no
messages). -/
def containsOnlyBypassMinFeeMsgs (msgs : List Bytes) : Bool :=
  msgs.all fun m => m ∈ getBypassMsgTypes ps

/-- `GetMinGasPrice`: the node's minimum gas prices, sorted; none when they are all zero. -/
def getMinGasPrice (ctx : Ctx) : DecCoins :=
  if isZero ctx.minGasPrices then [] else sort ctx.minGasPrices

/-- `GetTxFeeRequired`: the global fees in DeliverTx, and in CheckTx their maximum with the
node's minimum gas prices. -/
def getTxFeeRequired (ctx : Ctx) : Except AnteError DecCoins := do
  let globalFees ← getGlobalFee ps bondDenom
  if !ctx.isCheckTx then return globalFees
  pure (maxCoins (getMinGasPrice ctx) globalFees)

/-- The bypass path of `AnteHandle`: a bounded gas limit, and a non-zero fee only in the
denominations of non-zero global fees; a zero fee clears the node's minimum gas prices. -/
def checkBypassFee (ctx : Ctx) (tx : FeeTx) : Except AnteError Ctx := do
  failIf (tx.gas > getMaxTotalBypassMinFeeMsgGasUsage ps) .insufficientFee
  if !isZero tx.fee then
    let globalFees ← getGlobalFee ps bondDenom
    if !isZero globalFees then
      tx.fee.forM fun feeCoin => failIf (feeCoin.1 ∉ globalFees.map Prod.fst) .invalidCoins
  pure (if isZero tx.fee && !isZero ctx.minGasPrices then { ctx with minGasPrices := [] }
    else ctx)

/-- `FeeDecorator.AnteHandle`: the context it passes to the next decorator. -/
def feeDecorator (ctx : Ctx) (tx : FeeTx) (simulate : Bool) : Except AnteError Ctx :=
  if simulate then .ok ctx
  else if containsOnlyBypassMinFeeMsgs ps tx.msgs then checkBypassFee ps bondDenom ctx tx
  else do
    let feeRequired ← getTxFeeRequired ps bondDenom ctx
    pure { ctx with minGasPrices := feeRequired }

end Decorator

/-! ## The SDK's fee deduction and the chain -/

/-- The fee of a gas limit at a decimal price: the product rounded up (`Ceil`) and read as an
integer. -/
def requiredFee (price gas : ℕ) : ℕ := (price * gas + decOne - 1) / decOne

/-- The SDK's `checkTxFeeWithValidatorMinGasPrices`: in CheckTx, with minimum gas prices that are
not all zero, the fee must reach the fee of the gas limit at some price (`IsAnyGTE`). The gas
limit is read as an `int64`: at `2^63` or more it is negative, and the negative coin panics. -/
def checkTxFeeWithValidatorMinGasPrices (ctx : Ctx) (tx : FeeTx) : Except AnteError Unit :=
  if ctx.isCheckTx && !isZero ctx.minGasPrices then
    if tx.gas.toNat ≥ 2 ^ 63 then .error .panic
    else
      failIf (isAnyGTE tx.fee
        (ctx.minGasPrices.map fun gp => (gp.1, requiredFee gp.2 tx.gas.toNat)) = false)
        .insufficientFee
  else .ok ()

/-- The decorators of the chain other than the two fee decorators. -/
structure AnteEnv where
  /-- The staking module's bond denomination. -/
  bondDenom : Denom
  /-- `SetUpContext`, `LimitSimulationGas`, `CountTX`, `CircuitBreaker`, `ExtensionOptions`. -/
  setUp : FeeTx → Bool
  /-- `ValidateBasic`, `TxTimeoutHeight`, `ValidateMemo`, `ConsumeGasForTxSize`. -/
  validate : FeeTx → Bool
  /-- `checkDeductFee`: the fee payer, or its granter, can pay the fee. -/
  canPay : Coins → Bool
  /-- `SetPubKey` to `RedundantRelay`: keys, signatures, sequences, relays. -/
  verify : FeeTx → Bool

/-- The SDK's `DeductFeeDecorator` with the default fee checker. -/
def deductFeeDecorator (env : AnteEnv) (ctx : Ctx) (tx : FeeTx) (simulate : Bool) :
    Except AnteError Unit := do
  failIf (simulate = false ∧ ctx.blockHeight > 0 ∧ tx.gas = 0) .invalidGasLimit
  if simulate = false then checkTxFeeWithValidatorMinGasPrices ctx tx
  failIf (env.canPay tx.fee = false) .insufficientFunds

/-- `NewAnteHandler`'s chain, with the decorators other than the fee ones as `env` has them. -/
def anteHandler (env : AnteEnv) (ps : ParamSource) (ctx : Ctx) (tx : FeeTx) (simulate : Bool) :
    Except AnteError Ctx := do
  failIf (env.setUp tx = false) .rejected
  let ctx ← feeDecorator ps env.bondDenom ctx tx simulate
  failIf (env.validate tx = false) .rejected
  deductFeeDecorator env ctx tx simulate
  failIf (env.verify tx = false) .rejected
  pure ctx

/-! ## Spec lemmas -/

section Spec

variable {env : AnteEnv} {ps : ParamSource} {bondDenom : Denom} {ctx ctx' : Ctx} {tx : FeeTx}
  {simulate : Bool}

/-- `IsAnyGTE` holds when some coin reaches its non-zero amount in the second set. -/
theorem isAnyGTE_eq_true {coins coinsB : Coins} (h : isAnyGTE coins coinsB = true) :
    ∃ c ∈ coins, amountOf coinsB c.1 ≤ c.2 ∧ amountOf coinsB c.1 ≠ 0 := by
  simp only [isAnyGTE, Bool.and_eq_true, Bool.not_eq_eq_eq_not, Bool.not_true, List.any_eq_true,
    decide_eq_true_eq] at h
  exact h.2

/-- A transaction with a message of a type that is not a bypass type is not a bypass
transaction. -/
theorem containsOnlyBypassMinFeeMsgs_eq_false {msgs : List Bytes}
    (h : ∃ m ∈ msgs, m ∉ getBypassMsgTypes ps) : containsOnlyBypassMinFeeMsgs ps msgs = false := by
  obtain ⟨m, hm, hbypass⟩ := h
  rw [containsOnlyBypassMinFeeMsgs, List.all_eq_false]
  exact ⟨m, hm, by simpa using hbypass⟩

/-- A transaction whose messages are all of bypass types is a bypass transaction. -/
theorem containsOnlyBypassMinFeeMsgs_eq_true {msgs : List Bytes}
    (h : ∀ m ∈ msgs, m ∈ getBypassMsgTypes ps) : containsOnlyBypassMinFeeMsgs ps msgs = true := by
  rw [containsOnlyBypassMinFeeMsgs, List.all_eq_true]
  exact fun m hm => decide_eq_true (h m hm)

theorem getGlobalFee_sort {globalFees : DecCoins} (h : getGlobalFee ps bondDenom = .ok globalFees) :
    sort globalFees = globalFees := by
  rw [getGlobalFee] at h
  -- Both branches sort what they return.
  split at h <;>
  · obtain ⟨l, -, hl⟩ := bind_eq_ok.1 h
    rw [← pure_eq_ok.1 hl, sort_sort]

theorem getMinGasPrice_sort : sort (getMinGasPrice ctx) = getMinGasPrice ctx := by
  unfold getMinGasPrice
  split
  · rfl
  · exact sort_sort _

/-- With distinct denominations, the node's price of a denomination as `GetMinGasPrice` gives it
is the one listed, zero where the prices are all zero. -/
theorem amountOf_getMinGasPrice (hd : (ctx.minGasPrices.map Prod.fst).Nodup) (d : Denom) :
    amountOf (getMinGasPrice ctx) d = (SortedMap.lookup d ctx.minGasPrices).getD 0 := by
  unfold getMinGasPrice
  split
  case isTrue hzero =>
    -- A listed price is one of the zero amounts.
    cases hl : SortedMap.lookup d ctx.minGasPrices with
    | none => rfl
    | some v =>
      have hmem := (SortedMap.lookup_eq_some_iff_of_nodup hd d v).1 hl
      simp only [isZero, List.all_eq_true, decide_eq_true_eq] at hzero
      exact (hzero _ hmem).symm
  case isFalse => exact amountOf_sort hd d

theorem getTxFeeRequired_eq_ok {feeRequired : DecCoins} :
    getTxFeeRequired ps bondDenom ctx = .ok feeRequired ↔
      ∃ globalFees, getGlobalFee ps bondDenom = .ok globalFees ∧
        feeRequired =
          if ctx.isCheckTx then maxCoins (getMinGasPrice ctx) globalFees else globalFees := by
  simp only [getTxFeeRequired, bind_eq_ok]
  refine exists_congr fun globalFees => and_congr_right fun _ => ?_
  cases ctx.isCheckTx
  · exact pure_eq_ok.trans eq_comm
  · exact pure_eq_ok.trans eq_comm

/-- The bypass path accepts a transaction whose gas limit is within the bound and whose fee is
zero, or in denominations of the global fees where those are not all zero; it passes on the
context with the node's prices cleared exactly when the fee is zero and they are not. -/
theorem checkBypassFee_eq_ok :
    checkBypassFee ps bondDenom ctx tx = .ok ctx' ↔
      tx.gas ≤ getMaxTotalBypassMinFeeMsgGasUsage ps ∧
        (isZero tx.fee = true ∨ ∃ globalFees, getGlobalFee ps bondDenom = .ok globalFees ∧
          (isZero globalFees = true ∨ ∀ c ∈ tx.fee, c.1 ∈ globalFees.map Prod.fst)) ∧
        ctx' = if isZero tx.fee = true ∧ isZero ctx.minGasPrices = false then
          { ctx with minGasPrices := [] } else ctx := by
  simp only [checkBypassFee, bind_const_eq_ok, failIf_eq_ok, gt_iff_lt, UInt64.not_lt]
  refine and_congr_right fun _ => ?_
  -- The fee decides whether the global fees are read at all.
  cases hfee : isZero tx.fee
  case true =>
    simp only [Bool.not_true, Bool.false_eq_true, if_false, Bool.true_and, Bool.not_eq_true',
      true_or, true_and, pure_eq_ok]
    exact eq_comm
  case false =>
    -- A non-zero fee is checked against the global fees; the context passes unchanged.
    simp only [Bool.not_false, if_true, Bool.false_and, Bool.false_eq_true, false_and, if_false,
      false_or, bind_eq_ok, ← exists_and_right, and_assoc]
    refine exists_congr fun globalFees => and_congr_right fun _ => ?_
    cases isZero globalFees
    case true =>
      simp only [Bool.not_true, Bool.false_eq_true, if_false, true_or, true_and, pure_eq_ok]
      exact eq_comm
    case false =>
      simp only [Bool.not_false, if_true, Bool.false_eq_true, false_or]
      rw [bind_const_eq_ok, forM_eq_ok, pure_eq_ok]
      simp only [failIf_eq_ok, not_not]
      exact and_congr_right fun _ => eq_comm

/-- Outside the bypass path, the decorator only sets the required prices on the context. -/
theorem feeDecorator_of_not_bypass (h : containsOnlyBypassMinFeeMsgs ps tx.msgs = false) :
    feeDecorator ps bondDenom ctx tx false = .ok ctx' ↔
      ∃ feeRequired, getTxFeeRequired ps bondDenom ctx = .ok feeRequired ∧
        ctx' = { ctx with minGasPrices := feeRequired } := by
  simp only [feeDecorator, Bool.false_eq_true, if_false, h, bind_eq_ok, pure_eq_ok]
  exact exists_congr fun _ => and_congr_right fun _ => eq_comm

theorem deductFeeDecorator_eq_ok :
    deductFeeDecorator env ctx tx simulate = .ok () ↔
      ¬(simulate = false ∧ ctx.blockHeight > 0 ∧ tx.gas = 0) ∧
        (simulate = false → checkTxFeeWithValidatorMinGasPrices ctx tx = .ok ()) ∧
        env.canPay tx.fee = true := by
  cases simulate <;> simp [deductFeeDecorator, bind_const_eq_ok, failIf_eq_ok]

theorem anteHandler_eq_ok :
    anteHandler env ps ctx tx simulate = .ok ctx' ↔
      env.setUp tx = true ∧ feeDecorator ps env.bondDenom ctx tx simulate = .ok ctx' ∧
        env.validate tx = true ∧ deductFeeDecorator env ctx' tx simulate = .ok () ∧
        env.verify tx = true := by
  simp only [anteHandler, bind_eq_ok, exists_unit, failIf_eq_ok, Bool.not_eq_false,
    pure_eq_ok]
  constructor
  · rintro ⟨hset, c, hfee, hval, hded, hver, rfl⟩
    exact ⟨hset, hfee, hval, hded, hver⟩
  · rintro ⟨hset, hfee, hval, hded, hver⟩
    exact ⟨hset, ctx', hfee, hval, hded, hver, rfl⟩

/-- What the default checker establishes in CheckTx: the prices are all zero, or some coin of the
fee reaches the non-zero fee of the gas limit at its denomination's price. -/
theorem checkTxFee_covers (h : checkTxFeeWithValidatorMinGasPrices ctx tx = .ok ())
    (hcheck : ctx.isCheckTx = true) :
    isZero ctx.minGasPrices = true ∨
      ∃ c ∈ tx.fee, 0 < requiredFee (amountOf ctx.minGasPrices c.1) tx.gas.toNat ∧
        requiredFee (amountOf ctx.minGasPrices c.1) tx.gas.toNat ≤ c.2 := by
  unfold checkTxFeeWithValidatorMinGasPrices at h
  rw [hcheck, Bool.true_and] at h
  by_cases hzero : isZero ctx.minGasPrices = true
  · exact .inl hzero
  · right
    rw [if_pos (by simpa using hzero)] at h
    split at h
    · cases h
    · -- The required coins are the prices' denominations, each at the fee of the gas limit.
      rw [failIf_eq_ok, Bool.not_eq_false] at h
      obtain ⟨c, hc, hle, hne⟩ := isAnyGTE_eq_true h
      rw [amountOf_map _ (fun p => requiredFee p tx.gas.toNat) (by simp [requiredFee, decOne])]
        at hle hne
      exact ⟨c, hc, Nat.pos_of_ne_zero hne, hle⟩

/-- In DeliverTx the default checker accepts every fee. -/
theorem checkTxFee_of_deliverTx (h : ctx.isCheckTx = false) :
    checkTxFeeWithValidatorMinGasPrices ctx tx = .ok () := by
  simp [checkTxFeeWithValidatorMinGasPrices, h]

end Spec

/-! ## The fee a transaction pays -/

/-- A transaction outside the bypass path that passes the chain in CheckTx, not simulated, pays
in some denomination of its fee the fee of its gas limit at the larger of the node's and the
global price of that denomination, and that fee is not zero; unless every required price is
zero. -/
theorem checkTx_fee_covers {env : AnteEnv} {ps : ParamSource} {ctx ctx' : Ctx} {tx : FeeTx}
    (h : anteHandler env ps ctx tx false = .ok ctx') (hcheck : ctx.isCheckTx = true)
    (hmsg : ∃ m ∈ tx.msgs, m ∉ getBypassMsgTypes ps) :
    ∃ globalFees, getGlobalFee ps env.bondDenom = .ok globalFees ∧
      (isZero (maxCoins (getMinGasPrice ctx) globalFees) = true ∨
        ∃ c ∈ tx.fee,
          0 < requiredFee (max (amountOf (getMinGasPrice ctx) c.1) (amountOf globalFees c.1))
            tx.gas.toNat ∧
          requiredFee (max (amountOf (getMinGasPrice ctx) c.1) (amountOf globalFees c.1))
            tx.gas.toNat ≤ c.2) := by
  obtain ⟨-, hfee, -, hded, -⟩ := anteHandler_eq_ok.1 h
  obtain ⟨feeRequired, hreq, rfl⟩ :=
    (feeDecorator_of_not_bypass (containsOnlyBypassMinFeeMsgs_eq_false hmsg)).1 hfee
  obtain ⟨globalFees, hglobal, rfl⟩ := getTxFeeRequired_eq_ok.1 hreq
  rw [hcheck, if_pos rfl] at hded
  obtain ⟨-, hchecker, -⟩ := deductFeeDecorator_eq_ok.1 hded
  refine ⟨globalFees, hglobal, ?_⟩
  -- The checker reads the required prices, the per-denomination maxima.
  have hamount : ∀ d, amountOf (maxCoins (getMinGasPrice ctx) globalFees) d =
      max (amountOf (getMinGasPrice ctx) d) (amountOf globalFees d) := fun d => by
    rw [amountOf_maxCoins, getMinGasPrice_sort, getGlobalFee_sort hglobal]
  rcases checkTxFee_covers (hchecker rfl) rfl with hzero | ⟨c, hc, hpos, hle⟩
  · exact .inl hzero
  · rw [hamount] at hpos hle
    exact .inr ⟨c, hc, hpos, hle⟩

/-- In DeliverTx, a transaction outside the bypass path passes the chain exactly when the other
decorators accept it, the global fee can be read, its gas limit is positive after the first block
and its payer can pay its fee: no price is compared with the fee. -/
theorem deliverTx_anteHandler_ok_iff {env : AnteEnv} {ps : ParamSource} {ctx : Ctx} {tx : FeeTx}
    (hdeliver : ctx.isCheckTx = false) (hmsg : ∃ m ∈ tx.msgs, m ∉ getBypassMsgTypes ps) :
    (∃ ctx', anteHandler env ps ctx tx false = .ok ctx') ↔
      env.setUp tx = true ∧ (∃ globalFees, getGlobalFee ps env.bondDenom = .ok globalFees) ∧
        env.validate tx = true ∧ ¬(ctx.blockHeight > 0 ∧ tx.gas = 0) ∧
        env.canPay tx.fee = true ∧ env.verify tx = true := by
  have hbypass := containsOnlyBypassMinFeeMsgs_eq_false hmsg
  constructor
  · rintro ⟨ctx', h⟩
    obtain ⟨hset, hfee, hval, hded, hver⟩ := anteHandler_eq_ok.1 h
    obtain ⟨feeRequired, hreq, rfl⟩ := (feeDecorator_of_not_bypass hbypass).1 hfee
    obtain ⟨globalFees, hglobal, -⟩ := getTxFeeRequired_eq_ok.1 hreq
    obtain ⟨hgas, -, hpay⟩ := deductFeeDecorator_eq_ok.1 hded
    exact ⟨hset, ⟨globalFees, hglobal⟩, hval, by simpa using hgas, hpay, hver⟩
  · rintro ⟨hset, ⟨globalFees, hglobal⟩, hval, hgas, hpay, hver⟩
    -- The decorator sets the global fees, which the checker does not read in DeliverTx.
    refine ⟨{ ctx with minGasPrices := globalFees }, anteHandler_eq_ok.2
      ⟨hset, (feeDecorator_of_not_bypass hbypass).2 ⟨globalFees, ?_, rfl⟩, hval,
        deductFeeDecorator_eq_ok.2 ⟨by simpa using hgas, fun _ => checkTxFee_of_deliverTx hdeliver,
          hpay⟩, hver⟩⟩
    exact getTxFeeRequired_eq_ok.2
      ⟨globalFees, hglobal, by rw [hdeliver, if_neg Bool.false_ne_true]⟩

/-- The staking denomination of the chain. -/
def uxion : Denom := ofAscii "uxion"

/-- The type URL of the bank module's `MsgSend`, not a bypass type. -/
def bankMsgSendTypeURL : Bytes := ofAscii "/cosmos.bank.v1beta1.MsgSend"

/-- A global minimum gas price of `0.025uxion`, with the xion module's `MsgSend` as the bypass
type. -/
def testParams : ParamSource :=
  ⟨some [(uxion, 25 * 10 ^ 15)], some [ofAscii "/xion.v1.MsgSend"], some 1000000⟩

/-- Decorators that accept the transaction, and a payer that can pay its fee. -/
def acceptingEnv : AnteEnv := ⟨uxion, fun _ => true, fun _ => true, fun _ => true, fun _ => true⟩

/-- The fee that a transaction with a message outside the bypass list must carry to pass the
chain, by mode. In CheckTx it pays, in some denomination of its fee, its gas at the larger of the
node's and the global price, unless every such price is zero. In DeliverTx the chain accepts it
exactly when the other decorators do, the global fees can be read, the gas limit is positive after
the first block and the payer can pay the fee, whatever that fee is. -/
theorem fee_required_by_mode {env : AnteEnv} {ps : ParamSource} {ctx : Ctx} {tx : FeeTx}
    (hmsg : ∃ m ∈ tx.msgs, m ∉ getBypassMsgTypes ps) :
    (ctx.isCheckTx = true → ∀ ctx', anteHandler env ps ctx tx false = .ok ctx' →
      ∃ globalFees, getGlobalFee ps env.bondDenom = .ok globalFees ∧
        (isZero (maxCoins (getMinGasPrice ctx) globalFees) = true ∨
          ∃ c ∈ tx.fee,
            0 < requiredFee (max (amountOf (getMinGasPrice ctx) c.1) (amountOf globalFees c.1))
              tx.gas.toNat ∧
            requiredFee (max (amountOf (getMinGasPrice ctx) c.1) (amountOf globalFees c.1))
              tx.gas.toNat ≤ c.2)) ∧
    (ctx.isCheckTx = false →
      ((∃ ctx', anteHandler env ps ctx tx false = .ok ctx') ↔
        env.setUp tx = true ∧ (∃ globalFees, getGlobalFee ps env.bondDenom = .ok globalFees) ∧
          env.validate tx = true ∧ ¬(ctx.blockHeight > 0 ∧ tx.gas = 0) ∧
          env.canPay tx.fee = true ∧ env.verify tx = true)) :=
  ⟨fun hcheck _ h => checkTx_fee_covers h hcheck hmsg,
    fun hdeliver => deliverTx_anteHandler_ok_iff hdeliver hmsg⟩

/-- A bank send with a gas limit of 200000 and a fee of 5000uxion, in CheckTx. -/
theorem fee_required_by_mode_bank_send :
    (true = true → ∀ ctx', anteHandler acceptingEnv testParams ⟨true, [], 1⟩
        ⟨[bankMsgSendTypeURL], 200000, [(uxion, 5000)]⟩ false = .ok ctx' →
      ∃ globalFees, getGlobalFee testParams acceptingEnv.bondDenom = .ok globalFees ∧
        (isZero (maxCoins (getMinGasPrice ⟨true, [], 1⟩) globalFees) = true ∨
          ∃ c ∈ [(uxion, 5000)],
            0 < requiredFee (max (amountOf (getMinGasPrice ⟨true, [], 1⟩) c.1)
              (amountOf globalFees c.1)) (200000 : UInt64).toNat ∧
            requiredFee (max (amountOf (getMinGasPrice ⟨true, [], 1⟩) c.1)
              (amountOf globalFees c.1)) (200000 : UInt64).toNat ≤ c.2)) ∧
    (true = false →
      ((∃ ctx', anteHandler acceptingEnv testParams ⟨true, [], 1⟩
          ⟨[bankMsgSendTypeURL], 200000, [(uxion, 5000)]⟩ false = .ok ctx') ↔
        acceptingEnv.setUp ⟨[bankMsgSendTypeURL], 200000, [(uxion, 5000)]⟩ = true ∧
          (∃ globalFees, getGlobalFee testParams acceptingEnv.bondDenom = .ok globalFees) ∧
          acceptingEnv.validate ⟨[bankMsgSendTypeURL], 200000, [(uxion, 5000)]⟩ = true ∧
          ¬((1 : ℕ) > 0 ∧ (200000 : UInt64) = 0) ∧
          acceptingEnv.canPay [(uxion, 5000)] = true ∧
          acceptingEnv.verify ⟨[bankMsgSendTypeURL], 200000, [(uxion, 5000)]⟩ = true)) :=
  @fee_required_by_mode acceptingEnv testParams ⟨true, [], 1⟩
    ⟨[bankMsgSendTypeURL], 200000, [(uxion, 5000)]⟩
    ⟨bankMsgSendTypeURL, List.mem_singleton_self _, by decide⟩

/-- In DeliverTx a bank send with no fee passes the chain, where the global minimum gas price
requires 5000uxion for its gas limit. -/
theorem deliverTx_zero_fee_accepted :
    anteHandler acceptingEnv testParams ⟨false, [], 1⟩ ⟨[bankMsgSendTypeURL], 200000, []⟩ false =
        .ok ⟨false, [(uxion, 25 * 10 ^ 15)], 1⟩ ∧
      requiredFee (amountOf [(uxion, 25 * 10 ^ 15)] uxion) 200000 = 5000 := by
  decide

/-! ## The bypass path -/

/-- A transaction made only of bypass messages, not simulated, passes the decorator exactly when
its gas limit is within the bypass bound and its fee is zero, or the global fees are all zero, or
every denomination of the fee is a global fee's; the context passed on is the incoming one, with
the node's prices cleared exactly when the fee is zero and they are not. A transaction with a
message of another type is never judged this way: it gets the required prices. -/
theorem feeDecorator_bypass_gate (ps : ParamSource) (bondDenom : Denom) (ctx : Ctx) (tx : FeeTx) :
    ((∀ m ∈ tx.msgs, m ∈ getBypassMsgTypes ps) → ∀ ctx',
      feeDecorator ps bondDenom ctx tx false = .ok ctx' ↔
        tx.gas ≤ getMaxTotalBypassMinFeeMsgGasUsage ps ∧
          (isZero tx.fee = true ∨ ∃ globalFees, getGlobalFee ps bondDenom = .ok globalFees ∧
            (isZero globalFees = true ∨ ∀ c ∈ tx.fee, c.1 ∈ globalFees.map Prod.fst)) ∧
          ctx' = if isZero tx.fee = true ∧ isZero ctx.minGasPrices = false then
            { ctx with minGasPrices := [] } else ctx) ∧
    ((∃ m ∈ tx.msgs, m ∉ getBypassMsgTypes ps) → ∀ ctx',
      feeDecorator ps bondDenom ctx tx false = .ok ctx' ↔
        ∃ feeRequired, getTxFeeRequired ps bondDenom ctx = .ok feeRequired ∧
          ctx' = { ctx with minGasPrices := feeRequired }) := by
  constructor
  · intro hall ctx'
    rw [feeDecorator, if_neg Bool.false_ne_true, if_pos (containsOnlyBypassMinFeeMsgs_eq_true hall)]
    exact checkBypassFee_eq_ok
  · intro hmsg ctx'
    exact feeDecorator_of_not_bypass (containsOnlyBypassMinFeeMsgs_eq_false hmsg)

/-- The xion module's send, a bypass type of `testParams`. -/
def xionMsgSendTypeURL : Bytes := ofAscii "/xion.v1.MsgSend"

/-- A bypass send with no fee passes in CheckTx with the node's price cleared; a bank send in
DeliverTx gets the global price. -/
theorem bypass_gate_sends :
    ((∀ m ∈ [xionMsgSendTypeURL], m ∈ getBypassMsgTypes testParams) ∧
      feeDecorator testParams uxion ⟨true, [(uxion, 1)], 1⟩ ⟨[xionMsgSendTypeURL], 100000, []⟩
        false = .ok ⟨true, [], 1⟩) ∧
    ((∃ m ∈ [bankMsgSendTypeURL], m ∉ getBypassMsgTypes testParams) ∧
      feeDecorator testParams uxion ⟨false, [(uxion, 1)], 1⟩ ⟨[bankMsgSendTypeURL], 100000, []⟩
        false = .ok ⟨false, [(uxion, 25 * 10 ^ 15)], 1⟩) := by
  have hall : ∀ m ∈ [xionMsgSendTypeURL], m ∈ getBypassMsgTypes testParams := by decide
  have hmsg : ∃ m ∈ [bankMsgSendTypeURL], m ∉ getBypassMsgTypes testParams :=
    ⟨_, List.mem_singleton_self _, by decide⟩
  refine ⟨⟨hall, ?_⟩, ⟨hmsg, ?_⟩⟩
  · exact ((feeDecorator_bypass_gate _ _ _ _).1 hall _).2 ⟨by decide, .inl rfl, by decide⟩
  · exact ((feeDecorator_bypass_gate _ _ _ _).2 hmsg _).2
      ⟨[(uxion, 25 * 10 ^ 15)], by decide, rfl⟩

/-! ## The required prices in CheckTx -/

/-- `MaxCoins` of two price lists with distinct denominations, in any order, lists each of their
denominations once, in order, at the larger of its two prices, whichever list comes first; so the
prices `GetTxFeeRequired` requires in CheckTx reach, in every denomination, both the node's and
the global price. -/
theorem maxCoins_pointwise_max (a b : DecCoins) (ha : (a.map Prod.fst).Nodup)
    (hb : (b.map Prod.fst).Nodup) :
    (maxCoins a b).Pairwise (fun x y => x.1 < y.1) ∧
      (∀ d, d ∈ (maxCoins a b).map Prod.fst ↔ d ∈ a.map Prod.fst ∨ d ∈ b.map Prod.fst) ∧
      (∀ d, amountOf (maxCoins a b) d =
        max ((SortedMap.lookup d a).getD 0) ((SortedMap.lookup d b).getD 0)) ∧
      maxCoins a b = maxCoins b a ∧
      ∀ (ps : ParamSource) (bondDenom : Denom) (ctx : Ctx) (feeRequired : DecCoins),
        ctx.isCheckTx = true → ctx.minGasPrices = a → getGlobalFee ps bondDenom = .ok b →
        getTxFeeRequired ps bondDenom ctx = .ok feeRequired →
        ∀ d, (SortedMap.lookup d a).getD 0 ≤ amountOf feeRequired d ∧
          (SortedMap.lookup d b).getD 0 ≤ amountOf feeRequired d := by
  refine ⟨maxCoins_strict a b, mem_keys_maxCoins a b, fun d => ?_, maxCoins_comm a b, ?_⟩
  · rw [amountOf_maxCoins, amountOf_sort ha, amountOf_sort hb]
  · intro ps bondDenom ctx feeRequired hcheck hprices hglobal hreq d
    obtain ⟨globalFees, hglobal', rfl⟩ := getTxFeeRequired_eq_ok.1 hreq
    obtain rfl : globalFees = b := Except.ok.inj (hglobal'.symm.trans hglobal)
    subst hprices
    -- The requirement is the maximum of the node's prices, as read, and the global fees.
    rw [hcheck, if_pos rfl, amountOf_maxCoins, getMinGasPrice_sort, amountOf_getMinGasPrice ha,
      amountOf_sort hb]
    exact ⟨le_max_left _ _, le_max_right _ _⟩

/-- A node price of `3uxion` and a global price of `25uxion` meet the hypotheses, and the required
price is the global one. -/
theorem maxCoins_uxion_prices :
    ([(uxion, 3)].map Prod.fst).Nodup ∧ ([(uxion, 25)].map Prod.fst).Nodup ∧
      amountOf (maxCoins [(uxion, 3)] [(uxion, 25)]) uxion = 25 := by
  have ha : ([(uxion, 3)].map Prod.fst).Nodup := List.nodup_singleton _
  have hb : ([(uxion, 25)].map Prod.fst).Nodup := List.nodup_singleton _
  refine ⟨ha, hb, ?_⟩
  rw [(maxCoins_pointwise_max _ _ ha hb).2.2.1 uxion]
  decide

end Xion.GlobalFee
