import Xion.Module.MsgServer

/-!
# The outputs of `MultiSend`

Under a platform fee, `MultiSend` rewrites each output to what is left of its coins after the fee
(`afterFee`), at the canonical text of its address, and adds one output for the fee collector
with the sum of the fees when it is not zero. The rewritten outputs carry, of each denomination,
what the original ones did: the fees leave the outputs for the fee collector's
(`multiSendOutputs_spec`).

An output of the rewritten list passes the bank's check exactly when something is left of its
coins, so the bank accepts the rewritten list of a message it accepted exactly when no output
is consumed entirely by its fees: when some coin of each output is more than its fee. A single
coin of one unit under any positive percentage pays a fee of one unit and is consumed.
-/

namespace Xion.Module

open Bytes Run KeyedList Sdk

theorem liftSdk_ok {α : Type} {x : Except SdkError α} {b : α} (h : x = .ok b) :
    liftSdk x = .ok b := by
  rw [h]
  rfl

/-- `AccAddressFromBech32` reads the canonical text of an address back as that address. -/
def XionEnv.CanonicalText (env : XionEnv) : Prop :=
  ∀ x c, env.accAddress x = some c → env.accAddress c = some c

/-- An output as `MultiSend` rewrites it under a platform fee: the canonical text of its address,
and what is left of its coins after the fee. -/
def rewrittenOutput (env : XionEnv) (percentage : ℤ) (o : Output) : Output :=
  ⟨(env.accAddress o.address).getD o.address, afterFee percentage o.coins⟩

/-- The platform's fees of the outputs, in one denomination. -/
def outputsFee (percentage : ℤ) (outs : List Output) (d : Denom) : ℤ :=
  (outs.map fun o => ceilFee percentage (total o.coins d)).sum

@[simp]
theorem outputsFee_nil (percentage : ℤ) (d : Denom) : outputsFee percentage [] d = 0 := rfl

@[simp]
theorem outputsFee_cons (percentage : ℤ) (o : Output) (outs : List Output) (d : Denom) :
    outputsFee percentage (o :: outs) d = ceilFee percentage (total o.coins d) +
      outputsFee percentage outs d := rfl

/-- An output that `MultiSend` can pass on: it passes the bank's check, holds amounts of
`math.Int`, and its address is not blocked. -/
structure Sendable (env : XionEnv) (o : Output) : Prop where
  valid : o.validateBasic env.accAddress = .ok ()
  bounded : Bounded o.coins
  unblocked : ∀ a, env.accAddress o.address = some a → env.bank.blockedAddr a = false

section Sendable

variable {env : XionEnv} {percentage : ℤ} {o : Output}

theorem Sendable.address (h : Sendable env o) : ∃ a, env.accAddress o.address = some a :=
  Option.isSome_iff_exists.1 (validateAddressCoins_eq_ok.1 h.valid).1

theorem Sendable.isValid (h : Sendable env o) : isValid o.coins = true :=
  isValid_eq_true_iff.2
    ⟨(validateAddressCoins_eq_ok.1 h.valid).2.1, (validateAddressCoins_eq_ok.1 h.valid).2.2.2⟩

theorem Sendable.fee_nonneg (h : Sendable env o) (hp : 0 ≤ percentage) (d : Denom) :
    0 ≤ ceilFee percentage (total o.coins d) :=
  ceilFee_nonneg (total_nonneg (isValid_eq_true_iff.1 h.isValid).2 d) hp

theorem outputsFee_nonneg {outs : List Output} (hs : ∀ o ∈ outs, Sendable env o)
    (hp : 0 ≤ percentage) (d : Denom) : 0 ≤ outputsFee percentage outs d :=
  List.sum_nonneg fun x hx => by
    obtain ⟨o, ho, rfl⟩ := List.mem_map.1 hx
    exact (hs o ho).fee_nonneg hp d

/-- The fees of the outputs are no more than what they carry. -/
theorem outputsFee_le {outs : List Output} (hs : ∀ o ∈ outs, Sendable env o)
    (hp' : percentage ≤ 10000) (d : Denom) : outputsFee percentage outs d ≤ outputsTotal outs d :=
  List.sum_le_sum fun o ho =>
    ceilFee_le (total_nonneg (isValid_eq_true_iff.1 (hs o ho).isValid).2 d) hp'

/-- A rewritten output passes the bank's check exactly when something is left of its coins. -/
theorem validateBasic_rewrittenOutput (hcanon : env.CanonicalText) (h : Sendable env o)
    (hp : 0 ≤ percentage) (hp' : percentage ≤ 10000) :
    (rewrittenOutput env percentage o).validateBasic env.accAddress = .ok () ↔
      ∃ c ∈ o.coins, ceilFee percentage c.2 < c.2 := by
  obtain ⟨a, ha⟩ := h.address
  obtain ⟨hs, hpos⟩ := isValid_eq_true_iff.1 h.isValid
  rw [← afterFee_ne_nil_iff hpos hp', Output.validateBasic, validateAddressCoins_eq_ok,
    rewrittenOutput, ha, Option.getD_some, hcanon _ _ ha]
  simp only [Option.isSome_some, true_and, strict_afterFee hs, positive_afterFee hpos hp hp',
    and_true]

end Sendable

/-! ## The loop over the outputs -/

section Rewrite

variable {env : XionEnv} {percentage : ℤ}

/-- Without a platform fee, an output passes through unchanged. -/
theorem rewriteOutput_zero {o : Output} (h : Sendable env o) (acc : List Output × Coins) :
    rewriteOutput env 0 acc o = .ok (acc.1 ++ [o], acc.2) := by
  obtain ⟨a, ha⟩ := h.address
  rw [rewriteOutput, ha, ofOption_some, bind_of_ok rfl, h.unblocked a ha,
    bind_of_ok (failIf_eq_ok.2 (by decide)), if_neg (not_not.2 rfl)]
  rfl

/-- Under a platform fee, an output is rewritten to what is left after its fee, and its fee is
added to the total, which stays normal. -/
theorem rewriteOutput_eq_ok (hp : 0 < percentage) (hp' : percentage ≤ 10000) {o : Output}
    (h : Sendable env o) (done : List Output) {tot : Coins} (htot : Normal tot)
    (hnonneg : ∀ d, 0 ≤ total tot d)
    (hfit : ∀ d, total tot d + ceilFee percentage (total o.coins d) < 2 ^ maxBitLen) :
    ∃ tot', rewriteOutput env percentage (done, tot) o =
        .ok (done ++ [rewrittenOutput env percentage o], tot') ∧ Normal tot' ∧
      ∀ d, total tot' d = total tot d + ceilFee percentage (total o.coins d) := by
  obtain ⟨a, ha⟩ := h.address
  obtain ⟨pc, hpc, hpcn, hpct⟩ := getPlatformCoins_spec h.isValid h.bounded hp hp'
  have hsub := safeSub_getPlatformCoins_eq h.isValid h.bounded hp hp' hpc
  -- The fees so far and this output's fee are nonnegative and below the bound.
  have hadd : ∀ d, (total tot d + total pc d).natAbs < 2 ^ maxBitLen := fun d => by
    rw [hpct]
    exact natAbs_lt_of_nonneg (add_nonneg (hnonneg d) (h.fee_nonneg (le_of_lt hp) d)) (hfit d)
  obtain ⟨tot', ht', htn, htt⟩ := safeAdd_spec htot.strict hpcn.strict htot.bounded hpcn.bounded hadd
  refine ⟨tot', ?_, htn, fun d => by rw [htt, hpct]⟩
  rw [rewriteOutput, ha, ofOption_some, bind_of_ok rfl, h.unblocked a ha,
    bind_of_ok (failIf_eq_ok.2 (by decide)), if_pos (ne_of_gt hp), bind_of_ok (liftSdk_ok hpc),
    bind_of_ok (liftSdk_ok hsub)]
  -- `SafeSub` reported no negative amount; the pattern on its result reduces.
  dsimp only
  rw [bind_of_ok (failIf_eq_ok.2 (by decide)), bind_of_ok (liftSdk_ok ht'), rewrittenOutput, ha]
  rfl

/-- Without a platform fee, the loop passes every output on unchanged. -/
theorem foldRewrite_zero : ∀ {outs done : List Output} {tot : Coins},
    (∀ o ∈ outs, Sendable env o) →
    outs.foldlM (rewriteOutput env 0) (done, tot) = .ok (done ++ outs, tot)
  | [], done, tot, _ => by simp
  | o :: os, done, tot, hs => by
    rw [List.foldlM_cons, rewriteOutput_zero (hs o List.mem_cons_self), bind_of_ok rfl,
      foldRewrite_zero fun o' h => hs o' (List.mem_cons_of_mem o h), List.append_assoc,
      List.singleton_append]

/-- Under a platform fee, the loop rewrites every output and adds up their fees, from a normal
total of fees whose sum with the outputs' fees fits. -/
theorem foldRewrite_eq_ok (hp : 0 < percentage) (hp' : percentage ≤ 10000) :
    ∀ {outs : List Output} (done : List Output) {tot : Coins}, (∀ o ∈ outs, Sendable env o) →
      Normal tot → (∀ d, 0 ≤ total tot d) →
      (∀ d, total tot d + outputsFee percentage outs d < 2 ^ maxBitLen) →
      ∃ tot', outs.foldlM (rewriteOutput env percentage) (done, tot) =
          .ok (done ++ outs.map (rewrittenOutput env percentage), tot') ∧ Normal tot' ∧
        ∀ d, total tot' d = total tot d + outputsFee percentage outs d
  | [], done, tot, _, htot, _, _ => ⟨tot, by simp, htot, fun d => by simp⟩
  | o :: os, done, tot, hs, htot, hnonneg, hfit => by
    have ho := hs o List.mem_cons_self
    have hos : ∀ o' ∈ os, Sendable env o' := fun o' h => hs o' (List.mem_cons_of_mem o h)
    have hrest := outputsFee_nonneg hos (le_of_lt hp)
    obtain ⟨t, ht, htn, htt⟩ := rewriteOutput_eq_ok hp hp' ho done htot hnonneg
      fun d => by
        have := hfit d
        have := hrest d
        rw [outputsFee_cons] at *
        omega
    obtain ⟨r, hr, hrn, hrt⟩ := foldRewrite_eq_ok hp hp' _ hos htn
      (fun d => by rw [htt]; exact add_nonneg (hnonneg d) (ho.fee_nonneg (le_of_lt hp) d))
      (fun d => by rw [htt, add_assoc, ← outputsFee_cons]; exact hfit d)
    refine ⟨r, ?_, hrn, fun d => by rw [hrt, htt, outputsFee_cons, add_assoc]⟩
    rw [List.foldlM_cons, ht, bind_of_ok rfl, hr, List.map_cons, List.append_assoc,
      List.singleton_append]

/-- What the rewritten outputs carry: what the outputs did, less their fees. -/
theorem outputsTotal_map_rewritten {outs : List Output} (hs : ∀ o ∈ outs, Sendable env o)
    (d : Denom) :
    outputsTotal (outs.map (rewrittenOutput env percentage)) d =
      outputsTotal outs d - outputsFee percentage outs d := by
  induction outs with
  | nil => simp
  | cons o os ih =>
    have hstrict := (isValid_eq_true_iff.1 (hs o List.mem_cons_self).isValid).1
    rw [List.map_cons, outputsTotal_cons, outputsTotal_cons, outputsFee_cons,
      ih fun o' h => hs o' (List.mem_cons_of_mem o h), rewrittenOutput, total_afterFee hstrict]
    omega

end Rewrite

/-! ## The outputs handed to the bank -/

section Outputs

variable {env : XionEnv} {percentage : ℤ} {outs : List Output}

/-- The rewritten outputs pass the bank's check exactly when something is left of every
output. -/
theorem validateBasic_map_rewritten (hcanon : env.CanonicalText)
    (hs : ∀ o ∈ outs, Sendable env o) (hp : 0 ≤ percentage) (hp' : percentage ≤ 10000) :
    (∀ o ∈ outs.map (rewrittenOutput env percentage), o.validateBasic env.accAddress = .ok ()) ↔
      ∀ o ∈ outs, ∃ c ∈ o.coins, ceilFee percentage c.2 < c.2 := by
  rw [List.forall_mem_map]
  exact forall₂_congr fun o ho => validateBasic_rewrittenOutput hcanon (hs o ho) hp hp'

theorem bounded_rewrittenOutput {o : Output} (h : Sendable env o) (hp : 0 ≤ percentage)
    (hp' : percentage ≤ 10000) : Bounded (rewrittenOutput env percentage o).coins :=
  (normal_afterFee h.isValid h.bounded hp hp').bounded

/-- The outputs that `MultiSend` hands to the bank, from outputs it can pass on whose fees fit:
they carry what the outputs did, they pass the bank's check exactly when something is left of
every output, they hold amounts of `math.Int`, and there are some when there were. -/
theorem multiSendOutputs_spec (hcanon : env.CanonicalText) {fc : Bytes}
    (hfc : env.modules.address feeCollectorName = some fc) (hfcc : env.accAddress fc = some fc)
    (hs : ∀ o ∈ outs, Sendable env o) (hp : 0 ≤ percentage) (hp' : percentage ≤ 10000)
    (hfit : ∀ d, outputsFee percentage outs d < 2 ^ maxBitLen) :
    ∃ outputs, multiSendOutputs env percentage outs = .ok outputs ∧
      (∀ d, outputsTotal outputs d = outputsTotal outs d) ∧
      ((∀ o ∈ outputs, o.validateBasic env.accAddress = .ok ()) ↔
        ∀ o ∈ outs, ∃ c ∈ o.coins, ceilFee percentage c.2 < c.2) ∧
      (∀ o ∈ outputs, Bounded o.coins) ∧ (outs ≠ [] → outputs ≠ []) := by
  rcases eq_or_lt_of_le hp with rfl | hpos
  · -- Without a fee the outputs pass through; each keeps its first coin, whose fee is zero.
    refine ⟨outs, ?_, fun d => rfl, ⟨fun _ o ho => ?_, fun _ o ho => (hs o ho).valid⟩,
      fun o ho => (hs o ho).bounded, id⟩
    · rw [multiSendOutputs, rewriteOutputs, foldRewrite_zero hs, bind_of_ok rfl]
      rfl
    · obtain ⟨-, -, hne, hposc⟩ := validateAddressCoins_eq_ok.1 (hs o ho).valid
      obtain ⟨c, hc⟩ := List.exists_mem_of_ne_nil _ hne
      exact ⟨c, hc, by simpa [ceilFee] using hposc c hc⟩
  · obtain ⟨tot, hfold, htn, htt⟩ := foldRewrite_eq_ok hpos hp' [] hs normal_nil
      (fun d => le_refl _) (fun d => by simpa using hfit d)
    have hmapped : ∀ d, outputsTotal (outs.map (rewrittenOutput env percentage)) d =
        outputsTotal outs d - outputsFee percentage outs d :=
      outputsTotal_map_rewritten hs
    have hbmapped : ∀ o ∈ outs.map (rewrittenOutput env percentage), Bounded o.coins := by
      rw [List.forall_mem_map]
      exact fun o ho => bounded_rewrittenOutput (hs o ho) hp hp'
    have hrw : rewriteOutputs env percentage outs =
        .ok (outs.map (rewrittenOutput env percentage), tot) := by
      rw [rewriteOutputs, hfold, List.nil_append]
    by_cases hz : isZero tot = true
    · -- No fee at all: the rewritten outputs alone, which lost nothing.
      have hfee0 : ∀ d, outputsFee percentage outs d = 0 := fun d => by
        have := htt d
        rw [(isZero_eq_true_iff htn).1 hz, total_nil, zero_add] at this
        exact this.symm
      refine ⟨outs.map (rewrittenOutput env percentage), ?_, fun d => ?_,
        validateBasic_map_rewritten hcanon hs hp hp', hbmapped, fun hne => by simpa using hne⟩
      · rw [multiSendOutputs, hrw, bind_of_ok rfl]
        dsimp only
        rw [if_neg (by rw [hz]; decide)]
        rfl
      · rw [hmapped, hfee0, sub_zero]
    · -- The fees go to the fee collector, whose output passes the bank's check.
      have hne : tot ≠ [] := fun h => hz (by rw [h]; rfl)
      have hfcv : (⟨fc, tot⟩ : Output).validateBasic env.accAddress = .ok () := by
        rw [Output.validateBasic, validateAddressCoins_eq_ok, hfcc]
        refine ⟨rfl, htn.strict, hne, htn.positive fun d => ?_⟩
        rw [htt, total_nil, zero_add]
        exact outputsFee_nonneg hs hp d
      refine ⟨outs.map (rewrittenOutput env percentage) ++ [⟨fc, tot⟩], ?_, fun d => ?_, ?_,
        ?_, fun _ => by simp⟩
      · rw [multiSendOutputs, hrw, bind_of_ok rfl]
        dsimp only
        rw [if_pos (Bool.eq_false_iff.2 hz), hfc, ofOption_some, bind_of_ok rfl]
        rfl
      · rw [outputsTotal_append, hmapped, outputsTotal_cons, outputsTotal_nil, add_zero, htt,
          total_nil, zero_add, sub_add_cancel]
      · rw [List.forall_mem_append, List.forall_mem_singleton,
          validateBasic_map_rewritten hcanon hs hp hp', and_iff_left hfcv]
      · rw [List.forall_mem_append, List.forall_mem_singleton]
        exact ⟨hbmapped, htn.bounded⟩

end Outputs

/-! ## What the bank accepts -/

/-- `MultiSend` under any percentage up to `10000`, on a message that `ValidateBasic` accepts:
the outputs handed to the bank carry, of each denomination, what the message's outputs do, and
the bank's check accepts them exactly when some coin of each output is more than its fee. -/
theorem multiSendOutputs_accepted_iff {env : XionEnv} (hcanon : env.CanonicalText) {fc : Bytes}
    (hfc : env.modules.address feeCollectorName = some fc) (hfcc : env.accAddress fc = some fc)
    {msg : MsgMultiSend} {input : Input} (hin : msg.inputs = [input])
    (hvb : msg.validateBasic env.accAddress = .ok ())
    (hbin : Bounded input.coins) (hbout : ∀ o ∈ msg.outputs, Bounded o.coins)
    (hblocked : ∀ o ∈ msg.outputs, ∀ a, env.accAddress o.address = some a →
      env.bank.blockedAddr a = false)
    {percentage : ℤ} (hp : 0 ≤ percentage) (hp' : percentage ≤ 10000) :
    ∃ outputs, multiSendOutputs env percentage msg.outputs = .ok outputs ∧
      (∀ d, outputsTotal outputs d = outputsTotal msg.outputs d) ∧
      (validateInputOutputs env.accAddress input outputs = .ok () ↔
        ∀ o ∈ msg.outputs, ∃ c ∈ o.coins, ceilFee percentage c.2 < c.2) := by
  -- `ValidateBasic` ran the bank's check on the message's own outputs.
  have hvio : validateInputOutputs env.accAddress input msg.outputs = .ok () := by
    rw [MsgMultiSend.validateBasic, hin, bind_const_eq_ok, bind_const_eq_ok, bind_const_eq_ok,
      List.head?_cons, ofOption_some, bind_of_ok rfl, liftSdk, mapError_eq_ok] at hvb
    exact hvb.2.2.2
  obtain ⟨hinv, hne, hv, heq⟩ := validateInputOutputs_of_eq_ok hbin hbout hvio
  have hs : ∀ o ∈ msg.outputs, Sendable env o := fun o ho => ⟨hv o ho, hbout o ho, hblocked o ho⟩
  have hinput := validateAddressCoins_eq_ok.1 hinv
  have hinn : Normal input.coins := Normal.of_positive hinput.2.1 hinput.2.2.2 hbin
  -- What the outputs carry is the input's, so it fits, and so do their fees.
  have hcarry : ∀ d, outputsTotal msg.outputs d < 2 ^ maxBitLen := fun d => by
    rw [← heq d]
    exact lt_of_natAbs_lt (hinn.natAbs_total_lt d)
  have hfit : ∀ d, outputsFee percentage msg.outputs d < 2 ^ maxBitLen := fun d =>
    lt_of_le_of_lt (outputsFee_le hs hp' d) (hcarry d)
  obtain ⟨outputs, hout, hcons, hvalid, hbounded, hnonempty⟩ :=
    multiSendOutputs_spec hcanon hfc hfcc hs hp hp' hfit
  refine ⟨outputs, hout, hcons, ⟨fun h => hvalid.1 (validateInputOutputs_of_eq_ok hbin hbounded h).2.2.1,
    fun h => ?_⟩⟩
  refine (validateInputOutputs_eq_ok hinv hbin (hnonempty hne) (hvalid.2 h) hbounded
    fun d => by rw [hcons]; exact hcarry d).2 fun d => ?_
  rw [hcons, heq]

/-- `alice` sends a hundred units of `uxion` to `bob`. -/
def hundredUnitMultiSend : MsgMultiSend :=
  ⟨[⟨ofAscii "alice", [(ofAscii "uxion", 100)]⟩], [⟨ofAscii "bob", [(ofAscii "uxion", 100)]⟩]⟩

theorem multiSend_hundred_units :
    ∃ outputs, multiSendOutputs plainEnv 100 hundredUnitMultiSend.outputs = .ok outputs ∧
      (∀ d, outputsTotal outputs d = outputsTotal hundredUnitMultiSend.outputs d) ∧
      (validateInputOutputs plainEnv.accAddress ⟨ofAscii "alice", [(ofAscii "uxion", 100)]⟩
          outputs = .ok () ↔
        ∀ o ∈ hundredUnitMultiSend.outputs, ∃ c ∈ o.coins, ceilFee 100 c.2 < c.2) :=
  multiSendOutputs_accepted_iff (fun _ _ h => by cases h; rfl)
    (show plainEnv.modules.address feeCollectorName = some (ofAscii "collector") by decide) rfl rfl
    (by decide) (by decide) (by decide) (fun _ _ _ _ => rfl) (by decide) (by decide)

/-- `alice` sends one unit of `uxion` to `bob`. -/
def oneUnitMultiSend : MsgMultiSend :=
  ⟨[⟨ofAscii "alice", [(ofAscii "uxion", 1)]⟩], [⟨ofAscii "bob", [(ofAscii "uxion", 1)]⟩]⟩

/-- The bank's check accepts the one-unit send, but under a fee of one percent its output is
consumed by the fee of one unit, and the bank's check rejects the rewritten outputs. `Send` of the
same unit under the same fee computes the fee of one unit and goes on with no coins left to send,
which the bank's `SendCoins` accepts. -/
theorem multiSend_one_unit_rejected :
    oneUnitMultiSend.validateBasic plainEnv.accAddress = .ok () ∧
      multiSendOutputs plainEnv 100 oneUnitMultiSend.outputs =
        .ok [⟨ofAscii "bob", []⟩, ⟨ofAscii "collector", [(ofAscii "uxion", 1)]⟩] ∧
      validateInputOutputs plainEnv.accAddress ⟨ofAscii "alice", [(ofAscii "uxion", 1)]⟩
        [⟨ofAscii "bob", []⟩, ⟨ofAscii "collector", [(ofAscii "uxion", 1)]⟩] = .error .invalidCoins ∧
      getPlatformCoins [(ofAscii "uxion", 1)] 100 = .ok [(ofAscii "uxion", 1)] ∧
      sub [(ofAscii "uxion", 1)] [(ofAscii "uxion", 1)] = .ok [] :=
  ⟨by decide, by decide, by decide, by decide, by decide⟩

end Xion.Module
