import Xion.Sdk.Coins

/-!
# The fee allowances of the xion module

`AuthzAllowance`, `ContractsAllowance` and `MultiAnyAllowance` of `x/xion/types/feegrant.go`: fee
allowances that wrap others. An `AuthzAllowance` pays only for authz `MsgExec`s of one grantee,
and hands its allowance the messages they carry; a `ContractsAllowance` pays only for executions of
the contracts it lists; a `MultiAnyAllowance` pays with the first of its allowances that accepts.

Each wrapper holds its allowances in `Any`s. The bytes of an `Any` are what the store keeps; its
cached value is the allowance `Accept` runs on, and changes in place. `SetAllowance` writes both,
so an allowance that failed, or that asks to be removed, keeps its old bytes.

`MultiAnyAllowance.Accept` charges the first allowance that accepts: its `Any` is replaced by one of
the updated allowance, or deleted when the allowance asks to be removed. The entries before it
failed and keep their bytes, whatever their failed `Accept` did to their cached values
(`FirstMatch`, `multiAnyAllowance_accept_first`). Over a whole tree of wrappers and the SDK's
allowances at its leaves, a successful `Accept` charges one leaf, reached through wrappers that
each allow the messages they see (`Charges`, `accept_charges_one_leaf`).

The gas the loops consume, `ValidateBasic`, `ExpiresAt` and the constructors are not modelled.
-/

namespace Xion.Module

open Bytes Sdk

/-! ## Messages and `Any` -/

/-- `sdk.Msg`, by what the allowances read of it: a wasm `MsgExecuteContract` by its contract, an
authz `MsgExec` by its grantee and its messages (`none` when `GetMessages` cannot unpack them), and
any other message by its type URL. -/
inductive Msg where
  | executeContract (contract : String)
  | exec (grantee : String) (msgs : Option (List Msg))
  | other (typeUrl : String)

/-- `codectypes.Any` holding a fee allowance: the serialized `Value`, and the cached value that
unpacking it gave (`none` when it was not unpacked). -/
structure Any (α : Type) where
  value : Bytes
  cachedValue : Option α

/-- `NewAnyWithValue`: the allowance's bytes, with the allowance as cached value. `encode` is the
proto marshalling. -/
def Any.newWithValue {α : Type} (encode : α → Bytes) (a : α) : Any α := ⟨encode a, some a⟩

/-- The errors of the allowances' `Accept`: those of the SDK's allowances, of type `ε`, and
`feegrant.ErrNoAllowance`, `feegrant.ErrMessageNotAllowed` and `ErrNoValidAllowances`. -/
inductive FeegrantError (ε : Type) where
  | allowance (e : ε)
  | noAllowance
  | messageNotAllowed
  | noValidAllowances
  deriving DecidableEq, Repr

/-! ## `MultiAnyAllowance.Accept` over any allowances -/

section MultiAny

variable {α ε : Type} (encode : α → Bytes)
  (allowanceAccept : α → Except (FeegrantError ε) Bool × α)

/-- The loop of `MultiAnyAllowance.Accept`, `.ok ()` when an allowance accepted.
`allowanceAccept` is the allowances' `Accept` on the fee and messages, with the allowance as it
leaves it. -/
def acceptFirst : List (Any α) → Except (FeegrantError ε) Unit × List (Any α)
  | [] => (.error .noValidAllowances, [])
  | e :: rest =>
    match e.cachedValue with
    | none => (.error .noAllowance, e :: rest)
    | some allowance =>
      match allowanceAccept allowance with
      | (.error _, allowance') =>
        -- The allowance errored: the next one is tried, and this one keeps its bytes.
        match acceptFirst rest with
        | (r, rest') => (r, { e with cachedValue := some allowance' } :: rest')
      | (.ok remove, allowance') =>
        (.ok (), if remove then rest else Any.newWithValue encode allowance' :: rest)

/-- `MultiAnyAllowance`. -/
structure MultiAnyAllowance (α : Type) where
  allowances : List (Any α)

/-- `MultiAnyAllowance.Accept`: the loop, then `remove` when no allowance is left. -/
def MultiAnyAllowance.accept (a : MultiAnyAllowance α) :
    Except (FeegrantError ε) Bool × MultiAnyAllowance α :=
  match acceptFirst encode allowanceAccept a.allowances with
  | (r, allowances) => (r.map fun _ => decide (allowances.length = 0), ⟨allowances⟩)

variable {encode allowanceAccept}

theorem acceptFirst_cons_none {e : Any α} {rest : List (Any α)} (h : e.cachedValue = none) :
    acceptFirst encode allowanceAccept (e :: rest) = (.error .noAllowance, e :: rest) := by
  simp [acceptFirst, h]

theorem acceptFirst_cons_error {e : Any α} {rest : List (Any α)} {x x' : α}
    {err : FeegrantError ε} (h : e.cachedValue = some x)
    (hx : allowanceAccept x = (.error err, x')) :
    acceptFirst encode allowanceAccept (e :: rest) =
      ((acceptFirst encode allowanceAccept rest).1,
        { e with cachedValue := some x' } :: (acceptFirst encode allowanceAccept rest).2) := by
  simp [acceptFirst, h, hx]

theorem acceptFirst_cons_ok {e : Any α} {rest : List (Any α)} {x x' : α} {remove : Bool}
    (h : e.cachedValue = some x) (hx : allowanceAccept x = (.ok remove, x')) :
    acceptFirst encode allowanceAccept (e :: rest) =
      (.ok (), if remove then rest else Any.newWithValue encode x' :: rest) := by
  simp [acceptFirst, h, hx]

/-- A successful loop stopped at the first allowance that accepted: every one before it failed
and keeps its bytes, it is replaced by its updated allowance or deleted, and the ones after it are
untouched. -/
theorem acceptFirst_eq_ok {es : List (Any α)}
    (h : (acceptFirst encode allowanceAccept es).1 = .ok ()) :
    ∃ pre e post x remove x' pre', es = pre ++ e :: post ∧ e.cachedValue = some x ∧
      allowanceAccept x = (.ok remove, x') ∧
      (∀ f ∈ pre, ∃ y err y', f.cachedValue = some y ∧
        allowanceAccept y = (.error err, y')) ∧
      pre'.map Any.value = pre.map Any.value ∧
      (acceptFirst encode allowanceAccept es).2 =
        pre' ++ if remove then post else Any.newWithValue encode x' :: post := by
  induction es with
  | nil => cases h
  | cons e rest ih =>
    cases hc : e.cachedValue with
    | none => rw [acceptFirst_cons_none hc] at h; cases h
    | some x =>
      rcases hx : allowanceAccept x with ⟨r, x'⟩
      cases r with
      | error err =>
        -- The entry failed: the accepting one is further on.
        rw [acceptFirst_cons_error hc hx] at h ⊢
        obtain ⟨pre, e₀, post, x₀, rm, x₀', pre', hes, he₀, hx₀, hpre, hval, hrest⟩ :=
          ih h
        refine ⟨e :: pre, e₀, post, x₀, rm, x₀', { e with cachedValue := some x' } :: pre',
          by rw [hes, List.cons_append], he₀, hx₀, fun f hf => ?_, by simp [hval],
          by rw [hrest]; rfl⟩
        rcases List.mem_cons.1 hf with rfl | hf
        · exact ⟨x, err, x', hc, hx⟩
        · exact hpre f hf
      | ok remove =>
        rw [acceptFirst_cons_ok hc hx]
        exact ⟨[], e, rest, x, remove, x', [], rfl, hc, hx, by simp, rfl, rfl⟩

/-- A failed loop leaves every entry's bytes as they were. -/
theorem acceptFirst_values_of_error {es : List (Any α)} {err : FeegrantError ε}
    (h : (acceptFirst encode allowanceAccept es).1 = .error err) :
    (acceptFirst encode allowanceAccept es).2.map Any.value = es.map Any.value := by
  induction es with
  | nil => rfl
  | cons e rest ih =>
    cases hc : e.cachedValue with
    | none => rw [acceptFirst_cons_none hc]
    | some x =>
      rcases hx : allowanceAccept x with ⟨r, x'⟩
      cases r with
      | error err' =>
        rw [acceptFirst_cons_error hc hx] at h ⊢
        simp [ih h]
      | ok remove => rw [acceptFirst_cons_ok hc hx] at h; cases h

/-- With every allowance unpacked, the loop succeeds when one of them accepts. -/
theorem acceptFirst_ok_of_accepts {es : List (Any α)}
    (hcached : ∀ e ∈ es, e.cachedValue.isSome)
    (h : ∃ e ∈ es, ∃ x remove x', e.cachedValue = some x ∧
      allowanceAccept x = (.ok remove, x')) :
    (acceptFirst encode allowanceAccept es).1 = .ok () := by
  induction es with
  | nil => simp at h
  | cons e rest ih =>
    obtain ⟨x, hc⟩ := Option.isSome_iff_exists.1 (hcached e List.mem_cons_self)
    rcases hx : allowanceAccept x with ⟨r, x'⟩
    cases r with
    | error err =>
      -- This allowance fails, so the one that accepts is further on.
      rw [acceptFirst_cons_error hc hx]
      refine ih (fun f hf => hcached f (List.mem_cons_of_mem _ hf)) ?_
      obtain ⟨f, hf, y, remove, y', hfy, hy⟩ := h
      rcases List.mem_cons.1 hf with rfl | hf
      · rw [hc, Option.some.injEq] at hfy
        subst hfy
        rw [hx] at hy
        cases hy
      · exact ⟨f, hf, y, remove, y', hfy, hy⟩
    | ok remove => rw [acceptFirst_cons_ok hc hx]

theorem MultiAnyAllowance.accept_allowances {a : MultiAnyAllowance α} :
    (a.accept encode allowanceAccept).2.allowances =
      (acceptFirst encode allowanceAccept a.allowances).2 :=
  rfl

/-- `MultiAnyAllowance.Accept` returns `remove` exactly when its loop succeeded and left no
allowance. -/
theorem MultiAnyAllowance.accept_eq_ok {a : MultiAnyAllowance α} {remove : Bool} :
    (a.accept encode allowanceAccept).1 = .ok remove ↔
      (acceptFirst encode allowanceAccept a.allowances).1 = .ok () ∧
        (remove = true ↔ (acceptFirst encode allowanceAccept a.allowances).2 = []) := by
  rcases hr : acceptFirst encode allowanceAccept a.allowances with ⟨r, allowances⟩
  simp only [MultiAnyAllowance.accept, hr]
  cases r with
  | error err => simp [Except.map]
  | ok u => cases remove <;> simp [Except.map]

theorem MultiAnyAllowance.accept_eq_error {a : MultiAnyAllowance α} {err : FeegrantError ε} :
    (a.accept encode allowanceAccept).1 = .error err ↔
      (acceptFirst encode allowanceAccept a.allowances).1 = .error err := by
  rcases hr : acceptFirst encode allowanceAccept a.allowances with ⟨r, allowances⟩
  simp only [MultiAnyAllowance.accept, hr]
  cases r <;> simp [Except.map]

/-- What `MultiAnyAllowance.Accept` does to allowances `es`, from its result `r` and the
allowances `es'` it leaves. -/
structure FirstMatch (encode : α → Bytes)
    (allowanceAccept : α → Except (FeegrantError ε) Bool × α)
    (es : List (Any α)) (r : Except (FeegrantError ε) Bool) (es' : List (Any α)) : Prop where
  /-- It succeeds exactly when some allowance accepts. -/
  ok_iff : (∃ remove, r = .ok remove) ↔
    ∃ e ∈ es, ∃ x remove x', e.cachedValue = some x ∧ allowanceAccept x = (.ok remove, x')
  /-- On success it charged the first allowance that accepts: the ones before it failed and keep
  their bytes in order, it is replaced by its updated allowance or deleted when it asks to be
  removed, the ones after it are as they were, and `remove` says that none is left. -/
  charged : ∀ remove, r = .ok remove →
    ∃ pre e post x rm x' pre', es = pre ++ e :: post ∧ e.cachedValue = some x ∧
      allowanceAccept x = (.ok rm, x') ∧
      (∀ f ∈ pre, ∃ y err y', f.cachedValue = some y ∧
        allowanceAccept y = (.error err, y')) ∧
      pre'.map Any.value = pre.map Any.value ∧
      es' = (pre' ++ if rm then post else Any.newWithValue encode x' :: post) ∧
      (remove = true ↔ es' = [])
  /-- On failure every allowance keeps its bytes. -/
  unchanged : ∀ err, r = .error err → es'.map Any.value = es.map Any.value

/-- `MultiAnyAllowance.Accept` of unpacked allowances charges the first one that accepts, and
fails, with every allowance's bytes as they were, when none does. -/
theorem multiAnyAllowance_accept_first (a : MultiAnyAllowance α)
    (hcached : ∀ e ∈ a.allowances, e.cachedValue.isSome) :
    FirstMatch encode allowanceAccept a.allowances (a.accept encode allowanceAccept).1
      (a.accept encode allowanceAccept).2.allowances := by
  rw [MultiAnyAllowance.accept_allowances]
  refine ⟨⟨?_, ?_⟩, ?_, ?_⟩
  · -- Success gives the allowance that accepted.
    rintro ⟨remove, h⟩
    obtain ⟨pre, e, post, x, rm, x', -, hes, he, hx, -⟩ :=
      acceptFirst_eq_ok (MultiAnyAllowance.accept_eq_ok.1 h).1
    exact ⟨e, by simp [hes], x, rm, x', he, hx⟩
  · -- An allowance that accepts makes the loop succeed, since none is missing.
    intro h
    exact ⟨_, MultiAnyAllowance.accept_eq_ok.2
      ⟨acceptFirst_ok_of_accepts hcached h, List.isEmpty_iff⟩⟩
  · intro remove h
    obtain ⟨hok, hremove⟩ := MultiAnyAllowance.accept_eq_ok.1 h
    obtain ⟨pre, e, post, x, rm, x', pre', hes, he, hx, hpre, hval, hrest⟩ :=
      acceptFirst_eq_ok hok
    exact ⟨pre, e, post, x, rm, x', pre', hes, he, hx, hpre, hval, hrest, hremove⟩
  · intro err h
    exact acceptFirst_values_of_error (MultiAnyAllowance.accept_eq_error.1 h)

end MultiAny

/-- Spend limits as allowances: a fee of `fee` is accepted from what is left, and the allowance
asks to be removed when nothing is left. -/
def spendLimitAccept (fee left : ℕ) : Except (FeegrantError Unit) Bool × ℕ :=
  if fee ≤ left then (.ok (decide (fee = left)), left - fee) else (.error (.allowance ()), left)

/-- One byte for a spend limit. -/
def spendLimitBytes (left : ℕ) : Bytes := [Fin.ofNat 256 left]

/-- Three spend limits, of which the first is too small for a fee of 3. -/
def spendLimits : MultiAnyAllowance ℕ :=
  ⟨[Any.newWithValue spendLimitBytes 1, Any.newWithValue spendLimitBytes 5,
    Any.newWithValue spendLimitBytes 9]⟩

theorem multiAnyAllowance_accept_first_limits :
    (∀ e ∈ spendLimits.allowances, e.cachedValue.isSome) ∧
      FirstMatch spendLimitBytes (spendLimitAccept 3) spendLimits.allowances
        (spendLimits.accept spendLimitBytes (spendLimitAccept 3)).1
        (spendLimits.accept spendLimitBytes (spendLimitAccept 3)).2.allowances :=
  ⟨by decide, multiAnyAllowance_accept_first spendLimits (by decide)⟩

/-! ## The wrappers' checks of the messages -/

/-- `AuthzAllowance.allMsgTypesAuthz`: the messages carried by `msgs`, in order, when every one is
an authz `MsgExec` of `authzGrantee` whose messages unpack. -/
def allMsgTypesAuthz (authzGrantee : String) : List Msg → Option (List Msg)
  | [] => some []
  | msg :: msgs =>
    match msg with
    | .exec grantee msgMsgs =>
      if grantee ≠ authzGrantee then none
      else
        match msgMsgs with
        | none => none
        | some msgMsgs => (msgMsgs ++ ·) <$> allMsgTypesAuthz authzGrantee msgs
    | _ => none

/-- `ContractsAllowance.allMsgsValidWasmExecs`: every message executes one of the contracts. -/
def allMsgsValidWasmExecs (contractAddresses : List String) (msgs : List Msg) : Bool :=
  msgs.all fun msg =>
    match msg with
    | .executeContract contract => decide (contract ∈ contractAddresses)
    | _ => false

/-- The messages an `AuthzAllowance` lets through are `MsgExec`s of its grantee, and it passes on
what they carry. -/
theorem eq_execs_of_allMsgTypesAuthz {authzGrantee : String} :
    ∀ {msgs subMsgs : List Msg}, allMsgTypesAuthz authzGrantee msgs = some subMsgs →
      ∃ inners : List (List Msg),
        msgs = inners.map (fun ms => .exec authzGrantee (some ms)) ∧ subMsgs = inners.flatten
  | [], subMsgs, h => ⟨[], rfl, by simpa [allMsgTypesAuthz, eq_comm] using h⟩
  | .exec grantee (some msgMsgs) :: msgs, subMsgs, h => by
    by_cases hg : grantee = authzGrantee
    · subst hg
      simp only [allMsgTypesAuthz, ne_eq, not_true_eq_false, if_false, Option.map_eq_map,
        Option.map_eq_some_iff] at h
      obtain ⟨rest, hrest, rfl⟩ := h
      obtain ⟨inners, rfl, rfl⟩ := eq_execs_of_allMsgTypesAuthz hrest
      exact ⟨msgMsgs :: inners, rfl, rfl⟩
    · simp [allMsgTypesAuthz, hg] at h
  | .exec _ none :: _, _, h => by simp [allMsgTypesAuthz] at h
  | .executeContract _ :: _, _, h => by simp [allMsgTypesAuthz] at h
  | .other _ :: _, _, h => by simp [allMsgTypesAuthz] at h

theorem allMsgsValidWasmExecs_eq_true {contractAddresses : List String} {msgs : List Msg} :
    allMsgsValidWasmExecs contractAddresses msgs = true ↔
      ∀ msg ∈ msgs, ∃ contract ∈ contractAddresses, msg = .executeContract contract := by
  simp only [allMsgsValidWasmExecs, List.all_eq_true]
  refine forall₂_congr fun msg _ => ?_
  cases msg <;> simp

/-! ## The tree of allowances -/

/-- A fee allowance: one of the SDK's at a leaf (`BasicAllowance`, `PeriodicAllowance`,
`AllowedMsgAllowance`), of type `L`, or one of the module's wrappers with what it holds. -/
inductive Allowance (L : Type) where
  | leaf (l : L)
  | authz (allowance : Any (Allowance L)) (authzGrantee : String)
  | contracts (allowance : Any (Allowance L)) (contractAddresses : List String)
  | multiAny (allowances : List (Any (Allowance L)))

section Induction

variable {L : Type} {P : Allowance L → Prop} (leaf : ∀ l, P (.leaf l))
  (authz : ∀ a authzGrantee, (∀ x, a.cachedValue = some x → P x) →
    P (.authz a authzGrantee))
  (contracts : ∀ a contractAddresses, (∀ x, a.cachedValue = some x → P x) →
    P (.contracts a contractAddresses))
  (multiAny : ∀ es, (∀ e ∈ es, ∀ x, e.cachedValue = some x → P x) → P (.multiAny es))
include leaf authz contracts multiAny

set_option linter.unusedSectionVars false

mutual

/-- Induction over the tree: a property of the leaves that each wrapper keeps when every allowance
it holds has it holds of every allowance. -/
theorem Allowance.induction : ∀ t, P t
  | .leaf l => leaf l
  | .authz a authzGrantee => authz a authzGrantee (Allowance.induction_any a)
  | .contracts a contractAddresses => contracts a contractAddresses (Allowance.induction_any a)
  | .multiAny es => multiAny es (Allowance.induction_list es)

theorem Allowance.induction_any : ∀ a : Any (Allowance L), ∀ x, a.cachedValue = some x → P x
  | ⟨_, none⟩, _, h => nomatch h
  | ⟨_, some t⟩, _, rfl => Allowance.induction t

theorem Allowance.induction_list :
    ∀ es : List (Any (Allowance L)), ∀ e ∈ es, ∀ x, e.cachedValue = some x → P x
  | [], _, h, _, _ => nomatch h
  | e :: _, _, .head _, x, hx => Allowance.induction_any e x hx
  | _ :: es, f, .tail _ hf, x, hx => Allowance.induction_list es f hf x hx

end

end Induction

/-- The `Any` of an `AuthzAllowance` or a `ContractsAllowance` after its allowance's `Accept`
returned `r` and left the allowance as `x'`: `SetAllowance` when it accepted without asking to be
removed; otherwise the bytes stay, and the cached value is what `Accept` changed in place. -/
def Any.afterAccept {α ε : Type} (encode : α → Bytes) (a : Any α) (r : Except ε Bool)
    (x' : α) : Any α :=
  match r with
  | .ok false => Any.newWithValue encode x'
  | _ => { a with cachedValue := some x' }

theorem Any.afterAccept_ok {α ε : Type} {encode : α → Bytes} {a : Any α} {remove : Bool}
    {x' : α} :
    a.afterAccept encode (.ok remove : Except ε Bool) x' =
      if remove then { a with cachedValue := some x' } else Any.newWithValue encode x' := by
  cases remove <;> rfl

section Tree

variable {L ε : Type} (leafAccept : L → Coins → List Msg → Except ε Bool × L)
  (encode : Allowance L → Bytes) (fee : Coins)

mutual

/-- `Accept` of an allowance on the fee and the messages, with the allowance as it leaves it:
`leafAccept` at a leaf, and the wrappers' `Accept` above it. -/
def Allowance.accept : Allowance L → List Msg → Except (FeegrantError ε) Bool × Allowance L
  | .leaf l, msgs =>
    match leafAccept l fee msgs with
    | (r, l') => (r.mapError .allowance, .leaf l')
  | .authz allowance authzGrantee, msgs =>
    match allMsgTypesAuthz authzGrantee msgs with
    | none => (.error .messageNotAllowed, .authz allowance authzGrantee)
    | some subMsgs =>
      match Allowance.acceptInner allowance subMsgs with
      | (r, allowance') => (r, .authz allowance' authzGrantee)
  | .contracts allowance contractAddresses, msgs =>
    if allMsgsValidWasmExecs contractAddresses msgs then
      match Allowance.acceptInner allowance msgs with
      | (r, allowance') => (r, .contracts allowance' contractAddresses)
    else (.error .messageNotAllowed, .contracts allowance contractAddresses)
  | .multiAny allowances, msgs =>
    match Allowance.acceptAllowances allowances msgs with
    | (r, allowances') => (r.map fun _ => decide (allowances'.length = 0), .multiAny allowances')

/-- The allowance of an `AuthzAllowance` or a `ContractsAllowance`: `GetAllowance`, its `Accept`,
and `SetAllowance` unless it failed or asks to be removed. -/
def Allowance.acceptInner : Any (Allowance L) → List Msg →
    Except (FeegrantError ε) Bool × Any (Allowance L)
  | ⟨value, none⟩, _ => (.error .noAllowance, ⟨value, none⟩)
  | ⟨value, some allowance⟩, msgs =>
    match Allowance.accept allowance msgs with
    | (r, allowance') => (r, Any.afterAccept encode ⟨value, some allowance⟩ r allowance')

/-- The loop of `MultiAnyAllowance.Accept` over the allowances of the tree: `acceptFirst` with
the tree's `Accept` (`acceptAllowances_eq`). -/
def Allowance.acceptAllowances : List (Any (Allowance L)) → List Msg →
    Except (FeegrantError ε) Unit × List (Any (Allowance L))
  | [], _ => (.error .noValidAllowances, [])
  | ⟨value, none⟩ :: rest, _ => (.error .noAllowance, ⟨value, none⟩ :: rest)
  | ⟨value, some allowance⟩ :: rest, msgs =>
    match Allowance.accept allowance msgs with
    | (.error _, allowance') =>
      match Allowance.acceptAllowances rest msgs with
      | (r, rest') => (r, ⟨value, some allowance'⟩ :: rest')
    | (.ok remove, allowance') =>
      (.ok (), if remove then rest else Any.newWithValue encode allowance' :: rest)

end

/-- The tree's loop over a `MultiAnyAllowance`'s allowances is the loop over any allowances. -/
theorem Allowance.acceptAllowances_eq (msgs : List Msg) :
    ∀ es : List (Any (Allowance L)), Allowance.acceptAllowances leafAccept encode fee es msgs =
      acceptFirst encode (fun x => x.accept leafAccept encode fee msgs) es
  | [] => rfl
  | ⟨value, none⟩ :: rest => rfl
  | ⟨value, some x⟩ :: rest => by
    rcases hx : x.accept leafAccept encode fee msgs with ⟨r, x'⟩
    cases r with
    | error err =>
      rw [acceptFirst_cons_error rfl hx, ← Allowance.acceptAllowances_eq msgs rest]
      simp [Allowance.acceptAllowances, hx]
    | ok remove =>
      rw [acceptFirst_cons_ok rfl hx]
      simp [Allowance.acceptAllowances, hx]

/-- A `MultiAnyAllowance` in the tree accepts as `MultiAnyAllowance.Accept` does. -/
theorem Allowance.accept_multiAny (es : List (Any (Allowance L))) (msgs : List Msg) :
    (Allowance.multiAny es).accept leafAccept encode fee msgs =
      (((⟨es⟩ : MultiAnyAllowance (Allowance L)).accept encode
          fun x => x.accept leafAccept encode fee msgs).1,
        .multiAny ((⟨es⟩ : MultiAnyAllowance (Allowance L)).accept encode
          fun x => x.accept leafAccept encode fee msgs).2.allowances) := by
  rw [Allowance.accept, Allowance.acceptAllowances_eq]
  rfl

/-- A wrapper's allowance accepted: it was unpacked, its `Accept` succeeded, and the `Any` holds
its updated allowance, with new bytes unless it asks to be removed. -/
theorem Allowance.acceptInner_eq_ok {a a' : Any (Allowance L)} {msgs : List Msg} {remove : Bool}
    (h : Allowance.acceptInner leafAccept encode fee a msgs = (.ok remove, a')) :
    ∃ x x', a.cachedValue = some x ∧ x.accept leafAccept encode fee msgs = (.ok remove, x') ∧
      a' = if remove then { a with cachedValue := some x' } else Any.newWithValue encode x' := by
  obtain ⟨value, _ | x⟩ := a
  · simp [Allowance.acceptInner] at h
  · rcases hx : x.accept leafAccept encode fee msgs with ⟨r, x'⟩
    simp only [Allowance.acceptInner, hx, Prod.mk.injEq] at h
    obtain ⟨rfl, rfl⟩ := h
    exact ⟨x, x', rfl, hx, Any.afterAccept_ok⟩

/-- `Charges t msgs remove t'`: `Accept` of `t` on the fee and `msgs` charged one leaf, reached
through wrappers that each allowed the messages they saw, left `t` as `t'`, and returned
`remove`. -/
inductive Charges : Allowance L → List Msg → Bool → Allowance L → Prop where
  /-- The leaf accepted the fee for the messages that reached it. -/
  | leaf {l l' : L} {msgs : List Msg} {remove : Bool}
      (h : leafAccept l fee msgs = (.ok remove, l')) : Charges (.leaf l) msgs remove (.leaf l')
  /-- Every message is an authz `MsgExec` of the grantee, and the allowance was charged for the
  messages they carry, in order. -/
  | authz {a : Any (Allowance L)} {authzGrantee : String} {inners : List (List Msg)}
      {inner inner' : Allowance L} {remove : Bool} (ha : a.cachedValue = some inner)
      (h : Charges inner inners.flatten remove inner') :
      Charges (.authz a authzGrantee) (inners.map fun ms => .exec authzGrantee (some ms)) remove
        (.authz (if remove then { a with cachedValue := some inner' }
          else Any.newWithValue encode inner') authzGrantee)
  /-- Every message executes one of the listed contracts, and the allowance was charged for
  them. -/
  | contracts {a : Any (Allowance L)} {contractAddresses : List String} {msgs : List Msg}
      {inner inner' : Allowance L} {remove : Bool}
      (hmsgs : ∀ msg ∈ msgs, ∃ contract ∈ contractAddresses,
        msg = .executeContract contract)
      (ha : a.cachedValue = some inner) (h : Charges inner msgs remove inner') :
      Charges (.contracts a contractAddresses) msgs remove
        (.contracts (if remove then { a with cachedValue := some inner' }
          else Any.newWithValue encode inner') contractAddresses)
  /-- One of the allowances was charged for the messages: those before it keep their bytes, it is
  replaced by its updated allowance or deleted, and those after it are as they were. -/
  | multiAny {pre post pre' : List (Any (Allowance L))} {e : Any (Allowance L)} {msgs : List Msg}
      {inner inner' : Allowance L} {remove : Bool} (hpre : pre'.map Any.value = pre.map Any.value)
      (he : e.cachedValue = some inner) (h : Charges inner msgs remove inner') :
      Charges (.multiAny (pre ++ e :: post)) msgs
        (decide ((pre' ++ if remove then post else Any.newWithValue encode inner' :: post).length
          = 0))
        (.multiAny (pre' ++ if remove then post else Any.newWithValue encode inner' :: post))

/-- A successful `Accept` charged one leaf, through wrappers that each allowed what they saw. -/
theorem accept_charges_one_leaf (t : Allowance L) (msgs : List Msg) {remove : Bool}
    {t' : Allowance L} (h : t.accept leafAccept encode fee msgs = (.ok remove, t')) :
    Charges leafAccept encode fee t msgs remove t' := by
  induction t using Allowance.induction generalizing msgs remove t' with
  | leaf l =>
    rcases hl : leafAccept l fee msgs with ⟨r, l'⟩
    simp only [Allowance.accept, hl, Prod.mk.injEq, Run.mapError_eq_ok] at h
    obtain ⟨rfl, rfl⟩ := h
    exact .leaf hl
  | authz a authzGrantee ih =>
    -- The messages passed the check, and the allowance accepted what they carry.
    cases hsub : allMsgTypesAuthz authzGrantee msgs with
    | none => simp [Allowance.accept, hsub] at h
    | some subMsgs =>
      rcases hinner : Allowance.acceptInner leafAccept encode fee a subMsgs with ⟨r, a'⟩
      simp only [Allowance.accept, hsub, hinner, Prod.mk.injEq] at h
      obtain ⟨rfl, rfl⟩ := h
      obtain ⟨inners, rfl, rfl⟩ := eq_execs_of_allMsgTypesAuthz hsub
      obtain ⟨x, x', hx, hacc, rfl⟩ := Allowance.acceptInner_eq_ok leafAccept encode fee hinner
      exact .authz hx (ih x hx _ hacc)
  | contracts a contractAddresses ih =>
    by_cases hmsgs : allMsgsValidWasmExecs contractAddresses msgs
    · rcases hinner : Allowance.acceptInner leafAccept encode fee a msgs with ⟨r, a'⟩
      simp only [Allowance.accept, hmsgs, if_true, hinner, Prod.mk.injEq] at h
      obtain ⟨rfl, rfl⟩ := h
      obtain ⟨x, x', hx, hacc, rfl⟩ := Allowance.acceptInner_eq_ok leafAccept encode fee hinner
      exact .contracts (allMsgsValidWasmExecs_eq_true.1 hmsgs) hx (ih x hx _ hacc)
    · simp [Allowance.accept, hmsgs] at h
  | multiAny es ih =>
    -- The loop charged the first allowance that accepted.
    rw [Allowance.accept_multiAny, Prod.mk.injEq] at h
    obtain ⟨hr, rfl⟩ := h
    obtain ⟨hok, hremove⟩ := MultiAnyAllowance.accept_eq_ok.1 hr
    obtain ⟨pre, e, post, x, rm, x', pre', rfl, he, hacc, -, hval, hrest⟩ :=
      acceptFirst_eq_ok hok
    have hflag : remove = decide
        ((pre' ++ if rm then post else Any.newWithValue encode x' :: post).length = 0) := by
      rw [hrest] at hremove
      rw [Bool.eq_iff_iff, decide_eq_true_iff, List.length_eq_zero_iff]
      exact hremove
    rw [MultiAnyAllowance.accept_allowances, hrest, hflag]
    exact .multiAny hval he (ih e (by simp) x he _ hacc)

end Tree

/-- Spend limits at the leaves, charged the total amount of the fee. -/
def spendLimitLeaf (left : ℕ) (fee : Coins) (_ : List Msg) : Except Unit Bool × ℕ :=
  if (fee.map Prod.snd).sum.toNat ≤ left then
    (.ok (decide ((fee.map Prod.snd).sum.toNat = left)), left - (fee.map Prod.snd).sum.toNat)
  else (.error (), left)

/-- The bytes of a spend limit at a leaf; the wrappers' are left empty. -/
def leafBytes : Allowance ℕ → Bytes
  | .leaf l => [Fin.ofNat 256 l]
  | _ => []

/-- An authz grant whose allowance pays for executions of the contract `c` up to 10, or for any
message up to `limit`. -/
def authzGrant (limit : ℕ) : Allowance ℕ :=
  .authz (Any.newWithValue leafBytes (.multiAny
    [Any.newWithValue leafBytes (.contracts (Any.newWithValue leafBytes (.leaf 10)) ["c"]),
      Any.newWithValue leafBytes (.leaf limit)])) "g"

/-- A bank message executed for the grantee is not a contract execution, so the second limit is
charged. -/
theorem authzGrant_charges_limit :
    (authzGrant 5).accept spendLimitLeaf leafBytes [(ofAscii "uxion", 3)]
        [.exec "g" (some [.other "bank"])] = (.ok false, authzGrant 2) ∧
      Charges spendLimitLeaf leafBytes [(ofAscii "uxion", 3)] (authzGrant 5)
        [.exec "g" (some [.other "bank"])] false (authzGrant 2) :=
  ⟨rfl, accept_charges_one_leaf _ _ _ _ _ rfl⟩

end Xion.Module
