import Xion.Module.Feegrant
import Mathlib.Logic.Relation

/-!
# The checks of the fee allowances

`ValidateBasic` and `ExpiresAt` of `AuthzAllowance`, `ContractsAllowance` and `MultiAnyAllowance`
(`x/xion/types/feegrant.go`), over a whole tree of wrappers with the SDK's allowances at its
leaves. A wrapper reads its allowance through `GetAllowance`, which fails when the `Any` was not
unpacked; an `AuthzAllowance` checks its grantee's address, a `ContractsAllowance` its non-empty
list of contract addresses, and a `MultiAnyAllowance` that its list is not empty and that all of
its allowances expire together (`EqTime`).

`MultiAnyAllowance.ValidateBasic` carries a depth: a `MultiAnyAllowance` held directly by another
is checked one level deeper, and one at a depth above `maxMultiAnyAllowanceDepth` is refused. Any
other allowance is checked by its own `ValidateBasic`, which starts a `MultiAnyAllowance` it holds
at depth zero. `Allowance.validateBasicDepth` is both: the depth is read only at a
`MultiAnyAllowance`.

What the checks compute, over every tree: `ExpiresAt` gives `e` exactly when every allowance in
the tree is unpacked, every leaf expires at `e`, and `e` is nil where the tree holds an empty
`MultiAnyAllowance` (`expiresAt_eq_ok`). `ValidateBasic` accepts a tree exactly when every
allowance in it passes the check of its kind and no run of directly nested `MultiAnyAllowance`s
is longer than six (`validateBasic_eq_ok`): an `AuthzAllowance` or a `ContractsAllowance` between
two of them starts the count again, so that trees of any depth pass (`nestedThroughAuthz_valid`).

The nil `Any` pointers that `ValidateBasic` refuses with "allowance should not be empty" are not
modelled: an `Any` here always exists, and may hold no unpacked value.
-/

namespace Xion.Module

open Run

/-- `maxMultiAnyAllowanceDepth`. -/
def maxMultiAnyAllowanceDepth : ℕ := 5

/-- The errors of `ValidateBasic` and `ExpiresAt`: those of the SDK's allowances and of
`sdk.AccAddressFromBech32`, of type `ε`, and the wrappers' own, with their texts. -/
inductive ValidateError (ε τ : Type) where
  /-- An error of a leaf's `ValidateBasic` or `ExpiresAt`, or of an address. -/
  | other (e : ε)
  /-- `feegrant.ErrNoAllowance`, "failed to get allowance" or "allowance list should contain at
  least one". -/
  | noAllowance (msg : String)
  /-- `ErrNoAllowedContracts`, "must set contracts for feegrant". -/
  | noAllowedContracts
  /-- `sdkerrors.ErrInvalidRequest`, "MultiAnyAllowance nesting exceeds maximum depth". -/
  | nestingTooDeep
  /-- `ErrInconsistentExpiry`, "allowance 0 had expiration %v while allowance %d had expiration
  %v". -/
  | inconsistentExpiry (first : Option τ) (index : ℕ) (other : Option τ)

/-- `EqTime`: two expirations are the same instant, or both unset. `τ` is the type of instants,
so that `time.Time.Equal` is equality. -/
def eqTime {τ : Type} [DecidableEq τ] : Option τ → Option τ → Bool
  | some a, some b => decide (a = b)
  | none, none => true
  | _, _ => false

theorem eqTime_iff {τ : Type} [DecidableEq τ] (a b : Option τ) : eqTime a b = true ↔ a = b := by
  cases a <;> cases b <;> simp [eqTime]

section Checks

variable {L ε τ : Type} [DecidableEq τ] (leafExpiresAt : L → Except ε (Option τ))

mutual

/-- `ExpiresAt` of an allowance: the leaf's own, a wrapper's allowance's, and for a
`MultiAnyAllowance` the one expiration that all of its allowances share. -/
def Allowance.expiresAt : Allowance L → Except (ValidateError ε τ) (Option τ)
  | .leaf l => (leafExpiresAt l).mapError .other
  | .authz ⟨_, none⟩ _ => .error (.noAllowance "failed to get allowance")
  | .authz ⟨_, some x⟩ _ => Allowance.expiresAt x
  | .contracts ⟨_, none⟩ _ => .error (.noAllowance "failed to get allowance")
  | .contracts ⟨_, some x⟩ _ => Allowance.expiresAt x
  | .multiAny es => Allowance.expiresAtFrom 0 none false es

/-- The loop of `MultiAnyAllowance.ExpiresAt` from the allowance of index `i` on, with the
expiration of the first allowance once `set`. -/
def Allowance.expiresAtFrom (i : ℕ) (expiration : Option τ) (set : Bool) :
    List (Any (Allowance L)) → Except (ValidateError ε τ) (Option τ)
  | [] => .ok expiration
  | ⟨_, none⟩ :: _ => .error (.noAllowance "failed to get allowance")
  | ⟨_, some x⟩ :: rest =>
    match Allowance.expiresAt x with
    | .error err => .error err
    | .ok newExpiration =>
      if set then
        if eqTime expiration newExpiration then
          Allowance.expiresAtFrom (i + 1) expiration true rest
        else .error (.inconsistentExpiry expiration i newExpiration)
      else Allowance.expiresAtFrom (i + 1) newExpiration true rest

end

variable (leafValidateBasic : L → Except ε Unit) (accAddress : String → Except ε Unit)

mutual

/-- `ValidateBasic` of an allowance at the depth `depth`: for a `MultiAnyAllowance` its
`validateBasicDepth(depth)`, and for any other allowance its `ValidateBasic`, which does not read
the depth. `leafValidateBasic` is the SDK allowances' `ValidateBasic` and `accAddress` the error
of `sdk.AccAddressFromBech32`. -/
def Allowance.validateBasicDepth (depth : ℕ) : Allowance L → Except (ValidateError ε τ) Unit
  | .leaf l => (leafValidateBasic l).mapError .other
  | .authz ⟨_, none⟩ authzGrantee => do
    (accAddress authzGrantee).mapError .other
    .error (.noAllowance "failed to get allowance")
  | .authz ⟨_, some x⟩ authzGrantee => do
    (accAddress authzGrantee).mapError .other
    Allowance.validateBasicDepth 0 x
  | .contracts ⟨_, none⟩ contractAddresses => do
    failIf (contractAddresses.length < 1) .noAllowedContracts
    contractAddresses.forM fun addr => (accAddress addr).mapError .other
    .error (.noAllowance "failed to get allowance")
  | .contracts ⟨_, some x⟩ contractAddresses => do
    failIf (contractAddresses.length < 1) .noAllowedContracts
    contractAddresses.forM fun addr => (accAddress addr).mapError .other
    Allowance.validateBasicDepth 0 x
  | .multiAny es => do
    failIf (depth > maxMultiAnyAllowanceDepth) .nestingTooDeep
    failIf (es.length = 0) (.noAllowance "allowance list should contain at least one")
    Allowance.validateAllowances depth es
    let _ ← (Allowance.multiAny es).expiresAt leafExpiresAt
    pure ()

/-- The loop of `validateBasicDepth(depth)` over a `MultiAnyAllowance`'s allowances: a nested
`MultiAnyAllowance` is checked one level deeper, and any other allowance by its `ValidateBasic`,
which the depth does not change (`validateBasicDepth_of_not_multiAny`). -/
def Allowance.validateAllowances (depth : ℕ) :
    List (Any (Allowance L)) → Except (ValidateError ε τ) Unit
  | [] => .ok ()
  | ⟨_, none⟩ :: _ => .error (.noAllowance "failed to get allowance")
  | ⟨_, some x⟩ :: rest => do
    Allowance.validateBasicDepth (depth + 1) x
    Allowance.validateAllowances depth rest

end

/-- `ValidateBasic`: a `MultiAnyAllowance` starts at depth zero. -/
def Allowance.validateBasic (t : Allowance L) : Except (ValidateError ε τ) Unit :=
  t.validateBasicDepth leafExpiresAt leafValidateBasic accAddress 0

end Checks

/-! ## Equations -/

section Equations

variable {L ε τ : Type} [DecidableEq τ] {leafExpiresAt : L → Except ε (Option τ)}
  {leafValidateBasic : L → Except ε Unit} {accAddress : String → Except ε Unit}

theorem expiresAt_leaf (l : L) :
    (Allowance.leaf l).expiresAt (τ := τ) leafExpiresAt = (leafExpiresAt l).mapError .other := rfl

theorem expiresAt_authz_none (value : Bytes) (authzGrantee : String) :
    (Allowance.authz (L := L) ⟨value, none⟩ authzGrantee).expiresAt (τ := τ) leafExpiresAt =
      .error (.noAllowance "failed to get allowance") := rfl

theorem expiresAt_authz_some (value : Bytes) (x : Allowance L) (authzGrantee : String) :
    (Allowance.authz ⟨value, some x⟩ authzGrantee).expiresAt (τ := τ) leafExpiresAt =
      x.expiresAt leafExpiresAt := rfl

theorem expiresAt_contracts_none (value : Bytes) (contractAddresses : List String) :
    (Allowance.contracts (L := L) ⟨value, none⟩ contractAddresses).expiresAt (τ := τ)
      leafExpiresAt = .error (.noAllowance "failed to get allowance") := rfl

theorem expiresAt_contracts_some (value : Bytes) (x : Allowance L)
    (contractAddresses : List String) :
    (Allowance.contracts ⟨value, some x⟩ contractAddresses).expiresAt (τ := τ) leafExpiresAt =
      x.expiresAt leafExpiresAt := rfl

theorem expiresAt_multiAny (es : List (Any (Allowance L))) :
    (Allowance.multiAny es).expiresAt (τ := τ) leafExpiresAt =
      Allowance.expiresAtFrom leafExpiresAt 0 none false es := rfl

theorem expiresAtFrom_nil (i : ℕ) (expiration : Option τ) (set : Bool) :
    Allowance.expiresAtFrom (L := L) leafExpiresAt i expiration set [] = .ok expiration := rfl

theorem expiresAtFrom_cons_none (i : ℕ) (expiration : Option τ) (set : Bool) (value : Bytes)
    (rest : List (Any (Allowance L))) :
    Allowance.expiresAtFrom leafExpiresAt i expiration set (⟨value, none⟩ :: rest) =
      .error (.noAllowance "failed to get allowance") := rfl

theorem expiresAtFrom_cons_some (i : ℕ) (expiration : Option τ) (set : Bool) (value : Bytes)
    (x : Allowance L) (rest : List (Any (Allowance L))) :
    Allowance.expiresAtFrom leafExpiresAt i expiration set (⟨value, some x⟩ :: rest) =
      match x.expiresAt leafExpiresAt with
      | .error err => .error err
      | .ok newExpiration =>
        if set then
          if eqTime expiration newExpiration then
            Allowance.expiresAtFrom leafExpiresAt (i + 1) expiration true rest
          else .error (.inconsistentExpiry expiration i newExpiration)
        else Allowance.expiresAtFrom leafExpiresAt (i + 1) newExpiration true rest := rfl

theorem validateBasicDepth_leaf (depth : ℕ) (l : L) :
    (Allowance.leaf l).validateBasicDepth (τ := τ) leafExpiresAt leafValidateBasic accAddress
      depth = (leafValidateBasic l).mapError .other := rfl

theorem validateBasicDepth_authz_none (depth : ℕ) (value : Bytes) (authzGrantee : String) :
    (Allowance.authz (L := L) ⟨value, none⟩ authzGrantee).validateBasicDepth (τ := τ)
        leafExpiresAt leafValidateBasic accAddress depth =
      ((accAddress authzGrantee).mapError .other >>= fun _ =>
        .error (.noAllowance "failed to get allowance")) := rfl

theorem validateBasicDepth_authz_some (depth : ℕ) (value : Bytes) (x : Allowance L)
    (authzGrantee : String) :
    (Allowance.authz ⟨value, some x⟩ authzGrantee).validateBasicDepth (τ := τ) leafExpiresAt
        leafValidateBasic accAddress depth =
      ((accAddress authzGrantee).mapError .other >>= fun _ =>
        x.validateBasicDepth leafExpiresAt leafValidateBasic accAddress 0) := rfl

theorem validateBasicDepth_contracts_none (depth : ℕ) (value : Bytes)
    (contractAddresses : List String) :
    (Allowance.contracts (L := L) ⟨value, none⟩ contractAddresses).validateBasicDepth (τ := τ)
        leafExpiresAt leafValidateBasic accAddress depth =
      (failIf (contractAddresses.length < 1) .noAllowedContracts >>= fun _ =>
        (contractAddresses.forM fun addr => (accAddress addr).mapError .other) >>= fun _ =>
          .error (.noAllowance "failed to get allowance")) := rfl

theorem validateBasicDepth_contracts_some (depth : ℕ) (value : Bytes) (x : Allowance L)
    (contractAddresses : List String) :
    (Allowance.contracts ⟨value, some x⟩ contractAddresses).validateBasicDepth (τ := τ)
        leafExpiresAt leafValidateBasic accAddress depth =
      (failIf (contractAddresses.length < 1) .noAllowedContracts >>= fun _ =>
        (contractAddresses.forM fun addr => (accAddress addr).mapError .other) >>= fun _ =>
          x.validateBasicDepth leafExpiresAt leafValidateBasic accAddress 0) := rfl

theorem validateBasicDepth_multiAny (depth : ℕ) (es : List (Any (Allowance L))) :
    (Allowance.multiAny es).validateBasicDepth (τ := τ) leafExpiresAt leafValidateBasic
        accAddress depth =
      (failIf (depth > maxMultiAnyAllowanceDepth) .nestingTooDeep >>= fun _ =>
        failIf (es.length = 0) (.noAllowance "allowance list should contain at least one") >>=
          fun _ => Allowance.validateAllowances leafExpiresAt leafValidateBasic accAddress depth es
            >>= fun _ => (Allowance.multiAny es).expiresAt leafExpiresAt >>= fun _ => pure ()) :=
  rfl

theorem validateAllowances_cons_none (depth : ℕ) (value : Bytes)
    (rest : List (Any (Allowance L))) :
    Allowance.validateAllowances (τ := τ) leafExpiresAt leafValidateBasic accAddress depth
      (⟨value, none⟩ :: rest) = .error (.noAllowance "failed to get allowance") := rfl

theorem validateAllowances_cons_some (depth : ℕ) (value : Bytes) (x : Allowance L)
    (rest : List (Any (Allowance L))) :
    Allowance.validateAllowances (τ := τ) leafExpiresAt leafValidateBasic accAddress depth
        (⟨value, some x⟩ :: rest) =
      (x.validateBasicDepth leafExpiresAt leafValidateBasic accAddress (depth + 1) >>= fun _ =>
        Allowance.validateAllowances leafExpiresAt leafValidateBasic accAddress depth rest) := rfl

end Equations

/-! ## The tree below an allowance -/

section Tree

variable {L : Type}

/-- `x` is the unpacked allowance that the wrapper `t` holds directly. -/
inductive Allowance.Child : Allowance L → Allowance L → Prop
  | authz {a : Any (Allowance L)} {x : Allowance L} (authzGrantee : String) :
      a.cachedValue = some x → Allowance.Child x (.authz a authzGrantee)
  | contracts {a : Any (Allowance L)} {x : Allowance L} (contractAddresses : List String) :
      a.cachedValue = some x → Allowance.Child x (.contracts a contractAddresses)
  | multiAny {es : List (Any (Allowance L))} {e : Any (Allowance L)} {x : Allowance L} :
      e ∈ es → e.cachedValue = some x → Allowance.Child x (.multiAny es)

/-- `u` is an allowance of the tree `t`: `t` itself, or one that a wrapper of the tree holds. -/
def Allowance.Sub (u t : Allowance L) : Prop :=
  Relation.ReflTransGen (fun t x => Allowance.Child x t) t u

theorem Allowance.Sub.refl (t : Allowance L) : t.Sub t := Relation.ReflTransGen.refl

theorem Allowance.not_child_leaf (x : Allowance L) (l : L) : ¬x.Child (.leaf l) := nofun

theorem Allowance.child_authz_iff {x : Allowance L} {a : Any (Allowance L)}
    {authzGrantee : String} : x.Child (.authz a authzGrantee) ↔ a.cachedValue = some x :=
  ⟨fun | .authz _ h => h, .authz authzGrantee⟩

theorem Allowance.child_contracts_iff {x : Allowance L} {a : Any (Allowance L)}
    {contractAddresses : List String} :
    x.Child (.contracts a contractAddresses) ↔ a.cachedValue = some x :=
  ⟨fun | .contracts _ h => h, .contracts contractAddresses⟩

theorem Allowance.child_multiAny_iff {x : Allowance L} {es : List (Any (Allowance L))} :
    x.Child (.multiAny es) ↔ ∃ e ∈ es, e.cachedValue = some x :=
  ⟨fun | .multiAny he h => ⟨_, he, h⟩, fun ⟨_, he, h⟩ => .multiAny he h⟩

section Forall

variable {Q : Allowance L → Prop}

/-- A property of every allowance of a tree is one of its root and of every allowance of the trees
that the root holds. -/
theorem Allowance.forall_sub_iff {t : Allowance L} :
    (∀ u, u.Sub t → Q u) ↔ Q t ∧ ∀ x, x.Child t → ∀ u, u.Sub x → Q u := by
  constructor
  · intro h
    exact ⟨h t (.refl t), fun x hx u hu => h u (Relation.ReflTransGen.head hx hu)⟩
  · rintro ⟨ht, hbelow⟩ u hu
    rcases Relation.ReflTransGen.cases_head hu with rfl | ⟨x, hx, hxu⟩
    · exact ht
    · exact hbelow x hx u hxu

theorem Allowance.forall_sub_leaf {l : L} : (∀ u, u.Sub (.leaf l) → Q u) ↔ Q (.leaf l) := by
  rw [Allowance.forall_sub_iff]
  simp only [Allowance.not_child_leaf, false_imp_iff, imp_true_iff, and_true]

theorem Allowance.forall_sub_authz {a : Any (Allowance L)} {authzGrantee : String} :
    (∀ u, u.Sub (.authz a authzGrantee) → Q u) ↔
      Q (.authz a authzGrantee) ∧ ∀ x, a.cachedValue = some x → ∀ u, u.Sub x → Q u := by
  rw [Allowance.forall_sub_iff]
  simp only [Allowance.child_authz_iff]

theorem Allowance.forall_sub_contracts {a : Any (Allowance L)} {contractAddresses : List String} :
    (∀ u, u.Sub (.contracts a contractAddresses) → Q u) ↔
      Q (.contracts a contractAddresses) ∧ ∀ x, a.cachedValue = some x → ∀ u, u.Sub x → Q u := by
  rw [Allowance.forall_sub_iff]
  simp only [Allowance.child_contracts_iff]

theorem Allowance.forall_sub_multiAny {es : List (Any (Allowance L))} :
    (∀ u, u.Sub (.multiAny es) → Q u) ↔
      Q (.multiAny es) ∧ ∀ e ∈ es, ∀ x, e.cachedValue = some x → ∀ u, u.Sub x → Q u := by
  rw [Allowance.forall_sub_iff]
  simp only [Allowance.child_multiAny_iff]
  constructor
  · rintro ⟨hroot, hbelow⟩
    exact ⟨hroot, fun e he x hx => hbelow x ⟨e, he, hx⟩⟩
  · rintro ⟨hroot, hbelow⟩
    exact ⟨hroot, fun x ⟨e, he, hx⟩ => hbelow e he x hx⟩

end Forall

/-- An allowance that is unpacked and has a property, from the `Any` side: the two halves that
the node checks and the recursion over its children state apart. -/
theorem Any.exists_cached_iff {a : Any (Allowance L)} {P : Allowance L → Prop} :
    (∃ x, a.cachedValue = some x ∧ P x) ↔
      a.cachedValue.isSome ∧ ∀ x, a.cachedValue = some x → P x := by
  rcases a with ⟨value, _ | x⟩ <;> simp

theorem Any.forall_exists_cached_iff {es : List (Any (Allowance L))} {P : Allowance L → Prop} :
    (∀ e ∈ es, ∃ x, e.cachedValue = some x ∧ P x) ↔
      (∀ e ∈ es, e.cachedValue.isSome) ∧ ∀ e ∈ es, ∀ x, e.cachedValue = some x → P x := by
  simp only [Any.exists_cached_iff, ← forall_and]

end Tree

/-! ## What `ExpiresAt` computes -/

section Expires

variable {L ε τ : Type} [DecidableEq τ] (leafExpiresAt : L → Except ε (Option τ))

/-- What `ExpiresAt` asks of one allowance of a tree that expires at `e`: a leaf expires at `e`, a
wrapper's allowances are unpacked, and an empty `MultiAnyAllowance`, which expires at nil, makes
`e` nil. -/
def Allowance.ExpiresNode (e : Option τ) : Allowance L → Prop
  | .leaf l => leafExpiresAt l = .ok e
  | .authz a _ => a.cachedValue.isSome
  | .contracts a _ => a.cachedValue.isSome
  | .multiAny es => (∀ a ∈ es, a.cachedValue.isSome) ∧ (es = [] → e = none)

variable {leafExpiresAt}

/-- Once the first expiration is set, the loop of `MultiAnyAllowance.ExpiresAt` returns it exactly
when every allowance left is unpacked and expires at it. -/
theorem expiresAtFrom_set_eq_ok (i : ℕ) (expiration e : Option τ)
    (es : List (Any (Allowance L))) :
    Allowance.expiresAtFrom leafExpiresAt i expiration true es = .ok e ↔
      e = expiration ∧
        ∀ a ∈ es, ∃ x, a.cachedValue = some x ∧ x.expiresAt leafExpiresAt = .ok expiration := by
  induction es generalizing i with
  | nil =>
    rw [expiresAtFrom_nil]
    simp only [Except.ok.injEq, List.not_mem_nil, false_imp_iff, imp_true_iff, and_true]
    exact eq_comm
  | cons a rest ih =>
    rcases a with ⟨value, _ | x⟩
    · -- an allowance that was not unpacked fails the loop
      rw [expiresAtFrom_cons_none]
      simp
    · rw [expiresAtFrom_cons_some, List.forall_mem_cons]
      simp only [Option.some.injEq, exists_eq_left']
      cases hx : x.expiresAt leafExpiresAt with
      | error err => simp
      | ok newExpiration =>
        simp only [if_true, Except.ok.injEq]
        by_cases heq : expiration = newExpiration
        · rw [if_pos ((eqTime_iff _ _).2 heq), ih, heq]
          simp
        · -- a different expiration stops the loop with an error
          rw [if_neg (mt (eqTime_iff _ _).1 heq)]
          simp only [reduceCtorEq, false_iff, not_and]
          intro _ hnew
          exact absurd hnew.symm heq

/-- `MultiAnyAllowance.ExpiresAt` gives `e` exactly when all of its allowances are unpacked and
expire at `e`, and `e` is nil when the list is empty. -/
theorem expiresAt_multiAny_eq_ok (es : List (Any (Allowance L))) (e : Option τ) :
    (Allowance.multiAny es).expiresAt leafExpiresAt = .ok e ↔
      (es = [] → e = none) ∧
        ∀ a ∈ es, ∃ x, a.cachedValue = some x ∧ x.expiresAt leafExpiresAt = .ok e := by
  rw [expiresAt_multiAny]
  cases es with
  | nil =>
    rw [expiresAtFrom_nil]
    simp only [Except.ok.injEq, List.not_mem_nil, false_imp_iff, imp_true_iff, and_true,
      forall_const]
    exact eq_comm
  | cons a rest =>
    rcases a with ⟨value, _ | x⟩
    · rw [expiresAtFrom_cons_none]
      simp
    · rw [expiresAtFrom_cons_some, List.forall_mem_cons]
      simp only [Option.some.injEq, exists_eq_left', reduceCtorEq, false_imp_iff, true_and]
      cases hx : x.expiresAt leafExpiresAt with
      | error err => simp
      | ok newExpiration =>
        -- the first allowance sets the expiration that all the others must have
        simp only [if_false, expiresAtFrom_set_eq_ok, Except.ok.injEq]
        constructor
        · rintro ⟨rfl, hrest⟩
          exact ⟨rfl, hrest⟩
        · rintro ⟨rfl, hrest⟩
          exact ⟨rfl, hrest⟩

/-- `ExpiresAt` of a whole tree gives `e` exactly when every allowance of the tree is unpacked,
every leaf expires at `e`, and `e` is nil if the tree holds an empty `MultiAnyAllowance`. -/
theorem expiresAt_eq_ok (t : Allowance L) (e : Option τ) :
    t.expiresAt leafExpiresAt = .ok e ↔
      ∀ u : Allowance L, u.Sub t → u.ExpiresNode leafExpiresAt e := by
  induction t using Allowance.induction with
  | leaf l =>
    rw [Allowance.forall_sub_leaf, expiresAt_leaf, Run.mapError_eq_ok]
    rfl
  | authz a authzGrantee ih =>
    rw [Allowance.forall_sub_authz]
    rcases a with ⟨value, _ | x⟩
    · rw [expiresAt_authz_none]
      simp [Allowance.ExpiresNode]
    · rw [expiresAt_authz_some, ih x rfl]
      simp [Allowance.ExpiresNode]
  | contracts a contractAddresses ih =>
    rw [Allowance.forall_sub_contracts]
    rcases a with ⟨value, _ | x⟩
    · rw [expiresAt_contracts_none]
      simp [Allowance.ExpiresNode]
    · rw [expiresAt_contracts_some, ih x rfl]
      simp [Allowance.ExpiresNode]
  | multiAny es ih =>
    rw [Allowance.forall_sub_multiAny, expiresAt_multiAny_eq_ok]
    have hchildren : (∀ a ∈ es, ∃ x, a.cachedValue = some x ∧ x.expiresAt leafExpiresAt = .ok e) ↔
        ∀ a ∈ es, ∃ x, a.cachedValue = some x ∧
          ∀ u : Allowance L, u.Sub x → u.ExpiresNode leafExpiresAt e := by
      refine forall₂_congr fun a ha => exists_congr fun x => ?_
      exact and_congr_right fun hx => ih a ha x hx
    rw [hchildren, Any.forall_exists_cached_iff]
    simp only [Allowance.ExpiresNode]
    tauto

end Expires

/-! ## What `ValidateBasic` accepts -/

section Valid

variable {L : Type}

mutual

/-- The longest run of directly nested `MultiAnyAllowance`s that starts at an allowance: the depth
that `validateBasicDepth` counts from it. -/
def Allowance.multiAnyRun : Allowance L → ℕ
  | .multiAny es => Allowance.multiAnyRunList es + 1
  | _ => 0

/-- The longest such run below the allowances of a list. -/
def Allowance.multiAnyRunList : List (Any (Allowance L)) → ℕ
  | [] => 0
  | ⟨_, none⟩ :: rest => Allowance.multiAnyRunList rest
  | ⟨_, some x⟩ :: rest => max x.multiAnyRun (Allowance.multiAnyRunList rest)

end

theorem multiAnyRun_multiAny (es : List (Any (Allowance L))) :
    (Allowance.multiAny es).multiAnyRun = Allowance.multiAnyRunList es + 1 := rfl

/-- The runs below a list are within `k` exactly when the run from each unpacked allowance is. -/
theorem multiAnyRunList_le_iff (es : List (Any (Allowance L))) (k : ℕ) :
    Allowance.multiAnyRunList es ≤ k ↔
      ∀ e ∈ es, ∀ x, e.cachedValue = some x → x.multiAnyRun ≤ k := by
  induction es with
  | nil => simp [Allowance.multiAnyRunList]
  | cons e rest ih =>
    rw [List.forall_mem_cons, ← ih]
    rcases e with ⟨value, _ | x⟩
    · simp [Allowance.multiAnyRunList]
    · simp [Allowance.multiAnyRunList]

variable {ε τ : Type} [DecidableEq τ] (leafExpiresAt : L → Except ε (Option τ))
  (leafValidateBasic : L → Except ε Unit) (accAddress : String → Except ε Unit)

/-- The check of its own kind that `ValidateBasic` makes of one allowance of a tree: a leaf's own,
the grantee's or the contracts' addresses and an unpacked allowance for the wrappers, and for a
`MultiAnyAllowance` a non-empty list whose whole tree expires together. -/
def Allowance.ValidNode : Allowance L → Prop
  | .leaf l => leafValidateBasic l = .ok ()
  | .authz a authzGrantee => accAddress authzGrantee = .ok () ∧ a.cachedValue.isSome
  | .contracts a contractAddresses =>
    contractAddresses ≠ [] ∧ (∀ c ∈ contractAddresses, accAddress c = .ok ()) ∧
      a.cachedValue.isSome
  | .multiAny es =>
    es ≠ [] ∧ ∃ e, ∀ u : Allowance L, u.Sub (.multiAny es) → u.ExpiresNode leafExpiresAt e

variable {leafExpiresAt leafValidateBasic accAddress}

/-- The loop over a `MultiAnyAllowance`'s allowances passes exactly when each is unpacked and
passes one level deeper. -/
theorem validateAllowances_eq_ok (depth : ℕ) (es : List (Any (Allowance L))) :
    Allowance.validateAllowances leafExpiresAt leafValidateBasic accAddress depth es = .ok () ↔
      ∀ e ∈ es, ∃ x, e.cachedValue = some x ∧
        x.validateBasicDepth leafExpiresAt leafValidateBasic accAddress (depth + 1) = .ok () := by
  induction es with
  | nil => exact iff_of_true rfl (fun _ h => absurd h List.not_mem_nil)
  | cons e rest ih =>
    rw [List.forall_mem_cons, ← ih]
    rcases e with ⟨value, _ | x⟩
    · rw [validateAllowances_cons_none]
      simp
    · rw [validateAllowances_cons_some, Run.bind_const_eq_ok]
      simp

omit [DecidableEq τ] in
/-- An address check over the contracts passes exactly when every address is valid. -/
theorem forM_accAddress_eq_ok (contractAddresses : List String) :
    (contractAddresses.forM fun addr => (accAddress addr).mapError
        (ValidateError.other (τ := τ))) = .ok () ↔
      ∀ c ∈ contractAddresses, accAddress c = .ok () := by
  rw [Run.forM_eq_ok]
  simp only [Run.mapError_eq_ok]

/-- `ValidateBasic` at the depth `depth` accepts a tree exactly when every allowance of the tree
passes the check of its kind, no run of directly nested `MultiAnyAllowance`s in it is longer than
six, and the run from its root is no longer than what is left of the six at `depth`. -/
theorem validateBasicDepth_eq_ok (t : Allowance L) (depth : ℕ) :
    t.validateBasicDepth leafExpiresAt leafValidateBasic accAddress depth = .ok () ↔
      t.multiAnyRun ≤ maxMultiAnyAllowanceDepth + 1 - depth ∧
        ∀ u : Allowance L, u.Sub t →
          u.ValidNode leafExpiresAt leafValidateBasic accAddress ∧
            u.multiAnyRun ≤ maxMultiAnyAllowanceDepth + 1 := by
  induction t using Allowance.induction generalizing depth with
  | leaf l =>
    rw [Allowance.forall_sub_leaf, validateBasicDepth_leaf, Run.mapError_eq_ok]
    simp [Allowance.ValidNode, Allowance.multiAnyRun]
  | authz a authzGrantee ih =>
    rw [Allowance.forall_sub_authz]
    rcases a with ⟨value, _ | x⟩
    · rw [validateBasicDepth_authz_none, Run.bind_const_eq_ok]
      simp [Allowance.ValidNode]
    · -- the wrapped allowance is checked from depth zero
      rw [validateBasicDepth_authz_some, Run.bind_const_eq_ok, ih x rfl, Run.mapError_eq_ok]
      simp only [Allowance.ValidNode, Allowance.multiAnyRun, Nat.zero_le, true_and,
        Option.isSome_some, and_true, Nat.sub_zero, Option.some.injEq, forall_eq']
      constructor
      · rintro ⟨haddr, -, hsub⟩
        exact ⟨haddr, hsub⟩
      · rintro ⟨haddr, hsub⟩
        exact ⟨haddr, (hsub x (.refl x)).2, hsub⟩
  | contracts a contractAddresses ih =>
    rw [Allowance.forall_sub_contracts]
    have hne : ¬contractAddresses.length < 1 ↔ contractAddresses ≠ [] := by
      rw [Nat.not_lt, Nat.one_le_iff_ne_zero, Ne, List.length_eq_zero_iff]
    rcases a with ⟨value, _ | x⟩
    · rw [validateBasicDepth_contracts_none, Run.bind_const_eq_ok, Run.bind_const_eq_ok]
      simp [Allowance.ValidNode]
    · -- the wrapped allowance is checked from depth zero, after the addresses
      rw [validateBasicDepth_contracts_some, Run.bind_const_eq_ok, Run.bind_const_eq_ok, ih x rfl,
        Run.failIf_eq_ok, forM_accAddress_eq_ok, hne]
      simp only [Allowance.ValidNode, Allowance.multiAnyRun, Nat.zero_le, true_and,
        Option.isSome_some, and_true, Nat.sub_zero, Option.some.injEq, forall_eq']
      constructor
      · rintro ⟨hne, haddr, -, hsub⟩
        exact ⟨⟨hne, haddr⟩, hsub⟩
      · rintro ⟨⟨hne, haddr⟩, hsub⟩
        exact ⟨hne, haddr, (hsub x (.refl x)).2, hsub⟩
  | multiAny es ih =>
    rw [Allowance.forall_sub_multiAny, validateBasicDepth_multiAny, Run.bind_const_eq_ok,
      Run.bind_const_eq_ok, Run.bind_const_eq_ok, Run.bind_eq_ok, Run.failIf_eq_ok,
      Run.failIf_eq_ok, validateAllowances_eq_ok, multiAnyRun_multiAny]
    -- each allowance is unpacked and passes one level deeper
    have hchildren :
        (∀ e ∈ es, ∃ x, e.cachedValue = some x ∧ x.validateBasicDepth leafExpiresAt
          leafValidateBasic accAddress (depth + 1) = .ok ()) ↔
        (∀ e ∈ es, e.cachedValue.isSome) ∧
          Allowance.multiAnyRunList es ≤ maxMultiAnyAllowanceDepth + 1 - (depth + 1) ∧
          ∀ e ∈ es, ∀ x, e.cachedValue = some x → ∀ u : Allowance L, u.Sub x →
            u.ValidNode leafExpiresAt leafValidateBasic accAddress ∧
              u.multiAnyRun ≤ maxMultiAnyAllowanceDepth + 1 := by
      rw [Any.forall_exists_cached_iff, multiAnyRunList_le_iff]
      refine and_congr_right fun _ => ?_
      rw [← forall₂_and]
      refine forall₂_congr fun e he => ?_
      rw [← forall_and]
      refine forall_congr' fun x => ?_
      rw [← imp_and]
      exact imp_congr_right fun hx => ih e he x hx (depth + 1)
    -- the whole tree below expires together
    have hexp : (∃ e, (Allowance.multiAny es).expiresAt leafExpiresAt = .ok e) ↔
        ∃ e, ∀ u : Allowance L, u.Sub (.multiAny es) → u.ExpiresNode leafExpiresAt e :=
      exists_congr fun e => expiresAt_eq_ok _ e
    have hcached : (∃ e, ∀ u : Allowance L, u.Sub (.multiAny es) →
        u.ExpiresNode leafExpiresAt e) → ∀ a ∈ es, a.cachedValue.isSome := by
      rintro ⟨e, he⟩
      exact (he _ (.refl _)).1
    have hlen : ¬es.length = 0 ↔ es ≠ [] := by rw [List.length_eq_zero_iff]
    simp only [Run.pure_eq_ok, and_true, hchildren, hexp, hlen, Allowance.ValidNode]
    constructor
    · rintro ⟨hdepth, hne, ⟨-, hrun, hsub⟩, hexpires⟩
      refine ⟨by omega, ⟨⟨hne, hexpires⟩, by omega⟩, hsub⟩
    · rintro ⟨hrun, ⟨⟨hne, hexpires⟩, -⟩, hsub⟩
      exact ⟨by omega, hne, ⟨hcached hexpires, by omega, hsub⟩, hexpires⟩

/-- `ValidateBasic` accepts a tree exactly when every allowance of the tree passes the check of its
kind and no run of directly nested `MultiAnyAllowance`s in it is longer than six. -/
theorem validateBasic_eq_ok (t : Allowance L) :
    t.validateBasic leafExpiresAt leafValidateBasic accAddress = .ok () ↔
      ∀ u : Allowance L, u.Sub t →
        u.ValidNode leafExpiresAt leafValidateBasic accAddress ∧
          u.multiAnyRun ≤ maxMultiAnyAllowanceDepth + 1 := by
  rw [Allowance.validateBasic, validateBasicDepth_eq_ok, Nat.sub_zero]
  constructor
  · rintro ⟨-, hsub⟩
    exact hsub
  · intro hsub
    exact ⟨(hsub t (.refl t)).2, hsub⟩

end Valid

/-! ## The depth limit and `AuthzAllowance`

`maxMultiAnyAllowanceDepth` bounds only runs of directly nested `MultiAnyAllowance`s: an
`AuthzAllowance` between two of them checks the inner one from depth zero again. So `ValidateBasic`
accepts trees in which `MultiAnyAllowance`s are nested through `AuthzAllowance`s to any depth. -/

section Tower

variable {L ε τ : Type} [DecidableEq τ] {leafExpiresAt : L → Except ε (Option τ)}
  {leafValidateBasic : L → Except ε Unit} {accAddress : String → Except ε Unit}

/-- `n` `MultiAnyAllowance`s around `base`, each holding an `AuthzAllowance` of `authzGrantee` that
holds the next, every `Any` made by `NewAnyWithValue`. -/
def authzTower (encode : Allowance L → Bytes) (base : Allowance L) (authzGrantee : String) :
    ℕ → Allowance L
  | 0 => base
  | n + 1 =>
    .multiAny [Any.newWithValue encode
      (.authz (Any.newWithValue encode (authzTower encode base authzGrantee n)) authzGrantee)]

/-- The tower expires when its base does. -/
theorem expiresAt_authzTower (encode : Allowance L → Bytes) (base : Allowance L)
    (authzGrantee : String) (n : ℕ) :
    (authzTower encode base authzGrantee n).expiresAt leafExpiresAt =
      base.expiresAt (τ := τ) leafExpiresAt := by
  induction n with
  | zero => rfl
  | succ n ih =>
    -- a `MultiAnyAllowance` of one allowance expires when that allowance does
    show Allowance.expiresAtFrom leafExpiresAt 0 none false
      [⟨_, some (.authz ⟨_, some (authzTower encode base authzGrantee n)⟩ authzGrantee)⟩] = _
    rw [expiresAtFrom_cons_some, expiresAt_authz_some, ih]
    cases base.expiresAt leafExpiresAt <;> rfl

/-- Every tower of `MultiAnyAllowance`s nested through `AuthzAllowance`s over a valid leaf passes
`ValidateBasic`, however many `MultiAnyAllowance`s it nests: the depth limit never bounds the
nesting of such a tree. -/
theorem nestedThroughAuthz_valid (encode : Allowance L → Bytes) {l : L} {e : Option τ}
    {authzGrantee : String} (hvalid : leafValidateBasic l = .ok ())
    (hexpires : leafExpiresAt l = .ok e) (haddr : accAddress authzGrantee = .ok ()) (n : ℕ) :
    (authzTower encode (.leaf l) authzGrantee n).validateBasic leafExpiresAt leafValidateBasic
      accAddress = .ok () := by
  induction n with
  | zero =>
    show (leafValidateBasic l).mapError _ = _
    rw [hvalid]
    rfl
  | succ n ih =>
    -- the `AuthzAllowance` checks the next `MultiAnyAllowance` from depth zero
    have hauthz : (Allowance.authz (Any.newWithValue encode
        (authzTower encode (.leaf l) authzGrantee n)) authzGrantee).validateBasicDepth
          leafExpiresAt leafValidateBasic accAddress 1 = .ok () := by
      rw [Any.newWithValue, validateBasicDepth_authz_some, haddr]
      exact ih
    have hloop : Allowance.validateAllowances leafExpiresAt leafValidateBasic accAddress 0
        [Any.newWithValue encode (.authz (Any.newWithValue encode
          (authzTower encode (.leaf l) authzGrantee n)) authzGrantee)] = .ok () := by
      rw [Any.newWithValue, validateAllowances_cons_some, hauthz]
      rfl
    have hexp : (Allowance.multiAny [Any.newWithValue encode (.authz (Any.newWithValue encode
        (authzTower encode (.leaf l) authzGrantee n)) authzGrantee)]).expiresAt leafExpiresAt =
          .ok e := by
      show (authzTower encode (.leaf l) authzGrantee (n + 1)).expiresAt leafExpiresAt = _
      rw [expiresAt_authzTower, expiresAt_leaf, hexpires]
      rfl
    show (Allowance.multiAny _).validateBasicDepth leafExpiresAt leafValidateBasic accAddress 0 = _
    rw [validateBasicDepth_multiAny, hloop, hexp]
    rfl

/-- Seven `MultiAnyAllowance`s, one more than a direct run may hold, nested through
`AuthzAllowance`s over a leaf that passes every check. -/
theorem nestedThroughAuthz_valid_seven :
    ((fun _ => .ok ()) : Unit → Except Unit Unit) () = .ok () ∧
      ((fun _ => .ok none) : Unit → Except Unit (Option ℕ)) () = .ok none ∧
      ((fun _ => .ok ()) : String → Except Unit Unit) "xion1grantee" = .ok () ∧
      (authzTower (fun _ => []) (.leaf ()) "xion1grantee" 7).validateBasic
        (fun _ => .ok none : Unit → Except Unit (Option ℕ)) (fun _ => .ok ())
        (fun _ => .ok ()) = .ok () :=
  ⟨rfl, rfl, rfl, nestedThroughAuthz_valid (fun _ => []) rfl rfl rfl 7⟩

end Tower

end Xion.Module
