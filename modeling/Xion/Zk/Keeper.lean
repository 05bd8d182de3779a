import Xion.Zk.Types
import Xion.Lib.SortedMap
import Mathlib.Data.List.Lex
import Mathlib.Order.Fin.Basic

/-!
# The `zk` keeper

`x/zk/keeper`: the verification-key store, which keeps the keys by id (`VKeys`), the next id
(`NextVKeyID`), and an index from names to ids (`VKeyNameIndex`); the handlers of the four
messages; the two store migrations; and genesis import and export. A key is added under the next
id and its name; an update or a removal finds the key through its name and must be sent by the
key's authority, the module's authority standing in for a key that has none.

The store is a state record and the handlers fallible state transformers; `step` applies one
event, a delivered message (rolled back when it fails) or a migration, and `run` a sequence of
them. Keys are stored under the number of their 64-bit id, in the order of the ids.
-/

namespace Xion.Zk

open Bytes Run

/-- The module's store. The parameters item is unset until genesis sets it. -/
structure ZkState where
  params : Option Params
  vkeys : SortedMap ℕ VKey
  nextVKeyID : UInt64
  vkeyNameIndex : SortedMap Bytes UInt64
  deriving DecidableEq

/-- The store before genesis; an unset sequence reads as zero. -/
def ZkState.empty : ZkState := ⟨none, .empty, 0, .empty⟩

section Store

variable (s : ZkState)

/-- `GetParams`: the defaults while unset, with the later limits backfilled. -/
def getParams : Params :=
  match s.params with
  | none => defaultParams
  | some p => p.withMaxLimitDefaults

/-- `SetParams`: backfilled, validated and stored. -/
def setParams (params : Params) : Except ZkError ZkState := do
  params.withMaxLimitDefaults.validate
  pure { s with params := some params.withMaxLimitDefaults }

/-- `VKeys.Get`. -/
def getVKey (id : UInt64) : Option VKey := s.vkeys.get? id.toNat

/-- `VKeys.Set`. -/
def setVKey (id : UInt64) (v : VKey) : ZkState :=
  { s with vkeys := s.vkeys.insert id.toNat v }

/-- `VKeyNameIndex.Get`. -/
def getVKeyID (name : Bytes) : Option UInt64 := s.vkeyNameIndex.get? name

end Store

/-- The authority that a stored key answers to: its own, or the module's when it has none. -/
def effectiveAuthority (moduleAuthority : Bytes) (v : VKey) : Bytes :=
  if v.authority = [] then moduleAuthority else v.authority

/-! ## The keeper's operations -/

section Operations

variable (P : ZkPrimitives) (moduleAuthority : Bytes)

/-- `Keeper.AddVKey`: a new name, bytes that pass the size and format checks, stored under the
next id, which the sequence then passes. Returns the id. -/
def addVKey (s : ZkState) (authority name keyBytes description : Bytes)
    (proofSystem : ProofSystem) : Except ZkError (UInt64 × ZkState) := do
  failIf (getVKeyID s name).isSome .vkeyExists
  let _gasCost ← (getParams s).gasCostForSize (UInt64.ofNat keyBytes.length)
  wrapError .invalidVKey
    (validateVKeyForProofSystem P keyBytes (getParams s).maxVkeySizeBytes proofSystem.orGroth16)
  let id := s.nextVKeyID
  pure (id, { s with
    nextVKeyID := id + 1
    vkeys := s.vkeys.insert id.toNat
      ⟨keyBytes, name, description, [], authority, proofSystem.orGroth16⟩
    vkeyNameIndex := s.vkeyNameIndex.insert name id })

/-- `Keeper.UpdateVKey`: the key of the name, sent by its authority, gets new bytes, description
and proof system; it keeps its id, name and authority. -/
def updateVKey (s : ZkState) (authority name keyBytes description : Bytes)
    (proofSystem : ProofSystem) : Except ZkError ZkState := do
  let id ← ofOption (getVKeyID s name) .vkeyNotFound
  let storedVKey ← ofOption (getVKey s id) .vkeyNotFound
  failIf (effectiveAuthority moduleAuthority storedVKey ≠ authority) .invalidAuthority
  let _gasCost ← (getParams s).gasCostForSize (UInt64.ofNat keyBytes.length)
  wrapError .invalidVKey
    (validateVKeyForProofSystem P keyBytes (getParams s).maxVkeySizeBytes proofSystem.orGroth16)
  pure (setVKey s id ⟨keyBytes, name, description, [],
    effectiveAuthority moduleAuthority storedVKey, proofSystem.orGroth16⟩)

/-- `Keeper.RemoveVKey`: the key of the name, removed by its authority with its index entry. -/
def removeVKey (s : ZkState) (authority name : Bytes) : Except ZkError ZkState := do
  let id ← ofOption (getVKeyID s name) .vkeyNotFound
  let storedVKey ← ofOption (getVKey s id) .vkeyNotFound
  failIf (effectiveAuthority moduleAuthority storedVKey ≠ authority) .invalidAuthority
  pure { s with vkeys := s.vkeys.erase id.toNat, vkeyNameIndex := s.vkeyNameIndex.erase name }

end Operations

/-! ## Messages, migrations and runs -/

/-- The module's messages. -/
inductive ZkMsg
  | addVKey (authority name vkeyBytes description : Bytes) (proofSystem : ProofSystem)
  | updateVKey (authority name vkeyBytes description : Bytes) (proofSystem : ProofSystem)
  | removeVKey (authority name : Bytes)
  | updateParams (authority : Bytes) (params : Params)
  deriving DecidableEq, Repr

/-- The message server: `ValidateBasic` before an add or an update, and the module's authority
for new parameters. -/
def handle (P : ZkPrimitives) (moduleAuthority : Bytes) : ZkMsg → ZkState →
    Except ZkError ZkState
  | .addVKey authority name vkeyBytes description proofSystem, s => do
    validateBasicVKeyMsg P authority name vkeyBytes description proofSystem
    let r ← addVKey P s authority name vkeyBytes description proofSystem
    pure r.2
  | .updateVKey authority name vkeyBytes description proofSystem, s => do
    validateBasicVKeyMsg P authority name vkeyBytes description proofSystem
    updateVKey P moduleAuthority s authority name vkeyBytes description proofSystem
  | .removeVKey authority name, s => removeVKey moduleAuthority s authority name
  | .updateParams authority params, s => do
    failIf (authority ≠ moduleAuthority) .invalidAuthority
    setParams s params

/-- The name of the key that `DefaultGenesisState` lists under id 1. -/
def defaultVKeyName : Bytes := ofAscii "Zk Email"

/-- The key that `DefaultGenesisState` lists under id 1, whose bytes are the JSON that
`CreateDefaultVKeyBytes` writes. -/
def defaultVKey (defaultVKeyBytes : Bytes) : VKey :=
  ⟨defaultVKeyBytes, defaultVKeyName, ofAscii "ZK email Vkey for AA + ZK email", [], [],
    .unspecified⟩

/-- `v2.MigrateStore`: the default key is written under id 1, whatever is stored there, and the
name index is left as it is. -/
def migrate1to2 (defaultVKeyBytes : Bytes) (s : ZkState) : ZkState :=
  if (defaultVKey defaultVKeyBytes).keyBytes ≠ [] then setVKey s 1 (defaultVKey defaultVKeyBytes)
  else s

/-- `v3.MigrateStore`: stored parameters get the Groth16 and UltraHonk limits' defaults where
unset (setting unchanged parameters again changes nothing). -/
def migrate2to3 (s : ZkState) : ZkState :=
  match s.params with
  | none => s
  | some p =>
    { s with params := some { p with
      maxGroth16ProofSizeBytes := orDefault p.maxGroth16ProofSizeBytes
        defaultMaxGroth16ProofSizeBytes
      maxGroth16PublicInputSizeBytes := orDefault p.maxGroth16PublicInputSizeBytes
        defaultMaxGroth16PublicInputSizeBytes
      maxUltraHonkProofSizeBytes := orDefault p.maxUltraHonkProofSizeBytes
        defaultMaxUltraHonkProofSizeBytes
      maxUltraHonkPublicInputSizeBytes := orDefault p.maxUltraHonkPublicInputSizeBytes
        defaultMaxUltraHonkPublicInputSizeBytes } }

/-- What happens to the store: a delivered message, or a migration. -/
inductive ZkEvent
  | deliver (m : ZkMsg)
  | migrate1to2
  | migrate2to3
  deriving DecidableEq, Repr

/-- One event. `defaultVKeyBytes` is the JSON of the default key. -/
def step (P : ZkPrimitives) (moduleAuthority defaultVKeyBytes : Bytes) (s : ZkState) :
    ZkEvent → ZkState
  | .deliver m => commit (handle P moduleAuthority m) s
  | .migrate1to2 => migrate1to2 defaultVKeyBytes s
  | .migrate2to3 => migrate2to3 s

/-- A run of events. -/
def run (P : ZkPrimitives) (moduleAuthority defaultVKeyBytes : Bytes) (s : ZkState)
    (es : List ZkEvent) : ZkState :=
  exec (step P moduleAuthority defaultVKeyBytes) s es

/-! ## Genesis -/

/-- A genesis key without an authority gets the module's. -/
def VKey.withDefaultAuthority (moduleAuthority : Bytes) (v : VKey) : VKey :=
  if v.authority = [] then { v with authority := moduleAuthority } else v

/-- One key of `InitGenesis`: its bytes must be a Circom key under the limit (a failure panics);
it gets the module's authority when it has none, is stored with its index entry, and moves the
sequence past its id, in 64-bit arithmetic. -/
def initGenesisVKey (P : ZkPrimitives) (moduleAuthority : Bytes) (params : Params) (s : ZkState)
    (v : VKeyWithID) : Except ZkError ZkState := do
  validateVKeyBytes P v.vkey.keyBytes params.maxVkeySizeBytes
  let vkey := v.vkey.withDefaultAuthority moduleAuthority
  let s := { s with
    vkeys := s.vkeys.insert v.id.toNat vkey
    vkeyNameIndex := s.vkeyNameIndex.insert vkey.name v.id }
  pure (if v.id ≥ s.nextVKeyID then { s with nextVKeyID := v.id + 1 } else s)

/-- `InitGenesis`; a panic is an error. -/
def initGenesis (P : ZkPrimitives) (moduleAuthority : Bytes) (s : ZkState) (gs : GenesisState) :
    Except ZkError ZkState := do
  gs.effectiveParams.validate
  let s ← setParams s gs.effectiveParams
  gs.vkeys.foldlM (initGenesisVKey P moduleAuthority gs.effectiveParams) s

/-- `ExportGenesis`: the keys in id order, each with the id its name's index entry gives (a
missing entry panics), and the parameters. -/
def exportGenesis (s : ZkState) : Except ZkError GenesisState := do
  let vkeysWithID ← (s.vkeys.entries.map Prod.snd).mapM fun vkey => do
    let id ← ofOption (getVKeyID s vkey.name) .vkeyNotFound
    pure (⟨id, vkey⟩ : VKeyWithID)
  pure ⟨vkeysWithID, getParams s⟩

/-! ## Spec lemmas -/

section Spec

variable {P : ZkPrimitives} {moduleAuthority : Bytes} {s s' : ZkState}

@[simp]
theorem getVKey_insert (id id' : UInt64) (v : VKey) (f : SortedMap Bytes UInt64) (q : UInt64)
    (p : Option Params) :
    getVKey ⟨p, s.vkeys.insert id.toNat v, q, f⟩ id' =
      if id = id' then some v else getVKey s id' := by
  simp [getVKey, UInt64.toNat_inj]

@[simp]
theorem getVKey_erase (id id' : UInt64) (f : SortedMap Bytes UInt64) (q : UInt64)
    (p : Option Params) :
    getVKey ⟨p, s.vkeys.erase id.toNat, q, f⟩ id' = if id' = id then none else getVKey s id' := by
  simp [getVKey, UInt64.toNat_inj]

@[simp]
theorem getVKeyID_insert (n n' : Bytes) (id : UInt64) (vs : SortedMap ℕ VKey) (q : UInt64)
    (p : Option Params) :
    getVKeyID ⟨p, vs, q, s.vkeyNameIndex.insert n id⟩ n' =
      if n = n' then some id else getVKeyID s n' := by
  simp [getVKeyID]

@[simp]
theorem getVKeyID_erase (n n' : Bytes) (vs : SortedMap ℕ VKey) (q : UInt64) (p : Option Params) :
    getVKeyID ⟨p, vs, q, s.vkeyNameIndex.erase n⟩ n' = if n' = n then none else getVKeyID s n' := by
  simp [getVKeyID]

@[simp]
theorem getVKey_setVKey (id id' : UInt64) (v : VKey) :
    getVKey (setVKey s id v) id' = if id = id' then some v else getVKey s id' := by
  simp [getVKey, setVKey, UInt64.toNat_inj]

@[simp]
theorem getVKeyID_setVKey (id : UInt64) (v : VKey) (n : Bytes) :
    getVKeyID (setVKey s id v) n = getVKeyID s n := rfl

theorem setParams_eq_ok {params : Params} :
    setParams s params = .ok s' ↔
      params.withMaxLimitDefaults.validate = .ok () ∧
        s' = { s with params := some params.withMaxLimitDefaults } := by
  simp only [setParams, bind_const_eq_ok, pure_eq_ok, eq_comm (a := s')]

theorem addVKey_eq_ok {authority name keyBytes description : Bytes} {proofSystem : ProofSystem}
    {r : UInt64 × ZkState} :
    addVKey P s authority name keyBytes description proofSystem = .ok r ↔
      getVKeyID s name = none ∧
        (∃ g, (getParams s).gasCostForSize (UInt64.ofNat keyBytes.length) = .ok g) ∧
        validateVKeyForProofSystem P keyBytes (getParams s).maxVkeySizeBytes
          proofSystem.orGroth16 = .ok () ∧
        r = (s.nextVKeyID, ⟨s.params,
          s.vkeys.insert s.nextVKeyID.toNat
            ⟨keyBytes, name, description, [], authority, proofSystem.orGroth16⟩,
          s.nextVKeyID + 1, s.vkeyNameIndex.insert name s.nextVKeyID⟩) := by
  simp only [addVKey, bind_eq_ok, exists_unit, failIf_eq_ok, wrapError_eq_ok, pure_eq_ok,
    Option.not_isSome_iff_eq_none, eq_comm (a := r)]
  constructor
  · rintro ⟨hname, g, hg, hval, rfl⟩
    exact ⟨hname, ⟨g, hg⟩, hval, rfl⟩
  · rintro ⟨hname, ⟨g, hg⟩, hval, rfl⟩
    exact ⟨hname, g, hg, hval, rfl⟩

theorem updateVKey_eq_ok {authority name keyBytes description : Bytes}
    {proofSystem : ProofSystem} :
    updateVKey P moduleAuthority s authority name keyBytes description proofSystem = .ok s' ↔
      ∃ id v, getVKeyID s name = some id ∧ getVKey s id = some v ∧
        effectiveAuthority moduleAuthority v = authority ∧
        (∃ g, (getParams s).gasCostForSize (UInt64.ofNat keyBytes.length) = .ok g) ∧
        validateVKeyForProofSystem P keyBytes (getParams s).maxVkeySizeBytes
          proofSystem.orGroth16 = .ok () ∧
        s' = setVKey s id ⟨keyBytes, name, description, [], effectiveAuthority moduleAuthority v,
          proofSystem.orGroth16⟩ := by
  simp only [updateVKey, bind_eq_ok, exists_unit, failIf_eq_ok, ofOption_eq_ok, wrapError_eq_ok,
    pure_eq_ok, not_not, eq_comm (a := s')]
  constructor
  · rintro ⟨id, hid, v, hv, hauth, g, hg, hval, rfl⟩
    exact ⟨id, v, hid, hv, hauth, ⟨g, hg⟩, hval, rfl⟩
  · rintro ⟨id, v, hid, hv, hauth, ⟨g, hg⟩, hval, rfl⟩
    exact ⟨id, hid, v, hv, hauth, g, hg, hval, rfl⟩

@[simp]
theorem withDefaultAuthority_name (v : VKey) :
    (v.withDefaultAuthority moduleAuthority).name = v.name := by
  unfold VKey.withDefaultAuthority
  split <;> rfl

theorem initGenesisVKey_eq_ok {params : Params} {v : VKeyWithID} :
    initGenesisVKey P moduleAuthority params s v = .ok s' ↔
      validateVKeyBytes P v.vkey.keyBytes params.maxVkeySizeBytes = .ok () ∧
        s' = ⟨s.params, s.vkeys.insert v.id.toNat (v.vkey.withDefaultAuthority moduleAuthority),
          if v.id ≥ s.nextVKeyID then v.id + 1 else s.nextVKeyID,
          s.vkeyNameIndex.insert (v.vkey.withDefaultAuthority moduleAuthority).name v.id⟩ := by
  simp only [initGenesisVKey, bind_const_eq_ok, pure_eq_ok, eq_comm (a := s')]
  split <;> rfl

theorem removeVKey_eq_ok {authority name : Bytes} :
    removeVKey moduleAuthority s authority name = .ok s' ↔
      ∃ id v, getVKeyID s name = some id ∧ getVKey s id = some v ∧
        effectiveAuthority moduleAuthority v = authority ∧
        s' = ⟨s.params, s.vkeys.erase id.toNat, s.nextVKeyID, s.vkeyNameIndex.erase name⟩ := by
  simp only [removeVKey, bind_eq_ok, exists_unit, failIf_eq_ok, ofOption_eq_ok, pure_eq_ok,
    not_not, eq_comm (a := s')]
  constructor
  · rintro ⟨id, hid, v, hv, hauth, rfl⟩
    exact ⟨id, v, hid, hv, hauth, rfl⟩
  · rintro ⟨id, v, hid, hv, hauth, rfl⟩
    exact ⟨id, hid, v, hv, hauth, rfl⟩

end Spec

end Xion.Zk
