import Xion.Lib.SortedMap
import Xion.Lib.Run
import Xion.Lib.Bytes
import Mathlib.Data.List.Lex
import Mathlib.Order.Fin.Basic

/-!
# The audience store of the `jwk` module

An audience is a JWT `aud` value with the key that verifies its tokens and the account that
administers it. Before an account creates an audience it claims the audience's name: the claim is
stored under the SHA-256 hash of the name and records the claimer's address. The module keeps two
prefix stores, audiences under `aud/` and claims under `hash/`, and five messages read and write
them (`msg_server_audience.go`). Genesis loads audiences and parameters, but no claims.

The handlers are translated as fallible state transformers; `step` and `run` deliver messages
with the SDK's rollback of a failed message. The hash, the bech32 address decoder and the jwx
library's `ParseKey` and `Accept` are outside the repository, and the model takes them from
`JwkPrimitives`. A message and a genesis audience check their key in different orders, but accept
the same keys (`validateGenesisKey_eq_ok`).
-/

namespace Xion.Jwk

open Bytes Run

/-! ## Keys

A key is checked when a message or genesis stores it (`messages_audience.go`, `genesis.go`):
`jwk.ParseKey` must parse it, `ValidateJWKKeySize` must accept what `Raw` extracts, `Accept` must
know the text of its algorithm, the algorithm must be neither HMAC nor `none`, and
`validateJWKKeyTypeAlgConsistency` must find the key's type to be the algorithm's. -/

/-- `jwa.KeyType`: the `kty` of a parsed key. -/
inductive KeyType
  | ec
  | okp
  | oct
  | rsa
  deriving DecidableEq, Repr

/-- `jwa.SignatureAlgorithm`: the algorithms that the checks name, and `other` for one they do
not, such as `ES256K`. -/
inductive SignatureAlgorithm
  | rs256 | rs384 | rs512
  | ps256 | ps384 | ps512
  | es256 | es384 | es512
  | edDSA
  | hs256 | hs384 | hs512
  | noSignature
  | other (name : Bytes)
  deriving DecidableEq, Repr

/-- The key behind a parsed JWK, as `key.Raw` returns it, by the case of the type switch in
`ValidateJWKKeySize`: an RSA public key with its modulus, a private key, or a public key of
another kind. -/
inductive RawKey
  | rsaPublic (modulus : ℕ)
  | rsaPrivate
  | ecdsaPublic
  | ecdsaPrivate
  | ed25519Public
  | ed25519Private
  | other
  deriving DecidableEq, Repr

/-- A key as `jwk.ParseKey` returns it, by what the checks read of it: its type, the text of its
`Algorithm()`, and what `Raw` extracts. -/
structure ParsedJwk where
  keyType : KeyType
  algorithm : Bytes
  raw : Except String RawKey

/-- `MaxRSAKeyBits`. -/
def maxRSAKeyBits : ℕ := 4096

/-- The errors of `ValidateJWKKeySize`, each wrapping `ErrInvalidJWK`. -/
inductive KeySizeError
  /-- "unable to extract raw key: %s". -/
  | rawKey (msg : String)
  /-- "RSA key size %d bits exceeds maximum allowed %d bits". -/
  | rsaKeyTooLarge (bits : ℕ)
  /-- "%s private keys must not be stored on-chain; provide a public key", for RSA, ECDSA and
  Ed25519 keys. -/
  | privateKey (kind : String)
  deriving DecidableEq, Repr

/-- `ValidateJWKKeySize`, on what `key.Raw` returns: public keys only, and RSA moduli of at most
`MaxRSAKeyBits` bits. -/
def validateJWKKeySize : Except String RawKey → Except KeySizeError Unit
  | .error e => .error (.rawKey e)
  | .ok (.rsaPublic n) => failIf (bitLen n > maxRSAKeyBits) (.rsaKeyTooLarge (bitLen n))
  | .ok .rsaPrivate => .error (.privateKey "RSA")
  | .ok .ecdsaPrivate => .error (.privateKey "ECDSA")
  | .ok .ed25519Private => .error (.privateKey "Ed25519")
  | .ok .ecdsaPublic | .ok .ed25519Public | .ok .other => .ok ()

/-- Why a key fails its checks, by the text of the error. -/
inductive JwkKeyError
  /-- "key size %d exceeds maximum %d bytes". -/
  | keyTooLarge (size : ℕ)
  /-- "invalid jwk format (%s)", with the error of `jwk.ParseKey`. -/
  | format (msg : String)
  /-- An error of `ValidateJWKKeySize`. -/
  | keySize (e : KeySizeError)
  /-- The error of `SignatureAlgorithm.Accept`. -/
  | algorithm (msg : String)
  /-- "invalid algorithm: %s": an HMAC algorithm or `none`. -/
  | symmetricAlgorithm (alg : SignatureAlgorithm)
  /-- "algorithm %s requires kty=%s, got kty=%s". -/
  | keyTypeMismatch (alg : SignatureAlgorithm) (required got : KeyType)
  deriving DecidableEq, Repr

/-- The algorithms that `ValidateBasic` and genesis refuse: HMAC, and `none`. -/
def SignatureAlgorithm.isSymmetricOrNone : SignatureAlgorithm → Bool
  | .hs256 | .hs384 | .hs512 | .noSignature => true
  | _ => false

/-- The key type that `validateJWKKeyTypeAlgConsistency` requires of an algorithm, where its
switch names one. -/
def SignatureAlgorithm.requiredKeyType : SignatureAlgorithm → Option KeyType
  | .rs256 | .rs384 | .rs512 | .ps256 | .ps384 | .ps512 => some .rsa
  | .es256 | .es384 | .es512 => some .ec
  | .edDSA => some .okp
  | _ => none

/-- `validateJWKKeyTypeAlgConsistency`. -/
def validateJWKKeyTypeAlgConsistency (key : ParsedJwk) (sigAlg : SignatureAlgorithm) :
    Except JwkKeyError Unit :=
  match sigAlg.requiredKeyType with
  | some kty => failIf (key.keyType ≠ kty) (.keyTypeMismatch sigAlg kty key.keyType)
  | none => pure ()

/-! ## Data -/

/-- The errors of the audience handlers and of genesis validation, by the SDK error they wrap. -/
inductive JwkError
  /-- `ErrInvalidRequest`: "audience already claimed", "audience already created", or a
  parameter out of range. -/
  | invalidRequest
  /-- `ErrKeyNotFound`: "index not set". -/
  | keyNotFound
  /-- `ErrUnauthorized`: "incorrect owner". -/
  | unauthorized
  /-- `ErrNotFound`: "claim not found for aud". -/
  | notFound
  /-- `ErrorInvalidSigner`: "expected <claim signer>, got <admin>". -/
  | invalidSigner
  /-- `ErrInvalidAddress`: an address that `AccAddressFromBech32` rejects. -/
  | invalidAddress
  /-- "duplicated index for audience". -/
  | duplicatedIndex
  /-- `ErrInvalidJWK`, around the reason a key fails its checks; in genesis the text names the
  audience. -/
  | invalidJwk (cause : JwkKeyError)
  /-- An error of no registered kind, which `ValidateBasic` returns for a key's algorithm: the
  error of `Accept` as it is, or "invalid algorithm: %s". -/
  | unregistered (cause : JwkKeyError)
  deriving DecidableEq, Repr

/-- The functions outside the repository that the audience handlers and genesis call. -/
structure JwkPrimitives where
  /-- `sha256.Sum256`. -/
  sha256 : Bytes → Bytes
  /-- `sdk.AccAddressFromBech32` followed by `AccAddress.String`: the canonical text of the
  account a bech32 string names, and none for a string that is not an account address. -/
  accAddress : Bytes → Option Bytes
  /-- `jwk.ParseKey`. -/
  parseKey : Bytes → Except String ParsedJwk
  /-- `SignatureAlgorithm.Accept` of a text: the algorithm of that name, or the library's error
  for a name it does not know. -/
  acceptSignatureAlgorithm : Bytes → Except String SignatureAlgorithm

/-- `types.Audience`. -/
structure Audience where
  admin : Bytes
  aud : Bytes
  key : Bytes
  deriving DecidableEq, Repr

/-- `types.AudienceClaim`: the address of the account that holds a claim. -/
structure AudienceClaim where
  signer : Bytes
  deriving DecidableEq, Repr

/-- `types.Params`. -/
structure Params where
  timeOffset : UInt64
  deploymentGas : UInt64
  deriving DecidableEq, Repr

/-- `DefaultParams`: thirty seconds of clock skew and 10 000 gas for a claim. -/
def defaultParams : Params := ⟨30000000000, 10000⟩

/-- `validateDeploymentGas`. -/
def validateDeploymentGas (v : UInt64) : Except JwkError Unit :=
  failIf (v = 0) .invalidRequest

/-- `validateTimeOffset`: positive, and an `int64` for the JWT clock. -/
def validateTimeOffset (v : UInt64) : Except JwkError Unit := do
  failIf (v = 0) .invalidRequest
  failIf (v.toNat > 2 ^ 63 - 1) .invalidRequest

/-- `Params.Validate`. -/
def Params.validate (p : Params) : Except JwkError Unit := do
  validateDeploymentGas p.deploymentGas
  validateTimeOffset p.timeOffset

/-- `MaxJWKKeySize`. -/
def maxJWKKeySize : ℕ := 2048

/-- `AudienceKey`: the name followed by `/`. -/
def audienceKey (aud : Bytes) : Bytes := aud ++ [47]

/-- `AudienceClaimKey`: the hash followed by `/`. -/
def audienceClaimKey (hash : Bytes) : Bytes := hash ++ [47]

theorem audienceKey_injective : Function.Injective audienceKey :=
  fun _ _ h => List.append_cancel_right h

theorem audienceClaimKey_injective : Function.Injective audienceClaimKey :=
  fun _ _ h => List.append_cancel_right h

/-- The module's store: its parameters, and the audience and claim prefix stores, each keyed by
its store key. -/
structure JwkState where
  params : Params
  audiences : SortedMap Bytes Audience
  claims : SortedMap Bytes AudienceClaim
  deriving DecidableEq

/-- The store before genesis. -/
def JwkState.empty : JwkState := ⟨defaultParams, .empty, .empty⟩

/-! ## The store accessors of `audience.go` -/

section Store

variable (s : JwkState)

/-- `SetAudienceClaim`: the claim records the address's canonical text. -/
def setAudienceClaim (hash signer : Bytes) : JwkState :=
  { s with claims := s.claims.insert (audienceClaimKey hash) ⟨signer⟩ }

/-- `GetAudienceClaim`. -/
def getAudienceClaim (hash : Bytes) : Option AudienceClaim :=
  s.claims.get? (audienceClaimKey hash)

/-- `RemoveAudienceClaim`. -/
def removeAudienceClaim (hash : Bytes) : JwkState :=
  { s with claims := s.claims.erase (audienceClaimKey hash) }

/-- `SetAudience`: stored under the key of its own name. -/
def setAudience (a : Audience) : JwkState :=
  { s with audiences := s.audiences.insert (audienceKey a.aud) a }

/-- `GetAudience`. -/
def getAudience (aud : Bytes) : Option Audience :=
  s.audiences.get? (audienceKey aud)

/-- `RemoveAudience`. -/
def removeAudience (aud : Bytes) : JwkState :=
  { s with audiences := s.audiences.erase (audienceKey aud) }

/-- `GetAllAudience`: the audiences in the order of their keys. -/
def getAllAudience : List Audience :=
  s.audiences.entries.map Prod.snd

end Store

/-! ## The handlers of `msg_server_audience.go`

The gas that `CreateAudienceClaim` charges is left out: running out of it fails the message,
which leaves the store as it was. -/

section Handlers

variable (P : JwkPrimitives)

/-- `CreateAudienceClaim`: an unclaimed hash is claimed for the sender's address. -/
def createAudienceClaim (admin audHash : Bytes) (s : JwkState) : Except JwkError JwkState := do
  failIf (getAudienceClaim s audHash).isSome .invalidRequest
  let addr ← ofOption (P.accAddress admin) .invalidAddress
  pure (setAudienceClaim s audHash addr)

/-- `DeleteAudienceClaim`: the holder of a claim releases it. -/
def deleteAudienceClaim (admin audHash : Bytes) (s : JwkState) : Except JwkError JwkState := do
  let valFound ← ofOption (getAudienceClaim s audHash) .keyNotFound
  failIf (admin ≠ valFound.signer) .unauthorized
  pure (removeAudienceClaim s audHash)

/-- `CreateAudience`: a new name whose claim the sender holds. -/
def createAudience (admin aud key : Bytes) (s : JwkState) : Except JwkError JwkState := do
  failIf (getAudience s aud).isSome .invalidRequest
  let claim ← ofOption (getAudienceClaim s (P.sha256 aud)) .notFound
  failIf (claim.signer ≠ admin) .invalidSigner
  pure (setAudience s ⟨admin, aud, key⟩)

/-- The renaming block of `UpdateAudience`, for a non-empty `NewAud`: the new name must be free
and claimed by the sender; the old audience and its claim are removed, and the updated audience
takes the new name. -/
def renameAudience (admin newAud : Bytes) (valFound audience : Audience) (s : JwkState) :
    Except JwkError (JwkState × Audience) :=
  if newAud ≠ [] then do
    failIf (getAudience s newAud).isSome .invalidRequest
    let claim ← ofOption (getAudienceClaim s (P.sha256 newAud)) .notFound
    failIf (claim.signer ≠ admin) .invalidSigner
    pure (removeAudienceClaim (removeAudience s valFound.aud) (P.sha256 valFound.aud),
      { audience with aud := newAud })
  else pure (s, audience)

/-- The transfer block of `UpdateAudience`, for a new admin: the claim of the audience's name is
replaced by one for the new admin. -/
def transferAudience (admin newAdmin : Bytes) (audience : Audience) (s : JwkState) :
    Except JwkError JwkState :=
  if newAdmin ≠ admin then do
    let newAdminAddr ← ofOption (P.accAddress newAdmin) .invalidAddress
    pure (setAudienceClaim (removeAudienceClaim s (P.sha256 audience.aud)) (P.sha256 audience.aud)
      newAdminAddr)
  else pure s

/-- `UpdateAudience`: the admin sets the key, and may rename the audience and hand it to a new
admin. -/
def updateAudience (admin newAdmin aud newAud key : Bytes) (s : JwkState) :
    Except JwkError JwkState := do
  let valFound ← ofOption (getAudience s aud) .keyNotFound
  failIf (admin ≠ valFound.admin) .unauthorized
  let renamed ← renameAudience P admin newAud valFound ⟨newAdmin, aud, key⟩ s
  let s ← transferAudience P admin newAdmin renamed.2 renamed.1
  pure (setAudience s renamed.2)

/-- `DeleteAudience`: the admin removes the audience and its claim. -/
def deleteAudience (admin aud : Bytes) (s : JwkState) : Except JwkError JwkState := do
  let valFound ← ofOption (getAudience s aud) .keyNotFound
  failIf (admin ≠ valFound.admin) .unauthorized
  pure (removeAudienceClaim (removeAudience s aud) (P.sha256 aud))

end Handlers

/-- The audience messages; `admin` is the signer of each. -/
inductive JwkMsg
  | createAudienceClaim (admin audHash : Bytes)
  | deleteAudienceClaim (admin audHash : Bytes)
  | createAudience (admin aud key : Bytes)
  | updateAudience (admin newAdmin aud newAud key : Bytes)
  | deleteAudience (admin aud : Bytes)
  deriving DecidableEq, Repr

/-- `MaxAudSize`. -/
def maxAudSize : ℕ := 512

/-- The checks of a message's key after the sizes, in `MsgCreateAudience.ValidateBasic` and
`MsgUpdateAudience.ValidateBasic`. The errors of the algorithm are returned unwrapped. -/
def validateMsgKey (P : JwkPrimitives) (key : Bytes) : Except JwkError Unit := do
  let k ← (P.parseKey key).mapError fun e => .invalidJwk (.format e)
  (validateJWKKeySize k.raw).mapError fun e => .invalidJwk (.keySize e)
  let sigAlg ← (P.acceptSignatureAlgorithm k.algorithm).mapError fun e =>
    .unregistered (.algorithm e)
  failIf (sigAlg.isSymmetricOrNone = true) (.unregistered (.symmetricAlgorithm sigAlg))
  (validateJWKKeyTypeAlgConsistency k sigAlg).mapError .invalidJwk

/-- `ValidateBasic` of each message, before it reaches its handler. -/
def JwkMsg.validateBasic (P : JwkPrimitives) : JwkMsg → Except JwkError Unit
  | .createAudienceClaim admin audHash => do
    let _ ← ofOption (P.accAddress admin) .invalidAddress
    failIf (audHash.length ≠ 32) .invalidRequest
  | .deleteAudienceClaim admin audHash => do
    let _ ← ofOption (P.accAddress admin) .invalidAddress
    failIf (audHash.length ≠ 32) .invalidRequest
  | .createAudience admin aud key => do
    let _ ← ofOption (P.accAddress admin) .invalidAddress
    failIf (key.length > maxJWKKeySize) (.invalidJwk (.keyTooLarge key.length))
    failIf (aud.length > maxAudSize) .invalidRequest
    validateMsgKey P key
  | .updateAudience admin newAdmin aud newAud key => do
    let _ ← ofOption (P.accAddress newAdmin) .invalidAddress
    let _ ← ofOption (P.accAddress admin) .invalidAddress
    failIf (key.length > maxJWKKeySize) (.invalidJwk (.keyTooLarge key.length))
    failIf (aud.length > maxAudSize) .invalidRequest
    failIf (newAud.length > maxAudSize) .invalidRequest
    validateMsgKey P key
  | .deleteAudience admin _ => do
    let _ ← ofOption (P.accAddress admin) .invalidAddress

/-- The handler of a message. -/
def handle (P : JwkPrimitives) : JwkMsg → JwkState → Except JwkError JwkState
  | .createAudienceClaim admin audHash => createAudienceClaim P admin audHash
  | .deleteAudienceClaim admin audHash => deleteAudienceClaim admin audHash
  | .createAudience admin aud key => createAudience P admin aud key
  | .updateAudience admin newAdmin aud newAud key => updateAudience P admin newAdmin aud newAud key
  | .deleteAudience admin aud => deleteAudience P admin aud

/-- One delivered message: its writes when it succeeds, none when it fails. -/
def step (P : JwkPrimitives) (s : JwkState) (m : JwkMsg) : JwkState := commit (handle P m) s

/-- A run of messages. -/
def run (P : JwkPrimitives) (s : JwkState) (ms : List JwkMsg) : JwkState := exec (step P) s ms

/-- A message as the SDK delivers it: `ValidateBasic` first, then the handler; a message that
fails either leaves the store as it was. -/
def deliver (P : JwkPrimitives) (s : JwkState) (m : JwkMsg) : JwkState :=
  commit (fun s => do m.validateBasic P; handle P m s) s

/-- A run of delivered messages. -/
def deliverRun (P : JwkPrimitives) (s : JwkState) (ms : List JwkMsg) : JwkState :=
  exec (deliver P) s ms

/-! ## Genesis -/

/-- `types.GenesisState`. -/
structure GenesisState where
  audienceList : List Audience
  params : Params

/-- The checks of a non-empty genesis key: its size, then those of a message's key with the
algorithm's before `ValidateJWKKeySize`, every error wrapped in `ErrInvalidJWK`. -/
def validateGenesisKey (P : JwkPrimitives) (key : Bytes) : Except JwkError Unit := do
  failIf (key.length > maxJWKKeySize) (.invalidJwk (.keyTooLarge key.length))
  let k ← (P.parseKey key).mapError fun e => .invalidJwk (.format e)
  let sigAlg ← (P.acceptSignatureAlgorithm k.algorithm).mapError fun e =>
    .invalidJwk (.algorithm e)
  failIf (sigAlg.isSymmetricOrNone = true) (.invalidJwk (.symmetricAlgorithm sigAlg))
  (validateJWKKeySize k.raw).mapError fun e => .invalidJwk (.keySize e)
  (validateJWKKeyTypeAlgConsistency k sigAlg).mapError .invalidJwk

/-- One audience of `GenesisState.Validate`: the admin is an address, the name is new, and a
non-empty key passes its checks. The names seen so far are kept as their store keys. -/
def validateGenesisAudience (P : JwkPrimitives) (seen : List Bytes) (elem : Audience) :
    Except JwkError (List Bytes) := do
  let _ ← ofOption (P.accAddress elem.admin) .invalidAddress
  failIf (audienceKey elem.aud ∈ seen) .duplicatedIndex
  if elem.key ≠ [] then validateGenesisKey P elem.key
  pure (audienceKey elem.aud :: seen)

/-- `GenesisState.Validate`. -/
def GenesisState.validate (P : JwkPrimitives) (gs : GenesisState) : Except JwkError Unit := do
  let _ ← gs.audienceList.foldlM (validateGenesisAudience P) []
  gs.params.validate

/-- `InitGenesis`: every audience is set, then the parameters; no claim is written. -/
def initGenesis (s : JwkState) (gs : GenesisState) : JwkState :=
  { gs.audienceList.foldl setAudience s with params := gs.params }

/-- `ExportGenesis`. -/
def exportGenesis (s : JwkState) : GenesisState := ⟨getAllAudience s, s.params⟩

/-! ## Spec lemmas -/

section Spec

variable {P : JwkPrimitives} {s s' : JwkState}

@[simp]
theorem getAudienceClaim_setAudienceClaim (h h' signer : Bytes) :
    getAudienceClaim (setAudienceClaim s h signer) h' =
      if h = h' then some ⟨signer⟩ else getAudienceClaim s h' := by
  simp [getAudienceClaim, setAudienceClaim, audienceClaimKey_injective.eq_iff]

@[simp]
theorem getAudienceClaim_removeAudienceClaim (h h' : Bytes) :
    getAudienceClaim (removeAudienceClaim s h) h' =
      if h' = h then none else getAudienceClaim s h' := by
  simp [getAudienceClaim, removeAudienceClaim, audienceClaimKey_injective.eq_iff]

theorem createAudienceClaim_eq_ok {admin audHash : Bytes} :
    createAudienceClaim P admin audHash s = .ok s' ↔
      getAudienceClaim s audHash = none ∧
        ∃ addr, P.accAddress admin = some addr ∧ s' = setAudienceClaim s audHash addr := by
  simp only [createAudienceClaim, bind_eq_ok, exists_unit, failIf_eq_ok, ofOption_eq_ok,
    pure_eq_ok, Option.not_isSome_iff_eq_none, eq_comm (a := s')]

theorem deleteAudienceClaim_eq_ok {admin audHash : Bytes} :
    deleteAudienceClaim admin audHash s = .ok s' ↔
      getAudienceClaim s audHash = some ⟨admin⟩ ∧ s' = removeAudienceClaim s audHash := by
  simp only [deleteAudienceClaim, bind_eq_ok, exists_unit, failIf_eq_ok, ofOption_eq_ok,
    pure_eq_ok, not_not, eq_comm (a := s')]
  constructor
  · rintro ⟨c, hc, rfl, rfl⟩
    exact ⟨hc, rfl⟩
  · rintro ⟨hc, rfl⟩
    exact ⟨_, hc, rfl, rfl⟩

theorem createAudience_eq_ok {admin aud key : Bytes} :
    createAudience P admin aud key s = .ok s' ↔
      getAudience s aud = none ∧ getAudienceClaim s (P.sha256 aud) = some ⟨admin⟩ ∧
        s' = setAudience s ⟨admin, aud, key⟩ := by
  simp only [createAudience, bind_eq_ok, exists_unit, failIf_eq_ok, ofOption_eq_ok, pure_eq_ok,
    Option.not_isSome_iff_eq_none, not_not, eq_comm (a := s')]
  constructor
  · rintro ⟨hnone, c, hc, rfl, rfl⟩
    exact ⟨hnone, hc, rfl⟩
  · rintro ⟨hnone, hc, rfl⟩
    exact ⟨hnone, _, hc, rfl, rfl⟩

theorem deleteAudience_eq_ok {admin aud : Bytes} :
    deleteAudience P admin aud s = .ok s' ↔
      ∃ a, getAudience s aud = some a ∧ a.admin = admin ∧
        s' = removeAudienceClaim (removeAudience s aud) (P.sha256 aud) := by
  simp only [deleteAudience, bind_eq_ok, exists_unit, failIf_eq_ok, ofOption_eq_ok, pure_eq_ok,
    not_not, eq_comm (a := s'), eq_comm (a := admin)]

@[simp]
theorem getAudience_setAudience (a : Audience) (n : Bytes) :
    getAudience (setAudience s a) n = if a.aud = n then some a else getAudience s n := by
  simp [getAudience, setAudience, audienceKey_injective.eq_iff]

@[simp]
theorem getAudience_removeAudience (aud n : Bytes) :
    getAudience (removeAudience s aud) n = if n = aud then none else getAudience s n := by
  simp [getAudience, removeAudience, audienceKey_injective.eq_iff]

@[simp]
theorem getAudience_setAudienceClaim (h signer n : Bytes) :
    getAudience (setAudienceClaim s h signer) n = getAudience s n := rfl

@[simp]
theorem getAudience_removeAudienceClaim (h n : Bytes) :
    getAudience (removeAudienceClaim s h) n = getAudience s n := rfl

@[simp]
theorem getAudienceClaim_setAudience (a : Audience) (h : Bytes) :
    getAudienceClaim (setAudience s a) h = getAudienceClaim s h := rfl

@[simp]
theorem getAudienceClaim_removeAudience (aud h : Bytes) :
    getAudienceClaim (removeAudience s aud) h = getAudienceClaim s h := rfl

/-- Setting an audience overwrites whatever was stored under its name. -/
theorem setAudience_removeAudience (a : Audience) :
    setAudience (removeAudience s a.aud) a = setAudience s a := by
  simp only [setAudience, removeAudience, SortedMap.insert_erase_self]

theorem renameAudience_eq_ok {admin newAud : Bytes} {valFound audience : Audience}
    {r : JwkState × Audience} :
    renameAudience P admin newAud valFound audience s = .ok r ↔
      (newAud = [] ∧ r = (s, audience)) ∨
        (newAud ≠ [] ∧ getAudience s newAud = none ∧
          getAudienceClaim s (P.sha256 newAud) = some ⟨admin⟩ ∧
          r = (removeAudienceClaim (removeAudience s valFound.aud) (P.sha256 valFound.aud),
            { audience with aud := newAud })) := by
  unfold renameAudience
  by_cases hnew : newAud = []
  · simp only [hnew, ne_eq, not_true_eq_false, if_false, pure_eq_ok, true_and, false_and,
      or_false, eq_comm (a := r)]
  · simp only [ne_eq, hnew, not_false_eq_true, if_true, bind_eq_ok, exists_unit, failIf_eq_ok,
      ofOption_eq_ok, pure_eq_ok, Option.not_isSome_iff_eq_none, not_not, false_and, false_or,
      true_and, eq_comm (a := r)]
    constructor
    · rintro ⟨hnone, c, hc, rfl, rfl⟩
      exact ⟨hnone, hc, rfl⟩
    · rintro ⟨hnone, hc, rfl⟩
      exact ⟨hnone, _, hc, rfl, rfl⟩

theorem transferAudience_eq_ok {admin newAdmin : Bytes} {audience : Audience} :
    transferAudience P admin newAdmin audience s = .ok s' ↔
      (newAdmin = admin ∧ s' = s) ∨
        (newAdmin ≠ admin ∧ ∃ addr, P.accAddress newAdmin = some addr ∧
          s' = setAudienceClaim (removeAudienceClaim s (P.sha256 audience.aud))
            (P.sha256 audience.aud) addr) := by
  unfold transferAudience
  by_cases hnew : newAdmin = admin
  · simp only [hnew, ne_eq, not_true_eq_false, if_false, pure_eq_ok, true_and, false_and,
      or_false, eq_comm (a := s')]
  · simp only [ne_eq, hnew, not_false_eq_true, if_true, bind_eq_ok, ofOption_eq_ok, pure_eq_ok,
      false_and, false_or, true_and, eq_comm (a := s')]

theorem updateAudience_eq_ok {admin newAdmin aud newAud key : Bytes} :
    updateAudience P admin newAdmin aud newAud key s = .ok s' ↔
      ∃ valFound, getAudience s aud = some valFound ∧ valFound.admin = admin ∧
        ∃ r, renameAudience P admin newAud valFound ⟨newAdmin, aud, key⟩ s = .ok r ∧
          ∃ t, transferAudience P admin newAdmin r.2 r.1 = .ok t ∧ s' = setAudience t r.2 := by
  simp only [updateAudience, bind_eq_ok, exists_unit, failIf_eq_ok, ofOption_eq_ok, pure_eq_ok,
    not_not, eq_comm (a := s'), eq_comm (a := admin)]

end Spec

/-! ## The keys both checks accept -/

/-- A key that the checks of `ValidateBasic` and of genesis accept: it parses to a key that
`ValidateJWKKeySize` accepts, whose algorithm `Accept` knows, is neither HMAC nor `none`, and
matches the key's type. -/
def KeyAccepted (P : JwkPrimitives) (key : Bytes) : Prop :=
  ∃ k, P.parseKey key = .ok k ∧ validateJWKKeySize k.raw = .ok () ∧
    ∃ sigAlg, P.acceptSignatureAlgorithm k.algorithm = .ok sigAlg ∧
      sigAlg.isSymmetricOrNone = false ∧ validateJWKKeyTypeAlgConsistency k sigAlg = .ok ()

section Keys

variable {P : JwkPrimitives} {key : Bytes}

theorem validateMsgKey_eq_ok : validateMsgKey P key = .ok () ↔ KeyAccepted P key := by
  simp only [validateMsgKey, KeyAccepted, bind_eq_ok, mapError_eq_ok, exists_unit, failIf_eq_ok,
    Bool.not_eq_true]

instance instDecidableKeyAccepted : Decidable (KeyAccepted P key) :=
  decidable_of_iff _ validateMsgKey_eq_ok

/-- Genesis checks a key's algorithm before `ValidateJWKKeySize`, where `ValidateBasic` checks it
after, and wraps the algorithm's errors, where `ValidateBasic` does not; the keys of at most
`MaxJWKKeySize` bytes that the two accept are the same. -/
theorem validateGenesisKey_eq_ok :
    validateGenesisKey P key = .ok () ↔ key.length ≤ maxJWKKeySize ∧ KeyAccepted P key := by
  simp only [validateGenesisKey, KeyAccepted, bind_eq_ok, mapError_eq_ok, exists_unit,
    failIf_eq_ok, Bool.not_eq_true, not_lt]
  refine and_congr_right fun _ => ⟨?_, ?_⟩
  · rintro ⟨k, hk, sigAlg, halg, hsym, hsize, hcons⟩
    exact ⟨k, hk, hsize, sigAlg, halg, hsym, hcons⟩
  · rintro ⟨k, hk, hsize, sigAlg, halg, hsym, hcons⟩
    exact ⟨k, hk, sigAlg, halg, hsym, hsize, hcons⟩

end Keys

end Xion.Jwk
