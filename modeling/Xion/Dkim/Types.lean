import Xion.Lib.Bytes
import Xion.Lib.Run
import Mathlib.Order.Lex

/-!
# The DKIM module's records, parameters, and their validation

`x/dkim/types`: the stored record `DkimPubKey`, the parameters with the layout of the
Authenticate query's public inputs (`PublicInputIndices`), their defaults, and the checks
`IndexRange.Validate`, `PublicInputIndices.Validate`, and `Params.Validate` of `params.go`, with
`validateDkimPubKeyMetadata` of `msgs.go`. Go strings of this module are byte strings: the
domain that Authenticate decodes from field elements need not be valid UTF-8, and it is compared
byte for byte with stored domains.

Errors carry the sentinel of `errors.go` and, where the source formats one, the field that failed
(`Params.validate_error`: every error of `Params.Validate` names a field of the parameters).
-/

namespace Xion.Dkim

/-- The errors of `x/dkim`, by sentinel; a validation error keeps the field name it reports. -/
inductive DkimError where
  /-- `ErrInvalidParams`, naming the offending field. -/
  | invalidParams (field : String)
  /-- `ErrInvalidKeyType`. -/
  | invalidKeyType
  /-- `ErrInvalidVersion`. -/
  | invalidVersion
  /-- `ErrInvalidPubKey`: undecodable, unparsable, too small, or without a Poseidon hash. -/
  | invalidPubKey
  /-- `ErrNotRSAKey`. -/
  | notRSAKey
  /-- `ErrPubKeyTooLarge`. -/
  | pubKeyTooLarge
  /-- `ErrInvalidatedKey`: the key is revoked. -/
  | invalidatedKey
  /-- `ErrParsingPubKey`. -/
  | parsingPubKey
  /-- `ErrParsingPrivKey`. -/
  | parsingPrivKey
  /-- `sdkerrors.ErrInvalidRequest`. -/
  | invalidRequest
  /-- `govtypes.ErrInvalidSigner`: the message's authority is not the module's. -/
  | invalidSigner
  /-- `collections.ErrNotFound`. -/
  | notFound
  /-- A key that the store's key codec cannot encode. -/
  | encoding
  /-- `ErrProofTooLarge`. -/
  | proofTooLarge
  /-- `ErrNotEnoughPublicInputs`. -/
  | notEnoughPublicInputs
  /-- `ErrEmailHashMismatch`. -/
  | emailHashMismatch
  /-- `ErrInvalidPublicInput`. -/
  | invalidPublicInput
  /-- `ErrTxBytesMismatch`. -/
  | txBytesMismatch
  /-- `ErrNoDkimPubKey`. -/
  | noDkimPubKey
  /-- A run-time panic: an index or slice bound out of range. -/
  | panic
  deriving DecidableEq, Repr

/-- Go's `s[i]`: the element at `i`, a panic past the end. -/
def index {α : Type} (l : List α) (i : ℕ) : Except DkimError α :=
  match l[i]? with
  | some a => .ok a
  | none => .error .panic

/-- Go's `s[a:b]` on a slice whose capacity is its length: a panic unless `a ≤ b ≤ len(s)`. -/
def slice {α : Type} (l : List α) (a b : ℕ) : Except DkimError (List α) :=
  if a ≤ b ∧ b ≤ l.length then .ok ((l.take b).drop a) else .error .panic

section Access

variable {α : Type} {l : List α}

theorem index_of_lt {i : ℕ} (h : i < l.length) : index l i = .ok l[i] := by
  rw [index, List.getElem?_eq_getElem h]

theorem index_of_le {i : ℕ} (h : l.length ≤ i) : index l i = .error .panic := by
  rw [index, List.getElem?_eq_none h]

theorem slice_of_le {a b : ℕ} (hab : a ≤ b) (hb : b ≤ l.length) :
    slice l a b = .ok ((l.take b).drop a) :=
  if_pos ⟨hab, hb⟩

end Access

/-- `DkimPubKey`: a DKIM public key record. `version` and `keyType` are protobuf enums, whose
only named value is `0`. -/
structure DkimPubKey where
  domain : Bytes
  pubKey : Bytes
  selector : Bytes
  poseidonHash : Bytes
  version : Int32
  keyType : Int32
  deriving DecidableEq, Repr

/-- `Version_VERSION_DKIM1_UNSPECIFIED`. -/
def versionDkim1Unspecified : Int32 := 0

/-- `KeyType_KEY_TYPE_RSA_UNSPECIFIED`. -/
def keyTypeRsaUnspecified : Int32 := 0

/-- `IndexRange`: a half-open range `[start, end)` of public inputs. -/
structure IndexRange where
  start : UInt64
  «end» : UInt64
  deriving DecidableEq, Repr

/-- `PublicInputIndices`: where Authenticate finds each value among the public inputs. -/
structure PublicInputIndices where
  minLength : UInt64
  emailHashIndex : UInt64
  dkimDomainRange : IndexRange
  dkimHashIndex : UInt64
  txBytesRange : IndexRange
  emailHostRange : IndexRange
  emailSubjectRange : IndexRange
  deriving DecidableEq, Repr

/-- `Params` of the DKIM module. -/
structure Params where
  vkeyIdentifier : UInt64
  maxPubkeySizeBytes : UInt64
  publicInputIndices : PublicInputIndices
  deriving DecidableEq, Repr

/-- `GenesisState` of the DKIM module. -/
structure GenesisState where
  params : Params
  dkimPubkeys : List DkimPubKey
  revokedPubkeys : List Bytes
  deriving DecidableEq, Repr

/-- `DefaultMaxPubKeySizeBytes`. -/
def defaultMaxPubKeySizeBytes : UInt64 := 512

/-- `DefaultMinRSAKeyBits`. -/
def defaultMinRSAKeyBits : ℕ := 1024

/-- `ValidateBasicMaxPubKeySizeBytes`. -/
def validateBasicMaxPubKeySizeBytes : UInt64 := 2048

/-- `MaxDKIMProofSizeBytes`. -/
def maxDKIMProofSizeBytes : UInt64 := 4 * 1024

/-- `DefaultPublicInputIndices`. -/
def defaultPublicInputIndices : PublicInputIndices where
  minLength := 88
  emailHashIndex := 68
  dkimDomainRange := ⟨0, 9⟩
  dkimHashIndex := 9
  txBytesRange := ⟨12, 68⟩
  emailHostRange := ⟨70, 79⟩
  emailSubjectRange := ⟨79, 88⟩

/-- `DefaultParams`. -/
def defaultParams : Params where
  vkeyIdentifier := 1
  maxPubkeySizeBytes := defaultMaxPubKeySizeBytes
  publicInputIndices := defaultPublicInputIndices

/-! ## Validation -/

open Run (failIf)

/-- `IndexRange.Validate`: the range is non-empty. -/
def IndexRange.validate (r : IndexRange) (name : String) : Except DkimError Unit :=
  failIf (r.end ≤ r.start) (.invalidParams name)

/-- An index below the minimal length, as `PublicInputIndices.Validate` checks each index. -/
def checkIndexBelow (index minLength : UInt64) (name : String) : Except DkimError Unit :=
  failIf (index ≥ minLength) (.invalidParams name)

/-- A range ending within the minimal length, as `PublicInputIndices.Validate` checks each
range. -/
def checkRangeWithin (r : IndexRange) (minLength : UInt64) (name : String) :
    Except DkimError Unit :=
  failIf (r.end > minLength) (.invalidParams name)

/-- `PublicInputIndices.Validate`. -/
def PublicInputIndices.validate (p : PublicInputIndices) : Except DkimError Unit := do
  failIf (p.minLength = 0) (.invalidParams "min_length")
  p.dkimDomainRange.validate "dkim_domain_range"
  p.txBytesRange.validate "tx_bytes_range"
  p.emailHostRange.validate "email_host_range"
  p.emailSubjectRange.validate "email_subject_range"
  checkIndexBelow p.emailHashIndex p.minLength "email_hash_index"
  checkIndexBelow p.dkimHashIndex p.minLength "dkim_hash_index"
  checkRangeWithin p.dkimDomainRange p.minLength "dkim_domain_range.end"
  checkRangeWithin p.txBytesRange p.minLength "tx_bytes_range.end"
  checkRangeWithin p.emailHostRange p.minLength "email_host_range.end"
  checkRangeWithin p.emailSubjectRange p.minLength "email_subject_range.end"

/-- `Params.Validate`. -/
def Params.validate (p : Params) : Except DkimError Unit := do
  failIf (p.maxPubkeySizeBytes ≤ 0) (.invalidParams "max_pubkey_size_bytes")
  failIf (p.vkeyIdentifier = 0) (.invalidParams "vkey_identifier")
  p.publicInputIndices.validate

/-- `validateDkimPubKeyMetadata`: only RSA keys of DKIM version 1. -/
def validateDkimPubKeyMetadata (k : DkimPubKey) : Except DkimError Unit :=
  if k.keyType ≠ keyTypeRsaUnspecified then .error .invalidKeyType
  else if k.version ≠ versionDkim1Unspecified then .error .invalidVersion
  else .ok ()

/-- The default parameters pass their own validation. -/
theorem defaultParams_validate : defaultParams.validate = .ok () := by decide

/-- Every error of `Params.Validate` is `ErrInvalidParams`, naming the field whose check failed
with its path in the parameters. -/
theorem Params.validate_error {p : Params} {e : DkimError} (h : p.validate = .error e) :
    e ∈ ["max_pubkey_size_bytes", "vkey_identifier", "min_length", "dkim_domain_range",
      "tx_bytes_range", "email_host_range", "email_subject_range", "email_hash_index",
      "dkim_hash_index", "dkim_domain_range.end", "tx_bytes_range.end", "email_host_range.end",
      "email_subject_range.end"].map .invalidParams := by
  -- The checks run in sequence: the error is that of the first one that fails.
  simp only [Params.validate, PublicInputIndices.validate, IndexRange.validate, checkIndexBelow,
    checkRangeWithin, Run.bind_eq_error, Run.failIf_eq_error, Run.failIf_eq_ok,
    Run.exists_unit] at h
  simp only [List.map_cons, List.map_nil, List.mem_cons, List.not_mem_nil, or_false]
  grind

/-- What `PublicInputIndices.Validate` guarantees: every index and range lies within `minLength`,
and every range is non-empty. -/
structure PublicInputIndices.Valid (p : PublicInputIndices) : Prop where
  minLength_pos : 0 < p.minLength.toNat
  emailHash_lt : p.emailHashIndex.toNat < p.minLength.toNat
  dkimHash_lt : p.dkimHashIndex.toNat < p.minLength.toNat
  dkimDomain : p.dkimDomainRange.start.toNat < p.dkimDomainRange.end.toNat ∧
    p.dkimDomainRange.end.toNat ≤ p.minLength.toNat
  txBytes : p.txBytesRange.start.toNat < p.txBytesRange.end.toNat ∧
    p.txBytesRange.end.toNat ≤ p.minLength.toNat
  emailHost : p.emailHostRange.start.toNat < p.emailHostRange.end.toNat ∧
    p.emailHostRange.end.toNat ≤ p.minLength.toNat
  emailSubject : p.emailSubjectRange.start.toNat < p.emailSubjectRange.end.toNat ∧
    p.emailSubjectRange.end.toNat ≤ p.minLength.toNat

theorem IndexRange.validate_ok {r : IndexRange} {name : String} :
    r.validate name = .ok () ↔ r.start.toNat < r.end.toNat := by
  simp only [IndexRange.validate, Run.failIf_eq_ok, UInt64.le_iff_toNat_le]
  omega

theorem checkIndexBelow_ok {i m : UInt64} {name : String} :
    checkIndexBelow i m name = .ok () ↔ i.toNat < m.toNat := by
  simp only [checkIndexBelow, Run.failIf_eq_ok, ge_iff_le, UInt64.le_iff_toNat_le]
  omega

theorem checkRangeWithin_ok {r : IndexRange} {m : UInt64} {name : String} :
    checkRangeWithin r m name = .ok () ↔ r.end.toNat ≤ m.toNat := by
  simp only [checkRangeWithin, Run.failIf_eq_ok, gt_iff_lt, UInt64.lt_iff_toNat_lt]
  omega

/-- Indices that pass `PublicInputIndices.Validate` lie within `minLength`. -/
theorem PublicInputIndices.valid_of_validate {p : PublicInputIndices} (h : p.validate = .ok ()) :
    p.Valid := by
  simp only [PublicInputIndices.validate, Run.bind_const_eq_ok, Run.failIf_eq_ok,
    IndexRange.validate_ok, checkIndexBelow_ok, checkRangeWithin_ok] at h
  obtain ⟨hmin, h1, h2, h3, h4, h5, h6, h7, h8, h9, h10⟩ := h
  have hmin' : 0 < p.minLength.toNat := by
    rw [← UInt64.toNat_inj] at hmin
    simp only [UInt64.toNat_zero] at hmin
    omega
  exact ⟨hmin', h5, h6, ⟨h1, h7⟩, ⟨h2, h8⟩, ⟨h3, h9⟩, ⟨h4, h10⟩⟩

end Xion.Dkim
