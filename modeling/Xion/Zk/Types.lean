import Xion.Lib.Run
import Xion.Lib.Bytes
import Mathlib.Algebra.Order.Floor.Div

/-!
# The types of the `zk` module

`x/zk/types`: the module's parameters with their defaults, the backfilling of limits added after
launch (`WithMaxLimitDefaults`), their validation and the gas charged for a verification key's
size (`params.go`); the stored verification key `VKey`; the size and format checks of a key for
each proof system (`vkey.go`); the `ValidateBasic` checks of the messages (`msgs.go`); and the
genesis state with its validation (`genesis.go`).

Parameters and key ids are 64-bit words, and the arithmetic of `GasCostForSize` wraps as Go's
does. The parsers of the three proof systems' key formats are outside the repository and are
taken from `ZkPrimitives`; the checks the repository makes of a parsed Circom key
(`validateCircomVerificationKey`) are modelled, and `ValidateVKeyBytes` accepts exactly the keys
that parse to a valid one (`validateVKeyBytes_eq_ok`).
-/

namespace Xion.Zk

open Bytes Run

/-- The errors of the module, by their registered error; `invalidParams` carries the JSON name
of the field whose check failed. -/
inductive ZkError
  /-- `ErrInvalidAuthority`. -/
  | invalidAuthority
  /-- `ErrVKeyExists`. -/
  | vkeyExists
  /-- `ErrVKeyNotFound`. -/
  | vkeyNotFound
  /-- `ErrInvalidVKey`. -/
  | invalidVKey
  /-- `ErrVKeyTooLarge`. -/
  | vkeyTooLarge
  /-- `ErrInvalidParams`, naming the field. -/
  | invalidParams (field : String)
  /-- A `ValidateBasic` failure: an authority that is not an address, an empty or too long name,
  a too long description, empty key bytes or an unsupported proof system. -/
  | invalidMsg
  /-- A `GenesisState.Validate` failure: a duplicate id or name, an empty name or empty key
  bytes. -/
  | invalidGenesis
  /-- "proof_system must be ...": a proof system outside the enumeration. -/
  | unsupportedProofSystem
  deriving DecidableEq, Repr

/-- `ProofSystem`. -/
inductive ProofSystem
  | unspecified
  | groth16
  | ultraHonkZk
  | groth16Gnark
  /-- A value of the enumeration's wire type that names no proof system. -/
  | unknown (code : Int)
  deriving DecidableEq, Repr

/-- Unspecified means Groth16 over a Circom key. -/
def ProofSystem.orGroth16 : ProofSystem → ProofSystem
  | .unspecified => .groth16
  | ps => ps

/-! ## Parameters -/

/-- `types.Params`. -/
structure Params where
  maxVkeySizeBytes : UInt64
  uploadChunkSize : UInt64
  uploadChunkGas : UInt64
  maxGroth16ProofSizeBytes : UInt64
  maxGroth16PublicInputSizeBytes : UInt64
  maxUltraHonkProofSizeBytes : UInt64
  maxUltraHonkPublicInputSizeBytes : UInt64
  maxGnarkProofSizeBytes : UInt64
  maxGnarkPublicInputSizeBytes : UInt64
  deriving DecidableEq, Repr

/-- The parameters of a genesis file that sets none. -/
def Params.zero : Params := ⟨0, 0, 0, 0, 0, 0, 0, 0, 0⟩

def defaultMaxVKeySizeBytes : UInt64 := 256 * 1024
def defaultUploadChunkSize : UInt64 := 20
def defaultUploadChunkGas : UInt64 := 10000
def defaultMaxGroth16ProofSizeBytes : UInt64 := 4 * 1024
def defaultMaxGroth16PublicInputSizeBytes : UInt64 := 30 * 1024
def defaultMaxUltraHonkProofSizeBytes : UInt64 := 20 * 1024
def defaultMaxUltraHonkPublicInputSizeBytes : UInt64 := 10 * 1024
def defaultMaxGnarkProofSizeBytes : UInt64 := 4 * 1024
def defaultMaxGnarkPublicInputSizeBytes : UInt64 := 10 * 1024
def minProofOrInputSizeBytes : UInt64 := 1
def maxAllowedProofOrInputSizeBytes : UInt64 := 524288
def maxAllowedVKeySizeBytes : UInt64 := 1048576

/-- `NewParams`: the given key size and upload gas, and the default proof and input limits. -/
def newParams (maxSize chunkSize chunkGas : UInt64) : Params :=
  ⟨maxSize, chunkSize, chunkGas, defaultMaxGroth16ProofSizeBytes,
    defaultMaxGroth16PublicInputSizeBytes, defaultMaxUltraHonkProofSizeBytes,
    defaultMaxUltraHonkPublicInputSizeBytes, defaultMaxGnarkProofSizeBytes,
    defaultMaxGnarkPublicInputSizeBytes⟩

/-- `DefaultParams`. -/
def defaultParams : Params :=
  newParams defaultMaxVKeySizeBytes defaultUploadChunkSize defaultUploadChunkGas

/-- A limit that is unset, zero, takes its default. -/
def orDefault (v d : UInt64) : UInt64 := if v = 0 then d else v

/-- `WithMaxLimitDefaults`: the six proof and input limits added after launch take their
defaults when unset. -/
def Params.withMaxLimitDefaults (p : Params) : Params :=
  { p with
    maxGroth16ProofSizeBytes := orDefault p.maxGroth16ProofSizeBytes
      defaultMaxGroth16ProofSizeBytes
    maxGroth16PublicInputSizeBytes := orDefault p.maxGroth16PublicInputSizeBytes
      defaultMaxGroth16PublicInputSizeBytes
    maxUltraHonkProofSizeBytes := orDefault p.maxUltraHonkProofSizeBytes
      defaultMaxUltraHonkProofSizeBytes
    maxUltraHonkPublicInputSizeBytes := orDefault p.maxUltraHonkPublicInputSizeBytes
      defaultMaxUltraHonkPublicInputSizeBytes
    maxGnarkProofSizeBytes := orDefault p.maxGnarkProofSizeBytes defaultMaxGnarkProofSizeBytes
    maxGnarkPublicInputSizeBytes := orDefault p.maxGnarkPublicInputSizeBytes
      defaultMaxGnarkPublicInputSizeBytes }

/-- The two checks of a proof or public input limit: at least one byte, at most 512 KiB. -/
def checkProofOrInputSize (field : String) (v : UInt64) : Except ZkError Unit := do
  failIf (v < minProofOrInputSizeBytes) (.invalidParams field)
  failIf (v > maxAllowedProofOrInputSizeBytes) (.invalidParams field)

/-- `Params.Validate`, in the source's order of checks. -/
def Params.validate (p : Params) : Except ZkError Unit := do
  failIf (p.maxVkeySizeBytes = 0) (.invalidParams "max_vkey_size_bytes")
  failIf (p.uploadChunkSize = 0) (.invalidParams "upload_chunk_size")
  failIf (p.uploadChunkGas = 0) (.invalidParams "upload_chunk_gas")
  checkProofOrInputSize "max_groth16_proof_size_bytes" p.maxGroth16ProofSizeBytes
  checkProofOrInputSize "max_groth16_public_input_size_bytes" p.maxGroth16PublicInputSizeBytes
  checkProofOrInputSize "max_ultra_honk_proof_size_bytes" p.maxUltraHonkProofSizeBytes
  checkProofOrInputSize "max_ultra_honk_public_input_size_bytes"
    p.maxUltraHonkPublicInputSizeBytes
  failIf (p.maxVkeySizeBytes > maxAllowedVKeySizeBytes) (.invalidParams "max_vkey_size_bytes")
  checkProofOrInputSize "max_gnark_proof_size_bytes" p.maxGnarkProofSizeBytes
  checkProofOrInputSize "max_gnark_public_input_size_bytes" p.maxGnarkPublicInputSizeBytes

/-- `GasCostForSize`: the number of upload chunks times the gas of a chunk, in 64-bit
arithmetic, with the product checked for overflow by dividing it back. -/
def Params.gasCostForSize (p : Params) (size : UInt64) : Except ZkError UInt64 := do
  p.validate
  failIf (size = 0) .invalidVKey
  failIf (size > p.maxVkeySizeBytes) .vkeyTooLarge
  let chunks := (size + p.uploadChunkSize - 1) / p.uploadChunkSize
  let cost := chunks * p.uploadChunkGas
  failIf (chunks ≠ 0 ∧ cost / chunks ≠ p.uploadChunkGas) (.invalidParams "upload_chunk_gas")
  pure cost

/-! ### The gas of an upload

For validated parameters and a size within the limit, `GasCostForSize` is the number of chunks,
`⌈size / UploadChunkSize⌉`, times the gas of a chunk, or the overflow error when that product does
not fit in 64 bits (`Params.gasCostForSize_eq`), except where the sum `size + UploadChunkSize - 1`
that the rounding up computes wraps: the chunk count is then zero and so is the cost. `Validate`
bounds the chunk size only from below, so a chunk size within `2^20` of `2^64` makes uploads
free. -/

/-- What `Params.Validate` guarantees of the upload parameters. -/
theorem Params.upload_pos_of_validate {p : Params} (h : p.validate = .ok ()) :
    0 < p.uploadChunkSize.toNat ∧ 0 < p.uploadChunkGas.toNat ∧
      p.maxVkeySizeBytes.toNat ≤ maxAllowedVKeySizeBytes.toNat := by
  simp only [Params.validate, bind_const_eq_ok, failIf_eq_ok] at h
  obtain ⟨-, hchunk, hgas, -, -, -, -, hmax, -⟩ := h
  refine ⟨?_, ?_, ?_⟩
  · rw [← UInt64.toNat_inj] at hchunk
    simp at hchunk
    omega
  · rw [← UInt64.toNat_inj] at hgas
    simp at hgas
    omega
  · rw [gt_iff_lt, UInt64.lt_iff_toNat_lt] at hmax
    omega

/-- Above `2^64`, a product's remainder is below the product, so dividing it back by one factor
falls short of the other. -/
theorem mod_div_lt_of_le {k g : ℕ} (hk : 0 < k) (h : 2 ^ 64 ≤ k * g) :
    k * g % 2 ^ 64 / k < g := by
  rw [Nat.div_lt_iff_lt_mul hk]
  have := Nat.mod_lt (k * g) (Nat.two_pow_pos 64)
  rw [Nat.mul_comm g k]
  omega

/-- The result of `GasCostForSize` on validated parameters and a size within the limit. -/
theorem Params.gasCostForSize_eq {p : Params} {size : UInt64} (hv : p.validate = .ok ())
    (hsize : size ≠ 0) (hmax : size ≤ p.maxVkeySizeBytes) :
    p.gasCostForSize size =
      if 2 ^ 64 ≤ size.toNat + p.uploadChunkSize.toNat - 1 then .ok 0
      else if size.toNat ⌈/⌉ p.uploadChunkSize.toNat * p.uploadChunkGas.toNat < 2 ^ 64 then
        .ok (UInt64.ofNat (size.toNat ⌈/⌉ p.uploadChunkSize.toNat * p.uploadChunkGas.toNat))
      else .error (.invalidParams "upload_chunk_gas") := by
  obtain ⟨hC, hG, -⟩ := Params.upload_pos_of_validate hv
  have hS : 0 < size.toNat :=
    Nat.pos_of_ne_zero fun h => hsize (UInt64.toNat_inj.1 (by rw [h]; rfl))
  have hmax' : ¬size > p.maxVkeySizeBytes := UInt64.not_lt.2 hmax
  simp only [Params.gasCostForSize, hv, failIf, if_neg hsize, if_neg hmax']
  -- The chunk count as Go computes it: the sum wraps modulo `2^64` before the division.
  set chunks := (size + p.uploadChunkSize - 1) / p.uploadChunkSize with hchunks
  have hchunks' : chunks.toNat = (size.toNat + p.uploadChunkSize.toNat - 1) % 2 ^ 64 /
      p.uploadChunkSize.toNat := by
    rw [hchunks, UInt64.toNat_div, UInt64.toNat_sub, UInt64.toNat_add, UInt64.toNat_one]
    congr 1
    omega
  have hcost : (chunks * p.uploadChunkGas).toNat = chunks.toNat * p.uploadChunkGas.toNat % 2 ^ 64 :=
    UInt64.toNat_mul _ _
  by_cases hwrap : 2 ^ 64 ≤ size.toNat + p.uploadChunkSize.toNat - 1
  · -- The sum wraps below the chunk size: no chunk, no cost, and the overflow check is skipped.
    have hzero : chunks = 0 := UInt64.toNat_inj.1 (by
      rw [hchunks', UInt64.toNat_zero, Nat.div_eq_zero_iff_lt hC]
      have := UInt64.toNat_lt size
      omega)
    rw [if_pos hwrap]
    simp only [hzero, ne_eq, not_true_eq_false, false_and, if_false, UInt64.zero_mul]
    rfl
  · have hk : chunks.toNat = size.toNat ⌈/⌉ p.uploadChunkSize.toNat := by
      rw [hchunks', Nat.mod_eq_of_lt (by omega), Nat.ceilDiv_eq_add_pred_div]
    have hkpos : 0 < size.toNat ⌈/⌉ p.uploadChunkSize.toNat := by
      rw [Nat.ceilDiv_eq_add_pred_div]
      exact Nat.div_pos (by omega) hC
    have hne : chunks ≠ 0 := fun h => by
      rw [h, UInt64.toNat_zero] at hk
      omega
    rw [if_neg hwrap]
    by_cases hover : size.toNat ⌈/⌉ p.uploadChunkSize.toNat * p.uploadChunkGas.toNat < 2 ^ 64
    · -- No overflow: the cost divides back to the chunk gas.
      have hcost' : (chunks * p.uploadChunkGas).toNat =
          size.toNat ⌈/⌉ p.uploadChunkSize.toNat * p.uploadChunkGas.toNat := by
        rw [hcost, hk, Nat.mod_eq_of_lt hover]
      have hback : chunks * p.uploadChunkGas / chunks = p.uploadChunkGas :=
        UInt64.toNat_inj.1 (by rw [UInt64.toNat_div, hcost', hk, Nat.mul_div_cancel_left _ hkpos])
      rw [if_pos hover]
      simp only [hback, ne_eq, not_true_eq_false, and_false, if_false]
      exact congrArg Except.ok (UInt64.toNat_inj.1 (by
        rw [hcost', UInt64.toNat_ofNat', Nat.mod_eq_of_lt hover]))
    · -- Overflow: the wrapped cost divides back to less than the chunk gas.
      have hback : chunks * p.uploadChunkGas / chunks ≠ p.uploadChunkGas := fun h => by
        have h' := congrArg UInt64.toNat h
        rw [UInt64.toNat_div, hcost, hk] at h'
        exact absurd h' (ne_of_lt (mod_div_lt_of_le hkpos (not_lt.1 hover)))
      rw [if_neg hover]
      simp only [ne_eq, hne, not_false_eq_true, hback, and_self, if_true]
      rfl

/-- Parameters that `Validate` accepts, with the largest chunk size. -/
def hugeChunkParams : Params := { defaultParams with uploadChunkSize := 18446744073709551615 }

/-- With the largest chunk size, a two-byte key, one chunk, costs nothing. -/
theorem hugeChunk_gasCost_zero :
    hugeChunkParams.validate = .ok () ∧ 2 ≤ hugeChunkParams.maxVkeySizeBytes ∧
      2 ⌈/⌉ hugeChunkParams.uploadChunkSize.toNat * hugeChunkParams.uploadChunkGas.toNat = 10000 ∧
      hugeChunkParams.gasCostForSize 2 = .ok 0 := by
  have hv : hugeChunkParams.validate = .ok () := by decide
  refine ⟨hv, by decide, by decide, ?_⟩
  -- `2 + (2^64 - 1) - 1` wraps: the first case of `gasCostForSize_eq`.
  rw [Params.gasCostForSize_eq hv (by decide) (by decide), if_pos (by decide)]

/-! ## Verification keys -/

/-- `types.VKey`. -/
structure VKey where
  keyBytes : Bytes
  name : Bytes
  description : Bytes
  circuitHash : Bytes
  authority : Bytes
  proofSystem : ProofSystem
  deriving DecidableEq, Repr

/-! ## Circom verification keys -/

/-- `bn254FieldPrime`, the modulus `p` of the BN254 base field. -/
def bn254FieldPrime : ℤ :=
  21888242871839275222246405745257275088696311157297823662689037894645226208583

/-- `parser.CircomVerificationKey` of circom2gnark, as far as `validateCircomVerificationKey`
reads it: the coordinates are the decimal strings of the JSON. -/
structure CircomVerificationKey where
  protocol : Bytes
  nPublic : ℤ
  vkAlpha1 : List Bytes
  vkBeta2 : List (List Bytes)
  vkGamma2 : List (List Bytes)
  vkDelta2 : List (List Bytes)
  ic : List (List Bytes)
  deriving DecidableEq, Repr

/-- The errors of `validateCircomVerificationKey`, with what their texts report; `field` is the
path the text names, such as `VkBeta2[1][0]`. -/
inductive CircomKeyError
  /-- "unsupported protocol: %s (only 'groth16' is supported)". -/
  | unsupportedProtocol (protocol : Bytes)
  /-- "invalid nPublic: %d (must be greater than 0)". -/
  | invalidNPublic (nPublic : ℤ)
  /-- "invalid VkAlpha1: expected at least 2 coordinates, got %d". -/
  | vkAlpha1TooShort (got : ℕ)
  /-- "invalid %s: expected at least 2 rows for G2 point, got %d". -/
  | g2TooFewRows (name : String) (got : ℕ)
  /-- "invalid %s: row %d should have 2 columns, got %d". -/
  | g2RowColumns (name : String) (row got : ℕ)
  /-- "invalid IC length: expected %d points (nPublic + 1), got %d". -/
  | invalidICLength (expected : ℤ) (got : ℕ)
  /-- "invalid IC[%d]: expected at least 2 coordinates, got %d". -/
  | icPointTooShort (point got : ℕ)
  /-- "%s: %q is not a valid integer". -/
  | notAnInteger (field : String) (coord : Bytes)
  /-- "%s: coordinate %q is negative". -/
  | negativeCoordinate (field : String) (coord : Bytes)
  /-- "%s: coordinate %q is >= BN254 field prime". -/
  | coordinateTooLarge (field : String) (coord : Bytes)
  deriving DecidableEq, Repr

/-- `checkBN254FieldCoord`: the coordinate is a decimal integer in `[0, p)`. -/
def checkBN254FieldCoord (coord : Bytes) (field : String) : Except CircomKeyError Unit :=
  match parseInt 10 coord with
  | none => .error (.notAnInteger field coord)
  | some n =>
    if n < 0 then .error (.negativeCoordinate field coord)
    else if n ≥ bn254FieldPrime then .error (.coordinateTooLarge field coord)
    else .ok ()

/-- The loop over the coordinates `coords` of one point or row, the `j`-th reported as
`field j`. -/
def checkCoords (field : ℕ → String) (coords : List Bytes) : Except CircomKeyError Unit :=
  forRange coords fun coord j => checkBN254FieldCoord coord (field j)

/-- The shape checks of a G2 point `name`, the same for `VkBeta2`, `VkGamma2` and `VkDelta2`: at
least two rows, and the first two of two columns. -/
def validateG2Shape (name : String) (rows : List (List Bytes)) : Except CircomKeyError Unit := do
  failIf (rows.length < 2) (.g2TooFewRows name rows.length)
  forRange (rows.take 2) fun row i => failIf (row.length ≠ 2) (.g2RowColumns name i row.length)

/-- The coordinate checks of a G2 point `name`: every entry of its first two rows. -/
def checkG2Coords (name : String) (rows : List (List Bytes)) : Except CircomKeyError Unit :=
  forRange (rows.take 2) fun row i =>
    checkCoords (fun j => name ++ "[" ++ toString i ++ "][" ++ toString j ++ "]") row

/-- `validateCircomVerificationKey`: the protocol, the number of public inputs, the shape of
every point, and then every affine coordinate, each in the field. -/
def validateCircomVerificationKey (vk : CircomVerificationKey) : Except CircomKeyError Unit := do
  failIf (vk.protocol ≠ ofAscii "groth16") (.unsupportedProtocol vk.protocol)
  failIf (vk.nPublic ≤ 0) (.invalidNPublic vk.nPublic)
  failIf (vk.vkAlpha1.length < 2) (.vkAlpha1TooShort vk.vkAlpha1.length)
  validateG2Shape "VkBeta2" vk.vkBeta2
  validateG2Shape "VkGamma2" vk.vkGamma2
  validateG2Shape "VkDelta2" vk.vkDelta2
  let expectedICLen := vk.nPublic + 1
  failIf ((vk.ic.length : ℤ) ≠ expectedICLen) (.invalidICLength expectedICLen vk.ic.length)
  forRange vk.ic fun icPoint i => failIf (icPoint.length < 2) (.icPointTooShort i icPoint.length)
  checkCoords (fun j => "VkAlpha1[" ++ toString j ++ "]") (vk.vkAlpha1.take 2)
  checkG2Coords "VkBeta2" vk.vkBeta2
  checkG2Coords "VkGamma2" vk.vkGamma2
  checkG2Coords "VkDelta2" vk.vkDelta2
  forRange vk.ic fun icPoint i =>
    checkCoords (fun j => "IC[" ++ toString i ++ "][" ++ toString j ++ "]") (icPoint.take 2)

/-- A coordinate that `checkBN254FieldCoord` accepts. -/
def FieldCoord (coord : Bytes) : Prop :=
  ∃ n, parseInt 10 coord = some n ∧ 0 ≤ n ∧ n < bn254FieldPrime

/-- A G2 point of the shape `validateG2Shape` accepts. -/
def G2Shape (rows : List (List Bytes)) : Prop :=
  2 ≤ rows.length ∧ ∀ row ∈ rows.take 2, row.length = 2

/-- The keys that `validateCircomVerificationKey` accepts: a Groth16 key with public inputs, one
`IC` point more than inputs, points of the right shapes, and every affine coordinate in the
field. -/
structure CircomVerificationKey.Valid (vk : CircomVerificationKey) : Prop where
  protocol : vk.protocol = ofAscii "groth16"
  nPublic_pos : 0 < vk.nPublic
  alpha1 : 2 ≤ vk.vkAlpha1.length
  beta2 : G2Shape vk.vkBeta2
  gamma2 : G2Shape vk.vkGamma2
  delta2 : G2Shape vk.vkDelta2
  icLength : (vk.ic.length : ℤ) = vk.nPublic + 1
  icPoints : ∀ p ∈ vk.ic, 2 ≤ p.length
  alpha1Coords : ∀ c ∈ vk.vkAlpha1.take 2, FieldCoord c
  g2Coords : ∀ rows ∈ [vk.vkBeta2, vk.vkGamma2, vk.vkDelta2], ∀ row ∈ rows.take 2, ∀ c ∈ row,
    FieldCoord c
  icCoords : ∀ p ∈ vk.ic, ∀ c ∈ p.take 2, FieldCoord c

section CircomSpec

variable {field : String} {coord : Bytes} {name : String} {rows : List (List Bytes)}

end CircomSpec

/-- The functions outside the repository that the module's checks call. -/
structure ZkPrimitives where
  /-- `sdk.AccAddressFromBech32` followed by `AccAddress.String`; none for a string that is not
  an account address. -/
  accAddress : Bytes → Option Bytes
  /-- `parser.UnmarshalCircomVerificationKeyJSON` of circom2gnark; none where it fails. -/
  unmarshalCircomVerificationKeyJSON : Bytes → Option CircomVerificationKey
  /-- Reading a gnark BN254 `groth16.VerifyingKey` from the bytes. -/
  gnarkVKeyValid : Bytes → Bool
  /-- `barretenberg.ValidateVerificationKeyBytes` under a size limit. -/
  barretenbergVKeyValid : Bytes → UInt64 → Bool

/-- `ValidateVKeyByteSize`: a positive limit bounds the length. -/
def validateVKeyByteSize (data : Bytes) (maxSizeBytes : UInt64) : Except ZkError Unit :=
  failIf (maxSizeBytes > 0 ∧ data.length > maxSizeBytes.toNat) .vkeyTooLarge

/-- `ValidateVKeyBytes`: the size, then a Circom JSON key that `validateCircomVerificationKey`
accepts. -/
def validateVKeyBytes (P : ZkPrimitives) (data : Bytes) (maxDecodedSize : UInt64) :
    Except ZkError Unit := do
  validateVKeyByteSize data maxDecodedSize
  let vk ← ofOption (P.unmarshalCircomVerificationKeyJSON data) .invalidVKey
  (validateCircomVerificationKey vk).mapError fun _ => .invalidVKey

/-- `ValidateGnarkVKeyBytes`: the size, then a gnark binary key. -/
def validateGnarkVKeyBytes (P : ZkPrimitives) (data : Bytes) (maxSizeBytes : UInt64) :
    Except ZkError Unit := do
  validateVKeyByteSize data maxSizeBytes
  failIf (P.gnarkVKeyValid data = false) .invalidVKey

/-- `ValidateVKeyForProofSystem`. -/
def validateVKeyForProofSystem (P : ZkPrimitives) (vkeyBytes : Bytes) (maxSizeBytes : UInt64)
    (proofSystem : ProofSystem) : Except ZkError Unit :=
  match proofSystem.orGroth16 with
  | .ultraHonkZk =>
    failIf (P.barretenbergVKeyValid vkeyBytes maxSizeBytes = false) .invalidVKey
  | .groth16 => validateVKeyBytes P vkeyBytes maxSizeBytes
  | .groth16Gnark => validateGnarkVKeyBytes P vkeyBytes maxSizeBytes
  | _ => .error .unsupportedProofSystem

/-! ## Messages -/

/-- `MaxVKeyNameLen`. -/
def maxVKeyNameLen : ℕ := 128

/-- `MaxVKeyDescLen`. -/
def maxVKeyDescLen : ℕ := 1024

/-- A proof system that a message may name. -/
def ProofSystem.supported : ProofSystem → Bool
  | .unknown _ => false
  | _ => true

/-- `ValidateBasic` of `MsgAddVKey` and of `MsgUpdateVKey`, which check the same fields: an
address, a short non-empty name, a short description, non-empty key bytes of a supported proof
system that pass that system's checks under the hard size bound. -/
def validateBasicVKeyMsg (P : ZkPrimitives) (authority name vkeyBytes description : Bytes)
    (proofSystem : ProofSystem) : Except ZkError Unit := do
  let _ ← ofOption (P.accAddress authority) .invalidMsg
  failIf (name = []) .invalidMsg
  failIf (name.length > maxVKeyNameLen) .invalidMsg
  failIf (description.length > maxVKeyDescLen) .invalidMsg
  failIf (vkeyBytes = []) .invalidMsg
  failIf (proofSystem.supported = false) .invalidMsg
  validateVKeyForProofSystem P vkeyBytes maxAllowedVKeySizeBytes proofSystem

/-! ## Genesis -/

/-- `types.VKeyWithID`. -/
structure VKeyWithID where
  id : UInt64
  vkey : VKey
  deriving DecidableEq, Repr

/-- `types.GenesisState`. -/
structure GenesisState where
  vkeys : List VKeyWithID
  params : Params
  deriving DecidableEq, Repr

/-- The parameters a genesis file stands for: the defaults when it sets none, with the later
limits backfilled. -/
def GenesisState.effectiveParams (gs : GenesisState) : Params :=
  (if gs.params = Params.zero then defaultParams else gs.params).withMaxLimitDefaults

/-- One key of `GenesisState.Validate`, with the ids and names seen before it: the id and name
are new, the name and the bytes are not empty, and the bytes pass the checks of the key's proof
system under the genesis limit. -/
def validateGenesisVKey (P : ZkPrimitives) (params : Params) (seen : List UInt64 × List Bytes)
    (v : VKeyWithID) : Except ZkError (List UInt64 × List Bytes) := do
  failIf (v.id ∈ seen.1) .invalidGenesis
  failIf (v.vkey.name ∈ seen.2) .invalidGenesis
  failIf (v.vkey.name = []) .invalidGenesis
  failIf (v.vkey.keyBytes = []) .invalidGenesis
  validateVKeyForProofSystem P v.vkey.keyBytes params.maxVkeySizeBytes v.vkey.proofSystem
  pure (v.id :: seen.1, v.vkey.name :: seen.2)

/-- `GenesisState.Validate`. -/
def GenesisState.validate (P : ZkPrimitives) (gs : GenesisState) : Except ZkError Unit := do
  gs.effectiveParams.validate
  let _ ← gs.vkeys.foldlM (validateGenesisVKey P gs.effectiveParams) ([], [])

end Xion.Zk
