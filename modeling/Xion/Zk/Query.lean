import Xion.Zk.Store
import Xion.Lib.Word

/-!
# The queries of the `zk` module

`x/zk/keeper/query_server.go`, with the lookups, `Verify` and `VerifyGnark` of `keeper.go` that
the queries call. `ProofVerify`, `ProofVerifyUltraHonk` and `ProofVerifyGnark` check a proof
against a stored verification key, named by its name or, when the name is empty, by its id. Any
contract may call them through the Stargate whitelist and no gas is charged, so the parameters'
size limits bound their work. The Groth16 query sums the lengths of its public inputs in a 64-bit
word with a wrap test, and rejects inputs that are not canonical elements of the BN254 scalar
field: the verifier reduces its inputs modulo the field's order `r`, so that `r + x` would verify
as `x`.

The verifiers (circom2gnark, gnark and Barretenberg) are outside the repository and are the fields
of `Verifiers`; each call ends in a value, an error or a panic, and what the queries make of each
is modelled. A parsed proof or key is represented by the bytes it was parsed from.

The size loop is exact: it fails exactly when the true total wraps, and otherwise returns it
(`publicInputsSize_eq_ok`). `ProofVerify` answers exactly when the request passes its checks, the
key stored under the requested name, or without a name under the requested nonzero id, parses,
and every input is canonical, and the answer is then the verifier's on that key
(`proofVerify_eq_ok`). `ProofVerifyUltraHonk` hands Barretenberg the 32-byte field elements that
the public inputs consist of, in order (`proofVerifyUltraHonk_eq_ok`).
-/

namespace Xion.Zk

open Bytes Run

/-! ## Errors and verifiers -/

/-- The errors of the queries, with the texts they carry. -/
inductive QueryError
  /-- `ErrInvalidRequest` with its text: "proof cannot be empty", "either vkey_name or vkey_id
  must be provided", "name cannot be empty", "internal error during proof verification", or a
  library's error after "proof: ", "verification: ", "failed to parse gnark proof: ",
  "failed to create witness: " or "failed to unmarshal public inputs: ". -/
  | invalidRequest (msg : String)
  /-- `ErrInvalidRequest`, "public input[%d] is not a canonical BN254 scalar field element". -/
  | nonCanonicalInput (index : ℕ)
  /-- `ErrProofTooLarge`, "proof size %d > max %d bytes". -/
  | proofTooLarge (size max : ℕ)
  /-- `ErrPublicInputsTooLarge`, "public inputs size %d > max %d bytes". -/
  | publicInputsTooLarge (size max : ℕ)
  /-- `ErrPublicInputsTooLarge`, "public inputs size overflow". -/
  | publicInputsOverflow
  /-- `ErrVKeyNotFound`, "verification key with ID %d not found". -/
  | vkeyIdNotFound (id : UInt64)
  /-- `ErrVKeyNotFound`, "verification key with name '%s' not found". -/
  | vkeyNameNotFound (name : Bytes)
  /-- `ErrVKeyNotFound`, "failed to get vkey '%s': %v", with the lookup's error. -/
  | vkeyByNameFailed (name : Bytes) (cause : QueryError)
  /-- `ErrVKeyNotFound`, "failed to get vkey ID %d: %v", with the lookup's error. -/
  | vkeyByIdFailed (id : UInt64) (cause : QueryError)
  /-- `ErrInvalidRequest`, "verification key is not an UltraHonk key (proof_system=%v)" or
  "verification key is not a gnark Groth16 key (proof_system=%v)", with the key's proof system,
  unspecified printed as Groth16. -/
  | wrongProofSystem (expected found : ProofSystem)
  /-- `ErrInvalidRequest`, "public_inputs length %d is not a multiple of %d". -/
  | notFieldElements (length size : ℕ)
  /-- `ErrInvalidVKey` with its text: "ultrahonk vkey: " or "failed to parse gnark vkey: " and the
  library's error. -/
  | invalidVKey (msg : String)
  /-- The gRPC status `Internal`, "internal error during proof verification": a recovered panic
  of Barretenberg. -/
  | internal
  /-- A library's error, returned as it is. -/
  | external (msg : String)

/-- How a call into a proof library ends: with a value, with an error, or in a panic, which the
caller's deferred `recover` turns into an error. -/
inductive Outcome (ε α : Type)
  | ok (a : α)
  | error (e : ε)
  | panic

/-- A call inside a block with a deferred `recover`: its value, its error as the block wraps it,
or for a panic the block's recovered error. -/
def Outcome.recover {ε α : Type} (wrap : ε → QueryError) (recovered : QueryError) :
    Outcome ε α → Except QueryError α
  | .ok a => .ok a
  | .error e => .error (wrap e)
  | .panic => .error recovered

/-- The errors of Barretenberg's `VerifyWithBytes`: the three that the query reads as a proof that
does not verify, and any other by its text. -/
inductive HonkError
  | verificationFailed
  | invalidPublicInputs
  | internal
  | other (msg : String)

/-- The proof libraries that the queries call. -/
structure Verifiers where
  /-- `parser.UnmarshalCircomProofJSON`. -/
  circomProof : Bytes → Except String Unit
  /-- `parser.UnmarshalCircomVerificationKeyJSON`. -/
  circomVKey : Bytes → Except String Unit
  /-- `parser.ConvertCircomToGnark` then `parser.VerifyProof`, on a key, a proof and the public
  inputs. -/
  groth16 : Bytes → Bytes → List Bytes → Outcome String Bool
  /-- `barretenberg.ParseVerificationKey`. -/
  honkVKey : Bytes → Outcome String Unit
  /-- `barretenberg.ParseProof`. -/
  honkProof : Bytes → Outcome String Unit
  /-- `barretenberg.NewVerifier` on a parsed key. -/
  honkVerifier : Bytes → Outcome String Unit
  /-- `VerifyWithBytes` of a key's verifier, on a proof and the public inputs' field elements. -/
  honkVerify : Bytes → Bytes → List Bytes → Outcome HonkError Bool
  /-- `groth16.VerifyingKey.ReadFrom` over BN254. -/
  gnarkVKey : Bytes → Outcome String Unit
  /-- `groth16.Proof.ReadFrom` over BN254. -/
  gnarkProof : Bytes → Outcome String Unit
  /-- `witness.New` over the BN254 scalar field. -/
  gnarkWitness : Outcome String Unit
  /-- `witness.UnmarshalBinary` of the public inputs. -/
  gnarkPublicInputs : Bytes → Outcome String Unit
  /-- `groth16.Verify` of a proof, against a key, on the public inputs; an error is a proof that
  does not verify. -/
  gnarkVerify : Bytes → Bytes → Bytes → Outcome String Unit

/-! ## Lookups -/

section Lookups

variable (s : ZkState)

/-- `Keeper.GetVKeyByID`. -/
def getVKeyByID (id : UInt64) : Except QueryError VKey :=
  ofOption (getVKey s id) (.vkeyIdNotFound id)

/-- `Keeper.GetVKeyByName`: the name's id in the index, then the key of that id. -/
def getVKeyByName (name : Bytes) : Except QueryError VKey := do
  let id ← ofOption (getVKeyID s name) (.vkeyNameNotFound name)
  getVKeyByID s id

/-- `types.UnmarshalVKey`: a key with bytes, read as a Circom verification key. -/
def unmarshalVKey (V : Verifiers) (vkey : VKey) : Except QueryError Bytes := do
  failIf (vkey.keyBytes = []) (.external "empty key_bytes")
  (V.circomVKey vkey.keyBytes).mapError .external
  pure vkey.keyBytes

/-- `Keeper.GetCircomVKeyByName`. -/
def getCircomVKeyByName (V : Verifiers) (name : Bytes) : Except QueryError Bytes := do
  let vkey ← getVKeyByName s name
  unmarshalVKey V vkey

/-- `Keeper.GetCircomVKeyByID`. -/
def getCircomVKeyByID (V : Verifiers) (id : UInt64) : Except QueryError Bytes := do
  let vkey ← getVKeyByID s id
  unmarshalVKey V vkey

/-- `Querier.VKey`. -/
def Querier.vKey (id : UInt64) : Except QueryError VKey := getVKeyByID s id

/-- `Querier.VKeyByName`: the key of a name, with its id. -/
def Querier.vKeyByName (name : Bytes) : Except QueryError (VKey × UInt64) := do
  failIf (name = []) (.invalidRequest "name cannot be empty")
  let id ← ofOption (getVKeyID s name) (.vkeyNameNotFound name)
  let vkey ← getVKeyByID s id
  pure (vkey, id)

/-- `Querier.HasVKey`: `some id` for `Exists: true` with the id the index gives, `none` for
`Exists: false, Id: 0`. -/
def Querier.hasVKey (name : Bytes) : Except QueryError (Option UInt64) := do
  failIf (name = []) (.invalidRequest "name cannot be empty")
  pure (getVKeyID s name)

/-- `Querier.NextVKeyID`: the sequence's value, which `Peek` reads without moving it. -/
def Querier.nextVKeyID : UInt64 := s.nextVKeyID

/-- `Querier.Params`. -/
def Querier.params : Params := getParams s

end Lookups

/-! ## Canonical public inputs -/

/-- `bn254ScalarPrime`, the order `r` of the BN254 scalar field. -/
def bn254ScalarPrime : ℕ :=
  21888242871839275222246405745257275088548364400416034343698204186575808495617

/-- The value of a public input as the check reads it with `big.Int.SetString`: hexadecimal after
a `0x` or `0X` (bytes 48 and 120 or 88), decimal otherwise. -/
def publicInputValue (inp : Bytes) : Option ℤ :=
  if ([48, 120] : Bytes) <+: inp ∨ ([48, 88] : Bytes) <+: inp then parseInt 16 (inp.drop 2)
  else parseInt 10 inp

/-- An input that reads as an integer from 0 to `r - 1`. -/
def isCanonicalScalar (inp : Bytes) : Bool :=
  match publicInputValue inp with
  | some v => decide (0 ≤ v ∧ v < bn254ScalarPrime)
  | none => false

/-- The loop of `validatePublicInputsInScalarField` from the input of index `i` on. -/
def validatePublicInputsFrom : ℕ → List Bytes → Except QueryError Unit
  | _, [] => .ok ()
  | i, inp :: rest =>
    if isCanonicalScalar inp then validatePublicInputsFrom (i + 1) rest
    else .error (.nonCanonicalInput i)

theorem validatePublicInputsFrom_nil (i : ℕ) : validatePublicInputsFrom i [] = .ok () := rfl

theorem validatePublicInputsFrom_cons (i : ℕ) (inp : Bytes) (rest : List Bytes) :
    validatePublicInputsFrom i (inp :: rest) =
      if isCanonicalScalar inp then validatePublicInputsFrom (i + 1) rest
      else .error (.nonCanonicalInput i) := rfl

/-- `validatePublicInputsInScalarField`. -/
def validatePublicInputsInScalarField (inputs : List Bytes) : Except QueryError Unit :=
  validatePublicInputsFrom 0 inputs

/-- What the deferred `recover` of `Verify` and `VerifyGnark` returns for a panic. -/
def verificationPanicked : QueryError := .invalidRequest "internal error during proof verification"

/-- `Keeper.Verify`: the public inputs checked once more, so that every caller is covered, then
the conversion and the pairing check, whose errors are returned as they are. -/
def verify (V : Verifiers) (vk proof : Bytes) (inputs : List Bytes) : Except QueryError Bool := do
  validatePublicInputsInScalarField inputs
  (V.groth16 vk proof inputs).recover .external verificationPanicked

/-! ## `ProofVerify` -/

/-- `QueryVerifyRequest`. -/
structure QueryVerifyRequest where
  proof : Bytes
  publicInputs : List Bytes
  vkeyName : Bytes
  vkeyId : UInt64

/-- The loop of `ProofVerify` that sums the lengths of the public inputs in a 64-bit word and
fails when an addition wraps. -/
def publicInputsSize : UInt64 → List Bytes → Except QueryError UInt64
  | acc, [] => .ok acc
  | acc, inp :: rest =>
    let inputSize := UInt64.ofNat inp.length
    if acc + inputSize < acc then .error .publicInputsOverflow
    else publicInputsSize (acc + inputSize) rest

theorem publicInputsSize_cons (acc : UInt64) (inp : Bytes) (rest : List Bytes) :
    publicInputsSize acc (inp :: rest) =
      if acc + UInt64.ofNat inp.length < acc then .error .publicInputsOverflow
      else publicInputsSize (acc + UInt64.ofNat inp.length) rest := rfl

/-- The switch of `ProofVerify` that reads the key: by name when one is given, else by id. -/
def circomVKeyOf (V : Verifiers) (s : ZkState) (req : QueryVerifyRequest) :
    Except QueryError Bytes :=
  if req.vkeyName ≠ [] then
    (getCircomVKeyByName s V req.vkeyName).mapError (.vkeyByNameFailed req.vkeyName)
  else if req.vkeyId ≠ 0 then
    (getCircomVKeyByID s V req.vkeyId).mapError (.vkeyByIdFailed req.vkeyId)
  else .error (.invalidRequest "either vkey_name or vkey_id must be provided")

/-- `Querier.ProofVerify`. -/
def Querier.proofVerify (V : Verifiers) (s : ZkState) (req : QueryVerifyRequest) :
    Except QueryError Bool := do
  failIf (req.proof = []) (.invalidRequest "proof cannot be empty")
  failIf (req.vkeyName = [] ∧ req.vkeyId = 0)
    (.invalidRequest "either vkey_name or vkey_id must be provided")
  let params := getParams s
  failIf (req.proof.length > params.maxGroth16ProofSizeBytes.toNat)
    (.proofTooLarge req.proof.length params.maxGroth16ProofSizeBytes.toNat)
  let size ← publicInputsSize 0 req.publicInputs
  failIf (size > params.maxGroth16PublicInputSizeBytes)
    (.publicInputsTooLarge size.toNat params.maxGroth16PublicInputSizeBytes.toNat)
  (V.circomProof req.proof).mapError .external
  let snarkVk ← circomVKeyOf V s req
  validatePublicInputsInScalarField req.publicInputs
  verify V snarkVk req.proof req.publicInputs

/-! ## `ProofVerifyUltraHonk` and `ProofVerifyGnark` -/

/-- `QueryVerifyUltraHonkRequest` and `QueryVerifyGnarkRequest`, whose public inputs are one byte
string. -/
structure QueryVerifyBytesRequest where
  proof : Bytes
  publicInputs : Bytes
  vkeyName : Bytes
  vkeyId : UInt64

/-- `barretenberg.FieldElementSize`. -/
def fieldElementSize : ℕ := 32

/-- The switch of `ProofVerifyUltraHonk` and `ProofVerifyGnark` that reads the key: by name when
one is given, else by id. -/
def resolveVKey (s : ZkState) (name : Bytes) (id : UInt64) : Except QueryError VKey :=
  if name ≠ [] then getVKeyByName s name
  else if id ≠ 0 then getVKeyByID s id
  else .error (.invalidRequest "either vkey_name or vkey_id must be provided")

/-- The checks that open `ProofVerifyUltraHonk` and `ProofVerifyGnark`, under the proof and input
limits of the proof system: a non-empty proof within its limit, public inputs within theirs, and a
key of the proof system, which is returned. -/
def checkedVKey (s : ZkState) (expected : ProofSystem) (maxProof maxInputs : UInt64)
    (req : QueryVerifyBytesRequest) : Except QueryError VKey := do
  failIf (req.proof = []) (.invalidRequest "proof cannot be empty")
  failIf (req.proof.length > maxProof.toNat) (.proofTooLarge req.proof.length maxProof.toNat)
  failIf (req.publicInputs.length > maxInputs.toNat)
    (.publicInputsTooLarge req.publicInputs.length maxInputs.toNat)
  let vkey ← resolveVKey s req.vkeyName req.vkeyId
  failIf (vkey.proofSystem ≠ expected) (.wrongProofSystem expected vkey.proofSystem.orGroth16)
  pure vkey

/-- The Barretenberg calls of `ProofVerifyUltraHonk`, under their deferred `recover`: the three
sentinel errors of `VerifyWithBytes` are a proof that does not verify. -/
def verifyUltraHonk (V : Verifiers) (vkeyBytes proof : Bytes) (chunks : List Bytes) :
    Except QueryError Bool := do
  (V.honkVKey vkeyBytes).recover (fun e => .invalidVKey ("ultrahonk vkey: " ++ e)) .internal
  (V.honkProof proof).recover (fun e => .invalidRequest ("proof: " ++ e)) .internal
  (V.honkVerifier vkeyBytes).recover .external .internal
  match V.honkVerify vkeyBytes proof chunks with
  | .ok verified => pure verified
  | .error (.other e) => throw (.invalidRequest ("verification: " ++ e))
  | .error _ => pure false
  | .panic => throw .internal

/-- `Querier.ProofVerifyUltraHonk`: the public inputs are cut into 32-byte field elements. -/
def Querier.proofVerifyUltraHonk (V : Verifiers) (s : ZkState) (req : QueryVerifyBytesRequest) :
    Except QueryError Bool := do
  let params := getParams s
  let vkey ← checkedVKey s .ultraHonkZk params.maxUltraHonkProofSizeBytes
    params.maxUltraHonkPublicInputSizeBytes req
  failIf (req.publicInputs.length % fieldElementSize ≠ 0)
    (.notFieldElements req.publicInputs.length fieldElementSize)
  verifyUltraHonk V vkey.keyBytes req.proof
    (chunks fieldElementSize (req.publicInputs.length / fieldElementSize) req.publicInputs)

section Spec

variable {V : Verifiers} {s : ZkState}

/-- The key stored under the name `name`, or, when the name is empty, under the nonzero id
`vkeyId`: the key a verification request names, with its id. -/
def RequestedKey (s : ZkState) (name : Bytes) (vkeyId id : UInt64) (vkey : VKey) : Prop :=
  ((name ≠ [] ∧ getVKeyID s name = some id) ∨ (name = [] ∧ vkeyId ≠ 0 ∧ id = vkeyId)) ∧
    getVKey s id = some vkey

/-- A request that names a key gives a name or a nonzero id. -/
theorem RequestedKey.named {name : Bytes} {vkeyId id : UInt64} {vkey : VKey}
    (h : RequestedKey s name vkeyId id vkey) : ¬(name = [] ∧ vkeyId = 0) := by
  rintro ⟨hname, hid⟩
  rcases h.1 with ⟨hne, -⟩ | ⟨-, hne, -⟩
  · exact hne hname
  · exact hne hid

@[simp]
theorem Outcome.recover_eq_ok {ε α : Type} {wrap : ε → QueryError} {recovered : QueryError}
    {o : Outcome ε α} {a : α} : o.recover wrap recovered = .ok a ↔ o = .ok a := by
  cases o <;> simp [Outcome.recover]

theorem getVKeyByID_eq_ok {id : UInt64} {vkey : VKey} :
    getVKeyByID s id = .ok vkey ↔ getVKey s id = some vkey :=
  ofOption_eq_ok

theorem getVKeyByName_eq_ok {name : Bytes} {vkey : VKey} :
    getVKeyByName s name = .ok vkey ↔ ∃ id, getVKeyID s name = some id ∧ getVKey s id = some vkey := by
  simp only [getVKeyByName, bind_eq_ok, ofOption_eq_ok, getVKeyByID_eq_ok]

theorem unmarshalVKey_eq_ok {vkey : VKey} {b : Bytes} :
    unmarshalVKey V vkey = .ok b ↔
      vkey.keyBytes ≠ [] ∧ V.circomVKey vkey.keyBytes = .ok () ∧ b = vkey.keyBytes := by
  simp only [unmarshalVKey, bind_const_eq_ok, failIf_eq_ok, mapError_eq_ok, pure_eq_ok,
    eq_comm (a := b)]

/-- The key of a Groth16 request, read by its name or its id, is a stored key whose bytes parse as
a Circom key. -/
theorem circomVKeyOf_eq_ok {req : QueryVerifyRequest} {b : Bytes} :
    circomVKeyOf V s req = .ok b ↔
      ∃ id vkey, RequestedKey s req.vkeyName req.vkeyId id vkey ∧ vkey.keyBytes ≠ [] ∧
        V.circomVKey vkey.keyBytes = .ok () ∧ b = vkey.keyBytes := by
  unfold circomVKeyOf RequestedKey
  by_cases hname : req.vkeyName = []
  · by_cases hid : req.vkeyId = 0
    · simp [hname, hid]
    · simp only [hname, hid, ne_eq, not_true_eq_false, not_false_eq_true, if_false, if_true,
        mapError_eq_ok, getCircomVKeyByID, bind_eq_ok, getVKeyByID_eq_ok, unmarshalVKey_eq_ok,
        false_and, true_and, false_or]
      constructor
      · rintro ⟨vkey, hv, hne, hck, rfl⟩
        exact ⟨req.vkeyId, vkey, ⟨rfl, hv⟩, hne, hck, rfl⟩
      · rintro ⟨id, vkey, ⟨rfl, hv⟩, hne, hck, rfl⟩
        exact ⟨vkey, hv, hne, hck, rfl⟩
  · simp only [hname, ne_eq, not_false_eq_true, if_true, mapError_eq_ok, getCircomVKeyByName,
      bind_eq_ok, getVKeyByName_eq_ok, unmarshalVKey_eq_ok, true_and, false_and, or_false]
    constructor
    · rintro ⟨vkey, ⟨id, hid, hv⟩, hne, hck, rfl⟩
      exact ⟨id, vkey, ⟨hid, hv⟩, hne, hck, rfl⟩
    · rintro ⟨id, vkey, ⟨hid, hv⟩, hne, hck, rfl⟩
      exact ⟨vkey, ⟨id, hid, hv⟩, hne, hck, rfl⟩

/-- The key of an UltraHonk or gnark request, read by its name or its id. -/
theorem resolveVKey_eq_ok {name : Bytes} {vkeyId : UInt64} {vkey : VKey} :
    resolveVKey s name vkeyId = .ok vkey ↔ ∃ id, RequestedKey s name vkeyId id vkey := by
  unfold resolveVKey RequestedKey
  by_cases hname : name = []
  · by_cases hid : vkeyId = 0
    · simp [hname, hid]
    · simp [hname, hid, getVKeyByID_eq_ok]
  · simp [hname, getVKeyByName_eq_ok]

theorem checkedVKey_eq_ok {expected : ProofSystem} {maxProof maxInputs : UInt64}
    {req : QueryVerifyBytesRequest} {vkey : VKey} :
    checkedVKey s expected maxProof maxInputs req = .ok vkey ↔
      req.proof ≠ [] ∧ req.proof.length ≤ maxProof.toNat ∧
        req.publicInputs.length ≤ maxInputs.toNat ∧
        (∃ id, RequestedKey s req.vkeyName req.vkeyId id vkey) ∧ vkey.proofSystem = expected := by
  simp only [checkedVKey, bind_eq_ok, exists_unit, failIf_eq_ok, resolveVKey_eq_ok, pure_eq_ok,
    not_not, gt_iff_lt, not_lt]
  constructor
  · rintro ⟨hp, hlp, hli, w, hw, hps, rfl⟩
    exact ⟨hp, hlp, hli, hw, hps⟩
  · rintro ⟨hp, hlp, hli, hw, hps⟩
    exact ⟨hp, hlp, hli, vkey, hw, hps, rfl⟩

/-- The canonical check passes exactly when every input is canonical. -/
theorem validatePublicInputsFrom_eq_ok :
    ∀ (i : ℕ) (inputs : List Bytes),
      validatePublicInputsFrom i inputs = .ok () ↔ ∀ inp ∈ inputs, isCanonicalScalar inp = true
  | _, [] => iff_of_true rfl fun _ h => absurd h List.not_mem_nil
  | i, inp :: rest => by
    rw [List.forall_mem_cons, ← validatePublicInputsFrom_eq_ok (i + 1) rest,
      validatePublicInputsFrom_cons]
    cases isCanonicalScalar inp <;> simp

/-- A failed canonical check names the first input that is not canonical, by its index. -/
theorem validatePublicInputsFrom_eq_error :
    ∀ (i : ℕ) (inputs : List Bytes) (e : QueryError),
      validatePublicInputsFrom i inputs = .error e ↔
        ∃ j inp, inputs[j]? = some inp ∧ isCanonicalScalar inp = false ∧
          (∀ k < j, ∀ x, inputs[k]? = some x → isCanonicalScalar x = true) ∧
          e = .nonCanonicalInput (i + j)
  | _, [], e => by simp [validatePublicInputsFrom_nil]
  | i, inp :: rest, e => by
    rw [validatePublicInputsFrom_cons]
    cases hc : isCanonicalScalar inp
    · -- the first input is the one named
      simp only [Bool.false_eq_true, if_false, Except.error.injEq]
      constructor
      · rintro rfl
        exact ⟨0, inp, rfl, hc, fun k hk => absurd hk (Nat.not_lt_zero k), rfl⟩
      · rintro ⟨j, x, hx, hxc, hbefore, rfl⟩
        cases j with
        | zero => rfl
        | succ j =>
          have := hbefore 0 (Nat.succ_pos j) inp rfl
          rw [hc] at this
          cases this
    · -- the first input passes, and the loop goes on with the next index
      rw [if_pos rfl, validatePublicInputsFrom_eq_error (i + 1) rest e]
      constructor
      · rintro ⟨j, x, hx, hxc, hbefore, rfl⟩
        refine ⟨j + 1, x, hx, hxc, fun k hk y hy => ?_, by rw [Nat.add_assoc, Nat.add_comm 1 j]⟩
        cases k with
        | zero =>
          cases hy
          exact hc
        | succ k => exact hbefore k (Nat.lt_of_succ_lt_succ hk) y hy
      · rintro ⟨j, x, hx, hxc, hbefore, rfl⟩
        cases j with
        | zero =>
          cases hx
          rw [hc] at hxc
          cases hxc
        | succ j =>
          refine ⟨j, x, hx, hxc, fun k hk y hy => hbefore (k + 1) (Nat.succ_lt_succ hk) y hy, ?_⟩
          rw [Nat.add_assoc, Nat.add_comm 1 j]

theorem validatePublicInputsInScalarField_eq_ok {inputs : List Bytes} :
    validatePublicInputsInScalarField inputs = .ok () ↔
      ∀ inp ∈ inputs, isCanonicalScalar inp = true :=
  validatePublicInputsFrom_eq_ok 0 inputs

theorem verify_eq_ok {vk proof : Bytes} {inputs : List Bytes} {verified : Bool} :
    verify V vk proof inputs = .ok verified ↔
      (∀ inp ∈ inputs, isCanonicalScalar inp = true) ∧ V.groth16 vk proof inputs = .ok verified := by
  simp only [verify, bind_const_eq_ok, validatePublicInputsInScalarField_eq_ok,
    Outcome.recover_eq_ok]

end Spec

/-! ## The size of the public inputs -/

section Size

variable {inputs : List Bytes}

/-- The size loop is the checked sum of the inputs' lengths as 64-bit words. -/
theorem publicInputsSize_eq_checkedSum :
    ∀ (acc : UInt64) (inputs : List Bytes), publicInputsSize acc inputs =
      ofOption (Word.checkedSum acc (inputs.map fun inp => UInt64.ofNat inp.length))
        .publicInputsOverflow
  | _, [] => rfl
  | acc, inp :: rest => by
    rw [publicInputsSize_cons, List.map_cons, Word.checkedSum_cons]
    split_ifs
    · rfl
    · exact publicInputsSize_eq_checkedSum _ rest

/-- The lengths, as 64-bit words and back, are the lengths when each fits in a word, as Go's
`len` always does. -/
theorem map_toNat_lengths (hlen : ∀ inp ∈ inputs, inp.length < 2 ^ 64) :
    (inputs.map fun inp => UInt64.ofNat inp.length).map UInt64.toNat = inputs.map List.length := by
  rw [List.map_map]
  exact List.map_congr_left fun inp h => UInt64.toNat_ofNat_of_lt' (hlen inp h)

/-- The size loop of `ProofVerify` is exact: it returns the true total length of the public inputs
when that fits in 64 bits, and the overflow error otherwise. -/
theorem publicInputsSize_exact (hlen : ∀ inp ∈ inputs, inp.length < 2 ^ 64) :
    publicInputsSize 0 inputs =
      if (inputs.map List.length).sum < 2 ^ 64 then
        .ok (UInt64.ofNat (inputs.map List.length).sum)
      else .error .publicInputsOverflow := by
  have hsum := Word.checkedSum_eq_some_iff 0 (inputs.map fun inp => UInt64.ofNat inp.length)
  rw [map_toNat_lengths hlen, UInt64.toNat_zero, Nat.zero_add] at hsum
  rw [publicInputsSize_eq_checkedSum]
  split_ifs with hfit
  · -- the loop ends with the word of the true total
    rw [(hsum _).2 ⟨hfit, UInt64.toNat_ofNat_of_lt' hfit⟩]
    rfl
  · -- no word is the total, so the loop stops at a wrap
    have hnone : Word.checkedSum 0 (inputs.map fun inp => UInt64.ofNat inp.length) = none :=
      Option.eq_none_iff_forall_ne_some.2 fun size h => hfit ((hsum size).1 h).1
    rw [hnone]
    rfl

/-- The size check of `ProofVerify` passes exactly when the public inputs' total length is within
the limit. -/
theorem publicInputsSize_within (hlen : ∀ inp ∈ inputs, inp.length < 2 ^ 64) (max : UInt64) :
    (∃ size, publicInputsSize 0 inputs = .ok size ∧ ¬size > max) ↔
      (inputs.map List.length).sum ≤ max.toNat := by
  have hmax := max.toNat_lt
  rw [publicInputsSize_exact hlen]
  split_ifs with hfit
  · simp only [Except.ok.injEq, exists_eq_left', gt_iff_lt, UInt64.lt_iff_toNat_lt,
      UInt64.toNat_ofNat_of_lt' hfit, not_lt]
  · simp only [false_and, exists_false, false_iff]
    omega

end Size

/-! ## What the verification queries answer -/

/-- Proof libraries that read every proof and key and accept every proof. -/
def acceptingVerifiers : Verifiers where
  circomProof _ := .ok ()
  circomVKey _ := .ok ()
  groth16 _ _ _ := .ok true
  honkVKey _ := .ok ()
  honkProof _ := .ok ()
  honkVerifier _ := .ok ()
  honkVerify _ _ _ := .ok true
  gnarkVKey _ := .ok ()
  gnarkProof _ := .ok ()
  gnarkWitness := .ok ()
  gnarkPublicInputs _ := .ok ()
  gnarkVerify _ _ _ := .ok ()

/-- External functions that accept every account, read every Circom key as the test key and
accept every other key. -/
def acceptingPrimitives : ZkPrimitives where
  accAddress a := some a
  unmarshalCircomVerificationKeyJSON _ := some testCircomVKey
  gnarkVKeyValid _ := true
  barretenbergVKeyValid _ _ := true

/-- A request for the key of id 1, with the public input 1. -/
def oneInputRequest : QueryVerifyRequest := ⟨[1], [[49]], [], 1⟩

section Answers

variable {V : Verifiers} {s : ZkState}

/-- `ProofVerify` answers exactly when the proof is non-empty and within the Groth16 limit, the
public inputs' true total length is within theirs, the proof parses, the key stored under the
requested name (or, without a name, under the requested nonzero id) parses as a Circom key, and
every public input is a canonical element of the scalar field; the answer is then the Groth16
verifier's on that key. -/
theorem proofVerify_eq_ok {req : QueryVerifyRequest}
    (hlen : ∀ inp ∈ req.publicInputs, inp.length < 2 ^ 64) {verified : Bool} :
    Querier.proofVerify V s req = .ok verified ↔
      req.proof ≠ [] ∧ req.proof.length ≤ (getParams s).maxGroth16ProofSizeBytes.toNat ∧
        (req.publicInputs.map List.length).sum ≤
          (getParams s).maxGroth16PublicInputSizeBytes.toNat ∧
        V.circomProof req.proof = .ok () ∧
        ∃ id vkey, RequestedKey s req.vkeyName req.vkeyId id vkey ∧ vkey.keyBytes ≠ [] ∧
          V.circomVKey vkey.keyBytes = .ok () ∧
          (∀ inp ∈ req.publicInputs, isCanonicalScalar inp = true) ∧
          V.groth16 vkey.keyBytes req.proof req.publicInputs = .ok verified := by
  simp only [Querier.proofVerify, bind_eq_ok, exists_unit, failIf_eq_ok, mapError_eq_ok,
    circomVKeyOf_eq_ok, validatePublicInputsInScalarField_eq_ok, verify_eq_ok, gt_iff_lt, not_lt]
  constructor
  · rintro ⟨hproof, -, hsize, size, hin, hmax, hcp, vk, ⟨id, vkey, hreq, hne, hck, rfl⟩, hcan, -,
      hg⟩
    exact ⟨hproof, hsize,
      (publicInputsSize_within hlen _).1 ⟨size, hin, hmax⟩, hcp, id, vkey, hreq, hne, hck, hcan,
      hg⟩
  · rintro ⟨hproof, hsize, hsum, hcp, id, vkey, hreq, hne, hck, hcan, hg⟩
    obtain ⟨size, hin, hmax⟩ := (publicInputsSize_within hlen _).2 hsum
    exact ⟨hproof, hreq.named, hsize, size, hin, hmax, hcp, vkey.keyBytes,
      ⟨id, vkey, hreq, hne, hck, rfl⟩, hcan, hcan, hg⟩

/-- The spec of `ProofVerify` on a one-input request to the store before genesis. -/
theorem proofVerify_eq_ok_one_input :
    (∀ inp ∈ oneInputRequest.publicInputs, inp.length < 2 ^ 64) ∧
      (Querier.proofVerify acceptingVerifiers .empty oneInputRequest = .ok true ↔
        oneInputRequest.proof ≠ [] ∧
          oneInputRequest.proof.length ≤ (getParams .empty).maxGroth16ProofSizeBytes.toNat ∧
          (oneInputRequest.publicInputs.map List.length).sum ≤
            (getParams .empty).maxGroth16PublicInputSizeBytes.toNat ∧
          acceptingVerifiers.circomProof oneInputRequest.proof = .ok () ∧
          ∃ id vkey, RequestedKey .empty oneInputRequest.vkeyName oneInputRequest.vkeyId id vkey ∧
            vkey.keyBytes ≠ [] ∧ acceptingVerifiers.circomVKey vkey.keyBytes = .ok () ∧
            (∀ inp ∈ oneInputRequest.publicInputs, isCanonicalScalar inp = true) ∧
            acceptingVerifiers.groth16 vkey.keyBytes oneInputRequest.proof
              oneInputRequest.publicInputs = .ok true) :=
  ⟨by decide, proofVerify_eq_ok (by decide)⟩

/-- `ProofVerifyUltraHonk` answers exactly when the proof and the public inputs are within the
UltraHonk limits, the key stored under the requested name (or, without a name, the requested
nonzero id) is an UltraHonk key, and the public inputs are a sequence of 32-byte field elements;
the answer is then Barretenberg's on exactly those field elements, in order. -/
theorem proofVerifyUltraHonk_eq_ok {req : QueryVerifyBytesRequest} {verified : Bool} :
    Querier.proofVerifyUltraHonk V s req = .ok verified ↔
      req.proof ≠ [] ∧ req.proof.length ≤ (getParams s).maxUltraHonkProofSizeBytes.toNat ∧
        req.publicInputs.length ≤ (getParams s).maxUltraHonkPublicInputSizeBytes.toNat ∧
        ∃ id vkey elems, RequestedKey s req.vkeyName req.vkeyId id vkey ∧
          vkey.proofSystem = .ultraHonkZk ∧ (∀ e ∈ elems, e.length = fieldElementSize) ∧
          elems.flatten = req.publicInputs ∧
          verifyUltraHonk V vkey.keyBytes req.proof elems = .ok verified := by
  simp only [Querier.proofVerifyUltraHonk, bind_eq_ok, exists_unit, failIf_eq_ok,
    checkedVKey_eq_ok, not_not]
  constructor
  · rintro ⟨vkey, ⟨hproof, hsize, hin, ⟨id, hreq⟩, hps⟩, hmod, hv⟩
    -- the field elements are the chunks the query cuts
    have hlen : req.publicInputs.length =
        fieldElementSize * (req.publicInputs.length / fieldElementSize) :=
      (Nat.mul_div_cancel' (Nat.dvd_of_mod_eq_zero hmod)).symm
    exact ⟨hproof, hsize, hin, id, vkey, _, hreq, hps,
      length_of_mem_chunks _ _ _ (Nat.le_of_eq hlen.symm), flatten_chunks _ _ _ hlen, hv⟩
  · rintro ⟨hproof, hsize, hin, id, vkey, elems, hreq, hps, helems, hflat, hv⟩
    -- the inputs are cut back into the given field elements
    have hlen : req.publicInputs.length = fieldElementSize * elems.length := by
      rw [← hflat]
      exact length_flatten_of_length elems helems
    refine ⟨vkey, ⟨hproof, hsize, hin, ⟨id, hreq⟩, hps⟩, by rw [hlen, Nat.mul_mod_right], ?_⟩
    rw [hlen, Nat.mul_div_cancel_left _ (by decide : 0 < fieldElementSize), ← hflat,
      chunks_flatten _ elems helems]
    exact hv

end Answers

/-! ## The lookups over the store -/

section Store

variable {s : ZkState}

theorem vKeyByName_eq_ok {name : Bytes} {vkey : VKey} {id : UInt64} :
    Querier.vKeyByName s name = .ok (vkey, id) ↔
      name ≠ [] ∧ getVKeyID s name = some id ∧ getVKey s id = some vkey := by
  simp only [Querier.vKeyByName, bind_eq_ok, exists_unit, failIf_eq_ok, ofOption_eq_ok,
    getVKeyByID_eq_ok, pure_eq_ok, Prod.mk.injEq]
  constructor
  · rintro ⟨hname, id', hid, vkey', hv, rfl, rfl⟩
    exact ⟨hname, hid, hv⟩
  · rintro ⟨hname, hid, hv⟩
    exact ⟨hname, id, hid, vkey, hv, rfl, rfl⟩

theorem hasVKey_eq_ok {name : Bytes} {r : Option UInt64} :
    Querier.hasVKey s name = .ok r ↔ name ≠ [] ∧ r = getVKeyID s name := by
  simp only [Querier.hasVKey, bind_eq_ok, exists_unit, failIf_eq_ok, pure_eq_ok, eq_comm (a := r)]

/-- Over a store that keeps the invariant, `VKeyByName` returns exactly the stored keys of the
name, with their ids. -/
theorem ZkState.Inv.vKeyByName_eq_ok (hI : s.Inv) {name : Bytes} {vkey : VKey} {id : UInt64} :
    Querier.vKeyByName s name = .ok (vkey, id) ↔
      name ≠ [] ∧ getVKey s id = some vkey ∧ vkey.name = name := by
  rw [Zk.vKeyByName_eq_ok]
  constructor
  · rintro ⟨hname, hid, hv⟩
    exact ⟨hname, hv, hI.name_eq hid hv⟩
  · rintro ⟨hname, hv, rfl⟩
    exact ⟨hname, (hI.index_iff _ id).2 ⟨vkey, hv, rfl⟩, hv⟩

/-- Over a store that keeps the invariant, `HasVKey` finds a name exactly when `VKeyByName` does,
with the same id. -/
theorem ZkState.Inv.hasVKey_some_iff (hI : s.Inv) {name : Bytes} {id : UInt64} :
    Querier.hasVKey s name = .ok (some id) ↔ ∃ vkey, Querier.vKeyByName s name = .ok (vkey, id) := by
  simp only [hasVKey_eq_ok, Zk.vKeyByName_eq_ok, eq_comm (a := some id)]
  constructor
  · rintro ⟨hname, hid⟩
    obtain ⟨vkey, hv, -⟩ := (hI.index_iff name id).1 hid
    exact ⟨vkey, hname, hid, hv⟩
  · rintro ⟨vkey, hname, hid, -⟩
    exact ⟨hname, hid⟩

/-- A key that `AddVKey` adds is what `VKeyByName` then returns for its name, with the id the
sequence held. -/
theorem vKeyByName_addVKey {P : ZkPrimitives} {authority name keyBytes description : Bytes}
    {proofSystem : ProofSystem} {r : UInt64 × ZkState} (hname : name ≠ [])
    (h : addVKey P s authority name keyBytes description proofSystem = .ok r) :
    r.1 = Querier.nextVKeyID s ∧
      Querier.vKeyByName r.2 name =
        .ok (⟨keyBytes, name, description, [], authority, proofSystem.orGroth16⟩, r.1) := by
  obtain ⟨-, -, -, rfl⟩ := addVKey_eq_ok.1 h
  refine ⟨rfl, Zk.vKeyByName_eq_ok.2 ⟨hname, ?_, ?_⟩⟩
  · rw [getVKeyID_insert, if_pos rfl]
  · rw [getVKey_insert, if_pos rfl]

end Store

/-- Along every covered run from a validated genesis whose ids have successors, the lookup
queries answer from the store: `VKeyByName` returns exactly the stored keys of the name, with
their ids; `HasVKey` finds a name exactly when `VKeyByName` does, with the same id; and the id
that `NextVKeyID` reports holds no key, and is the id under which `AddVKey` stores the next key,
which `VKeyByName` then returns. -/
theorem lookups_answer_from_store {P : ZkPrimitives} {moduleAuthority defaultVKeyBytes : Bytes}
    {gs : GenesisState} {s₀ : ZkState} (hval : gs.validate P = .ok ())
    (hids : ∀ v ∈ gs.vkeys, v.id.toNat + 1 < 2 ^ 64)
    (hinit : initGenesis P moduleAuthority .empty gs = .ok s₀) (es : List ZkEvent)
    (hes : Allowed (Covered moduleAuthority) (step P moduleAuthority defaultVKeyBytes) s₀ es) :
    let s := run P moduleAuthority defaultVKeyBytes s₀ es
    (∀ name vkey id, Querier.vKeyByName s name = .ok (vkey, id) ↔
        name ≠ [] ∧ getVKey s id = some vkey ∧ vkey.name = name) ∧
      (∀ name id, Querier.hasVKey s name = .ok (some id) ↔
        ∃ vkey, Querier.vKeyByName s name = .ok (vkey, id)) ∧
      Querier.vKey s (Querier.nextVKeyID s) = .error (.vkeyIdNotFound (Querier.nextVKeyID s)) ∧
      ∀ authority name keyBytes description proofSystem r, name ≠ [] →
        addVKey P s authority name keyBytes description proofSystem = .ok r →
        r.1 = Querier.nextVKeyID s ∧
          Querier.vKeyByName r.2 name =
            .ok (⟨keyBytes, name, description, [], authority, proofSystem.orGroth16⟩, r.1) := by
  intro s
  have hI : s.Inv := run_inv es hes (initGenesis_inv hval hids hinit)
  refine ⟨fun name vkey id => hI.vKeyByName_eq_ok, fun name id => hI.hasVKey_some_iff, ?_,
    fun _ _ _ _ _ _ hname h => vKeyByName_addVKey hname h⟩
  -- the sequence's id is not stored
  show ofOption (getVKey s s.nextVKeyID) _ = _
  rw [hI.getVKey_next]
  rfl

/-- A key added to the store that a genesis without keys loads. -/
def firstKeyRun : List ZkEvent := [.deliver (.addVKey [] [49] [1] [] .groth16)]

/-- The lookups after a key is added to the store that a genesis without keys loads. -/
theorem lookups_answer_after_first_key :
    let s := run acceptingPrimitives [] [] ⟨some defaultParams.withMaxLimitDefaults, .empty, 0, .empty⟩
      firstKeyRun
    (∀ name vkey id, Querier.vKeyByName s name = .ok (vkey, id) ↔
        name ≠ [] ∧ getVKey s id = some vkey ∧ vkey.name = name) ∧
      (∀ name id, Querier.hasVKey s name = .ok (some id) ↔
        ∃ vkey, Querier.vKeyByName s name = .ok (vkey, id)) ∧
      Querier.vKey s (Querier.nextVKeyID s) = .error (.vkeyIdNotFound (Querier.nextVKeyID s)) ∧
      ∀ authority name keyBytes description proofSystem r, name ≠ [] →
        addVKey acceptingPrimitives s authority name keyBytes description proofSystem = .ok r →
        r.1 = Querier.nextVKeyID s ∧
          Querier.vKeyByName r.2 name =
            .ok (⟨keyBytes, name, description, [], authority, proofSystem.orGroth16⟩, r.1) :=
  @lookups_answer_from_store acceptingPrimitives [] [] ⟨[], defaultParams⟩ _ rfl
    (fun _ h => absurd h List.not_mem_nil) rfl firstKeyRun ⟨by simp only [Covered]; decide, trivial⟩

end Xion.Zk
