import Xion.Dkim.Poseidon
import Xion.Lib.SortedMap
import Xion.Lib.KeyCodec
import Mathlib.Data.List.Lex
import Mathlib.Data.Prod.Lex
import Mathlib.Order.Fin.Basic

/-!
# The DKIM keeper

`x/dkim/keeper`: the module's store (the parameters, the `DkimPubKeys` map keyed by domain and
selector, and the `RevokedKeys` set of canonical key hashes), genesis import and export, and the
four message handlers `AddDkimPubKeys`, `RemoveDkimPubKey`, `RevokeDkimPubKey` and
`UpdateParams`, with the key validation of `msgs.go`, `pubkey.go` and `base64.go` they call.

A handler maps a state to a new state or an error; `step` commits a successful message and
discards a failed one. A chain's state is loaded by `InitGenesis`, which first runs
`GenesisState.Validate`, and then changed by messages. `DkimState.Inv` is the invariant of every
such state for properties of records and revoked keys that the handlers keep (`initGenesis_inv`,
`step_inv`, `run_inv`); with nothing asked of either it is `DkimState.WellFormed`
(`run_wellFormed`): stored parameters are valid, every record is stored under its own domain and
selector, every stored domain can be encoded, and the revoked set holds `true` only.
-/

namespace Xion.Dkim

open Bytes Run

/-! ## Public keys -/

/-- `DecodePubKeyWithLimit`: the bytes of a base64 key, at most `maxDecodedSize` of them. -/
def decodePubKeyWithLimit (P : Primitives) (pubKey : Bytes) (maxDecodedSize : UInt64) :
    Except DkimError Bytes :=
  match P.base64Decode pubKey with
  | none => .error .invalidPubKey
  | some bz => if bz.length > maxDecodedSize.toNat then .error .pubKeyTooLarge else .ok bz

/-- `ParseRSAPublicKey`: PKIX first, then PKCS #1. -/
def parseRSAPublicKey (P : Primitives) (pubKeyBytes : Bytes) : Except DkimError RsaPublicKey :=
  match P.parsePKIXPublicKey pubKeyBytes with
  | some (.rsa key) => .ok key
  | some .other => .error .notRSAKey
  | none =>
    match P.parsePKCS1PublicKey pubKeyBytes with
    | some key => .ok key
    | none => .error .invalidPubKey

/-- `CanonicalizeRSAPublicKey`: the base64 text of the SHA-256 digest of the PKCS #1 encoding. -/
def canonicalizeRSAPublicKey (P : Primitives) (pubKey : RsaPublicKey) : Bytes :=
  P.base64Encode (P.sha256 (P.marshalPKCS1PublicKey pubKey))

/-- Go's `big.Int.Bytes`: the absolute value, big-endian, without leading zero bytes. -/
def bigIntBytes (x : ℤ) : Bytes := minBytesBE x.natAbs

/-- The checks of one key in `ValidateDkimPubKeysWithRevocation`. `isRevoked` is `none` for the
genesis path, which passes a nil lookup. -/
def checkDkimPubKey (P : Primitives) (params : Params) (isRevoked : Option (Bytes → Bool))
    (enforceMinKeySize : Bool) (dkimKey : DkimPubKey) : Except DkimError Unit := do
  validateDkimPubKeyMetadata dkimKey
  let pubKeyBytes ← decodePubKeyWithLimit P dkimKey.pubKey params.maxPubkeySizeBytes
  let rsaPubKey ← parseRSAPublicKey P pubKeyBytes
  failIf (enforceMinKeySize = true ∧ bitLen rsaPubKey.n < defaultMinRSAKeyBits) .invalidPubKey
  match isRevoked with
  | none => pure ()
  | some isRevoked =>
    failIf (isRevoked (canonicalizeRSAPublicKey P rsaPubKey) = true) .invalidatedKey

/-- `ValidateDkimPubKeysWithRevocation`. -/
def validateDkimPubKeysWithRevocation (P : Primitives) (dkimKeys : List DkimPubKey)
    (params : Params) (isRevoked : Option (Bytes → Bool)) (enforceMinKeySize : Bool) :
    Except DkimError Unit :=
  dkimKeys.forM (checkDkimPubKey P params isRevoked enforceMinKeySize)

/-- `ValidateDkimPubKeys`: the genesis path, without revocation lookup or minimal key size. -/
def validateDkimPubKeys (P : Primitives) (dkimKeys : List DkimPubKey) (params : Params) :
    Except DkimError Unit :=
  validateDkimPubKeysWithRevocation P dkimKeys params none false

/-- `ValidateDkimPubKey`, the stateless check of `MsgAddDkimPubKeys.ValidateBasic`. -/
def validateDkimPubKey (P : Primitives) (dkimKey : DkimPubKey) : Except DkimError Unit := do
  validateDkimPubKeyMetadata dkimKey
  let pubKeyBytes ← decodePubKeyWithLimit P dkimKey.pubKey validateBasicMaxPubKeySizeBytes
  let _ ← parseRSAPublicKey P pubKeyBytes

/-! ## The store -/

/-- The key `collections.Join(domain, selector)` of `DkimPubKeys`, in the order of the store:
by domain, then by selector. -/
abbrev DkimKey := Bytes ×ₗ Bytes

/-- The key a record is stored under by `SaveDkimPubKey` and `InitGenesis`. -/
def DkimPubKey.key (r : DkimPubKey) : DkimKey := toLex (r.domain, r.selector)

/-- The domain of a key. -/
def DkimKey.domain (k : DkimKey) : Bytes := (ofLex k).1

/-- The module's store. -/
structure DkimState where
  params : Params
  dkimPubKeys : SortedMap DkimKey DkimPubKey
  /-- `RevokedKeys`, a `Map[string, bool]` whose membership is what is read. -/
  revokedKeys : SortedMap Bytes Bool
  deriving DecidableEq

/-- The keeper's default authority, the address of the `gov` module account. -/
def govAuthority : String := "xion10d07y265gmmuvt4z0w9aw880jnsr700jctf8qc"

/-- The empty store; `GetParams` reads the default parameters from it. -/
def DkimState.empty : DkimState := ⟨defaultParams, .empty, .empty⟩

/-- Whether the pair key codec can encode a key: the domain, written in non-terminal form, must
not contain `0x00`. -/
def DkimKey.Encodes (k : DkimKey) : Prop :=
  (KeyCodec.stringPair (ofLex k).1 (ofLex k).2).isSome

instance (k : DkimKey) : Decidable k.Encodes := inferInstanceAs (Decidable (_ = true))

/-- `DkimPubKeys.Set`. -/
def setDkimPubKeyEntry (m : SortedMap DkimKey DkimPubKey) (k : DkimKey) (v : DkimPubKey) :
    Except DkimError (SortedMap DkimKey DkimPubKey) :=
  if k.Encodes then .ok (m.insert k v) else .error .encoding

/-- `DkimPubKeys.Remove`. -/
def removeDkimPubKeyEntry (m : SortedMap DkimKey DkimPubKey) (k : DkimKey) :
    Except DkimError (SortedMap DkimKey DkimPubKey) :=
  if k.Encodes then .ok (m.erase k) else .error .encoding

/-- `DkimPubKeys.Iterate` over `NewPrefixedPairRange(domain)`, read to the end: the entries under
the domain in key order, an error when the prefix cannot be encoded. -/
def prefixedEntries (m : SortedMap DkimKey DkimPubKey) (domain : Bytes) :
    Except DkimError (List (DkimKey × DkimPubKey)) :=
  if (KeyCodec.stringNonTerminal domain).isSome then
    .ok (m.entries.filter fun kv => kv.1.domain = domain)
  else .error .encoding

/-! ## Parameters and genesis -/

/-- The defaulting that `SetParams`, `UpdateParams`, `InitGenesis` and `GenesisState.Validate`
write out before validating: a zero `MaxPubkeySizeBytes` is `DefaultMaxPubKeySizeBytes`. -/
def Params.withDefaultMaxPubkeySize (p : Params) : Params :=
  if p.maxPubkeySizeBytes = 0 then { p with maxPubkeySizeBytes := defaultMaxPubKeySizeBytes }
  else p

/-- `SetParams`. -/
def setParams (s : DkimState) (params : Params) : Except DkimError DkimState := do
  let params := params.withDefaultMaxPubkeySize
  params.validate
  pure { s with params }

/-- The check of one revoked entry in `GenesisState.Validate`: a base64 SHA-256 digest of 32
bytes, or the base64 DER encoding of an RSA key. -/
def validateRevokedPubkey (P : Primitives) (params : Params) (revoked : Bytes) :
    Except DkimError Unit := do
  let pubKeyBytes ← decodePubKeyWithLimit P revoked params.maxPubkeySizeBytes
  if pubKeyBytes.length = 32 then pure ()
  else
    let _ ← parseRSAPublicKey P pubKeyBytes

/-- `GenesisState.Validate`. -/
def GenesisState.validate (P : Primitives) (gs : GenesisState) : Except DkimError Unit := do
  let params := gs.params.withDefaultMaxPubkeySize
  params.validate
  validateDkimPubKeys P gs.dkimPubkeys params
  gs.revokedPubkeys.forM (validateRevokedPubkey P params)

/-- `InitGenesis` on the store `s`. -/
def initGenesis (P : Primitives) (s : DkimState) (data : GenesisState) :
    Except DkimError DkimState := do
  data.validate P
  let s ← setParams s data.params.withDefaultMaxPubkeySize
  let revokedKeys := data.revokedPubkeys.foldl (fun m revoked => m.insert revoked true)
    s.revokedKeys
  let dkimPubKeys ← data.dkimPubkeys.foldlM (fun m pk => setDkimPubKeyEntry m pk.key pk)
    s.dkimPubKeys
  pure { s with revokedKeys, dkimPubKeys }

/-- `ExportGenesis`: the parameters, the records in key order, and the revoked keys in order. -/
def exportGenesis (s : DkimState) : GenesisState where
  params := s.params
  dkimPubkeys := s.dkimPubKeys.entries.map Prod.snd
  revokedPubkeys := s.revokedKeys.entries.map Prod.fst

/-! ## Messages -/

/-- The messages of the module, with the fields the handlers read. -/
inductive DkimMsg where
  | addDkimPubKeys (authority : String) (dkimPubkeys : List DkimPubKey)
  | removeDkimPubKey (authority : String) (domain selector : Bytes)
  | revokeDkimPubKey (signer : String) (domain privKey : Bytes)
  | updateParams (authority : String) (params : Params)

/-- A record with the Poseidon hash of its key, as `AddDkimPubKeys` fills it in. -/
def withPoseidonHash (P : Primitives) (k : DkimPubKey) : Except DkimError DkimPubKey :=
  match computePoseidonHash P k.pubKey with
  | .ok hash => .ok { k with poseidonHash := bigIntBytes hash }
  | .error _ => .error .invalidPubKey

/-- `SaveDkimPubKeys`: `SaveDkimPubKey` of each record in order, stopping at the first error. -/
def saveDkimPubKeys (m : SortedMap DkimKey DkimPubKey) (dkimKeys : List DkimPubKey) :
    Except DkimError (SortedMap DkimKey DkimPubKey) :=
  dkimKeys.foldlM (fun m dkimKey => setDkimPubKeyEntry m dkimKey.key dkimKey) m

/-- `AddDkimPubKeys`; `authority` is the keeper's. -/
def addDkimPubKeys (P : Primitives) (authority : String) (s : DkimState) (msgAuthority : String)
    (dkimPubkeys : List DkimPubKey) : Except DkimError DkimState := do
  failIf (authority ≠ msgAuthority) .invalidSigner
  validateDkimPubKeysWithRevocation P dkimPubkeys s.params
    (some fun pubKey => s.revokedKeys.contains pubKey) true
  let dkimPubkeys ← dkimPubkeys.mapM (withPoseidonHash P)
  let dkimPubKeys ← saveDkimPubKeys s.dkimPubKeys dkimPubkeys
  pure { s with dkimPubKeys }

/-- `RemoveDkimPubKey`. -/
def removeDkimPubKey (authority : String) (s : DkimState) (msgAuthority : String)
    (domain selector : Bytes) : Except DkimError DkimState := do
  failIf (authority ≠ msgAuthority) .invalidSigner
  let dkimPubKeys ← removeDkimPubKeyEntry s.dkimPubKeys (toLex (domain, selector))
  pure { s with dkimPubKeys }

/-- The public key of a PEM private key as `RevokeDkimPubKey` reads it: PKCS #1 first, then
PKCS #8. -/
def parseRsaPrivateKeyPem (P : Primitives) (privKey : Bytes) : Except DkimError RsaPublicKey :=
  match P.pemDecode privKey with
  | none => .error .parsingPrivKey
  | some der =>
    match P.parsePKCS1PrivateKey der with
    | some publicKey => .ok publicKey
    | none =>
      match P.parsePKCS8PrivateKey der with
      | some (.rsa publicKey) => .ok publicKey
      | some .other => .error .parsingPrivKey
      | none => .error .parsingPrivKey

/-- One record of the loop of `RevokeDkimPubKey`: a record whose key is `publicKey` is removed,
and the first removal records `canonicalKey` as revoked. The flag says whether a record was
removed. -/
def revokeMatching (P : Primitives) (params : Params) (publicKey : RsaPublicKey)
    (canonicalKey : Bytes) (acc : DkimState × Bool) (kv : DkimKey × DkimPubKey) :
    Except DkimError (DkimState × Bool) := do
  let pubKeyBytes ← decodePubKeyWithLimit P kv.2.pubKey params.maxPubkeySizeBytes
  let storedKey ← parseRSAPublicKey P pubKeyBytes
  if storedKey.e = publicKey.e ∧ storedKey.n = publicKey.n then
    let dkimPubKeys ← removeDkimPubKeyEntry acc.1.dkimPubKeys kv.1
    let revokedKeys :=
      if acc.2 then acc.1.revokedKeys else acc.1.revokedKeys.insert canonicalKey true
    pure ({ acc.1 with dkimPubKeys, revokedKeys }, true)
  else pure acc

/-- `RevokeDkimPubKey`: anyone holding the private key removes the records of its public key
under a domain. -/
def revokeDkimPubKey (P : Primitives) (s : DkimState) (domain privKey : Bytes) :
    Except DkimError DkimState := do
  let params := s.params
  let publicKey ← parseRsaPrivateKeyPem P privKey
  let canonicalKey := canonicalizeRSAPublicKey P publicKey
  let kvs ← prefixedEntries s.dkimPubKeys domain
  let acc ← kvs.foldlM (revokeMatching P params publicKey canonicalKey) (s, false)
  pure acc.1

/-- `UpdateParams`. -/
def updateParams (authority : String) (s : DkimState) (msgAuthority : String) (params : Params) :
    Except DkimError DkimState := do
  failIf (authority ≠ msgAuthority) .invalidSigner
  let params := params.withDefaultMaxPubkeySize
  params.validate
  setParams s params

/-- The handler of a message. -/
def handle (P : Primitives) (authority : String) (s : DkimState) :
    DkimMsg → Except DkimError DkimState
  | .addDkimPubKeys a ks => addDkimPubKeys P authority s a ks
  | .removeDkimPubKey a d sel => removeDkimPubKey authority s a d sel
  | .revokeDkimPubKey _ d pk => revokeDkimPubKey P s d pk
  | .updateParams a p => updateParams authority s a p

/-- Delivering a message: its writes are kept when it succeeds. -/
def step (P : Primitives) (authority : String) (s : DkimState) (m : DkimMsg) : DkimState :=
  commit (fun s => handle P authority s m) s

/-- The state after delivering the messages `ms` in order. -/
def run (P : Primitives) (authority : String) (s : DkimState) (ms : List DkimMsg) : DkimState :=
  exec (step P authority) s ms

/-! ## How each handler changes the store -/

theorem setDkimPubKeyEntry_eq_ok {m m' : SortedMap DkimKey DkimPubKey} {k : DkimKey}
    {v : DkimPubKey} : setDkimPubKeyEntry m k v = .ok m' ↔ k.Encodes ∧ m.insert k v = m' := by
  by_cases h : k.Encodes <;> simp [setDkimPubKeyEntry, h]

theorem removeDkimPubKeyEntry_eq_ok {m m' : SortedMap DkimKey DkimPubKey} {k : DkimKey} :
    removeDkimPubKeyEntry m k = .ok m' ↔ k.Encodes ∧ m.erase k = m' := by
  by_cases h : k.Encodes <;> simp [removeDkimPubKeyEntry, h]

theorem decodePubKeyWithLimit_eq_ok {P : Primitives} {pubKey bz : Bytes} {m : UInt64} :
    decodePubKeyWithLimit P pubKey m = .ok bz ↔
      P.base64Decode pubKey = some bz ∧ bz.length ≤ m.toNat := by
  unfold decodePubKeyWithLimit
  cases P.base64Decode pubKey with
  | none => simp
  | some b =>
    by_cases hlen : b.length > m.toNat
    · simp only [hlen, if_true, reduceCtorEq, false_iff, not_and, Option.some.injEq]
      rintro rfl
      omega
    · simp only [hlen, if_false, Except.ok.injEq, Option.some.injEq]
      constructor
      · rintro rfl
        exact ⟨rfl, by omega⟩
      · rintro ⟨rfl, -⟩
        rfl

/-- `AddDkimPubKeys` changes only the hash of a record. -/
theorem withPoseidonHash_eq_ok {P : Primitives} {k r : DkimPubKey} :
    withPoseidonHash P k = .ok r ↔
      ∃ hash, computePoseidonHash P k.pubKey = .ok hash ∧
        { k with poseidonHash := bigIntBytes hash } = r := by
  unfold withPoseidonHash
  cases computePoseidonHash P k.pubKey with
  | error e => simp
  | ok hash => simp

theorem setParams_eq_ok {s s' : DkimState} {params : Params} :
    setParams s params = .ok s' ↔
      params.withDefaultMaxPubkeySize.validate = .ok () ∧
        { s with params := params.withDefaultMaxPubkeySize } = s' := by
  simp only [setParams, bind_const_eq_ok, pure_eq_ok]

theorem addDkimPubKeys_eq_ok {P : Primitives} {authority a : String} {s s' : DkimState}
    {ks : List DkimPubKey} :
    addDkimPubKeys P authority s a ks = .ok s' ↔
      authority = a ∧
      validateDkimPubKeysWithRevocation P ks s.params
        (some fun pubKey => s.revokedKeys.contains pubKey) true = .ok () ∧
      ∃ ks', ks.mapM (withPoseidonHash P) = .ok ks' ∧
        ∃ m, saveDkimPubKeys s.dkimPubKeys ks' = .ok m ∧ { s with dkimPubKeys := m } = s' := by
  simp only [addDkimPubKeys, bind_const_eq_ok]
  simp only [bind_eq_ok, failIf_eq_ok, not_not, pure_eq_ok]

theorem removeDkimPubKey_eq_ok {authority a : String} {s s' : DkimState} {d sel : Bytes} :
    removeDkimPubKey authority s a d sel = .ok s' ↔
      authority = a ∧ ∃ m, removeDkimPubKeyEntry s.dkimPubKeys (toLex (d, sel)) = .ok m ∧
        { s with dkimPubKeys := m } = s' := by
  simp only [removeDkimPubKey, bind_const_eq_ok]
  simp only [bind_eq_ok, failIf_eq_ok, not_not, pure_eq_ok]

theorem updateParams_eq_ok {authority a : String} {s s' : DkimState} {params : Params} :
    updateParams authority s a params = .ok s' ↔
      authority = a ∧ params.withDefaultMaxPubkeySize.validate = .ok () ∧
        setParams s params.withDefaultMaxPubkeySize = .ok s' := by
  simp only [updateParams, bind_const_eq_ok, failIf_eq_ok, not_not]

theorem revokeDkimPubKey_eq_ok {P : Primitives} {s s' : DkimState} {d priv : Bytes} :
    revokeDkimPubKey P s d priv = .ok s' ↔
      ∃ publicKey, parseRsaPrivateKeyPem P priv = .ok publicKey ∧
        ∃ kvs, prefixedEntries s.dkimPubKeys d = .ok kvs ∧
          ∃ acc, kvs.foldlM (revokeMatching P s.params publicKey
            (canonicalizeRSAPublicKey P publicKey)) (s, false) = .ok acc ∧ acc.1 = s' := by
  simp only [revokeDkimPubKey, bind_eq_ok, pure_eq_ok]

/-- One record of the revocation loop is either kept, or removed with the revoked set updated
once. -/
theorem revokeMatching_eq_ok {P : Primitives} {params : Params} {k : RsaPublicKey} {c : Bytes}
    {acc acc' : DkimState × Bool} {kv : DkimKey × DkimPubKey} :
    revokeMatching P params k c acc kv = .ok acc' →
      ∃ bz stored, decodePubKeyWithLimit P kv.2.pubKey params.maxPubkeySizeBytes = .ok bz ∧
        parseRSAPublicKey P bz = .ok stored ∧
        ((stored.e = k.e ∧ stored.n = k.n) ∧ kv.1.Encodes ∧ acc'.2 = true ∧
            acc'.1.params = acc.1.params ∧ acc'.1.dkimPubKeys = acc.1.dkimPubKeys.erase kv.1 ∧
            acc'.1.revokedKeys =
              (if acc.2 then acc.1.revokedKeys else acc.1.revokedKeys.insert c true) ∨
          ¬(stored.e = k.e ∧ stored.n = k.n) ∧ acc' = acc) := by
  intro h
  simp only [revokeMatching, bind_eq_ok] at h
  obtain ⟨bz, hbz, stored, hstored, h⟩ := h
  refine ⟨bz, stored, hbz, hstored, ?_⟩
  by_cases hmatch : stored.e = k.e ∧ stored.n = k.n
  · -- The record carries the key: it is removed.
    rw [if_pos hmatch, bind_eq_ok] at h
    obtain ⟨m, hm, h⟩ := h
    obtain ⟨he, rfl⟩ := removeDkimPubKeyEntry_eq_ok.1 hm
    obtain rfl := pure_eq_ok.1 h
    exact .inl ⟨hmatch, he, rfl, rfl, rfl, rfl⟩
  · rw [if_neg hmatch] at h
    exact .inr ⟨hmatch, (pure_eq_ok.1 h).symm⟩

/-! ## Invariants -/

/-- Every record is stored under its own key, the key can be encoded, and the record
satisfies `Q`. -/
def RecordsSatisfy (Q : DkimPubKey → Prop) (m : SortedMap DkimKey DkimPubKey) : Prop :=
  ∀ k r, m.get? k = some r → k = r.key ∧ k.Encodes ∧ Q r

section Records

variable {Q : DkimPubKey → Prop} {m m' : SortedMap DkimKey DkimPubKey}

theorem RecordsSatisfy.empty : RecordsSatisfy Q .empty := by
  intro k r h
  simp at h

theorem RecordsSatisfy.insert (h : RecordsSatisfy Q m) {r : DkimPubKey} (he : r.key.Encodes)
    (hq : Q r) : RecordsSatisfy Q (m.insert r.key r) := by
  intro k r' hk
  rw [SortedMap.get?_insert] at hk
  split_ifs at hk with hkey
  · cases hk
    exact ⟨hkey.symm, hkey ▸ he, hq⟩
  · exact h k r' hk

theorem RecordsSatisfy.erase (h : RecordsSatisfy Q m) (k : DkimKey) :
    RecordsSatisfy Q (m.erase k) := by
  intro q r hq
  rw [SortedMap.get?_erase] at hq
  split_ifs at hq
  exact h q r hq

/-- Saving records that satisfy `Q` keeps every record satisfying `Q`. -/
theorem saveDkimPubKeys_satisfy (h : RecordsSatisfy Q m) {ks : List DkimPubKey}
    (hks : ∀ r ∈ ks, Q r) (hs : saveDkimPubKeys m ks = .ok m') : RecordsSatisfy Q m' :=
  foldlM_inv (fun t r t' hr ht hset => by
    obtain ⟨he, rfl⟩ := setDkimPubKeyEntry_eq_ok.1 hset
    exact ht.insert he (hks r hr)) h hs

end Records

/-- The invariant of the store: valid parameters, records under their own keys and satisfying
`Q`, and revoked keys mapped to `true` and satisfying `R`. -/
structure DkimState.Inv (Q : DkimPubKey → Prop) (R : Bytes → Prop) (s : DkimState) : Prop where
  params_valid : s.params.validate = .ok ()
  records : RecordsSatisfy Q s.dkimPubKeys
  revoked : ∀ c b, s.revokedKeys.get? c = some b → b = true ∧ R c

/-- The invariant of every reachable state, with nothing asked of records and revoked keys. -/
abbrev DkimState.WellFormed (s : DkimState) : Prop := s.Inv (fun _ => True) (fun _ => True)

/-- `Q` holds of every record that `AddDkimPubKeys` stores once its checks pass. -/
def AddedSatisfy (P : Primitives) (Q : DkimPubKey → Prop) : Prop :=
  ∀ params isRevoked k r, checkDkimPubKey P params isRevoked true k = .ok () →
    withPoseidonHash P k = .ok r → Q r

section Step

variable {P : Primitives} {authority : String} {Q : DkimPubKey → Prop} {R : Bytes → Prop}
  {s s' : DkimState}

/-- Revoked keys that satisfy `R` keep satisfying it when one more key that does is added. -/
theorem revoked_insert {M : SortedMap Bytes Bool}
    (h : ∀ c b, M.get? c = some b → b = true ∧ R c) {c : Bytes} (hc : R c) :
    ∀ c' b, (M.insert c true).get? c' = some b → b = true ∧ R c' := by
  intro c' b hb
  rw [SortedMap.get?_insert] at hb
  split_ifs at hb with hcc
  · cases hb
    exact ⟨rfl, hcc ▸ hc⟩
  · exact h c' b hb

theorem addDkimPubKeys_inv (hQ : AddedSatisfy P Q) {a : String} {ks : List DkimPubKey}
    (hs : s.Inv Q R) (h : addDkimPubKeys P authority s a ks = .ok s') : s'.Inv Q R := by
  obtain ⟨-, hval, ks', hks', m, hm, rfl⟩ := addDkimPubKeys_eq_ok.1 h
  -- Every saved record is a checked record with its hash filled in.
  have hadded : ∀ r ∈ ks', Q r := by
    intro r hr
    obtain ⟨k, hk, hkr⟩ := mem_of_mapM_eq_ok hks' r hr
    exact hQ _ _ k r (forM_eq_ok.1 hval k hk) hkr
  exact ⟨hs.params_valid, saveDkimPubKeys_satisfy hs.records hadded hm, hs.revoked⟩

theorem removeDkimPubKey_inv {a : String} {d sel : Bytes} (hs : s.Inv Q R)
    (h : removeDkimPubKey authority s a d sel = .ok s') : s'.Inv Q R := by
  obtain ⟨-, m, hm, rfl⟩ := removeDkimPubKey_eq_ok.1 h
  obtain ⟨-, rfl⟩ := removeDkimPubKeyEntry_eq_ok.1 hm
  exact ⟨hs.params_valid, hs.records.erase _, hs.revoked⟩

theorem updateParams_inv {a : String} {params : Params} (hs : s.Inv Q R)
    (h : updateParams authority s a params = .ok s') : s'.Inv Q R := by
  obtain ⟨-, -, hset⟩ := updateParams_eq_ok.1 h
  obtain ⟨hvalid, rfl⟩ := setParams_eq_ok.1 hset
  exact ⟨hvalid, hs.records, hs.revoked⟩

/-- One record of the revocation loop keeps the invariant and the parameters. -/
theorem revokeMatching_inv {params : Params} {k : RsaPublicKey} {c : Bytes} (hc : R c)
    {acc acc' : DkimState × Bool} {kv : DkimKey × DkimPubKey}
    (hacc : acc.1.Inv Q R) (h : revokeMatching P params k c acc kv = .ok acc') :
    acc'.1.Inv Q R ∧ acc'.1.params = acc.1.params := by
  obtain ⟨bz, stored, -, -, ⟨-, -, -, hparams, hkeys, hrevoked⟩ | ⟨-, rfl⟩⟩ :=
    revokeMatching_eq_ok h
  · refine ⟨⟨hparams ▸ hacc.params_valid, hkeys ▸ hacc.records.erase _, ?_⟩, hparams⟩
    rw [hrevoked]
    split_ifs
    · exact hacc.revoked
    · exact revoked_insert hacc.revoked hc
  · exact ⟨hacc, rfl⟩

theorem revokeDkimPubKey_inv (hR : ∀ k, R (canonicalizeRSAPublicKey P k)) {d priv : Bytes}
    (hs : s.Inv Q R) (h : revokeDkimPubKey P s d priv = .ok s') : s'.Inv Q R := by
  obtain ⟨k, -, kvs, -, acc, hloop, rfl⟩ := revokeDkimPubKey_eq_ok.1 h
  have : acc.1.Inv Q R ∧ acc.1.params = s.params :=
    foldlM_inv (I := fun acc : DkimState × Bool => acc.1.Inv Q R ∧ acc.1.params = s.params)
      (fun t kv t' _ ht hstep => by
        obtain ⟨hinv, hparams⟩ := revokeMatching_inv (hR k) ht.1 hstep
        exact ⟨hinv, hparams.trans ht.2⟩)
      ⟨hs, rfl⟩ hloop
  exact this.1

/-- Every message keeps the invariant: a failed one leaves the state as it was, and each
handler keeps it when it succeeds. -/
theorem step_inv (hQ : AddedSatisfy P Q) (hR : ∀ k, R (canonicalizeRSAPublicKey P k))
    (hs : s.Inv Q R) (m : DkimMsg) : (step P authority s m).Inv Q R := by
  refine commit_inv hs fun s' h => ?_
  cases m with
  | addDkimPubKeys a ks => exact addDkimPubKeys_inv hQ hs h
  | removeDkimPubKey a d sel => exact removeDkimPubKey_inv hs h
  | revokeDkimPubKey _ d priv => exact revokeDkimPubKey_inv hR hs h
  | updateParams a params => exact updateParams_inv hs h

theorem run_inv (hQ : AddedSatisfy P Q) (hR : ∀ k, R (canonicalizeRSAPublicKey P k))
    (hs : s.Inv Q R) (ms : List DkimMsg) : (run P authority s ms).Inv Q R :=
  exec_inv (I := DkimState.Inv Q R) (fun _ m h => step_inv hQ hR h m) ms hs

end Step

/-! ## Genesis -/

theorem initGenesis_eq_ok {P : Primitives} {s s' : DkimState} {g : GenesisState} :
    initGenesis P s g = .ok s' ↔
      g.validate P = .ok () ∧ ∃ s₁, setParams s g.params.withDefaultMaxPubkeySize = .ok s₁ ∧
        ∃ m, saveDkimPubKeys s₁.dkimPubKeys g.dkimPubkeys = .ok m ∧
          { s₁ with
            revokedKeys := g.revokedPubkeys.foldl (fun m revoked => m.insert revoked true)
              s₁.revokedKeys
            dkimPubKeys := m } = s' := by
  simp only [initGenesis, bind_const_eq_ok]
  simp only [bind_eq_ok, pure_eq_ok]
  rfl

/-- Marking keys as revoked one after another keeps every revoked key satisfying `R` when each
new one does. -/
theorem foldl_insert_revoked {R : Bytes → Prop} :
    ∀ (l : List Bytes) (M : SortedMap Bytes Bool), (∀ c ∈ l, R c) →
      (∀ c b, M.get? c = some b → b = true ∧ R c) →
      ∀ c b, (l.foldl (fun m revoked => m.insert revoked true) M).get? c = some b →
        b = true ∧ R c
  | [], _, _, hM => hM
  | c :: cs, _, hl, hM =>
    foldl_insert_revoked cs _ (fun c' hc' => hl c' (List.mem_cons_of_mem c hc'))
      (revoked_insert hM (hl c List.mem_cons_self))

/-- `InitGenesis` on the empty store establishes the invariant for records and revoked keys of
the genesis that satisfy `Q` and `R`. -/
theorem initGenesis_inv {P : Primitives} {Q : DkimPubKey → Prop} {R : Bytes → Prop}
    {g : GenesisState} {s : DkimState} (hg : initGenesis P .empty g = .ok s)
    (hQ : ∀ r ∈ g.dkimPubkeys, Q r) (hR : ∀ c ∈ g.revokedPubkeys, R c) : s.Inv Q R := by
  obtain ⟨-, s₁, hset, m, hm, rfl⟩ := initGenesis_eq_ok.1 hg
  obtain ⟨hvalid, rfl⟩ := setParams_eq_ok.1 hset
  refine ⟨hvalid, saveDkimPubKeys_satisfy .empty hQ hm, ?_⟩
  exact foldl_insert_revoked _ _ hR (fun c b h => by simp [DkimState.empty] at h)

/-- Every state a chain can be in is well formed: one loaded by `InitGenesis` and then changed by
any messages. -/
theorem run_wellFormed {P : Primitives} {authority : String} {g : GenesisState} {s : DkimState}
    (hg : initGenesis P .empty g = .ok s) (ms : List DkimMsg) :
    (run P authority s ms).WellFormed :=
  run_inv (fun _ _ _ _ _ _ => trivial) (fun _ => trivial)
    (initGenesis_inv hg (fun _ _ => trivial) (fun _ _ => trivial)) ms

/-! ## A key larger than the circuit's limbs

The checks bound a key by the size of its decoded bytes and, on the message path, by a minimum
of 1024 bits, but not by the 121·17 = 2057 bits of the circuit's limbs. A 3072-bit key fits in
the default 512 bytes; `ComputePoseidonHash` reads its modulus modulo `2^2057` only
(`bigIntToChunkedBytes_eq_iff`). The key below was generated with OpenSSL; its twin differs from
it in bit 3000 of the modulus.
-/

/-- The PKIX header of a 3072-bit RSA key up to its modulus: the SubjectPublicKeyInfo, the
algorithm `rsaEncryption`, and the modulus `INTEGER` of 385 bytes with its leading zero byte. -/
def spki3072Prefix : Bytes :=
  [48, 130, 1, 162, 48, 13, 6, 9, 42, 134, 72, 134, 247, 13, 1, 1, 1, 5, 0, 3, 130, 1, 143, 0, 48,
   130, 1, 138, 2, 130, 1, 129, 0]

/-- The PKIX DER bytes of the 3072-bit key of modulus `n` and exponent 65537. -/
def rsa3072Der (n : ℕ) : Bytes := spki3072Prefix ++ ofNatBE 384 n ++ [2, 3, 1, 0, 1]

/-- The modulus of the key, big-endian. -/
def rsa3072ModulusBytes : Bytes :=
  [170, 0, 211, 17, 48, 12, 229, 252, 78, 134, 66, 161, 113, 188, 94, 164, 61, 155, 24, 134, 119,
   227, 47, 61, 234, 133, 115, 58, 173, 172, 159, 117, 166, 165, 89, 137, 226, 42, 206, 126, 232,
   238, 65, 204, 238, 223, 17, 245, 177, 193, 76, 221, 96, 75, 138, 68, 138, 210, 78, 129, 93, 21,
   122, 125, 148, 241, 165, 63, 126, 22, 111, 124, 187, 162, 244, 151, 105, 7, 219, 108, 87, 65,
   110, 132, 153, 93, 118, 100, 253, 164, 116, 81, 186, 161, 42, 100, 168, 64, 93, 78, 8, 217, 253,
   52, 165, 193, 217, 154, 103, 68, 114, 213, 86, 247, 7, 155, 57, 117, 130, 27, 118, 82, 170, 45,
   8, 103, 54, 73, 188, 173, 137, 255, 103, 88, 148, 168, 38, 15, 6, 41, 104, 151, 187, 145, 176,
   47, 117, 4, 19, 215, 16, 222, 39, 62, 150, 10, 177, 119, 110, 119, 103, 98, 74, 183, 125, 212,
   191, 130, 100, 199, 209, 159, 106, 41, 170, 124, 86, 64, 55, 231, 230, 64, 104, 107, 165, 109,
   91, 56, 169, 218, 31, 78, 101, 85, 84, 185, 162, 93, 114, 132, 176, 6, 27, 126, 63, 168, 96, 205,
   205, 2, 131, 199, 90, 226, 53, 112, 32, 103, 136, 65, 107, 10, 154, 219, 65, 8, 123, 125, 211,
   216, 254, 88, 205, 99, 24, 228, 132, 88, 91, 102, 70, 222, 115, 31, 132, 5, 164, 6, 193, 221,
   210, 23, 22, 54, 39, 125, 35, 61, 39, 221, 165, 31, 171, 152, 124, 156, 171, 47, 230, 101, 104,
   10, 13, 171, 139, 155, 23, 183, 137, 185, 211, 153, 78, 58, 56, 255, 204, 138, 138, 132, 38, 251,
   223, 44, 229, 81, 18, 184, 159, 18, 19, 40, 57, 172, 228, 16, 96, 40, 188, 135, 29, 14, 116, 42,
   59, 80, 213, 14, 69, 232, 95, 233, 83, 103, 102, 80, 218, 234, 109, 188, 74, 31, 66, 236, 214,
   171, 125, 156, 176, 71, 37, 244, 113, 243, 116, 135, 109, 242, 114, 122, 161, 12, 230, 252, 164,
   207, 87, 15, 57, 69, 5, 231, 150, 147, 220, 89, 116, 228, 156, 14, 213, 148, 26, 15, 249, 201,
   118, 8, 75, 182, 49, 89, 202, 201]

/-- The 3072-bit key. -/
def rsa3072Key : RsaPublicKey := ⟨toNatLE rsa3072ModulusBytes.reverse, 65537⟩

/-- The key with bit 3000 of the modulus set. -/
def rsa3072TwinKey : RsaPublicKey := ⟨rsa3072Key.n + 2 ^ 3000, 65537⟩

/-- `x509.ParsePKIXPublicKey` on the DER bytes of the two keys. -/
def rsa3072Primitives : Primitives where
  frBytes := frElementBytes
  base64Decode := Base64.decode
  base64Encode := Base64.encode
  pemDecode _ := none
  parsePKIXPublicKey b :=
    if b = rsa3072Der rsa3072Key.n then some (.rsa rsa3072Key)
    else if b = rsa3072Der rsa3072TwinKey.n then some (.rsa rsa3072TwinKey) else none
  parsePKCS1PublicKey _ := none
  marshalPKCS1PublicKey _ := []
  sha256 _ := []
  parsePKCS1PrivateKey _ := none
  parsePKCS8PrivateKey _ := none
  poseidonHash _ := none

/-- The DKIM record of a key: its DER bytes in base64, for a domain and selector. -/
def rsa3072Record (selector : Bytes) (k : RsaPublicKey) : DkimPubKey where
  domain := ofAscii "example.com"
  pubKey := Base64.encode (rsa3072Der k.n)
  selector := selector
  poseidonHash := []
  version := versionDkim1Unspecified
  keyType := keyTypeRsaUnspecified

set_option maxRecDepth 16000 in
/-- Both 3072-bit keys pass the message path's checks under the default parameters and the
checks of `ValidateBasic`, and their moduli differ, but the limbs do not represent the modulus
and the two keys give `PreparePubkeyForHashing` the same limbs: the same Poseidon input. -/
theorem rsa3072_keys_share_limbs :
    validateDkimPubKeysWithRevocation rsa3072Primitives
        [rsa3072Record (ofAscii "a") rsa3072Key, rsa3072Record (ofAscii "b") rsa3072TwinKey]
        defaultParams none true = .ok () ∧
      validateDkimPubKey rsa3072Primitives (rsa3072Record (ofAscii "a") rsa3072Key) = .ok () ∧
      validateDkimPubKey rsa3072Primitives (rsa3072Record (ofAscii "b") rsa3072TwinKey) = .ok () ∧
      Nat.ofDigits (2 ^ circomBigintN) (Limbs.split circomBigintN circomBigintK rsa3072Key.n) ≠
        rsa3072Key.n ∧
      rsa3072Key.n ≠ rsa3072TwinKey.n ∧
      bigIntToChunkedBytes rsa3072Key.n circomBigintN circomBigintK =
        bigIntToChunkedBytes rsa3072TwinKey.n circomBigintN circomBigintK := by
  -- each part is checked on its own, which keeps the kernel's evaluation of the keys small
  refine ⟨?_, ?_, ?_, ?_, ?_, ?_⟩
  · decide +kernel
  · decide
  · decide +kernel
  · decide +kernel
  · decide +kernel
  · decide +kernel

end Xion.Dkim
