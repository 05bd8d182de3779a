import Xion.Dkim.Keeper

/-!
# Store consistency and the genesis round trip

Two facts about the DKIM store over whole runs, both instances of the invariant rules of
`Xion.Dkim.Keeper`.

A record is stored under its own domain and selector, and its Poseidon hash is the hash of its
public key (`dkimPubKeys_hash_consistent`). `AddDkimPubKeys` computes the hash it stores, but
`GenesisState.Validate` does not compare the hash a genesis record carries with its key, so the
hash part holds for runs from a genesis whose records carry their own hashes: a genesis record
whose hash is any other string is loaded as it is (`genesis_record_hash_unchecked`).

`ExportGenesis` followed by `InitGenesis` gives the store back (`exportGenesis_roundtrip`) as long
as every stored key and revoked entry still decodes within `MaxPubkeySizeBytes`. Records are
checked against the limit of the time they are added, and `UpdateParams` may lower it under a
stored key, after which the exported genesis fails its own validation
(`exportGenesis_rejected_after_updateParams`).
-/

namespace Xion.Dkim

open Bytes Run

/-! ## Poseidon hashes of stored records -/

/-- A record's Poseidon hash is the big-endian encoding of the Poseidon hash of its key. -/
def HashMatches (P : Primitives) (r : DkimPubKey) : Prop :=
  ∃ hash, computePoseidonHash P r.pubKey = .ok hash ∧ r.poseidonHash = bigIntBytes hash

theorem withPoseidonHash_hashMatches {P : Primitives} {k r : DkimPubKey}
    (h : withPoseidonHash P k = .ok r) : HashMatches P r := by
  obtain ⟨hash, hhash, rfl⟩ := withPoseidonHash_eq_ok.1 h
  exact ⟨hash, hhash, rfl⟩

theorem addedSatisfy_hashMatches (P : Primitives) : AddedSatisfy P (HashMatches P) :=
  fun _ _ _ _ _ h => withPoseidonHash_hashMatches h

/-- In every run from a genesis whose records carry the hashes of their keys, every record is
stored under its domain and selector and carries the hash of its key. -/
theorem dkimPubKeys_hash_consistent {P : Primitives} {authority : String} {g : GenesisState}
    {s₀ : DkimState} (hg : initGenesis P .empty g = .ok s₀)
    (hhash : ∀ r ∈ g.dkimPubkeys, HashMatches P r) (ms : List DkimMsg) :
    ∀ k r, (run P authority s₀ ms).dkimPubKeys.get? k = some r →
      k = toLex (r.domain, r.selector) ∧ HashMatches P r := by
  have hinv : (run P authority s₀ ms).Inv (HashMatches P) fun _ => True :=
    run_inv (addedSatisfy_hashMatches P) (fun _ => trivial)
      (initGenesis_inv hg hhash fun _ _ => trivial) ms
  intro k r hk
  obtain ⟨hkey, -, hmatch⟩ := hinv.records k r hk
  exact ⟨hkey, hmatch⟩

/-- The Gmail record of `DefaultDkimPubKeys`, with the hash `AddDkimPubKeys` gives it. -/
def gmailDkimPubKey : DkimPubKey where
  domain := ofAscii "gmail.com"
  pubKey := gmailPubKey
  selector := ofAscii "20230601"
  poseidonHash := bigIntBytes gmailPoseidonHash
  version := versionDkim1Unspecified
  keyType := keyTypeRsaUnspecified

/-- The store loaded from a genesis with the default parameters and the Gmail record. -/
def gmailGenesisStore : DkimState :=
  ⟨defaultParams, SortedMap.empty.insert gmailDkimPubKey.key gmailDkimPubKey, .empty⟩

theorem gmailDkimPubKey_hashMatches : HashMatches gmailPrimitives gmailDkimPubKey :=
  ⟨gmailPoseidonHash, computePoseidonHash_gmail, rfl⟩

set_option maxRecDepth 16000 in
/-- After the Gmail genesis and a governance message adding the Gmail key again, the store holds
the Gmail record under its domain and selector, with the hash of its key. -/
theorem gmail_run_hash_consistent :
    (run gmailPrimitives govAuthority gmailGenesisStore
        [.addDkimPubKeys govAuthority [gmailDkimPubKey]]).dkimPubKeys.get? gmailDkimPubKey.key =
      some gmailDkimPubKey ∧
    gmailDkimPubKey.key = toLex (gmailDkimPubKey.domain, gmailDkimPubKey.selector) ∧
      HashMatches gmailPrimitives gmailDkimPubKey := by
  have hget : (run gmailPrimitives govAuthority gmailGenesisStore
      [.addDkimPubKeys govAuthority [gmailDkimPubKey]]).dkimPubKeys.get? gmailDkimPubKey.key =
        some gmailDkimPubKey := by
    decide +kernel
  refine ⟨hget, dkimPubKeys_hash_consistent (g := ⟨defaultParams, [gmailDkimPubKey], []⟩)
    (by decide) ?_ _ _ _ hget⟩
  intro r hr
  rw [List.mem_singleton.1 hr]
  exact gmailDkimPubKey_hashMatches

set_option maxRecDepth 4000 in
/-- A genesis record whose hash is the text `test`, as in the module's genesis tests, passes
validation and is stored with that hash, which is not the hash of its key. -/
theorem genesis_record_hash_unchecked :
    GenesisState.validate gmailPrimitives
        ⟨defaultParams, [{ gmailDkimPubKey with poseidonHash := ofAscii "test" }], []⟩ = .ok () ∧
    initGenesis gmailPrimitives .empty
        ⟨defaultParams, [{ gmailDkimPubKey with poseidonHash := ofAscii "test" }], []⟩ =
      .ok ⟨defaultParams, SortedMap.empty.insert gmailDkimPubKey.key
        { gmailDkimPubKey with poseidonHash := ofAscii "test" }, .empty⟩ ∧
    ¬HashMatches gmailPrimitives { gmailDkimPubKey with poseidonHash := ofAscii "test" } := by
  refine ⟨by decide, by decide, ?_⟩
  rintro ⟨hash, hcompute, hbytes⟩
  rw [show gmailDkimPubKey.pubKey = gmailPubKey from rfl, computePoseidonHash_gmail] at hcompute
  cases hcompute
  revert hbytes
  decide

/-! ## The genesis round trip -/

/-- A record as `GenesisState.Validate` reads it, short of the size limit: valid metadata and a
key that decodes and parses. -/
def RecordParses (P : Primitives) (r : DkimPubKey) : Prop :=
  validateDkimPubKeyMetadata r = .ok () ∧
    ∃ bz k, P.base64Decode r.pubKey = some bz ∧ parseRSAPublicKey P bz = .ok k

/-- A revoked entry as `GenesisState.Validate` reads it, short of the size limit: a 32-byte
digest or a key that parses. -/
def RevokedParses (P : Primitives) (c : Bytes) : Prop :=
  ∃ bz, P.base64Decode c = some bz ∧ (bz.length = 32 ∨ ∃ k, parseRSAPublicKey P bz = .ok k)

/-- Every stored key and revoked entry decodes to at most `MaxPubkeySizeBytes` bytes. -/
def KeysFit (P : Primitives) (s : DkimState) : Prop :=
  (∀ k r, s.dkimPubKeys.get? k = some r → ∀ bz, P.base64Decode r.pubKey = some bz →
    bz.length ≤ s.params.maxPubkeySizeBytes.toNat) ∧
  ∀ c b, s.revokedKeys.get? c = some b → ∀ bz, P.base64Decode c = some bz →
    bz.length ≤ s.params.maxPubkeySizeBytes.toNat

/-- `KeysFit` over the entries of the two stores. -/
theorem keysFit_iff {P : Primitives} {s : DkimState} : KeysFit P s ↔
    (∀ e ∈ s.dkimPubKeys.entries, ∀ bz ∈ P.base64Decode e.2.pubKey,
        bz.length ≤ s.params.maxPubkeySizeBytes.toNat) ∧
      ∀ e ∈ s.revokedKeys.entries, ∀ bz ∈ P.base64Decode e.1,
        bz.length ≤ s.params.maxPubkeySizeBytes.toNat := by
  simp only [KeysFit, Prod.forall, SortedMap.mem_entries_iff, Option.mem_def]

instance {P : Primitives} {s : DkimState} : Decidable (KeysFit P s) :=
  decidable_of_iff _ keysFit_iff.symm

section RoundTrip

variable {P : Primitives}

theorem checkDkimPubKey_parses {params : Params} {isRevoked : Option (Bytes → Bool)}
    {enforce : Bool} {k : DkimPubKey} (h : checkDkimPubKey P params isRevoked enforce k = .ok ()) :
    RecordParses P k := by
  simp only [checkDkimPubKey, bind_const_eq_ok] at h
  obtain ⟨hmeta, h⟩ := h
  obtain ⟨bz, hbz, h⟩ := bind_eq_ok.1 h
  obtain ⟨key, hkey, -⟩ := bind_eq_ok.1 h
  exact ⟨hmeta, bz, key, (decodePubKeyWithLimit_eq_ok.1 hbz).1, hkey⟩

theorem addedSatisfy_recordParses : AddedSatisfy P (RecordParses P) := by
  intro params isRevoked k r hcheck hr
  obtain ⟨hash, -, rfl⟩ := withPoseidonHash_eq_ok.1 hr
  -- The hash is the only field that changes, and the checks do not read it.
  exact checkDkimPubKey_parses hcheck

/-- The canonical text of a key decodes to its 32-byte digest, by the documented behaviour of
base64 and SHA-256. -/
theorem revokedParses_canonical (hb64 : ∀ b, P.base64Decode (P.base64Encode b) = some b)
    (hsha : ∀ b, (P.sha256 b).length = 32) (k : RsaPublicKey) :
    RevokedParses P (canonicalizeRSAPublicKey P k) :=
  ⟨_, hb64 _, .inl (hsha _)⟩

theorem GenesisState.validate_eq_ok {g : GenesisState} :
    g.validate P = .ok () ↔
      g.params.withDefaultMaxPubkeySize.validate = .ok () ∧
        validateDkimPubKeys P g.dkimPubkeys g.params.withDefaultMaxPubkeySize = .ok () ∧
        ∀ c ∈ g.revokedPubkeys,
          validateRevokedPubkey P g.params.withDefaultMaxPubkeySize c = .ok () := by
  simp only [GenesisState.validate, bind_const_eq_ok, forM_eq_ok]

theorem validateRevokedPubkey_eq_ok {params : Params} {c : Bytes} :
    validateRevokedPubkey P params c = .ok () ↔
      ∃ bz, decodePubKeyWithLimit P c params.maxPubkeySizeBytes = .ok bz ∧
        (bz.length = 32 ∨ ∃ k, parseRSAPublicKey P bz = .ok k) := by
  simp only [validateRevokedPubkey, bind_eq_ok]
  refine exists_congr fun bz => and_congr_right fun _ => ?_
  by_cases h32 : bz.length = 32
  · simp [h32]
  · simp only [h32, if_false, false_or, bind_eq_ok, pure_eq_ok, and_true]

/-- A genesis that passes validation has records and revoked entries that parse. -/
theorem validate_parses {g : GenesisState} (h : g.validate P = .ok ()) :
    (∀ r ∈ g.dkimPubkeys, RecordParses P r) ∧ ∀ c ∈ g.revokedPubkeys, RevokedParses P c := by
  obtain ⟨-, hkeys, hrevoked⟩ := GenesisState.validate_eq_ok.1 h
  refine ⟨fun r hr => checkDkimPubKey_parses (forM_eq_ok.1 hkeys r hr), fun c hc => ?_⟩
  obtain ⟨bz, hbz, hparse⟩ := validateRevokedPubkey_eq_ok.1 (hrevoked c hc)
  exact ⟨bz, (decodePubKeyWithLimit_eq_ok.1 hbz).1, hparse⟩

/-- Valid parameters have a non-zero size limit, which the defaulting keeps. -/
theorem Params.withDefaultMaxPubkeySize_of_validate {p : Params} (h : p.validate = .ok ()) :
    p.withDefaultMaxPubkeySize = p := by
  simp only [Params.validate, bind_const_eq_ok, failIf_eq_ok] at h
  have hne : p.maxPubkeySizeBytes ≠ 0 := by
    intro h0
    exact h.1 (by rw [h0]; decide)
  simp [Params.withDefaultMaxPubkeySize, hne]

/-- A record that parses and fits the size limit passes the genesis checks. -/
theorem checkDkimPubKey_genesis {params : Params} {r : DkimPubKey} (hr : RecordParses P r)
    (hfit : ∀ bz, P.base64Decode r.pubKey = some bz → bz.length ≤ params.maxPubkeySizeBytes.toNat) :
    checkDkimPubKey P params none false r = .ok () := by
  obtain ⟨hmeta, bz, k, hbz, hk⟩ := hr
  simp only [checkDkimPubKey, bind_const_eq_ok, hmeta, true_and]
  rw [bind_of_ok (decodePubKeyWithLimit_eq_ok.2 ⟨hbz, hfit bz hbz⟩), bind_of_ok hk,
    bind_const_eq_ok]
  simp

/-- The export of a store whose keys parse and fit the size limit passes validation. -/
theorem exportGenesis_validate {s : DkimState} (hs : s.Inv (RecordParses P) (RevokedParses P))
    (hfit : KeysFit P s) : (exportGenesis s).validate P = .ok () := by
  have hparams : s.params.withDefaultMaxPubkeySize = s.params :=
    Params.withDefaultMaxPubkeySize_of_validate hs.params_valid
  refine GenesisState.validate_eq_ok.2 ⟨?_, ?_, ?_⟩
  · exact hparams ▸ hs.params_valid
  · -- Each exported record is a stored one.
    refine forM_eq_ok.2 fun r hr => ?_
    obtain ⟨⟨k, r'⟩, hkr, rfl⟩ := List.mem_map.1 hr
    have hget := (SortedMap.mem_entries_iff _ _ _).1 hkr
    exact hparams ▸ checkDkimPubKey_genesis (hs.records k r' hget).2.2 (hfit.1 k r' hget)
  · intro c hc
    obtain ⟨⟨c', b⟩, hcb, rfl⟩ := List.mem_map.1 hc
    have hget := (SortedMap.mem_entries_iff _ _ _).1 hcb
    obtain ⟨bz, hbz, hparse⟩ := (hs.revoked c' b hget).2
    rw [show (exportGenesis s).params = s.params from rfl, hparams]
    exact validateRevokedPubkey_eq_ok.2
      ⟨bz, decodePubKeyWithLimit_eq_ok.2 ⟨hbz, hfit.2 c' b hget bz hbz⟩, hparse⟩

/-- Saving records whose keys can be encoded stores each of them in turn. -/
theorem saveDkimPubKeys_eq_insertAll :
    ∀ {m : SortedMap DkimKey DkimPubKey} {ks : List DkimPubKey}, (∀ r ∈ ks, r.key.Encodes) →
      saveDkimPubKeys m ks = .ok (m.insertAll (ks.map fun r => (r.key, r)))
  | _, [], _ => rfl
  | m, r :: rs, h => by
    have hr : setDkimPubKeyEntry m r.key r = .ok (m.insert r.key r) :=
      setDkimPubKeyEntry_eq_ok.2 ⟨h r List.mem_cons_self, rfl⟩
    have hrest := saveDkimPubKeys_eq_insertAll (m := m.insert r.key r)
      fun r' hr' => h r' (List.mem_cons_of_mem r hr')
    simp only [saveDkimPubKeys, List.foldlM_cons, bind_of_ok hr] at hrest ⊢
    exact hrest

/-- Marking the keys of a revoked set whose values are all `true` rebuilds it. -/
theorem foldl_insert_entries {M : SortedMap Bytes Bool} (hM : ∀ c b, M.get? c = some b → b = true) :
    (M.entries.map Prod.fst).foldl (fun m revoked => m.insert revoked true) .empty = M := by
  have htrue : M.entries.map (fun e => (e.1, true)) = M.entries := by
    conv_rhs => rw [← List.map_id M.entries]
    refine List.map_congr_left fun ⟨c, b⟩ he => ?_
    rw [hM c b ((SortedMap.mem_entries_iff _ _ _).1 he)]
    rfl
  rw [List.foldl_map]
  calc M.entries.foldl (fun m e => m.insert e.1 true) .empty
      = SortedMap.ofList (M.entries.map fun e => (e.1, true)) := by
        rw [SortedMap.ofList, SortedMap.insertAll, List.foldl_map]
    _ = M := by rw [htrue, SortedMap.ofList_entries]

/-- Importing the export of a well-formed store whose keys parse and fit the size limit gives
the store back. -/
theorem initGenesis_exportGenesis {s : DkimState} (hs : s.Inv (RecordParses P) (RevokedParses P))
    (hfit : KeysFit P s) : initGenesis P .empty (exportGenesis s) = .ok s := by
  have hparams : s.params.withDefaultMaxPubkeySize = s.params :=
    Params.withDefaultMaxPubkeySize_of_validate hs.params_valid
  -- Every record is stored under its own key, so the records list their keys back.
  have hkeys : (s.dkimPubKeys.entries.map Prod.snd).map (fun r => (r.key, r)) =
      s.dkimPubKeys.entries := by
    rw [List.map_map]
    conv_rhs => rw [← List.map_id s.dkimPubKeys.entries]
    refine List.map_congr_left fun ⟨k, r⟩ he => ?_
    have hk := (hs.records k r ((SortedMap.mem_entries_iff _ _ _).1 he)).1
    show (r.key, r) = (k, r)
    rw [← hk]
  have hencodes : ∀ r ∈ s.dkimPubKeys.entries.map Prod.snd, r.key.Encodes := by
    intro r hr
    obtain ⟨⟨k, r'⟩, hkr, rfl⟩ := List.mem_map.1 hr
    have hget := (SortedMap.mem_entries_iff _ _ _).1 hkr
    obtain ⟨hk, he, -⟩ := hs.records k r' hget
    exact hk ▸ he
  refine initGenesis_eq_ok.2 ⟨exportGenesis_validate hs hfit, _,
    setParams_eq_ok.2 ⟨?_, rfl⟩, _, saveDkimPubKeys_eq_insertAll hencodes, ?_⟩
  · simp only [exportGenesis, hparams]
    exact hs.params_valid
  · simp only [exportGenesis, hparams, hkeys, DkimState.empty]
    rw [foldl_insert_entries fun c b h => (hs.revoked c b h).1]
    rw [show SortedMap.empty.insertAll s.dkimPubKeys.entries = s.dkimPubKeys from
      SortedMap.ofList_entries _]

/-- In every run from a genesis that `InitGenesis` accepts, as long as every stored key and
revoked entry decodes within the current size limit, the export passes validation and importing
it on the empty store gives the state back. -/
theorem exportGenesis_roundtrip {authority : String}
    (hb64 : ∀ b, P.base64Decode (P.base64Encode b) = some b)
    (hsha : ∀ b, (P.sha256 b).length = 32) {g : GenesisState} {s₀ : DkimState}
    (hg : initGenesis P .empty g = .ok s₀) (ms : List DkimMsg)
    (hfit : KeysFit P (run P authority s₀ ms)) :
    (exportGenesis (run P authority s₀ ms)).validate P = .ok () ∧
      initGenesis P .empty (exportGenesis (run P authority s₀ ms)) =
        .ok (run P authority s₀ ms) := by
  obtain ⟨hrecords, hrevoked⟩ := validate_parses (initGenesis_eq_ok.1 hg).1
  have hinv : (run P authority s₀ ms).Inv (RecordParses P) (RevokedParses P) :=
    run_inv addedSatisfy_recordParses (revokedParses_canonical hb64 hsha)
      (initGenesis_inv hg hrecords hrevoked) ms
  exact ⟨exportGenesis_validate hinv hfit, initGenesis_exportGenesis hinv hfit⟩

end RoundTrip

set_option maxRecDepth 16000 in
/-- The round trip after the Gmail genesis and a governance message adding the Gmail key again,
with base64 the standard encoding and SHA-256 a 32-byte digest. -/
theorem gmail_exportGenesis_roundtrip :
    (exportGenesis (run gmailPrimitives govAuthority gmailGenesisStore
        [.addDkimPubKeys govAuthority [gmailDkimPubKey]])).validate gmailPrimitives = .ok () ∧
      initGenesis gmailPrimitives .empty (exportGenesis (run gmailPrimitives govAuthority
        gmailGenesisStore [.addDkimPubKeys govAuthority [gmailDkimPubKey]])) =
        .ok (run gmailPrimitives govAuthority gmailGenesisStore
          [.addDkimPubKeys govAuthority [gmailDkimPubKey]]) :=
  exportGenesis_roundtrip Base64.decode_encode
    (fun b => by
      show (if b = gmailPkcs1 then gmailPkcs1Digest else List.replicate 32 0).length = 32
      split
      · rfl
      · exact List.length_replicate)
    (g := ⟨defaultParams, [gmailDkimPubKey], []⟩) (by decide) _ (by decide +kernel)

set_option maxRecDepth 4000 in
/-- Lowering the size limit below a stored key makes the export fail its own validation. -/
theorem exportGenesis_rejected_after_updateParams :
    initGenesis gmailPrimitives .empty ⟨defaultParams, [gmailDkimPubKey], []⟩ =
      .ok gmailGenesisStore ∧
    (exportGenesis (run gmailPrimitives govAuthority gmailGenesisStore
        [.updateParams govAuthority { defaultParams with maxPubkeySizeBytes := 100 }])).validate
      gmailPrimitives = .error .pubKeyTooLarge :=
  ⟨by decide, by decide⟩

end Xion.Dkim
