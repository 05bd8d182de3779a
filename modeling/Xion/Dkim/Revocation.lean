import Xion.Dkim.Genesis

/-!
# Revocation of DKIM keys

A key is revoked when the canonical text of its RSA key (`CanonicalizeRSAPublicKey`) is in
`RevokedKeys`. Nothing removes an entry from that set (`run_revoked_mono`), and
`AddDkimPubKeys` refuses a record whose key is revoked, whichever of PKIX and PKCS #1 encodes
it (`addDkimPubKeys_rejects_revoked`). `RevokeDkimPubKey` removes every record of the domain that
carries the key (`revokeDkimPubKey_removes`), and records the key as revoked when it removed one
(`revokeDkimPubKey_revokes`).

Two ways of revoking a key that read as such do not put its canonical text in the set, so a later
`AddDkimPubKeys` still accepts it. A genesis may list a revoked key as the base64 text of its DER
encoding, which `GenesisState.Validate` accepts and `InitGenesis` stores as it is
(`revoked_der_entry_not_enforced`); and a `RevokeDkimPubKey` that finds no record of the key
under the domain succeeds and changes nothing (`revokeDkimPubKey_eq_self_of_no_match`).
`revocation_effective` is what holds for the other ways.
-/

namespace Xion.Dkim

open Bytes Run

/-- A record carries the RSA key `k`: its base64 text decodes to bytes that parse as `k`. -/
def CarriesKey (P : Primitives) (r : DkimPubKey) (k : RsaPublicKey) : Prop :=
  ∃ bz, P.base64Decode r.pubKey = some bz ∧ parseRSAPublicKey P bz = .ok k

/-- The key `k` is revoked in `s`. -/
def Revoked (P : Primitives) (s : DkimState) (k : RsaPublicKey) : Prop :=
  s.revokedKeys.contains (canonicalizeRSAPublicKey P k) = true

section Revocation

variable {P : Primitives} {authority : String}

/-- The key a record carries is the one every successful decoding and parsing of it gives. -/
theorem CarriesKey.eq {r : DkimPubKey} {k stored : RsaPublicKey} {m : UInt64} {bz : Bytes}
    (hcarries : CarriesKey P r k) (hbz : decodePubKeyWithLimit P r.pubKey m = .ok bz)
    (hstored : parseRSAPublicKey P bz = .ok stored) : stored = k := by
  obtain ⟨bz', hbz', hk⟩ := hcarries
  have : bz = bz' := Option.some.inj ((decodePubKeyWithLimit_eq_ok.1 hbz).1.symm.trans hbz')
  subst this
  exact Except.ok.inj (hstored.symm.trans hk)

/-! ## Adding a revoked key fails -/

/-- The check of a record that carries a revoked key fails. -/
theorem checkDkimPubKey_revoked {params : Params} {isRevoked : Bytes → Bool} {enforce : Bool}
    {r : DkimPubKey} {k : RsaPublicKey} (hcarries : CarriesKey P r k)
    (hrevoked : isRevoked (canonicalizeRSAPublicKey P k) = true) :
    checkDkimPubKey P params (some isRevoked) enforce r ≠ .ok () := by
  intro h
  simp only [checkDkimPubKey, bind_const_eq_ok] at h
  obtain ⟨-, h⟩ := h
  obtain ⟨bz, hbz, h⟩ := bind_eq_ok.1 h
  obtain ⟨stored, hstored, h⟩ := bind_eq_ok.1 h
  obtain rfl := hcarries.eq hbz hstored
  simp only [bind_const_eq_ok, failIf_eq_ok] at h
  exact h.2 hrevoked

/-- `AddDkimPubKeys` fails when one of its records carries a revoked key. -/
theorem addDkimPubKeys_rejects_revoked {s s' : DkimState} {a : String} {ks : List DkimPubKey}
    {r : DkimPubKey} {k : RsaPublicKey} (hs : Revoked P s k) (hr : r ∈ ks)
    (hcarries : CarriesKey P r k) : addDkimPubKeys P authority s a ks ≠ .ok s' := by
  intro h
  obtain ⟨-, hval, -⟩ := addDkimPubKeys_eq_ok.1 h
  exact checkDkimPubKey_revoked hcarries hs (forM_eq_ok.1 hval r hr)

/-! ## Revoked keys stay revoked -/

/-- Every key revoked in `s` is revoked in `s'`. -/
def RevokedSubset (s s' : DkimState) : Prop :=
  ∀ c, s.revokedKeys.contains c = true → s'.revokedKeys.contains c = true

theorem contains_insert_of_contains {M : SortedMap Bytes Bool} {c c' : Bytes} {b : Bool}
    (h : M.contains c = true) : (M.insert c' b).contains c = true := by
  rw [SortedMap.contains_iff] at h ⊢
  obtain ⟨v, hv⟩ := h
  rw [SortedMap.get?_insert]
  split_ifs
  · exact ⟨b, rfl⟩
  · exact ⟨v, hv⟩

theorem contains_insert_self (M : SortedMap Bytes Bool) (c : Bytes) (b : Bool) :
    (M.insert c b).contains c = true := by
  simp

/-- The revocation loop only adds to the revoked set. -/
theorem revokeMatching_revokedSubset {params : Params} {k : RsaPublicKey} {c : Bytes}
    {acc acc' : DkimState × Bool} {kv : DkimKey × DkimPubKey}
    (h : revokeMatching P params k c acc kv = .ok acc') : RevokedSubset acc.1 acc'.1 := by
  intro c' hc'
  obtain ⟨-, -, -, -, ⟨-, -, -, -, -, hrevoked⟩ | ⟨-, rfl⟩⟩ := revokeMatching_eq_ok h
  · rw [hrevoked]
    split_ifs
    · exact hc'
    · exact contains_insert_of_contains hc'
  · exact hc'

/-- Every message only adds to the revoked set. -/
theorem step_revokedSubset (s : DkimState) (m : DkimMsg) :
    RevokedSubset s (step P authority s m) := by
  refine commit_rel (R := RevokedSubset) (fun _ h => h) fun s' h => ?_
  cases m with
  | addDkimPubKeys a ks =>
    obtain ⟨-, -, -, -, m, -, rfl⟩ := addDkimPubKeys_eq_ok.1 h
    exact fun _ h => h
  | removeDkimPubKey a d sel =>
    obtain ⟨-, m, -, rfl⟩ := removeDkimPubKey_eq_ok.1 h
    exact fun _ h => h
  | revokeDkimPubKey _ d priv =>
    obtain ⟨k, -, kvs, -, acc, hloop, rfl⟩ := revokeDkimPubKey_eq_ok.1 h
    exact foldlM_inv (I := fun acc : DkimState × Bool => RevokedSubset s acc.1)
      (fun t kv t' _ ht hstep c hc => revokeMatching_revokedSubset hstep c (ht c hc))
      (fun _ h => h) hloop
  | updateParams a params =>
    obtain ⟨-, -, hset⟩ := updateParams_eq_ok.1 h
    obtain ⟨-, rfl⟩ := setParams_eq_ok.1 hset
    exact fun _ h => h

/-- A key revoked before a run is revoked after it. -/
theorem run_revoked_mono {s : DkimState} {k : RsaPublicKey} (hs : Revoked P s k)
    (ms : List DkimMsg) : Revoked P (run P authority s ms) k :=
  exec_rel (R := RevokedSubset) (fun _ _ h => h) (fun _ _ _ h₁ h₂ c hc => h₂ c (h₁ c hc))
    step_revokedSubset s ms _ hs

/-! ## Revocation at genesis -/

theorem foldl_insert_contains :
    ∀ {l : List Bytes} {M : SortedMap Bytes Bool} {c : Bytes},
      c ∈ l ∨ M.contains c = true →
        (l.foldl (fun m revoked => m.insert revoked true) M).contains c = true
  | [], _, _, h => h.resolve_left List.not_mem_nil
  | c' :: cs, M, c, h => by
    rw [List.foldl_cons]
    refine foldl_insert_contains ?_
    rcases h with hc | hc
    · rcases List.mem_cons.1 hc with rfl | hc
      · exact .inr (contains_insert_self M c true)
      · exact .inl hc
    · exact .inr (contains_insert_of_contains hc)

/-- A key whose canonical text a genesis lists is revoked once the genesis is loaded. -/
theorem initGenesis_revoked {g : GenesisState} {s : DkimState} {k : RsaPublicKey}
    (hg : initGenesis P .empty g = .ok s)
    (hk : canonicalizeRSAPublicKey P k ∈ g.revokedPubkeys) : Revoked P s k := by
  obtain ⟨-, s₁, -, m, -, rfl⟩ := initGenesis_eq_ok.1 hg
  exact foldl_insert_contains (.inl hk)

/-! ## The revocation message -/

theorem prefixedEntries_eq_ok {m : SortedMap DkimKey DkimPubKey} {d : Bytes}
    {kvs : List (DkimKey × DkimPubKey)} :
    prefixedEntries m d = .ok kvs → kvs = m.entries.filter fun kv => kv.1.domain = d := by
  unfold prefixedEntries
  split_ifs
  · exact fun h => (Except.ok.inj h).symm
  · exact fun h => nomatch h

/-- The flag of the revocation loop is set only with the key's canonical text in the set. -/
def FlagSound (c : Bytes) (acc : DkimState × Bool) : Prop :=
  acc.2 = true → acc.1.revokedKeys.contains c = true

section Loop

variable {params : Params} {k : RsaPublicKey} {c : Bytes}

theorem revokeMatching_flagSound {acc acc' : DkimState × Bool} {kv : DkimKey × DkimPubKey}
    (hacc : FlagSound c acc) (h : revokeMatching P params k c acc kv = .ok acc') :
    FlagSound c acc' := by
  obtain ⟨-, -, -, -, ⟨-, -, -, -, -, hrevoked⟩ | ⟨-, rfl⟩⟩ := revokeMatching_eq_ok h
  · intro _
    rw [hrevoked]
    split_ifs with hflag
    · exact hacc hflag
    · exact contains_insert_self _ c true
  · exact hacc

/-- The flag of the loop ends set when it was set, or when a record carries the key. -/
theorem revokeLoop_flag :
    ∀ {kvs : List (DkimKey × DkimPubKey)} {acc acc' : DkimState × Bool},
      kvs.foldlM (revokeMatching P params k c) acc = .ok acc' →
        (acc.2 = true ∨ ∃ kv ∈ kvs, CarriesKey P kv.2 k) → acc'.2 = true
  | [], acc, acc', h, hflag => by
    rw [List.foldlM_nil, pure_eq_ok] at h
    subst h
    exact hflag.resolve_right (by simp)
  | kv :: kvs, acc, acc', h, hflag => by
    rw [List.foldlM_cons, bind_eq_ok] at h
    obtain ⟨acc₁, h₁, hrest⟩ := h
    refine revokeLoop_flag hrest ?_
    obtain ⟨bz, stored, hbz, hstored, ⟨-, -, hset, -⟩ | ⟨hne, rfl⟩⟩ := revokeMatching_eq_ok h₁
    · exact .inl hset
    · -- The record was kept, so it does not carry the key.
      rcases hflag with hflag | ⟨kv', hkv', hcarries⟩
      · exact .inl hflag
      rcases List.mem_cons.1 hkv' with rfl | hkv'
      · obtain rfl := hcarries.eq hbz hstored
        exact absurd ⟨rfl, rfl⟩ hne
      · exact .inr ⟨kv', hkv', hcarries⟩

/-- After the loop, a record is one that was there before, and none of the records the loop
went through carries the key. -/
theorem revokeLoop_removes :
    ∀ {kvs : List (DkimKey × DkimPubKey)} {acc acc' : DkimState × Bool},
      kvs.foldlM (revokeMatching P params k c) acc = .ok acc' →
        ∀ key r, acc'.1.dkimPubKeys.get? key = some r →
          acc.1.dkimPubKeys.get? key = some r ∧ ((key, r) ∈ kvs → ¬CarriesKey P r k)
  | [], acc, acc', h, key, r, hr => by
    rw [List.foldlM_nil, pure_eq_ok] at h
    subst h
    exact ⟨hr, by simp⟩
  | kv :: kvs, acc, acc', h, key, r, hr => by
    rw [List.foldlM_cons, bind_eq_ok] at h
    obtain ⟨acc₁, h₁, hrest⟩ := h
    obtain ⟨hr₁, hnot⟩ := revokeLoop_removes hrest key r hr
    obtain ⟨bz, stored, hbz, hstored, ⟨-, -, -, -, hkeys, -⟩ | ⟨hne, rfl⟩⟩ :=
      revokeMatching_eq_ok h₁
    · -- The record of `kv` was removed, so `key` is another key.
      rw [hkeys, SortedMap.get?_erase] at hr₁
      split_ifs at hr₁ with hkey
      refine ⟨hr₁, fun hmem => ?_⟩
      rcases List.mem_cons.1 hmem with hkv | hmem
      · exact absurd (congrArg Prod.fst hkv) hkey
      · exact hnot hmem
    · refine ⟨hr₁, fun hmem hcarries => ?_⟩
      rcases List.mem_cons.1 hmem with hkv | hmem
      · subst hkv
        obtain rfl := hcarries.eq hbz hstored
        exact hne ⟨rfl, rfl⟩
      · exact hnot hmem hcarries

/-- A loop that meets no record of the key changes nothing. -/
theorem revokeLoop_eq_self :
    ∀ {kvs : List (DkimKey × DkimPubKey)} {acc acc' : DkimState × Bool},
      kvs.foldlM (revokeMatching P params k c) acc = .ok acc' →
        (∀ kv ∈ kvs, ¬CarriesKey P kv.2 k) → acc' = acc
  | [], acc, acc', h, _ => by
    rw [List.foldlM_nil, pure_eq_ok] at h
    exact h.symm
  | kv :: kvs, acc, acc', h, hnone => by
    rw [List.foldlM_cons, bind_eq_ok] at h
    obtain ⟨acc₁, h₁, hrest⟩ := h
    obtain ⟨bz, stored, hbz, hstored, ⟨⟨he, hn⟩, -⟩ | ⟨-, rfl⟩⟩ := revokeMatching_eq_ok h₁
    · -- A match would be a record that carries the key.
      obtain rfl := RsaPublicKey.eq_of_e_n he hn
      exact absurd ⟨bz, (decodePubKeyWithLimit_eq_ok.1 hbz).1, hstored⟩
        (hnone kv List.mem_cons_self)
    · exact revokeLoop_eq_self hrest fun kv' hkv' => hnone kv' (List.mem_cons_of_mem kv hkv')

end Loop

/-- A successful `RevokeDkimPubKey` leaves no record of the domain that carries the key. -/
theorem revokeDkimPubKey_removes {s s' : DkimState} {d priv : Bytes} {k : RsaPublicKey}
    (h : revokeDkimPubKey P s d priv = .ok s') (hk : parseRsaPrivateKeyPem P priv = .ok k) :
    ∀ key r, s'.dkimPubKeys.get? key = some r → key.domain = d → ¬CarriesKey P r k := by
  obtain ⟨k', hk', kvs, hkvs, acc, hloop, rfl⟩ := revokeDkimPubKey_eq_ok.1 h
  obtain rfl : k = k' := Except.ok.inj (hk.symm.trans hk')
  intro key r hr hd
  obtain ⟨hr₀, hnot⟩ := revokeLoop_removes hloop key r hr
  refine hnot ?_
  rw [prefixedEntries_eq_ok hkvs, List.mem_filter]
  exact ⟨(SortedMap.mem_entries_iff _ _ _).2 hr₀, by simpa using hd⟩

/-- A successful `RevokeDkimPubKey` that meets a record of the key revokes the key. -/
theorem revokeDkimPubKey_revokes {s s' : DkimState} {d priv : Bytes} {k : RsaPublicKey}
    (h : revokeDkimPubKey P s d priv = .ok s') (hk : parseRsaPrivateKeyPem P priv = .ok k)
    (hmatch : ∃ key r, s.dkimPubKeys.get? key = some r ∧ key.domain = d ∧ CarriesKey P r k) :
    Revoked P s' k := by
  obtain ⟨k', hk', kvs, hkvs, acc, hloop, rfl⟩ := revokeDkimPubKey_eq_ok.1 h
  obtain rfl : k = k' := Except.ok.inj (hk.symm.trans hk')
  obtain ⟨key, r, hr, hd, hcarries⟩ := hmatch
  have hmem : (key, r) ∈ kvs := by
    rw [prefixedEntries_eq_ok hkvs, List.mem_filter]
    exact ⟨(SortedMap.mem_entries_iff _ _ _).2 hr, by simpa using hd⟩
  have hflag : acc.2 = true := revokeLoop_flag hloop (.inr ⟨(key, r), hmem, hcarries⟩)
  have hsound : FlagSound (canonicalizeRSAPublicKey P k) acc :=
    foldlM_inv (fun _ _ _ _ ht hstep => revokeMatching_flagSound ht hstep)
      (by intro h; cases h) hloop
  exact hsound hflag

/-- A successful `RevokeDkimPubKey` that meets no record of the key under the domain changes
nothing: the key is not recorded as revoked. -/
theorem revokeDkimPubKey_eq_self_of_no_match {s s' : DkimState} {d priv : Bytes}
    {k : RsaPublicKey} (h : revokeDkimPubKey P s d priv = .ok s')
    (hk : parseRsaPrivateKeyPem P priv = .ok k)
    (hnone : ∀ key r, s.dkimPubKeys.get? key = some r → key.domain = d → ¬CarriesKey P r k) :
    s' = s := by
  obtain ⟨k', hk', kvs, hkvs, acc, hloop, rfl⟩ := revokeDkimPubKey_eq_ok.1 h
  obtain rfl : k = k' := Except.ok.inj (hk.symm.trans hk')
  have hkvs' := prefixedEntries_eq_ok hkvs
  refine congrArg Prod.fst (revokeLoop_eq_self hloop fun kv hkv => ?_)
  rw [hkvs', List.mem_filter] at hkv
  exact hnone kv.1 kv.2 ((SortedMap.mem_entries_iff _ _ _).1 hkv.1) (by simpa using hkv.2)

/-- Revocation holds for keys whose canonical text a genesis lists, and for keys that a
successful `RevokeDkimPubKey` found under the domain: every later `AddDkimPubKeys` carrying the
key fails. After a successful `RevokeDkimPubKey`, no record of the domain carries the key. -/
theorem revocation_effective {g : GenesisState} {s₀ : DkimState}
    (hg : initGenesis P .empty g = .ok s₀) :
    (∀ k, canonicalizeRSAPublicKey P k ∈ g.revokedPubkeys →
      ∀ ms a ks r, r ∈ ks → CarriesKey P r k →
        ∀ s', addDkimPubKeys P authority (run P authority s₀ ms) a ks ≠ .ok s') ∧
    (∀ s d priv k s', revokeDkimPubKey P s d priv = .ok s' →
      parseRsaPrivateKeyPem P priv = .ok k →
      (∃ key r, s.dkimPubKeys.get? key = some r ∧ key.domain = d ∧ CarriesKey P r k) →
      ∀ ms a ks r, r ∈ ks → CarriesKey P r k →
        ∀ s'', addDkimPubKeys P authority (run P authority s' ms) a ks ≠ .ok s'') ∧
    (∀ s d priv k s', revokeDkimPubKey P s d priv = .ok s' →
      parseRsaPrivateKeyPem P priv = .ok k →
      ∀ key r, s'.dkimPubKeys.get? key = some r → key.domain = d → ¬CarriesKey P r k) := by
  refine ⟨?_, ?_, fun s d priv k s' h hk => revokeDkimPubKey_removes h hk⟩
  · intro k hk ms a ks r hr hcarries s'
    exact addDkimPubKeys_rejects_revoked (run_revoked_mono (initGenesis_revoked hg hk) ms) hr
      hcarries
  · intro s d priv k s' h hk hmatch ms a ks r hr hcarries s''
    exact addDkimPubKeys_rejects_revoked
      (run_revoked_mono (revokeDkimPubKey_revokes h hk hmatch) ms) hr hcarries

end Revocation

/-- The store loaded from a genesis with the default parameters, the Gmail record and the Gmail
key revoked by its canonical text. -/
def gmailRevokedStore : DkimState :=
  ⟨defaultParams, SortedMap.empty.insert gmailDkimPubKey.key gmailDkimPubKey,
    SortedMap.empty.insert gmailCanonicalKey true⟩

/-- The DER bytes of a private Gmail key for the examples; only its public half is read. -/
def gmailPrivateKeyDer : Bytes := ofAscii "gmail private key"

/-- The PEM text of `gmailPrivateKeyDer`. -/
def gmailPrivateKeyPem : Bytes := formatToPemKey (Base64.encode gmailPrivateKeyDer) true

/-- The Gmail primitives, in which the PEM block of `gmailPrivateKeyDer` parses as a PKCS #1
private key whose public half is the Gmail key. -/
def gmailRevokerPrimitives : Primitives :=
  { gmailPrimitives with
    pemDecode := fun s =>
      if s = gmailPrivateKeyPem then some gmailPrivateKeyDer else gmailPrimitives.pemDecode s
    parsePKCS1PrivateKey := fun b => if b = gmailPrivateKeyDer then some gmailRsaKey else none }

set_option maxRecDepth 4000 in
/-- Both ways of revoking the Gmail key stop a governance message from adding the Gmail record
again: a genesis that revokes the key by its canonical text, and `RevokeDkimPubKey` of the Gmail
domain with the private Gmail key on the store of the Gmail record. -/
theorem gmail_revoked_key_rejected :
    CarriesKey gmailRevokerPrimitives gmailDkimPubKey gmailRsaKey ∧
      (∃ e, addDkimPubKeys gmailRevokerPrimitives govAuthority
        (run gmailRevokerPrimitives govAuthority gmailRevokedStore
          [.addDkimPubKeys govAuthority [gmailDkimPubKey]]) govAuthority [gmailDkimPubKey] =
        .error e) ∧
      ∃ s₁, revokeDkimPubKey gmailRevokerPrimitives gmailGenesisStore (ofAscii "gmail.com")
          gmailPrivateKeyPem = .ok s₁ ∧
        ∃ e, addDkimPubKeys gmailRevokerPrimitives govAuthority
          (run gmailRevokerPrimitives govAuthority s₁
            [.addDkimPubKeys govAuthority [gmailDkimPubKey]]) govAuthority [gmailDkimPubKey] =
          .error e := by
  have hcarries : CarriesKey gmailRevokerPrimitives gmailDkimPubKey gmailRsaKey :=
    ⟨gmailPubKeyDer, by decide, by decide⟩
  have hinit : initGenesis gmailRevokerPrimitives .empty
      ⟨defaultParams, [gmailDkimPubKey], [gmailCanonicalKey]⟩ = .ok gmailRevokedStore := by
    decide
  -- the private key's public half is the Gmail key, which the Gmail record carries
  have hk : parseRsaPrivateKeyPem gmailRevokerPrimitives gmailPrivateKeyPem = .ok gmailRsaKey := by
    decide
  have hmatch : ∃ key r, gmailGenesisStore.dkimPubKeys.get? key = some r ∧
      key.domain = ofAscii "gmail.com" ∧ CarriesKey gmailRevokerPrimitives r gmailRsaKey :=
    ⟨gmailDkimPubKey.key, gmailDkimPubKey, by decide, rfl, hcarries⟩
  obtain ⟨s₁, hrevoke⟩ := exists_ok_of_isOk (x := revokeDkimPubKey gmailRevokerPrimitives
    gmailGenesisStore (ofAscii "gmail.com") gmailPrivateKeyPem) (by decide)
  refine ⟨hcarries, exists_error_of_ne_ok ((revocation_effective hinit).1 gmailRsaKey
      (by decide) _ govAuthority [gmailDkimPubKey] gmailDkimPubKey
      (List.mem_singleton_self _) hcarries), s₁, hrevoke, exists_error_of_ne_ok ?_⟩
  exact (revocation_effective hinit).2.1 _ _ _ _ _ hrevoke hk hmatch _ govAuthority
    [gmailDkimPubKey] gmailDkimPubKey (List.mem_singleton_self _) hcarries

/-- `RevokeDkimPubKey` of another domain with the private Gmail key meets no record of the Gmail
store, and leaves it as it was. -/
theorem gmail_key_revoked_elsewhere :
    (∃ s', revokeDkimPubKey gmailRevokerPrimitives gmailGenesisStore (ofAscii "yahoo.com")
        gmailPrivateKeyPem = .ok s' ∧ s' = gmailGenesisStore) ∧
      parseRsaPrivateKeyPem gmailRevokerPrimitives gmailPrivateKeyPem = .ok gmailRsaKey ∧
      ∀ key r, gmailGenesisStore.dkimPubKeys.get? key = some r →
        key.domain = ofAscii "yahoo.com" → ¬CarriesKey gmailRevokerPrimitives r gmailRsaKey := by
  obtain ⟨s', hrevoke⟩ := exists_ok_of_isOk (x := revokeDkimPubKey gmailRevokerPrimitives
    gmailGenesisStore (ofAscii "yahoo.com") gmailPrivateKeyPem) (by decide)
  have hk : parseRsaPrivateKeyPem gmailRevokerPrimitives gmailPrivateKeyPem = .ok gmailRsaKey := by
    decide
  -- the store holds the Gmail record only, under the Gmail domain
  have hnone : ∀ key r, gmailGenesisStore.dkimPubKeys.get? key = some r →
      key.domain = ofAscii "yahoo.com" → ¬CarriesKey gmailRevokerPrimitives r gmailRsaKey := by
    intro key r hget hdom
    rw [gmailGenesisStore, SortedMap.get?_insert, SortedMap.get?_empty] at hget
    split_ifs at hget with hkey
    subst hkey
    exact absurd hdom (by decide)
  exact ⟨⟨s', hrevoke, revokeDkimPubKey_eq_self_of_no_match hrevoke hk hnone⟩, hk, hnone⟩

set_option maxRecDepth 16000 in
/-- A genesis that lists the Gmail key as the base64 text of its DER encoding is accepted, and
the key is then added again by `AddDkimPubKeys`. -/
theorem revoked_der_entry_not_enforced :
    initGenesis gmailPrimitives .empty ⟨defaultParams, [], [gmailPubKey]⟩ =
      .ok ⟨defaultParams, .empty, SortedMap.empty.insert gmailPubKey true⟩ ∧
    CarriesKey gmailPrimitives gmailDkimPubKey gmailRsaKey ∧
    addDkimPubKeys gmailPrimitives govAuthority
        ⟨defaultParams, .empty, SortedMap.empty.insert gmailPubKey true⟩ govAuthority
        [gmailDkimPubKey] =
      .ok ⟨defaultParams, SortedMap.empty.insert gmailDkimPubKey.key gmailDkimPubKey,
        SortedMap.empty.insert gmailPubKey true⟩ :=
  ⟨by decide, ⟨gmailPubKeyDer, by decide, by decide⟩, by decide +kernel⟩

end Xion.Dkim
