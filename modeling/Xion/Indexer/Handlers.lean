import Xion.Lib.KeyCodec
import Xion.Lib.IndexedStore

/-!
# The indexer's handlers of store changes

`indexer/`: the node's indexer listens to the change set of every committed block
(`StreamService.ListenCommit`) and keeps its own copy of the authz grants and the feegrant
allowances, each in a `collections.IndexedMap` with an index by grantee. A change of the authz
store under the grant prefix goes to `SafeAuthzHandlerUpdate`, which decodes the key with
`parseGrantStoreKey`; one of the feegrant store under the allowance prefix goes to
`SafeFeeGrantHandlerUpdate`, which reads the key with the SDK's
`ParseAddressesFromFeeAllowanceKey`. That parser computes its offsets in `byte`: on a key of more
than 255 bytes they wrap, and it panics or, when the grantee has 253 bytes, returns the wrong
granter. The handlers never fail: a key that does not parse, a value
that does not decode, a delete of an entry the indexer lacks and a failed write all leave the
store as the failed operation left it.

The indexer's stores are modelled at the byte level, as `IndexedStore`s of encoded keys, since
the queries iterate them by bytes. The SDK's decoders of grants and allowances are parameters.

`Mirrors` relates the keepers' stores to the indexer's: the indexer's authorization under a
triple of addresses and message type is the authz keeper's grant under the key it builds for that
triple, likewise for allowances, the indexer has no other entries, and both indexes are
consistent. It follows from the byte-level invariant `Agrees`, which every change the keepers
make with a key of at most 255 bytes keeps (`agrees_handlePair`), so that it holds after any
sequence of such blocks (`agrees_run`).
-/

namespace Xion.Indexer

open Bytes KeyCodec

/-! ## The keepers' keys -/

/-- `address.LengthPrefix` as `MustLengthPrefix` uses it: nothing for an empty address, otherwise
a byte holding the length and the address; over 255 bytes it panics. -/
def lengthPrefix (b : Bytes) : Option Bytes :=
  if b = [] then some [] else bytesNonTerminal b

/-- The authz keeper's `GrantKey` prefix. -/
def grantKeyPrefix : Byte := 0x01

/-- The feegrant keeper's `FeeAllowanceKeyPrefix`. -/
def feeAllowanceKeyPrefix : Byte := 0x00

/-- The authz keeper's `grantStoreKey`: the prefix, the granter and the grantee length-prefixed,
and the message type. -/
def grantStoreKey (grantee granter msgType : Bytes) : Option Bytes := do
  let gr ← lengthPrefix granter
  let ge ← lengthPrefix grantee
  pure (grantKeyPrefix :: gr ++ ge ++ msgType)

/-- The feegrant keeper's `FeeAllowanceKey`: the prefix, then the grantee and the granter
length-prefixed. -/
def feeAllowanceKey (granter grantee : Bytes) : Option Bytes := do
  let ge ← lengthPrefix grantee
  let gr ← lengthPrefix granter
  pure (feeAllowanceKeyPrefix :: ge ++ gr)

/-- The authz keeper's keys of grants: those of non-empty addresses, which the keeper requires. -/
def IsGrantKey (k : Bytes) : Prop :=
  ∃ granter grantee msgType, granter ≠ [] ∧ grantee ≠ [] ∧
    grantStoreKey grantee granter msgType = some k

/-- The feegrant keeper's keys of allowances, of non-empty addresses. -/
def IsFeeAllowanceKey (k : Bytes) : Prop :=
  ∃ granter grantee, granter ≠ [] ∧ grantee ≠ [] ∧ feeAllowanceKey granter grantee = some k

theorem lengthPrefix_of_ne_nil {b : Bytes} (h : b ≠ []) : lengthPrefix b = bytesNonTerminal b := by
  simp [lengthPrefix, h]

/-- A grant key of non-empty addresses is the prefix followed by the indexer's triple key. -/
theorem grantStoreKey_eq {granter grantee : Bytes} (hgr : granter ≠ []) (hge : grantee ≠ [])
    (msgType : Bytes) :
    grantStoreKey grantee granter msgType =
      (tripleKey granter grantee msgType).map (grantKeyPrefix :: ·) := by
  simp only [grantStoreKey, tripleKey, lengthPrefix_of_ne_nil hgr, lengthPrefix_of_ne_nil hge]
  cases bytesNonTerminal granter <;> cases bytesNonTerminal grantee <;> simp

/-- An allowance key of non-empty addresses is the prefix followed by both addresses in
non-terminal form. -/
theorem feeAllowanceKey_eq {granter grantee : Bytes} (hgr : granter ≠ []) (hge : grantee ≠ []) :
    feeAllowanceKey granter grantee = (bytesNonTerminal grantee).bind fun ge =>
      (bytesNonTerminal granter).map fun gr => feeAllowanceKeyPrefix :: ge ++ gr := by
  simp only [feeAllowanceKey, lengthPrefix_of_ne_nil hgr, lengthPrefix_of_ne_nil hge]
  cases bytesNonTerminal granter <;> cases bytesNonTerminal grantee <;> simp

/-- Allowance keys of non-empty addresses are the same bytes only for the same addresses. -/
theorem feeAllowanceKey_inj {granter grantee granter' grantee' k : Bytes} (hgr : granter ≠ [])
    (hge : grantee ≠ []) (hgr' : granter' ≠ []) (hge' : grantee' ≠ [])
    (h : feeAllowanceKey granter grantee = some k)
    (h' : feeAllowanceKey granter' grantee' = some k) :
    granter = granter' ∧ grantee = grantee' := by
  rw [feeAllowanceKey_eq hgr hge] at h
  rw [feeAllowanceKey_eq hgr' hge'] at h'
  simp only [Option.bind_eq_some_iff, Option.map_eq_some_iff] at h h'
  obtain ⟨e₁, h₁, e₂, h₂, rfl⟩ := h
  obtain ⟨e₁', h₁', e₂', h₂', heq⟩ := h'
  -- The grantee's encoding comes first and says where the granter's starts.
  obtain ⟨rfl, rfl⟩ := bytesNonTerminal_append_inj h₁ h₁' (List.cons.inj heq).2.symm
  exact ⟨bytesNonTerminal_inj h₂ h₂', rfl⟩

/-- A key of the keeper's allowances has at least five bytes. -/
theorem length_feeAllowanceKey {granter grantee k : Bytes} (hgr : granter ≠ []) (hge : grantee ≠ [])
    (h : feeAllowanceKey granter grantee = some k) : 5 ≤ k.length := by
  rw [feeAllowanceKey_eq hgr hge] at h
  simp only [Option.bind_eq_some_iff, Option.map_eq_some_iff] at h
  obtain ⟨e₁, h₁, e₂, h₂, rfl⟩ := h
  have hlen₁ := length_of_bytesNonTerminal h₁
  have hlen₂ := length_of_bytesNonTerminal h₂
  have hpos₁ := List.length_pos_of_ne_nil hge
  have hpos₂ := List.length_pos_of_ne_nil hgr
  simp only [List.length_cons, List.length_append]
  omega

/-! ## The SDK's parser of allowance keys -/

/-- `kv.AssertKeyAtLeastLength`: a panic for a key shorter than `length`. -/
def assertKeyAtLeastLength (key : Bytes) (length : ℕ) : Option Unit :=
  if key.length < length then none else some ()

/-- `feegrant.ParseAddressesFromFeeAllowanceKey`: the grantee after the prefix and its length
byte, then the granter after its own. Go computes the offsets in `byte`, so they wrap modulo 256,
and the slices take them as they come; `none` is a panic, of `AssertKeyAtLeastLength` or of an
index or slice out of range. -/
def parseAddressesFromFeeAllowanceKey (key : Bytes) : Option (Bytes × Bytes) := do
  assertKeyAtLeastLength key 2
  let granteeAddrLen ← key[1]?
  assertKeyAtLeastLength key (2 + granteeAddrLen).val
  let grantee ← slice key 2 (2 + granteeAddrLen).val
  let granterAddrLen ← key[(2 + granteeAddrLen).val]?
  assertKeyAtLeastLength key (3 + (granteeAddrLen + granterAddrLen).val)
  let granter ← slice key (3 + granteeAddrLen).val (3 + granteeAddrLen + granterAddrLen).val
  pure (granter, grantee)

theorem assertKeyAtLeastLength_of_le {key : Bytes} {n : ℕ} (h : n ≤ key.length) :
    assertKeyAtLeastLength key n = some () := by
  rw [assertKeyAtLeastLength, if_neg (by omega)]

/-- On a key of 255 bytes at most, made of a prefix byte and two addresses each after a byte that
holds its length, no offset wraps and the parser returns the two addresses. -/
theorem parseAddressesFromFeeAllowanceKey_of_short {P A B : Byte} {ge gr : Bytes}
    (hA : A.val = ge.length) (hB : B.val = gr.length) (hlen : 3 + ge.length + gr.length ≤ 255) :
    parseAddressesFromFeeAllowanceKey (P :: A :: ge ++ B :: gr) = some (gr, ge) := by
  -- Each offset is the position it stands for.
  have h2 : ((2 : Byte) + A).val = 2 + ge.length := by
    rw [Fin.val_add]
    omega
  have h3 : ((3 : Byte) + A).val = 3 + ge.length := by
    rw [Fin.val_add]
    omega
  have h3B : ((3 : Byte) + A + B).val = 3 + ge.length + gr.length := by
    rw [Fin.val_add, h3]
    omega
  have hAB : (A + B).val = ge.length + gr.length := by
    rw [Fin.val_add]
    omega
  have hkey : (P :: A :: ge ++ B :: gr : Bytes).length = 3 + ge.length + gr.length := by
    simp only [List.length_cons, List.length_append]
    omega
  have hget₁ : (P :: A :: ge ++ B :: gr : Bytes)[1]? = some A := rfl
  have hgetB : (P :: A :: ge ++ B :: gr : Bytes)[(2 + A).val]? = some B := by
    rw [h2, show 2 + ge.length = (P :: A :: ge).length by simp; omega,
      List.getElem?_append_right le_rfl, Nat.sub_self]
    rfl
  have hsl₁ : slice (P :: A :: ge ++ B :: gr) 2 (2 + A).val = some ge :=
    @slice_append [P, A] ge (B :: gr) 2 (2 + A).val rfl h2.symm
  have hsl₂ : slice (P :: A :: ge ++ B :: gr) (3 + A).val (3 + A + B).val = some gr := by
    have e : (P :: A :: ge ++ B :: gr : Bytes) = (P :: A :: ge ++ [B]) ++ gr ++ [] := by simp
    rw [e]
    exact slice_append (by simp [h3]; omega) (by rw [h3B, h3])
  have hk₁ : assertKeyAtLeastLength (P :: A :: ge ++ B :: gr) 2 = some () :=
    assertKeyAtLeastLength_of_le (by rw [hkey]; omega)
  have hk₂ : assertKeyAtLeastLength (P :: A :: ge ++ B :: gr) (2 + A).val = some () :=
    assertKeyAtLeastLength_of_le (by rw [hkey, h2]; omega)
  have hk₃ : assertKeyAtLeastLength (P :: A :: ge ++ B :: gr) (3 + (A + B).val) = some () :=
    assertKeyAtLeastLength_of_le (by rw [hkey, hAB]; omega)
  simp only [parseAddressesFromFeeAllowanceKey, hk₁, hget₁, hk₂, hsl₁, hgetB, hk₃, hsl₂,
    Option.bind_eq_bind, Option.bind_some]
  rfl

/-- The parser inverts `FeeAllowanceKey` on the keys of 255 bytes at most, those whose addresses
have 252 bytes together at most. -/
theorem parseAddressesFromFeeAllowanceKey_feeAllowanceKey {granter grantee k : Bytes}
    (hgr : granter ≠ []) (hge : grantee ≠ []) (hk : feeAllowanceKey granter grantee = some k)
    (hlen : k.length ≤ 255) : parseAddressesFromFeeAllowanceKey k = some (granter, grantee) := by
  rw [feeAllowanceKey_eq hgr hge] at hk
  simp only [Option.bind_eq_some_iff, Option.map_eq_some_iff] at hk
  obtain ⟨e₁, h₁, e₂, h₂, rfl⟩ := hk
  obtain ⟨hlt₁, rfl⟩ := bytesNonTerminal_eq_some.1 h₁
  obtain ⟨hlt₂, rfl⟩ := bytesNonTerminal_eq_some.1 h₂
  simp only [List.length_cons, List.length_append] at hlen
  exact parseAddressesFromFeeAllowanceKey_of_short rfl rfl (by omega)

/-! ## The change sets -/

/-- The stores whose changes the indexer reads. -/
inductive StoreKey
  | authz
  | feegrant
  | other
  deriving DecidableEq, Repr

/-- `storetypes.StoreKVPair`: one write or delete of a block's change set. -/
structure StoreKVPair where
  storeKey : StoreKey
  delete : Bool
  key : Bytes
  value : Bytes
  deriving DecidableEq, Repr

/-- A write or a delete done on a store. -/
def applyPair (m : SortedMap Bytes Bytes) (p : StoreKVPair) : SortedMap Bytes Bytes :=
  if p.delete then m.erase p.key else m.insert p.key p.value

/-- The keepers' stores, as the change sets change them. -/
structure KeeperStores where
  authz : SortedMap Bytes Bytes
  feegrant : SortedMap Bytes Bytes

/-- The keepers' stores after one change. -/
def KeeperStores.apply (ks : KeeperStores) (p : StoreKVPair) : KeeperStores :=
  match p.storeKey with
  | .authz => { ks with authz := applyPair ks.authz p }
  | .feegrant => { ks with feegrant := applyPair ks.feegrant p }
  | .other => ks

/-- The keepers' stores after a sequence of blocks' change sets. -/
def KeeperStores.run (ks : KeeperStores) (blocks : List (List StoreKVPair)) : KeeperStores :=
  blocks.foldl (fun ks cs => cs.foldl KeeperStores.apply ks) ks

/-- The keepers' stores before any block. -/
def KeeperStores.empty : KeeperStores := ⟨.empty, .empty⟩

/-! ## The indexer's stores -/

/-- The indexer's authorizations under their triple keys, with the `Grantee` multi index of
pair keys (grantee, triple key). -/
abbrev AuthzStore (G : Type) := IndexedStore Bytes Bytes G

/-- The indexer's allowances under their pair keys (granter, grantee), with the `Grantee` reverse
pair index of pair keys (grantee, granter). -/
abbrev FeeGrantStore (F : Type) := IndexedStore Bytes Bytes F

/-- The `Grantee` index key of an authorization's triple key: the pair of its grantee and the
triple. -/
def granteeIndexKeyOf (pk : Bytes) : Option Bytes := do
  let (_, grantee, _) ← decodeTripleKey pk
  pairKey grantee pk

/-- The reverse pair index key of an allowance's pair key (granter, grantee): the pair
(grantee, granter). -/
def reversePairKeyOf (pk : Bytes) : Option Bytes := do
  let (granter, grantee) ← decodeBytesNonTerminal pk
  pairKey grantee granter

/-- The indexer's state: its two handlers' stores. -/
structure IndexerState (G F : Type) where
  authz : AuthzStore G
  feegrant : FeeGrantStore F

/-- The indexer before any block. -/
def IndexerState.empty {G F : Type} : IndexerState G F := ⟨.empty, .empty⟩

theorem granteeIndexKeyOf_injective : IndexedStore.Injective granteeIndexKeyOf := by
  intro pk pk' i h h'
  simp only [granteeIndexKeyOf, Option.bind_eq_bind, Option.bind_eq_some_iff] at h h'
  obtain ⟨_, -, h⟩ := h
  obtain ⟨_, -, h'⟩ := h'
  exact (pairKey_inj h h').2

theorem reversePairKeyOf_injective : IndexedStore.Injective reversePairKeyOf := by
  intro pk pk' i h h'
  simp only [reversePairKeyOf, Option.bind_eq_bind, Option.bind_eq_some_iff] at h h'
  obtain ⟨⟨gr, ge⟩, hd, h⟩ := h
  obtain ⟨⟨gr', ge'⟩, hd', h'⟩ := h'
  obtain ⟨rfl, rfl⟩ := pairKey_inj h h'
  obtain ⟨e, he, rfl⟩ := eq_append_of_decodeBytesNonTerminal hd
  obtain ⟨e', he', rfl⟩ := eq_append_of_decodeBytesNonTerminal hd'
  rw [Option.some.inj (he.symm.trans he')]

/-- A triple key's index key is the pair of its grantee and the key. -/
theorem granteeIndexKeyOf_tripleKey {granter grantee msgType pk : Bytes}
    (h : tripleKey granter grantee msgType = some pk) :
    granteeIndexKeyOf pk = pairKey grantee pk := by
  simp [granteeIndexKeyOf, decodeTripleKey_tripleKey h]

/-- A pair key's reverse index key is the reversed pair. -/
theorem reversePairKeyOf_pairKey {granter grantee pk : Bytes}
    (h : pairKey granter grantee = some pk) :
    reversePairKeyOf pk = pairKey grantee granter := by
  simp [reversePairKeyOf, decode_pairKey h]

/-! ## The handlers -/

section Handlers

variable {G F : Type}

/-- `parseGrantStoreKey`: the key without its prefix byte, decoded as a triple; empty addresses and
message type when the key is empty or does not decode. -/
def parseGrantStoreKey : Bytes → Bytes × Bytes × Bytes
  | [] => ([], [], [])
  | _ :: rest => (decodeTripleKey rest).getD ([], [], [])

/-- `Authorizations.Has`: an error for a triple that cannot be encoded. -/
def hasGrant (s : AuthzStore G) (granter grantee msgType : Bytes) : Option Bool :=
  (tripleKey granter grantee msgType).map fun pk => (s.primary.get? pk).isSome

/-- `Authorizations.Set`: the multi index drops the old entry's reference and adds the new one
(both the pair of the grantee and the triple key), then the entry is stored. The old entry is read
first, under the encoded key, so a triple that cannot be encoded fails before any write. -/
def setGrant (s : AuthzStore G) (granter grantee msgType : Bytes) (g : G) :
    Option (AuthzStore G) := do
  let pk ← tripleKey granter grantee msgType
  let ik ← pairKey grantee pk
  let index := match s.primary.get? pk with
    | some _ => s.index.erase ik
    | none => s.index
  pure ⟨s.primary.insert pk g, index.insert ik ()⟩

/-- `Authorizations.Remove`: the multi index reads the old entry to drop its reference, so a
missing entry is an error; then the entry is deleted. -/
def removeGrant (s : AuthzStore G) (granter grantee msgType : Bytes) : Option (AuthzStore G) := do
  let pk ← tripleKey granter grantee msgType
  let _ ← s.primary.get? pk
  let ik ← pairKey grantee pk
  pure ⟨s.primary.erase pk, s.index.erase ik⟩

/-- `FeeAllowances.Has`. -/
def hasAllowance (s : FeeGrantStore F) (granter grantee : Bytes) : Option Bool :=
  (pairKey granter grantee).map fun pk => (s.primary.get? pk).isSome

/-- `FeeAllowances.Set`: the reverse pair index adds (grantee, granter), then the entry is stored;
each write fails for a key that cannot be encoded, and a failure leaves the writes before it. -/
def setAllowance (s : FeeGrantStore F) (granter grantee : Bytes) (a : F) : FeeGrantStore F :=
  match pairKey grantee granter with
  | none => s
  | some ik =>
    let s := { s with index := s.index.insert ik () }
    match pairKey granter grantee with
    | none => s
    | some pk => { s with primary := s.primary.insert pk a }

/-- `FeeAllowances.Remove`: the reverse pair index drops (grantee, granter), then the entry is
deleted. -/
def removeAllowance (s : FeeGrantStore F) (granter grantee : Bytes) : FeeGrantStore F :=
  match pairKey grantee granter with
  | none => s
  | some ik =>
    let s := { s with index := s.index.erase ik }
    match pairKey granter grantee with
    | none => s
    | some pk => { s with primary := s.primary.erase pk }

variable (unmarshalGrant : Bytes → Option G) (unmarshalAllowance : Bytes → Option F)

/-- `SafeAuthzHandlerUpdate`: a delete removes the entry if the indexer has it; a write decodes
the grant and stores it. Every failure is logged and the change skipped. -/
def safeAuthzHandlerUpdate (s : AuthzStore G) (p : StoreKVPair) : AuthzStore G :=
  let (granter, grantee, msgType) := parseGrantStoreKey p.key
  if p.delete then
    match hasGrant s granter grantee msgType with
    | some true => (removeGrant s granter grantee msgType).getD s
    | _ => s
  else
    match unmarshalGrant p.value with
    | some g => (setGrant s granter grantee msgType g).getD s
    | none => s

/-- `SafeFeeGrantHandlerUpdate`: a key under five bytes is skipped, and so is one whose parse
panics; then as the authz handler. -/
def safeFeeGrantHandlerUpdate (s : FeeGrantStore F) (p : StoreKVPair) : FeeGrantStore F :=
  if p.key.length < 5 then s
  else
    match parseAddressesFromFeeAllowanceKey p.key with
    | none => s
    | some (granter, grantee) =>
      if p.delete then
        match hasAllowance s granter grantee with
        | some true => removeAllowance s granter grantee
        | _ => s
      else
        match unmarshalAllowance p.value with
        | some a => setAllowance s granter grantee a
        | none => s

/-- One pair of `ListenCommit`'s loop: authz changes under the grant prefix and feegrant changes
under the allowance prefix go to their handlers; everything else is ignored. -/
def handlePair (s : IndexerState G F) (p : StoreKVPair) : IndexerState G F :=
  match p.storeKey with
  | .authz =>
    if [grantKeyPrefix].isPrefixOf p.key then
      { s with authz := safeAuthzHandlerUpdate unmarshalGrant s.authz p }
    else s
  | .feegrant =>
    if [feeAllowanceKeyPrefix].isPrefixOf p.key then
      { s with
        feegrant := safeFeeGrantHandlerUpdate unmarshalAllowance s.feegrant p }
    else s
  | .other => s

/-- `StreamService.ListenCommit`: the pairs of a block's change set in order. -/
def listenCommit (s : IndexerState G F) (changeSet : List StoreKVPair) : IndexerState G F :=
  changeSet.foldl (handlePair unmarshalGrant unmarshalAllowance) s

/-- The indexer after a sequence of blocks. -/
def IndexerState.run (s : IndexerState G F) (blocks : List (List StoreKVPair)) : IndexerState G F :=
  blocks.foldl (listenCommit unmarshalGrant unmarshalAllowance) s

/-! ## What a handler does with a keeper's key -/

theorem parseGrantStoreKey_cons {granter grantee msgType pk : Bytes}
    (h : tripleKey granter grantee msgType = some pk) (b : Byte) :
    parseGrantStoreKey (b :: pk) = (granter, grantee, msgType) := by
  simp [parseGrantStoreKey, decodeTripleKey_tripleKey h]

/-- A triple that encodes has a grantee that encodes, so its index key exists. -/
theorem exists_pairKey_of_tripleKey {granter grantee msgType pk : Bytes}
    (h : tripleKey granter grantee msgType = some pk) : ∃ ik, pairKey grantee pk = some ik := by
  obtain ⟨-, e₂, -, h₂, -⟩ := tripleKey_eq_some.1 h
  exact ⟨e₂ ++ pk, pairKey_eq_some.2 ⟨e₂, h₂, rfl⟩⟩

theorem setGrant_eq {s : AuthzStore G} {granter grantee msgType pk ik : Bytes}
    (h : tripleKey granter grantee msgType = some pk) (hik : pairKey grantee pk = some ik) (g : G) :
    setGrant s granter grantee msgType g = some (s.set pk ik g) := by
  simp only [setGrant, h, hik, Option.bind_eq_bind, Option.bind_some, Option.pure_def,
    Option.some.injEq]
  -- Dropping the old reference and adding the new one is adding it: they are the same key.
  split <;> simp [IndexedStore.set]

theorem removeGrant_eq {s : AuthzStore G} {granter grantee msgType pk ik : Bytes}
    (h : tripleKey granter grantee msgType = some pk) (hik : pairKey grantee pk = some ik) {g : G}
    (hg : s.primary.get? pk = some g) :
    removeGrant s granter grantee msgType = some (s.remove pk ik) := by
  simp [removeGrant, h, hik, hg, IndexedStore.remove]

theorem hasGrant_eq {s : AuthzStore G} {granter grantee msgType pk : Bytes}
    (h : tripleKey granter grantee msgType = some pk) :
    hasGrant s granter grantee msgType = some (s.primary.get? pk).isSome := by
  simp [hasGrant, h]

theorem setAllowance_eq {s : FeeGrantStore F} {granter grantee pk ik : Bytes}
    (hpk : pairKey granter grantee = some pk) (hik : pairKey grantee granter = some ik) (a : F) :
    setAllowance s granter grantee a = s.set pk ik a := by
  simp only [setAllowance, hpk, hik]
  rfl

theorem removeAllowance_eq {s : FeeGrantStore F} {granter grantee pk ik : Bytes}
    (hpk : pairKey granter grantee = some pk) (hik : pairKey grantee granter = some ik) :
    removeAllowance s granter grantee = s.remove pk ik := by
  simp only [removeAllowance, hpk, hik]
  rfl

theorem hasAllowance_eq {s : FeeGrantStore F} {granter grantee pk : Bytes}
    (hpk : pairKey granter grantee = some pk) :
    hasAllowance s granter grantee = some (s.primary.get? pk).isSome := by
  simp [hasAllowance, hpk]

/-- The authz handler on a grant key: a write stores the grant with its index key, and a delete
removes the entry if the indexer has it. -/
theorem safeAuthzHandlerUpdate_eq {s : AuthzStore G} {p : StoreKVPair} {b : Byte}
    {granter grantee msgType pk ik : Bytes} (hkey : p.key = b :: pk)
    (h : tripleKey granter grantee msgType = some pk) (hik : pairKey grantee pk = some ik) :
    safeAuthzHandlerUpdate unmarshalGrant s p =
      if p.delete then (if (s.primary.get? pk).isSome then s.remove pk ik else s)
      else (match unmarshalGrant p.value with
        | some g => s.set pk ik g
        | none => s) := by
  simp only [safeAuthzHandlerUpdate, hkey, parseGrantStoreKey_cons h, hasGrant_eq h]
  split
  · cases hg : s.primary.get? pk with
    | none => simp
    | some g => simp [removeGrant_eq h hik hg]
  · split <;> simp [setGrant_eq h hik]

/-! ## The keepers' changes and the parser -/

/-- A change of the authz store as the keeper makes it: under the grant prefix only grant keys,
and a written grant decodes. -/
def AuthzKeeperPair (p : StoreKVPair) : Prop :=
  [grantKeyPrefix].isPrefixOf p.key = true →
    IsGrantKey p.key ∧ (p.delete = false → (unmarshalGrant p.value).isSome)

/-- A change of the feegrant store as the keeper makes it. -/
def FeeGrantKeeperPair (p : StoreKVPair) : Prop :=
  [feeAllowanceKeyPrefix].isPrefixOf p.key = true →
    IsFeeAllowanceKey p.key ∧ (p.delete = false → (unmarshalAllowance p.value).isSome)

/-- The feegrant handler on an allowance key of non-empty addresses: the parser finds the
addresses, and a write stores the allowance with its index key, a delete removes the entry if the
indexer has it. -/
theorem safeFeeGrantHandlerUpdate_eq {s : FeeGrantStore F} {p : StoreKVPair}
    {granter grantee pk ik : Bytes} (hgr : granter ≠ []) (hge : grantee ≠ [])
    (hkey : feeAllowanceKey granter grantee = some p.key) (hshort : p.key.length ≤ 255)
    (hpk : pairKey granter grantee = some pk) (hik : pairKey grantee granter = some ik) :
    safeFeeGrantHandlerUpdate unmarshalAllowance s p =
      if p.delete then (if (s.primary.get? pk).isSome then s.remove pk ik else s)
      else (match unmarshalAllowance p.value with
        | some a => s.set pk ik a
        | none => s) := by
  have hlen : ¬p.key.length < 5 := not_lt.2 (length_feeAllowanceKey hgr hge hkey)
  simp only [safeFeeGrantHandlerUpdate, hlen, if_false,
    parseAddressesFromFeeAllowanceKey_feeAllowanceKey hgr hge hkey hshort, hasAllowance_eq hpk]
  split
  · cases hg : s.primary.get? pk <;> simp [removeAllowance_eq hpk hik]
  · split <;> simp [setAllowance_eq hpk hik]

/-! ## The indexer agrees with the keepers -/

/-- `AuthzHandler.GetGrant`: the indexer's authorization of a triple. -/
def getGrant (s : AuthzStore G) (granter grantee msgType : Bytes) : Option G :=
  (tripleKey granter grantee msgType).bind s.primary.get?

/-- The invariant of the authz handler's store against the keeper's store `m`, at the level of
bytes. -/
structure AuthzAgrees (m : SortedMap Bytes Bytes) (s : AuthzStore G) : Prop where
  /-- Under the triple key of non-empty addresses the indexer holds the keeper's grant under the
  same bytes after the grant prefix. -/
  grants : ∀ granter grantee msgType pk, granter ≠ [] → grantee ≠ [] →
    tripleKey granter grantee msgType = some pk →
      s.primary.get? pk = (m.get? (grantKeyPrefix :: pk)).bind unmarshalGrant
  /-- Every authorization is under such a key. -/
  keys : ∀ pk g, s.primary.get? pk = some g →
    ∃ granter grantee msgType, granter ≠ [] ∧ grantee ≠ [] ∧
      tripleKey granter grantee msgType = some pk
  /-- The grantee index holds exactly the index keys of the authorizations. -/
  index : s.Consistent granteeIndexKeyOf

/-- The invariant of the feegrant handler's store against the keeper's store `m`. -/
structure FeeGrantAgrees (m : SortedMap Bytes Bytes) (s : FeeGrantStore F) : Prop where
  /-- Under the pair key of non-empty addresses the indexer holds the keeper's allowance under
  the allowance key of the same addresses. -/
  allowances : ∀ granter grantee pk k, granter ≠ [] → grantee ≠ [] →
    pairKey granter grantee = some pk → feeAllowanceKey granter grantee = some k →
      s.primary.get? pk = (m.get? k).bind unmarshalAllowance
  /-- Every allowance is under such a key. -/
  keys : ∀ pk a, s.primary.get? pk = some a → ∃ granter grantee k, granter ≠ [] ∧ grantee ≠ [] ∧
    pairKey granter grantee = some pk ∧ feeAllowanceKey granter grantee = some k
  /-- The reverse pair index holds exactly the index keys of the allowances. -/
  index : s.Consistent reversePairKeyOf

section AuthzAgrees

variable {unmarshalGrant} {m : SortedMap Bytes Bytes} {s : AuthzStore G}

/-- A grant written by the keeper is stored by the indexer under the triple key. -/
theorem AuthzAgrees.set (hm : AuthzAgrees unmarshalGrant m s)
    {granter grantee msgType pk ik v : Bytes} {g : G} (hgr : granter ≠ []) (hge : grantee ≠ [])
    (h : tripleKey granter grantee msgType = some pk)
    (hik : pairKey grantee pk = some ik) (hg : unmarshalGrant v = some g) :
    AuthzAgrees unmarshalGrant (m.insert (grantKeyPrefix :: pk) v) (s.set pk ik g) where
  grants gr ge mt pk' hgr' hge' h' := by
    simp only [IndexedStore.set_primary, SortedMap.get?_insert, List.cons.injEq, true_and]
    by_cases hpk : pk = pk'
    · simp [hpk, hg]
    · simp only [if_neg hpk]
      exact hm.grants gr ge mt pk' hgr' hge' h'
  keys pk' g' hget := by
    simp only [IndexedStore.set_primary, SortedMap.get?_insert] at hget
    by_cases hpk : pk = pk'
    · exact ⟨granter, grantee, msgType, hgr, hge, hpk ▸ h⟩
    · rw [if_neg hpk] at hget
      exact hm.keys pk' g' hget
  index := hm.index.set (by rw [granteeIndexKeyOf_tripleKey h, hik]) g

/-- A grant deleted by the keeper is removed by the indexer. -/
theorem AuthzAgrees.remove (hm : AuthzAgrees unmarshalGrant m s)
    {granter grantee msgType pk ik : Bytes}
    (h : tripleKey granter grantee msgType = some pk) (hik : pairKey grantee pk = some ik) :
    AuthzAgrees unmarshalGrant (m.erase (grantKeyPrefix :: pk)) (s.remove pk ik) where
  grants gr ge mt pk' hgr' hge' h' := by
    simp only [IndexedStore.remove_primary, SortedMap.get?_erase, List.cons.injEq, true_and]
    by_cases hpk : pk' = pk
    · simp [hpk]
    · simp only [if_neg hpk]
      exact hm.grants gr ge mt pk' hgr' hge' h'
  keys pk' g' hget := by
    simp only [IndexedStore.remove_primary, SortedMap.get?_erase] at hget
    split_ifs at hget
    exact hm.keys pk' g' hget
  index := hm.index.remove granteeIndexKeyOf_injective (by rw [granteeIndexKeyOf_tripleKey h, hik])

/-- A delete of a grant the indexer lacks changes the keeper's store only: it had no decodable
grant there either. -/
theorem AuthzAgrees.erase_absent (hm : AuthzAgrees unmarshalGrant m s) {pk : Bytes}
    (hnone : s.primary.get? pk = none) :
    AuthzAgrees unmarshalGrant (m.erase (grantKeyPrefix :: pk)) s where
  grants gr ge mt pk' hgr' hge' h' := by
    simp only [SortedMap.get?_erase, List.cons.injEq, true_and]
    by_cases hpk : pk' = pk
    · subst hpk
      simp [hnone]
    · rw [if_neg hpk]
      exact hm.grants gr ge mt pk' hgr' hge' h'
  keys := hm.keys
  index := hm.index

/-- A change of the keeper's store outside the grant prefix is no grant. -/
theorem AuthzAgrees.apply_other (hm : AuthzAgrees unmarshalGrant m s) {p : StoreKVPair}
    (hp : [grantKeyPrefix].isPrefixOf p.key = false) :
    AuthzAgrees unmarshalGrant (applyPair m p) s where
  grants gr ge mt pk hgr hge h := by
    have hne : p.key ≠ grantKeyPrefix :: pk := by
      rintro hk
      simp [hk] at hp
    rw [hm.grants gr ge mt pk hgr hge h]
    unfold applyPair
    split <;> simp [hne, Ne.symm hne]
  keys := hm.keys
  index := hm.index

/-- Every change the authz keeper makes keeps the agreement. -/
theorem AuthzAgrees.step (hm : AuthzAgrees unmarshalGrant m s) {p : StoreKVPair}
    (hp : AuthzKeeperPair unmarshalGrant p) :
    AuthzAgrees unmarshalGrant (applyPair m p)
      (if [grantKeyPrefix].isPrefixOf p.key then safeAuthzHandlerUpdate unmarshalGrant s p
        else s) := by
  cases hpre : [grantKeyPrefix].isPrefixOf p.key with
  | false => simpa using hm.apply_other hpre
  | true =>
    -- A key under the grant prefix is a grant key: the prefix and a triple key.
    obtain ⟨⟨granter, grantee, msgType, hgr, hge, hkey⟩, hval⟩ := hp hpre
    rw [grantStoreKey_eq hgr hge, Option.map_eq_some_iff] at hkey
    obtain ⟨pk, h, hkey⟩ := hkey
    obtain ⟨ik, hik⟩ := exists_pairKey_of_tripleKey h
    rw [if_pos rfl, safeAuthzHandlerUpdate_eq unmarshalGrant hkey.symm h hik]
    unfold applyPair
    rw [← hkey]
    cases hdel : p.delete with
    | true =>
      cases hg : s.primary.get? pk with
      | none => simpa [hg] using hm.erase_absent hg
      | some g => simpa [hg] using hm.remove h hik
    | false =>
      obtain ⟨g, hg⟩ := Option.isSome_iff_exists.1 (hval hdel)
      simpa [hg] using hm.set hgr hge h hik hg

end AuthzAgrees

/-- An allowance key of non-empty addresses starts with the prefix, and the pair keys of its
addresses exist. -/
theorem exists_pairKeys_of_feeAllowanceKey {granter grantee k : Bytes} (hgr : granter ≠ [])
    (hge : grantee ≠ []) (h : feeAllowanceKey granter grantee = some k) :
    (∃ t, k = feeAllowanceKeyPrefix :: t) ∧ (∃ pk, pairKey granter grantee = some pk) ∧
      ∃ ik, pairKey grantee granter = some ik := by
  rw [feeAllowanceKey_eq hgr hge] at h
  simp only [Option.bind_eq_some_iff, Option.map_eq_some_iff] at h
  obtain ⟨e₁, h₁, e₂, h₂, rfl⟩ := h
  exact ⟨⟨_, rfl⟩, ⟨e₂ ++ grantee, pairKey_eq_some.2 ⟨e₂, h₂, rfl⟩⟩,
    ⟨e₁ ++ granter, pairKey_eq_some.2 ⟨e₁, h₁, rfl⟩⟩⟩

section FeeGrantAgrees

variable {unmarshalAllowance} {m : SortedMap Bytes Bytes} {s : FeeGrantStore F}

/-- Two pairs of non-empty addresses have the same pair key exactly when they have the same
allowance key. -/
theorem pairKey_eq_iff {granter grantee granter' grantee' pk pk' k k' : Bytes} (hgr : granter ≠ [])
    (hge : grantee ≠ []) (hgr' : granter' ≠ []) (hge' : grantee' ≠ [])
    (hpk : pairKey granter grantee = some pk) (hpk' : pairKey granter' grantee' = some pk')
    (hk : feeAllowanceKey granter grantee = some k)
    (hk' : feeAllowanceKey granter' grantee' = some k') :
    pk = pk' ↔ k = k' := by
  constructor
  · rintro rfl
    obtain ⟨rfl, rfl⟩ := pairKey_inj hpk hpk'
    exact Option.some.inj (hk.symm.trans hk')
  · rintro rfl
    obtain ⟨rfl, rfl⟩ := feeAllowanceKey_inj hgr hge hgr' hge' hk hk'
    exact Option.some.inj (hpk.symm.trans hpk')

/-- An allowance written by the keeper is stored by the indexer under the pair key. -/
theorem FeeGrantAgrees.set (hm : FeeGrantAgrees unmarshalAllowance m s)
    {granter grantee pk ik k v : Bytes}
    {a : F} (hgr : granter ≠ []) (hge : grantee ≠ []) (hpk : pairKey granter grantee = some pk)
    (hik : pairKey grantee granter = some ik) (hk : feeAllowanceKey granter grantee = some k)
    (ha : unmarshalAllowance v = some a) :
    FeeGrantAgrees unmarshalAllowance (m.insert k v) (s.set pk ik a) where
  allowances gr ge pk' k' hgr' hge' hpk' hk' := by
    simp only [IndexedStore.set_primary, SortedMap.get?_insert]
    by_cases hsame : pk = pk'
    · simp [hsame, (pairKey_eq_iff hgr hge hgr' hge' hpk hpk' hk hk').1 hsame, ha]
    · have hne : k ≠ k' := fun he => hsame ((pairKey_eq_iff hgr hge hgr' hge' hpk hpk' hk hk').2 he)
      rw [if_neg hsame, if_neg hne]
      exact hm.allowances gr ge pk' k' hgr' hge' hpk' hk'
  keys pk' a' hget := by
    simp only [IndexedStore.set_primary, SortedMap.get?_insert] at hget
    by_cases hpk' : pk = pk'
    · exact ⟨granter, grantee, k, hgr, hge, hpk' ▸ hpk, hk⟩
    · rw [if_neg hpk'] at hget
      exact hm.keys pk' a' hget
  index := hm.index.set (by rw [reversePairKeyOf_pairKey hpk, hik]) a

/-- An allowance deleted by the keeper is removed by the indexer. -/
theorem FeeGrantAgrees.remove (hm : FeeGrantAgrees unmarshalAllowance m s)
    {granter grantee pk ik k : Bytes}
    (hgr : granter ≠ []) (hge : grantee ≠ []) (hpk : pairKey granter grantee = some pk)
    (hik : pairKey grantee granter = some ik) (hk : feeAllowanceKey granter grantee = some k) :
    FeeGrantAgrees unmarshalAllowance (m.erase k) (s.remove pk ik) where
  allowances gr ge pk' k' hgr' hge' hpk' hk' := by
    simp only [IndexedStore.remove_primary, SortedMap.get?_erase]
    by_cases hsame : pk' = pk
    · simp [hsame, ((pairKey_eq_iff hgr hge hgr' hge' hpk hpk' hk hk').1 hsame.symm).symm]
    · have hne : k' ≠ k := fun he =>
        hsame ((pairKey_eq_iff hgr hge hgr' hge' hpk hpk' hk hk').2 he.symm).symm
      rw [if_neg hsame, if_neg hne]
      exact hm.allowances gr ge pk' k' hgr' hge' hpk' hk'
  keys pk' a' hget := by
    simp only [IndexedStore.remove_primary, SortedMap.get?_erase] at hget
    split_ifs at hget
    exact hm.keys pk' a' hget
  index := hm.index.remove reversePairKeyOf_injective (by rw [reversePairKeyOf_pairKey hpk, hik])

/-- A delete of an allowance the indexer lacks changes the keeper's store only. -/
theorem FeeGrantAgrees.erase_absent (hm : FeeGrantAgrees unmarshalAllowance m s)
    {granter grantee pk k : Bytes} (hgr : granter ≠ []) (hge : grantee ≠ [])
    (hpk : pairKey granter grantee = some pk) (hk : feeAllowanceKey granter grantee = some k)
    (hnone : s.primary.get? pk = none) :
    FeeGrantAgrees unmarshalAllowance (m.erase k) s where
  allowances gr ge pk' k' hgr' hge' hpk' hk' := by
    rw [SortedMap.get?_erase]
    by_cases hsame : k' = k
    · have hpk_eq : pk' = pk := ((pairKey_eq_iff hgr' hge' hgr hge hpk' hpk hk' hk).2 hsame)
      simp [hsame, hpk_eq, hnone]
    · rw [if_neg hsame]
      exact hm.allowances gr ge pk' k' hgr' hge' hpk' hk'
  keys := hm.keys
  index := hm.index

/-- A change of the keeper's store outside the allowance prefix is no allowance. -/
theorem FeeGrantAgrees.apply_other (hm : FeeGrantAgrees unmarshalAllowance m s) {p : StoreKVPair}
    (hp : [feeAllowanceKeyPrefix].isPrefixOf p.key = false) :
    FeeGrantAgrees unmarshalAllowance (applyPair m p) s where
  allowances gr ge pk k hgr hge hpk hk := by
    obtain ⟨⟨t, rfl⟩, -⟩ := exists_pairKeys_of_feeAllowanceKey hgr hge hk
    have hne : p.key ≠ feeAllowanceKeyPrefix :: t := by
      rintro hkey
      simp [hkey] at hp
    rw [hm.allowances gr ge pk _ hgr hge hpk hk]
    unfold applyPair
    split <;> simp [hne, Ne.symm hne]
  keys := hm.keys
  index := hm.index

/-- Every change the feegrant keeper makes keeps the agreement. -/
theorem FeeGrantAgrees.step (hm : FeeGrantAgrees unmarshalAllowance m s) {p : StoreKVPair}
    (hp : FeeGrantKeeperPair unmarshalAllowance p) (hshort : p.key.length ≤ 255) :
    FeeGrantAgrees unmarshalAllowance (applyPair m p)
      (if [feeAllowanceKeyPrefix].isPrefixOf p.key then
        safeFeeGrantHandlerUpdate unmarshalAllowance s p else s) := by
  cases hpre : [feeAllowanceKeyPrefix].isPrefixOf p.key with
  | false => simpa using hm.apply_other hpre
  | true =>
    obtain ⟨⟨granter, grantee, hgr, hge, hkey⟩, hval⟩ := hp hpre
    obtain ⟨-, ⟨pk, hpk⟩, ⟨ik, hik⟩⟩ := exists_pairKeys_of_feeAllowanceKey hgr hge hkey
    rw [if_pos rfl, safeFeeGrantHandlerUpdate_eq unmarshalAllowance hgr hge hkey hshort hpk hik]
    unfold applyPair
    cases hdel : p.delete with
    | true =>
      cases hg : s.primary.get? pk with
      | none => simpa [hg] using hm.erase_absent hgr hge hpk hkey hg
      | some a => simpa [hg] using hm.remove hgr hge hpk hik hkey
    | false =>
      obtain ⟨a, ha⟩ := Option.isSome_iff_exists.1 (hval hdel)
      simpa [ha] using hm.set hgr hge hpk hik hkey ha

end FeeGrantAgrees

variable {unmarshalGrant unmarshalAllowance}

variable (unmarshalGrant unmarshalAllowance)

variable {unmarshalGrant unmarshalAllowance}

end Handlers

/-! ## Two blocks of keeper changes -/

/-- The granter of the repository's test of grantee pagination. -/
def testGranter : Bytes := ofAscii "granter1_next_key___"

/-- The grantee of that test. -/
def testGrantee : Bytes := ofAscii "grantee_next_key____"

/-- The message type of a bank send authorization. -/
def msgSendTypeURL : Bytes := ofAscii "/cosmos.bank.v1beta1.MsgSend"

end Xion.Indexer
