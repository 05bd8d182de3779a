import Xion.Indexer.Handlers
import Xion.Lib.Run

/-!
# The indexer's grantee query

`authzQuerier.GranteeGrants` lists a grantee's authorizations a page at a time from the
`Grantee` multi index, whose entries are the pair keys (grantee, triple key) in byte order.
Without a pagination key it iterates the entries under the grantee's prefix, skips `offset` of
them and collects up to the limit. With a key it iterates the raw index from the key's bytes on
(`granteeGrantsWithRawIteration`), skipping the entries of other grantees without counting them.
Each collected entry's key is decoded and its authorization read from the primary map. After the
loop, if the iterator has an entry left, the next key is that entry's key written by the index
codec's `EncodeNonTerminal` into a buffer of 128 bytes.

The index stores its keys in terminal form, where the message type is the last bytes; the
non-terminal form adds the string delimiter `0x00` after them. So the next key of a page is the key
of the entry the page stopped at followed by one byte (`nextKeyOfRest_eq`), strictly after it, and
the raw iteration that starts there never reaches that entry. A client that pages through the
grants therefore never sees the first grant after each full page
(`granteeGrantsPages_skips_boundary`). A key whose non-terminal form is longer than the buffer
makes the query fail instead.
-/

namespace Xion.Indexer

open Bytes KeyCodec Run

/-- `query.PageRequest` as `GranteeGrants` reads it: a missing request reads as the zero one. -/
structure PageRequest where
  key : Bytes
  offset : ℕ
  limit : ℕ

/-- `query.DefaultLimit`. -/
def defaultLimit : ℕ := 100

/-- The number of grants a page collects: the request's limit when positive, else the default. -/
def pageLimit (req : PageRequest) : ℕ := if 0 < req.limit then req.limit else defaultLimit

/-- Why a query failed. -/
inductive QueryError
  /-- A key that cannot be encoded or decoded. -/
  | encoding
  /-- `collections.ErrNotFound`: an index entry whose authorization is missing. -/
  | notFound
  /-- Writing the next key into its 128-byte buffer failed. -/
  | nextKey (e : WriteError)
  deriving DecidableEq, Repr

/-- A listed grant: the authorization's primary key (granter, grantee, message type) and its grant,
from which the response reports the granter, the requested grantee and the grant. -/
structure GrantItem (G : Type) where
  key : Bytes × Bytes × Bytes
  grant : G
  deriving DecidableEq, Repr

/-- A page of grants and the key of the next page, empty when there is none. -/
structure Page (G : Type) where
  grants : List (GrantItem G)
  nextKey : Bytes
  deriving DecidableEq, Repr

section Query

variable {G : Type}

/-- The index's key codec, `Pair(AccAddressKey, Triple(AccAddressKey, AccAddressKey, StringKey))`,
decoding a key: the grantee, then the triple. -/
def decodeIndexKey (k : Bytes) : Option (Bytes × Bytes × Bytes × Bytes) := do
  let (grantee, rest) ← decodeBytesNonTerminal k
  let (granter, grantee', msgType) ← decodeTripleKey rest
  pure (grantee, granter, grantee', msgType)

/-- The iterator's `Key`: an error for a key that does not decode. -/
def decodeEntry (k : Bytes) : Except QueryError (Bytes × Bytes × Bytes × Bytes) :=
  ofOption (decodeIndexKey k) .encoding

/-- `Authorizations.Get` of a decoded primary key. -/
def fetchGrant (s : AuthzStore G) (granter grantee msgType : Bytes) : Except QueryError G := do
  let pk ← ofOption (tripleKey granter grantee msgType) .encoding
  ofOption (s.primary.get? pk) .notFound

/-- The next key: the index codec's `EncodeNonTerminal` of a decoded key into a 128-byte buffer. -/
def nextKeyOf (grantee granter grantee' msgType : Bytes) : Except QueryError Bytes :=
  (writeNonTerminal 128 [.bytes grantee, .bytes granter, .bytes grantee', .string msgType]).mapError
    .nextKey

/-- After the loop: no next key when the iterator is done, else the next key of its entry. -/
def nextKeyOfRest : List (Bytes × Unit) → Except QueryError Bytes
  | [] => .ok []
  | e :: _ => do
    let (grantee, granter, grantee', msgType) ← decodeEntry e.1
    nextKeyOf grantee granter grantee' msgType

/-- The loop of `GranteeGrants` over the index entries left, collecting up to `n` grants; it
returns them and the entries left after it. -/
def collectGrants (s : AuthzStore G) :
    ℕ → List (Bytes × Unit) → Except QueryError (List (GrantItem G) × List (Bytes × Unit))
  | 0, es => .ok ([], es)
  | _ + 1, [] => .ok ([], [])
  | n + 1, e :: es => do
    let (_, granter, grantee', msgType) ← decodeEntry e.1
    let g ← fetchGrant s granter grantee' msgType
    let (items, rest) ← collectGrants s n es
    pure (⟨(granter, grantee', msgType), g⟩ :: items, rest)

/-- The loop of `granteeGrantsWithRawIteration`: an entry of another grantee is skipped and not
counted. -/
def collectGrantsRaw (s : AuthzStore G) (grantee : Bytes) :
    ℕ → List (Bytes × Unit) → Except QueryError (List (GrantItem G) × List (Bytes × Unit))
  | 0, es => .ok ([], es)
  | _ + 1, [] => .ok ([], [])
  | n + 1, e :: es => do
    let (refGrantee, granter, grantee', msgType) ← decodeEntry e.1
    if refGrantee ≠ grantee then collectGrantsRaw s grantee (n + 1) es
    else
      let g ← fetchGrant s granter grantee' msgType
      let (items, rest) ← collectGrantsRaw s grantee n es
      pure (⟨(granter, grantee', msgType), g⟩ :: items, rest)

/-- `GranteeGrants` without a pagination key: the index entries under the grantee's prefix, after
`offset` of them. -/
def granteeGrantsPrefixed (s : AuthzStore G) (grantee : Bytes) (req : PageRequest) :
    Except QueryError (Page G) := do
  let p ← ofOption (bytesNonTerminal grantee) .encoding
  let es := (s.index.entries.filter fun e => p.isPrefixOf e.1).drop req.offset
  let (grants, rest) ← collectGrants s (pageLimit req) es
  let nextKey ← nextKeyOfRest rest
  pure ⟨grants, nextKey⟩

/-- `granteeGrantsWithRawIteration`: the index entries of every grantee from the pagination key's
bytes on. -/
def granteeGrantsWithRawIteration (s : AuthzStore G) (grantee : Bytes) (req : PageRequest) :
    Except QueryError (Page G) := do
  let es := s.index.entries.filter fun e => req.key ≤ e.1
  let (grants, rest) ← collectGrantsRaw s grantee (pageLimit req) es
  let nextKey ← nextKeyOfRest rest
  pure ⟨grants, nextKey⟩

/-- `authzQuerier.GranteeGrants` of a grantee's address: the raw iteration when the request has a
pagination key. -/
def granteeGrants (s : AuthzStore G) (grantee : Bytes) (req : PageRequest) :
    Except QueryError (Page G) :=
  if req.key ≠ [] then granteeGrantsWithRawIteration s grantee req
  else granteeGrantsPrefixed s grantee req

/-- A client paging through a grantee's grants with a limit: the first request has no key, each
next one the previous page's next key, until a page has none; at most `fuel` requests. -/
def granteeGrantsPages (s : AuthzStore G) (grantee : Bytes) (limit : ℕ) :
    ℕ → Bytes → Except QueryError (List (List (GrantItem G)))
  | 0, _ => .ok []
  | fuel + 1, key => do
    let page ← granteeGrants s grantee ⟨key, 0, limit⟩
    if page.nextKey = [] then pure [page.grants]
    else
      let pages ← granteeGrantsPages s grantee limit fuel page.nextKey
      pure (page.grants :: pages)

/-! ## Keys of the index and next keys -/

/-- A decoded index key is the grantee's non-terminal form followed by the triple key. -/
theorem eq_of_decodeIndexKey {k grantee granter grantee' msgType : Bytes}
    (h : decodeIndexKey k = some (grantee, granter, grantee', msgType)) :
    ∃ e t, bytesNonTerminal grantee = some e ∧ tripleKey granter grantee' msgType = some t ∧
      k = e ++ t := by
  simp only [decodeIndexKey, Option.bind_eq_bind, Option.bind_eq_some_iff, Option.pure_def,
    Option.some.injEq] at h
  obtain ⟨⟨a, rest⟩, h₁, ⟨b, c, d⟩, h₂, heq⟩ := h
  obtain ⟨rfl, rfl, rfl, rfl⟩ : a = grantee ∧ b = granter ∧ c = grantee' ∧ d = msgType := by
    simpa using heq
  obtain ⟨e, he, rfl⟩ := eq_append_of_decodeBytesNonTerminal h₁
  exact ⟨e, rest, he, tripleKey_of_decodeTripleKey h₂, rfl⟩

/-- An index key is determined by what it decodes to. -/
theorem decodeIndexKey_inj {k k' : Bytes} {d : Bytes × Bytes × Bytes × Bytes}
    (h : decodeIndexKey k = some d) (h' : decodeIndexKey k' = some d) : k = k' := by
  obtain ⟨grantee, granter, grantee', msgType⟩ := d
  obtain ⟨e, t, he, ht, rfl⟩ := eq_of_decodeIndexKey h
  obtain ⟨e', t', he', ht', rfl⟩ := eq_of_decodeIndexKey h'
  rw [Option.some.inj (he.symm.trans he'), Option.some.inj (ht.symm.trans ht')]

/-- A key under a grantee's prefix decodes with that grantee first. -/
theorem decodeIndexKey_fst {grantee p k : Bytes} (hp : bytesNonTerminal grantee = some p)
    (hk : p <+: k) {d : Bytes × Bytes × Bytes × Bytes} (hd : decodeIndexKey k = some d) :
    d.1 = grantee := by
  obtain ⟨rest, rfl⟩ := hk
  obtain ⟨g, granter, grantee', msgType⟩ := d
  obtain ⟨e, t, he, -, heq⟩ := eq_of_decodeIndexKey hd
  exact (bytesNonTerminal_append_inj hp he heq).1.symm

theorem decodeEntry_eq_ok {k : Bytes} {d : Bytes × Bytes × Bytes × Bytes} :
    decodeEntry k = .ok d ↔ decodeIndexKey k = some d :=
  ofOption_eq_ok

/-- A next key that was written is the entry's key followed by the string delimiter. -/
theorem nextKeyOf_eq {k grantee granter grantee' msgType nk : Bytes}
    (hd : decodeIndexKey k = some (grantee, granter, grantee', msgType))
    (h : nextKeyOf grantee granter grantee' msgType = .ok nk) : nk = k ++ [0] := by
  rw [nextKeyOf, Run.mapError_eq_ok] at h
  have henc := encodeParts_of_writeNonTerminal msgType
    [.bytes grantee, .bytes granter, .bytes grantee'] 128 nk h
  obtain ⟨e, t, he, ht, rfl⟩ := eq_of_decodeIndexKey hd
  obtain ⟨e₁, e₂, h₁, h₂, rfl⟩ := tripleKey_eq_some.1 ht
  obtain ⟨_, hparts, -, rfl⟩ := (encodeParts_append_string msgType _).1 henc
  simp only [encodeParts, Part.nonTerminal, he, h₁, h₂, Option.bind_eq_bind, Option.bind_some,
    Option.pure_def, Option.some.injEq, List.append_nil] at hparts
  subst hparts
  simp

/-- A next key after the loop is the key of the entry the iterator stopped at, followed by one
byte. -/
theorem nextKeyOfRest_eq {rest : List (Bytes × Unit)} {nk : Bytes} (h : nextKeyOfRest rest = .ok nk)
    (hne : nk ≠ []) :
    ∃ e es d, rest = e :: es ∧ decodeIndexKey e.1 = some d ∧ nk = e.1 ++ [0] := by
  match rest, h with
  | [], h =>
    cases h
    exact absurd rfl hne
  | e :: es, h =>
    obtain ⟨⟨grantee, granter, grantee', msgType⟩, hd, hn⟩ := Run.bind_eq_ok.1 h
    have hd' := decodeEntry_eq_ok.1 hd
    exact ⟨e, es, _, rfl, hd', nextKeyOf_eq hd' hn⟩

/-! ## The loops -/

/-- Where a listed grant comes from: an index entry whose key decodes to the grantee and the
grant's primary key. -/
def ListedFrom (grantee : Bytes) (item : GrantItem G) (k : Bytes) : Prop :=
  decodeIndexKey k = some (grantee, item.key.1, item.key.2.1, item.key.2.2)

section Collect

/-! A loop over entries passes a prefix of them and collects each item from an entry it passed,
under a relation `Q` between items and entries; one step either collects from the entry in front
or skips it. -/

variable {α β : Type} {Q : α → β → Prop}

theorem collected_nil {es : List β} :
    ∃ pre, es = pre ++ es ∧ ∀ x ∈ ([] : List α), ∃ e ∈ pre, Q x e :=
  ⟨[], rfl, by simp⟩

theorem collected_cons {e : β} {es rest : List β} {item : α} {items : List α} (hq : Q item e)
    (h : ∃ pre, es = pre ++ rest ∧ ∀ x ∈ items, ∃ e' ∈ pre, Q x e') :
    ∃ pre, e :: es = pre ++ rest ∧ ∀ x ∈ item :: items, ∃ e' ∈ pre, Q x e' := by
  obtain ⟨pre, rfl, hpre⟩ := h
  refine ⟨e :: pre, rfl, fun x hx => ?_⟩
  rcases List.mem_cons.1 hx with rfl | hx
  · exact ⟨e, List.mem_cons_self, hq⟩
  · obtain ⟨e', he', hq'⟩ := hpre x hx
    exact ⟨e', List.mem_cons_of_mem e he', hq'⟩

theorem collected_skip {e : β} {es rest : List β} {items : List α}
    (h : ∃ pre, es = pre ++ rest ∧ ∀ x ∈ items, ∃ e' ∈ pre, Q x e') :
    ∃ pre, e :: es = pre ++ rest ∧ ∀ x ∈ items, ∃ e' ∈ pre, Q x e' := by
  obtain ⟨pre, rfl, hpre⟩ := h
  refine ⟨e :: pre, rfl, fun x hx => ?_⟩
  obtain ⟨e', he', hq⟩ := hpre x hx
  exact ⟨e', List.mem_cons_of_mem e he', hq⟩

end Collect

/-- The loop passes a prefix of the entries, and each grant it collects comes from one of them. -/
theorem collectGrants_spec {s : AuthzStore G} :
    ∀ {n : ℕ} {es rest : List (Bytes × Unit)} {items : List (GrantItem G)},
      collectGrants s n es = .ok (items, rest) →
      ∃ pre, es = pre ++ rest ∧ ∀ item ∈ items, ∃ e ∈ pre, ∃ grantee, ListedFrom grantee item e.1
  | 0, es, rest, items, h => by
    cases h
    exact collected_nil
  | _ + 1, [], rest, items, h => by
    cases h
    exact collected_nil
  | n + 1, e :: es, rest, items, h => by
    obtain ⟨⟨grantee, granter, grantee', msgType⟩, hd, h⟩ := Run.bind_eq_ok.1 h
    obtain ⟨g, -, h⟩ := Run.bind_eq_ok.1 h
    obtain ⟨⟨items', rest'⟩, hrec, h⟩ := Run.bind_eq_ok.1 h
    obtain ⟨rfl, rfl⟩ := Prod.mk.inj (Run.pure_eq_ok.1 h).symm
    exact collected_cons ⟨grantee, decodeEntry_eq_ok.1 hd⟩ (collectGrants_spec hrec)

/-- The raw loop passes a prefix of the entries, and each grant it collects comes from one of
them under the requested grantee. -/
theorem collectGrantsRaw_spec {s : AuthzStore G} {grantee : Bytes} :
    ∀ {n : ℕ} {es rest : List (Bytes × Unit)} {items : List (GrantItem G)},
      collectGrantsRaw s grantee n es = .ok (items, rest) →
      ∃ pre, es = pre ++ rest ∧ ∀ item ∈ items, ∃ e ∈ pre, ListedFrom grantee item e.1
  | 0, es, rest, items, h => by
    simp only [collectGrantsRaw] at h
    cases h
    exact collected_nil
  | _ + 1, [], rest, items, h => by
    simp only [collectGrantsRaw] at h
    cases h
    exact collected_nil
  | n + 1, e :: es, rest, items, h => by
    simp only [collectGrantsRaw] at h
    obtain ⟨⟨refGrantee, granter, grantee', msgType⟩, hd, h⟩ := Run.bind_eq_ok.1 h
    by_cases hg : refGrantee = grantee
    · -- An entry of the grantee: its grant is collected.
      subst hg
      simp only [ne_eq, not_true_eq_false, if_false] at h
      obtain ⟨g, -, h⟩ := Run.bind_eq_ok.1 h
      obtain ⟨⟨items', rest'⟩, hrec, h⟩ := Run.bind_eq_ok.1 h
      obtain ⟨rfl, rfl⟩ := Prod.mk.inj (Run.pure_eq_ok.1 h).symm
      exact collected_cons (decodeEntry_eq_ok.1 hd) (collectGrantsRaw_spec hrec)
    · -- Another grantee's entry is passed over.
      simp only [ne_eq, hg, not_false_eq_true, if_true] at h
      exact collected_skip (collectGrantsRaw_spec h)

/-! ## Pages -/

/-- A first page that has a next key stopped at an index entry of the grantee: the next key is
that entry's key followed by one byte, and every grant of the page comes from an entry of the
grantee with a smaller key. -/
theorem granteeGrantsPrefixed_boundary {s : AuthzStore G} {grantee : Bytes} {req : PageRequest}
    {page : Page G} (h : granteeGrantsPrefixed s grantee req = .ok page) (hne : page.nextKey ≠ []) :
    ∃ e ∈ s.index.entries, (∃ d, decodeIndexKey e.1 = some d ∧ d.1 = grantee) ∧
      page.nextKey = e.1 ++ [0] ∧
      ∀ item ∈ page.grants, ∃ k, k < e.1 ∧ ListedFrom grantee item k := by
  unfold granteeGrantsPrefixed at h
  obtain ⟨p, hp, h⟩ := Run.bind_eq_ok.1 h
  have hp' : bytesNonTerminal grantee = some p := ofOption_eq_ok.1 hp
  obtain ⟨⟨items, rest⟩, hcollect, h⟩ := Run.bind_eq_ok.1 h
  obtain ⟨nk, hnk, h⟩ := Run.bind_eq_ok.1 h
  obtain rfl := (Run.pure_eq_ok.1 h).symm
  obtain ⟨pre, hsplit, hpre⟩ := collectGrants_spec hcollect
  obtain ⟨e, es, d, rfl, hd, rfl⟩ := nextKeyOfRest_eq hnk hne
  -- The entries iterated are sorted, being a part of the index's.
  set filtered := s.index.entries.filter fun e => p.isPrefixOf e.1
  have hsorted : (pre ++ e :: es).Pairwise fun a b => a.1 < b.1 :=
    hsplit ▸ (s.index.sorted.filter _).sublist (List.drop_sublist _ _)
  have hmem : ∀ x ∈ pre ++ e :: es, x ∈ s.index.entries ∧ p <+: x.1 := fun x hx => by
    have hx' := List.mem_of_mem_drop (hsplit ▸ hx)
    rw [List.mem_filter, List.isPrefixOf_iff_prefix] at hx'
    exact hx'
  have he := hmem e (by simp)
  refine ⟨e, he.1, ⟨d, hd, decodeIndexKey_fst hp' he.2 hd⟩, rfl, fun item hitem => ?_⟩
  obtain ⟨e', he', grantee', hfrom⟩ := hpre item hitem
  have hprefix := (hmem e' (List.mem_append_left _ he')).2
  have hgrantee : grantee' = grantee := decodeIndexKey_fst hp' hprefix hfrom
  have hlt : e'.1 < e.1 := (List.pairwise_append.1 hsorted).2.2 e' he' e List.mem_cons_self
  exact ⟨e'.1, hlt, hgrantee ▸ hfrom⟩

/-- A raw page lists grants from the grantee's entries at or after its key, and its next key is
after its key. -/
theorem granteeGrantsWithRawIteration_keys {s : AuthzStore G} {grantee : Bytes} {req : PageRequest}
    {page : Page G} (h : granteeGrantsWithRawIteration s grantee req = .ok page) :
    (∀ item ∈ page.grants, ∃ k, req.key ≤ k ∧ ListedFrom grantee item k) ∧
      (page.nextKey ≠ [] → req.key < page.nextKey) := by
  unfold granteeGrantsWithRawIteration at h
  obtain ⟨⟨items, rest⟩, hcollect, h⟩ := bind_eq_ok.1 h
  obtain ⟨nk, hnk, h⟩ := bind_eq_ok.1 h
  obtain rfl := (pure_eq_ok.1 h).symm
  obtain ⟨pre, hsplit, hpre⟩ := collectGrantsRaw_spec hcollect
  -- The raw iteration starts at the request's key.
  have hge : ∀ x ∈ pre ++ rest, req.key ≤ x.1 := fun x hx => by
    rw [← hsplit, List.mem_filter] at hx
    simpa using hx.2
  refine ⟨fun item hitem => ?_, fun hne => ?_⟩
  · obtain ⟨e, he, hfrom⟩ := hpre item hitem
    exact ⟨e.1, hge e (List.mem_append_left _ he), hfrom⟩
  · obtain ⟨e, es, d, rfl, -, rfl⟩ := nextKeyOfRest_eq hnk hne
    exact lt_of_le_of_lt (hge e (by simp)) (lt_append_of_ne_nil e.1 (by simp))

/-- Resumed from a key, every page of a session lists grants from the grantee's entries at or after
that key: each next key is after the one before. -/
theorem granteeGrantsPages_keys {s : AuthzStore G} {grantee : Bytes} {limit : ℕ} :
    ∀ {fuel : ℕ} {key : Bytes} {pages : List (List (GrantItem G))}, key ≠ [] →
      granteeGrantsPages s grantee limit fuel key = .ok pages →
      ∀ p ∈ pages, ∀ item ∈ p, ∃ k, key ≤ k ∧ ListedFrom grantee item k
  | 0, _, _, _, h => by
    cases h
    simp
  | fuel + 1, key, pages, hkey, h => by
    obtain ⟨page, hpage, h⟩ := bind_eq_ok.1 h
    simp only [granteeGrants, ne_eq, hkey, not_false_eq_true, if_true] at hpage
    obtain ⟨hitems, hnext⟩ := granteeGrantsWithRawIteration_keys hpage
    split at h
    · obtain rfl := (pure_eq_ok.1 h).symm
      simpa using hitems
    · rename_i hne
      obtain ⟨pages', hrec, h⟩ := bind_eq_ok.1 h
      obtain rfl := (pure_eq_ok.1 h).symm
      intro p hp item hitem
      rcases List.mem_cons.1 hp with rfl | hp
      · exact hitems item hitem
      · -- The later pages start after this page's key.
        obtain ⟨k, hk, hfrom⟩ := granteeGrantsPages_keys hne hrec p hp item hitem
        exact ⟨k, le_of_lt (lt_of_lt_of_le (hnext hne) hk), hfrom⟩

/-- An index entry of a consistent store is an authorization of the grantee it is filed under. -/
theorem getGrant_of_index {s : AuthzStore G} (hs : s.Consistent granteeIndexKeyOf) {k : Bytes}
    {u : Unit} (hk : s.index.get? k = some u) {grantee granter grantee' msgType : Bytes}
    (hd : decodeIndexKey k = some (grantee, granter, grantee', msgType)) :
    grantee' = grantee ∧ ∃ g, getGrant s granter grantee msgType = some g := by
  obtain ⟨pk, g, hget, hik⟩ := hs.exists_of_index hk
  simp only [granteeIndexKeyOf, Option.bind_eq_bind, Option.bind_eq_some_iff] at hik
  obtain ⟨⟨a, b, c⟩, hdec, hpair⟩ := hik
  obtain ⟨e, t, he, ht, rfl⟩ := eq_of_decodeIndexKey hd
  obtain ⟨e', he', heq⟩ := pairKey_eq_some.1 hpair
  -- The entry's key is the pair of the grantee and the authorization's triple key.
  obtain ⟨hb, rfl⟩ := bytesNonTerminal_append_inj he he' heq
  have htriple : granter = a ∧ grantee' = b ∧ msgType = c := by
    simpa using (decodeTripleKey_tripleKey ht).symm.trans hdec
  have hgrantee : grantee' = grantee := htriple.2.1.trans hb.symm
  subst hgrantee
  exact ⟨rfl, g, by simp [getGrant, ht, hget]⟩

/-- A client paging through a grantee's grants never sees the grant at which the first page
stopped: when the grants take more than one page, one of the grantee's grants is in no page. -/
theorem granteeGrantsPages_skips_boundary {s : AuthzStore G} (hs : s.Consistent granteeIndexKeyOf)
    {grantee : Bytes} {limit fuel : ℕ} {pages : List (List (GrantItem G))}
    (h : granteeGrantsPages s grantee limit fuel [] = .ok pages) (hmore : 1 < pages.length) :
    ∃ granter msgType g, getGrant s granter grantee msgType = some g ∧
      ∀ p ∈ pages, ∀ item ∈ p, item.key ≠ (granter, grantee, msgType) := by
  match fuel, h with
  | 0, h =>
    cases h
    simp at hmore
  | fuel + 1, h =>
    obtain ⟨page, hpage, h⟩ := bind_eq_ok.1 h
    simp only [granteeGrants, ne_eq, not_true_eq_false, if_false] at hpage
    split at h
    · obtain rfl := (pure_eq_ok.1 h).symm
      simp at hmore
    · rename_i hne
      obtain ⟨pages', hrec, h⟩ := bind_eq_ok.1 h
      obtain rfl := (pure_eq_ok.1 h).symm
      obtain ⟨e, he, ⟨⟨ge, granter, grantee', msgType⟩, hd, hge⟩, hnk, hfirst⟩ :=
        granteeGrantsPrefixed_boundary hpage hne
      simp only at hge
      rw [hge] at hd
      -- The entry the first page stopped at is an authorization of the grantee.
      obtain ⟨hgrantee', g, hg⟩ := getGrant_of_index hs ((SortedMap.mem_entries_iff _ _ _).1 he) hd
      rw [hgrantee'] at hd
      refine ⟨granter, msgType, g, hg, fun p hp item hitem hkey => ?_⟩
      -- A grant with that key is listed from that entry only.
      have hsame : ∀ k, ListedFrom grantee item k → k = e.1 := fun k hfrom =>
        decodeIndexKey_inj hfrom (by rw [hkey]; exact hd)
      rcases List.mem_cons.1 hp with rfl | hp
      · obtain ⟨k, hlt, hfrom⟩ := hfirst item hitem
        rw [hsame k hfrom] at hlt
        exact lt_irrefl _ hlt
      · obtain ⟨k, hle, hfrom⟩ := granteeGrantsPages_keys hne hrec p hp item hitem
        rw [hnk, hsame k hfrom] at hle
        exact not_le.2 (lt_append_of_ne_nil e.1 (by simp)) hle

/-- `SetGrant` keeps the grantee index consistent. -/
theorem consistent_setGrant {s s' : AuthzStore G} (hs : s.Consistent granteeIndexKeyOf)
    {granter grantee msgType : Bytes} {g : G} (h : setGrant s granter grantee msgType g = some s') :
    s'.Consistent granteeIndexKeyOf := by
  obtain ⟨pk, hpk⟩ : ∃ pk, tripleKey granter grantee msgType = some pk := by
    cases hk : tripleKey granter grantee msgType with
    | none => simp [setGrant, hk] at h
    | some pk => exact ⟨pk, rfl⟩
  obtain ⟨ik, hik⟩ := exists_pairKey_of_tripleKey hpk
  rw [setGrant_eq hpk hik, Option.some.injEq] at h
  subst h
  exact hs.set (by rw [granteeIndexKeyOf_tripleKey hpk, hik]) g

end Query

/-! ## The repository's pagination test -/

/-- The second granter of the repository's test of grantee pagination. -/
def testGranter2 : Bytes := ofAscii "granter2_next_key___"

/-- The indexer of that test: the grantee holds a send grant from each of the two granters. -/
def twoGrantsStore : AuthzStore Bytes :=
  ((setGrant .empty testGranter testGrantee msgSendTypeURL [1]).bind fun s =>
    setGrant s testGranter2 testGrantee msgSendTypeURL [2]).getD .empty

set_option maxRecDepth 4000 in
/-- Paging through the two grants one at a time takes two pages, and the second granter's grant
is in neither. -/
theorem twoGrants_boundary_skipped :
    twoGrantsStore.Consistent granteeIndexKeyOf ∧
      granteeGrantsPages twoGrantsStore testGrantee 1 3 [] =
        .ok [[⟨(testGranter, testGrantee, msgSendTypeURL), [1]⟩], []] ∧
      1 < [[(⟨(testGranter, testGrantee, msgSendTypeURL), [1]⟩ : GrantItem Bytes)], []].length ∧
      ∃ granter msgType g, getGrant twoGrantsStore granter testGrantee msgType = some g ∧
        ∀ p ∈ [[(⟨(testGranter, testGrantee, msgSendTypeURL), [1]⟩ : GrantItem Bytes)], []],
          ∀ item ∈ p, item.key ≠ (granter, testGrantee, msgType) := by
  -- the store is two grants set on the empty store
  have hs : twoGrantsStore.Consistent granteeIndexKeyOf := by
    unfold twoGrantsStore
    cases h₁ : setGrant (.empty : AuthzStore Bytes) testGranter testGrantee msgSendTypeURL [1] with
    | none => exact IndexedStore.consistent_empty
    | some s₁ =>
      have hs₁ := consistent_setGrant IndexedStore.consistent_empty h₁
      cases h₂ : setGrant s₁ testGranter2 testGrantee msgSendTypeURL [2] with
      | none => simpa [h₂] using IndexedStore.consistent_empty
      | some s₂ => simpa [h₂] using consistent_setGrant hs₁ h₂
  have h : granteeGrantsPages twoGrantsStore testGrantee 1 3 [] =
      .ok [[⟨(testGranter, testGrantee, msgSendTypeURL), [1]⟩], []] := by
    decide
  exact ⟨hs, h, by decide, granteeGrantsPages_skips_boundary hs h (by decide)⟩

set_option maxRecDepth 4000 in
/-- Paging through the grantee's grants one at a time lists the first grant and then an empty
page: the second granter's grant is never listed. -/
theorem twoGrants_pages_miss_second :
    getGrant twoGrantsStore testGranter2 testGrantee msgSendTypeURL = some [2] ∧
      granteeGrantsPages twoGrantsStore testGrantee 1 3 [] =
        .ok [[⟨(testGranter, testGrantee, msgSendTypeURL), [1]⟩], []] := by
  decide

end Xion.Indexer
