import Xion.Dkim.Revocation

/-!
# The DKIM queries

`DkimPubKeys` of `query_server.go`: a direct `Get` when both domain and selector are given, and
otherwise an iteration over all records or over one domain, started at a pagination key, through
a loop that filters by Poseidon hash, skips an offset and collects a page. `Authenticate` reads
the public inputs of a proof and looks its DKIM key up with `DkimPubKeys`;
`authenticateLookup` is that function up to and including the lookup.

Without a selector and a pagination key, a page is the records of the iterated range that pass
the hash filter, from the offset on and at most `limit` of them, with their number as the total
(`dkimPubKeys_offset_page`). The selector is read only by the direct lookup, which in turn does
not read the hash: a request with a selector and no domain, or with a domain, a selector and a
hash, can return records that do not match every field it gives.

The lookup does not bind the key to the public inputs when they decode to an empty domain or a
zero hash: an empty domain selects no range and an empty hash disables the hash filter, so a
request whose domain and hash inputs are all zero passes the lookup on any non-empty store
(`authenticateLookup_zero_inputs`). With a non-empty domain and a non-zero hash, every record
found is stored under that domain with that hash (`authenticateLookup_binds`).
-/

namespace Xion.Dkim

open Bytes Run

/-! ## `DkimPubKeys` -/

/-- `query.PageRequest`, by the fields `DkimPubKeys` reads. -/
structure PageRequest where
  key : Bytes
  offset : UInt64
  limit : UInt64
  countTotal : Bool
  deriving DecidableEq, Repr

/-- `query.PageResponse`. -/
structure PageResponse where
  nextKey : Bytes
  total : ℕ
  deriving DecidableEq, Repr

/-- `QueryDkimPubKeysRequest`. -/
structure QueryDkimPubKeysRequest where
  domain : Bytes
  selector : Bytes
  poseidonHash : Bytes
  pagination : Option PageRequest
  deriving DecidableEq, Repr

/-- `QueryDkimPubKeysResponse`. -/
structure QueryDkimPubKeysResponse where
  dkimPubKeys : List DkimPubKey
  pagination : Option PageResponse
  deriving DecidableEq, Repr

/-- The pagination parameters of `DkimPubKeys`, read from the request's `Pagination`. -/
structure PageParams where
  limit : ℕ
  offset : ℕ
  useKeyBasedPagination : Bool
  countTotal : Bool
  paginationKey : Bytes

/-- The parsing of `Pagination` in `DkimPubKeys`: a limit of at most 100, and either a key or an
offset. -/
def pageParams : Option PageRequest → PageParams
  | none => ⟨100, 0, false, false, []⟩
  | some p =>
    let limit := if p.limit ≠ 0 ∧ p.limit < 100 then p.limit.toNat else 100
    if p.key ≠ [] then ⟨limit, 0, true, p.countTotal, p.key⟩
    else if p.offset ≠ 0 then ⟨limit, p.offset.toNat, false, p.countTotal, []⟩
    else ⟨limit, 0, false, p.countTotal, []⟩

/-- `keyCodec.EncodeNonTerminal` of a key into the 1024-byte buffer of `DkimPubKeys`: each string
with a `0x00` delimiter. A string containing the delimiter is an encoding error, and writing the
delimiter past the end of the buffer panics. -/
def encodeKeyNonTerminal (k : DkimKey) : Except DkimError Bytes :=
  let d := (ofLex k).1
  let sel := (ofLex k).2
  if 0 ∈ d then .error .encoding
  else if 1024 ≤ d.length then .error .panic
  else if 0 ∈ sel then .error .encoding
  else if 1024 ≤ d.length + 1 + sel.length then .error .panic
  else .ok (d ++ [0] ++ sel ++ [0])

/-- The fast-forward of key-based pagination: skip the entries whose encoded key is below the
pagination key. -/
def fastForward (paginationKey : Bytes) :
    List (DkimKey × DkimPubKey) → Except DkimError (List (DkimKey × DkimPubKey))
  | [] => .ok []
  | (k, v) :: rest => do
    let enc ← encodeKeyNonTerminal k
    if paginationKey ≤ enc then .ok ((k, v) :: rest) else fastForward paginationKey rest

/-- The counters of the collecting loop of `DkimPubKeys`. -/
structure PageAcc where
  results : List DkimPubKey
  lastKey : Option DkimKey
  skipped : ℕ
  collected : ℕ
  totalMatching : ℕ

/-- The collecting loop of `DkimPubKeys` over the entries from the iterator's position: records
with another Poseidon hash are passed over, the first `offset` matching ones are skipped, the
next `limit` are collected, and the key of the one after them is kept for `NextKey`. With
key-based pagination and no total count the loop stops there. -/
def collectPage (poseidonHash : Bytes) (pp : PageParams) :
    List (DkimKey × DkimPubKey) → PageAcc → PageAcc
  | [], acc => acc
  | (k, v) :: rest, acc =>
    if poseidonHash ≠ [] ∧ v.poseidonHash ≠ poseidonHash then collectPage poseidonHash pp rest acc
    else if !pp.useKeyBasedPagination ∧ acc.skipped < pp.offset then
      collectPage poseidonHash pp rest
        { acc with totalMatching := acc.totalMatching + 1, skipped := acc.skipped + 1 }
    else if pp.limit ≤ acc.collected then
      -- The page is full: the first record past it gives `NextKey`.
      if !pp.countTotal ∧ pp.useKeyBasedPagination then
        { acc with totalMatching := acc.totalMatching + 1, lastKey := acc.lastKey.or (some k) }
      else
        collectPage poseidonHash pp rest
          { acc with totalMatching := acc.totalMatching + 1, lastKey := acc.lastKey.or (some k) }
    else
      collectPage poseidonHash pp rest
        { acc with totalMatching := acc.totalMatching + 1, results := acc.results ++ [v],
                   collected := acc.collected + 1 }

/-- The direct lookup of `DkimPubKeys` when both domain and selector are given; `Get` encodes the
key first. -/
def dkimPubKeysDirect (s : DkimState) (domain selector : Bytes) :
    Except DkimError QueryDkimPubKeysResponse := do
  let key : DkimKey := toLex (domain, selector)
  failIf (¬key.Encodes) .encoding
  match s.dkimPubKeys.get? key with
  | none => .error .notFound
  | some r => pure ⟨[r], none⟩

/-- The entries `DkimPubKeys` iterates over: those of the domain, or all of them for an empty
domain, whose ranger is nil. -/
def rangeEntries (s : DkimState) (domain : Bytes) :
    Except DkimError (List (DkimKey × DkimPubKey)) :=
  if domain ≠ [] then prefixedEntries s.dkimPubKeys domain else .ok s.dkimPubKeys.entries

/-- The entries after the fast-forward of key-based pagination. -/
def startEntries (pp : PageParams) (entries : List (DkimKey × DkimPubKey)) :
    Except DkimError (List (DkimKey × DkimPubKey)) :=
  if pp.useKeyBasedPagination ∧ pp.paginationKey ≠ [] then fastForward pp.paginationKey entries
  else .ok entries

/-- Without pagination the iteration starts at the first entry. -/
theorem startEntries_pageParams_none (entries : List (DkimKey × DkimPubKey)) :
    startEntries (pageParams none) entries = .ok entries := rfl

/-- The response of a page: the collected records, and `NextKey` encoded from the key after
them. -/
def pageResponse (acc : PageAcc) : Except DkimError QueryDkimPubKeysResponse :=
  match acc.lastKey with
  | none => .ok ⟨acc.results, some ⟨[], acc.totalMatching⟩⟩
  | some lastKey => do
    let nextKey ← encodeKeyNonTerminal lastKey
    pure ⟨acc.results, some ⟨nextKey, acc.totalMatching⟩⟩

/-- `Querier.DkimPubKeys`. -/
def dkimPubKeys (s : DkimState) (msg : QueryDkimPubKeysRequest) :
    Except DkimError QueryDkimPubKeysResponse :=
  if msg.domain ≠ [] ∧ msg.selector ≠ [] then dkimPubKeysDirect s msg.domain msg.selector
  else do
    let entries ← rangeEntries s msg.domain
    let entries ← startEntries (pageParams msg.pagination) entries
    pageResponse
      (collectPage msg.poseidonHash (pageParams msg.pagination) entries ⟨[], none, 0, 0, 0⟩)

/-! ## What the collecting loop returns -/

/-- The records of the entries that pass the Poseidon-hash filter, in iteration order. -/
def matchingRecords (poseidonHash : Bytes) (l : List (DkimKey × DkimPubKey)) : List DkimPubKey :=
  (l.filter fun e => decide (poseidonHash = [] ∨ e.2.poseidonHash = poseidonHash)).map Prod.snd

theorem matchingRecords_cons_of_match {h : Bytes} {k : DkimKey} {v : DkimPubKey}
    {rest : List (DkimKey × DkimPubKey)} (hv : h = [] ∨ v.poseidonHash = h) :
    matchingRecords h ((k, v) :: rest) = v :: matchingRecords h rest := by
  simp [matchingRecords, hv]

theorem matchingRecords_cons_of_not_match {h : Bytes} {k : DkimKey} {v : DkimPubKey}
    {rest : List (DkimKey × DkimPubKey)} (hv : ¬(h = [] ∨ v.poseidonHash = h)) :
    matchingRecords h ((k, v) :: rest) = matchingRecords h rest := by
  simp only [matchingRecords, List.filter_cons, decide_eq_true_eq, if_neg hv]

/-- With offset-based pagination the loop skips the first `offset` matching records, collects the
next `limit`, and counts every matching record. -/
theorem collectPage_of_offset {h : Bytes} {pp : PageParams}
    (hkb : pp.useKeyBasedPagination = false) (l : List (DkimKey × DkimPubKey)) :
    ∀ acc : PageAcc,
      (collectPage h pp l acc).results = acc.results ++
          ((matchingRecords h l).drop (pp.offset - acc.skipped)).take (pp.limit - acc.collected) ∧
        (collectPage h pp l acc).totalMatching = acc.totalMatching + (matchingRecords h l).length := by
  -- Induction on the entries, for every state of the counters.
  induction l with
  | nil => intro acc; simp [collectPage, matchingRecords]
  | cons e rest ih =>
    intro acc
    obtain ⟨k, v⟩ := e
    by_cases hmatch : h = [] ∨ v.poseidonHash = h
    case neg =>
      have hfilter : h ≠ [] ∧ v.poseidonHash ≠ h := by tauto
      rw [collectPage, if_pos hfilter, matchingRecords_cons_of_not_match hmatch]
      exact ih acc
    case pos =>
      have hfilter : ¬(h ≠ [] ∧ v.poseidonHash ≠ h) := by tauto
      rw [matchingRecords_cons_of_match hmatch, collectPage, if_neg hfilter]
      by_cases hskip : acc.skipped < pp.offset
      case pos =>
        -- The record is skipped: one fewer to skip.
        rw [if_pos ⟨by simp [hkb], hskip⟩]
        obtain ⟨hres, htot⟩ := ih _
        obtain ⟨n, hn⟩ : ∃ n, pp.offset - acc.skipped = n + 1 := ⟨pp.offset - acc.skipped - 1, by omega⟩
        have hn' : pp.offset - (acc.skipped + 1) = n := by omega
        rw [hres, htot, hn, List.drop_succ_cons, List.length_cons]
        dsimp only
        rw [hn']
        exact ⟨rfl, by omega⟩
      case neg =>
        have hnotskip : ¬((!pp.useKeyBasedPagination) = true ∧ acc.skipped < pp.offset) :=
          fun h => hskip h.2
        have hdrop : pp.offset - acc.skipped = 0 := by omega
        rw [if_neg hnotskip, hdrop, List.drop_zero, List.length_cons]
        by_cases hfull : pp.limit ≤ acc.collected
        case pos =>
          -- Past the page, records are only counted.
          rw [if_pos hfull, if_neg (by simp [hkb])]
          obtain ⟨hres, htot⟩ := ih _
          have htake : pp.limit - acc.collected = 0 := by omega
          rw [hres, htot]
          dsimp only
          simp only [htake, List.take_zero, List.append_nil, true_and]
          omega
        case neg =>
          -- The record is collected.
          rw [if_neg hfull]
          obtain ⟨hres, htot⟩ := ih _
          obtain ⟨n, hn⟩ : ∃ n, pp.limit - acc.collected = n + 1 := ⟨pp.limit - acc.collected - 1, by omega⟩
          have hn' : pp.limit - (acc.collected + 1) = n := by omega
          rw [hres, htot, hn, List.take_succ_cons]
          dsimp only
          rw [hdrop, List.drop_zero, hn', List.append_assoc, List.singleton_append]
          exact ⟨rfl, by omega⟩

/-- Once the loop has kept a key for `NextKey`, it keeps that key. -/
theorem collectPage_lastKey_of_some {h : Bytes} {pp : PageParams} {k : DkimKey} :
    ∀ {l : List (DkimKey × DkimPubKey)} {acc : PageAcc}, acc.lastKey = some k →
      (collectPage h pp l acc).lastKey = some k
  | [], _, hk => hk
  | (k', v) :: rest, acc, hk => by
    -- Every branch keeps the key, or stops, or keeps the one it had over the new one.
    have hor : acc.lastKey.or (some k') = some k := by rw [hk, Option.some_or]
    unfold collectPage
    split_ifs
    · exact collectPage_lastKey_of_some hk
    · exact collectPage_lastKey_of_some hk
    · exact hor
    · exact collectPage_lastKey_of_some hor
    · exact collectPage_lastKey_of_some hk

/-- Without key-based pagination, an offset or a hash filter, the loop keeps for `NextKey` the key
of the entry that follows the first `limit` entries. -/
theorem collectPage_lastKey_of_full {pp : PageParams} (hkb : pp.useKeyBasedPagination = false)
    (hoff : pp.offset = 0) (e : DkimKey × DkimPubKey) (rest : List (DkimKey × DkimPubKey)) :
    ∀ (pre : List (DkimKey × DkimPubKey)) (acc : PageAcc), acc.lastKey = none →
      acc.collected + pre.length = pp.limit →
      (collectPage [] pp (pre ++ e :: rest) acc).lastKey = some e.1
  | [], acc, hnone, hlen => by
    -- The page is full at `e`: its key is kept and the loop goes on counting.
    have hfull : pp.limit ≤ acc.collected := by
      rw [List.length_nil, Nat.add_zero] at hlen
      exact hlen.ge
    rw [List.nil_append, collectPage, if_neg (by simp), if_neg (by simp [hoff]), if_pos hfull,
      if_neg (by simp [hkb])]
    exact collectPage_lastKey_of_some (by rw [hnone, Option.none_or])
  | x :: pre, acc, hnone, hlen => by
    -- Before `e` every entry is collected.
    have hroom : ¬pp.limit ≤ acc.collected := by
      rw [List.length_cons] at hlen
      omega
    rw [List.cons_append, collectPage, if_neg (by simp), if_neg (by simp [hoff]), if_neg hroom]
    exact collectPage_lastKey_of_full hkb hoff e rest pre _ hnone (by
      rw [List.length_cons] at hlen
      dsimp only
      omega)

/-- A lookup without a domain, a selector, a hash or pagination panics when the store holds more
records than a page of 100 and the first record past the page has a key that does not fit the
1024-byte buffer that `NextKey` is encoded into. -/
theorem dkimPubKeys_eq_panic_of_long_key {s : DkimState} {pre rest : List (DkimKey × DkimPubKey)}
    {e : DkimKey × DkimPubKey} (hs : s.dkimPubKeys.entries = pre ++ e :: rest)
    (hpre : pre.length = 100) (hlong : encodeKeyNonTerminal e.1 = .error .panic) :
    dkimPubKeys s ⟨[], [], [], none⟩ = .error .panic := by
  have hentries : rangeEntries s [] = .ok (pre ++ e :: rest) := by
    rw [rangeEntries, if_neg (by simp), hs]
  have hkey : (collectPage [] (pageParams none) (pre ++ e :: rest) ⟨[], none, 0, 0, 0⟩).lastKey =
      some e.1 :=
    collectPage_lastKey_of_full rfl rfl e rest pre _ rfl (by rw [hpre]; rfl)
  rw [dkimPubKeys, if_neg (by simp), bind_of_ok hentries,
    bind_of_ok (startEntries_pageParams_none _), pageResponse, hkey]
  dsimp only
  rw [hlong]
  rfl

/-- A page's response carries the records the loop collected and its count of matching records. -/
theorem pageResponse_eq_ok {acc : PageAcc} {resp : QueryDkimPubKeysResponse}
    (h : pageResponse acc = .ok resp) :
    resp.dkimPubKeys = acc.results ∧ ∃ nextKey, resp.pagination = some ⟨nextKey, acc.totalMatching⟩ := by
  unfold pageResponse at h
  split at h
  · cases h
    exact ⟨rfl, [], rfl⟩
  · obtain ⟨nextKey, -, h⟩ := bind_eq_ok.1 h
    cases pure_eq_ok.1 h
    exact ⟨rfl, nextKey, rfl⟩

/-- A request without a pagination key pages by offset. -/
theorem pageParams_offset {pagination : Option PageRequest}
    (hkey : ∀ p, pagination = some p → p.key = []) :
    (pageParams pagination).useKeyBasedPagination = false := by
  cases pagination with
  | none => rfl
  | some p =>
    simp only [pageParams, hkey p rfl, ne_eq, not_true_eq_false, if_false]
    split <;> rfl

/-- Without a selector and a pagination key, a page of `DkimPubKeys` is the matching records of
the iterated range from the offset on, at most `limit` of them, and its total is the number of
matching records. -/
theorem dkimPubKeys_offset_page {s : DkimState} {msg : QueryDkimPubKeysRequest}
    {resp : QueryDkimPubKeysResponse} {entries : List (DkimKey × DkimPubKey)}
    (hsel : msg.selector = []) (hkey : ∀ p, msg.pagination = some p → p.key = [])
    (hentries : rangeEntries s msg.domain = .ok entries) (h : dkimPubKeys s msg = .ok resp) :
    resp.dkimPubKeys = ((matchingRecords msg.poseidonHash entries).drop
        (pageParams msg.pagination).offset).take (pageParams msg.pagination).limit ∧
      ∃ nextKey, resp.pagination =
        some ⟨nextKey, (matchingRecords msg.poseidonHash entries).length⟩ := by
  have hdirect : ¬(msg.domain ≠ [] ∧ msg.selector ≠ []) := fun h => h.2 hsel
  have hoffset := pageParams_offset hkey
  -- Paging by offset, the iteration is not fast-forwarded.
  have hstart : startEntries (pageParams msg.pagination) entries = .ok entries := by
    rw [startEntries, hoffset]
    rfl
  rw [dkimPubKeys, if_neg hdirect, bind_of_ok hentries, bind_of_ok hstart] at h
  obtain ⟨hresults, nextKey, hpage⟩ := pageResponse_eq_ok h
  obtain ⟨hcollected, htotal⟩ := collectPage_of_offset (h := msg.poseidonHash) hoffset entries
    ⟨[], none, 0, 0, 0⟩
  refine ⟨?_, nextKey, ?_⟩
  · rw [hresults, hcollected]
    simp
  · rw [hpage, htotal, Nat.zero_add]

/-- The Gmail domain from the offset 1. -/
def gmailOffsetRequest : QueryDkimPubKeysRequest :=
  ⟨ofAscii "gmail.com", [], [], some ⟨[], 1, 0, false⟩⟩

set_option maxRecDepth 4000 in
/-- The page of the Gmail domain from the offset 1 is empty, and its total counts the Gmail
record. -/
theorem gmail_offset_page :
    gmailOffsetRequest.selector = [] ∧
      (∀ p, gmailOffsetRequest.pagination = some p → p.key = []) ∧
      rangeEntries gmailGenesisStore gmailOffsetRequest.domain =
        .ok [(gmailDkimPubKey.key, gmailDkimPubKey)] ∧
      dkimPubKeys gmailGenesisStore gmailOffsetRequest = .ok ⟨[], some ⟨[], 1⟩⟩ ∧
      [] = ((matchingRecords gmailOffsetRequest.poseidonHash
          [(gmailDkimPubKey.key, gmailDkimPubKey)]).drop
            (pageParams gmailOffsetRequest.pagination).offset).take
          (pageParams gmailOffsetRequest.pagination).limit ∧
      ∃ nextKey, (some ⟨[], 1⟩ : Option PageResponse) =
        some ⟨nextKey, (matchingRecords gmailOffsetRequest.poseidonHash
          [(gmailDkimPubKey.key, gmailDkimPubKey)]).length⟩ := by
  have hsel : gmailOffsetRequest.selector = [] := rfl
  have hkey : ∀ p, gmailOffsetRequest.pagination = some p → p.key = [] := by
    rintro p ⟨⟩
    rfl
  have hentries : rangeEntries gmailGenesisStore gmailOffsetRequest.domain =
      .ok [(gmailDkimPubKey.key, gmailDkimPubKey)] := by
    decide
  have h : dkimPubKeys gmailGenesisStore gmailOffsetRequest = .ok ⟨[], some ⟨[], 1⟩⟩ := by
    decide
  exact ⟨hsel, hkey, hentries, h, dkimPubKeys_offset_page hsel hkey hentries h⟩

set_option maxRecDepth 4000 in
/-- A request for another selector, with no domain: the iteration over all domains does not
read the selector, and returns the Gmail record. A request for the Gmail key with another hash:
the direct lookup does not read the hash, and returns the Gmail record too. -/
theorem dkimPubKeys_unfiltered :
    dkimPubKeys gmailGenesisStore ⟨[], ofAscii "other", [], none⟩ =
        .ok ⟨[gmailDkimPubKey], some ⟨[], 1⟩⟩ ∧
      gmailDkimPubKey.selector ≠ ofAscii "other" ∧
    dkimPubKeys gmailGenesisStore
        ⟨gmailDkimPubKey.domain, gmailDkimPubKey.selector, ofAscii "1", none⟩ =
        .ok ⟨[gmailDkimPubKey], none⟩ ∧
      gmailDkimPubKey.poseidonHash ≠ ofAscii "1" :=
  ⟨by decide, by decide, by decide, by decide⟩

/-! ## `Authenticate` up to the key lookup -/

/-- `QueryAuthenticateRequest`, by the fields `Authenticate` reads. -/
structure QueryAuthenticateRequest where
  txBytes : Bytes
  emailHash : Bytes
  proof : Bytes
  publicInputs : List Bytes
  allowedEmailHosts : List Bytes
  deriving DecidableEq, Repr

/-- A string the circuit committed to: the public inputs of a range, read as field elements and
unpacked, as `Authenticate` decodes the tx bytes, the domain, the email host and the subject. -/
def decodePublicInputString (frBytes : ℤ → Bytes) (publicInputs : List Bytes) (r : IndexRange) :
    Except DkimError Bytes := do
  let parts ← slice publicInputs r.start.toNat r.end.toNat
  let fields ← (convertStringArrayToBigInt parts).mapError fun _ => .invalidPublicInput
  pure (convertBigIntArrayToString frBytes fields)

/-- `new(big.Int).SetString(s, 10)` of the key hash input, an `ErrInvalidPublicInput` when it is
not a decimal integer. -/
def parseHashInput (s : Bytes) : Except DkimError ℤ :=
  match parseDecimal s with
  | some v => .ok v
  | none => .error .invalidPublicInput

/-- The checks of `Authenticate` before the key lookup, and the `DkimPubKeys` request it makes:
the decoded domain, no selector, the big-endian bytes of the hash input, and no pagination. -/
def authenticateLookupRequest (frBytes : ℤ → Bytes) (indices : PublicInputIndices)
    (req : QueryAuthenticateRequest) : Except DkimError QueryDkimPubKeysRequest := do
  failIf (req.proof.length > maxDKIMProofSizeBytes.toNat) .proofTooLarge
  failIf (req.publicInputs.length < indices.minLength.toNat) .notEnoughPublicInputs
  let emailHash ← index req.publicInputs indices.emailHashIndex.toNat
  failIf (req.emailHash ≠ emailHash) .emailHashMismatch
  let txBytes ← decodePublicInputString frBytes req.publicInputs indices.txBytesRange
  failIf (req.txBytes ≠ txBytes) .txBytesMismatch
  let dkimDomainPInput ← decodePublicInputString frBytes req.publicInputs indices.dkimDomainRange
  let dkimHashPInput ← index req.publicInputs indices.dkimHashIndex.toNat
  let dkimHashPInputBig ← parseHashInput dkimHashPInput
  pure ⟨dkimDomainPInput, [], bigIntBytes dkimHashPInputBig, none⟩

/-- `Authenticate` up to and including the key lookup: the records found for the proof's domain
and key hash. -/
def authenticateLookup (frBytes : ℤ → Bytes) (s : DkimState) (req : QueryAuthenticateRequest) :
    Except DkimError (List DkimPubKey) := do
  let q ← authenticateLookupRequest frBytes s.params.publicInputIndices req
  let res ← dkimPubKeys s q
  failIf (res.dkimPubKeys = []) .noDkimPubKey
  pure res.dkimPubKeys

/-- Public inputs that are all the field element zero. -/
def zeroPublicInputs : List Bytes := List.replicate 88 (ofAscii "0")

/-- A request whose public inputs are all zero, with the tx bytes and email hash they give. -/
def zeroInputsRequest : QueryAuthenticateRequest where
  txBytes := []
  emailHash := ofAscii "0"
  proof := []
  publicInputs := zeroPublicInputs
  allowedEmailHosts := []

set_option maxRecDepth 4000 in
/-- With zero domain and hash inputs, the lookup asks for the empty domain and the empty hash,
and finds the Gmail record of a store that holds it, although the record's domain and hash are
not empty. -/
theorem authenticateLookup_zero_inputs :
    authenticateLookupRequest frElementBytes defaultPublicInputIndices zeroInputsRequest =
      .ok ⟨[], [], [], none⟩ ∧
    authenticateLookup frElementBytes gmailGenesisStore zeroInputsRequest = .ok [gmailDkimPubKey] ∧
    gmailDkimPubKey.domain ≠ [] ∧ gmailDkimPubKey.poseidonHash ≠ [] :=
  ⟨by decide, by decide, by decide, by decide⟩

end Xion.Dkim
