import Xion.Jwk.Keeper
import Xion.Lib.GoStrings
import Xion.Lib.KeyedList

/-!
# The token queries of the `jwk` module

`VerifyJWS`, `ValidateJWT` and `DecodeJWT` (`query_verify_jws.go`, `query_validate_jwt.go`,
`query_decode_jwt.go`) check a token against the key stored for an audience. Each looks the
audience up, parses its key with `jwk.ParseKey` and checks the key's size once more with
`ValidateJWKKeySize`, since a key may have been stored before that check existed. `VerifyJWS` then
charges gas for the key's length. Each rejects a token that is empty, or whose first byte after
leading white space is `{`: the JWS JSON serialization, which the jwx library would otherwise
accept. Only then does the library see the token. `jws.Verify` returns the payload of a compact
JWS; `jwt.Parse` verifies a JWT and validates it against the audience, the subject and a clock at
the block time plus the module's time offset, and the JWT queries answer with its claims as text,
sorted by name.

The library is outside the repository: its functions are the fields of `Jwx`, and a parsed token
is a `Token`, whose private claims form a map. Go visits a map in no fixed order; the JWT queries
take the order of a visit as a `MapOrder`.

Contracts call these queries through the Stargate whitelist, so every node must answer alike.
The JWT queries answer the same whatever order the map is visited in (`jwt_queries_order_free`):
the claims' names are distinct, and sorting by name fixes the list. The library trims a token with
`bytes.TrimSpace` and reads one that then starts with `{` as JSON; the queries trim the left end
only, with the same predicate, which leaves the same first byte (`GoStrings.head?_trimSpace`). So
no token that the library would read as JSON, or as empty, reaches it, and the answers do not
depend on what the library does with one (`queries_compact_only`).

From a validated genesis, over delivered messages, every stored key is empty or one that a
message's `ValidateBasic` accepts (`deliverRun_keysChecked`): the queries' second size check never
fails there, and `VerifyJWS` charges at most `50000 + 10 * MaxJWKKeySize` gas
(`reachable_storedKey`).
-/

namespace Xion.Jwk

open Bytes Run GoStrings KeyedList

/-! ## Errors, gas and the library -/

/-- The errors of the queries: a gRPC status with its code and text, a panic of the gas meter, or
an error of the library returned as it is. -/
inductive QueryError
  /-- `codes.InvalidArgument`: "empty jwt", "empty jws", or "JWS JSON serialization is not
  supported; use compact JWT format" (JWS format for `VerifyJWS`). -/
  | invalidArgument (msg : String)
  /-- `codes.NotFound`, "not found": no audience of the requested name. -/
  | notFound
  /-- `codes.FailedPrecondition`, "stored key validation failed: %s". -/
  | failedPrecondition (cause : KeySizeError)
  /-- `codes.Internal`: "panic during jwt parse" or "panic during jws verify". -/
  | internal (msg : String)
  /-- `ErrorOutOfGas`, the panic of a meter whose limit the charge passes. -/
  | outOfGas
  /-- `ErrorGasOverflow`, the panic of a meter whose count the charge wraps. -/
  | gasOverflow
  /-- An error of the library, returned as it is. -/
  | external (msg : String)
  deriving DecidableEq, Repr

/-- The context's gas meter: the gas consumed so far and the limit. -/
structure GasMeter where
  consumed : UInt64
  limit : UInt64
  deriving DecidableEq, Repr

/-- `ConsumeGas` of the SDK's basic gas meter. A sum that wraps sets the count to the largest word
and panics; a sum past the limit is kept and panics. Either panic ends the query. -/
def GasMeter.consumeGas (g : GasMeter) (amount : UInt64) : GasMeter × Except QueryError Unit :=
  if g.consumed + amount < g.consumed then
    ({ g with consumed := 18446744073709551615 }, .error .gasOverflow)
  else if g.limit < g.consumed + amount then
    ({ g with consumed := g.consumed + amount }, .error .outOfGas)
  else ({ g with consumed := g.consumed + amount }, .ok ())

/-- `JWSVerifyBaseGas`. -/
def jwsVerifyBaseGas : UInt64 := 50000

/-- `JWSVerifyPerByteGas`. -/
def jwsVerifyPerByteGas : UInt64 := 10

/-- The gas `VerifyJWS` charges for a stored key, computed in 64-bit words. -/
def verifyGas (key : Bytes) : UInt64 := jwsVerifyBaseGas + jwsVerifyPerByteGas * key.length.toUInt64

/-- How a call into the jwx library ends: with a value, with an error, or in a panic, which the
query's deferred `recover` turns into an error. -/
inductive Outcome (α : Type)
  | ok (a : α)
  | error (msg : String)
  | panic

/-- The block with the deferred `recover` around a library call: its value, its error as it is,
or for a panic the query's own error. -/
def Outcome.recover {α : Type} (recovered : QueryError) : Outcome α → Except QueryError α
  | .ok a => .ok a
  | .error e => .error (.external e)
  | .panic => .error recovered

/-- A private claim's value, by the case of the type switch that prints it: a string, a
`fmt.Stringer` by its `String()`, a byte slice, a number or a Boolean by `%v`, and any other value
by its JSON, or by `%v` when `json.Marshal` fails. -/
inductive ClaimValue
  | string (s : Bytes)
  | stringer (text : Bytes)
  | bytes (b : Bytes)
  | scalar (text : Bytes)
  | other (json : Option Bytes) (text : Bytes)
  deriving DecidableEq, Repr

/-- The text the type switch gives a private claim's value. -/
def ClaimValue.valStr : ClaimValue → Bytes
  | .string s => s
  | .stringer text => text
  | .bytes b => b
  | .scalar text => text
  | .other (some json) _ => json
  | .other none text => text

/-- The names of the registered claims, in the order `DecodeJWT` lists them. -/
def registeredClaimNames : List Bytes :=
  [ofAscii "iss", ofAscii "sub", ofAscii "aud", ofAscii "exp", ofAscii "nbf", ofAscii "iat",
    ofAscii "jti"]

/-- A token as `jwt.Parse` returns it: its registered claims, a time being none where it
`IsZero`, in Unix seconds otherwise, and its private claims. These form a map, listed here in some
order: their names are distinct, and no registered name is among them, since the library reads a
registered claim into its own field. -/
structure Token where
  issuer : Bytes
  subject : Bytes
  audience : List Bytes
  expiration : Option ℤ
  notBefore : Option ℤ
  issuedAt : Option ℤ
  jwtId : Bytes
  privateClaims : List (Bytes × ClaimValue)
  privateClaims_nodup : (privateClaims.map Prod.fst).Nodup
  privateClaims_unregistered : ∀ k ∈ privateClaims.map Prod.fst, k ∉ registeredClaimNames

/-- The order in which a `range` over the private claims visits them: any arrangement of the
entries. -/
structure MapOrder where
  arrange : List (Bytes × ClaimValue) → List (Bytes × ClaimValue)
  perm : ∀ l, (arrange l).Perm l

/-- The functions of the jwx library, and of `encoding/json`, that the queries call, on keys of
type `Key`. -/
structure Jwx (Key : Type) where
  /-- `jwk.ParseKey`. -/
  parseKey : Bytes → Except String Key
  /-- `Key.Raw`. -/
  raw : Key → Except String RawKey
  /-- `jws.Verify` with `jws.WithKey(key.Algorithm(), key)` and `jws.WithCompact()`: the payload
  of a token whose signature the key verifies. -/
  verify : Bytes → Key → Outcome Bytes
  /-- `jwt.Parse` with `jwt.WithKey(key.Algorithm(), key)`, `jwt.WithAudience`,
  `jwt.WithSubject`, `jwt.WithClock` and `jwt.WithValidate(true)`, under
  `jwt.WithCompactOnly(true)`: the token, verified and validated against the audience, the subject
  and the clock's time in nanoseconds. -/
  parse : Bytes → Key → Bytes → Bytes → ℤ → Outcome Token
  /-- `json.Marshal` of a list of strings. -/
  marshalStrings : List Bytes → Bytes

/-- `QueryVerifyJWSRequest`. -/
structure QueryVerifyJWSRequest where
  aud : Bytes
  sigBytes : Bytes

/-- `QueryValidateJWTRequest`, and `QueryDecodeJWTRequest` with the same fields. -/
structure QueryJWTRequest where
  aud : Bytes
  sub : Bytes
  sigBytes : Bytes

/-! ## The queries -/

section Queries

variable {Key : Type} (L : Jwx Key)

/-- The audience and its parsed key: what the three queries look up first. The key's size is
checked again, against keys stored before the check existed. -/
def storedKey (s : JwkState) (aud : Bytes) : Except QueryError (Audience × Key) := do
  let audience ← ofOption (getAudience s aud) .notFound
  let key ← (L.parseKey audience.key).mapError .external
  (validateJWKKeySize (L.raw key)).mapError .failedPrecondition
  pure (audience, key)

/-- The checks of the token that the three queries make before the library sees it, with each
query's texts: the token is not empty, and after the leading runes that `unicode.IsSpace` accepts
it is not empty and does not start with `{`. -/
def checkCompact (emptyMsg jsonMsg : String) (sigBytes : Bytes) : Except QueryError Unit := do
  failIf (sigBytes = []) (.invalidArgument emptyMsg)
  let trimmed := trimLeftSpace sigBytes
  failIf (trimmed = []) (.invalidArgument emptyMsg)
  failIf (trimmed.head? = some 123) (.invalidArgument jsonMsg)

/-- `VerifyJWS`: the payload of a compact JWS that the audience's key verifies, and the gas meter
after the charge for the key. -/
def verifyJWS (s : JwkState) (g : GasMeter) (req : QueryVerifyJWSRequest) :
    GasMeter × Except QueryError Bytes :=
  match storedKey L s req.aud with
  | .error e => (g, .error e)
  | .ok found =>
    let charged := g.consumeGas (verifyGas found.1.key)
    (charged.1, do
      charged.2
      checkCompact "empty jws" "JWS JSON serialization is not supported; use compact JWS format"
        req.sigBytes
      (L.verify req.sigBytes found.2).recover (.internal "panic during jws verify"))

/-- `BigInt().Int64()` of a 64-bit word: its bits read as a signed word. -/
def toInt64 (v : UInt64) : ℤ := if v.toNat < 2 ^ 63 then v.toNat else v.toNat - 2 ^ 64

/-- The clock of the JWT queries, in nanoseconds: the block time plus the module's time offset. -/
def jwtClock (s : JwkState) (blockTime : ℤ) : ℤ := blockTime + toInt64 s.params.timeOffset

/-- The token of a JWT query: after the stored key and the token checks, `jwt.Parse` under the
query's `recover`. -/
def parseJWT (s : JwkState) (blockTime : ℤ) (req : QueryJWTRequest) : Except QueryError Token := do
  let found ← storedKey L s req.aud
  checkCompact "empty jwt" "JWS JSON serialization is not supported; use compact JWT format"
    req.sigBytes
  (L.parse req.sigBytes found.2 req.aud req.sub (jwtClock s blockTime)).recover
    (.internal "panic during jwt parse")

/-- A private claim as the queries return it: its name and its value's text. -/
def claimText (c : Bytes × ClaimValue) : Bytes × Bytes := (c.1, c.2.valStr)

/-- `ValidateJWT`: the token's private claims, in the order the map is visited, sorted by name. -/
def validateJWT (o : MapOrder) (s : JwkState) (blockTime : ℤ) (req : QueryJWTRequest) :
    Except QueryError (List (Bytes × Bytes)) := do
  let token ← parseJWT L s blockTime req
  pure (sortByKey ((o.arrange token.privateClaims).map claimText))

/-- `fmt.Sprintf("%d", v)`. -/
def formatInt (v : ℤ) : Bytes := ofAscii (toString v)

/-- The registered claims `DecodeJWT` lists, in its order: each one that is set, by its name and
its text. -/
def standardClaims (t : Token) : List (Bytes × Bytes) :=
  (if t.issuer ≠ [] then [(ofAscii "iss", t.issuer)] else []) ++
  (if t.subject ≠ [] then [(ofAscii "sub", t.subject)] else []) ++
  (if t.audience ≠ [] then [(ofAscii "aud", L.marshalStrings t.audience)] else []) ++
  (t.expiration.map fun v => (ofAscii "exp", formatInt v)).toList ++
  (t.notBefore.map fun v => (ofAscii "nbf", formatInt v)).toList ++
  (t.issuedAt.map fun v => (ofAscii "iat", formatInt v)).toList ++
  (if t.jwtId ≠ [] then [(ofAscii "jti", t.jwtId)] else [])

/-- `DecodeJWT`: the token's registered claims that are set, then its private claims in the order
the map is visited, all sorted by name. -/
def decodeJWT (o : MapOrder) (s : JwkState) (blockTime : ℤ) (req : QueryJWTRequest) :
    Except QueryError (List (Bytes × Bytes)) := do
  let token ← parseJWT L s blockTime req
  pure (sortByKey (standardClaims L token ++ (o.arrange token.privateClaims).map claimText))

end Queries

/-! ## Spec lemmas -/

section Spec

variable {Key : Type} {L L' : Jwx Key} {s : JwkState}

theorem storedKey_eq_ok {aud : Bytes} {found : Audience × Key} :
    storedKey L s aud = .ok found ↔
      getAudience s aud = some found.1 ∧ L.parseKey found.1.key = .ok found.2 ∧
        validateJWKKeySize (L.raw found.2) = .ok () := by
  obtain ⟨a, key⟩ := found
  simp only [storedKey, bind_eq_ok, ofOption_eq_ok, mapError_eq_ok, exists_unit, pure_eq_ok]
  constructor
  · rintro ⟨a', ha', key', hkey', hsize, heq⟩
    cases heq
    exact ⟨ha', hkey', hsize⟩
  · rintro ⟨ha, hkey, hsize⟩
    exact ⟨a, ha, key, hkey, hsize, rfl⟩

/-- The token checks pass exactly when something is left after the leading white space, and it
does not start with `{`. -/
theorem checkCompact_eq_ok {emptyMsg jsonMsg : String} {t : Bytes} :
    checkCompact emptyMsg jsonMsg t = .ok () ↔
      ∃ b, (trimLeftSpace t).head? = some b ∧ b ≠ 123 := by
  simp only [checkCompact, bind_const_eq_ok, failIf_eq_ok]
  cases ht : trimLeftSpace t with
  | nil => simp
  | cons b rest =>
    -- a string with something left after trimming is not empty
    have hne : t ≠ [] := by
      rintro rfl
      have hlen := length_trimLeftSpace_le ([] : Bytes)
      rw [ht] at hlen
      simp at hlen
    simp [hne]

end Spec

/-! ## No token that the library reads as JSON reaches it -/

/-- A token that the library reads in the compact form: something is left after `bytes.TrimSpace`,
and it does not start with `{`. -/
def looksCompact (t : Bytes) : Bool :=
  match (trimSpace t).head? with
  | some b => b != 123
  | none => false

/-- Two libraries that differ at most on tokens that do not look compact: they agree on keys and
on JSON, and they verify and parse every token that looks compact alike. -/
structure Jwx.AgreeCompact {Key : Type} (L L' : Jwx Key) : Prop where
  parseKey : L.parseKey = L'.parseKey
  raw : L.raw = L'.raw
  marshalStrings : L.marshalStrings = L'.marshalStrings
  verify : ∀ t, looksCompact t = true → L.verify t = L'.verify t
  parse : ∀ t, looksCompact t = true → L.parse t = L'.parse t

/-- The library under the backstop of the queries, `jws.WithCompact()` and
`jwt.WithCompactOnly(true)`: a token that does not look compact is rejected. -/
def Jwx.compactOnly {Key : Type} (L : Jwx Key) : Jwx Key :=
  { L with
    verify := fun t key => if looksCompact t then L.verify t key else .error "invalid compact form"
    parse := fun t key aud sub now =>
      if looksCompact t then L.parse t key aud sub now else .error "invalid compact form" }

section Compact

variable {Key : Type} {L L' : Jwx Key}

theorem looksCompact_iff {t : Bytes} :
    looksCompact t = true ↔ ∃ b, (trimSpace t).head? = some b ∧ b ≠ 123 := by
  unfold looksCompact
  cases (trimSpace t).head? <;> simp

/-- A token that passes the queries' checks looks compact to the library: the left end trimmed
alone leaves the first byte that `TrimSpace` leaves. -/
theorem looksCompact_of_checkCompact {emptyMsg jsonMsg : String} {t : Bytes}
    (h : checkCompact emptyMsg jsonMsg t = .ok ()) : looksCompact t = true := by
  rw [looksCompact_iff, head?_trimSpace]
  exact checkCompact_eq_ok.1 h

theorem Jwx.agreeCompact_compactOnly (L : Jwx Key) : L.AgreeCompact L.compactOnly where
  parseKey := rfl
  raw := rfl
  marshalStrings := rfl
  verify t ht := by
    funext key
    simp [Jwx.compactOnly, ht]
  parse t ht := by
    funext key aud sub now
    simp [Jwx.compactOnly, ht]

theorem storedKey_congr (h : L.AgreeCompact L') (s : JwkState) (aud : Bytes) :
    storedKey L s aud = storedKey L' s aud := by
  unfold storedKey
  rw [h.parseKey, h.raw]

theorem verifyJWS_congr (h : L.AgreeCompact L') (s : JwkState) (g : GasMeter)
    (req : QueryVerifyJWSRequest) : verifyJWS L s g req = verifyJWS L' s g req := by
  unfold verifyJWS
  rw [storedKey_congr h]
  cases storedKey L' s req.aud with
  | error e => rfl
  | ok found =>
    -- the charge is the same; after it, the library sees only a token that passed the checks
    dsimp only
    congr 1
    refine bind_congr_ok fun _ _ => bind_congr_ok fun _ hc => ?_
    rw [h.verify _ (looksCompact_of_checkCompact hc)]

theorem parseJWT_congr (h : L.AgreeCompact L') (s : JwkState) (blockTime : ℤ)
    (req : QueryJWTRequest) : parseJWT L s blockTime req = parseJWT L' s blockTime req := by
  unfold parseJWT
  rw [storedKey_congr h]
  refine bind_congr fun found => bind_congr_ok fun _ hc => ?_
  rw [h.parse _ (looksCompact_of_checkCompact hc)]

theorem validateJWT_congr (h : L.AgreeCompact L') (o : MapOrder) (s : JwkState) (blockTime : ℤ)
    (req : QueryJWTRequest) :
    validateJWT L o s blockTime req = validateJWT L' o s blockTime req := by
  unfold validateJWT
  rw [parseJWT_congr h]

theorem standardClaims_congr (h : L.AgreeCompact L') : standardClaims L = standardClaims L' := by
  funext t
  unfold standardClaims
  rw [h.marshalStrings]

theorem decodeJWT_congr (h : L.AgreeCompact L') (o : MapOrder) (s : JwkState) (blockTime : ℤ)
    (req : QueryJWTRequest) : decodeJWT L o s blockTime req = decodeJWT L' o s blockTime req := by
  unfold decodeJWT
  rw [parseJWT_congr h, standardClaims_congr h]

end Compact

/-- The three queries answer alike with any two libraries that differ only on tokens that do not
look compact: the library's handling of an empty token, or of one in the JSON serialization, never
reaches an answer, nor the gas meter. -/
theorem queries_compact_only {Key : Type} {L L' : Jwx Key} (h : L.AgreeCompact L')
    (s : JwkState) :
    (∀ g req, verifyJWS L s g req = verifyJWS L' s g req) ∧
      (∀ o blockTime req, validateJWT L o s blockTime req = validateJWT L' o s blockTime req) ∧
      (∀ o blockTime req, decodeJWT L o s blockTime req = decodeJWT L' o s blockTime req) :=
  ⟨verifyJWS_congr h s, fun o => validateJWT_congr h o s, fun o => decodeJWT_congr h o s⟩

/-- A token without claims. -/
def emptyToken : Token :=
  ⟨[], [], [], none, none, none, [], [], List.nodup_nil, fun _ h => absurd h List.not_mem_nil⟩

/-- A library that accepts every key and every token: a token verifies to its own bytes and parses
to a token without claims. -/
def acceptingJwx : Jwx Unit where
  parseKey _ := .ok ()
  raw _ := .ok .other
  verify t _ := .ok t
  parse _ _ _ _ _ := .ok emptyToken
  marshalStrings _ := []

/-- The visit of a map in the order it is listed. -/
def listedOrder : MapOrder := ⟨id, fun l => List.Perm.refl l⟩

/-- The name of the audience of the tests. -/
def queryAudience : Bytes := ofAscii "test-audience"

/-- A token in the JSON serialization, after a space. -/
def jsonToken : Bytes := ofAscii " \x7b\x7d"

/-- A store with one audience. -/
def jsonQueryState : JwkState := setAudience .empty ⟨[], queryAudience, [1]⟩

theorem queries_compact_only_json_token :
    verifyJWS acceptingJwx jsonQueryState ⟨0, 100000⟩ ⟨queryAudience, jsonToken⟩ =
        verifyJWS acceptingJwx.compactOnly jsonQueryState ⟨0, 100000⟩ ⟨queryAudience, jsonToken⟩ ∧
      decodeJWT acceptingJwx listedOrder jsonQueryState 0 ⟨queryAudience, [], jsonToken⟩ =
        decodeJWT acceptingJwx.compactOnly listedOrder jsonQueryState 0
          ⟨queryAudience, [], jsonToken⟩ :=
  have h := queries_compact_only (Jwx.agreeCompact_compactOnly acceptingJwx) jsonQueryState
  ⟨h.1 _ _, h.2.2 _ _ _⟩

/-! ## The JWT queries answer the same in every order of the map -/

section Order

variable {Key : Type} (L : Jwx Key)

theorem registeredClaimNames_nodup : registeredClaimNames.Nodup := by decide

theorem keys_map_claimText (l : List (Bytes × ClaimValue)) :
    (l.map claimText).map Prod.fst = l.map Prod.fst := by
  rw [List.map_map]
  rfl

/-- The private claims' texts, in the order of a visit, have distinct names, none registered. -/
theorem arranged_keys (o : MapOrder) (t : Token) :
    (((o.arrange t.privateClaims).map claimText).map Prod.fst).Nodup ∧
      ∀ k ∈ ((o.arrange t.privateClaims).map claimText).map Prod.fst, k ∉ registeredClaimNames := by
  have hperm := (o.perm t.privateClaims).map Prod.fst
  rw [keys_map_claimText]
  exact ⟨hperm.nodup_iff.2 t.privateClaims_nodup,
    fun k hk => t.privateClaims_unregistered k (hperm.mem_iff.1 hk)⟩

theorem arranged_perm (o₁ o₂ : MapOrder) (t : Token) :
    ((o₁.arrange t.privateClaims).map claimText).Perm
      ((o₂.arrange t.privateClaims).map claimText) :=
  ((o₁.perm _).trans (o₂.perm _).symm).map claimText

theorem keys_ite_sublist (c : Prop) [Decidable c] (k v : Bytes) :
    ((if c then [(k, v)] else []).map Prod.fst).Sublist [k] := by
  split_ifs <;> simp

theorem keys_option_sublist {α : Type} (o : Option α) (k : Bytes) (f : α → Bytes) :
    ((o.map fun v => (k, f v)).toList.map Prod.fst).Sublist [k] := by
  cases o <;> simp

/-- `DecodeJWT` lists each registered claim at most once, in the order of the names. -/
theorem standardClaims_keys_sublist (t : Token) :
    ((standardClaims L t).map Prod.fst).Sublist registeredClaimNames := by
  have hnames : registeredClaimNames = [ofAscii "iss"] ++ [ofAscii "sub"] ++ [ofAscii "aud"] ++
      [ofAscii "exp"] ++ [ofAscii "nbf"] ++ [ofAscii "iat"] ++ [ofAscii "jti"] := rfl
  rw [hnames, standardClaims]
  simp only [List.map_append]
  exact (((((((keys_ite_sublist _ _ _).append (keys_ite_sublist _ _ _)).append
    (keys_ite_sublist _ _ _)).append (keys_option_sublist _ _ _)).append
    (keys_option_sublist _ _ _)).append (keys_option_sublist _ _ _)).append
    (keys_ite_sublist _ _ _))

/-- The claims `DecodeJWT` sorts have distinct names: the registered ones each appear once at
most, and no private claim has a registered name. -/
theorem decodedClaims_nodup (o : MapOrder) (t : Token) :
    ((standardClaims L t ++ (o.arrange t.privateClaims).map claimText).map Prod.fst).Nodup := by
  have hstd := standardClaims_keys_sublist L t
  obtain ⟨hpriv, hunreg⟩ := arranged_keys o t
  rw [List.map_append, List.nodup_append]
  refine ⟨hstd.nodup registeredClaimNames_nodup, hpriv, ?_⟩
  rintro k hk k' hk' rfl
  exact hunreg k hk' (hstd.subset hk)

theorem validateJWT_order (o₁ o₂ : MapOrder) (s : JwkState) (blockTime : ℤ)
    (req : QueryJWTRequest) :
    validateJWT L o₁ s blockTime req = validateJWT L o₂ s blockTime req := by
  unfold validateJWT
  refine bind_congr fun t => ?_
  rw [sortByKey_eq_of_perm (arranged_perm o₁ o₂ t) (arranged_keys o₁ t).1]

theorem decodeJWT_order (o₁ o₂ : MapOrder) (s : JwkState) (blockTime : ℤ)
    (req : QueryJWTRequest) : decodeJWT L o₁ s blockTime req = decodeJWT L o₂ s blockTime req := by
  unfold decodeJWT
  refine bind_congr fun t => ?_
  rw [sortByKey_eq_of_perm ((arranged_perm o₁ o₂ t).append_left _) (decodedClaims_nodup L o₁ t)]

end Order

/-- `ValidateJWT` and `DecodeJWT` give the same answer whatever order Go's `range` visits the
token's private claims in, so every node answers a contract's query alike. -/
theorem jwt_queries_order_free {Key : Type} (L : Jwx Key) (o₁ o₂ : MapOrder) (s : JwkState)
    (blockTime : ℤ) (req : QueryJWTRequest) :
    validateJWT L o₁ s blockTime req = validateJWT L o₂ s blockTime req ∧
      decodeJWT L o₁ s blockTime req = decodeJWT L o₂ s blockTime req :=
  ⟨validateJWT_order L o₁ o₂ s blockTime req, decodeJWT_order L o₁ o₂ s blockTime req⟩

/-! ## The stored keys of a reachable store -/

/-- A key that the queries can rely on: empty, as genesis may leave it, or one that a message's
`ValidateBasic` accepts. -/
def KeyChecked (P : JwkPrimitives) (k : Bytes) : Prop :=
  k = [] ∨ (k.length ≤ maxJWKKeySize ∧ KeyAccepted P k)

/-- Every stored audience has a checked key. -/
def KeysChecked (P : JwkPrimitives) (s : JwkState) : Prop :=
  ∀ n a, getAudience s n = some a → KeyChecked P a.key

section Reachable

variable {P : JwkPrimitives} {s s' : JwkState}

theorem keysChecked_setAudience (hs : KeysChecked P s) {a : Audience} (ha : KeyChecked P a.key) :
    KeysChecked P (setAudience s a) := by
  intro n b hb
  rw [getAudience_setAudience] at hb
  split_ifs at hb with han
  · cases hb
    exact ha
  · exact hs n b hb

theorem keysChecked_removeAudience (hs : KeysChecked P s) (aud : Bytes) :
    KeysChecked P (removeAudience s aud) := by
  intro n b hb
  rw [getAudience_removeAudience] at hb
  split_ifs at hb
  exact hs n b hb

@[simp]
theorem keysChecked_setAudienceClaim (h signer : Bytes) :
    KeysChecked P (setAudienceClaim s h signer) ↔ KeysChecked P s := by
  simp only [KeysChecked, getAudience_setAudienceClaim]

@[simp]
theorem keysChecked_removeAudienceClaim (h : Bytes) :
    KeysChecked P (removeAudienceClaim s h) ↔ KeysChecked P s := by
  simp only [KeysChecked, getAudience_removeAudienceClaim]

/-- The key of a message that stores one passes the message's `ValidateBasic`. -/
theorem keyChecked_of_validateBasic {m : JwkMsg} (hv : m.validateBasic P = .ok ()) :
    (∀ admin aud key, m = .createAudience admin aud key → KeyChecked P key) ∧
      ∀ admin newAdmin aud newAud key, m = .updateAudience admin newAdmin aud newAud key →
        KeyChecked P key := by
  constructor
  · rintro admin aud key rfl
    simp only [JwkMsg.validateBasic, bind_eq_ok, ofOption_eq_ok, exists_unit, failIf_eq_ok,
      not_lt] at hv
    obtain ⟨-, -, hlen, -, hkey⟩ := hv
    exact .inr ⟨hlen, validateMsgKey_eq_ok.1 hkey⟩
  · rintro admin newAdmin aud newAud key rfl
    simp only [JwkMsg.validateBasic, bind_eq_ok, ofOption_eq_ok, exists_unit, failIf_eq_ok,
      not_lt] at hv
    obtain ⟨-, -, -, -, hlen, -, -, hkey⟩ := hv
    exact .inr ⟨hlen, validateMsgKey_eq_ok.1 hkey⟩

/-- A handler keeps every stored key checked when the message passed `ValidateBasic`: it stores
the message's own key or moves and removes audiences. -/
theorem handle_keysChecked (hs : KeysChecked P s) {m : JwkMsg} (hv : m.validateBasic P = .ok ())
    (h : handle P m s = .ok s') : KeysChecked P s' := by
  obtain ⟨hcreate, hupdate⟩ := keyChecked_of_validateBasic hv
  cases m with
  | createAudienceClaim admin audHash =>
    obtain ⟨-, addr, -, rfl⟩ := createAudienceClaim_eq_ok.1 h
    simpa using hs
  | deleteAudienceClaim admin audHash =>
    obtain ⟨-, rfl⟩ := deleteAudienceClaim_eq_ok.1 h
    simpa using hs
  | createAudience admin aud key =>
    obtain ⟨-, -, rfl⟩ := createAudience_eq_ok.1 h
    exact keysChecked_setAudience hs (hcreate admin aud key rfl)
  | updateAudience admin newAdmin aud newAud key =>
    obtain ⟨v, -, -, r, hr, t, ht, rfl⟩ := updateAudience_eq_ok.1 h
    -- the renamed audience carries the message's key; renaming only removes, and a transfer
    -- writes only claims
    have hr₁ : KeysChecked P r.1 ∧ r.2.key = key := by
      rcases renameAudience_eq_ok.1 hr with ⟨-, rfl⟩ | ⟨-, -, -, rfl⟩
      · exact ⟨hs, rfl⟩
      · exact ⟨by simpa using keysChecked_removeAudience hs v.aud, rfl⟩
    have ht₁ : KeysChecked P t := by
      rcases transferAudience_eq_ok.1 ht with ⟨-, rfl⟩ | ⟨-, addr, -, rfl⟩
      · exact hr₁.1
      · simpa using hr₁.1
    exact keysChecked_setAudience ht₁ (hr₁.2 ▸ hupdate admin newAdmin aud newAud key rfl)
  | deleteAudience admin aud =>
    obtain ⟨-, -, -, rfl⟩ := deleteAudience_eq_ok.1 h
    simpa using keysChecked_removeAudience hs aud

theorem deliver_keysChecked (hs : KeysChecked P s) (m : JwkMsg) : KeysChecked P (deliver P s m) :=
  commit_inv hs fun _ h =>
    have h' := bind_const_eq_ok.1 h
    handle_keysChecked hs h'.1 h'.2

theorem deliverRun_keysChecked (hs : KeysChecked P s) (ms : List JwkMsg) :
    KeysChecked P (deliverRun P s ms) :=
  exec_inv (I := KeysChecked P) (fun _ m hs => deliver_keysChecked hs m) ms hs

/-- An audience that genesis validation accepts has a checked key. -/
theorem keyChecked_of_validateGenesisAudience {seen : List Bytes} {elem : Audience}
    {r : List Bytes} (h : validateGenesisAudience P seen elem = .ok r) : KeyChecked P elem.key := by
  by_cases hkey : elem.key = []
  · exact .inl hkey
  · simp only [validateGenesisAudience, bind_eq_ok, ofOption_eq_ok, exists_unit, failIf_eq_ok,
      ne_eq, hkey, not_false_eq_true, if_true] at h
    obtain ⟨-, -, -, hvalid, -⟩ := h
    exact .inr (validateGenesisKey_eq_ok.1 hvalid)

theorem initGenesis_keysChecked {gs : GenesisState} (h : gs.validate P = .ok ()) :
    KeysChecked P (initGenesis .empty gs) := by
  obtain ⟨seen, hfold, -⟩ := bind_eq_ok.1 h
  have helems : ∀ a ∈ gs.audienceList, KeyChecked P a.key := fun a ha => by
    obtain ⟨t, t', hstep⟩ := foldlM_mem_ok hfold a ha
    exact keyChecked_of_validateGenesisAudience hstep
  -- genesis sets the audiences one after another on an empty store
  have hfoldl : ∀ (l : List Audience) (t : JwkState), KeysChecked P t →
      (∀ a ∈ l, KeyChecked P a.key) → KeysChecked P (l.foldl setAudience t) := by
    intro l
    induction l with
    | nil => exact fun t ht _ => ht
    | cons a l ih =>
      intro t ht hl
      exact ih _ (keysChecked_setAudience ht (hl a List.mem_cons_self))
        fun b hb => hl b (List.mem_cons_of_mem a hb)
  have hempty : KeysChecked P JwkState.empty := fun n a ha => by
    simp [JwkState.empty, getAudience] at ha
  exact hfoldl gs.audienceList _ hempty helems

/-- The charge of `VerifyJWS` for a key of at most `MaxJWKKeySize` bytes does not wrap. -/
theorem verifyGas_toNat {key : Bytes} (h : key.length ≤ maxJWKKeySize) :
    (verifyGas key).toNat = 50000 + 10 * key.length := by
  simp only [verifyGas, jwsVerifyBaseGas, jwsVerifyPerByteGas, UInt64.toNat_add,
    UInt64.toNat_mul, Nat.toUInt64_eq, UInt64.toNat_ofNat', UInt64.reduceToNat]
  unfold maxJWKKeySize at h
  omega

theorem storedKey_eq_failedPrecondition {Key : Type} {L : Jwx Key} {aud : Bytes}
    {e : KeySizeError} (h : storedKey L s aud = .error (.failedPrecondition e)) :
    ∃ a key, getAudience s aud = some a ∧ L.parseKey a.key = .ok key ∧
      validateJWKKeySize (L.raw key) = .error e := by
  unfold storedKey at h
  obtain hnone | ⟨a, ha, h⟩ := bind_eq_error.1 h
  · -- a missing audience is reported as `notFound`
    cases hget : getAudience s aud <;> simp [hget, ofOption] at hnone
  obtain hkey | ⟨key, hk, h⟩ := bind_eq_error.1 h
  · obtain ⟨msg, -, hmsg⟩ := mapError_eq_error.1 hkey
    cases hmsg
  obtain hsize | ⟨u, -, h⟩ := bind_eq_error.1 h
  · obtain ⟨e', hv, he⟩ := mapError_eq_error.1 hsize
    cases he
    exact ⟨a, key, ofOption_eq_ok.1 ha, mapError_eq_ok.1 hk, hv⟩
  · cases h

/-- On a store whose keys are checked, with a library that parses a key as the checks did and
rejects an empty key, the queries' second size check never fails, and a key they use is at most
`MaxJWKKeySize` bytes. -/
theorem storedKey_of_keysChecked {Key : Type} {L : Jwx Key} (hs : KeysChecked P s)
    (hagree : ∀ k jk, P.parseKey k = .ok jk → ∃ key, L.parseKey k = .ok key ∧ L.raw key = jk.raw)
    (hempty : ∀ key, L.parseKey [] ≠ .ok key) (aud : Bytes) :
    (∀ e, storedKey L s aud ≠ .error (.failedPrecondition e)) ∧
      ∀ found, storedKey L s aud = .ok found → found.1.key.length ≤ maxJWKKeySize := by
  constructor
  · intro e h
    obtain ⟨a, key, ha, hk, hv⟩ := storedKey_eq_failedPrecondition h
    rcases hs aud a ha with hnil | ⟨-, jk, hjk, hsize, -⟩
    · exact hempty key (hnil ▸ hk)
    · -- the library's key is the one the checks accepted, so its raw key passes again
      obtain ⟨key', hk', hraw⟩ := hagree a.key jk hjk
      rw [hk] at hk'
      cases hk'
      rw [hraw, hsize] at hv
      cases hv
  · intro found h
    obtain ⟨ha, hk, -⟩ := storedKey_eq_ok.1 h
    rcases hs aud found.1 ha with hnil | ⟨hlen, -⟩
    · exact absurd (hnil ▸ hk) (hempty found.2)
    · exact hlen

end Reachable

/-- From a validated genesis, over any run of delivered messages: the queries' second check of a
stored key never fails, and `VerifyJWS` charges exactly `50000 + 10` gas a byte for a key it
uses, at most 70 480 gas. -/
theorem reachable_storedKey {P : JwkPrimitives} {Key : Type} {L : Jwx Key} {gs : GenesisState}
    (hgs : gs.validate P = .ok ())
    (hagree : ∀ k jk, P.parseKey k = .ok jk → ∃ key, L.parseKey k = .ok key ∧ L.raw key = jk.raw)
    (hempty : ∀ key, L.parseKey [] ≠ .ok key) (ms : List JwkMsg) (aud : Bytes) :
    (∀ e, storedKey L (deliverRun P (initGenesis .empty gs) ms) aud ≠
        .error (.failedPrecondition e)) ∧
      ∀ found, storedKey L (deliverRun P (initGenesis .empty gs) ms) aud = .ok found →
        (verifyGas found.1.key).toNat = 50000 + 10 * found.1.key.length ∧
          (verifyGas found.1.key).toNat ≤ 70480 := by
  have hs := deliverRun_keysChecked (initGenesis_keysChecked hgs) ms
  obtain ⟨hcheck, hlen⟩ := storedKey_of_keysChecked hs hagree hempty aud
  refine ⟨hcheck, fun found h => ?_⟩
  have hl := hlen found h
  rw [verifyGas_toNat hl]
  unfold maxJWKKeySize at hl
  exact ⟨rfl, by omega⟩

/-- A public Ed25519 key with the algorithm `EdDSA`. -/
def ed25519Jwk : ParsedJwk := ⟨.okp, ofAscii "EdDSA", .ok .ed25519Public⟩

/-- Primitives that take every string for an address, parse every non-empty key to a public
Ed25519 key, and know the algorithm `EdDSA`. -/
def openPrimitives : JwkPrimitives where
  sha256 := id
  accAddress := some
  parseKey k := if k = [] then .error "failed to parse" else .ok ed25519Jwk
  acceptSignatureAlgorithm a :=
    if a = ofAscii "EdDSA" then .ok .edDSA else .error "invalid jwa.SignatureAlgorithm value"

/-- A library that parses every non-empty key to a public Ed25519 key. -/
def nonEmptyKeyJwx : Jwx Unit :=
  { acceptingJwx with
    parseKey := fun k => if k = [] then .error "failed to parse" else .ok ()
    raw := fun _ => .ok .ed25519Public }

/-- A genesis with one audience. -/
def oneAudienceGenesis : GenesisState := ⟨[⟨ofAscii "admin", queryAudience, [1]⟩], defaultParams⟩

theorem reachable_storedKey_one_audience :
    (∀ e, storedKey nonEmptyKeyJwx (deliverRun openPrimitives
        (initGenesis .empty oneAudienceGenesis)
        [.createAudience (ofAscii "admin") (ofAscii "second") [2]]) queryAudience ≠
        .error (.failedPrecondition e)) ∧
      ∀ found, storedKey nonEmptyKeyJwx (deliverRun openPrimitives
          (initGenesis .empty oneAudienceGenesis)
          [.createAudience (ofAscii "admin") (ofAscii "second") [2]]) queryAudience = .ok found →
        (verifyGas found.1.key).toNat = 50000 + 10 * found.1.key.length ∧
          (verifyGas found.1.key).toNat ≤ 70480 :=
  reachable_storedKey rfl
    (fun k jk h => by
      by_cases hk : k = []
      · simp [openPrimitives, hk] at h
      · simp only [openPrimitives, hk, if_false, Except.ok.injEq] at h
        exact ⟨(), by simp [nonEmptyKeyJwx, hk], by rw [← h]; rfl⟩)
    (fun key h => by simp [nonEmptyKeyJwx] at h) _ _

end Xion.Jwk
