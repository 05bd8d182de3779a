import Xion.Dkim.Query
import Xion.Dkim.Subject

/-!
# `Authenticate`

`Querier.Authenticate` of `query_server.go` past its key lookup (`authenticateLookup`): the email
host and the subject the proof commits to are read from the public inputs and checked against the
request's allowed hosts and `ValidateForcedSubject`, and the proof is verified. The verification
(`UnmarshalCircomProofJSON`, `GetCircomVKeyByID` and `Verify`, inside a `recover` that turns a
panic into an error) belongs to the ZK module and is a parameter here.

`Authenticate` reads the public inputs at two indices and slices them at four ranges, all outside
that `recover`. Once the `MinLength` check has passed each read is in range, for every layout of
indices that `PublicInputIndices.Validate` accepts (`PublicInputIndices.Valid.inRange`): the ranges
are non-empty and end within `MinLength`, and the indices are below it. So the only panic
`Authenticate` can return is one of its `DkimPubKeys` lookup (`authenticate_eq_panic`), which
encodes store keys into a buffer of 1024 bytes. The indices of every state a chain reaches from a
genesis validate, and so do those the v1 to v2 migration installs in it (`run_indices_validate`).
-/

namespace Xion.Dkim

open Bytes Run

/-! ## The reads are in range -/

/-- A range that can be sliced from `len` public inputs: `Start ≤ End ≤ len`. -/
def IndexRange.Within (r : IndexRange) (len : ℕ) : Prop :=
  r.start.toNat ≤ r.end.toNat ∧ r.end.toNat ≤ len

/-- The reads of `Authenticate` in `len` public inputs: both indices below `len`, and each range
within it. -/
structure PublicInputIndices.InRange (p : PublicInputIndices) (len : ℕ) : Prop where
  emailHash : p.emailHashIndex.toNat < len
  dkimHash : p.dkimHashIndex.toNat < len
  dkimDomain : p.dkimDomainRange.Within len
  txBytes : p.txBytesRange.Within len
  emailHost : p.emailHostRange.Within len
  emailSubject : p.emailSubjectRange.Within len

/-- Validated indices are read in range from at least `MinLength` public inputs. -/
theorem PublicInputIndices.Valid.inRange {p : PublicInputIndices} (hv : p.Valid) {len : ℕ}
    (hlen : p.minLength.toNat ≤ len) : p.InRange len where
  emailHash := lt_of_lt_of_le hv.emailHash_lt hlen
  dkimHash := lt_of_lt_of_le hv.dkimHash_lt hlen
  dkimDomain := ⟨hv.dkimDomain.1.le, hv.dkimDomain.2.trans hlen⟩
  txBytes := ⟨hv.txBytes.1.le, hv.txBytes.2.trans hlen⟩
  emailHost := ⟨hv.emailHost.1.le, hv.emailHost.2.trans hlen⟩
  emailSubject := ⟨hv.emailSubject.1.le, hv.emailSubject.2.trans hlen⟩

section Reads

variable {frBytes : ℤ → Bytes} {publicInputs : List Bytes}

/-- Decoding a range within the public inputs fails only on an input that is not a field
element. -/
theorem decodePublicInputString_ne_panic {r : IndexRange} (hr : r.Within publicInputs.length) :
    decodePublicInputString frBytes publicInputs r ≠ .error .panic := by
  unfold decodePublicInputString
  rw [bind_of_ok (slice_of_le hr.1 hr.2)]
  refine bind_ne_error ?_ fun _ _ => nofun
  rw [Ne, mapError_eq_error]
  rintro ⟨_, -, ⟨⟩⟩

theorem parseHashInput_ne_panic (s : Bytes) : parseHashInput s ≠ .error .panic := by
  unfold parseHashInput
  split <;> nofun

/-- The checks before the lookup never panic: past the length check every read is in range. -/
theorem authenticateLookupRequest_ne_panic {indices : PublicInputIndices} (hv : indices.Valid)
    (req : QueryAuthenticateRequest) :
    authenticateLookupRequest frBytes indices req ≠ .error .panic := by
  unfold authenticateLookupRequest
  refine bind_ne_error (failIf_ne_error nofun) fun _ _ => ?_
  refine bind_ne_error (failIf_ne_error nofun) fun () hlen => ?_
  have hin := hv.inRange (not_lt.1 (failIf_eq_ok.1 hlen))
  refine bind_ne_error (by rw [index_of_lt hin.emailHash]; nofun) fun _ _ => ?_
  refine bind_ne_error (failIf_ne_error nofun) fun _ _ => ?_
  refine bind_ne_error (decodePublicInputString_ne_panic hin.txBytes) fun _ _ => ?_
  refine bind_ne_error (failIf_ne_error nofun) fun _ _ => ?_
  refine bind_ne_error (decodePublicInputString_ne_panic hin.dkimDomain) fun _ _ => ?_
  refine bind_ne_error (by rw [index_of_lt hin.dkimHash]; nofun) fun _ _ => ?_
  exact bind_ne_error (parseHashInput_ne_panic _) fun _ _ => nofun

/-- A lookup request is made only from enough public inputs. -/
theorem authenticateLookupRequest_length {indices : PublicInputIndices}
    {req : QueryAuthenticateRequest} {q : QueryDkimPubKeysRequest}
    (h : authenticateLookupRequest frBytes indices req = .ok q) :
    indices.minLength.toNat ≤ req.publicInputs.length := by
  rw [authenticateLookupRequest, bind_const_eq_ok, bind_const_eq_ok] at h
  exact not_lt.1 (failIf_eq_ok.1 h.2.1)

end Reads

/-! ## After the lookup -/

/-- The errors of `Authenticate`: those of the module's checks and lookup, the two the last checks
add (`ErrEmailHostMismatch` and `ErrInvalidEmailSubject`), and the verification's, of type `ε`. -/
inductive AuthenticateError (ε : Type) where
  | dkim (e : DkimError)
  | emailHostMismatch
  | invalidEmailSubject
  | verification (e : ε)
  deriving DecidableEq, Repr

/-- `IsSubset`: whether every element of `a` is in `b`. -/
def isSubset {α : Type} [DecidableEq α] (a b : List α) : Bool :=
  a.all fun v => decide (v ∈ b)

theorem isSubset_singleton {α : Type} [DecidableEq α] {a : α} {b : List α} :
    isSubset [a] b = true ↔ a ∈ b := by
  simp [isSubset]

section Checks

variable {ε : Type} (frBytes : ℤ → Bytes) (verify : Bytes → UInt64 → List Bytes → Except ε Bool)

/-- The checks of `Authenticate` after the key lookup: the email host is not empty and is one of
the allowed hosts, the subject passes `ValidateForcedSubject`, and the proof verifies under the
parameters' key. -/
def authenticateChecks (s : DkimState) (req : QueryAuthenticateRequest) :
    Except (AuthenticateError ε) Bool := do
  let indices := s.params.publicInputIndices
  let emailHost ←
    (decodePublicInputString frBytes req.publicInputs indices.emailHostRange).mapError .dkim
  failIf (emailHost = []) .emailHostMismatch
  failIf (req.allowedEmailHosts = []) .emailHostMismatch
  failIf (isSubset [emailHost] req.allowedEmailHosts = false) .emailHostMismatch
  let emailSubject ←
    (decodePublicInputString frBytes req.publicInputs indices.emailSubjectRange).mapError .dkim
  failIf (validateForcedSubject emailSubject = false) .invalidEmailSubject
  (verify req.proof s.params.vkeyIdentifier req.publicInputs).mapError .verification

/-- `Querier.Authenticate`: the lookup, then the checks after it; the response's `Verified`. -/
def authenticate (s : DkimState) (req : QueryAuthenticateRequest) :
    Except (AuthenticateError ε) Bool := do
  let _ ← (authenticateLookup frBytes s req).mapError .dkim
  authenticateChecks frBytes verify s req

/-- A decoding after the lookup fails with an error of the module's other than a panic. -/
theorem decodePublicInputString_mapError_ne_panic {publicInputs : List Bytes} {r : IndexRange}
    (hr : r.Within publicInputs.length) :
    (decodePublicInputString frBytes publicInputs r).mapError
      (AuthenticateError.dkim (ε := ε)) ≠ .error (.dkim .panic) := by
  rw [Ne, mapError_eq_error]
  rintro ⟨e, he, ⟨⟩⟩
  exact decodePublicInputString_ne_panic hr he

/-- The checks after the lookup never panic when their reads are in range. -/
theorem authenticateChecks_ne_panic {s : DkimState} {req : QueryAuthenticateRequest}
    (hin : s.params.publicInputIndices.InRange req.publicInputs.length) :
    authenticateChecks frBytes verify s req ≠ .error (.dkim .panic) := by
  unfold authenticateChecks
  refine bind_ne_error (decodePublicInputString_mapError_ne_panic frBytes hin.emailHost)
    fun _ _ => ?_
  refine bind_ne_error (failIf_ne_error nofun) fun _ _ => ?_
  refine bind_ne_error (failIf_ne_error nofun) fun _ _ => ?_
  refine bind_ne_error (failIf_ne_error nofun) fun _ _ => ?_
  refine bind_ne_error (decodePublicInputString_mapError_ne_panic frBytes hin.emailSubject)
    fun _ _ => ?_
  refine bind_ne_error (failIf_ne_error nofun) fun _ _ => ?_
  -- The verification's errors are its own.
  rw [Ne, mapError_eq_error]
  rintro ⟨_, -, ⟨⟩⟩

/-- A panic of the lookup is a panic of `DkimPubKeys`: the checks before it never panic. -/
theorem authenticateLookup_eq_panic {s : DkimState} {req : QueryAuthenticateRequest}
    (hv : s.params.publicInputIndices.Valid)
    (h : authenticateLookup frBytes s req = .error .panic) :
    ∃ q, authenticateLookupRequest frBytes s.params.publicInputIndices req = .ok q ∧
      dkimPubKeys s q = .error .panic := by
  rw [authenticateLookup, bind_eq_error] at h
  rcases h with hq | ⟨q, hq, h⟩
  · exact absurd hq (authenticateLookupRequest_ne_panic hv req)
  rw [bind_eq_error] at h
  rcases h with hres | ⟨res, -, h⟩
  · exact ⟨q, hq, hres⟩
  · -- The last step fails with `ErrNoDkimPubKey` or not at all.
    rw [bind_eq_error, failIf_eq_error] at h
    rcases h with ⟨-, ⟨⟩⟩ | ⟨_, -, ⟨⟩⟩

/-- The only panic of `Authenticate` with validated indices is one of its key lookup. -/
theorem authenticate_eq_panic {s : DkimState} {req : QueryAuthenticateRequest}
    (hv : s.params.publicInputIndices.Valid)
    (h : authenticate frBytes verify s req = .error (.dkim .panic)) :
    ∃ q, authenticateLookupRequest frBytes s.params.publicInputIndices req = .ok q ∧
      dkimPubKeys s q = .error .panic := by
  rw [authenticate, bind_eq_error] at h
  rcases h with hl | ⟨rs, hl, h⟩
  · obtain ⟨e, he, ⟨⟩⟩ := mapError_eq_error.1 hl
    exact authenticateLookup_eq_panic frBytes hv he
  · -- Past the lookup the length check has passed, so every read is in range.
    rw [mapError_eq_ok, authenticateLookup, bind_eq_ok] at hl
    obtain ⟨q, hq, -⟩ := hl
    exact absurd h (authenticateChecks_ne_panic frBytes verify
      (hv.inRange (authenticateLookupRequest_length hq)))

/-- What a successful `Authenticate` has checked: the lookup found keys, the email host the
proof commits to is not empty and is allowed, its subject passes `ValidateForcedSubject`, and the
result is the verification's. -/
theorem authenticate_eq_ok {s : DkimState} {req : QueryAuthenticateRequest} {verified : Bool}
    (h : authenticate frBytes verify s req = .ok verified) :
    (∃ rs, authenticateLookup frBytes s req = .ok rs) ∧
      (∃ emailHost, decodePublicInputString frBytes req.publicInputs
          s.params.publicInputIndices.emailHostRange = .ok emailHost ∧
        emailHost ≠ [] ∧ emailHost ∈ req.allowedEmailHosts) ∧
      (∃ emailSubject, decodePublicInputString frBytes req.publicInputs
          s.params.publicInputIndices.emailSubjectRange = .ok emailSubject ∧
        validateForcedSubject emailSubject = true) ∧
      verify req.proof s.params.vkeyIdentifier req.publicInputs = .ok verified := by
  simp only [authenticate, authenticateChecks, bind_eq_ok, exists_unit, mapError_eq_ok,
    failIf_eq_ok, Bool.not_eq_false, isSubset_singleton] at h
  obtain ⟨rs, hl, host, hhost, hne, -, hmem, subject, hsubject, hvalid, hverify⟩ := h
  exact ⟨⟨rs, hl⟩, ⟨host, hhost, hne, hmem⟩, ⟨subject, hsubject, hvalid⟩, hverify⟩

/-- The zero request with the email host `a`, which it allows, and the subject `[Reply Needed]`. -/
def hostSubjectRequest : QueryAuthenticateRequest :=
  { zeroInputsRequest with
    publicInputs := (zeroPublicInputs.set 70 (decimal 97)).set 79
      (decimal 1894218288748433466055627131671131)
    allowedEmailHosts := [ofAscii "a"] }

/-- `Authenticate` of that request on the Gmail store, with a verifier that accepts every proof. -/
theorem gmail_authenticate_host_subject :
    authenticate frElementBytes (fun _ _ _ => (.ok true : Except Unit Bool)) gmailGenesisStore
        hostSubjectRequest = .ok true ∧
      (∃ rs, authenticateLookup frElementBytes gmailGenesisStore hostSubjectRequest = .ok rs) ∧
      (∃ emailHost, decodePublicInputString frElementBytes hostSubjectRequest.publicInputs
          gmailGenesisStore.params.publicInputIndices.emailHostRange = .ok emailHost ∧
        emailHost ≠ [] ∧ emailHost ∈ hostSubjectRequest.allowedEmailHosts) ∧
      (∃ emailSubject, decodePublicInputString frElementBytes hostSubjectRequest.publicInputs
          gmailGenesisStore.params.publicInputIndices.emailSubjectRange = .ok emailSubject ∧
        validateForcedSubject emailSubject = true) ∧
      (fun _ _ _ => (.ok true : Except Unit Bool)) hostSubjectRequest.proof
        gmailGenesisStore.params.vkeyIdentifier hostSubjectRequest.publicInputs = .ok true := by
  have h : authenticate frElementBytes (fun _ _ _ => (.ok true : Except Unit Bool))
      gmailGenesisStore hostSubjectRequest = .ok true := by
    decide
  exact ⟨h, authenticate_eq_ok frElementBytes _ h⟩

/-- Indices that pass `PublicInputIndices.Validate` are read in range once the `MinLength` check
has passed, so `Authenticate` panics only where its `DkimPubKeys` lookup does. -/
theorem authenticate_reads_in_range (s : DkimState) (req : QueryAuthenticateRequest)
    (hv : s.params.publicInputIndices.validate = .ok ()) :
    (s.params.publicInputIndices.minLength.toNat ≤ req.publicInputs.length →
        s.params.publicInputIndices.InRange req.publicInputs.length) ∧
      (authenticate frBytes verify s req = .error (.dkim .panic) →
        ∃ q, authenticateLookupRequest frBytes s.params.publicInputIndices req = .ok q ∧
          dkimPubKeys s q = .error .panic) := by
  have hvalid := PublicInputIndices.valid_of_validate hv
  exact ⟨hvalid.inRange, authenticate_eq_panic frBytes verify hvalid⟩

end Checks

/-- The zero request on the empty store, whose parameters are the default ones. -/
theorem authenticate_reads_in_range_default :
    DkimState.empty.params.publicInputIndices.validate = .ok () ∧
      (DkimState.empty.params.publicInputIndices.minLength.toNat ≤
          zeroInputsRequest.publicInputs.length →
        DkimState.empty.params.publicInputIndices.InRange zeroInputsRequest.publicInputs.length) ∧
      (authenticate frElementBytes (fun _ _ _ => (.ok true : Except Unit Bool)) DkimState.empty
          zeroInputsRequest = .error (.dkim .panic) →
        ∃ q, authenticateLookupRequest frElementBytes DkimState.empty.params.publicInputIndices
            zeroInputsRequest = .ok q ∧ dkimPubKeys DkimState.empty q = .error .panic) :=
  ⟨by decide, authenticate_reads_in_range frElementBytes _ DkimState.empty zeroInputsRequest
    (by decide)⟩

/-- The record of the domain `d` and the selector `s`, with no key and no hash. -/
def pageRecord (d : Bytes) : DkimKey × DkimPubKey :=
  (toLex (d, ofAscii "s"), ⟨d, [], ofAscii "s", [], 0, 0⟩)

/-- The records of the one-byte domains 1 to 100: a full page of the lookup. -/
def fullPageRecords : List (DkimKey × DkimPubKey) :=
  (List.range 100).map fun i => pageRecord [Fin.ofNat 256 (i + 1)]

/-- A domain of 1024 bytes `z`, which with its delimiter does not fit the buffer of `NextKey`. -/
def longDomain : Bytes := List.replicate 1024 122

theorem pageRecord_lt {d d' : Bytes} (h : d < d') : (pageRecord d).1 < (pageRecord d').1 :=
  Prod.Lex.toLex_lt_toLex.2 (.inl h)

/-- The records of a full page, and after them the long domain's, are in key order. -/
theorem fullPageRecords_sorted :
    (fullPageRecords ++ [pageRecord longDomain]).Pairwise fun a b => a.1 < b.1 := by
  rw [List.pairwise_append]
  refine ⟨?_, List.pairwise_singleton _ _, ?_⟩
  · -- the one-byte domains increase
    rw [fullPageRecords, List.pairwise_map]
    refine List.pairwise_lt_range.imp_of_mem fun {i j} _ hj hij => pageRecord_lt ?_
    have hj' := List.mem_range.1 hj
    refine List.cons_lt_cons_iff.2 (.inl ?_)
    rw [Fin.lt_def, Fin.val_ofNat, Fin.val_ofNat]
    omega
  · -- and each is below `z`, the first byte of the long domain
    intro a ha b hb
    rw [List.mem_singleton] at hb
    subst hb
    obtain ⟨i, hi, rfl⟩ := List.mem_map.1 ha
    have hi' := List.mem_range.1 hi
    refine pageRecord_lt (List.cons_lt_cons_iff.2 (.inl ?_))
    rw [Fin.lt_def, Fin.val_ofNat]
    show (i + 1) % 256 < 122
    omega

/-- A store of the default parameters holding a full page of records and, past the page, the
record of the long domain. -/
def longPageStore : DkimState :=
  ⟨defaultParams, ⟨fullPageRecords ++ [pageRecord longDomain], fullPageRecords_sorted⟩, .empty⟩

set_option maxRecDepth 16000 in
/-- `Authenticate` panics on the request of zero public inputs over the store of a full page and a
long domain, whose indices are the default ones and validate. The inputs decode to no domain and
no hash, so the lookup iterates every record; the page holds 100 of them, and the key of the
next one, kept for `NextKey`, overflows its buffer of 1024 bytes. -/
theorem authenticate_long_page_panics :
    longPageStore.params.publicInputIndices.validate = .ok () ∧
      authenticate frElementBytes (fun _ _ _ => (.ok true : Except Unit Bool)) longPageStore
        zeroInputsRequest = .error (.dkim .panic) := by
  have hreq : authenticateLookupRequest frElementBytes longPageStore.params.publicInputIndices
      zeroInputsRequest = .ok ⟨[], [], [], none⟩ := by
    decide
  have hpanic : dkimPubKeys longPageStore ⟨[], [], [], none⟩ = .error .panic :=
    @dkimPubKeys_eq_panic_of_long_key longPageStore fullPageRecords [] (pageRecord longDomain) rfl
      (by simp [fullPageRecords]) (by decide)
  have hlookup : authenticateLookup frElementBytes longPageStore zeroInputsRequest =
      .error .panic := by
    rw [authenticateLookup, bind_of_ok hreq, hpanic]
    rfl
  refine ⟨by decide, ?_⟩
  rw [authenticate, hlookup]
  rfl

/-! ## Where the indices come from -/

/-- `MigrateStore` of the v1 to v2 migration: the stored parameters with the default
`PublicInputIndices`. The store here always holds parameters, so the branch that writes
`DefaultParams` when it holds none, with the same indices, is left out. -/
def migrateStore (s : DkimState) : DkimState :=
  { s with params := { s.params with publicInputIndices := defaultPublicInputIndices } }

/-- Parameters that validate have indices that validate. -/
theorem Params.indices_validate {p : Params} (h : p.validate = .ok ()) :
    p.publicInputIndices.validate = .ok () := by
  rw [Params.validate, bind_const_eq_ok, bind_const_eq_ok] at h
  exact h.2.2

/-- The indices of every state a chain reaches from a genesis validate, and so do those that the
v1 to v2 migration installs in it. -/
theorem run_indices_validate {P : Primitives} {authority : String} {g : GenesisState}
    {s : DkimState} (hg : initGenesis P .empty g = .ok s) (ms : List DkimMsg) :
    (run P authority s ms).params.publicInputIndices.validate = .ok () ∧
      (migrateStore (run P authority s ms)).params.publicInputIndices.validate = .ok () :=
  ⟨Params.indices_validate (run_wellFormed hg ms).params_valid,
    show defaultParams.publicInputIndices.validate = .ok () from
      Params.indices_validate defaultParams_validate⟩

/-- The governance account lowering the key size limit to 100 bytes. -/
def lowerKeyLimitMsg : DkimMsg :=
  .updateParams govAuthority { defaultParams with maxPubkeySizeBytes := 100 }

set_option maxRecDepth 4000 in
/-- The Gmail genesis, then the governance account lowering the key size limit. -/
theorem gmail_run_indices_validate :
    initGenesis gmailPrimitives .empty ⟨defaultParams, [gmailDkimPubKey], []⟩ =
        .ok gmailGenesisStore ∧
      (run gmailPrimitives govAuthority gmailGenesisStore
        [lowerKeyLimitMsg]).params.publicInputIndices.validate = .ok () ∧
      (migrateStore (run gmailPrimitives govAuthority gmailGenesisStore
        [lowerKeyLimitMsg])).params.publicInputIndices.validate = .ok () := by
  have hg : initGenesis gmailPrimitives .empty ⟨defaultParams, [gmailDkimPubKey], []⟩ =
      .ok gmailGenesisStore := by
    decide
  exact ⟨hg, run_indices_validate hg _⟩

end Xion.Dkim
