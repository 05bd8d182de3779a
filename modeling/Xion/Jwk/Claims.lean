import Xion.Jwk.Keeper
import Mathlib.Data.Set.Function

/-!
# Audiences and their claims

The handlers of `msg_server_audience.go` keep each audience backed by its claim: the claim under
the hash of its name is held by its admin's account (`HoldsClaim`). `CreateAudience` and a rename
need the sender's claim on the name, a transfer moves the claim to the new admin, and a deletion
or a rename removes the old name's claim with the audience. Two paths leave an audience without
its claim: genesis loads audiences but no claims, and `DeleteAudienceClaim` releases a claim
whatever audience uses it (the module's tests do so). After either, any account may claim the
name of a live audience.

`run_inv` carries `JwkState.Inv` over the runs that release no claim of a live audience
(`KeepsLiveClaims`), with SHA-256 taken as collision free on the audience names of the run and an
address's canonical text read back as that address. Independently of claims, an audience is changed or removed only by an
update or a deletion signed by its admin (`run_getAudience`).
-/

namespace Xion.Jwk

open Bytes Run

/-- `AccAddressFromBech32` reads the canonical text of an address back as that address. -/
def JwkPrimitives.CanonicalText (P : JwkPrimitives) : Prop :=
  ∀ x c, P.accAddress x = some c → P.accAddress c = some c

/-- The audience `a` is backed by its claim: the claim under the hash of its name is held by the
account of its admin. -/
def HoldsClaim (P : JwkPrimitives) (s : JwkState) (a : Audience) : Prop :=
  ∃ c, getAudienceClaim s (P.sha256 a.aud) = some c ∧ P.accAddress a.admin = some c.signer

/-- No stored audience has a name with the hash `h`. -/
def HashFree (P : JwkPrimitives) (s : JwkState) (h : Bytes) : Prop :=
  ∀ k a, s.audiences.get? k = some a → P.sha256 a.aud ≠ h

/-- Every audience is stored under the key of its own name. -/
def Keyed (s : JwkState) : Prop :=
  ∀ k a, s.audiences.get? k = some a → k = audienceKey a.aud

/-- Every audience has a name of the set `N`. -/
def Named (N : Set Bytes) (s : JwkState) : Prop :=
  ∀ k a, s.audiences.get? k = some a → a.aud ∈ N

/-- The invariant of the audience store. -/
structure JwkState.Inv (P : JwkPrimitives) (s : JwkState) : Prop where
  keyed : Keyed s
  /-- Every claim records the canonical text of an address. -/
  canonical : ∀ k c, s.claims.get? k = some c → P.accAddress c.signer = some c.signer
  /-- Every audience is backed by its claim. -/
  claimed : ∀ k a, s.audiences.get? k = some a → HoldsClaim P s a

/-! ## The store operations and the invariant -/

section Operations

variable {P : JwkPrimitives} {s : JwkState}

theorem Keyed.aud_eq (hk : Keyed s) {n : Bytes} {a : Audience} (h : getAudience s n = some a) :
    a.aud = n :=
  (audienceKey_injective (hk _ _ h)).symm

theorem get?_setAudience_of {b : Audience} {k : Bytes} {a : Audience}
    (h : (setAudience s b).audiences.get? k = some a) :
    s.audiences.get? k = some a ∨ (k = audienceKey a.aud ∧ a = b) := by
  simp only [setAudience, SortedMap.get?_insert] at h
  split_ifs at h with hk
  · cases h
    exact .inr ⟨hk.symm, rfl⟩
  · exact .inl h

theorem get?_removeAudience_of {aud k : Bytes} {a : Audience}
    (h : (removeAudience s aud).audiences.get? k = some a) : s.audiences.get? k = some a := by
  simp only [removeAudience, SortedMap.get?_erase] at h
  split_ifs at h
  exact h

theorem keyed_setAudience (hk : Keyed s) (a : Audience) : Keyed (setAudience s a) := by
  intro k b hb
  rcases get?_setAudience_of hb with hb | ⟨hkb, -⟩
  · exact hk k b hb
  · exact hkb

theorem keyed_removeAudience (hk : Keyed s) (aud : Bytes) : Keyed (removeAudience s aud) :=
  fun k b hb => hk k b (get?_removeAudience_of hb)

theorem named_removeAudience {N : Set Bytes} (hN : Named N s) (aud : Bytes) :
    Named N (removeAudience s aud) :=
  fun k b hb => hN k b (get?_removeAudience_of hb)

/-- Setting an audience that its claim backs keeps the invariant. -/
theorem setAudience_inv (hI : s.Inv P) {a : Audience} (ha : HoldsClaim P s a) :
    (setAudience s a).Inv P where
  keyed := keyed_setAudience hI.keyed a
  canonical := hI.canonical
  claimed k b hb := by
    simp only [setAudience, SortedMap.get?_insert] at hb
    split_ifs at hb
    · cases hb
      exact ha
    · exact hI.claimed k b hb

/-- Removing an audience keeps the invariant. -/
theorem removeAudience_inv (hI : s.Inv P) (aud : Bytes) : (removeAudience s aud).Inv P where
  keyed := keyed_removeAudience hI.keyed aud
  canonical := hI.canonical
  claimed k b hb := by
    simp only [removeAudience, SortedMap.get?_erase] at hb
    split_ifs at hb
    exact hI.claimed k b hb

/-- A claim on a hash that no audience's name has can be set to any canonical address. -/
theorem setAudienceClaim_inv (hI : s.Inv P) {h c : Bytes} (hfree : HashFree P s h)
    (hc : P.accAddress c = some c) : (setAudienceClaim s h c).Inv P where
  keyed := hI.keyed
  canonical k c' hc' := by
    simp only [setAudienceClaim, SortedMap.get?_insert] at hc'
    split_ifs at hc'
    · cases hc'
      exact hc
    · exact hI.canonical k c' hc'
  claimed k b hb := by
    obtain ⟨c', hc', hadmin⟩ := hI.claimed k b hb
    refine ⟨c', ?_, hadmin⟩
    rw [getAudienceClaim_setAudienceClaim, if_neg fun e => hfree k b hb e.symm]
    exact hc'

/-- A claim on a hash that no audience's name has can be removed. -/
theorem removeAudienceClaim_inv (hI : s.Inv P) {h : Bytes} (hfree : HashFree P s h) :
    (removeAudienceClaim s h).Inv P where
  keyed := hI.keyed
  canonical k c hc := by
    simp only [removeAudienceClaim, SortedMap.get?_erase] at hc
    split_ifs at hc
    exact hI.canonical k c hc
  claimed k b hb := by
    obtain ⟨c, hc, hadmin⟩ := hI.claimed k b hb
    refine ⟨c, ?_, hadmin⟩
    rw [getAudienceClaim_removeAudienceClaim, if_neg (hfree k b hb)]
    exact hc

/-- An unclaimed hash is the hash of no audience's name. -/
theorem hashFree_of_unclaimed (hI : s.Inv P) {h : Bytes} (hnone : getAudienceClaim s h = none) :
    HashFree P s h := by
  intro k b hb heq
  obtain ⟨c, hc, -⟩ := hI.claimed k b hb
  rw [heq, hnone] at hc
  cases hc

/-- The hash of a name of `N` that no audience has is the hash of no audience's name, when the
audiences have names of `N`, on which SHA-256 has no collision. -/
theorem hashFree_of_getAudience {N : Set Bytes} (hsha : Set.InjOn P.sha256 N) (hk : Keyed s)
    (hN : Named N s) {n : Bytes} (hn : n ∈ N) (hnone : getAudience s n = none) :
    HashFree P s (P.sha256 n) := by
  intro k b hb heq
  have hkn : k = audienceKey n := hsha (hN k b hb) hn heq ▸ hk k b hb
  rw [getAudience, ← hkn, hb] at hnone
  cases hnone

/-- Removing an audience together with its name's claim keeps the invariant and leaves the hash
of that name free. -/
theorem removeAudience_claim_inv {N : Set Bytes} (hsha : Set.InjOn P.sha256 N) (hI : s.Inv P)
    (hN : Named N s) {aud : Bytes} (haud : aud ∈ N) :
    (removeAudienceClaim (removeAudience s aud) (P.sha256 aud)).Inv P ∧
      HashFree P (removeAudienceClaim (removeAudience s aud) (P.sha256 aud)) (P.sha256 aud) := by
  have hI' := removeAudience_inv hI aud
  have hfree : HashFree P (removeAudience s aud) (P.sha256 aud) :=
    hashFree_of_getAudience hsha hI'.keyed (named_removeAudience hN aud) haud (by simp)
  exact ⟨removeAudienceClaim_inv hI' hfree, hfree⟩

end Operations

/-! ## The handlers keep the invariant -/

section Handlers

variable {P : JwkPrimitives} {s s' : JwkState} {N : Set Bytes}

theorem createAudienceClaim_inv (hacc : P.CanonicalText) (hI : s.Inv P) {admin audHash : Bytes}
    (h : createAudienceClaim P admin audHash s = .ok s') : s'.Inv P := by
  obtain ⟨hnone, addr, haddr, rfl⟩ := createAudienceClaim_eq_ok.1 h
  exact setAudienceClaim_inv hI (hashFree_of_unclaimed hI hnone) (hacc _ _ haddr)

theorem deleteAudienceClaim_inv (hI : s.Inv P) {admin audHash : Bytes}
    (hfree : HashFree P s audHash) (h : deleteAudienceClaim admin audHash s = .ok s') :
    s'.Inv P := by
  obtain ⟨-, rfl⟩ := deleteAudienceClaim_eq_ok.1 h
  exact removeAudienceClaim_inv hI hfree

theorem createAudience_inv (hI : s.Inv P) {admin aud key : Bytes}
    (h : createAudience P admin aud key s = .ok s') : s'.Inv P := by
  obtain ⟨-, hc, rfl⟩ := createAudience_eq_ok.1 h
  -- The sender's claim is canonical, so the sender's text is its own canonical text.
  exact setAudience_inv hI ⟨_, hc, hI.canonical _ _ hc⟩

theorem deleteAudience_inv (hsha : Set.InjOn P.sha256 N) (hI : s.Inv P) (hN : Named N s)
    {admin aud : Bytes} (haud : aud ∈ N) (h : deleteAudience P admin aud s = .ok s') :
    s'.Inv P := by
  obtain ⟨-, -, -, rfl⟩ := deleteAudience_eq_ok.1 h
  exact (removeAudience_claim_inv hsha hI hN haud).1

/-- An update that keeps the audience's name. -/
theorem updateAudience_inv_of_same_name (hacc : P.CanonicalText) (hsha : Set.InjOn P.sha256 N)
    (hI : s.Inv P) (hN : Named N s) {admin newAdmin aud key : Bytes} (haud : aud ∈ N)
    {v : Audience} (hv : getAudience s aud = some v) (hadmin : v.admin = admin) {t : JwkState}
    (ht : transferAudience P admin newAdmin ⟨newAdmin, aud, key⟩ s = .ok t) :
    (setAudience t ⟨newAdmin, aud, key⟩).Inv P := by
  have hvaud := hI.keyed.aud_eq hv
  rcases transferAudience_eq_ok.1 ht with ⟨rfl, rfl⟩ | ⟨-, addr, haddr, rfl⟩
  · -- Same admin: the old audience's claim backs the updated one.
    obtain ⟨c, hc, hca⟩ := hI.claimed _ _ hv
    exact setAudience_inv hI ⟨c, hvaud ▸ hc, hadmin ▸ hca⟩
  · -- New admin: the claim is replaced, which is setting it on the store without the audience.
    obtain ⟨hI₀, hfree⟩ := removeAudience_claim_inv hsha hI hN haud
    have hI₁ := setAudienceClaim_inv hI₀ hfree (hacc _ _ haddr)
    rw [← setAudience_removeAudience]
    exact setAudience_inv hI₁ ⟨⟨addr⟩, by simp, haddr⟩

/-- An update that renames the audience to `newAud`, a free name that the sender has claimed. -/
theorem updateAudience_inv_of_rename (hacc : P.CanonicalText) (hsha : Set.InjOn P.sha256 N)
    (hI : s.Inv P) (hN : Named N s) {admin newAdmin aud newAud key : Bytes} (haud : aud ∈ N)
    (hnewAud : newAud ∈ N) {v : Audience}
    (hv : getAudience s aud = some v) (hfreeName : getAudience s newAud = none)
    (hclaim : getAudienceClaim s (P.sha256 newAud) = some ⟨admin⟩) {t : JwkState}
    (ht : transferAudience P admin newAdmin ⟨newAdmin, newAud, key⟩
      (removeAudienceClaim (removeAudience s aud) (P.sha256 aud)) = .ok t) :
    (setAudience t ⟨newAdmin, newAud, key⟩).Inv P := by
  obtain ⟨hI₀, -⟩ := removeAudience_claim_inv hsha hI hN haud
  have hne : newAud ≠ aud := by
    rintro rfl
    rw [hv] at hfreeName
    cases hfreeName
  -- The new name is free in the store without the old audience as well.
  have hfree₀ : HashFree P (removeAudienceClaim (removeAudience s aud) (P.sha256 aud))
      (P.sha256 newAud) :=
    hashFree_of_getAudience hsha hI₀.keyed (named_removeAudience hN aud) hnewAud
      (by simp [hne, hfreeName])
  rcases transferAudience_eq_ok.1 ht with ⟨rfl, rfl⟩ | ⟨-, addr, haddr, rfl⟩
  · -- Same admin: the sender's claim on the new name backs the renamed audience.
    refine setAudience_inv hI₀ ⟨⟨newAdmin⟩, ?_, hI.canonical _ _ hclaim⟩
    rw [getAudienceClaim_removeAudienceClaim, if_neg (hsha.ne hnewAud haud hne), getAudienceClaim_removeAudience,
      hclaim]
  · -- New admin: the new name's claim is replaced by one for the new admin.
    have hI₁ := setAudienceClaim_inv (removeAudienceClaim_inv hI₀ hfree₀) hfree₀ (hacc _ _ haddr)
    exact setAudience_inv hI₁ ⟨⟨addr⟩, by simp, haddr⟩

theorem updateAudience_inv (hacc : P.CanonicalText) (hsha : Set.InjOn P.sha256 N) (hI : s.Inv P)
    (hN : Named N s) {admin newAdmin aud newAud key : Bytes} (haud : aud ∈ N)
    (hnewAud : newAud ∈ N) (h : updateAudience P admin newAdmin aud newAud key s = .ok s') :
    s'.Inv P := by
  obtain ⟨v, hv, hadmin, r, hr, t, ht, rfl⟩ := updateAudience_eq_ok.1 h
  rcases renameAudience_eq_ok.1 hr with ⟨-, rfl⟩ | ⟨-, hfreeName, hclaim, rfl⟩
  · exact updateAudience_inv_of_same_name hacc hsha hI hN haud hv hadmin ht
  · rw [hI.keyed.aud_eq hv] at ht
    exact updateAudience_inv_of_rename hacc hsha hI hN haud hnewAud hv hfreeName hclaim ht

end Handlers

/-! ## Runs -/

/-- The audience names a message carries: those of `CreateAudience`, `UpdateAudience` and
`DeleteAudience`. -/
def JwkMsg.audNames : JwkMsg → List Bytes
  | .createAudience _ aud _ => [aud]
  | .updateAudience _ _ aud newAud _ => [aud, newAud]
  | .deleteAudience _ aud => [aud]
  | _ => []

/-- A message that releases no claim of a stored audience. -/
def KeepsLiveClaims (P : JwkPrimitives) (s : JwkState) : JwkMsg → Prop
  | .deleteAudienceClaim _ audHash => HashFree P s audHash
  | _ => True

section Runs

variable {P : JwkPrimitives} {s : JwkState}

theorem step_inv (hacc : P.CanonicalText) {N : Set Bytes} (hsha : Set.InjOn P.sha256 N)
    (hI : s.Inv P) (hN : Named N s) {m : JwkMsg} (hm : KeepsLiveClaims P s m)
    (hmN : ∀ n ∈ m.audNames, n ∈ N) : (step P s m).Inv P := by
  refine commit_inv hI fun s' h => ?_
  cases m with
  | createAudienceClaim admin audHash => exact createAudienceClaim_inv hacc hI h
  | deleteAudienceClaim admin audHash => exact deleteAudienceClaim_inv hI hm h
  | createAudience admin aud key => exact createAudience_inv hI h
  | updateAudience admin newAdmin aud newAud key =>
    exact updateAudience_inv hacc hsha hI hN (hmN aud (by simp [JwkMsg.audNames]))
      (hmN newAud (by simp [JwkMsg.audNames])) h
  | deleteAudience admin aud =>
    exact deleteAudience_inv hsha hI hN (hmN aud (by simp [JwkMsg.audNames])) h

/-- An audience after a step was stored before, or the step wrote it under the key of its name,
which is one of the message's names. -/
theorem step_audience {m : JwkMsg} {k : Bytes} {a : Audience}
    (h : (step P s m).audiences.get? k = some a) :
    s.audiences.get? k = some a ∨ (k = audienceKey a.aud ∧ a.aud ∈ m.audNames) := by
  revert h
  refine commit_inv (I := fun (t : JwkState) => t.audiences.get? k = some a → _) Or.inl fun s' hs' h => ?_
  cases m with
  | createAudienceClaim admin audHash =>
    obtain ⟨-, addr, -, rfl⟩ := createAudienceClaim_eq_ok.1 hs'
    exact .inl h
  | deleteAudienceClaim admin audHash =>
    obtain ⟨-, rfl⟩ := deleteAudienceClaim_eq_ok.1 hs'
    exact .inl h
  | createAudience admin aud key =>
    obtain ⟨-, -, rfl⟩ := createAudience_eq_ok.1 hs'
    rcases get?_setAudience_of h with h | ⟨hk, rfl⟩
    · exact .inl h
    · exact .inr ⟨hk, List.mem_singleton_self _⟩
  | updateAudience admin newAdmin aud newAud key =>
    obtain ⟨v, -, -, r, hr, t, ht, rfl⟩ := updateAudience_eq_ok.1 hs'
    -- A rename removes the old name's audience and a transfer writes only claims; the audience
    -- written keeps its name or takes the new one.
    have hr₁ : (r.1.audiences.get? k = some a → s.audiences.get? k = some a) ∧
        r.2.aud ∈ [aud, newAud] := by
      rcases renameAudience_eq_ok.1 hr with ⟨-, rfl⟩ | ⟨-, -, -, rfl⟩
      · exact ⟨id, List.mem_cons_self⟩
      · exact ⟨get?_removeAudience_of, List.mem_cons_of_mem _ List.mem_cons_self⟩
    have ht₁ : t.audiences = r.1.audiences := by
      rcases transferAudience_eq_ok.1 ht with ⟨-, rfl⟩ | ⟨-, addr, -, rfl⟩ <;> rfl
    rcases get?_setAudience_of h with h | ⟨hk, rfl⟩
    · exact .inl (hr₁.1 (ht₁ ▸ h))
    · exact .inr ⟨hk, hr₁.2⟩
  | deleteAudience admin aud =>
    obtain ⟨-, -, -, rfl⟩ := deleteAudience_eq_ok.1 hs'
    exact .inl (get?_removeAudience_of h)

theorem step_keyed (hk : Keyed s) (m : JwkMsg) : Keyed (step P s m) := by
  intro k a h
  rcases step_audience h with h | ⟨hka, -⟩
  · exact hk k a h
  · exact hka

theorem step_named {N : Set Bytes} (hN : Named N s) {m : JwkMsg} (hmN : ∀ n ∈ m.audNames, n ∈ N) :
    Named N (step P s m) := by
  intro k a h
  rcases step_audience h with h | ⟨-, ha⟩
  · exact hN k a h
  · exact hmN _ ha

/-- The invariant, and the names of the audiences, over a run whose messages release no claim of
a live audience and carry names of `N`. -/
theorem run_inv (hacc : P.CanonicalText) {N : Set Bytes} (hsha : Set.InjOn P.sha256 N)
    (ms : List JwkMsg) (hms : Allowed (KeepsLiveClaims P) (step P) s ms)
    (hmsN : ∀ m ∈ ms, ∀ n ∈ m.audNames, n ∈ N) (hI : s.Inv P) (hN : Named N s) :
    (run P s ms).Inv P ∧ Named N (run P s ms) :=
  exec_inv_of_allowed (I := fun t => t.Inv P ∧ Named N t)
    (G := fun t m => KeepsLiveClaims P t m ∧ ∀ n ∈ m.audNames, n ∈ N)
    (fun _ _ ht hm => ⟨step_inv hacc hsha ht.1 ht.2 hm.1 hm.2, step_named ht.2 hm.2⟩) ms
    (hms.and_forall hmsN) ⟨hI, hN⟩

/-- A genesis without audiences starts the invariant. -/
theorem initGenesis_inv {gs : GenesisState} (hempty : gs.audienceList = []) :
    (initGenesis .empty gs).Inv P := by
  rw [initGenesis, hempty]
  refine ⟨fun k a h => ?_, fun k c h => ?_, fun k a h => ?_⟩ <;>
    simp [JwkState.empty] at h

theorem initGenesis_named {N : Set Bytes} {gs : GenesisState} (hempty : gs.audienceList = []) :
    Named N (initGenesis .empty gs) := by
  rw [initGenesis, hempty]
  intro k a h
  simp [JwkState.empty] at h

/-- `m` updates or deletes the audience `a` stored under the name `n`, and its signer is `a`'s
admin. -/
def JwkMsg.Manages : JwkMsg → Bytes → Audience → Prop
  | .updateAudience admin _ aud _ _, n, a => admin = a.admin ∧ aud = n
  | .deleteAudience admin aud, n, a => admin = a.admin ∧ aud = n
  | _, _, _ => False

/-- A message leaves an audience as it is, unless it is its admin's update or deletion of it. -/
theorem step_getAudience (hk : Keyed s) {n : Bytes} {a : Audience} (h : getAudience s n = some a)
    (m : JwkMsg) : getAudience (step P s m) n = some a ∨ m.Manages n a := by
  refine commit_inv (I := fun t => getAudience t n = some a ∨ m.Manages n a) (.inl h)
    fun s' hs' => ?_
  cases m with
  | createAudienceClaim admin audHash =>
    obtain ⟨-, addr, -, rfl⟩ := createAudienceClaim_eq_ok.1 hs'
    exact .inl (by simpa using h)
  | deleteAudienceClaim admin audHash =>
    obtain ⟨-, rfl⟩ := deleteAudienceClaim_eq_ok.1 hs'
    exact .inl (by simpa using h)
  | createAudience admin aud key =>
    obtain ⟨hnone, -, rfl⟩ := createAudience_eq_ok.1 hs'
    -- The new name was free, so it is not `n`.
    have hne : aud ≠ n := by
      rintro rfl
      rw [hnone] at h
      cases h
    exact .inl (by simp [hne, h])
  | updateAudience admin newAdmin aud newAud key =>
    obtain ⟨v, hv, hadmin, r, hr, t, ht, rfl⟩ := updateAudience_eq_ok.1 hs'
    by_cases han : aud = n
    · subst han
      rw [hv] at h
      cases h
      exact .inr ⟨hadmin.symm, rfl⟩
    refine .inl ?_
    -- Neither the old name nor the new one is `n`, and a transfer writes only claims.
    have hkeep : getAudience r.1 n = some a ∧ r.2.aud ≠ n := by
      rcases renameAudience_eq_ok.1 hr with ⟨-, rfl⟩ | ⟨-, hfreeName, -, rfl⟩
      · exact ⟨h, han⟩
      · refine ⟨by simp [hk.aud_eq hv, Ne.symm han, h], fun hn => ?_⟩
        rw [← hn, hfreeName] at h
        cases h
    have ht' : getAudience t n = getAudience r.1 n := by
      rcases transferAudience_eq_ok.1 ht with ⟨-, rfl⟩ | ⟨-, addr, -, rfl⟩ <;> simp
    rw [getAudience_setAudience, if_neg hkeep.2, ht', hkeep.1]
  | deleteAudience admin aud =>
    obtain ⟨v, hv, hadmin, rfl⟩ := deleteAudience_eq_ok.1 hs'
    by_cases han : n = aud
    · subst han
      rw [hv] at h
      cases h
      exact .inr ⟨hadmin.symm, rfl⟩
    · exact .inl (by simp [han, h])

/-- Over a run, an audience stays as it is unless a message of the run is its admin's update or
deletion of it. -/
theorem run_getAudience (hk : Keyed s) {n : Bytes} {a : Audience} (ms : List JwkMsg)
    (h : getAudience s n = some a) :
    getAudience (run P s ms) n = some a ∨ ∃ m ∈ ms, m.Manages n a := by
  have hrun := exec_stable_or (P := fun t => Keyed t ∧ getAudience t n = some a)
    (fun t m ht => (step_getAudience (P := P) ht.1 ht.2 m).imp_left fun h' =>
      ⟨step_keyed ht.1 m, h'⟩)
    ms ⟨hk, h⟩
  exact hrun.imp_left And.right

end Runs

/-! ## Every audience of a run without releases is backed by its claim -/

/-- From a genesis without audiences, over a run that releases no claim of a live audience and on
whose audience names SHA-256 has no collision, every audience is backed by the claim of its
admin's account; and from there on an audience is changed or removed only by an update or a
deletion that its admin signs. -/
theorem audience_claims_backed {P : JwkPrimitives} (hacc : P.CanonicalText)
    {gs : GenesisState} (hempty : gs.audienceList = []) (ms : List JwkMsg)
    (hsha : Set.InjOn P.sha256 {n | ∃ m ∈ ms, n ∈ m.audNames})
    (hms : Allowed (KeepsLiveClaims P) (step P) (initGenesis .empty gs) ms) :
    (∀ k a, (run P (initGenesis .empty gs) ms).audiences.get? k = some a →
      HoldsClaim P (run P (initGenesis .empty gs) ms) a) ∧
    ∀ (ms' : List JwkMsg) (n : Bytes) (a : Audience),
      getAudience (run P (initGenesis .empty gs) ms) n = some a →
      getAudience (run P (run P (initGenesis .empty gs) ms) ms') n = some a ∨
        ∃ m ∈ ms', m.Manages n a := by
  have hI := (run_inv hacc hsha ms hms (fun m hm n hn => ⟨m, hm, hn⟩) (initGenesis_inv hempty)
    (initGenesis_named hempty)).1
  exact ⟨hI.claimed, fun ms' _ _ h => run_getAudience hI.keyed ms' h⟩

/-- The governance module's account, `xion10d07y265gmmuvt4z0w9aw880jnsr700jctf8qc`. -/
def govAddress : Bytes := ofAscii "xion10d07y265gmmuvt4z0w9aw880jnsr700jctf8qc"

/-- The account of the module name `wrongsigner` of the module's tests. -/
def wrongSignerAddress : Bytes := ofAscii "xion1s5pu8fm70pupqgwjd6wy44j3wqt0n2w4e7fad9"

/-- The audience name of the module's tests. -/
def testAudience : Bytes := ofAscii "test-audience"

/-- The SHA-256 hash of `test-audience`. -/
def testAudienceHash : Bytes :=
  [147, 34, 164, 3, 224, 106, 149, 144, 87, 119, 43, 239, 201, 165, 135, 34, 118, 121, 141, 114,
   141, 51, 77, 60, 209, 80, 172, 29, 80, 141, 24, 134]

/-- A public Ed25519 JWK. -/
def testJwk : Bytes :=
  ofAscii ("\x7b\"kty\":\"OKP\",\"crv\":\"Ed25519\",\"alg\":\"EdDSA\"," ++
    "\"x\":\"11qYAYKxCrfVS_7TyWQHOg7hcvPapiMlrwIaaPcHURo\"\x7d")

/-- The external functions on these values: the hash of the test audience (and zeros for every
other value), the two accounts, which are in canonical form, the key, which parses to a public
Ed25519 key, and its algorithm. -/
def testPrimitives : JwkPrimitives where
  sha256 x := if x = testAudience then testAudienceHash else List.replicate 32 0
  accAddress x := if x = govAddress ∨ x = wrongSignerAddress then some x else none
  parseKey k :=
    if k = testJwk then .ok ⟨.okp, ofAscii "EdDSA", .ok .ed25519Public⟩
    else .error "failed to parse key"
  acceptSignatureAlgorithm a :=
    if a = ofAscii "EdDSA" then .ok .edDSA else .error "invalid jwa.SignatureAlgorithm value"

theorem testPrimitives_canonicalText : testPrimitives.CanonicalText := by
  intro x c h
  simp only [testPrimitives] at h ⊢
  split_ifs at h with hx
  cases h
  rw [if_pos hx]

/-- The governance account claims the test audience's name and creates the audience. -/
def createTestAudience : List JwkMsg :=
  [.createAudienceClaim govAddress testAudienceHash,
    .createAudience govAddress testAudience testJwk]

theorem createTestAudience_audNames {n : Bytes} (h : ∃ m ∈ createTestAudience, n ∈ m.audNames) :
    n = testAudience := by
  obtain ⟨m, hm, hn⟩ := h
  simp only [createTestAudience, List.mem_cons, List.not_mem_nil, or_false] at hm
  rcases hm with rfl | rfl
  · simp [JwkMsg.audNames] at hn
  · simpa [JwkMsg.audNames] using hn

/-- The claims theorem on the run that creates the test audience. -/
theorem test_audience_claims_backed :
    (∀ k a, (run testPrimitives (initGenesis .empty ⟨[], defaultParams⟩)
        createTestAudience).audiences.get? k = some a →
      HoldsClaim testPrimitives (run testPrimitives (initGenesis .empty ⟨[], defaultParams⟩)
        createTestAudience) a) ∧
    ∀ (ms' : List JwkMsg) (n : Bytes) (a : Audience),
      getAudience (run testPrimitives (initGenesis .empty ⟨[], defaultParams⟩)
        createTestAudience) n = some a →
      getAudience (run testPrimitives (run testPrimitives (initGenesis .empty ⟨[], defaultParams⟩)
        createTestAudience) ms') n = some a ∨ ∃ m ∈ ms', m.Manages n a :=
  audience_claims_backed testPrimitives_canonicalText rfl createTestAudience
    (fun _ hx _ hy _ => (createTestAudience_audNames hx).trans (createTestAudience_audNames hy).symm)
    ⟨trivial, trivial, trivial⟩

/-- The admin of the test audience releases its claim, and the other account claims the name. -/
def claimReleaseRun : List JwkMsg :=
  createTestAudience ++
    [.deleteAudienceClaim govAddress testAudienceHash,
      .createAudienceClaim wrongSignerAddress testAudienceHash]

/-- Two ways to an audience that the claim of its admin does not back: a genesis that validation
accepts loads the test audience with no claim, and after the governance account creates the
audience and releases its claim, all with messages that `ValidateBasic` accepts, the other
account holds the claim on the live audience's name. -/
theorem audience_claim_not_kept :
    (GenesisState.validate testPrimitives ⟨[⟨govAddress, testAudience, []⟩], defaultParams⟩ =
        .ok () ∧
      getAudience (initGenesis .empty ⟨[⟨govAddress, testAudience, []⟩], defaultParams⟩)
        testAudience = some ⟨govAddress, testAudience, []⟩ ∧
      getAudienceClaim (initGenesis .empty ⟨[⟨govAddress, testAudience, []⟩], defaultParams⟩)
        testAudienceHash = none) ∧
    (GenesisState.validate testPrimitives ⟨[], defaultParams⟩ = .ok () ∧
      (∀ m ∈ claimReleaseRun, m.validateBasic testPrimitives = .ok ()) ∧
      getAudience (run testPrimitives (initGenesis .empty ⟨[], defaultParams⟩) claimReleaseRun)
        testAudience = some ⟨govAddress, testAudience, testJwk⟩ ∧
      getAudienceClaim (run testPrimitives (initGenesis .empty ⟨[], defaultParams⟩)
        claimReleaseRun) testAudienceHash = some ⟨wrongSignerAddress⟩) := by
  -- each part is checked on its own: the whole conjunction at once takes too much memory
  refine ⟨⟨?_, ?_, ?_⟩, ?_, ?_, ?_, ?_⟩
  · decide
  · decide
  · decide
  · decide
  · decide
  · decide
  · decide

end Xion.Jwk
