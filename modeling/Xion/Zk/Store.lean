import Xion.Zk.Keeper

/-!
# The verification-key store's invariant

In the states that genesis and the messages reach, the name index and the keys agree: the index
maps a name to an id exactly when the key of that id has that name (`ZkState.Inv.index_iff`).
Every stored id is below the sequence, so the next key never lands on a stored one, and a stored
key keeps its id, its name and the account it answers to; only that account's update or removal,
or for id 1 the v1 to v2 migration, changes it.

Each covered event has one of five effects on the store (`Effect`), and every fact about runs is
proved once per effect. Two events fall outside by design or by the arithmetic of the sequence,
and the runs the invariant covers leave them out (`Covered`). The v1 to v2 migration writes the
default key under id 1 without its name's index entry, which is sound only where id 1 already
holds that key. And the sequence is a 64-bit word: a genesis id of `2^64 - 1`, or an addition
while the sequence is at `2^64 - 1`, wraps it to zero.
-/

namespace Xion.Zk

open Bytes Run

/-- The invariant of the key store. -/
structure ZkState.Inv (s : ZkState) : Prop where
  /-- Keys are stored under the numbers of 64-bit ids. -/
  keys_lt : ∀ i v, s.vkeys.get? i = some v → i < 2 ^ 64
  /-- The name index maps a name to an id exactly when the key of that id has that name. -/
  index_iff : ∀ n id, getVKeyID s n = some id ↔ ∃ v, getVKey s id = some v ∧ v.name = n
  /-- Every stored id is below the sequence. -/
  below_next : ∀ id v, getVKey s id = some v → id < s.nextVKeyID

/-- The events that the invariant covers: an addition while the sequence has a next value, and
the v1 to v2 migration where id 1 holds the key it was written for, under the default key's name
and the module's authority. -/
def Covered (moduleAuthority : Bytes) (s : ZkState) : ZkEvent → Prop
  | .deliver (.addVKey ..) => s.nextVKeyID.toNat + 1 < 2 ^ 64
  | .migrate1to2 => ∃ v, getVKey s 1 = some v ∧ v.name = defaultVKeyName ∧
      effectiveAuthority moduleAuthority v = moduleAuthority
  | _ => True

/-- `e` may replace or remove the key `v` stored under `id`: an update or a removal of its name
sent by the account it answers to, or, for id 1, the v1 to v2 migration. -/
def ZkEvent.Manages (moduleAuthority : Bytes) (id : UInt64) (v : VKey) : ZkEvent → Prop
  | .deliver (.updateVKey authority name ..) =>
    authority = effectiveAuthority moduleAuthority v ∧ name = v.name
  | .deliver (.removeVKey authority name) =>
    authority = effectiveAuthority moduleAuthority v ∧ name = v.name
  | .migrate1to2 => id = 1
  | _ => False

/-- The id `id` holds no key, or one with `v`'s name that answers to `v`'s account, and the
sequence has passed it. -/
def Retains (moduleAuthority : Bytes) (id : UInt64) (v : VKey) (s : ZkState) : Prop :=
  id < s.nextVKeyID ∧ (getVKey s id = none ∨ ∃ v', getVKey s id = some v' ∧ v'.name = v.name ∧
    effectiveAuthority moduleAuthority v' = effectiveAuthority moduleAuthority v)

/-! ## The invariant under the store's writes -/

section Inv

variable {s : ZkState}

/-- The id after a stored one's is one more than it, without wrapping. -/
theorem lt_succ_of_toNat {id : UInt64} (h : id.toNat + 1 < 2 ^ 64) : id < id + 1 := by
  rw [UInt64.lt_iff_toNat_lt, UInt64.toNat_add, UInt64.toNat_one, Nat.mod_eq_of_lt h]
  omega

/-- The sequence's id is not stored. -/
theorem ZkState.Inv.getVKey_next (hI : s.Inv) : getVKey s s.nextVKeyID = none :=
  Option.eq_none_iff_forall_ne_some.2 fun v hv => UInt64.lt_irrefl _ (hI.below_next _ v hv)

/-- The key of an indexed name has that name. -/
theorem ZkState.Inv.name_eq (hI : s.Inv) {n : Bytes} {id : UInt64} {v : VKey}
    (hid : getVKeyID s n = some id) (hv : getVKey s id = some v) : v.name = n := by
  obtain ⟨v', hv', hname⟩ := (hI.index_iff n id).1 hid
  rw [hv] at hv'
  cases hv'
  exact hname

/-- The store before genesis keeps the invariant. -/
theorem empty_inv : ZkState.empty.Inv where
  keys_lt i v hv := by cases hv
  index_iff n id := by simp [getVKeyID, getVKey, ZkState.empty, SortedMap.get?_empty]
  below_next id v hv := by cases hv

/-- A key with a fresh id and a fresh name can be stored, with its index entry, when the new
sequence passes it and every stored id. This is the write of `AddVKey` and of genesis. -/
theorem ZkState.Inv.insert_fresh (hI : s.Inv) {id seq : UInt64} {w : VKey}
    (hid : getVKey s id = none) (hname : getVKeyID s w.name = none)
    (hseq : id < seq) (hold : ∀ id' v, getVKey s id' = some v → id' < seq) :
    ZkState.Inv ⟨s.params, s.vkeys.insert id.toNat w, seq, s.vkeyNameIndex.insert w.name id⟩ where
  keys_lt i v hv := by
    rw [SortedMap.get?_insert] at hv
    split_ifs at hv with hi
    · exact hi ▸ UInt64.toNat_lt_size id
    · exact hI.keys_lt i v hv
  index_iff n id' := by
    simp only [getVKeyID_insert, getVKey_insert]
    by_cases hn : w.name = n
    · -- The new name maps to the new id, whose key is the only one with that name.
      subst hn
      rw [if_pos rfl]
      constructor
      · rintro ⟨rfl⟩
        exact ⟨w, if_pos rfl, rfl⟩
      · rintro ⟨v, hv, hvn⟩
        split_ifs at hv with hi
        · rw [hi]
        · rw [← hvn, (hI.index_iff _ id').2 ⟨v, hv, rfl⟩] at hname
          cases hname
    · rw [if_neg hn, hI.index_iff]
      constructor
      · rintro ⟨v, hv, hvn⟩
        refine ⟨v, ?_, hvn⟩
        rw [if_neg fun h => by rw [← h, hid] at hv; cases hv]
        exact hv
      · rintro ⟨v, hv, hvn⟩
        split_ifs at hv with hi
        · cases hv
          exact absurd hvn hn
        · exact ⟨v, hv, hvn⟩
  below_next id' v hv := by
    rw [getVKey_insert] at hv
    split_ifs at hv with hi
    · exact hi ▸ hseq
    · exact hold id' v hv

/-- A stored key can be replaced by one with its name. This is the write of `UpdateVKey` and of
the v1 to v2 migration. -/
theorem ZkState.Inv.setVKey (hI : s.Inv) {id : UInt64} {v w : VKey} (hv : getVKey s id = some v)
    (hname : w.name = v.name) : (setVKey s id w).Inv where
  keys_lt i u hu := by
    simp only [Xion.Zk.setVKey, SortedMap.get?_insert] at hu
    split_ifs at hu with hi
    · exact hi ▸ UInt64.toNat_lt_size id
    · exact hI.keys_lt i u hu
  index_iff n id' := by
    rw [getVKeyID_setVKey, hI.index_iff]
    simp only [getVKey_setVKey]
    by_cases hi : id = id'
    · subst hi
      simp only [if_true, hv, Option.some.injEq, exists_eq_left', hname]
    · simp only [if_neg hi]
  below_next id' u hu := by
    rw [getVKey_setVKey] at hu
    split_ifs at hu with hi
    · exact hi ▸ hI.below_next id v hv
    · exact hI.below_next id' u hu

/-- An indexed key can be removed with its index entry. This is the write of `RemoveVKey`. -/
theorem ZkState.Inv.erase (hI : s.Inv) {n : Bytes} {id : UInt64} (hid : getVKeyID s n = some id) :
    ZkState.Inv ⟨s.params, s.vkeys.erase id.toNat, s.nextVKeyID, s.vkeyNameIndex.erase n⟩ where
  keys_lt i v hv := by
    rw [SortedMap.get?_erase] at hv
    split_ifs at hv
    exact hI.keys_lt i v hv
  index_iff n' id' := by
    simp only [getVKeyID_erase, getVKey_erase]
    by_cases hn : n' = n
    · -- The removed key was the only one with the name.
      subst hn
      simp only [if_true, reduceCtorEq, false_iff, not_exists, not_and]
      intro v hv hvn
      split_ifs at hv with hi
      rw [← hvn, (hI.index_iff _ id').2 ⟨v, hv, rfl⟩] at hid
      exact hi (Option.some.inj hid)
    · rw [if_neg hn, hI.index_iff]
      constructor
      · rintro ⟨v, hv, hvn⟩
        refine ⟨v, ?_, hvn⟩
        rw [if_neg fun (hi : id' = id) => hn (hvn ▸ hI.name_eq hid (hi ▸ hv))]
        exact hv
      · rintro ⟨v, hv, hvn⟩
        split_ifs at hv
        exact ⟨v, hv, hvn⟩
  below_next id' v hv := by
    rw [getVKey_erase] at hv
    split_ifs at hv
    exact hI.below_next id' v hv

/-- The invariant does not read the parameters. -/
theorem ZkState.Inv.with_params (hI : s.Inv) (p : Option Params) :
    ZkState.Inv { s with params := p } :=
  ⟨hI.keys_lt, hI.index_iff, hI.below_next⟩

end Inv

/-! ## What one event does -/

/-- What one covered event does to a store that keeps the invariant. -/
inductive Effect (moduleAuthority : Bytes) (s : ZkState) (e : ZkEvent) : ZkState → Prop
  /-- A failed message, or a migration with nothing to write. -/
  | unchanged : Effect moduleAuthority s e s
  /-- A key with a fresh name under the sequence's id, which the sequence then passes. -/
  | add (w : VKey) (hname : getVKeyID s w.name = none) (hseq : s.nextVKeyID.toNat + 1 < 2 ^ 64) :
      Effect moduleAuthority s e ⟨s.params, s.vkeys.insert s.nextVKeyID.toNat w,
        s.nextVKeyID + 1, s.vkeyNameIndex.insert w.name s.nextVKeyID⟩
  /-- A stored key replaced, by an event that manages it, with one of its name that answers to
  its account. -/
  | replace (id : UInt64) (v w : VKey) (hv : getVKey s id = some v) (hname : w.name = v.name)
      (hauth : effectiveAuthority moduleAuthority w = effectiveAuthority moduleAuthority v)
      (hm : e.Manages moduleAuthority id v) : Effect moduleAuthority s e (setVKey s id w)
  /-- An indexed key removed with its index entry, by an event that manages it. -/
  | remove (n : Bytes) (id : UInt64) (v : VKey) (hid : getVKeyID s n = some id)
      (hv : getVKey s id = some v) (hm : e.Manages moduleAuthority id v) :
      Effect moduleAuthority s e
        ⟨s.params, s.vkeys.erase id.toNat, s.nextVKeyID, s.vkeyNameIndex.erase n⟩
  /-- New parameters. -/
  | params (p : Option Params) : Effect moduleAuthority s e { s with params := p }

section Effect

variable {P : ZkPrimitives} {moduleAuthority defaultVKeyBytes : Bytes} {s s' : ZkState}
  {e : ZkEvent} {id : UInt64} {v : VKey}

/-- A key whose authority is another key's effective authority answers to the same account. -/
theorem effectiveAuthority_of_eq {w : VKey}
    (h : w.authority = effectiveAuthority moduleAuthority v) :
    effectiveAuthority moduleAuthority w = effectiveAuthority moduleAuthority v := by
  unfold effectiveAuthority at *
  split_ifs at h ⊢ <;> simp_all

/-- A successful message of a covered event, from a store that keeps the invariant. -/
theorem handle_effect (hI : s.Inv) {m : ZkMsg} (hc : Covered moduleAuthority s (.deliver m))
    (h : handle P moduleAuthority m s = .ok s') : Effect moduleAuthority s (.deliver m) s' := by
  cases m with
  | addVKey authority name vkeyBytes description proofSystem =>
    simp only [handle, bind_eq_ok, exists_unit, pure_eq_ok] at h
    obtain ⟨-, r, hr, rfl⟩ := h
    obtain ⟨hname, -, -, rfl⟩ := addVKey_eq_ok.1 hr
    exact .add _ hname hc
  | updateVKey authority name vkeyBytes description proofSystem =>
    simp only [handle, bind_const_eq_ok] at h
    obtain ⟨id, v, hid, hv, hauth, -, -, rfl⟩ := updateVKey_eq_ok.1 h.2
    -- The index gives the stored key the message's name.
    have hn := hI.name_eq hid hv
    exact .replace id v _ hv hn.symm (effectiveAuthority_of_eq rfl) ⟨hauth.symm, hn.symm⟩
  | removeVKey authority name =>
    obtain ⟨id, v, hid, hv, hauth, rfl⟩ := removeVKey_eq_ok.1 h
    exact .remove name id v hid hv ⟨hauth.symm, (hI.name_eq hid hv).symm⟩
  | updateParams authority params =>
    simp only [handle, bind_const_eq_ok] at h
    obtain ⟨-, rfl⟩ := setParams_eq_ok.1 h.2
    exact .params _

/-- Every covered event has one of the five effects. -/
theorem step_effect (hI : s.Inv) (hc : Covered moduleAuthority s e) :
    Effect moduleAuthority s e (step P moduleAuthority defaultVKeyBytes s e) := by
  cases e with
  | deliver m =>
    show Effect _ _ _ (commit (handle P moduleAuthority m) s)
    rcases commit_cases (handle P moduleAuthority m) s with h | h
    · rw [h]
      exact .unchanged
    · exact handle_effect hI hc h
  | migrate1to2 =>
    -- Id 1 holds the default key's name under the module's authority, which the new key keeps.
    obtain ⟨v, hv, hname, hauth⟩ := hc
    show Effect _ _ _ (migrate1to2 defaultVKeyBytes s)
    unfold migrate1to2
    split
    · exact .replace 1 v _ hv hname.symm ((if_pos rfl).trans hauth.symm) rfl
    · exact .unchanged
  | migrate2to3 =>
    show Effect _ _ _ (migrate2to3 s)
    unfold migrate2to3
    split
    · exact .unchanged
    · exact .params _

/-- Every effect keeps the invariant. -/
theorem Effect.inv (hI : s.Inv) (h : Effect moduleAuthority s e s') : s'.Inv := by
  cases h with
  | unchanged => exact hI
  | add w hname hseq =>
    have hnext := lt_succ_of_toNat hseq
    exact hI.insert_fresh hI.getVKey_next hname hnext
      fun id v hv => UInt64.lt_trans (hI.below_next id v hv) hnext
  | replace id v w hv hname => exact hI.setVKey hv hname
  | remove n id v hid => exact hI.erase hid
  | params p => exact hI.with_params p

/-- Every effect keeps what an id holds retained. -/
theorem Effect.retains (h : Effect moduleAuthority s e s') (hr : Retains moduleAuthority id v s) :
    Retains moduleAuthority id v s' := by
  obtain ⟨hlt, hkey⟩ := hr
  cases h with
  | unchanged => exact ⟨hlt, hkey⟩
  | add w hname hseq =>
    -- The new key lands on the sequence's id, which is past `id`.
    have hne : s.nextVKeyID ≠ id := fun h => UInt64.lt_irrefl _ (h ▸ hlt)
    refine ⟨UInt64.lt_trans hlt (lt_succ_of_toNat hseq), ?_⟩
    rw [getVKey_insert, if_neg hne]
    exact hkey
  | replace id₀ v₀ w hv₀ hname hauth =>
    refine ⟨hlt, ?_⟩
    rw [getVKey_setVKey]
    split_ifs with hi
    · -- The replaced key is the one `id` held, and the new one keeps its name and account.
      subst hi
      obtain hnone | ⟨v', hv', hn', ha'⟩ := hkey
      · rw [hv₀] at hnone
        cases hnone
      · rw [hv₀] at hv'
        cases hv'
        exact .inr ⟨w, rfl, hname.trans hn', hauth.trans ha'⟩
    · exact hkey
  | remove n id₀ v₀ =>
    refine ⟨hlt, ?_⟩
    rw [getVKey_erase]
    split_ifs
    · exact .inl rfl
    · exact hkey
  | params p => exact ⟨hlt, hkey⟩

/-- A stored key is left as it is, or the event manages it. -/
theorem Effect.keep_or_manages (hI : s.Inv) (h : Effect moduleAuthority s e s')
    (hv : getVKey s id = some v) : getVKey s' id = some v ∨ e.Manages moduleAuthority id v := by
  cases h with
  | unchanged => exact .inl hv
  | add w =>
    have hne : s.nextVKeyID ≠ id := fun h => by
      rw [← h, hI.getVKey_next] at hv
      cases hv
    rw [getVKey_insert, if_neg hne]
    exact .inl hv
  | replace id₀ v₀ w hv₀ _ _ hm =>
    rw [getVKey_setVKey]
    split_ifs with hi
    · subst hi
      rw [hv₀] at hv
      cases hv
      exact .inr hm
    · exact .inl hv
  | remove n id₀ v₀ _ hv₀ hm =>
    rw [getVKey_erase]
    split_ifs with hi
    · subst hi
      rw [hv₀] at hv
      cases hv
      exact .inr hm
    · exact .inl hv
  | params p => exact .inl hv

end Effect

/-! ## Runs -/

section Runs

variable {P : ZkPrimitives} {moduleAuthority defaultVKeyBytes : Bytes} {s : ZkState}

theorem step_inv {e : ZkEvent} (hI : s.Inv) (hc : Covered moduleAuthority s e) :
    (step P moduleAuthority defaultVKeyBytes s e).Inv :=
  (step_effect hI hc).inv hI

theorem run_inv (es : List ZkEvent)
    (hes : Allowed (Covered moduleAuthority) (step P moduleAuthority defaultVKeyBytes) s es)
    (hI : s.Inv) : (run P moduleAuthority defaultVKeyBytes s es).Inv :=
  exec_inv_of_allowed (fun _ _ hI hc => step_inv hI hc) es hes hI

/-- Along a covered run, an id keeps a key with its name and account, or none. -/
theorem run_retains {id : UInt64} {v : VKey} (es : List ZkEvent)
    (hes : Allowed (Covered moduleAuthority) (step P moduleAuthority defaultVKeyBytes) s es)
    (hI : s.Inv) (hr : Retains moduleAuthority id v s) :
    Retains moduleAuthority id v (run P moduleAuthority defaultVKeyBytes s es) :=
  (exec_inv_of_allowed (I := fun s => s.Inv ∧ Retains moduleAuthority id v s)
    (fun _ _ hs hc => ⟨step_inv hs.1 hc, (step_effect hs.1 hc).retains hs.2⟩) es hes ⟨hI, hr⟩).2

/-- Along a covered run, a stored key stays as it is unless an event manages it. -/
theorem run_keep_or_manages {id : UInt64} {v : VKey} (es : List ZkEvent)
    (hes : Allowed (Covered moduleAuthority) (step P moduleAuthority defaultVKeyBytes) s es)
    (hI : s.Inv) (hv : getVKey s id = some v) :
    getVKey (run P moduleAuthority defaultVKeyBytes s es) id = some v ∨
      ∃ e ∈ es, e.Manages moduleAuthority id v := by
  have hstep : ∀ t e, t.Inv ∧ getVKey t id = some v → Covered moduleAuthority t e →
      ((step P moduleAuthority defaultVKeyBytes t e).Inv ∧
        getVKey (step P moduleAuthority defaultVKeyBytes t e) id = some v) ∨
      e.Manages moduleAuthority id v := fun t e ht hc =>
    ((step_effect ht.1 hc).keep_or_manages ht.1 ht.2).imp_left fun h => ⟨step_inv ht.1 hc, h⟩
  exact (exec_stable_or_of_allowed hstep es hes ⟨hI, hv⟩).imp_left And.right

end Runs

/-! ## Genesis -/

section Genesis

variable {P : ZkPrimitives} {moduleAuthority : Bytes} {gs : GenesisState} {s : ZkState}

/-- Genesis keys with distinct ids and names. -/
def DistinctKeys (l : List VKeyWithID) : Prop :=
  l.Pairwise fun x y => x.id ≠ y.id ∧ x.vkey.name ≠ y.vkey.name

/-- A successful validation of genesis keys, with the ids and names seen before them, sees each
id and name once. -/
theorem validateGenesisVKeys_distinct {params : Params} :
    ∀ {l : List VKeyWithID} {seen r : List UInt64 × List Bytes},
      l.foldlM (validateGenesisVKey P params) seen = .ok r →
      (∀ x ∈ l, x.id ∉ seen.1 ∧ x.vkey.name ∉ seen.2) ∧ DistinctKeys l
  | [], _, _, _ => ⟨fun _ hx => absurd hx List.not_mem_nil, List.Pairwise.nil⟩
  | x :: xs, seen, r, h => by
    rw [List.foldlM_cons, bind_eq_ok] at h
    obtain ⟨seen', hx, hrest⟩ := h
    simp only [validateGenesisVKey, bind_const_eq_ok, failIf_eq_ok, pure_eq_ok] at hx
    obtain ⟨hid, hname, -, -, -, rfl⟩ := hx
    obtain ⟨hfresh, hxs⟩ := validateGenesisVKeys_distinct hrest
    -- The keys after `x` meet `x`'s id and name among the seen ones.
    have hafter : ∀ y ∈ xs, x.id ≠ y.id ∧ x.vkey.name ≠ y.vkey.name := fun y hy =>
      ⟨fun h => (hfresh y hy).1 (h ▸ List.mem_cons_self),
        fun h => (hfresh y hy).2 (h ▸ List.mem_cons_self)⟩
    refine ⟨fun y hy => ?_, List.pairwise_cons.2 ⟨hafter, hxs⟩⟩
    rcases List.mem_cons.1 hy with rfl | hy
    · exact ⟨hid, hname⟩
    · exact ⟨fun h => (hfresh y hy).1 (List.mem_cons_of_mem _ h),
        fun h => (hfresh y hy).2 (List.mem_cons_of_mem _ h)⟩

/-- A validated genesis has distinct key ids and names. -/
theorem GenesisState.validate_distinct (h : gs.validate P = .ok ()) : DistinctKeys gs.vkeys := by
  simp only [GenesisState.validate, bind_eq_ok, exists_unit] at h
  obtain ⟨-, r, hr, -⟩ := h
  exact (validateGenesisVKeys_distinct hr).2

/-- The sequence after a genesis key passes the key's id and every id it passed before. -/
theorem lt_genesisSeq {id : UInt64} (next : UInt64) (hmax : id.toNat + 1 < 2 ^ 64) :
    id < (if id ≥ next then id + 1 else next) ∧
      ∀ id', id' < next → id' < (if id ≥ next then id + 1 else next) := by
  split_ifs with h
  · have hsucc := lt_succ_of_toNat hmax
    exact ⟨hsucc, fun id' h' => UInt64.lt_trans (UInt64.lt_of_lt_of_le h' h) hsucc⟩
  · exact ⟨UInt64.not_le.1 h, fun _ h' => h'⟩

/-- The genesis keys, stored one after the other into a store that has none of their ids and
names, keep the invariant. -/
theorem initGenesisVKeys_inv {params : Params} :
    ∀ {l : List VKeyWithID} {s s' : ZkState}, s.Inv → DistinctKeys l →
      (∀ x ∈ l, getVKey s x.id = none ∧ getVKeyID s x.vkey.name = none ∧
        x.id.toNat + 1 < 2 ^ 64) →
      l.foldlM (initGenesisVKey P moduleAuthority params) s = .ok s' → s'.Inv
  | [], s, s', hI, _, _, h => by
    rw [List.foldlM_nil] at h
    cases h
    exact hI
  | x :: xs, s, s', hI, hl, hfresh, h => by
    rw [List.foldlM_cons, bind_eq_ok] at h
    obtain ⟨t, ht, hrest⟩ := h
    obtain ⟨-, rfl⟩ := initGenesisVKey_eq_ok.1 ht
    obtain ⟨hafter, hxs⟩ := List.pairwise_cons.1 hl
    obtain ⟨hid, hname, hmax⟩ := hfresh x List.mem_cons_self
    obtain ⟨hseq, hold⟩ := lt_genesisSeq s.nextVKeyID hmax
    have hname' : getVKeyID s (x.vkey.withDefaultAuthority moduleAuthority).name = none := by
      rw [withDefaultAuthority_name]
      exact hname
    refine initGenesisVKeys_inv
      (hI.insert_fresh hid hname' hseq fun id' v hv => hold id' (hI.below_next id' v hv)) hxs
      (fun y hy => ?_) hrest
    -- The later keys are still fresh: their ids and names differ from `x`'s.
    obtain ⟨hyid, hyname, hymax⟩ := hfresh y (List.mem_cons_of_mem _ hy)
    simp only [getVKey_insert, getVKeyID_insert, withDefaultAuthority_name,
      if_neg (hafter y hy).1, if_neg (hafter y hy).2]
    exact ⟨hyid, hyname, hymax⟩

/-- A validated genesis whose ids have successors, loaded into the empty store, keeps the
invariant. -/
theorem initGenesis_inv (hval : gs.validate P = .ok ())
    (hids : ∀ v ∈ gs.vkeys, v.id.toNat + 1 < 2 ^ 64)
    (h : initGenesis P moduleAuthority .empty gs = .ok s) : s.Inv := by
  simp only [initGenesis, bind_eq_ok, exists_unit] at h
  obtain ⟨-, s₁, hs₁, hfold⟩ := h
  obtain ⟨-, rfl⟩ := setParams_eq_ok.1 hs₁
  exact initGenesisVKeys_inv (empty_inv.with_params _) (GenesisState.validate_distinct hval)
    (fun x hx => ⟨rfl, rfl, hids x hx⟩) hfold

end Genesis

/-! ## The store's integrity -/

/-- From a validated genesis whose ids have successors, along every covered run, the store keeps
the invariant: the name index and the keys agree, and every stored id is below the sequence. From
then on, along every covered run, the id of a stored key holds a key with its name and account or
none, and the key stays as it is unless an event manages it. -/
theorem vkey_store_consistent {P : ZkPrimitives} {moduleAuthority defaultVKeyBytes : Bytes}
    {gs : GenesisState} {s₀ : ZkState} (hval : gs.validate P = .ok ())
    (hids : ∀ v ∈ gs.vkeys, v.id.toNat + 1 < 2 ^ 64)
    (hinit : initGenesis P moduleAuthority .empty gs = .ok s₀) (es : List ZkEvent)
    (hes : Allowed (Covered moduleAuthority) (step P moduleAuthority defaultVKeyBytes) s₀ es) :
    (run P moduleAuthority defaultVKeyBytes s₀ es).Inv ∧
      ∀ id v, getVKey (run P moduleAuthority defaultVKeyBytes s₀ es) id = some v →
        ∀ es', Allowed (Covered moduleAuthority) (step P moduleAuthority defaultVKeyBytes)
            (run P moduleAuthority defaultVKeyBytes s₀ es) es' →
          Retains moduleAuthority id v
              (run P moduleAuthority defaultVKeyBytes (run P moduleAuthority defaultVKeyBytes s₀ es)
                es') ∧
            (getVKey (run P moduleAuthority defaultVKeyBytes
                (run P moduleAuthority defaultVKeyBytes s₀ es) es') id = some v ∨
              ∃ e ∈ es', e.Manages moduleAuthority id v) := by
  have hI := run_inv es hes (initGenesis_inv hval hids hinit)
  refine ⟨hI, fun id v hv es' hes' => ⟨?_, run_keep_or_manages es' hes' hI hv⟩⟩
  exact run_retains es' hes' hI ⟨hI.below_next id v hv, .inr ⟨v, hv, rfl, rfl⟩⟩

/-- The governance module's account, `xion10d07y265gmmuvt4z0w9aw880jnsr700jctf8qc`, the module's
authority. -/
def govAddress : Bytes := ofAscii "xion10d07y265gmmuvt4z0w9aw880jnsr700jctf8qc"

/-- The Circom Groth16 key with two public inputs of the module's tests (\x7b"protocol":"groth16",
"curve":"bn128","nPublic":2,...\x7d). -/
def testVKeyBytes : Bytes :=
  [123, 34, 112, 114, 111, 116, 111, 99, 111, 108, 34, 58, 34, 103, 114, 111, 116, 104, 49, 54, 34,
   44, 34, 99, 117, 114, 118, 101, 34, 58, 34, 98, 110, 49, 50, 56, 34, 44, 34, 110, 80, 117, 98,
   108, 105, 99, 34, 58, 50, 44, 34, 118, 107, 95, 97, 108, 112, 104, 97, 95, 49, 34, 58, 91, 34,
   50, 48, 52, 57, 49, 49, 57, 50, 56, 48, 53, 51, 57, 48, 52, 56, 53, 50, 57, 57, 49, 53, 51, 48,
   48, 57, 55, 55, 51, 53, 57, 52, 53, 51, 52, 57, 52, 48, 49, 56, 57, 50, 54, 49, 56, 54, 54, 50,
   50, 56, 52, 52, 55, 57, 49, 56, 48, 54, 56, 54, 53, 56, 52, 55, 49, 57, 55, 48, 52, 56, 49, 55,
   54, 51, 48, 52, 50, 34, 44, 34, 57, 51, 56, 51, 52, 56, 53, 51, 54, 51, 48, 53, 51, 50, 57, 48,
   50, 48, 48, 57, 49, 56, 51, 52, 55, 49, 53, 54, 49, 53, 55, 56, 51, 54, 53, 54, 54, 53, 54, 50,
   57, 54, 55, 57, 57, 52, 48, 51, 57, 55, 49, 50, 50, 55, 51, 52, 52, 57, 57, 48, 50, 54, 50, 49,
   50, 54, 54, 49, 55, 56, 53, 52, 53, 57, 53, 56, 34, 44, 34, 49, 34, 93, 44, 34, 118, 107, 95,
   98, 101, 116, 97, 95, 50, 34, 58, 91, 91, 34, 54, 51, 55, 53, 54, 49, 52, 51, 53, 49, 54, 56,
   56, 55, 50, 53, 50, 48, 54, 52, 48, 51, 57, 52, 56, 50, 54, 50, 56, 54, 56, 57, 54, 50, 55, 57,
   51, 54, 50, 53, 55, 52, 52, 48, 52, 51, 55, 57, 52, 51, 48, 53, 55, 49, 53, 50, 50, 50, 48, 49,
   49, 53, 50, 56, 52, 53, 57, 54, 53, 54, 55, 51, 56, 55, 51, 49, 34, 44, 34, 52, 50, 53, 50, 56,
   50, 50, 56, 55, 56, 55, 53, 56, 51, 48, 48, 56, 53, 57, 49, 50, 51, 56, 57, 55, 57, 56, 49, 52,
   53, 48, 53, 57, 49, 51, 53, 51, 53, 51, 51, 48, 55, 51, 52, 49, 51, 49, 57, 55, 55, 55, 49, 55,
   54, 56, 54, 53, 49, 52, 52, 50, 54, 54, 53, 55, 53, 50, 50, 53, 57, 51, 57, 55, 49, 51, 50, 34,
   93, 44, 91, 34, 49, 48, 53, 48, 53, 50, 52, 50, 54, 50, 54, 51, 55, 48, 50, 54, 50, 50, 55, 55,
   53, 53, 50, 57, 48, 49, 48, 56, 50, 48, 57, 52, 51, 53, 54, 54, 57, 55, 52, 48, 57, 56, 51, 53,
   54, 56, 48, 50, 50, 48, 53, 57, 48, 57, 55, 49, 56, 55, 51, 49, 55, 49, 49, 52, 48, 51, 55, 49,
   51, 51, 49, 50, 48, 54, 56, 53, 54, 34, 44, 34, 50, 49, 56, 52, 55, 48, 51, 53, 49, 48, 53, 53,
   50, 56, 55, 52, 53, 52, 48, 51, 50, 56, 56, 50, 51, 50, 54, 57, 49, 49, 52, 55, 53, 56, 52, 55,
   50, 56, 49, 57, 49, 49, 54, 50, 55, 51, 50, 50, 57, 57, 56, 54, 53, 51, 51, 56, 51, 55, 55, 49,
   53, 57, 54, 57, 50, 51, 53, 48, 48, 53, 57, 49, 51, 54, 54, 55, 57, 34, 93, 44, 91, 34, 49, 34,
   44, 34, 48, 34, 93, 93, 44, 34, 118, 107, 95, 103, 97, 109, 109, 97, 95, 50, 34, 58, 91, 91, 34,
   49, 48, 56, 53, 55, 48, 52, 54, 57, 57, 57, 48, 50, 51, 48, 53, 55, 49, 51, 53, 57, 52, 52, 53,
   55, 48, 55, 54, 50, 50, 51, 50, 56, 50, 57, 52, 56, 49, 51, 55, 48, 55, 53, 54, 51, 53, 57, 53,
   55, 56, 53, 49, 56, 48, 56, 54, 57, 57, 48, 53, 49, 57, 57, 57, 51, 50, 56, 53, 54, 53, 53, 56,
   53, 50, 55, 56, 49, 34, 44, 34, 49, 49, 53, 53, 57, 55, 51, 50, 48, 51, 50, 57, 56, 54, 51, 56,
   55, 49, 48, 55, 57, 57, 49, 48, 48, 52, 48, 50, 49, 51, 57, 50, 50, 56, 53, 55, 56, 51, 57, 50,
   53, 56, 49, 50, 56, 54, 49, 56, 50, 49, 49, 57, 50, 53, 51, 48, 57, 49, 55, 52, 48, 51, 49, 53,
   49, 52, 53, 50, 51, 57, 49, 56, 48, 53, 54, 51, 52, 34, 93, 44, 91, 34, 56, 52, 57, 53, 54, 53,
   51, 57, 50, 51, 49, 50, 51, 52, 51, 49, 52, 49, 55, 54, 48, 52, 57, 55, 51, 50, 52, 55, 52, 56,
   57, 50, 55, 50, 52, 51, 56, 52, 49, 56, 49, 57, 48, 53, 56, 55, 50, 54, 51, 54, 48, 48, 49, 52,
   56, 55, 55, 48, 50, 56, 48, 54, 52, 57, 51, 48, 54, 57, 53, 56, 49, 48, 49, 57, 51, 48, 34, 44,
   34, 52, 48, 56, 50, 51, 54, 55, 56, 55, 53, 56, 54, 51, 52, 51, 51, 54, 56, 49, 51, 51, 50, 50,
   48, 51, 52, 48, 51, 49, 52, 53, 52, 51, 53, 53, 54, 56, 51, 49, 54, 56, 53, 49, 51, 50, 55, 53,
   57, 51, 52, 48, 49, 50, 48, 56, 49, 48, 53, 55, 52, 49, 48, 55, 54, 50, 49, 52, 49, 50, 48, 48,
   57, 51, 53, 51, 49, 34, 93, 44, 91, 34, 49, 34, 44, 34, 48, 34, 93, 93, 44, 34, 118, 107, 95,
   100, 101, 108, 116, 97, 95, 50, 34, 58, 91, 91, 34, 49, 53, 48, 55, 55, 48, 50, 56, 52, 49, 57,
   53, 50, 51, 56, 48, 50, 50, 49, 56, 48, 54, 56, 56, 48, 48, 55, 49, 49, 55, 54, 53, 56, 57, 50,
   50, 50, 48, 48, 48, 55, 55, 48, 52, 49, 48, 49, 55, 55, 54, 56, 50, 53, 55, 51, 55, 56, 55, 51,
   52, 57, 56, 52, 54, 50, 53, 50, 51, 50, 52, 51, 57, 55, 52, 48, 49, 49, 34, 44, 34, 50, 49, 48,
   51, 53, 52, 51, 50, 57, 52, 50, 54, 51, 51, 48, 50, 51, 53, 54, 51, 53, 54, 56, 54, 52, 57, 51,
   50, 56, 54, 51, 50, 54, 55, 54, 54, 49, 54, 56, 48, 54, 51, 52, 53, 49, 57, 48, 50, 54, 53, 55,
   50, 49, 56, 48, 54, 57, 53, 56, 55, 50, 57, 56, 49, 49, 51, 53, 50, 52, 50, 51, 54, 49, 55, 48,
   55, 56, 34, 93, 44, 91, 34, 49, 57, 53, 53, 55, 49, 50, 55, 48, 54, 51, 55, 55, 54, 54, 54, 55,
   57, 53, 48, 52, 50, 48, 51, 48, 56, 48, 50, 49, 56, 57, 48, 49, 51, 52, 55, 48, 49, 50, 49, 52,
   50, 49, 57, 53, 53, 55, 56, 57, 49, 50, 50, 51, 53, 56, 49, 55, 53, 54, 57, 51, 51, 52, 56, 49,
   50, 56, 55, 52, 55, 57, 53, 54, 54, 54, 51, 51, 34, 44, 34, 56, 52, 54, 56, 55, 55, 56, 48, 56,
   55, 51, 51, 49, 52, 49, 56, 57, 56, 57, 51, 51, 50, 54, 57, 52, 57, 56, 48, 54, 48, 57, 50, 54,
   54, 50, 50, 56, 50, 51, 50, 48, 48, 57, 57, 49, 51, 54, 57, 50, 50, 55, 49, 55, 48, 48, 56, 48,
   48, 51, 50, 51, 48, 50, 48, 50, 50, 52, 57, 55, 56, 57, 51, 49, 56, 54, 34, 93, 44, 91, 34, 49,
   34, 44, 34, 48, 34, 93, 93, 44, 34, 73, 67, 34, 58, 91, 91, 34, 49, 53, 56, 54, 50, 49, 50, 54,
   52, 50, 49, 55, 49, 51, 57, 53, 54, 49, 48, 48, 57, 57, 51, 53, 53, 51, 56, 48, 49, 54, 56, 49,
   51, 56, 53, 56, 48, 55, 48, 55, 49, 50, 53, 49, 57, 50, 51, 50, 48, 50, 48, 57, 54, 48, 53, 55,
   51, 48, 55, 49, 49, 50, 56, 48, 50, 48, 49, 52, 55, 51, 51, 55, 52, 49, 51, 55, 56, 34, 44, 34,
   49, 51, 49, 48, 56, 54, 52, 53, 52, 55, 49, 57, 57, 56, 56, 54, 50, 54, 55, 54, 52, 57, 56, 54,
   54, 48, 52, 57, 57, 57, 54, 51, 57, 53, 48, 54, 53, 53, 48, 56, 57, 49, 53, 55, 52, 48, 53, 48,
   55, 57, 49, 57, 57, 51, 48, 49, 51, 50, 54, 53, 50, 49, 48, 50, 50, 48, 57, 53, 52, 57, 49, 57,
   56, 48, 48, 53, 48, 34, 44, 34, 49, 34, 93, 44, 91, 34, 50, 49, 55, 49, 53, 51, 54, 56, 55, 51,
   52, 49, 49, 54, 50, 48, 57, 56, 55, 55, 57, 49, 55, 55, 51, 55, 52, 55, 50, 57, 56, 56, 53, 53,
   48, 52, 49, 54, 52, 50, 55, 49, 48, 56, 55, 52, 55, 55, 54, 55, 55, 53, 49, 48, 52, 52, 51, 51,
   57, 54, 53, 53, 51, 52, 51, 55, 51, 56, 55, 49, 51, 50, 57, 52, 48, 56, 49, 34, 44, 34, 49, 54,
   56, 57, 57, 54, 56, 48, 49, 53, 49, 48, 51, 50, 48, 50, 48, 49, 51, 55, 51, 49, 54, 50, 53, 51,
   49, 49, 53, 53, 53, 52, 54, 53, 49, 51, 54, 50, 49, 50, 52, 57, 52, 56, 48, 53, 56, 52, 53, 54,
   48, 55, 51, 56, 48, 53, 51, 48, 55, 54, 57, 51, 53, 57, 52, 57, 52, 48, 56, 57, 52, 50, 57, 54,
   55, 51, 55, 34, 44, 34, 49, 34, 93, 44, 91, 34, 49, 53, 50, 54, 50, 57, 57, 48, 54, 51, 56, 54,
   54, 53, 54, 49, 52, 48, 54, 48, 53, 51, 48, 55, 56, 55, 56, 50, 49, 54, 55, 55, 53, 56, 56, 51,
   55, 51, 54, 57, 53, 48, 54, 54, 54, 57, 51, 54, 54, 51, 49, 53, 56, 48, 54, 51, 57, 56, 50, 55,
   53, 57, 50, 49, 56, 52, 56, 54, 56, 57, 51, 56, 55, 55, 54, 54, 55, 34, 44, 34, 50, 52, 50, 48,
   48, 51, 48, 57, 57, 52, 51, 51, 57, 54, 53, 57, 48, 52, 52, 56, 55, 55, 53, 53, 49, 55, 55, 52,
   56, 55, 56, 56, 55, 57, 53, 55, 57, 53, 51, 57, 52, 55, 56, 49, 48, 55, 54, 48, 52, 48, 56, 52,
   57, 50, 56, 55, 55, 53, 57, 50, 48, 50, 56, 56, 52, 49, 56, 52, 52, 53, 55, 52, 56, 56, 57, 51,
   34, 44, 34, 49, 34, 93, 93, 125]

/-- The test key as `UnmarshalCircomVerificationKeyJSON` reads it. -/
def testCircomVKey : CircomVerificationKey where
  protocol := ofAscii "groth16"
  nPublic := 2
  vkAlpha1 := [
    decimal 20491192805390485299153009773594534940189261866228447918068658471970481763042,
    decimal 9383485363053290200918347156157836566562967994039712273449902621266178545958,
    decimal 1]
  vkBeta2 := [
    [decimal 6375614351688725206403948262868962793625744043794305715222011528459656738731,
     decimal 4252822878758300859123897981450591353533073413197771768651442665752259397132],
    [decimal 10505242626370262277552901082094356697409835680220590971873171140371331206856,
     decimal 21847035105528745403288232691147584728191162732299865338377159692350059136679],
    [decimal 1, decimal 0]]
  vkGamma2 := [
    [decimal 10857046999023057135944570762232829481370756359578518086990519993285655852781,
     decimal 11559732032986387107991004021392285783925812861821192530917403151452391805634],
    [decimal 8495653923123431417604973247489272438418190587263600148770280649306958101930,
     decimal 4082367875863433681332203403145435568316851327593401208105741076214120093531],
    [decimal 1, decimal 0]]
  vkDelta2 := [
    [decimal 15077028419523802218068800711765892220007704101776825737873498462523243974011,
     decimal 21035432942633023563568649328632676616806345190265721806958729811352423617078],
    [decimal 19557127063776667950420308021890134701214219557891223581756933481287479566633,
     decimal 846877808733141898933269498060926622823200991369227170080032302022497893186],
    [decimal 1, decimal 0]]
  ic := [
    [decimal 15862126421713956100993553801681385807071251923202096057307112802014733741378,
     decimal 13108645471998862676498660499963950655089157405079199301326521022095491980050,
     decimal 1],
    [decimal 21715368734116209877917737472988550416427108747767751044339655343738713294081,
     decimal 16899680151032020137316253115554651362124948058456073805307693594940894296737,
     decimal 1],
    [decimal 15262990638665614060530787821677588373695066693663158063982759218486893877667,
     decimal 2420030994339659044877551774878879579539478107604084928775920288418445748893,
     decimal 1]]

/-- The external functions as they answer on the test key and the governance account. -/
def testPrimitives : ZkPrimitives where
  accAddress a := if a = govAddress then some a else none
  unmarshalCircomVerificationKeyJSON k := if k = testVKeyBytes then some testCircomVKey else none
  gnarkVKeyValid _ := false
  barretenbergVKeyValid _ _ := false

/-- The default genesis, with the test key's bytes under id 1 in place of the default key's. -/
def emailGenesis : GenesisState :=
  ⟨[⟨1, ⟨testVKeyBytes, defaultVKeyName, ofAscii "ZK email Vkey for AA + ZK email", [], [],
    .unspecified⟩⟩], defaultParams⟩

/-- The store that the email genesis loads. -/
def emailGenesisStore : ZkState :=
  ⟨some defaultParams.withMaxLimitDefaults,
    SortedMap.empty.insert 1 ⟨testVKeyBytes, defaultVKeyName,
      ofAscii "ZK email Vkey for AA + ZK email", [], govAddress, .unspecified⟩,
    2, SortedMap.empty.insert defaultVKeyName 1⟩

/-- The upgrade to v2, an update of the default key by its authority, a new key, and the upgrade
to v3. -/
def emailRun : List ZkEvent :=
  [.migrate1to2, .deliver (.updateVKey govAddress defaultVKeyName testVKeyBytes [] .groth16),
    .deliver (.addVKey govAddress (ofAscii "test") testVKeyBytes [] .groth16), .migrate2to3]

set_option maxRecDepth 16000 in
/-- The integrity theorem on the email genesis and run. -/
theorem email_store_consistent :
    (run testPrimitives govAddress testVKeyBytes emailGenesisStore emailRun).Inv ∧
      ∀ id v, getVKey (run testPrimitives govAddress testVKeyBytes emailGenesisStore emailRun) id =
          some v →
        ∀ es', Allowed (Covered govAddress) (step testPrimitives govAddress testVKeyBytes)
            (run testPrimitives govAddress testVKeyBytes emailGenesisStore emailRun) es' →
          Retains govAddress id v (run testPrimitives govAddress testVKeyBytes
              (run testPrimitives govAddress testVKeyBytes emailGenesisStore emailRun) es') ∧
            (getVKey (run testPrimitives govAddress testVKeyBytes
                (run testPrimitives govAddress testVKeyBytes emailGenesisStore emailRun) es') id =
                some v ∨
              ∃ e ∈ es', e.Manages govAddress id v) :=
  @vkey_store_consistent testPrimitives govAddress testVKeyBytes emailGenesis emailGenesisStore
    (by decide) (by decide) (by decide) emailRun
    ⟨⟨⟨testVKeyBytes, defaultVKeyName, ofAscii "ZK email Vkey for AA + ZK email", [], govAddress,
      .unspecified⟩, by decide, rfl, by decide⟩, trivial,
      by simp only [Covered]; decide, trivial, trivial⟩

/-- The v1 to v2 migration on the store that an empty genesis loads stores the default key under
id 1 with no index entry for its name, and leaves the sequence at zero, below the key's id. -/
theorem migrate1to2_unindexed :
    GenesisState.validate testPrimitives ⟨[], defaultParams⟩ = .ok () ∧
      ∃ s₀, initGenesis testPrimitives govAddress .empty ⟨[], defaultParams⟩ = .ok s₀ ∧
        getVKey (step testPrimitives govAddress testVKeyBytes s₀ .migrate1to2) 1 =
          some (defaultVKey testVKeyBytes) ∧
        getVKeyID (step testPrimitives govAddress testVKeyBytes s₀ .migrate1to2) defaultVKeyName =
          none ∧
        (step testPrimitives govAddress testVKeyBytes s₀ .migrate1to2).nextVKeyID = 0 :=
  ⟨rfl, _, rfl, rfl, rfl, rfl⟩

/-- The default parameters with a limit of 100 bytes per key, below the test key's size. -/
def smallKeyParams : Params := { defaultParams with maxVkeySizeBytes := 100 }

set_option maxRecDepth 16000 in
/-- The email genesis store after the authority lowers the key size limit: its export names the
stored key under the new limit, which `GenesisState.Validate` rejects. The same store after the
v1 to v2 migration exports a genesis that validates, but importing it gives the default key the
module's authority, where the store holds it with none. -/
theorem zk_export_not_reimported :
    initGenesis testPrimitives govAddress .empty emailGenesis = .ok emailGenesisStore ∧
      (∃ gs, exportGenesis (step testPrimitives govAddress testVKeyBytes emailGenesisStore
          (.deliver (.updateParams govAddress smallKeyParams))) = .ok gs ∧
        gs.validate testPrimitives = .error .vkeyTooLarge) ∧
      ∃ gs s', exportGenesis (step testPrimitives govAddress testVKeyBytes emailGenesisStore
          .migrate1to2) = .ok gs ∧ gs.validate testPrimitives = .ok () ∧
        initGenesis testPrimitives govAddress .empty gs = .ok s' ∧
        s' ≠ step testPrimitives govAddress testVKeyBytes emailGenesisStore .migrate1to2 := by
  -- the migrated store exports the default key without an authority, and importing it loads the
  -- email genesis store, where the key has the module's authority
  refine ⟨by decide, ⟨_, rfl, by decide⟩,
    ⟨⟨[⟨1, defaultVKey testVKeyBytes⟩], defaultParams.withMaxLimitDefaults⟩, emailGenesisStore, ?_,
      ?_, ?_, ?_⟩⟩
  · decide
  · decide
  · decide
  · decide

end Xion.Zk
