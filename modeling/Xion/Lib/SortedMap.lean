import Mathlib.Data.List.Pairwise
import Mathlib.Order.Basic
import Mathlib.Order.Lattice

/-!
# Finite maps as sorted association lists

A key-value store as its iterator returns it: a list of entries whose keys increase strictly.
`SortedMap` carries that order as a field, so a map whose entries repeat a key, or come out of
order, cannot be built. `get?`, `insert`, and `erase` are the store's `Get`, `Set`, and `Remove`;
`entries` is a full iteration and `ofList` a sequence of `Set`s from the empty store.

The lemmas say what each operation does to `get?` (`get?_insert`, `get?_erase`), and that a map
is determined by its `get?` (`ext`), which is what turns per-key reasoning into equalities of
stores. `get?_insertAll` and `ofList_entries` give the round trip through a full iteration.
-/

/-- A finite map from `κ` to `ν` whose entries are listed with strictly increasing keys. -/
structure SortedMap (κ : Type) (ν : Type) [LinearOrder κ] where
  /-- The entries in increasing order of their keys. -/
  entries : List (κ × ν)
  /-- The keys increase strictly along the list. -/
  sorted : entries.Pairwise (fun a b => a.1 < b.1)

namespace SortedMap

variable {κ ν : Type} [LinearOrder κ]

/-! ## Operations on lists of entries -/

/-- The value of the first entry for `k`. -/
def lookup (k : κ) : List (κ × ν) → Option ν
  | [] => none
  | e :: es => if e.1 = k then some e.2 else lookup k es

/-- Put `(k, v)` before the first entry whose key is not below `k`, replacing an entry for `k`. -/
def insertEntry (k : κ) (v : ν) : List (κ × ν) → List (κ × ν)
  | [] => [(k, v)]
  | e :: es =>
    if k < e.1 then (k, v) :: e :: es
    else if k = e.1 then (k, v) :: es
    else e :: insertEntry k v es

theorem lookup_nil (k : κ) : lookup k ([] : List (κ × ν)) = none := rfl

theorem lookup_cons (k : κ) (e : κ × ν) (es : List (κ × ν)) :
    lookup k (e :: es) = if e.1 = k then some e.2 else lookup k es := rfl

theorem insertEntry_nil (k : κ) (v : ν) : insertEntry k v [] = [(k, v)] := rfl

theorem insertEntry_cons (k : κ) (v : ν) (e : κ × ν) (es : List (κ × ν)) :
    insertEntry k v (e :: es) =
      if k < e.1 then (k, v) :: e :: es
      else if k = e.1 then (k, v) :: es
      else e :: insertEntry k v es := rfl

/-- Looking up the inserted key finds the new value; other keys are unaffected. Sortedness is
not needed: every entry before the insertion point has a smaller key. -/
theorem lookup_insertEntry (k q : κ) (v : ν) (l : List (κ × ν)) :
    lookup q (insertEntry k v l) = if k = q then some v else lookup q l := by
  induction l with
  | nil => simp [insertEntry_nil, lookup_nil, lookup_cons]
  | cons e es ih =>
    by_cases hlt : k < e.1
    · simp only [insertEntry_cons, if_pos hlt, lookup_cons]
    · by_cases heq : k = e.1
      · subst heq
        simp only [insertEntry_cons, lt_irrefl, if_false, if_true, lookup_cons]
        by_cases hq : e.1 = q <;> simp [hq]
      · simp only [insertEntry_cons, if_neg hlt, if_neg heq, lookup_cons, ih]
        -- The head entry is not for `k`, so it answers `q` on both sides or on neither.
        by_cases hq : e.1 = q
        · subst hq
          simp [heq]
        · simp [hq]

/-- Every entry of an insertion is the new one or an old one. -/
theorem mem_insertEntry {k : κ} {v : ν} {l : List (κ × ν)} {x : κ × ν}
    (h : x ∈ insertEntry k v l) : x = (k, v) ∨ x ∈ l := by
  induction l with
  | nil => simpa [insertEntry_nil, insertEntry_cons] using h
  | cons e es ih =>
    simp only [insertEntry_cons] at h
    split_ifs at h
    · simpa using h
    · rcases List.mem_cons.mp h with h | h
      · exact .inl h
      · exact .inr (List.mem_cons_of_mem _ h)
    · rcases List.mem_cons.mp h with h | h
      · exact .inr (h ▸ List.mem_cons_self)
      · rcases ih h with h | h
        · exact .inl h
        · exact .inr (List.mem_cons_of_mem _ h)

/-- Insertion keeps the keys strictly increasing. -/
theorem sorted_insertEntry (k : κ) (v : ν) :
    ∀ {l : List (κ × ν)}, l.Pairwise (fun a b => a.1 < b.1) →
      (insertEntry k v l).Pairwise (fun a b => a.1 < b.1)
  | [], _ => by simp [insertEntry_nil]
  | e :: es, h => by
    obtain ⟨hhead, htail⟩ := List.pairwise_cons.mp h
    simp only [insertEntry_cons]
    split_ifs with hlt heq
    · refine List.Pairwise.cons (fun x hx => ?_) h
      rcases List.mem_cons.mp hx with rfl | hx
      · exact hlt
      · exact lt_trans hlt (hhead x hx)
    · subst heq
      exact List.Pairwise.cons hhead htail
    · have hgt : e.1 < k := lt_of_le_of_ne (not_lt.mp hlt) (Ne.symm heq)
      refine List.Pairwise.cons (fun x hx => ?_) (sorted_insertEntry k v htail)
      rcases mem_insertEntry hx with rfl | hx
      · exact hgt
      · exact hhead x hx

/-- Looking up a key in the entries without `k`. -/
theorem lookup_filter_ne (k q : κ) (l : List (κ × ν)) :
    lookup q (l.filter fun e => e.1 ≠ k) = if q = k then none else lookup q l := by
  induction l with
  | nil => simp [lookup_nil]
  | cons e es ih =>
    by_cases hk : e.1 = k
    · rw [List.filter_cons_of_neg (by simpa using hk), ih]
      by_cases hq : q = k
      · simp [hq]
      · have hne : e.1 ≠ q := fun h => hq (h ▸ hk)
        simp only [if_neg hq, lookup_cons, if_neg hne]
    · rw [List.filter_cons_of_pos (by simpa using hk)]
      simp only [lookup_cons, ih]
      by_cases hq : e.1 = q
      · subst hq
        simp [hk]
      · simp [hq]

/-- In a list whose keys are distinct, an entry is found by looking up its key. -/
theorem lookup_eq_some_iff_of_nodup {l : List (κ × ν)} (hd : (l.map Prod.fst).Nodup)
    (k : κ) (v : ν) : lookup k l = some v ↔ (k, v) ∈ l := by
  induction l with
  | nil => simp [lookup_nil]
  | cons e es ih =>
    rw [List.map_cons, List.nodup_cons] at hd
    obtain ⟨hhead, htail⟩ := hd
    simp only [lookup_cons, List.mem_cons]
    by_cases he : e.1 = k
    · -- The head is the only entry for `k`: no key of the tail repeats it.
      have hnot : (k, v) ∉ es := fun hx => hhead (he ▸ List.mem_map_of_mem hx)
      obtain ⟨k', v'⟩ := e
      simp only at he
      subst he
      simp [hnot, eq_comm]
    · rw [if_neg he, ih htail]
      constructor
      · exact .inr
      · rintro (rfl | h)
        · exact absurd rfl he
        · exact h

/-- The keys of a list with strictly increasing keys are distinct. -/
theorem nodup_keys {l : List (κ × ν)} (hs : l.Pairwise (fun a b => a.1 < b.1)) :
    (l.map Prod.fst).Nodup :=
  List.pairwise_map.2 (hs.imp ne_of_lt)

/-- In a list with strictly increasing keys, an entry is found by looking up its key. -/
theorem lookup_eq_some_iff {l : List (κ × ν)} (hs : l.Pairwise (fun a b => a.1 < b.1))
    (k : κ) (v : ν) : lookup k l = some v ↔ (k, v) ∈ l :=
  lookup_eq_some_iff_of_nodup (nodup_keys hs) k v

/-- Lookups in a list with distinct keys do not depend on the order of its entries. -/
theorem lookup_perm {l₁ l₂ : List (κ × ν)} (hp : l₁.Perm l₂) (hd : (l₁.map Prod.fst).Nodup)
    (k : κ) : lookup k l₁ = lookup k l₂ := by
  have hd₂ : (l₂.map Prod.fst).Nodup := (hp.map Prod.fst).nodup_iff.1 hd
  ext v
  rw [lookup_eq_some_iff_of_nodup hd, lookup_eq_some_iff_of_nodup hd₂]
  exact hp.mem_iff

theorem lookup_eq_none {k : κ} {l : List (κ × ν)} (h : ∀ e ∈ l, e.1 ≠ k) : lookup k l = none := by
  induction l with
  | nil => rfl
  | cons e es ih =>
    rw [lookup_cons, if_neg (h e List.mem_cons_self)]
    exact ih fun e' he' => h e' (List.mem_cons_of_mem e he')

/-- A key below the first key of a sorted list has no entry in it. -/
theorem lookup_cons_eq_none_of_lt {k : κ} {e : κ × ν} {es : List (κ × ν)}
    (hh : ∀ x ∈ es, e.1 < x.1) (hk : k < e.1) : lookup k (e :: es) = none :=
  lookup_eq_none fun x hx => by
    rcases List.mem_cons.1 hx with rfl | hx
    · exact hk.ne'
    · exact (lt_trans hk (hh x hx)).ne'

/-- Two lists with strictly increasing keys and the same lookups are equal. -/
theorem eq_of_lookup_eq :
    ∀ {l₁ l₂ : List (κ × ν)}, l₁.Pairwise (fun a b => a.1 < b.1) →
      l₂.Pairwise (fun a b => a.1 < b.1) → (∀ k, lookup k l₁ = lookup k l₂) → l₁ = l₂
  | [], [], _, _, _ => rfl
  | [], e :: _, _, _, h => by simpa [lookup_nil, lookup_cons] using (h e.1).symm
  | e :: _, [], _, _, h => by simpa [lookup_nil, lookup_cons] using h e.1
  | e₁ :: es₁, e₂ :: es₂, h₁, h₂, h => by
    obtain ⟨hh₁, ht₁⟩ := List.pairwise_cons.mp h₁
    obtain ⟨hh₂, ht₂⟩ := List.pairwise_cons.mp h₂
    -- The smaller of the two head keys would be missing from the other list.
    have hkey : e₁.1 = e₂.1 := by
      by_contra hne
      rcases lt_or_gt_of_ne hne with hlt | hlt
      · have h₁₂ := h e₁.1
        rw [lookup_cons_eq_none_of_lt hh₂ hlt] at h₁₂
        simp [lookup_cons] at h₁₂
      · have h₂₁ := h e₂.1
        rw [lookup_cons_eq_none_of_lt hh₁ hlt] at h₂₁
        simp [lookup_cons] at h₂₁
    have hval : e₁.2 = e₂.2 := by
      have := h e₁.1
      simp only [lookup_cons, if_true, hkey] at this
      exact Option.some.inj this
    have htails : es₁ = es₂ := by
      refine eq_of_lookup_eq ht₁ ht₂ fun k => ?_
      by_cases hk : e₁.1 = k
      · -- Neither tail has an entry for the head's key.
        subst hk
        have hn₂ : ∀ x ∈ es₂, x.1 ≠ e₁.1 := fun x hx => by
          rw [hkey]
          exact (hh₂ x hx).ne'
        rw [lookup_eq_none fun x hx => (hh₁ x hx).ne', lookup_eq_none hn₂]
      · have := h k
        simpa [lookup_nil, lookup_cons, hk, hkey ▸ hk] using this
    rw [Prod.ext hkey hval, htails]

/-- Two lists with strictly increasing keys and the same entries are equal. -/
theorem eq_of_mem_iff {l₁ l₂ : List (κ × ν)} (h₁ : l₁.Pairwise (fun a b => a.1 < b.1))
    (h₂ : l₂.Pairwise (fun a b => a.1 < b.1)) (h : ∀ e, e ∈ l₁ ↔ e ∈ l₂) : l₁ = l₂ :=
  eq_of_lookup_eq h₁ h₂ fun k => Option.ext fun v => by
    rw [lookup_eq_some_iff h₁, lookup_eq_some_iff h₂, h]

/-! ## The map operations -/

/-- The empty store. -/
def empty : SortedMap κ ν := ⟨[], .nil⟩

/-- `Get`: the value stored under `k`. -/
def get? (m : SortedMap κ ν) (k : κ) : Option ν := lookup k m.entries

/-- `Set`: store `v` under `k`, replacing a previous value. -/
def insert (m : SortedMap κ ν) (k : κ) (v : ν) : SortedMap κ ν :=
  ⟨insertEntry k v m.entries, sorted_insertEntry k v m.sorted⟩

/-- `Remove`: delete the entry for `k`, if there is one. -/
def erase (m : SortedMap κ ν) (k : κ) : SortedMap κ ν :=
  ⟨m.entries.filter fun e => e.1 ≠ k, m.sorted.filter _⟩

/-- `Has`: whether an entry for `k` is stored. -/
def contains (m : SortedMap κ ν) (k : κ) : Bool := (m.get? k).isSome

/-- The stores of a sequence of `Set`s from `m`, in list order. -/
def insertAll (m : SortedMap κ ν) (l : List (κ × ν)) : SortedMap κ ν :=
  l.foldl (fun m e => m.insert e.1 e.2) m

/-- The store of a sequence of `Set`s from the empty store. -/
def ofList (l : List (κ × ν)) : SortedMap κ ν := empty.insertAll l

instance [DecidableEq κ] [DecidableEq ν] : DecidableEq (SortedMap κ ν) := fun a b =>
  decidable_of_iff (a.entries = b.entries) (by
    obtain ⟨ea, sa⟩ := a
    obtain ⟨eb, sb⟩ := b
    simp)

@[simp]
theorem get?_empty (k : κ) : (empty : SortedMap κ ν).get? k = none := rfl

@[simp]
theorem get?_insert (m : SortedMap κ ν) (k q : κ) (v : ν) :
    (m.insert k v).get? q = if k = q then some v else m.get? q :=
  lookup_insertEntry k q v m.entries

@[simp]
theorem get?_erase (m : SortedMap κ ν) (k q : κ) :
    (m.erase k).get? q = if q = k then none else m.get? q :=
  lookup_filter_ne k q m.entries

@[simp]
theorem contains_iff (m : SortedMap κ ν) (k : κ) :
    m.contains k = true ↔ ∃ v, m.get? k = some v := by
  simp [contains, Option.isSome_iff_exists]

/-- An entry of the store is what `get?` returns for its key. -/
theorem mem_entries_iff (m : SortedMap κ ν) (k : κ) (v : ν) :
    (k, v) ∈ m.entries ↔ m.get? k = some v :=
  (lookup_eq_some_iff m.sorted k v).symm

/-- A store is determined by what `get?` returns. -/
theorem ext {m₁ m₂ : SortedMap κ ν} (h : ∀ k, m₁.get? k = m₂.get? k) : m₁ = m₂ := by
  obtain ⟨e₁, s₁⟩ := m₁
  obtain ⟨e₂, s₂⟩ := m₂
  have : e₁ = e₂ := eq_of_lookup_eq s₁ s₂ h
  subst this
  rfl

/-- Setting a key after removing it is setting it. -/
@[simp]
theorem insert_erase_self (m : SortedMap κ ν) (k : κ) (v : ν) :
    (m.erase k).insert k v = m.insert k v :=
  ext fun q => by
    rw [get?_insert, get?_insert, get?_erase]
    by_cases h : k = q
    · rw [if_pos h, if_pos h]
    · rw [if_neg h, if_neg h, if_neg (Ne.symm h)]

/-- A sequence of `Set`s whose keys are distinct stores each of its values and leaves every other
key as it was. -/
theorem get?_insertAll (m : SortedMap κ ν) {l : List (κ × ν)} (hl : (l.map Prod.fst).Nodup)
    (k : κ) : (m.insertAll l).get? k = (lookup k l).or (m.get? k) := by
  induction l generalizing m with
  | nil => simp [insertAll, lookup_nil]
  | cons e es ih =>
    obtain ⟨hnotin, hnd⟩ := List.nodup_cons.mp hl
    have hrest : (m.insert e.1 e.2).insertAll es = m.insertAll (e :: es) := rfl
    rw [← hrest, ih _ hnd, get?_insert]
    by_cases hk : e.1 = k
    · -- The later entries have other keys, so the value set by `e` stays.
      have hnone : lookup k es = none := by
        rw [Option.eq_none_iff_forall_ne_some]
        intro v hv
        obtain ⟨x, hx, hxk⟩ : ∃ x ∈ es, x.1 = k := by
          clear ih hrest hnotin hnd hl
          induction es with
          | nil => simp [lookup_nil] at hv
          | cons y ys ihy =>
            simp only [lookup_cons] at hv
            split_ifs at hv with hy
            · exact ⟨y, List.mem_cons_self, hy⟩
            · obtain ⟨x, hx, hxk⟩ := ihy hv
              exact ⟨x, List.mem_cons_of_mem _ hx, hxk⟩
        exact hnotin (hk ▸ hxk ▸ List.mem_map_of_mem hx)
      simp [hnone, lookup_cons, hk]
    · simp [lookup_cons, hk]

/-- Replaying a full iteration of a store into the empty store gives it back. -/
theorem ofList_entries (m : SortedMap κ ν) : ofList m.entries = m := by
  have hnd : (m.entries.map Prod.fst).Nodup := by
    have := m.sorted
    rw [List.nodup_iff_pairwise_ne, List.pairwise_map]
    exact this.imp fun h => ne_of_lt h
  refine ext fun k => ?_
  rw [ofList, get?_insertAll _ hnd]
  simp [get?, empty, lookup_nil]

end SortedMap
