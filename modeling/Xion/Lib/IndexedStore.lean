import Xion.Lib.SortedMap

/-!
# A store with a secondary index

A map of entries under primary keys, kept together with an index: a set of index keys, each
computed from a primary key by a partial function `indexKeyOf`. `set` stores an entry and adds
its index key, `remove` deletes both. `Consistent` says the index holds exactly the index keys of
the stored entries: every index key leads to an entry (sound) and every entry is indexed
(complete). `set` keeps the index consistent (`Consistent.set`), and so does `remove` when index
keys determine primary keys (`Injective`, `Consistent.remove`): every store built by them from the
empty one is consistent.
-/

/-- A primary map and the set of keys of its index. -/
structure IndexedStore (κ ι ν : Type) [LinearOrder κ] [LinearOrder ι] where
  /-- The entries, under their primary keys. -/
  primary : SortedMap κ ν
  /-- The index keys. -/
  index : SortedMap ι Unit

namespace IndexedStore

variable {κ ι ν : Type} [LinearOrder κ] [LinearOrder ι]

/-- The empty store. -/
def empty : IndexedStore κ ι ν := ⟨.empty, .empty⟩

/-- Store `v` under `pk` and add the index key `ik`. -/
def set (s : IndexedStore κ ι ν) (pk : κ) (ik : ι) (v : ν) : IndexedStore κ ι ν :=
  ⟨s.primary.insert pk v, s.index.insert ik ()⟩

/-- Delete the entry under `pk` and the index key `ik`. -/
def remove (s : IndexedStore κ ι ν) (pk : κ) (ik : ι) : IndexedStore κ ι ν :=
  ⟨s.primary.erase pk, s.index.erase ik⟩

@[simp]
theorem set_primary (s : IndexedStore κ ι ν) (pk : κ) (ik : ι) (v : ν) :
    (s.set pk ik v).primary = s.primary.insert pk v := rfl

@[simp]
theorem remove_primary (s : IndexedStore κ ι ν) (pk : κ) (ik : ι) :
    (s.remove pk ik).primary = s.primary.erase pk := rfl

section Consistency

variable (indexKeyOf : κ → Option ι)

/-- The index holds exactly the index keys of the stored entries. -/
def Consistent (s : IndexedStore κ ι ν) : Prop :=
  ∀ i, (∃ u, s.index.get? i = some u) ↔ ∃ pk v, s.primary.get? pk = some v ∧ indexKeyOf pk = some i

/-- An index key belongs to one primary key only. -/
def Injective : Prop :=
  ∀ pk pk' i, indexKeyOf pk = some i → indexKeyOf pk' = some i → pk = pk'

variable {indexKeyOf}

theorem consistent_empty : Consistent indexKeyOf (empty : IndexedStore κ ι ν) := by
  intro i
  simp [empty]

omit [LinearOrder κ] [LinearOrder ι] in
/-- Primary keys with different index keys are different. -/
theorem ne_of_indexKeyOf {pk pk' : κ} {i i' : ι} (h : indexKeyOf pk = some i)
    (h' : indexKeyOf pk' = some i') (hi : i ≠ i') : pk ≠ pk' := by
  rintro rfl
  exact hi (Option.some.inj (h.symm.trans h'))

/-- Storing an entry with its index key keeps the index consistent. -/
theorem Consistent.set {s : IndexedStore κ ι ν} (hc : Consistent indexKeyOf s) {pk : κ} {ik : ι}
    (hik : indexKeyOf pk = some ik) (v : ν) :
    Consistent indexKeyOf (s.set pk ik v) := by
  intro i
  simp only [IndexedStore.set, SortedMap.get?_insert]
  by_cases hi : ik = i
  · subst hi
    simp only [if_pos]
    refine ⟨fun _ => ⟨pk, v, by simp, hik⟩, fun _ => ?_⟩
    simp
  · -- The new entry's index key is not `i`, so `i` is indexed as before.
    simp only [if_neg hi]
    rw [hc i]
    constructor
    · rintro ⟨pk', v', hget, hkey⟩
      exact ⟨pk', v', by rw [if_neg (ne_of_indexKeyOf hik hkey hi)]; exact hget, hkey⟩
    · rintro ⟨pk', v', hget, hkey⟩
      rw [if_neg (ne_of_indexKeyOf hik hkey hi)] at hget
      exact ⟨pk', v', hget, hkey⟩

/-- Removing an entry with its index key keeps the index consistent. -/
theorem Consistent.remove {s : IndexedStore κ ι ν} (hc : Consistent indexKeyOf s)
    (hinj : Injective indexKeyOf) {pk : κ} {ik : ι} (hik : indexKeyOf pk = some ik) :
    Consistent indexKeyOf (s.remove pk ik) := by
  intro i
  simp only [IndexedStore.remove, SortedMap.get?_erase]
  by_cases hi : i = ik
  · -- Only `pk` has index key `ik`, and it is gone.
    subst hi
    simp only [if_pos]
    constructor
    · rintro ⟨_, h⟩
      cases h
    rintro ⟨pk', v', hget, hkey⟩
    have heq : pk' = pk := hinj pk' pk i hkey hik
    rw [if_pos heq] at hget
    cases hget
  · simp only [if_neg hi]
    rw [hc i]
    constructor
    · rintro ⟨pk', v', hget, hkey⟩
      exact ⟨pk', v', by rw [if_neg (ne_of_indexKeyOf hkey hik hi)]; exact hget, hkey⟩
    · rintro ⟨pk', v', hget, hkey⟩
      rw [if_neg (ne_of_indexKeyOf hkey hik hi)] at hget
      exact ⟨pk', v', hget, hkey⟩

/-- In a consistent store every index key leads to a stored entry. -/
theorem Consistent.exists_of_index {s : IndexedStore κ ι ν} (hc : Consistent indexKeyOf s)
    {i : ι} {u : Unit} (hi : s.index.get? i = some u) :
    ∃ pk v, s.primary.get? pk = some v ∧ indexKeyOf pk = some i :=
  (hc i).1 ⟨u, hi⟩

end Consistency

end IndexedStore
