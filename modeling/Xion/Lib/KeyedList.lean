import Xion.Lib.Run
import Mathlib.Data.List.Sort
import Mathlib.Algebra.BigOperators.Group.List.Basic

/-!
# Lists of keyed entries

A list of entries of a key and a value, as a set of coins lists its denominations with their
amounts. `sortByKey` orders the entries by key (stably); `total l k` is the sum of the values
listed under `k`, the amount a list holds of `k` whatever its order and however often `k` is
listed.

A list whose keys are distinct comes out of `sortByKey` with strictly increasing keys
(`sortByKey_strict`), the same whatever order it came in (`sortByKey_eq_of_perm`); on a list with
strictly increasing keys, `total` reads the one value listed under a key (`total_of_mem`), and the
entries under a key are that one entry or none (`filter_key_of_strict`).
-/

namespace KeyedList

variable {κ ν : Type}

section Sorting

variable [LinearOrder κ]

/-- Entries ordered by key. -/
def KeyLE (a b : κ × ν) : Prop := a.1 ≤ b.1

instance : DecidableRel (KeyLE (κ := κ) (ν := ν)) :=
  fun a b => inferInstanceAs (Decidable (a.1 ≤ b.1))

instance : Std.Total (KeyLE (κ := κ) (ν := ν)) := ⟨fun a b => le_total a.1 b.1⟩

instance : IsTrans (κ × ν) KeyLE := ⟨fun _ _ _ h₁ h₂ => le_trans h₁ h₂⟩

/-- The entries sorted by key, entries of equal keys in their order. -/
def sortByKey (l : List (κ × ν)) : List (κ × ν) := l.insertionSort KeyLE

theorem perm_sortByKey (l : List (κ × ν)) : (sortByKey l).Perm l :=
  List.perm_insertionSort KeyLE l

theorem mem_sortByKey {l : List (κ × ν)} {x : κ × ν} : x ∈ sortByKey l ↔ x ∈ l :=
  (perm_sortByKey l).mem_iff

/-- A list already sorted by key is its own sort. -/
theorem sortByKey_eq_self {l : List (κ × ν)} (h : l.Pairwise fun a b => a.1 < b.1) :
    sortByKey l = l :=
  List.Pairwise.insertionSort_eq (h.imp fun hab => le_of_lt hab)

/-- A list with distinct keys, sorted, has strictly increasing keys. -/
theorem sortByKey_strict {l : List (κ × ν)} (hd : (l.map Prod.fst).Nodup) :
    (sortByKey l).Pairwise fun a b => a.1 < b.1 := by
  have hsorted : (sortByKey l).Pairwise KeyLE := List.pairwise_insertionSort KeyLE l
  have hne : (sortByKey l).Pairwise fun a b => a.1 ≠ b.1 :=
    List.pairwise_map.1 (((perm_sortByKey l).map Prod.fst).nodup_iff.2 hd)
  exact (hsorted.and hne).imp fun h => lt_of_le_of_ne h.1 h.2

/-- Sorting by key forgets the order of a list whose keys are distinct: two orderings of it sort
to the same list, since a list with strictly increasing keys is fixed by its entries. -/
theorem sortByKey_eq_of_perm {l₁ l₂ : List (κ × ν)} (hp : l₁.Perm l₂)
    (hd : (l₁.map Prod.fst).Nodup) : sortByKey l₁ = sortByKey l₂ := by
  have hd₂ : (l₂.map Prod.fst).Nodup := (hp.map Prod.fst).nodup_iff.1 hd
  have hperm : (sortByKey l₁).Perm (sortByKey l₂) :=
    (perm_sortByKey l₁).trans (hp.trans (perm_sortByKey l₂).symm)
  exact List.Perm.eq_of_pairwise (fun _ _ _ _ hab hba => absurd (hab.trans hba) (lt_irrefl _))
    (sortByKey_strict hd) (sortByKey_strict hd₂) hperm

end Sorting

section Total

variable [DecidableEq κ] [AddCommMonoid ν]

/-- The sum of the values listed under `k`. -/
def total (l : List (κ × ν)) (k : κ) : ν := ((l.filter fun e => e.1 = k).map Prod.snd).sum

@[simp]
theorem total_nil (k : κ) : total ([] : List (κ × ν)) k = 0 := rfl

theorem total_cons (e : κ × ν) (l : List (κ × ν)) (k : κ) :
    total (e :: l) k = if e.1 = k then e.2 + total l k else total l k := by
  by_cases h : e.1 = k <;> simp [total, h]

theorem total_singleton (e : κ × ν) (k : κ) : total [e] k = if e.1 = k then e.2 else 0 := by
  rw [total_cons, total_nil, add_zero]

/-- Entries of value zero add nothing. -/
theorem total_filter_ne_zero [DecidableEq ν] (l : List (κ × ν)) (k : κ) :
    total (l.filter fun e => e.2 ≠ 0) k = total l k := by
  induction l with
  | nil => rfl
  | cons e es ih =>
    by_cases he : e.2 = 0
    · rw [List.filter_cons_of_neg (by simpa using he), ih, total_cons]
      split <;> simp [he]
    · rw [List.filter_cons_of_pos (by simpa using he), total_cons, total_cons, ih]

/-- A key that is not listed has total zero. -/
theorem total_eq_zero {l : List (κ × ν)} {k : κ} (h : k ∉ l.map Prod.fst) : total l k = 0 := by
  have hnil : (l.filter fun e => e.1 = k) = [] :=
    List.filter_eq_nil_iff.2 fun e he hk => h (List.mem_map.2 ⟨e, he, by simpa using hk⟩)
  simp [total, hnil]

/-- With each key listed once, mapping the values maps the totals, for a map that keeps zero. -/
theorem total_map_snd {ν' : Type} [AddCommMonoid ν'] {g : ν → ν'} (hg : g 0 = 0) :
    ∀ {l : List (κ × ν)}, (l.map Prod.fst).Nodup → ∀ k,
      total (l.map fun e => (e.1, g e.2)) k = g (total l k)
  | [], _, k => by simp [hg]
  | e :: es, hnd, k => by
    rw [List.map_cons, List.nodup_cons] at hnd
    rw [List.map_cons, total_cons, total_cons, total_map_snd hg hnd.2]
    by_cases he : e.1 = k
    · -- The only entry under `k` is `e`.
      rw [if_pos he, if_pos he, ← he, total_eq_zero hnd.1, hg, add_zero, add_zero]
    · rw [if_neg he, if_neg he]

end Total

section Strict

variable [LinearOrder κ] [DecidableEq κ] [AddCommMonoid ν]

/-- With strictly increasing keys, the entries under a key are the one listed, or none. -/
theorem filter_key_of_strict {l : List (κ × ν)} (hl : l.Pairwise fun a b => a.1 < b.1) (k : κ) :
    (l.filter fun e => e.1 = k) = if k ∈ l.map Prod.fst then [(k, total l k)] else [] := by
  induction l with
  | nil => simp
  | cons e es ih =>
    obtain ⟨hhead, htail⟩ := List.pairwise_cons.1 hl
    by_cases he : e.1 = k
    · -- The head is the entry under `k`; the tail's keys are all above it.
      have hnot : k ∉ es.map Prod.fst := fun hk => by
        obtain ⟨x, hx, rfl⟩ := List.mem_map.1 hk
        exact lt_irrefl _ (he ▸ hhead x hx)
      rw [List.filter_cons_of_pos (by simpa using he), ih htail, if_neg hnot, total_cons, if_pos he,
        total_eq_zero hnot, add_zero, if_pos (List.mem_map.2 ⟨e, List.mem_cons_self, he⟩)]
      obtain ⟨k', v⟩ := e
      simp only at he
      rw [he]
    · have hiff : k ∈ (e :: es).map Prod.fst ↔ k ∈ es.map Prod.fst := by
        rw [List.map_cons, List.mem_cons]
        exact or_iff_right fun h => he h.symm
      rw [List.filter_cons_of_neg (by simpa using he), ih htail, total_cons, if_neg he]
      simp only [hiff]

/-- With strictly increasing keys, the total of a key is the value listed under it. -/
theorem total_of_mem {l : List (κ × ν)} (hl : l.Pairwise fun a b => a.1 < b.1) {k : κ} {v : ν}
    (h : (k, v) ∈ l) : total l k = v := by
  have hk : k ∈ l.map Prod.fst := List.mem_map.2 ⟨(k, v), h, rfl⟩
  have hmem : (k, v) ∈ l.filter fun e => e.1 = k := List.mem_filter.2 ⟨h, by simp⟩
  rw [filter_key_of_strict hl, if_pos hk, List.mem_singleton] at hmem
  exact (Prod.ext_iff.1 hmem).2.symm

/-- With strictly increasing keys, a listed key is listed with its total. -/
theorem mem_of_mem_keys {l : List (κ × ν)} (hl : l.Pairwise fun a b => a.1 < b.1) {k : κ}
    (hk : k ∈ l.map Prod.fst) : (k, total l k) ∈ l := by
  have hmem : (k, total l k) ∈ l.filter fun e => e.1 = k := by
    rw [filter_key_of_strict hl, if_pos hk]
    exact List.mem_singleton_self _
  exact (List.mem_filter.1 hmem).1

end Strict

end KeyedList
