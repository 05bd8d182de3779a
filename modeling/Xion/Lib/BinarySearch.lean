import Xion.Lib.SortedMap
import Mathlib.Data.List.TakeDrop

/-!
# Binary search in a sorted association list

The search of Go's sorted collections: compare the key with the middle entry's, and search the
entries before or after it; a list of one entry is checked directly. `find` runs it with the
list's length as the bound on halvings.

On a list whose keys increase strictly the search finds exactly the entry that `lookup` finds
(`find_eq_lookup`). On any list it finds only entries of the list under the key searched for
(`find_mem`), and changing the values of the entries changes only the values it finds
(`find_map_snd`): the path of the search reads the keys alone.
-/

namespace BinarySearch

open SortedMap

/-! ## Halving a list -/

section Halves

variable {α : Type}

/-- A list of two entries or more has a middle entry. -/
theorem exists_middle {l : List α} (h : 2 ≤ l.length) : ∃ c, l[l.length / 2]? = some c :=
  ⟨l[l.length / 2], List.getElem?_eq_getElem (by omega)⟩

/-- A list is its entries before the middle one, the middle one, and those after it. -/
theorem split_middle {l : List α} {c : α} (hc : l[l.length / 2]? = some c) :
    l = l.take (l.length / 2) ++ c :: l.drop (l.length / 2 + 1) := by
  obtain ⟨hlt, hget⟩ := List.getElem?_eq_some_iff.1 hc
  calc l = l.take (l.length / 2) ++ l.drop (l.length / 2) := (List.take_append_drop _ _).symm
    _ = l.take (l.length / 2) ++ c :: l.drop (l.length / 2 + 1) := by
      rw [List.drop_eq_getElem_cons hlt, hget]

/-- The halves around the middle entry are shorter than the list. -/
theorem length_halves_lt {l : List α} (h : 2 ≤ l.length) :
    (l.take (l.length / 2)).length < l.length ∧ (l.drop (l.length / 2 + 1)).length < l.length := by
  simp only [List.length_take, List.length_drop]
  omega

end Halves

variable {κ ν μ : Type} [LinearOrder κ]

/-- The search for the entry of key `k`, with at most `fuel` halvings. -/
def findAux (k : κ) : ℕ → List (κ × ν) → Option (κ × ν)
  | 0, _ => none
  | _ + 1, [] => none
  | _ + 1, [c] => if c.1 = k then some c else none
  | fuel + 1, l@(_ :: _ :: _) =>
    match l[l.length / 2]? with
    | none => none
    | some c =>
      if k < c.1 then findAux k fuel (l.take (l.length / 2))
      else if k = c.1 then some c
      else findAux k fuel (l.drop (l.length / 2 + 1))

/-- Binary search for the entry of key `k`. -/
def find (l : List (κ × ν)) (k : κ) : Option (κ × ν) := findAux k l.length l

/-! ## Lookup in a split list -/

theorem lookup_append (k : κ) (l₁ l₂ : List (κ × ν)) :
    lookup k (l₁ ++ l₂) = (lookup k l₁).or (lookup k l₂) := by
  induction l₁ with
  | nil => rfl
  | cons e es ih =>
    simp only [List.cons_append, lookup_cons]
    split <;> simp [ih]

/-- In a sorted list split at an entry `c`, the key `k` is looked up before `c` when it is
smaller than `c`'s, at `c` when it equals it, and after `c` otherwise. -/
theorem lookup_split {k : κ} {xs ys : List (κ × ν)} {c : κ × ν}
    (hl : (xs ++ c :: ys).Pairwise (fun a b => a.1 < b.1)) :
    lookup k (xs ++ c :: ys) =
      if k < c.1 then lookup k xs else if k = c.1 then some c.2 else lookup k ys := by
  obtain ⟨-, hys, hcross⟩ := List.pairwise_append.1 hl
  have hbefore : ∀ x ∈ xs, x.1 < c.1 := fun x hx => hcross x hx c List.mem_cons_self
  have hafter : ∀ y ∈ ys, c.1 < y.1 := fun y hy => List.rel_of_pairwise_cons hys hy
  rw [lookup_append]
  split_ifs with hlt heq
  · -- Every key from `c` on is above `k`.
    rw [lookup_eq_none (l := c :: ys) fun e he => ?_, Option.or_none]
    rcases List.mem_cons.1 he with rfl | he
    · exact ne_of_gt hlt
    · exact ne_of_gt (lt_trans hlt (hafter e he))
  · subst heq
    rw [lookup_eq_none fun x hx => ne_of_lt (hbefore x hx), Option.none_or, lookup_cons, if_pos rfl]
  · -- Every key before `c` is below `k`, and `c`'s is not `k`.
    have hgt : c.1 < k := lt_of_le_of_ne (not_lt.1 hlt) (Ne.symm heq)
    rw [lookup_eq_none fun x hx => ne_of_lt (lt_trans (hbefore x hx) hgt), Option.none_or,
      lookup_cons, if_neg (Ne.symm heq)]

/-! ## The search -/

theorem findAux_succ_singleton (k : κ) (fuel : ℕ) (c : κ × ν) :
    findAux k (fuel + 1) [c] = if c.1 = k then some c else none := rfl

/-- One halving of a list of two entries or more. -/
theorem findAux_succ_of_middle {k : κ} {fuel : ℕ} {l : List (κ × ν)} (h : 2 ≤ l.length)
    {c : κ × ν} (hc : l[l.length / 2]? = some c) :
    findAux k (fuel + 1) l =
      if k < c.1 then findAux k fuel (l.take (l.length / 2))
      else if k = c.1 then some c
      else findAux k fuel (l.drop (l.length / 2 + 1)) := by
  match l, h with
  | _ :: _ :: _, _ =>
    rw [findAux, hc]

/-- On a sorted list, with enough halvings, the search finds the entry that `lookup` finds. -/
theorem findAux_eq_lookup (k : κ) :
    ∀ (fuel : ℕ) (l : List (κ × ν)), l.Pairwise (fun a b => a.1 < b.1) → l.length ≤ fuel →
      findAux k fuel l = (lookup k l).map fun v => (k, v)
  | 0, [], _, _ => rfl
  | _ + 1, [], _, _ => rfl
  | _ + 1, [c], _, _ => by
    by_cases hc : c.1 = k
    · subst hc
      simp [findAux_succ_singleton, lookup_cons]
    · simp [findAux_succ_singleton, lookup_nil, lookup_cons, hc]
  | fuel + 1, a :: b :: rest, hl, hlen => by
    have h2 : 2 ≤ (a :: b :: rest).length := by simp
    generalize a :: b :: rest = l at h2 hl hlen
    obtain ⟨c, hc⟩ := exists_middle h2
    obtain ⟨htake_len, hdrop_len⟩ := length_halves_lt h2
    -- Both halves are sorted, and within the remaining halvings.
    have htake := hl.sublist (List.take_sublist (l.length / 2) l)
    have hdrop := hl.sublist (List.drop_sublist (l.length / 2 + 1) l)
    rw [findAux_succ_of_middle h2 hc]
    rw [split_middle hc] at hl
    conv_rhs => rw [split_middle hc, lookup_split hl]
    split_ifs with hlt heq
    · exact findAux_eq_lookup k fuel _ htake (by omega)
    · subst heq
      rfl
    · exact findAux_eq_lookup k fuel _ hdrop (by omega)

theorem find_eq_lookup {l : List (κ × ν)} (hl : l.Pairwise (fun a b => a.1 < b.1)) (k : κ) :
    find l k = (lookup k l).map fun v => (k, v) :=
  findAux_eq_lookup k l.length l hl (Nat.le_refl _)

/-- The search finds only entries of the list, under the key searched for. -/
theorem findAux_mem (k : κ) :
    ∀ (fuel : ℕ) (l : List (κ × ν)) (e : κ × ν), findAux k fuel l = some e → e ∈ l ∧ e.1 = k
  | 0, _, _, h => by cases h
  | _ + 1, [], _, h => by cases h
  | _ + 1, [c], e, h => by
    rw [findAux_succ_singleton] at h
    split_ifs at h with hc
    cases h
    exact ⟨List.mem_singleton_self c, hc⟩
  | fuel + 1, a :: b :: rest, e, h => by
    have h2 : 2 ≤ (a :: b :: rest).length := by simp
    generalize a :: b :: rest = l at h2 h
    obtain ⟨c, hc⟩ := exists_middle h2
    rw [findAux_succ_of_middle h2 hc] at h
    split_ifs at h with hlt heq
    · obtain ⟨he, hk⟩ := findAux_mem k fuel _ e h
      exact ⟨List.mem_of_mem_take he, hk⟩
    · cases h
      exact ⟨List.mem_of_getElem? hc, heq.symm⟩
    · obtain ⟨he, hk⟩ := findAux_mem k fuel _ e h
      exact ⟨List.mem_of_mem_drop he, hk⟩

theorem find_mem {l : List (κ × ν)} {k : κ} {e : κ × ν} (h : find l k = some e) :
    e ∈ l ∧ e.1 = k :=
  findAux_mem k l.length l e h

/-- The search reads only the keys: over a list with other values, it takes the same path. -/
theorem findAux_map_snd (k : κ) (f : ν → μ) :
    ∀ (fuel : ℕ) (l : List (κ × ν)),
      findAux k fuel (l.map fun e => (e.1, f e.2)) = (findAux k fuel l).map fun e => (e.1, f e.2)
  | 0, _ => rfl
  | _ + 1, [] => rfl
  | _ + 1, [c] => by
    by_cases hc : c.1 = k <;> simp [findAux_succ_singleton, hc]
  | fuel + 1, a :: b :: rest => by
    have h2 : 2 ≤ (a :: b :: rest).length := by simp
    generalize a :: b :: rest = l at h2
    obtain ⟨c, hc⟩ := exists_middle h2
    -- The mapped list has its middle entry at the same place.
    have h2' : 2 ≤ (l.map fun e => (e.1, f e.2)).length := by simpa using h2
    have hc' : (l.map fun e => (e.1, f e.2))[(l.map fun e => (e.1, f e.2)).length / 2]? =
        some (c.1, f c.2) := by
      simp [hc]
    rw [findAux_succ_of_middle h2 hc, findAux_succ_of_middle h2' hc']
    split_ifs
    · rw [List.length_map, ← List.map_take, findAux_map_snd k f fuel]
    · rfl
    · rw [List.length_map, ← List.map_drop, findAux_map_snd k f fuel]

theorem find_map_snd (l : List (κ × ν)) (k : κ) (f : ν → μ) :
    find (l.map fun e => (e.1, f e.2)) k = (find l k).map fun e => (e.1, f e.2) := by
  rw [find, List.length_map]
  exact findAux_map_snd k f l.length l

end BinarySearch
