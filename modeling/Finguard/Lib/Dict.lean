import Mathlib

/-! Dictionaries that keep their keys in the order of insertion, and entries that are numbered in
the order of their first use. -/

namespace Dict

variable {κ ν : Type} [DecidableEq κ] {d pairs : List (κ × ν)} {k k' : κ} {v v' : ν}

/-- A key that is there keeps its place. -/
def set : List (κ × ν) → κ → ν → List (κ × ν)
  | [], k, v => [(k, v)]
  | (k', v') :: d, k, v => if k' = k then (k, v) :: d else (k', v') :: set d k v

def ofPairs (pairs : List (κ × ν)) : List (κ × ν) := pairs.foldl (fun d p => set d p.1 p.2) []

theorem set_of_not_mem (h : k ∉ d.map Prod.fst) : set d k v = d ++ [(k, v)] := by
  induction d with
  | nil => rfl
  | cons p d ih =>
    rw [List.map_cons, List.mem_cons, not_or] at h
    have hne : p.1 ≠ k := fun he => h.1 he.symm
    rw [set, if_neg hne, ih h.2]
    rfl

theorem lookup_set_self : (set d k v).lookup k = some v := by
  induction d with
  | nil => simp [set]
  | cons p d ih =>
    by_cases hk : p.1 = k
    · rw [set, if_pos hk, List.lookup_cons_self]
    · have hne : (k == p.1) = false := by simpa using Ne.symm hk
      rw [set, if_neg hk, List.lookup_cons, hne]
      exact ih

theorem lookup_set_of_ne (h : k' ≠ k) : (set d k v).lookup k' = d.lookup k' := by
  have hne : (k' == k) = false := by simpa using h
  induction d with
  | nil => simp [set, List.lookup_cons, hne]
  | cons p d ih =>
    by_cases hk : p.1 = k
    · rw [set, if_pos hk, List.lookup_cons, List.lookup_cons, hk, hne]
    · rw [set, if_neg hk, List.lookup_cons, List.lookup_cons, ih]

theorem ofPairs_append : ofPairs (pairs ++ [(k, v)]) = set (ofPairs pairs) k v := by
  rw [ofPairs, List.foldl_append]
  rfl

/-- Pairs with a key of their own each are the dictionary that they make. -/
theorem ofPairs_of_nodup (h : (pairs.map Prod.fst).Nodup) : ofPairs pairs = pairs := by
  induction pairs using List.reverseRecOn with
  | nil => rfl
  | append_singleton pairs p ih =>
    rw [List.map_append, List.nodup_append] at h
    obtain ⟨hpairs, -, hdisjoint⟩ := h
    have hnew : p.1 ∉ pairs.map Prod.fst := fun hmem => hdisjoint p.1 hmem p.1 (by simp) rfl
    rw [ofPairs_append, ih hpairs, set_of_not_mem hnew]

theorem lookup_of_mem (h : (d.map Prod.fst).Nodup) (hmem : (k, v) ∈ d) : d.lookup k = some v := by
  induction d with
  | nil => cases hmem
  | cons p d ih =>
    rw [List.map_cons, List.nodup_cons] at h
    rcases List.mem_cons.mp hmem with rfl | hmem
    · exact List.lookup_cons_self
    · have hne : (k == p.1) = false := by
        have hk : k ≠ p.1 := fun he => h.1 (he ▸ List.mem_map_of_mem (f := Prod.fst) hmem)
        simpa using hk
      rw [List.lookup_cons, hne]
      exact ih h.2 hmem

/-! Numbering. -/

variable {α : Type} {key : α → κ} {a b : α} {entries : List α} {i j : ℕ}

/-- The number of an entry is its position; a key that is new is numbered next. -/
def intern (key : α → κ) (a : α) (entries : List α) : ℕ × List α :=
  match entries.findIdx? (key · = key a) with
  | some i => (i, entries)
  | none => (entries.length, entries ++ [a])

theorem intern_cases (key : α → κ) (a : α) (entries : List α) :
    (∃ i b, intern key a entries = (i, entries) ∧ entries[i]? = some b ∧ key b = key a) ∨
      (key a ∉ entries.map key ∧ intern key a entries = (entries.length, entries ++ [a])) := by
  unfold intern
  cases h : entries.findIdx? (key · = key a) with
  | some i =>
    obtain ⟨hi, hkey, -⟩ := List.findIdx?_eq_some_iff_getElem.mp h
    refine .inl ⟨i, entries[i], rfl, List.getElem?_eq_getElem hi, ?_⟩
    simpa using hkey
  | none =>
    rw [List.findIdx?_eq_none_iff] at h
    refine .inr ⟨?_, rfl⟩
    intro hmem
    obtain ⟨b, hb, hkey⟩ := List.mem_map.mp hmem
    have hne := h b hb
    simp [hkey] at hne

theorem intern_extends : entries <+: (intern key a entries).2 := by
  rcases intern_cases key a entries with ⟨i, b, h, -, -⟩ | ⟨-, h⟩
  · rw [h]
  · rw [h]
    exact List.prefix_append _ _

theorem nodup_intern (h : (entries.map key).Nodup) : ((intern key a entries).2.map key).Nodup := by
  rcases intern_cases key a entries with ⟨i, b, heq, -, -⟩ | ⟨hnew, heq⟩
  · rwa [heq]
  · rw [heq, List.map_append, List.nodup_append]
    refine ⟨h, List.nodup_singleton _, ?_⟩
    rintro k hk _ hk' rfl
    obtain rfl : k = key a := by simpa using hk'
    exact hnew hk

/-- The number of an entry finds it, where its key stands for no other. -/
theorem getElem?_intern (h : ∀ b ∈ entries, key b = key a → b = a) :
    (intern key a entries).2[(intern key a entries).1]? = some a := by
  rcases intern_cases key a entries with ⟨i, b, heq, hi, hkey⟩ | ⟨-, heq⟩
  · rw [heq, hi, h b (List.mem_of_getElem? hi) hkey]
  · rw [heq]
    simp

theorem mem_intern (h : b ∈ (intern key a entries).2) : b ∈ entries ∨ b = a := by
  rcases intern_cases key a entries with ⟨i, c, heq, -, -⟩ | ⟨-, heq⟩
  · rw [heq] at h
    exact .inl h
  · rw [heq, List.mem_append, List.mem_singleton] at h
    exact h

theorem getElem?_of_extends {entries' : List α} (h : entries <+: entries') (hi : entries[i]? = some a) :
    entries'[i]? = some a := by
  obtain ⟨rest, rfl⟩ := h
  rw [List.getElem?_append_left (List.getElem?_eq_some_iff.mp hi).1, hi]

end Dict
