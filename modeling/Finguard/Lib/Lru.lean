import Finguard.Lib.Lookup

/-! A map of bounded size that forgets what was used longest ago. -/

namespace Lru
variable {κ α : Type} [DecidableEq κ] {limit : ℕ}

/-- The entries, from the one used longest ago to the latest. -/
structure Cache (κ α : Type) (limit : ℕ) where
  entries : List (κ × α)
  nodup : (entries.map Prod.fst).Nodup
  bounded : entries.length ≤ limit

/-- The entries with one renewed at the end. -/
def renewed (entries : List (κ × α)) (k : κ) (a : α) : List (κ × α) :=
  entries.filter (·.1 ≠ k) ++ [(k, a)]

theorem nodup_renewed {entries : List (κ × α)} (h : (entries.map Prod.fst).Nodup) (k : κ) (a : α) :
    ((renewed entries k a).map Prod.fst).Nodup := by
  have hkept : ((entries.filter (·.1 ≠ k)).map Prod.fst).Nodup :=
    (List.filter_sublist.map Prod.fst).nodup h
  rw [renewed, List.map_append, List.map_singleton, List.nodup_append]
  refine ⟨hkept, List.nodup_singleton k, ?_⟩
  rintro other hother _ hlast rfl
  obtain ⟨entry, hentry, rfl⟩ := List.mem_map.mp hother
  have hne := (List.mem_filter.mp hentry).2
  rw [List.mem_singleton.mp hlast] at hne
  simp at hne

namespace Cache
variable {c : Cache κ α limit} {k : κ} {a : α} {P : κ → α → Prop}

def empty : Cache κ α limit := ⟨[], .nil, Nat.zero_le _⟩

def get? (c : Cache κ α limit) (k : κ) : Option α :=
  (c.entries.find? (·.1 = k)).map Prod.snd

def put (c : Cache κ α limit) (k : κ) (a : α) : Cache κ α limit where
  entries := (renewed c.entries k a).drop ((renewed c.entries k a).length - limit)
  nodup := ((List.drop_sublist _ _).map Prod.fst).nodup (nodup_renewed c.nodup k a)
  bounded := by
    rw [List.length_drop]
    omega

/-- Using an entry moves it to the end. -/
def touch (c : Cache κ α limit) (k : κ) : Cache κ α limit :=
  match c.get? k with
  | none => c
  | some a => c.put k a

def All (c : Cache κ α limit) (P : κ → α → Prop) : Prop := ∀ entry ∈ c.entries, P entry.1 entry.2

omit [DecidableEq κ] in
theorem all_empty : (empty : Cache κ α limit).All P := by
  rintro entry ⟨⟩

theorem All.get? (h : c.All P) (hget : c.get? k = some a) : P k a := by
  obtain ⟨entry, hfound, rfl⟩ := Option.map_eq_some_iff.mp hget
  obtain ⟨hmem, rfl⟩ := (Lookup.find?_eq_some_iff c.nodup).mp hfound
  exact h entry hmem

theorem All.put (h : c.All P) (hnew : P k a) : (c.put k a).All P := by
  intro entry hentry
  rcases List.mem_append.mp (List.mem_of_mem_drop hentry) with hold | hlast
  · exact h entry (List.mem_filter.mp hold).1
  · rw [List.mem_singleton.mp hlast]
    exact hnew

theorem All.touch (h : c.All P) (k : κ) : (c.touch k).All P := by
  rw [Cache.touch]
  cases hget : c.get? k with
  | none => exact h
  | some a => exact h.put (h.get? hget)

end Cache

end Lru
