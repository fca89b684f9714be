import Mathlib

/-! Lookups by a key of its own that every member of a list has, and lookups for a whole list,
which fail where one of them does. -/

namespace Lookup
variable {α β κ ε : Type} {l : List α}

theorem find?_eq_some_iff [DecidableEq κ] {key : α → κ} (hkeys : (l.map key).Nodup) {k : κ}
    {a : α} : l.find? (key · = k) = some a ↔ a ∈ l ∧ key a = k := by
  constructor
  · intro h
    exact ⟨List.mem_of_find?_eq_some h, by simpa using List.find?_some h⟩
  · rintro ⟨ha, rfl⟩
    induction l with
    | nil => cases ha
    | cons b l ih =>
      rw [List.map_cons, List.nodup_cons] at hkeys
      rcases List.mem_cons.mp ha with rfl | ha
      · simp
      · have hne : key b ≠ key a := fun he => hkeys.1 (he ▸ List.mem_map_of_mem ha)
        rw [List.find?_cons_of_neg (by simpa using hne)]
        exact ih hkeys.2 ha

section mapM
variable {f : α → Except ε β} {found : List β}

theorem mapM_ok_iff : l.mapM f = .ok found ↔ List.Forall₂ (fun a b => f a = .ok b) l found := by
  induction l generalizing found with
  | nil =>
    rw [List.mapM_nil, List.forall₂_nil_left_iff]
    exact ⟨fun h => (Except.ok.inj h).symm, fun h => h ▸ rfl⟩
  | cons a l ih =>
    rw [List.mapM_cons, List.forall₂_cons_left_iff]
    constructor
    · intro h
      cases hf : f a with
      | error e =>
        rw [hf] at h
        cases h
      | ok b =>
        cases hrest : l.mapM f with
        | error e =>
          rw [hf, hrest] at h
          cases h
        | ok rest =>
          rw [hf, hrest] at h
          exact ⟨b, rest, rfl, ih.mp hrest, (Except.ok.inj h).symm⟩
    · rintro ⟨b, rest, hf, hrest, rfl⟩
      rw [hf, ih.mpr hrest]
      rfl

theorem mem_of_mapM (h : l.mapM f = .ok found) {b : β} :
    b ∈ found ↔ ∃ a ∈ l, f a = .ok b := by
  rw [mapM_ok_iff] at h
  induction h with
  | nil => simp
  | @cons a c l found hac _ ih =>
    rw [List.mem_cons]
    constructor
    · rintro (rfl | hb)
      · exact ⟨a, List.mem_cons_self, hac⟩
      · obtain ⟨a', ha', hf⟩ := ih.mp hb
        exact ⟨a', List.mem_cons_of_mem _ ha', hf⟩
    · rintro ⟨a', ha', hf⟩
      rcases List.mem_cons.mp ha' with rfl | ha'
      · rw [hac, Except.ok.injEq] at hf
        exact .inl hf.symm
      · exact .inr (ih.mpr ⟨a', ha', hf⟩)

theorem ok_of_mapM (h : l.mapM f = .ok found) {a : α} (ha : a ∈ l) : ∃ b, f a = .ok b := by
  rw [mapM_ok_iff] at h
  induction h with
  | nil => cases ha
  | @cons c b l found hcb _ ih =>
    rcases List.mem_cons.mp ha with rfl | ha
    · exact ⟨b, hcb⟩
    · exact ih ha

theorem mapM_total (h : ∀ a ∈ l, ∃ b, f a = .ok b) : ∃ found, l.mapM f = .ok found := by
  induction l with
  | nil => exact ⟨[], rfl⟩
  | cons a l ih =>
    obtain ⟨b, hb⟩ := h a List.mem_cons_self
    obtain ⟨rest, hrest⟩ := ih fun c hc => h c (List.mem_cons_of_mem _ hc)
    refine ⟨b :: rest, ?_⟩
    rw [List.mapM_cons, hb, hrest]
    rfl

/-- What is found leads back to what it was found for. -/
theorem map_of_mapM {g : β → Option α} (h : l.mapM f = .ok found)
    (hback : ∀ a b, f a = .ok b → g b = some a) : found.filterMap g = l := by
  rw [mapM_ok_iff] at h
  induction h with
  | nil => rfl
  | cons hac _ ih => rw [List.filterMap_cons_some (hback _ _ hac), ih]

end mapM

end Lookup
