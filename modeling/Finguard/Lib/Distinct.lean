import Mathlib

/-! A scan that keeps the first member of every key, and none whose key is taken already. -/

namespace Distinct

variable {α κ : Type} [DecidableEq κ] {key : α → κ} {taken taken' : List κ} {l m : List α}

def distinct (key : α → κ) (taken : List κ) : List α → List α
  | [] => []
  | a :: l => if key a ∈ taken then distinct key taken l else a :: distinct key (key a :: taken) l

theorem distinct_congr (h : ∀ a ∈ l, key a ∈ taken ↔ key a ∈ taken') :
    distinct key taken l = distinct key taken' l := by
  induction l generalizing taken taken' with
  | nil => rfl
  | cons a l ih =>
    have ha := h a List.mem_cons_self
    have hl : ∀ b ∈ l, key b ∈ taken ↔ key b ∈ taken' := fun b hb => h b (List.mem_cons_of_mem a hb)
    by_cases hkey : key a ∈ taken
    · rw [distinct, distinct, if_pos hkey, if_pos (ha.mp hkey)]
      exact ih hl
    · rw [distinct, distinct, if_neg hkey, if_neg (fun h' => hkey (ha.mpr h'))]
      have hcons : distinct key (key a :: taken) l = distinct key (key a :: taken') l := by
        apply ih
        intro b hb
        rw [List.mem_cons, List.mem_cons, hl b hb]
      rw [hcons]

/-- What comes later meets the keys of what came before. -/
theorem distinct_append :
    distinct key taken (l ++ m) = distinct key taken l ++ distinct key (l.map key ++ taken) m := by
  induction l generalizing taken with
  | nil => rfl
  | cons a l ih =>
    rw [List.cons_append]
    by_cases hkey : key a ∈ taken
    · rw [distinct, distinct, if_pos hkey, if_pos hkey, ih]
      congr 1
      apply distinct_congr
      intro b _
      simp only [List.map_cons, List.cons_append, List.mem_append, List.mem_cons]
      constructor
      · exact .inr
      · intro h
        rcases h with h | h
        · exact .inr (h ▸ hkey)
        · exact h
    · rw [distinct, distinct, if_neg hkey, if_neg hkey, ih, List.cons_append]
      congr 2
      apply distinct_congr
      intro b _
      simp only [List.map_cons, List.cons_append, List.mem_append, List.mem_cons]
      tauto

theorem mem_distinct {a : α} :
    a ∈ distinct key taken l ↔ l.find? (key · = key a) = some a ∧ key a ∉ taken := by
  induction l generalizing taken with
  | nil => simp [distinct]
  | cons b l ih =>
    by_cases hsame : key b = key a
    · -- the first member of the key decides, and the rest of the scan has the key taken
      rw [List.find?_cons_of_pos (by simpa using hsame)]
      by_cases hkey : key b ∈ taken
      · rw [distinct, if_pos hkey, ih]
        simp [← hsame, hkey]
      · rw [distinct, if_neg hkey, List.mem_cons, ih]
        simp only [hsame, List.mem_cons, true_or, not_true_eq_false, and_false, or_false,
          Option.some.injEq]
        constructor
        · rintro rfl
          exact ⟨rfl, hkey⟩
        · intro h
          exact h.1.symm
    · rw [List.find?_cons_of_neg (by simpa using hsame)]
      by_cases hkey : key b ∈ taken
      · rw [distinct, if_pos hkey, ih]
      · have hne : a ≠ b := by
          rintro rfl
          exact hsame rfl
        rw [distinct, if_neg hkey, List.mem_cons, ih, List.mem_cons]
        simp [hne, Ne.symm hsame]

theorem mem_of_mem_distinct {a : α} (h : a ∈ distinct key taken l) : a ∈ l := by
  rw [mem_distinct] at h
  exact List.mem_of_find?_eq_some h.1

theorem key_not_mem {a : α} (h : a ∈ distinct key taken l) : key a ∉ taken := by
  rw [mem_distinct] at h
  exact h.2

theorem mem_map_distinct {k : κ} :
    k ∈ (distinct key taken l).map key ↔ k ∈ l.map key ∧ k ∉ taken := by
  constructor
  · intro h
    obtain ⟨a, ha, rfl⟩ := List.mem_map.mp h
    exact ⟨List.mem_map_of_mem (mem_of_mem_distinct ha), key_not_mem ha⟩
  · rintro ⟨h, hk⟩
    obtain ⟨a, ha, rfl⟩ := List.mem_map.mp h
    have hsome : (l.find? (key · = key a)).isSome := List.find?_isSome.mpr ⟨a, ha, by simp⟩
    obtain ⟨first, hfirst⟩ := Option.isSome_iff_exists.mp hsome
    have hkey : key first = key a := by simpa using List.find?_some hfirst
    refine List.mem_map.mpr ⟨first, ?_, hkey⟩
    rw [mem_distinct, hkey]
    exact ⟨hfirst, hk⟩

theorem nodup_distinct : ((distinct key taken l).map key).Nodup := by
  induction l generalizing taken with
  | nil => exact .nil
  | cons a l ih =>
    by_cases hkey : key a ∈ taken
    · rw [distinct, if_pos hkey]
      exact ih
    · rw [distinct, if_neg hkey, List.map_cons, List.nodup_cons]
      refine ⟨?_, ih⟩
      intro h
      rw [mem_map_distinct] at h
      exact h.2 List.mem_cons_self

theorem distinct_eq_nil (h : ∀ a ∈ l, key a ∈ taken) : distinct key taken l = [] := by
  rw [List.eq_nil_iff_forall_not_mem]
  intro a ha
  exact key_not_mem ha (h a (mem_of_mem_distinct ha))

end Distinct
