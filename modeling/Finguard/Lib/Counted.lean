import Mathlib

/-! Append-only logs whose numbers go up in equal steps, and the row with the
greatest number. -/

variable {α : Type}

/-- The numbers of the log are `step`, `2 * step` and so on, in order. -/
def Counted (step : ℤ) (number : α → ℤ) (log : List α) : Prop :=
  log.map number = (List.range log.length).map (fun i : ℕ => step * (i + 1))

/-- The first row in descending order of its number. -/
def latestBy (number : α → ℤ) (rows : List α) : Option α :=
  (rows.insertionSort (fun a b => number b ≤ number a)).head?

namespace Counted
variable {step : ℤ} {number : α → ℤ} {log : List α} {a : α}

@[simp] theorem nil : Counted step number [] := rfl

theorem concat (h : Counted step number log) (ha : number a = step * (log.length + 1)) :
    Counted step number (log ++ [a]) := by
  unfold Counted at h ⊢
  rw [List.map_append, h, List.length_append, List.length_singleton, List.range_succ,
    List.map_append, List.map_singleton, List.map_singleton, ha]

theorem of_concat (h : Counted step number (log ++ [a])) : Counted step number log := by
  unfold Counted at h ⊢
  rw [List.length_append, List.length_singleton, List.range_succ, List.map_append,
    List.map_append] at h
  exact (List.append_inj h (by simp)).1

theorem getElem (h : Counted step number log) {i : ℕ} (hi : i < log.length) :
    number log[i] = step * (i + 1) := by
  have hi' : i < (log.map number).length := by simpa using hi
  have hl : (log.map number)[i] = step * (i + 1) := by
    simp only [Counted] at h
    simp [h]
  simpa using hl

theorem of_mem (h : Counted step number log) (ha : a ∈ log) :
    ∃ i : ℕ, i < log.length ∧ number a = step * (i + 1) := by
  obtain ⟨i, hi, rfl⟩ := List.getElem_of_mem ha
  exact ⟨i, hi, h.getElem hi⟩

theorem exists_number (h : Counted step number log) {i : ℕ} (hi : i < log.length) :
    ∃ a ∈ log, number a = step * (i + 1) :=
  ⟨log[i], List.getElem_mem hi, h.getElem hi⟩

theorem pairwise (h : Counted step number log) (hstep : 0 < step) :
    log.Pairwise (fun a b => number a < number b) := by
  rw [List.pairwise_iff_getElem]
  intro i j hi hj hij
  rw [h.getElem hi, h.getElem hj]
  have hlt : (i : ℤ) + 1 < j + 1 := by exact_mod_cast Nat.add_lt_add_right hij 1
  exact mul_lt_mul_of_pos_left hlt hstep

theorem le_last (h : Counted step number log) (hstep : 0 < step) (ha : a ∈ log) :
    number a ≤ step * log.length := by
  obtain ⟨i, hi, ha⟩ := h.of_mem ha
  rw [ha]
  have hle : (i : ℤ) + 1 ≤ log.length := by exact_mod_cast hi
  exact mul_le_mul_of_nonneg_left hle hstep.le

/-- How many rows of a log counted by ones come after a number. -/
theorem length_filter_lt (h : Counted 1 number log) {k : ℤ} (hk : 0 ≤ k) :
    ((log.filter (k < number ·)).length : ℤ) = max 0 (log.length - k) := by
  induction log using List.reverseRecOn with
  | nil => simpa using hk
  | append_singleton log a ih =>
    have ha : number a = log.length + 1 := by
      have hlast := h.getElem (i := log.length) (by simp)
      simpa using hlast
    have hi := ih h.of_concat
    rw [List.filter_append, List.length_append, List.length_append]
    by_cases hka : k < number a
    · simp only [List.filter_cons, hka, decide_true, if_true, List.filter_nil,
        List.length_singleton, Nat.cast_add, Nat.cast_one, hi]
      omega
    · simp only [List.filter_cons, hka, decide_false, Bool.false_eq_true, if_false,
        List.filter_nil, List.length_nil, List.length_singleton, Nat.cast_add, Nat.cast_one, hi]
      omega

end Counted

section
variable {number : α → ℤ} {rows : List α} {a : α}

theorem latestBy_eq_none : latestBy number rows = none ↔ rows = [] := by
  rw [latestBy, List.head?_eq_none_iff]
  constructor
  · intro h
    have hl := List.length_insertionSort (fun a b => number b ≤ number a) rows
    rw [h] at hl
    exact List.eq_nil_of_length_eq_zero hl.symm
  · rintro rfl
    rfl

theorem latestBy_mem (h : latestBy number rows = some a) : a ∈ rows := by
  have hm := List.mem_of_mem_head? (Option.mem_def.mpr h)
  exact (List.mem_insertionSort _).mp hm

theorem le_latestBy (h : latestBy number rows = some a) {b : α} (hb : b ∈ rows) :
    number b ≤ number a := by
  have htotal : Std.Total (fun a b : α => number b ≤ number a) :=
    ⟨fun a b => le_total (number b) (number a)⟩
  have htrans : IsTrans α (fun a b => number b ≤ number a) :=
    ⟨fun _ _ _ hab hbc => le_trans hbc hab⟩
  have hsorted := List.pairwise_insertionSort (fun a b => number b ≤ number a) rows
  have hmem := (List.mem_insertionSort (fun a b => number b ≤ number a)).mpr hb
  unfold latestBy at h
  cases hl : rows.insertionSort (fun a b => number b ≤ number a) with
  | nil => rw [hl] at h; cases h
  | cons c rest =>
    rw [hl] at h hsorted hmem
    obtain rfl : c = a := Option.some.inj h
    rcases List.mem_cons.mp hmem with rfl | hmem
    · exact le_rfl
    · exact (List.pairwise_cons.mp hsorted).1 b hmem

/-- In a counted log the latest row is the last one. -/
theorem Counted.number_latestBy {step : ℤ} (h : Counted step number rows) (hstep : 0 < step)
    (ha : latestBy number rows = some a) : number a = step * rows.length := by
  apply le_antisymm (h.le_last hstep (latestBy_mem ha))
  have hne : rows ≠ [] := by
    rintro rfl
    cases ha
  have hpos : rows.length - 1 < rows.length := by
    have := List.length_pos_iff.mpr hne
    omega
  obtain ⟨b, hb, hnumber⟩ := h.exists_number hpos
  have hle := le_latestBy ha hb
  have hcast : ((rows.length - 1 : ℕ) : ℤ) + 1 = rows.length := by omega
  rwa [hnumber, hcast] at hle

/-- The next number of a log counted by ones, from the greatest one so far. -/
theorem Counted.next_of_max (h : Counted 1 number rows) :
    ((rows.map number).max?).getD 0 = rows.length := by
  cases hmax : (rows.map number).max? with
  | none =>
    rw [List.max?_eq_none_iff, List.map_eq_nil_iff] at hmax
    simp [hmax]
  | some m =>
    obtain ⟨hm, hle⟩ := List.max?_eq_some_iff.mp hmax
    obtain ⟨a, ha, rfl⟩ := List.mem_map.mp hm
    apply le_antisymm
    · simpa using h.le_last one_pos ha
    · have hpos : rows.length - 1 < rows.length := by
        have := List.length_pos_of_mem ha
        omega
      obtain ⟨b, hb, hnumber⟩ := h.exists_number hpos
      have hb' := hle _ (List.mem_map_of_mem hb)
      rw [hnumber] at hb'
      show (rows.length : ℤ) ≤ number a
      omega

end
