import Mathlib

/-! Sums taken group by group, and sums of filtered lists. -/

namespace Groups

variable {α κ M : Type} [DecidableEq κ] [AddCommMonoid M] {l : List α} {p : α → Bool}

/-- Each member has one key and each key is listed once. -/
theorem sum_groups (key : α → κ) {keys : List κ} (hnodup : keys.Nodup)
    (hall : ∀ a ∈ l, key a ∈ keys) (f : α → M) :
    (keys.map fun k => ((l.filter (key · == k)).map f).sum).sum = (l.map f).sum := by
  induction l with
  | nil => simp
  | cons a l ih =>
    have hsplit : ∀ k, (((a :: l).filter (key · == k)).map f).sum =
        (if k = key a then f a else 0) + ((l.filter (key · == k)).map f).sum := by
      intro k
      by_cases hk : key a = k
      · simp [hk]
      · simp [hk, Ne.symm hk]
    have hsum : (keys.map fun k => if k = key a then f a else 0).sum = f a := by
      rw [List.sum_map_eq_nsmul_single (key a) _ (fun k hk _ => if_neg hk), if_pos rfl,
        List.count_eq_one_of_mem hnodup (hall a List.mem_cons_self), one_nsmul]
    have hrest := ih (fun b hb => hall b (List.mem_cons_of_mem a hb))
    simp only [hsplit, List.sum_map_add, hsum, hrest, List.map_cons, List.sum_cons]

omit [DecidableEq κ] in
theorem sum_filter (l : List α) (p : α → Bool) (f : α → M) :
    ((l.filter p).map f).sum = (l.map fun a => if p a then f a else 0).sum := by
  induction l with
  | nil => rfl
  | cons a l ih => by_cases hp : p a = true <;> simp [hp, ih]

omit [DecidableEq κ] in
theorem sum_flatMap {β : Type} (l : List α) (g : α → List β) (f : β → M) :
    ((l.flatMap g).map f).sum = (l.map fun a => ((g a).map f).sum).sum := by
  induction l with
  | nil => rfl
  | cons a l ih =>
    rw [List.flatMap_cons, List.map_append, List.sum_append, ih, List.map_cons, List.sum_cons]

end Groups
