import Mathlib

/-! Writes that each go to the part of a store that stands under their own key. -/

namespace Keyed

variable {σ α κ β : Type} {write : σ → α → σ} {view : σ → κ → β} {key : α → κ} {l : List α}
  {s : σ}

/-- A write leaves every other key alone. -/
def Local (write : σ → α → σ) (view : σ → κ → β) (key : α → κ) : Prop :=
  ∀ s a k, k ≠ key a → view (write s a) k = view s k

theorem Local.foldl_of_not_mem (hw : Local write view key) {k : κ} (hk : k ∉ l.map key) :
    view (l.foldl write s) k = view s k := by
  induction l generalizing s with
  | nil => rfl
  | cons a l ih =>
    rw [List.map_cons, List.mem_cons, not_or] at hk
    rw [List.foldl_cons, ih hk.2, hw s a k hk.1]

/-- No write changes what another one finds, or what it leaves behind. -/
theorem Local.foldl_of_mem (hw : Local write view key) (before after : α → β)
    (hself : ∀ s a, view s (key a) = before a → view (write s a) (key a) = after a)
    (hnodup : (l.map key).Nodup) (hbefore : ∀ a ∈ l, view s (key a) = before a) :
    ∀ a ∈ l, view (l.foldl write s) (key a) = after a := by
  induction l generalizing s with
  | nil => simp
  | cons a l ih =>
    rw [List.map_cons, List.nodup_cons] at hnodup
    obtain ⟨hnew, hnodup⟩ := hnodup
    have hfirst : view (write s a) (key a) = after a := hself s a (hbefore a List.mem_cons_self)
    have hrest : ∀ b ∈ l, view (write s a) (key b) = before b := by
      intro b hb
      have hne : key b ≠ key a := fun he => hnew (he ▸ List.mem_map_of_mem hb)
      rw [hw s a (key b) hne, hbefore b (List.mem_cons_of_mem a hb)]
    intro b hb
    rcases List.mem_cons.mp hb with rfl | hb
    · rw [List.foldl_cons, hw.foldl_of_not_mem hnew, hfirst]
    · rw [List.foldl_cons]
      exact ih hnodup hrest b hb

end Keyed
