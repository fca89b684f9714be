import Mathlib

/-! Scans of a list that may fail: what every prefix of the list keeps, and where each part of the
output was emitted. -/

namespace Scan
variable {α β γ ε : Type} {f : β → α → Except ε β} {b r : β} {l l' : List α} {a : α}

theorem bind_eq_ok {x : Except ε α} {k : α → Except ε β} :
    (x >>= k) = .ok b ↔ ∃ a, x = .ok a ∧ k a = .ok b := by
  cases x with
  | error e =>
    constructor
    · intro h
      cases h
    · rintro ⟨_, h, -⟩
      cases h
  | ok a =>
    constructor
    · intro h
      exact ⟨a, rfl, h⟩
    · rintro ⟨_, h, hk⟩
      cases h
      exact hk

theorem bind_eq_error {x : Except ε α} {k : α → Except ε β} {e : ε} :
    (x >>= k) = .error e ↔ x = .error e ∨ ∃ a, x = .ok a ∧ k a = .error e := by
  cases x with
  | error e' =>
    constructor
    · intro h
      cases h
      exact .inl rfl
    · rintro (h | ⟨_, h, -⟩)
      · cases h
        rfl
      · cases h
  | ok a =>
    constructor
    · intro h
      exact .inr ⟨a, rfl, h⟩
    · rintro (h | ⟨_, h, hk⟩)
      · cases h
      · cases h
        exact hk

theorem cons_eq_ok : (a :: l).foldlM f b = .ok r ↔ ∃ s, f b a = .ok s ∧ l.foldlM f s = .ok r := by
  rw [List.foldlM_cons, bind_eq_ok]

theorem append_eq_ok :
    (l ++ l').foldlM f b = .ok r ↔ ∃ s, l.foldlM f b = .ok s ∧ l'.foldlM f s = .ok r := by
  rw [List.foldlM_append, bind_eq_ok]

theorem concat_eq_ok :
    (l ++ [a]).foldlM f b = .ok r ↔ ∃ s, l.foldlM f b = .ok s ∧ f s a = .ok r := by
  rw [append_eq_ok]
  have hone : ∀ s, [a].foldlM f s = .ok r ↔ f s a = .ok r := by
    intro s
    rw [cons_eq_ok]
    exact ⟨fun ⟨_, h, hr⟩ => h.trans hr, fun h => ⟨r, h, rfl⟩⟩
  simp only [hone]

/-- What holds at the start and is kept by every step holds at the end. -/
theorem invariant {P : List α → β → Prop} (hstart : P [] b)
    (hstep : ∀ pre a s s', P pre s → f s a = .ok s' → P (pre ++ [a]) s')
    (h : l.foldlM f b = .ok r) : P l r := by
  induction l using List.reverseRecOn generalizing r with
  | nil =>
    obtain rfl : b = r := Except.ok.inj h
    exact hstart
  | append_singleton l a ih =>
    obtain ⟨s, hs, ha⟩ := concat_eq_ok.mp h
    exact hstep l a s r (ih hs) ha

/-- The steps at which a scan stands, each with what it has made of the elements before. -/
def Visits (f : β → α → Except ε β) (b : β) (l : List α) (s : β) (a : α) : Prop :=
  ∃ pre post, l = pre ++ a :: post ∧ pre.foldlM f b = .ok s

theorem Visits.mem {s : β} (h : Visits f b l s a) : a ∈ l := by
  obtain ⟨pre, post, rfl, -⟩ := h
  simp

theorem visits_concat {a' : α} {s : β} :
    Visits f b (l ++ [a']) s a ↔ Visits f b l s a ∨ (a = a' ∧ l.foldlM f b = .ok s) := by
  constructor
  · rintro ⟨pre, post, hsplit, hpre⟩
    cases post using List.reverseRecOn with
    | nil =>
      obtain ⟨rfl, hlast⟩ := List.append_inj' hsplit rfl
      exact .inr ⟨(List.cons.inj hlast).1.symm, hpre⟩
    | append_singleton post last =>
      rw [← List.cons_append, ← List.append_assoc] at hsplit
      obtain ⟨hl, -⟩ := List.append_inj' hsplit rfl
      exact .inl ⟨pre, post, hl, hpre⟩
  · rintro (⟨pre, post, rfl, hpre⟩ | ⟨rfl, hl⟩)
    · exact ⟨pre, post ++ [a'], by simp, hpre⟩
    · exact ⟨l, [], rfl, hl⟩

/-- The output of a scan is what its steps have emitted. -/
theorem mem_out_iff (out : β → List γ) (emit : β → α → List γ) (hb : out b = [])
    (hemit : ∀ s a s', f s a = .ok s' → out s' = out s ++ emit s a)
    (h : l.foldlM f b = .ok r) {c : γ} :
    c ∈ out r ↔ ∃ s a, Visits f b l s a ∧ c ∈ emit s a := by
  induction l using List.reverseRecOn generalizing r with
  | nil =>
    obtain rfl : b = r := Except.ok.inj h
    rw [hb]
    constructor
    · intro hc
      cases hc
    · rintro ⟨s, a, hvisit, -⟩
      exact absurd hvisit.mem List.not_mem_nil
  | append_singleton l a ih =>
    obtain ⟨s, hs, ha⟩ := concat_eq_ok.mp h
    rw [hemit s a r ha, List.mem_append, ih hs]
    constructor
    · rintro (⟨s', a', hvisit, hc⟩ | hc)
      · exact ⟨s', a', visits_concat.mpr (.inl hvisit), hc⟩
      · exact ⟨s, a, visits_concat.mpr (.inr ⟨rfl, hs⟩), hc⟩
    · rintro ⟨s', a', hvisit, hc⟩
      rcases visits_concat.mp hvisit with hvisit | ⟨rfl, hs'⟩
      · exact .inl ⟨s', a', hvisit, hc⟩
      · obtain rfl : s = s' := Except.ok.inj (hs.symm.trans hs')
        exact .inr hc

end Scan
