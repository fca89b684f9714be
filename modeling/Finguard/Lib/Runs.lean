import Mathlib

/-! Runs of a machine whose steps are labelled by actions. A guard restricts the
runs to those whose every step meets a condition on the state before it. -/

namespace Runs

variable {σ α : Type}

def GuardedStep (step : σ → α → Option σ) (guard : σ → α → Prop) (s t : σ) : Prop :=
  ∃ a, guard s a ∧ step s a = some t

abbrev Reaches (step : σ → α → Option σ) (guard : σ → α → Prop) :=
  Relation.ReflTransGen (GuardedStep step guard)

abbrev always (_ : σ) (_ : α) : Prop := True

variable {step : σ → α → Option σ} {guard : σ → α → Prop} {s t : σ}

theorem Reaches.invariant {I : σ → Prop}
    (hstep : ∀ s a t, I s → guard s a → step s a = some t → I t)
    (h : Reaches step guard s t) (hs : I s) : I t := by
  induction h with
  | refl => exact hs
  | tail _ hst ih =>
    obtain ⟨a, ha, hst⟩ := hst
    exact hstep _ a _ ih ha hst

/-- A relation that every step keeps relates any state of a run to the later ones. -/
theorem Reaches.relates {I : σ → Prop} {Q : σ → σ → Prop} (hrefl : ∀ s, Q s s)
    (htrans : ∀ {s t u}, Q s t → Q t u → Q s u)
    (hstep : ∀ s a t, I s → guard s a → step s a = some t → I t ∧ Q s t)
    (h : Reaches step guard s t) (hs : I s) : Q s t := by
  suffices hboth : I t ∧ Q s t from hboth.2
  induction h with
  | refl => exact ⟨hs, hrefl s⟩
  | tail _ hst ih =>
    obtain ⟨a, ha, hst⟩ := hst
    obtain ⟨hI, hQ⟩ := hstep _ a _ ih.1 ha hst
    exact ⟨hI, htrans ih.2 hQ⟩

/-- An invariant found for all runs may be used while proving one about guarded runs. -/
theorem Reaches.weaken {guard' : σ → α → Prop} (hg : ∀ s a, guard s a → guard' s a)
    (h : Reaches step guard s t) : Reaches step guard' s t := by
  induction h with
  | refl => exact .refl
  | tail _ hst ih =>
    obtain ⟨a, ha, hst⟩ := hst
    exact ih.tail ⟨a, hg _ a ha, hst⟩

/-- The state after a list of actions, if each of them is enabled and meets the guard. -/
def replay (step : σ → α → Option σ) (guard : σ → α → Prop) [∀ s a, Decidable (guard s a)] :
    σ → List α → Option σ
  | s, [] => some s
  | s, a :: as => if guard s a then (step s a).bind (replay step guard · as) else none

theorem replay_reaches [∀ s a, Decidable (guard s a)] {as : List α}
    (h : replay step guard s as = some t) : Reaches step guard s t := by
  induction as generalizing s with
  | nil =>
    obtain rfl := Option.some.inj h
    exact .refl
  | cons a as ih =>
    simp only [replay] at h
    by_cases hguard : guard s a
    · rw [if_pos hguard, Option.bind_eq_some_iff] at h
      obtain ⟨u, hu, ht⟩ := h
      exact .head ⟨a, hguard, hu⟩ (ih ht)
    · rw [if_neg hguard] at h
      cases h

theorem replay_map_reaches {β : Type} [∀ s a, Decidable (guard s a)] {as : List α} {f : σ → β}
    {b : β} (h : (replay step guard s as).map f = some b) :
    ∃ t, Reaches step guard s t ∧ f t = b := by
  obtain ⟨t, ht, hb⟩ := Option.map_eq_some_iff.mp h
  exact ⟨t, replay_reaches ht, hb⟩

/-! Machines that always have a next step. -/

section along
variable {β : Type} {next : β → σ → σ}

/-- The states along a stream of inputs. -/
def along (next : β → σ → σ) (inputs : ℕ → β) (s : σ) : ℕ → σ
  | 0 => s
  | n + 1 => next (inputs n) (along next inputs s n)

theorem along_invariant {I : σ → Prop} (hnext : ∀ b s, I s → I (next b s)) (inputs : ℕ → β)
    (hs : I s) (n : ℕ) : I (along next inputs s n) := by
  induction n with
  | zero => exact hs
  | succ n ih => exact hnext (inputs n) _ ih

/-- What every step keeps lasts, unless a step brings something else about. -/
theorem along_until {P Q : σ → Prop} (hnext : ∀ b s, P s → Q (next b s) ∨ P (next b s))
    (inputs : ℕ → β) {i n : ℕ} (hin : i ≤ n) (hi : P (along next inputs s i)) :
    (∃ j, i < j ∧ j ≤ n ∧ Q (along next inputs s j)) ∨ P (along next inputs s n) := by
  induction n with
  | zero =>
    obtain rfl : i = 0 := by omega
    exact .inr hi
  | succ n ih =>
    by_cases hlast : i = n + 1
    · subst hlast
      exact .inr hi
    · rcases ih (by omega) with ⟨j, hij, hjn, hQ⟩ | hn
      · exact .inl ⟨j, hij, by omega, hQ⟩
      · rcases hnext (inputs n) _ hn with hQ | hP
        · exact .inl ⟨n + 1, by omega, le_rfl, hQ⟩
        · exact .inr hP

/-- A measure that falls until the end cannot fall forever. -/
theorem along_ends {γ : Type} [Preorder γ] [WellFoundedLT γ] {I ended : σ → Prop}
    (measure : σ → γ) (hnext : ∀ b s, I s → I (next b s))
    (hfalls : ∀ b s, I s → ¬ ended s → measure (next b s) < measure s) (inputs : ℕ → β)
    (hs : I s) : ∃ n, ended (along next inputs s n) := by
  suffices hany : ∀ m n, measure (along next inputs s n) = m →
      ∃ n, ended (along next inputs s n) from hany _ 0 rfl
  intro m
  induction m using WellFoundedLT.induction with
  | ind m ih =>
    rintro n rfl
    by_cases hended : ended (along next inputs s n)
    · exact ⟨n, hended⟩
    · have hI := along_invariant hnext inputs hs n
      exact ih _ (hfalls (inputs n) _ hI hended) (n + 1) rfl

end along

section after
variable {β : Type} {next : β → σ → σ} {P : σ → β → Prop} {inputs : List β}

/-- The state after a list of inputs. -/
def after (next : β → σ → σ) (inputs : List β) (s : σ) : σ := inputs.foldl (fun s b => next b s) s

/-- Every input meets the condition in the state that it finds. -/
def Each (next : β → σ → σ) (P : σ → β → Prop) : List β → σ → Prop
  | [], _ => True
  | b :: inputs, s => P s b ∧ Each next P inputs (next b s)

theorem each_of_forall (h : ∀ s, ∀ b ∈ inputs, P s b) : Each next P inputs s := by
  induction inputs generalizing s with
  | nil => trivial
  | cons b inputs ih =>
    exact ⟨h s b List.mem_cons_self, ih (fun t c hc => h t c (List.mem_cons_of_mem b hc))⟩

theorem Each.invariant {I : σ → Prop} (hnext : ∀ s b, I s → P s b → I (next b s))
    (h : Each next P inputs s) (hs : I s) : I (after next inputs s) := by
  induction inputs generalizing s with
  | nil => exact hs
  | cons b inputs ih => exact ih h.2 (hnext s b hs h.1)

instance [∀ s b, Decidable (P s b)] : Decidable (Each next P inputs s) :=
  decideEach inputs s
where
  decideEach : ∀ inputs s, Decidable (Each next P inputs s)
    | [], _ => .isTrue trivial
    | b :: inputs, s =>
      have := decideEach inputs (next b s)
      inferInstanceAs (Decidable (P s b ∧ Each next P inputs (next b s)))

end after

end Runs
