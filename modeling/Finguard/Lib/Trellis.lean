import Mathlib.Algebra.BigOperators.Ring.Finset
import Mathlib.Algebra.Order.BigOperators.Ring.Finset
import Mathlib.Algebra.Order.Monoid.Unbundled.Basic
import Mathlib.Data.Fintype.BigOperators

/-! A trellis has a column of states for each observation. A path picks one state from each
column, and collects a label for its first state, for each move and for each observation. The
paths are weighed in two ways: by the product of their labels in a semiring, added over all
paths, and by the sum of their labels in an ordered monoid, of which the greatest is wanted. -/

namespace Finguard

structure Trellis (O σ W : Type) where
  initial : σ → W
  transition : σ → σ → W
  emission : O → σ → W

namespace Trellis
variable {O σ W : Type}

def labelsFrom (T : Trellis O σ W) : σ → List O → List σ → List W
  | r, o :: os, s :: p => T.transition r s :: T.emission o s :: T.labelsFrom s os p
  | _, _, _ => []

def labels (T : Trellis O σ W) : List O → List σ → List W
  | o :: os, s :: p => T.initial s :: T.emission o s :: T.labelsFrom s os p
  | _, _ => []

variable {T : Trellis O σ W} {os : List O} {p : List σ} {o : O} {r s t : σ}

theorem labelsFrom_concat (h : p.length = os.length) (hlast : p.getLast?.getD r = t) :
    T.labelsFrom r (os ++ [o]) (p ++ [s]) =
      T.labelsFrom r os p ++ [T.transition t s, T.emission o s] := by
  induction p generalizing os r with
  | nil =>
    have hos : os = [] := List.eq_nil_of_length_eq_zero h.symm
    have ht : r = t := hlast
    simp [hos, ht, labelsFrom]
  | cons s' p ih =>
    cases os with
    | nil => simp at h
    | cons o' os =>
      have hlen : p.length = os.length := by simpa using h
      have hp : p.getLast?.getD s' = t := by
        rw [← hlast, List.getLast?_cons]
        rfl
      simp only [List.cons_append, labelsFrom, ih hlen hp]

theorem labels_concat (h : p.length = os.length) (hlast : p.getLast? = some t) :
    T.labels (os ++ [o]) (p ++ [s]) =
      T.labels os p ++ [T.transition t s, T.emission o s] := by
  cases p with
  | nil => simp at hlast
  | cons s' p =>
    cases os with
    | nil => simp at h
    | cons o' os =>
      have hlen : p.length = os.length := by simpa using h
      have hp : p.getLast?.getD s' = t := by
        rw [List.getLast?_cons] at hlast
        exact Option.some.inj hlast
      simp only [List.cons_append, labels, labelsFrom_concat hlen hp]

section Sequences
variable (σ) [Fintype σ] [DecidableEq σ]

/-- The state sequences of a length. -/
def sequences : ℕ → Finset (List σ)
  | 0 => {[]}
  | k + 1 => (sequences k ×ˢ Finset.univ).image fun x => x.1 ++ [x.2]

variable {σ}

theorem mem_sequences {k : ℕ} : p ∈ sequences σ k ↔ p.length = k := by
  induction k generalizing p with
  | zero => simp [sequences]
  | succ k ih =>
    simp only [sequences, Finset.mem_image, Finset.mem_product, Finset.mem_univ, and_true,
      Prod.exists, ih]
    constructor
    · rintro ⟨q, s, hq, rfl⟩
      simp [hq]
    · intro h
      cases p using List.reverseRecOn with
      | nil => simp at h
      | append_singleton q s => exact ⟨q, s, by simpa using h, rfl⟩

theorem sum_sequences_succ {M : Type} [AddCommMonoid M] (k : ℕ) (f : List σ → M) :
    ∑ p ∈ sequences σ (k + 1), f p = ∑ p ∈ sequences σ k, ∑ s, f (p ++ [s]) := by
  have hinj : Set.InjOn (fun x : List σ × σ => x.1 ++ [x.2]) (sequences σ k ×ˢ Finset.univ) := by
    intro x _ y _ h
    obtain ⟨hq, hs⟩ := List.append_inj' h rfl
    exact Prod.ext hq (List.singleton_inj.mp hs)
  rw [sequences, Finset.sum_image (by exact_mod_cast hinj), Finset.sum_product]

end Sequences

theorem ne_nil_of_length_eq (hos : os ≠ []) (h : p.length = os.length) : p ≠ [] := by
  intro hnil
  rw [hnil] at h
  exact hos (List.eq_nil_of_length_eq_zero h.symm)

section Sums
variable {R : Type} [Semiring R] {T : Trellis O σ R}

/-- The weight of a path is the product of its labels. -/
def weight (T : Trellis O σ R) (os : List O) (p : List σ) : R := (T.labels os p).prod

theorem weight_concat (h : p.length = os.length) (hlast : p.getLast? = some r) :
    T.weight (os ++ [o]) (p ++ [s]) = T.weight os p * T.transition r s * T.emission o s := by
  simp [weight, labels_concat h hlast, mul_assoc]

variable [Fintype σ] [DecidableEq σ]

/-- The weight of the paths that end in a state. -/
def weightTo (T : Trellis O σ R) (os : List O) (s : σ) : R :=
  ∑ p ∈ sequences σ os.length with p.getLast? = some s, T.weight os p

/-- The weight of all paths. -/
def totalWeight (T : Trellis O σ R) (os : List O) : R :=
  ∑ p ∈ sequences σ os.length, T.weight os p

theorem weightTo_singleton : T.weightTo [o] s = T.initial s * T.emission o s := by
  have hsum : T.weightTo [o] s = ∑ t, if t = s then T.weight [o] [t] else 0 := by
    rw [weightTo, Finset.sum_filter]
    simp [sequences]
  simp [hsum, weight, labels, labelsFrom]

/-- A path with a last state is counted under that state alone. -/
theorem sum_last {M : Type} [AddCommMonoid M] (hp : p ≠ []) (f : σ → M) :
    ∑ r, (if p.getLast? = some r then f r else 0) = f (p.getLast hp) := by
  simp [List.getLast?_eq_some_getLast hp]

theorem weightTo_concat (hos : os ≠ []) :
    T.weightTo (os ++ [o]) s =
      (∑ r, T.weightTo os r * T.transition r s) * T.emission o s := by
  have hext : ∀ p ∈ sequences σ os.length,
      (∑ s', if (p ++ [s']).getLast? = some s then T.weight (os ++ [o]) (p ++ [s']) else 0) =
        ∑ r, if p.getLast? = some r then T.weight os p * T.transition r s * T.emission o s
          else 0 := by
    intro p hp
    have hne := ne_nil_of_length_eq hos (mem_sequences.mp hp)
    have hlast : p.getLast? = some (p.getLast hne) := List.getLast?_eq_some_getLast hne
    rw [sum_last hne]
    simp [weight_concat (mem_sequences.mp hp) hlast]
  calc T.weightTo (os ++ [o]) s
      = ∑ p ∈ sequences σ (os.length + 1),
          if p.getLast? = some s then T.weight (os ++ [o]) p else 0 := by
        rw [weightTo, Finset.sum_filter, List.length_append, List.length_singleton]
    _ = ∑ p ∈ sequences σ os.length, ∑ r, if p.getLast? = some r then
          T.weight os p * T.transition r s * T.emission o s else 0 := by
        rw [sum_sequences_succ, Finset.sum_congr rfl hext]
    _ = ∑ r, T.weightTo os r * T.transition r s * T.emission o s := by
        rw [Finset.sum_comm]
        refine Finset.sum_congr rfl fun r _ => ?_
        rw [weightTo, Finset.sum_mul, Finset.sum_mul, Finset.sum_filter]
    _ = (∑ r, T.weightTo os r * T.transition r s) * T.emission o s := (Finset.sum_mul ..).symm

theorem sum_weightTo (hos : os ≠ []) : ∑ s, T.weightTo os s = T.totalWeight os := by
  simp only [weightTo, totalWeight, Finset.sum_filter]
  rw [Finset.sum_comm]
  exact Finset.sum_congr rfl fun p hp =>
    sum_last (ne_nil_of_length_eq hos (mem_sequences.mp hp)) _

end Sums

section Positivity
variable {K : Type} [CommRing K] [LinearOrder K] [IsStrictOrderedRing K] {T : Trellis O σ K}

structure Nonnegative (T : Trellis O σ K) : Prop where
  initial : ∀ s, 0 ≤ T.initial s
  transition : ∀ r s, 0 ≤ T.transition r s
  emission : ∀ o s, 0 ≤ T.emission o s

omit [IsStrictOrderedRing K] in
theorem Nonnegative.labelsFrom (h : T.Nonnegative) : ∀ x ∈ T.labelsFrom r os p, 0 ≤ x := by
  induction p generalizing r os with
  | nil => cases os <;> simp [Trellis.labelsFrom]
  | cons s p ih =>
    cases os with
    | nil => simp [Trellis.labelsFrom]
    | cons o os =>
      simp only [Trellis.labelsFrom, List.mem_cons, forall_eq_or_imp]
      exact ⟨h.transition r s, h.emission o s, ih⟩

theorem Nonnegative.weight (h : T.Nonnegative) : 0 ≤ T.weight os p := by
  refine List.prod_nonneg ?_
  cases os with
  | nil => simp [labels]
  | cons o os =>
    cases p with
    | nil => simp [labels]
    | cons s p =>
      simp only [labels, List.mem_cons, forall_eq_or_imp]
      exact ⟨h.initial s, h.emission o s, h.labelsFrom⟩

variable [Fintype σ] [DecidableEq σ]

theorem Nonnegative.weightTo (h : T.Nonnegative) : 0 ≤ T.weightTo os s :=
  Finset.sum_nonneg fun _ _ => h.weight

/-- Where each state can be left, some path goes on for as long as there are observations. -/
theorem Nonnegative.exists_weightTo_pos (h : T.Nonnegative) (hinitial : ∃ s, 0 < T.initial s)
    (htransition : ∀ r, ∃ s, 0 < T.transition r s) (hemission : ∀ o s, 0 < T.emission o s)
    (hos : os ≠ []) : ∃ s, 0 < T.weightTo os s := by
  induction os using List.reverseRecOn with
  | nil => exact absurd rfl hos
  | append_singleton os o ih =>
    by_cases hnil : os = []
    · obtain ⟨s, hs⟩ := hinitial
      refine ⟨s, ?_⟩
      rw [hnil, List.nil_append, weightTo_singleton]
      exact mul_pos hs (hemission o s)
    · obtain ⟨r, hr⟩ := ih hnil
      obtain ⟨s, hs⟩ := htransition r
      refine ⟨s, ?_⟩
      have hterm : 0 < T.weightTo os r * T.transition r s := mul_pos hr hs
      have hsum : 0 < ∑ r, T.weightTo os r * T.transition r s :=
        Finset.sum_pos' (fun r _ => mul_nonneg h.weightTo (h.transition r s))
          ⟨r, Finset.mem_univ r, hterm⟩
      rw [weightTo_concat hnil]
      exact mul_pos hsum (hemission o s)

theorem Nonnegative.totalWeight_pos (h : T.Nonnegative) (hos : os ≠ [])
    (hpos : ∃ s, 0 < T.weightTo os s) : 0 < T.totalWeight os := by
  obtain ⟨s, hs⟩ := hpos
  rw [← sum_weightTo hos]
  exact Finset.sum_pos' (fun _ _ => h.weightTo) ⟨s, Finset.mem_univ s, hs⟩

end Positivity

section Scores
variable {S : Type} [AddMonoid S] {T : Trellis O σ S}

/-- The score of a path is the sum of its labels. -/
def score (T : Trellis O σ S) (os : List O) (p : List σ) : S := (T.labels os p).sum

theorem score_concat (h : p.length = os.length) (hlast : p.getLast? = some r) :
    T.score (os ++ [o]) (p ++ [s]) = T.score os p + T.transition r s + T.emission o s := by
  simp [score, labels_concat h hlast, add_assoc]

theorem score_singleton : T.score [o] [s] = T.initial s + T.emission o s := by
  simp [score, labels, labelsFrom]

variable [LE S]

/-- A path to a state that no other path to it beats. -/
structure Best (T : Trellis O σ S) (os : List O) (s : σ) (p : List σ) : Prop where
  length : p.length = os.length
  last : p.getLast? = some s
  optimal : ∀ q : List σ, q.length = os.length → q.getLast? = some s →
    T.score os q ≤ T.score os p

end Scores

section Optimality
variable {S : Type} [AddMonoid S] [Preorder S] {T : Trellis O σ S} {path : σ → List σ}

theorem Best.singleton : T.Best [o] s [s] where
  length := rfl
  last := rfl
  optimal q hlen hlast := by
    have hq : q = [s] := by
      match q, hlen with
      | [t], _ => simpa using hlast
    rw [hq]

theorem Best.concat [AddRightMono S] (hos : os ≠ []) (hbest : ∀ r, T.Best os r (path r))
    (hmax : ∀ r', T.score os (path r') + T.transition r' s ≤
      T.score os (path r) + T.transition r s) :
    T.Best (os ++ [o]) s (path r ++ [s]) where
  length := by simp [(hbest r).length]
  last := by simp
  optimal q hlen hlast := by
    cases q using List.reverseRecOn with
    | nil => simp at hlast
    | append_singleton q t =>
      have ht : t = s := by simpa using hlast
      have hq : q.length = os.length := by simpa using hlen
      have hne := ne_nil_of_length_eq hos hq
      have hlastq : q.getLast? = some (q.getLast hne) := List.getLast?_eq_some_getLast hne
      rw [ht, score_concat hq hlastq, score_concat (hbest r).length (hbest r).last]
      have hstep : T.score os q + T.transition (q.getLast hne) s ≤
          T.score os (path r) + T.transition r s :=
        le_trans (add_le_add_left ((hbest _).optimal q hq hlastq) _) (hmax _)
      exact add_le_add_left hstep _

theorem Best.greatest (hos : os ≠ []) (hbest : ∀ r, T.Best os r (path r))
    (hmax : ∀ r', T.score os (path r') ≤ T.score os (path r)) :
    IsGreatest {x | ∃ q : List σ, q.length = os.length ∧ T.score os q = x}
      (T.score os (path r)) := by
  refine ⟨⟨path r, (hbest r).length, rfl⟩, ?_⟩
  rintro x ⟨q, hq, rfl⟩
  have hne := ne_nil_of_length_eq hos hq
  have hlast : q.getLast? = some (q.getLast hne) := List.getLast?_eq_some_getLast hne
  exact le_trans ((hbest _).optimal q hq hlast) (hmax _)

end Optimality

end Trellis

end Finguard
