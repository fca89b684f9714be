import Mathlib

/-! A list taken apart at a separator, put together again with it, and freed of what stands around
it. -/

namespace Fragments

section
variable {α : Type} [DecidableEq α]

/-- What is left of a separator that has begun is passed over first. -/
def splitFrom (sep : List α) : ℕ → List α → List (List α)
  | _, [] => [[]]
  | k + 1, _ :: cs => splitFrom sep k cs
  | 0, c :: cs =>
    if sep <+: c :: cs then [] :: splitFrom sep (sep.length - 1) cs
    else (splitFrom sep 0 cs).modifyHead (c :: ·)

/-- From left to right, at every place where the separator stands and is not passed over. -/
def split (sep cs : List α) : List (List α) := splitFrom sep 0 cs

variable {sep cs : List α}

theorem splitFrom_ne_nil (k : ℕ) : splitFrom sep k cs ≠ [] := by
  induction cs generalizing k with
  | nil => cases k <;> exact List.cons_ne_nil _ _
  | cons c cs ih =>
    cases k with
    | succ k => exact ih k
    | zero =>
      rw [splitFrom]
      split_ifs
      · exact List.cons_ne_nil _ _
      · rw [Ne, List.modifyHead_eq_nil_iff]
        exact ih 0

theorem splitFrom_drop (k : ℕ) : splitFrom sep k cs = splitFrom sep 0 (cs.drop k) := by
  induction cs generalizing k with
  | nil => cases k <;> rfl
  | cons c cs ih =>
    cases k with
    | zero => rfl
    | succ k => exact ih k

end

/-! What is put together. -/

section
variable {α : Type} {sep : List α} {l m : List (List α)}

theorem intercalate_append (hl : l ≠ []) (hm : m ≠ []) :
    sep.intercalate (l ++ m) = sep.intercalate l ++ (sep ++ sep.intercalate m) := by
  induction l with
  | nil => exact absurd rfl hl
  | cons a l ih =>
    cases l with
    | nil =>
      rw [List.singleton_append, List.intercalate_cons_of_ne_nil hm, List.intercalate_singleton,
        List.append_assoc]
    | cons b l =>
      rw [List.cons_append, List.cons_append, List.intercalate_cons_cons, ← List.cons_append,
        ih (List.cons_ne_nil b l), List.intercalate_cons_cons]
      simp only [List.append_assoc]

theorem prefix_intercalate : sep.intercalate l <+: sep.intercalate (l ++ m) := by
  by_cases hl : l = []
  · rw [hl]
    exact List.nil_prefix
  · by_cases hm : m = []
    · rw [hm, List.append_nil]
    · rw [intercalate_append hl hm]
      exact List.prefix_append _ _

theorem suffix_intercalate : sep.intercalate m <:+ sep.intercalate (l ++ m) := by
  by_cases hm : m = []
  · rw [hm]
    exact List.nil_suffix
  · by_cases hl : l = []
    · rw [hl, List.nil_append]
    · rw [intercalate_append hl hm, ← List.append_assoc]
      exact List.suffix_append _ _

theorem infix_intercalate (h : l <:+: m) : sep.intercalate l <:+: sep.intercalate m := by
  obtain ⟨u, v, rfl⟩ := h
  exact suffix_intercalate.isInfix.trans prefix_intercalate.isInfix

/-- Every part but one is followed by a separator. -/
theorem length_intercalate (hl : l ≠ []) :
    (sep.intercalate l).length + sep.length = (l.map fun a => a.length + sep.length).sum := by
  induction l with
  | nil => exact absurd rfl hl
  | cons a l ih =>
    by_cases hrest : l = []
    · rw [hrest, List.intercalate_singleton]
      rfl
    · rw [List.intercalate_cons_of_ne_nil hrest, List.map_cons, List.sum_cons, ← ih hrest]
      simp only [List.length_append]
      omega

theorem intercalate_nil_singletons (cs : List α) : [].intercalate (cs.map fun c => [c]) = cs := by
  induction cs with
  | nil => rfl
  | cons c cs ih =>
    by_cases hrest : cs = []
    · rw [hrest]
      rfl
    · rw [List.map_cons, List.intercalate_cons_of_ne_nil (by simpa using hrest), ih]
      rfl

variable [DecidableEq α]

theorem intercalate_split (hsep : sep ≠ []) (cs : List α) : sep.intercalate (split sep cs) = cs := by
  induction hn : cs.length using Nat.strong_induction_on generalizing cs with
  | _ n ih =>
    cases cs with
    | nil => rfl
    | cons c cs =>
      have hlen : cs.length < n := by
        rw [← hn]
        exact Nat.lt_succ_self _
      rw [split, splitFrom]
      split_ifs with hhere
      · -- The separator is dropped as a whole.
        have hpos : 0 < sep.length := List.length_pos_iff.mpr hsep
        obtain ⟨rest, hrest⟩ := hhere
        have hdrop : cs.drop (sep.length - 1) = rest := by
          have hdrop := congrArg (List.drop sep.length) hrest
          rw [List.drop_left] at hdrop
          rw [hdrop, show sep.length = sep.length - 1 + 1 by omega]
          rfl
        have hlt : rest.length < n := by
          have hlength := congrArg List.length hrest
          rw [List.length_append, List.length_cons] at hlength
          omega
        rw [splitFrom_drop, hdrop, List.intercalate_cons_of_ne_nil (splitFrom_ne_nil 0),
          List.nil_append]
        exact (congrArg (sep ++ ·) (ih rest.length hlt rest rfl)).trans hrest
      · have hrest := ih cs.length hlen cs rfl
        have hne : splitFrom sep 0 cs ≠ [] := splitFrom_ne_nil 0
        obtain ⟨a, l, hal⟩ := List.exists_cons_of_ne_nil hne
        rw [split, hal] at hrest
        rw [hal, List.modifyHead_cons, ← hrest]
        cases l with
        | nil => rfl
        | cons b l => rfl

end

/-! What is left without its ends. -/

section
variable {α : Type} (p : α → Bool)

def trim (cs : List α) : List α := (cs.dropWhile p).rdropWhile p

variable {p} {l m u v : List α}

theorem dropWhile_append : (l ++ m).dropWhile p =
    if l.dropWhile p = [] then m.dropWhile p else l.dropWhile p ++ m := by
  rw [List.dropWhile_append]
  simp only [List.isEmpty_iff]

theorem rdropWhile_append : (l ++ m).rdropWhile p =
    if m.rdropWhile p = [] then l.rdropWhile p else l ++ m.rdropWhile p := by
  rw [List.rdropWhile, List.reverse_append, dropWhile_append]
  simp only [List.rdropWhile, List.reverse_eq_nil_iff]
  split_ifs
  · rfl
  · rw [List.reverse_append, List.reverse_reverse]

theorem trim_infix_self : trim p l <:+: l :=
  (List.rdropWhile_prefix p _).isInfix.trans (List.dropWhile_suffix p).isInfix

theorem trim_append_left : trim p m <:+ trim p (l ++ m) := by
  have hdrop : m.dropWhile p <:+ (l ++ m).dropWhile p := by
    rw [dropWhile_append]
    split_ifs
    · exact List.suffix_rfl
    · exact (List.dropWhile_suffix p).trans (List.suffix_append _ _)
  obtain ⟨w, hw⟩ := hdrop
  rw [trim, trim, ← hw, rdropWhile_append]
  split_ifs with hback
  · rw [hback]
    exact List.nil_suffix
  · exact List.suffix_append _ _

theorem trim_append_right : trim p l <+: trim p (l ++ m) := by
  rw [trim, trim, dropWhile_append]
  split_ifs with hfront
  · rw [hfront, List.rdropWhile_nil]
    exact List.nil_prefix
  · rw [rdropWhile_append]
    split_ifs
    · exact List.prefix_rfl
    · exact (List.rdropWhile_prefix p _).trans (List.prefix_append _ _)

theorem infix_trim (h : l <:+: m) : trim p l <:+: trim p m := by
  obtain ⟨u, v, rfl⟩ := h
  exact trim_append_left.isInfix.trans trim_append_right.isInfix

theorem trim_append (hu : ∀ c ∈ u, p c = true) (hv : ∀ c ∈ v, p c = true) :
    trim p (u ++ m ++ v) = trim p m := by
  have hback : v.rdropWhile p = [] := List.rdropWhile_eq_nil_iff.mpr hv
  have hv' : v.dropWhile p = [] := List.dropWhile_eq_nil_iff.mpr hv
  rw [trim, List.append_assoc, List.dropWhile_append_of_pos hu, dropWhile_append]
  split_ifs with hm
  · rw [hv', trim, hm]
  · rw [rdropWhile_append, if_pos hback, trim]

theorem exists_trim (l : List α) : ∃ u v, l = u ++ trim p l ++ v ∧ (∀ c ∈ u, p c = true) ∧
    ∀ c ∈ v, p c = true := by
  refine ⟨l.takeWhile p, (l.dropWhile p).rtakeWhile p, ?_, ?_, ?_⟩
  · rw [trim, List.append_assoc, List.rdropWhile_append_rtakeWhile, List.takeWhile_append_dropWhile]
  · exact fun c => List.mem_takeWhile_imp
  · exact fun c => List.mem_rtakeWhile_imp

theorem trim_trim : trim p (trim p l) = trim p l := by
  obtain ⟨u, v, hl, hu, hv⟩ := exists_trim (p := p) l
  have heq := trim_append (m := trim p l) hu hv
  rw [← hl] at heq
  exact heq.symm

theorem trim_eq_nil : trim p l = [] ↔ ∀ c ∈ l, p c = true := by
  constructor
  · intro h
    obtain ⟨u, v, hl, hu, hv⟩ := exists_trim (p := p) l
    rw [h, List.append_nil] at hl
    rw [hl]
    exact fun c hc => (List.mem_append.mp hc).elim (hu c) (hv c)
  · intro h
    rw [trim, List.dropWhile_eq_nil_iff.mpr h, List.rdropWhile_nil]

end

end Fragments
