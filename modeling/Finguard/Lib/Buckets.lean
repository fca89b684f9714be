import Mathlib

/-! A list cut into buckets by a whole-numbered key. The buckets of a range of keys, put back in the
order of the list, are a filter of it. -/

namespace Buckets
variable {α : Type} {xs : List α} {l l' : List (ℕ × α)} {key : α → ℤ} {p : α → Bool} {k lo hi : ℤ}

def enumerate (xs : List α) : List (ℕ × α) := xs.zipIdx.map Prod.swap

/-- A dictionary of lists. The latest entry of a key counts, and a missing key has no elements. -/
structure Index (α : Type) where
  entries : List (ℤ × List (ℕ × α)) := []

namespace Index

def get (index : Index α) (k : ℤ) : List (ℕ × α) :=
  ((index.entries.find? (·.1 = k)).map Prod.snd).getD []

def append (index : Index α) (k : ℤ) (a : ℕ × α) : Index α :=
  ⟨(k, index.get k ++ [a]) :: index.entries⟩

@[simp] theorem get_empty : (({} : Index α).get k) = [] := rfl

theorem get_append {index : Index α} {k' : ℤ} {a : ℕ × α} :
    (index.append k' a).get k = index.get k ++ if k' = k then [a] else [] := by
  by_cases hk : k' = k
  · subst hk
    simp [append, get]
  · simp [append, get, hk]

end Index

def bucketed (key : α → ℤ) (xs : List α) : Index α :=
  (enumerate xs).foldl (fun index a => index.append (key a.2) a) {}

/-- The buckets from `lo` to `hi` in the order of the list. -/
def near (index : Index α) (lo hi : ℤ) : List (ℕ × α) :=
  ((Int.range lo (hi + 1)).flatMap index.get).insertionSort (fun a b => a.1 ≤ b.1)

theorem enumerate_map_snd : (enumerate xs).map Prod.snd = xs := by
  have hcomp : (Prod.snd ∘ Prod.swap : α × ℕ → α) = Prod.fst := rfl
  rw [enumerate, List.map_map, hcomp, List.zipIdx_map_fst]

theorem enumerate_pairwise : (enumerate xs).Pairwise (fun a b => a.1 < b.1) := by
  have hcomp : (Prod.fst ∘ Prod.swap : α × ℕ → ℕ) = Prod.snd := rfl
  have hfst : (enumerate xs).map Prod.fst = List.range' 0 xs.length := by
    rw [enumerate, List.map_map, hcomp, List.zipIdx_map_snd]
  rw [← List.pairwise_map (f := Prod.fst) (R := (· < ·)), hfst]
  exact List.pairwise_lt_range'

theorem get_foldl_append {index : Index α} :
    (l.foldl (fun index a => index.append (key a.2) a) index).get k =
      index.get k ++ l.filter (key ·.2 = k) := by
  induction l generalizing index with
  | nil => simp
  | cons a l ih =>
    rw [List.foldl_cons, ih, Index.get_append, List.append_assoc]
    by_cases hk : key a.2 = k <;> simp [hk]

theorem get_bucketed : (bucketed key xs).get k = (enumerate xs).filter (key ·.2 = k) := by
  rw [bucketed, get_foldl_append, Index.get_empty, List.nil_append]

theorem flatMap_filter_perm {ks : List ℤ} (hks : ks.Nodup) :
    (ks.flatMap fun k => l.filter (key ·.2 = k)).Perm (l.filter (key ·.2 ∈ ks)) := by
  induction ks with
  | nil => simp
  | cons k ks ih =>
    obtain ⟨hk, hks⟩ := List.nodup_cons.mp hks
    have hfirst : (l.filter (key ·.2 ∈ k :: ks)).filter (key ·.2 = k) = l.filter (key ·.2 = k) := by
      rw [List.filter_filter]
      refine List.filter_congr fun a _ => ?_
      by_cases ha : key a.2 = k <;> simp [ha]
    have hrest : (l.filter (key ·.2 ∈ k :: ks)).filter (fun a => !decide (key a.2 = k)) =
        l.filter (key ·.2 ∈ ks) := by
      rw [List.filter_filter]
      refine List.filter_congr fun a _ => ?_
      by_cases ha : key a.2 = k
      · simp [ha, hk]
      · simp [ha]
    have hsplit := List.filter_append_perm (fun a => decide (key a.2 = k))
      (l.filter (key ·.2 ∈ k :: ks))
    rw [hfirst, hrest] at hsplit
    rw [List.flatMap_cons]
    exact ((ih hks).append_left _).trans hsplit

theorem insertionSort_eq_of_perm (hl : l.Pairwise (fun a b => a.1 < b.1)) (hp : l'.Perm l) :
    l'.insertionSort (fun a b => a.1 ≤ b.1) = l := by
  have hnodup : (l.map Prod.fst).Nodup := by
    rw [List.Nodup, List.pairwise_map]
    exact hl.imp (fun hab => hab.ne)
  have hperm : (l'.insertionSort (fun a b => a.1 ≤ b.1)).Perm l :=
    (List.perm_insertionSort _ _).trans hp
  have htotal : Std.Total (fun a b : ℕ × α => a.1 ≤ b.1) := ⟨fun a b => le_total a.1 b.1⟩
  have htrans : IsTrans (ℕ × α) (fun a b => a.1 ≤ b.1) := ⟨fun _ _ _ hab hbc => le_trans hab hbc⟩
  have hsorted : (l'.insertionSort (fun a b => a.1 ≤ b.1)).Pairwise (fun a b => a.1 ≤ b.1) :=
    List.pairwise_insertionSort _ _
  refine List.Perm.eq_of_pairwise ?_ hsorted (hl.imp fun hab => hab.le) hperm
  intro a b ha hb hab hba
  exact List.inj_on_of_nodup_map hnodup (hperm.mem_iff.mp ha) hb (le_antisymm hab hba)

theorem nodup_range : (Int.range lo hi).Nodup := by
  rw [Int.range, List.Nodup, List.pairwise_map]
  exact List.nodup_range.imp fun hab he => hab (by omega)

theorem near_bucketed : near (bucketed key xs) lo hi =
    (enumerate xs).filter (fun a => decide (lo ≤ key a.2 ∧ key a.2 ≤ hi)) := by
  have hkeys : (enumerate xs).filter (key ·.2 ∈ Int.range lo (hi + 1)) =
      (enumerate xs).filter (fun a => decide (lo ≤ key a.2 ∧ key a.2 ≤ hi)) := by
    refine List.filter_congr fun a _ => ?_
    simp only [Int.mem_range_iff, Int.lt_add_one_iff]
  have hget : (bucketed key xs).get = fun k => (enumerate xs).filter (key ·.2 = k) :=
    funext fun _ => get_bucketed
  rw [near, hget]
  refine insertionSort_eq_of_perm (enumerate_pairwise.filter _) ?_
  rw [← hkeys]
  exact flatMap_filter_perm nodup_range

/-- Nothing outside the buckets is looked for, so scanning them finds what scanning the list does. -/
theorem find?_near (h : ∀ a ∈ xs, p a → lo ≤ key a ∧ key a ≤ hi) :
    ((near (bucketed key xs) lo hi).find? (fun a => p a.2)).map Prod.snd = xs.find? p := by
  have hcomp : (fun a : ℕ × α => p a.2) = p ∘ Prod.snd := rfl
  have hmem : ∀ a ∈ enumerate xs,
      decide (decide (lo ≤ key a.2 ∧ key a.2 ≤ hi) = true ∧ p a.2 = true) = p a.2 := by
    intro a ha
    have ha' : a.2 ∈ xs := by
      have hmap := List.mem_map_of_mem (f := Prod.snd) ha
      rwa [enumerate_map_snd] at hmap
    cases hp : p a.2 with
    | false => simp
    | true => simp [h a.2 ha' hp]
  rw [near_bucketed, List.find?_filter]
  have hall : xs.find? p = ((enumerate xs).find? (fun a => p a.2)).map Prod.snd := by
    rw [hcomp, ← List.find?_map, enumerate_map_snd]
  rw [hall]
  congr 1
  rw [← List.head?_filter, ← List.head?_filter]
  exact congrArg List.head? (List.filter_congr hmem)

end Buckets
