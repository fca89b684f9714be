import Mathlib

/-! Trees whose nodes have any number of children, and the walk through them level by
level. -/

inductive RoseTree (α : Type) where
  | node (label : α) (children : List (RoseTree α))

namespace RoseTree
variable {α : Type} {a : α} {t : RoseTree α} {ts : List (RoseTree α)}

def label : RoseTree α → α
  | node a _ => a

mutual

def size : RoseTree α → ℕ
  | node _ ts => sizeAll ts + 1

def sizeAll : List (RoseTree α) → ℕ
  | [] => 0
  | t :: ts => size t + sizeAll ts

end

inductive Occurs (a : α) : RoseTree α → Prop
  | root {us : List (RoseTree α)} : Occurs a (node a us)
  | child {b : α} {u : RoseTree α} {us : List (RoseTree α)} (hu : u ∈ us) (h : Occurs a u) :
    Occurs a (node b us)

mutual

def map {β : Type} (f : α → β) : RoseTree α → RoseTree β
  | node a ts => node (f a) (mapAll f ts)

def mapAll {β : Type} (f : α → β) : List (RoseTree α) → List (RoseTree β)
  | [] => []
  | t :: ts => map f t :: mapAll f ts

end

/-- The labels of a queue of trees. Every label costs one unit of fuel. -/
def walk : ℕ → List (RoseTree α) → List α
  | 0, _ => []
  | _ + 1, [] => []
  | n + 1, node a ts :: rest => a :: walk n (rest ++ ts)

def bfs (t : RoseTree α) : List α := walk t.size [t]

theorem occurs_node {b : α} : Occurs a (node b ts) ↔ a = b ∨ ∃ t ∈ ts, Occurs a t := by
  constructor
  · rintro (_ | ⟨ht, h⟩)
    · exact .inl rfl
    · exact .inr ⟨_, ht, h⟩
  · rintro (rfl | ⟨t, ht, h⟩)
    · exact .root
    · exact .child ht h

theorem sizeAll_append (ts us : List (RoseTree α)) :
    sizeAll (ts ++ us) = sizeAll ts + sizeAll us := by
  induction ts with
  | nil => simp [sizeAll]
  | cons t ts ih =>
    simp only [List.cons_append, sizeAll, ih]
    omega

theorem mem_walk {n : ℕ} (h : sizeAll ts ≤ n) : a ∈ walk n ts ↔ ∃ t ∈ ts, Occurs a t := by
  induction n generalizing ts with
  | zero =>
    cases ts with
    | nil => simp [walk]
    | cons t ts =>
      obtain ⟨b, us⟩ := t
      simp only [sizeAll, size] at h
      omega
  | succ n ih =>
    cases ts with
    | nil => simp [walk]
    | cons t rest =>
      obtain ⟨b, us⟩ := t
      have hsize : sizeAll (rest ++ us) ≤ n := by
        simp only [sizeAll, size] at h
        rw [sizeAll_append]
        omega
      simp only [walk, List.mem_cons, ih hsize, List.mem_append, or_and_right, exists_or,
        exists_eq_left, occurs_node]
      rw [or_assoc]
      exact or_congr_right or_comm

theorem mem_bfs : a ∈ t.bfs ↔ Occurs a t := by
  have hsize : sizeAll [t] ≤ t.size := by simp [sizeAll]
  rw [bfs, mem_walk hsize]
  simp

end RoseTree
