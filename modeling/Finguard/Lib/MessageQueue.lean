import Mathlib

/-! A queue whose messages stay with it until they are acknowledged. -/

structure MessageQueue (μ : Type) where
  ready : List μ := []
  unacked : List μ := []
deriving DecidableEq

namespace MessageQueue
variable {μ : Type} {q q' : MessageQueue μ} {m a : μ}

instance : Membership μ (MessageQueue μ) := ⟨fun q m => m ∈ q.ready ∨ m ∈ q.unacked⟩

theorem mem_def : m ∈ q ↔ m ∈ q.ready ∨ m ∈ q.unacked := Iff.rfl

theorem not_mem_empty : m ∉ ({} : MessageQueue μ) := by simp [mem_def]

def publish (q : MessageQueue μ) (m : μ) : MessageQueue μ := { q with ready := q.ready ++ [m] }

/-- The oldest message leaves the queue without being delivered. -/
def expire (q : MessageQueue μ) : Option (μ × MessageQueue μ) :=
  match q.ready with
  | [] => none
  | m :: ready => some (m, { q with ready })

def deliver (q : MessageQueue μ) : Option (μ × MessageQueue μ) :=
  match q.ready with
  | [] => none
  | m :: ready => some (m, ⟨ready, m :: q.unacked⟩)

section
variable [DecidableEq μ]

def ack (q : MessageQueue μ) (m : μ) : MessageQueue μ := { q with unacked := q.unacked.erase m }

def requeue (q : MessageQueue μ) (m : μ) : MessageQueue μ := ⟨m :: q.ready, q.unacked.erase m⟩

end

@[simp] theorem mem_publish : a ∈ q.publish m ↔ a ∈ q ∨ a = m := by
  simp only [mem_def, publish, List.mem_append, List.mem_singleton]
  tauto

theorem mem_expire (h : q.expire = some (m, q')) : a ∈ q ↔ a = m ∨ a ∈ q' := by
  cases hready : q.ready with
  | nil => simp [expire, hready] at h
  | cons first ready =>
    simp only [expire, hready, Option.some.injEq, Prod.mk.injEq] at h
    obtain ⟨rfl, rfl⟩ := h
    simp only [mem_def, hready, List.mem_cons]
    tauto

theorem mem_deliver (h : q.deliver = some (m, q')) : m ∈ q ∧ (a ∈ q' ↔ a ∈ q) := by
  cases hready : q.ready with
  | nil => simp [deliver, hready] at h
  | cons first ready =>
    simp only [deliver, hready, Option.some.injEq, Prod.mk.injEq] at h
    obtain ⟨rfl, rfl⟩ := h
    simp only [mem_def, hready, List.mem_cons]
    tauto

section
variable [DecidableEq μ]

theorem mem_of_mem_ack (h : a ∈ q.ack m) : a ∈ q := h.imp_right List.mem_of_mem_erase

theorem mem_ack_of_ne (hne : a ≠ m) (h : a ∈ q) : a ∈ q.ack m :=
  h.imp_right (List.mem_erase_of_ne hne).mpr

theorem mem_requeue_of_mem (h : a ∈ q) : a ∈ q.requeue m := by
  by_cases hne : a = m
  · subst hne
    exact .inl List.mem_cons_self
  · exact h.imp (List.mem_cons_of_mem m) (List.mem_erase_of_ne hne).mpr

theorem of_mem_requeue (h : a ∈ q.requeue m) : a = m ∨ a ∈ q := by
  rcases h with hready | hunacked
  · rcases List.mem_cons.mp hready with rfl | hready
    · exact .inl rfl
    · exact .inr (.inl hready)
  · exact .inr (.inr (List.mem_of_mem_erase hunacked))

end

end MessageQueue
