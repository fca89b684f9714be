import Mathlib

/-! Patterns that are matched by backtracking, and the walk that takes a text apart at its matches. A
pattern is given what is to match after it. -/

namespace Pattern

section
variable {α β : Type} [DecidableEq α]

def literal (s : List α) (next : List α → Option β) (cs : List α) : Option β :=
  if s <+: cs then next (cs.drop s.length) else none

/-- As many as there are, or fewer if the rest does not match. -/
def greedy (p : α → Bool) (next : List α → Option β) : List α → Option β
  | [] => next []
  | c :: cs => if p c then (greedy p next cs).or (next (c :: cs)) else next (c :: cs)

/-- As little as possible of anything, which the rest of the pattern is told. -/
def lazyAny (next : List α → List α → Option β) : List α → Option β
  | [] => next [] []
  | c :: cs => (next [] (c :: cs)).or (lazyAny (fun body => next (c :: body)) cs)

variable {s t u cs rest : List α} {next : List α → Option β} {next' : List α → List α → Option β}
  {p : α → Bool} {b : β} {c : α}

theorem literal_append : literal s next (s ++ cs) = next cs := by
  rw [literal, if_pos (List.prefix_append s cs), List.drop_left]

theorem literal_of_not (h : ¬ s <+: cs) : literal s next cs = none := if_neg h

omit [DecidableEq α] in
theorem greedy_of_not (hc : p c = false) : greedy p next (c :: cs) = next (c :: cs) := by
  rw [greedy, hc, if_neg Bool.false_ne_true]

omit [DecidableEq α] in
theorem greedy_append_some (hs : ∀ c ∈ s, p c = true) (h : greedy p next cs = some b) :
    greedy p next (s ++ cs) = some b := by
  induction s with
  | nil => exact h
  | cons c s ih =>
    have hrest := ih fun c hc => hs c (List.mem_cons_of_mem _ hc)
    rw [List.cons_append, greedy, if_pos (hs c List.mem_cons_self), hrest]
    rfl

omit [DecidableEq α] in
theorem greedy_append_none (hs : ∀ t u, s = t ++ u → u ≠ [] → next (u ++ cs) = none)
    (h : greedy p next cs = none) : greedy p next (s ++ cs) = none := by
  induction s with
  | nil => exact h
  | cons c s ih =>
    have hhere : next (c :: (s ++ cs)) = none := hs [] (c :: s) rfl (List.cons_ne_nil _ _)
    have hrest : greedy p next (s ++ cs) = none := by
      refine ih fun t u hsplit hu => hs (c :: t) u ?_ hu
      rw [hsplit]
      rfl
    rw [List.cons_append, greedy, hhere, hrest]
    cases p c <;> rfl

omit [DecidableEq α] in
/-- The rest matches after `s`, and nowhere before. -/
theorem lazyAny_append_some (hs : ∀ t u, s = t ++ u → u ≠ [] → next' t (u ++ cs) = none)
    (h : next' s cs = some b) : lazyAny next' (s ++ cs) = some b := by
  induction s generalizing next' with
  | nil =>
    cases cs with
    | nil => exact h
    | cons c cs =>
      rw [List.nil_append, lazyAny, h]
      rfl
  | cons c s ih =>
    have hhere : next' [] (c :: (s ++ cs)) = none := hs [] (c :: s) rfl (List.cons_ne_nil _ _)
    have hrest : lazyAny (fun body => next' (c :: body)) (s ++ cs) = some b := by
      refine ih (fun t u hsplit hu => hs (c :: t) u ?_ hu) h
      rw [hsplit]
      rfl
    rw [List.cons_append, lazyAny, hhere, hrest]
    rfl

omit [DecidableEq α] in
theorem lazyAny_eq_none (h : ∀ t u, cs = t ++ u → next' t u = none) :
    lazyAny next' cs = none := by
  induction cs generalizing next' with
  | nil => exact h [] [] rfl
  | cons c cs ih =>
    have hrest : lazyAny (fun body => next' (c :: body)) cs = none := by
      refine ih fun t u hsplit => h (c :: t) u ?_
      rw [hsplit]
      rfl
    rw [lazyAny, h [] (c :: cs) rfl, hrest]
    rfl

end

/-! Taking a text apart. -/

section
variable {α β : Type}

inductive Piece (α β : Type) where
  | char (c : α)
  | hit (text : List α) (b : β)

/-- A pattern says what it made of its match, and what is left after it. -/
def walk (m : List α → Option (β × List α)) : ℕ → List α → List (Piece α β)
  | _, [] => []
  | 0, _ => []
  | n + 1, c :: cs =>
    match m (c :: cs) with
    | some (b, rest) =>
      .hit ((c :: cs).take ((c :: cs).length - rest.length)) b :: walk m n rest
    | none => .char c :: walk m n cs

def pieces (m : List α → Option (β × List α)) (cs : List α) : List (Piece α β) :=
  walk m cs.length cs

/-- The pieces of a text, from left to right. -/
inductive Walks (m : List α → Option (β × List α)) : List α → List (Piece α β) → Prop where
  | nil : Walks m [] []
  | hit {text rest : List α} {b : β} {ps : List (Piece α β)} (hne : text ≠ [])
      (hm : m (text ++ rest) = some (b, rest)) (h : Walks m rest ps) :
      Walks m (text ++ rest) (.hit text b :: ps)
  | skip {c : α} {cs : List α} {ps : List (Piece α β)} (hm : m (c :: cs) = none)
      (h : Walks m cs ps) : Walks m (c :: cs) (.char c :: ps)

variable {m : List α → Option (β × List α)} {cs s rest : List α} {ps : List (Piece α β)} {n : ℕ}

theorem Walks.walk_eq (h : Walks m cs ps) (hn : cs.length ≤ n) : walk m n cs = ps := by
  induction h generalizing n with
  | nil => cases n <;> rfl
  | @hit text rest b ps hne hm h ih =>
    cases text with
    | nil => exact absurd rfl hne
    | cons c text =>
      cases n with
      | zero => simp at hn
      | succ n =>
        have htake : (c :: (text ++ rest)).take ((c :: (text ++ rest)).length - rest.length) =
            c :: text := by
          have hlength : (c :: (text ++ rest)).length - rest.length = (c :: text).length := by
            simp only [List.length_cons, List.length_append]
            omega
          rw [hlength, ← List.cons_append, List.take_left]
        have hrest : rest.length ≤ n := by
          simp only [List.length_append, List.length_cons] at hn
          omega
        rw [List.cons_append] at hm ⊢
        rw [walk, hm]
        dsimp only
        rw [htake, ih hrest]
  | @skip c cs ps hm h ih =>
    cases n with
    | zero => simp at hn
    | succ n =>
      rw [walk, hm]
      dsimp only
      rw [ih (by simpa using hn)]

theorem Walks.pieces_eq (h : Walks m cs ps) : pieces m cs = ps := h.walk_eq le_rfl

/-- Nothing is found in a part at none of whose places the pattern matches. -/
theorem Walks.skips (hs : ∀ t u, s = t ++ u → u ≠ [] → m (u ++ rest) = none)
    (h : Walks m rest ps) : Walks m (s ++ rest) (s.map .char ++ ps) := by
  induction s with
  | nil => exact h
  | cons c s ih =>
    have hrest : Walks m (s ++ rest) (s.map .char ++ ps) := by
      refine ih fun t u hsplit hu => hs (c :: t) u ?_ hu
      rw [hsplit]
      rfl
    exact .skip (hs [] (c :: s) rfl (List.cons_ne_nil _ _)) hrest

end

end Pattern
