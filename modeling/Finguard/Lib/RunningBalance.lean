import Mathlib

/-! Ledgers whose entries keep the balance after them. What an entry moves may
depend on the balance before it. -/

namespace RunningBalance

variable {ε : Type} (delta : ℤ → ε → ℤ) (after : ε → ℤ)

/-- Every balance is the one before it plus what the entry moves. -/
def Chained : ℤ → List ε → Prop
  | _, [] => True
  | before, e :: es => after e = before + delta before e ∧ Chained (after e) es

/-- The sum of what the entries move, in order. -/
def moved : ℤ → List ε → ℤ
  | _, [] => 0
  | before, e :: es => delta before e + moved (after e) es

def closing : ℤ → List ε → ℤ
  | before, [] => before
  | _, e :: es => closing (after e) es

variable {delta after} {before : ℤ} {e : ε} {es : List ε}

theorem closing_concat : closing after before (es ++ [e]) = after e := by
  induction es generalizing before with
  | nil => rfl
  | cons a es ih => exact ih

theorem Chained.closing_eq (h : Chained delta after before es) :
    closing after before es = before + moved delta after before es := by
  induction es generalizing before with
  | nil => simp [closing, moved]
  | cons a es ih =>
    have hrest := ih h.2
    have ha := h.1
    simp only [closing, moved]
    omega

theorem Chained.concat (h : Chained delta after before es)
    (he : after e = closing after before es + delta (closing after before es) e) :
    Chained delta after before (es ++ [e]) := by
  induction es generalizing before with
  | nil => exact ⟨he, trivial⟩
  | cons a es ih => exact ⟨h.1, ih h.2 he⟩

end RunningBalance
