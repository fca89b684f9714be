import Mathlib.Algebra.BigOperators.Fin
import Mathlib.Algebra.Order.Field.Basic
import Mathlib.Analysis.SpecialFunctions.Trigonometric.Basic
import Mathlib.Order.WithBot

/-! Arithmetic on logarithms, done exactly: a number that is not negative is kept as its
logarithm, a sum of logarithms is a product of numbers, and `logaddexp` is their sum. The
logarithm of zero is minus infinity, and a logarithm of a negative number is no number, which a
maximum takes for the greatest. -/

namespace Finguard

inductive LogNumber (K : Type) [Zero K] [LE K] where
  | nan
  | log (x : K) (nonneg : 0 ≤ x)

namespace LogNumber
variable {K : Type}

section Order
variable [Zero K] [LinearOrder K]

def ofNumber (x : K) : LogNumber K := if h : 0 ≤ x then log x h else nan

def exp : LogNumber K → Option K
  | log x _ => some x
  | nan => none

def toTop : LogNumber K → WithTop K
  | log x _ => x
  | nan => ⊤

theorem toTop_injective : Function.Injective (toTop (K := K)) := by
  intro x y h
  cases x <;> cases y <;> simp_all [toTop]

instance : LinearOrder (LogNumber K) := LinearOrder.lift' toTop toTop_injective

theorem log_congr {x y : K} {hx : 0 ≤ x} {hy : 0 ≤ y} (h : x = y) : log x hx = log y hy := by
  subst h
  rfl

theorem ofNumber_of_nonneg {x : K} (h : 0 ≤ x) : ofNumber x = log x h := dif_pos h

end Order

section Field
variable [Field K] [LinearOrder K] [IsStrictOrderedRing K]

def logaddexp : LogNumber K → LogNumber K → LogNumber K
  | log x hx, log y hy => log (x + y) (add_nonneg hx hy)
  | _, _ => nan

/-- `logaddexp` over a row, from minus infinity. -/
def reduce {n : ℕ} (row : Fin n → LogNumber K) : LogNumber K :=
  (List.ofFn row).foldl logaddexp (log 0 le_rfl)

/-- Minus infinity taken from minus infinity is no number. -/
def sub : LogNumber K → LogNumber K → LogNumber K
  | log x hx, log y hy => if y = 0 then nan else log (x / y) (div_nonneg hx hy)
  | _, _ => nan

def add : LogNumber K → LogNumber K → LogNumber K
  | log x hx, log y hy => log (x * y) (mul_nonneg hx hy)
  | _, _ => nan

instance : Add (LogNumber K) := ⟨add⟩

instance : Zero (LogNumber K) := ⟨log 1 zero_le_one⟩

@[simp] theorem log_add_log {x y : K} (hx : 0 ≤ x) (hy : 0 ≤ y) :
    log x hx + log y hy = log (x * y) (mul_nonneg hx hy) := rfl

@[simp] theorem nan_add (y : LogNumber K) : nan + y = nan := rfl

@[simp] theorem add_nan (x : LogNumber K) : x + nan = nan := by cases x <;> rfl

theorem zero_eq : (0 : LogNumber K) = log 1 zero_le_one := rfl

instance : AddMonoid (LogNumber K) where
  add_assoc x y z := by cases x <;> cases y <;> cases z <;> simp [mul_assoc]
  zero_add x := by cases x <;> simp [zero_eq]
  add_zero x := by cases x <;> simp [zero_eq]
  nsmul := nsmulRec

/-- A product of numbers that are not negative grows with its factors. -/
instance : AddRightMono (LogNumber K) where
  elim z x y h := by
    have hle : x.toTop ≤ y.toTop := h
    change (x + z).toTop ≤ (y + z).toTop
    cases z with
    | nan => simp
    | log c hc =>
      cases y with
      | nan => cases x <;> exact le_top
      | log b hb =>
        cases x with
        | nan => simp [toTop] at hle
        | log a ha =>
          have hab : a ≤ b := by simpa [toTop] using hle
          have hmul : a * c ≤ b * c := mul_le_mul_of_nonneg_right hab hc
          exact WithTop.coe_le_coe.mpr hmul

theorem sub_log {x y : K} (hx : 0 ≤ x) (hy : 0 < y) :
    (log x hx).sub (log y hy.le) = log (x / y) (div_nonneg hx hy.le) := if_neg hy.ne'

theorem foldl_logaddexp {n : ℕ} {v : Fin n → K} (h : ∀ s, 0 ≤ v s) {x : K} (hx : 0 ≤ x)
    (l : List (Fin n)) :
    (l.map fun s => log (v s) (h s)).foldl logaddexp (log x hx) =
      log (x + (l.map v).sum)
        (add_nonneg hx (List.sum_nonneg fun _ hy => by
          obtain ⟨s, -, rfl⟩ := List.mem_map.mp hy
          exact h s)) := by
  induction l generalizing x with
  | nil => simp
  | cons s l ih =>
    have hstep : (log x hx).logaddexp (log (v s) (h s)) = log (x + v s) (add_nonneg hx (h s)) := rfl
    simp only [List.map_cons, List.foldl_cons, hstep, ih, List.sum_cons, add_assoc]

theorem reduce_log {n : ℕ} {v : Fin n → K} (h : ∀ s, 0 ≤ v s) :
    reduce (fun s => log (v s) (h s)) = log (∑ s, v s) (Finset.sum_nonneg fun s _ => h s) := by
  have hrow : List.ofFn (fun s => log (v s) (h s)) =
      (List.finRange n).map fun s => log (v s) (h s) := List.ofFn_eq_map
  have hsum : ((List.finRange n).map v).sum = ∑ s, v s := by
    rw [← List.ofFn_eq_map, List.sum_ofFn]
  rw [reduce, hrow, foldl_logaddexp]
  simp only [hsum, zero_add]

end Field

end LogNumber

/-- The real functions that a standard library of mathematics has. -/
class RealFunctions (K : Type) [Zero K] [LE K] [LT K] where
  exp : K → K
  sqrt : K → K
  pi : K
  exp_pos : ∀ x, 0 < exp x
  sqrt_zero : sqrt 0 = 0
  sqrt_nonneg : ∀ x, 0 ≤ sqrt x
  sqrt_pos : ∀ x, 0 < x → 0 < sqrt x
  pi_pos : 0 < pi

noncomputable instance : RealFunctions ℝ where
  exp := Real.exp
  sqrt := Real.sqrt
  pi := Real.pi
  exp_pos := Real.exp_pos
  sqrt_zero := Real.sqrt_zero
  sqrt_nonneg := Real.sqrt_nonneg
  sqrt_pos _ := Real.sqrt_pos.mpr
  pi_pos := Real.pi_pos

end Finguard
