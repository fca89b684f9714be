import Mathlib

/-! A call that is made again while its error may pass, a bounded number of times. The state
carries whatever the calls leave behind. -/

namespace Attempts

variable {σ ε α β : Type}

/-- `exhausted` is an error that would have been tried again. -/
inductive Outcome (ε α : Type) where
  | ok (value : α)
  | raised (error : ε)
  | exhausted (error : ε)
deriving DecidableEq

/-- One call, and `more` calls after it at most. -/
def run (retry : ε → Bool) (call : σ → Except ε α × σ) : ℕ → σ → Outcome ε α × σ
  | 0, s =>
    match call s with
    | (.ok value, s') => (.ok value, s')
    | (.error error, s') => (if retry error then .exhausted error else .raised error, s')
  | more + 1, s =>
    match call s with
    | (.ok value, s') => (.ok value, s')
    | (.error error, s') => if retry error then run retry call more s' else (.raised error, s')

/-- Calls from `s` to `s'`: the errors that were passed over, and the answer to the last call. -/
inductive Tries (retry : ε → Bool) (call : σ → Except ε α × σ) :
    List ε → σ → Except ε α → σ → Prop where
  | last {s s' : σ} {answer : Except ε α} (h : call s = (answer, s')) :
      Tries retry call [] s answer s'
  | again {s mid s' : σ} {error : ε} {errors : List ε} {answer : Except ε α}
      (h : call s = (.error error, mid)) (hretry : retry error = true)
      (hrest : Tries retry call errors mid answer s') :
      Tries retry call (error :: errors) s answer s'

/-- The outcome tells the last answer, and whether the bound or the error ended the calls. -/
def Settles (retry : ε → Bool) (more : ℕ) (errors : List ε) (answer : Except ε α) :
    Outcome ε α → Prop
  | .ok value => answer = .ok value
  | .raised error => answer = .error error ∧ retry error = false
  | .exhausted error => answer = .error error ∧ retry error = true ∧ errors.length = more

def Outcome.answer : Outcome ε α → Except ε α
  | .ok value => .ok value
  | .raised error | .exhausted error => .error error

variable {retry : ε → Bool} {call : σ → Except ε α × σ}

section
variable {more : ℕ} {errors : List ε} {answer : Except ε α} {outcome : Outcome ε α}

theorem Settles.answer_eq (h : Settles retry more errors answer outcome) :
    outcome.answer = answer := by
  cases outcome with
  | ok value => exact Eq.symm h
  | raised error => exact h.1.symm
  | exhausted error => exact h.1.symm

/-- The last error may pass only where no call was left. -/
theorem Settles.length_eq (h : Settles retry more errors answer outcome) {error : ε}
    (hanswer : answer = .error error) (hretry : retry error = true) : errors.length = more := by
  cases outcome with
  | ok value =>
    have hok : answer = .ok value := h
    rw [hanswer] at hok
    cases hok
  | raised e =>
    obtain ⟨he, hno⟩ := h
    rw [hanswer] at he
    cases he
    rw [hretry] at hno
    cases hno
  | exhausted e => exact h.2.2

end

theorem run_tries (retry : ε → Bool) (call : σ → Except ε α × σ) (more : ℕ) (s : σ) :
    ∃ errors answer, Tries retry call errors s answer (run retry call more s).2 ∧
      errors.length ≤ more ∧ Settles retry more errors answer (run retry call more s).1 := by
  induction more generalizing s with
  | zero =>
    rcases hcall : call s with ⟨answer, s'⟩
    cases answer with
    | ok value =>
      exact ⟨[], .ok value, .last (by simp [run, hcall]), le_rfl,
        by simp [run, hcall, Settles]⟩
    | error error =>
      have hend : run retry call 0 s =
          (if retry error then .exhausted error else .raised error, s') := by simp [run, hcall]
      refine ⟨[], .error error, .last (by rw [hend, hcall]), le_rfl, ?_⟩
      by_cases hretry : retry error
      · simp [hend, hretry, Settles]
      · simp [hend, hretry, Settles]
  | succ more ih =>
    rcases hcall : call s with ⟨answer, s'⟩
    cases answer with
    | ok value =>
      exact ⟨[], .ok value, .last (by simp [run, hcall]), Nat.zero_le _,
        by simp [run, hcall, Settles]⟩
    | error error =>
      by_cases hretry : retry error = true
      · have hagain : run retry call (more + 1) s = run retry call more s' := by
          simp [run, hcall, hretry]
        obtain ⟨errors, answer, htries, hlength, hsettles⟩ := ih s'
        refine ⟨error :: errors, answer, ?_, Nat.succ_le_succ hlength, ?_⟩
        · rw [hagain]
          exact .again hcall hretry htries
        · rw [hagain]
          cases hout : (run retry call more s').1 with
          | ok value => simpa [hout, Settles] using hsettles
          | raised e => simpa [hout, Settles] using hsettles
          | exhausted e => simpa [hout, Settles] using hsettles
      · have hend : run retry call (more + 1) s = (.raised error, s') := by
          simp [run, hcall, hretry]
        refine ⟨[], .error error, .last (by rw [hend, hcall]), Nat.zero_le _, ?_⟩
        simpa [hend, Settles] using hretry

theorem Tries.retried {errors : List ε} {s s' : σ} {answer : Except ε α}
    (h : Tries retry call errors s answer s') : ∀ error ∈ errors, retry error = true := by
  induction h with
  | last => simp
  | again _ hretry _ ih => simpa using ⟨hretry, ih⟩

/-- What every call keeps, all the calls keep. -/
theorem Tries.relates {R : σ → σ → Prop} (htrans : ∀ {s t u}, R s t → R t u → R s u)
    (hcall : ∀ s, R s (call s).2) {errors : List ε} {s s' : σ} {answer : Except ε α}
    (h : Tries retry call errors s answer s') : R s s' := by
  induction h with
  | @last s s' answer h =>
    have hstep := hcall s
    rwa [h] at hstep
  | @again s mid s' error errors answer h _ _ ih =>
    have hstep := hcall s
    rw [h] at hstep
    exact htrans hstep ih

/-- Where each call logs one entry, the log tells the errors passed over and the last answer. -/
theorem Tries.logged {f : σ → List β} {P : β → Except ε α → Prop}
    (hcall : ∀ s, ∃ entry, f (call s).2 = f s ++ [entry] ∧ P entry (call s).1)
    {errors : List ε} {s s' : σ} {answer : Except ε α} (h : Tries retry call errors s answer s') :
    ∃ passed final, f s' = f s ++ passed ++ [final] ∧ P final answer ∧
      List.Forall₂ (fun entry error => P entry (.error error)) passed errors := by
  induction h with
  | @last s s' answer h =>
    obtain ⟨entry, hlog, hentry⟩ := hcall s
    rw [h] at hlog hentry
    exact ⟨[], entry, by simpa using hlog, hentry, .nil⟩
  | @again s mid s' error errors answer h _ _ ih =>
    obtain ⟨entry, hlog, hentry⟩ := hcall s
    rw [h] at hlog hentry
    obtain ⟨passed, final, hrest, hfinal, hpassed⟩ := ih
    refine ⟨entry :: passed, final, ?_, hfinal, .cons hentry hpassed⟩
    have hlog : f mid = f s ++ [entry] := hlog
    rw [hrest, hlog]
    simp

end Attempts
