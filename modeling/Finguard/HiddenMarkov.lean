import Finguard.Lib.LogSpace
import Finguard.Lib.Scan
import Finguard.Lib.Trellis
import Finguard.PythonValues

/-! The hidden Markov model of the budget watchdog: the most likely path of hidden states, and the
distribution of the last hidden state. -/

namespace Finguard

namespace HiddenMarkov

/-- One row of a matrix, its entries computed from left to right. -/
def computeRow {α : Type} : {n : ℕ} → (Fin n → Except PyException α) →
    Except PyException (Fin n → α)
  | 0, _ => .ok Fin.elim0
  | _ + 1, f => do
    let x ← f 0
    let row ← computeRow fun s => f s.succ
    .ok (Fin.cons x row)

/-- `observations[0]`. -/
def firstObservation {O : Type} : List O → Except PyException O
  | [] => .error (.other "IndexError")
  | o :: _ => .ok o

/-- `math.log`. -/
def mathLog {K : Type} [Zero K] [LinearOrder K] (x : K) : Except PyException (LogNumber K) :=
  if h : 0 < x then .ok (.log x h.le) else .error .valueError

/-- The parameters of a model with `n` states. -/
structure Model (O K : Type) [Zero K] [LE K] (n : ℕ) where
  initialPi : Fin n → K
  transition : Fin n → Fin n → K
  logProb : O → Fin n → Except PyException (LogNumber K)

section Viterbi
variable {O S : Type} [Add S] [LT S] [DecidableLT S] {n : ℕ}

/-- `np.argmax`: the first index of a greatest entry. -/
def argmax (v : Fin (n + 1) → S) : Fin (n + 1) :=
  (List.finRange (n + 1)).foldl (fun best s => if v best < v s then s else best) 0

structure ViterbiState (S : Type) (n : ℕ) where
  dp : Fin n → S
  /-- The rows of back pointers, the latest first. -/
  backptr : List (Fin n → Fin n)

def viterbiStep (logTrans : Fin (n + 1) → Fin (n + 1) → S)
    (logProb : O → Fin (n + 1) → Except PyException S) (st : ViterbiState S (n + 1)) (o : O) :
    Except PyException (ViterbiState S (n + 1)) := do
  let candidates s r := st.dp r + logTrans r s
  let backptr s := argmax (candidates s)
  let dp ← computeRow fun s => do
    let emit ← logProb o s
    .ok (candidates s (backptr s) + emit)
  .ok ⟨dp, backptr :: st.backptr⟩

/-- Each step puts the predecessor of the path's first state in front. -/
def walkBack : List (Fin n → Fin n) → Fin n → List (Fin n) → List (Fin n)
  | [], s, path => s :: path
  | back :: backs, s, path => walkBack backs (back s) (s :: path)

/-- `_viterbi`, from the logarithms of the initial and transition probabilities on. -/
def viterbiPath (logPi : Fin (n + 1) → S) (logTrans : Fin (n + 1) → Fin (n + 1) → S)
    (logProb : O → Fin (n + 1) → Except PyException S) (observations : List O) :
    Except PyException (List (Fin (n + 1))) := do
  let dp ← computeRow fun s => do
    let o ← firstObservation observations
    let emit ← logProb o s
    .ok (logPi s + emit)
  let st ← observations.tail.foldlM (viterbiStep logTrans logProb) ⟨dp, []⟩
  .ok (walkBack st.backptr (argmax st.dp) [])

end Viterbi

section Forward
variable {O K : Type} [Field K] [LinearOrder K] [IsStrictOrderedRing K] {n : ℕ}

/-- What is added to a probability before its logarithm is taken. -/
def smoothing : K := (10 ^ 300)⁻¹

namespace Model

def logTrans (m : Model O K n) (r s : Fin n) : LogNumber K :=
  .ofNumber (m.transition r s + smoothing)

/-- `_viterbi`. -/
def viterbi (m : Model O K (n + 1)) (observations : List O) :
    Except PyException (List (Fin (n + 1))) :=
  viterbiPath (fun s => .ofNumber (m.initialPi s + smoothing)) m.logTrans m.logProb observations

def forwardStep (m : Model O K n) (logAlpha : Fin n → LogNumber K) (o : O) :
    Except PyException (Fin n → LogNumber K) :=
  computeRow fun s => do
    let emit ← m.logProb o s
    .ok (.reduce (fun r => logAlpha r + m.logTrans r s) + emit)

/-- `_forward_algorithm`. An entry without a value is not a number. -/
def forwardAlgorithm (m : Model O K n) (observations : List O) :
    Except PyException (Fin n → Option K) := do
  let first ← computeRow fun s => do
    let logPi ← mathLog (m.initialPi s + smoothing)
    let o ← firstObservation observations
    let emit ← m.logProb o s
    .ok (logPi + emit)
  let finalLog ← observations.tail.foldlM m.forwardStep first
  let logZ := LogNumber.reduce finalLog
  .ok fun s => ((finalLog s).sub logZ).exp

/-- The numbers whose logarithms the two computations take. -/
def Takes (m : Model O K n) (x : K) : Prop :=
  (∃ s, x = m.initialPi s + smoothing) ∨ ∃ r s, x = m.transition r s + smoothing

end Model

variable [RealFunctions K]

/-- `_gaussian_log_prob`. -/
def gaussianLogProb (x mean std : K) : Except PyException (LogNumber K) := do
  if std = 0 then .error (.other "ZeroDivisionError")
  let exponent := -0.5 * ((x - mean) / std) ^ 2
  let scale ← mathLog (std * RealFunctions.sqrt (2 * RealFunctions.pi))
  .ok ((LogNumber.log (RealFunctions.exp exponent) (RealFunctions.exp_pos _).le).sub scale)

def gaussianModel (initialPi : Fin n → K) (transition : Fin n → Fin n → K)
    (emissionParams : Fin n → K × K) : Model K K n where
  initialPi := initialPi
  transition := transition
  logProb x s := gaussianLogProb x (emissionParams s).1 (emissionParams s).2

end Forward

theorem computeRow_eq_ok {α : Type} {n : ℕ} {f : Fin n → Except PyException α} {v : Fin n → α}
    (h : ∀ s, f s = .ok (v s)) : computeRow f = .ok v := by
  induction n with
  | zero =>
    have hv : v = Fin.elim0 := funext fun s => s.elim0
    rw [hv]
    rfl
  | succ n ih =>
    have hrow : computeRow (fun s => f s.succ) = .ok fun s => v s.succ := ih fun s => h s.succ
    have hcons : Fin.cons (v 0) (fun s => v s.succ) = v := Fin.cons_self_tail v
    simp only [computeRow, h 0, hrow]
    exact congrArg Except.ok hcons

section Optimality
variable {O S : Type} {n : ℕ}

theorem le_foldl_argmax [LinearOrder S] (v : Fin (n + 1) → S) (l : List (Fin (n + 1)))
    (best : Fin (n + 1)) :
    v best ≤ v (l.foldl (fun best s => if v best < v s then s else best) best) ∧
      ∀ s ∈ l, v s ≤ v (l.foldl (fun best s => if v best < v s then s else best) best) := by
  induction l generalizing best with
  | nil => simp
  | cons t l ih =>
    by_cases hlt : v best < v t
    · obtain ⟨hbest, hall⟩ := ih t
      rw [List.foldl_cons, if_pos hlt]
      refine ⟨le_trans hlt.le hbest, fun s hs => ?_⟩
      rcases List.mem_cons.mp hs with rfl | hs
      · exact hbest
      · exact hall s hs
    · obtain ⟨hbest, hall⟩ := ih best
      rw [List.foldl_cons, if_neg hlt]
      refine ⟨hbest, fun s hs => ?_⟩
      rcases List.mem_cons.mp hs with rfl | hs
      · exact le_trans (not_lt.mp hlt) hbest
      · exact hall s hs

theorem le_argmax [LinearOrder S] (v : Fin (n + 1) → S) (s : Fin (n + 1)) : v s ≤ v (argmax v) :=
  (le_foldl_argmax v _ 0).2 s (List.mem_finRange s)

theorem walkBack_append (backs : List (Fin n → Fin n)) (s : Fin n) (p q : List (Fin n)) :
    walkBack backs s (p ++ q) = walkBack backs s p ++ q := by
  induction backs generalizing s p with
  | nil => rfl
  | cons back backs ih => exact ih (back s) (s :: p)

variable [AddMonoid S] [LinearOrder S] [AddRightMono S] {T : Trellis O (Fin (n + 1)) S}
  {os : List O} {o : O} {st : ViterbiState S (n + 1)}

/-- The back pointers lead to a best path for each state, and its score is in the last row. -/
structure Traced (T : Trellis O (Fin (n + 1)) S) (os : List O) (st : ViterbiState S (n + 1)) :
    Prop where
  best : ∀ s, T.Best os s (walkBack st.backptr s [])
  score : ∀ s, T.score os (walkBack st.backptr s []) = st.dp s

omit [AddRightMono S] in
theorem Traced.first : Traced T [o] ⟨fun s => T.initial s + T.emission o s, []⟩ where
  best _ := .singleton
  score _ := Trellis.score_singleton

theorem Traced.step (hos : os ≠ []) (h : Traced T os st) :
    ∃ st', viterbiStep T.transition (fun o s => .ok (T.emission o s)) st o = .ok st' ∧
      Traced T (os ++ [o]) st' := by
  let back : Fin (n + 1) → Fin (n + 1) := fun s => argmax fun r => st.dp r + T.transition r s
  have hwalk : ∀ s, walkBack (back :: st.backptr) s [] = walkBack st.backptr (back s) [] ++ [s] :=
    fun s => walkBack_append st.backptr (back s) [] [s]
  have hmax : ∀ s r, T.score os (walkBack st.backptr r []) + T.transition r s ≤
      T.score os (walkBack st.backptr (back s) []) + T.transition (back s) s := by
    intro s r
    rw [h.score r, h.score (back s)]
    exact le_argmax (fun r => st.dp r + T.transition r s) r
  refine ⟨⟨fun s => st.dp (back s) + T.transition (back s) s + T.emission o s,
    back :: st.backptr⟩, ?_, ?_, ?_⟩
  · exact Scan.bind_eq_ok.mpr ⟨_, computeRow_eq_ok fun _ => rfl, rfl⟩
  · intro s
    rw [hwalk]
    exact .concat hos h.best (hmax s)
  · intro s
    rw [hwalk, Trellis.score_concat (h.best _).length (h.best _).last, h.score]

theorem Traced.run (hos : os ≠ []) (h : Traced T os st) (os' : List O) :
    ∃ st', os'.foldlM (viterbiStep T.transition fun o s => .ok (T.emission o s)) st = .ok st' ∧
      Traced T (os ++ os') st' := by
  induction os' generalizing os st with
  | nil => exact ⟨st, rfl, by rwa [List.append_nil]⟩
  | cons o os' ih =>
    obtain ⟨next, hnext, htraced⟩ := h.step (o := o) hos
    obtain ⟨last, hlast, hdone⟩ := ih (by simp) htraced
    refine ⟨last, ?_, by simpa using hdone⟩
    rw [List.foldlM_cons, hnext]
    exact hlast

theorem viterbiPath_traced (T : Trellis O (Fin (n + 1)) S) (hos : os ≠ []) :
    ∃ st, Traced T os st ∧ viterbiPath T.initial T.transition (fun o s => .ok (T.emission o s)) os =
      .ok (walkBack st.backptr (argmax st.dp) []) := by
  cases os with
  | nil => exact absurd rfl hos
  | cons o os =>
    have hfirst : Traced T [o] ⟨fun s => T.initial s + T.emission o s, []⟩ := .first
    obtain ⟨st, hst, htraced⟩ := hfirst.run (by simp) os
    exact ⟨st, htraced, Scan.bind_eq_ok.mpr ⟨_, computeRow_eq_ok fun _ => rfl,
      Scan.bind_eq_ok.mpr ⟨st, hst, rfl⟩⟩⟩

omit [AddRightMono S] in
theorem Traced.greatest (hos : os ≠ []) (h : Traced T os st) :
    IsGreatest {x | ∃ q : List (Fin (n + 1)), q.length = os.length ∧ T.score os q = x}
      (T.score os (walkBack st.backptr (argmax st.dp) [])) := by
  refine Trellis.Best.greatest hos h.best fun r => ?_
  rw [h.score, h.score]
  exact le_argmax st.dp r

/-- The path has a state for each observation, and no sequence of states scores more. -/
theorem viterbiPath_optimal (T : Trellis O (Fin (n + 1)) S) (hos : os ≠ []) :
    ∃ path, viterbiPath T.initial T.transition (fun o s => .ok (T.emission o s)) os = .ok path ∧
      path.length = os.length ∧
      IsGreatest {x | ∃ q : List (Fin (n + 1)), q.length = os.length ∧ T.score os q = x}
        (T.score os path) := by
  obtain ⟨st, htraced, hpath⟩ := viterbiPath_traced T hos
  exact ⟨_, hpath, (htraced.best _).length, htraced.greatest hos⟩

/-- Three states over days that are within the budget or over it. -/
def overspending : Trellis Bool (Fin 3) ℤ where
  initial := ![0, -2, -3]
  transition := ![![-1, -2, -4], ![-2, -1, -2], ![-3, -2, -1]]
  emission isOver := if isOver then ![-9, -2, 0] else ![0, -2, -9]

theorem viterbiPath_overspending :
    ∃ path, viterbiPath overspending.initial overspending.transition
        (fun o s => .ok (overspending.emission o s)) [false, true, true] = .ok path ∧
      path.length = [false, true, true].length ∧
      IsGreatest {x | ∃ q : List (Fin 3), q.length = [false, true, true].length ∧
        overspending.score [false, true, true] q = x}
        (overspending.score [false, true, true] path) :=
  viterbiPath_optimal overspending (by decide)

end Optimality

section Posterior
variable {O K : Type} [Field K] [LinearOrder K] [IsStrictOrderedRing K] {n : ℕ}
  {m : Model O K n} {b : O → Fin n → K} {os : List O} {o : O}

/-- The trellis of the probabilities that the logarithms are taken of. -/
def Model.smoothed (m : Model O K n) (b : O → Fin n → K) : Trellis O (Fin n) K where
  initial s := m.initialPi s + smoothing
  transition r s := m.transition r s + smoothing
  emission := b

/-- The trellis of the configured probabilities. -/
def Model.configured (m : Model O K n) (b : O → Fin n → K) : Trellis O (Fin n) K where
  initial := m.initialPi
  transition := m.transition
  emission := b

/-- The observations have these probabilities, all of them positive. -/
structure Model.Emits (m : Model O K n) (b : O → Fin n → K) : Prop where
  pos : ∀ o s, 0 < b o s
  logProb : ∀ o s, m.logProb o s = .ok (.log (b o s) (pos o s).le)

theorem smoothing_pos : (0 : K) < smoothing := inv_pos.mpr (by positivity)

theorem Model.forwardStep_eq (hb : m.Emits b) (h : (m.smoothed b).Nonnegative) (hos : os ≠ []) :
    m.forwardStep (fun s => .log ((m.smoothed b).weightTo os s) h.weightTo) o =
      .ok fun s => .log ((m.smoothed b).weightTo (os ++ [o]) s) h.weightTo := by
  refine computeRow_eq_ok fun s => ?_
  have hterm : ∀ r, LogNumber.log ((m.smoothed b).weightTo os r) h.weightTo + m.logTrans r s =
      .log ((m.smoothed b).weightTo os r * (m.smoothed b).transition r s)
        (mul_nonneg h.weightTo (h.transition r s)) := by
    intro r
    have hlog : m.logTrans r s = .log _ (h.transition r s) :=
      LogNumber.ofNumber_of_nonneg (h.transition r s)
    rw [hlog]
    rfl
  simp only [hb.logProb o s, hterm, LogNumber.reduce_log fun r =>
    mul_nonneg (h.weightTo (s := r)) (h.transition r s)]
  exact congrArg Except.ok (LogNumber.log_congr (Trellis.weightTo_concat hos).symm)

theorem Model.forward_run (hb : m.Emits b) (h : (m.smoothed b).Nonnegative) (hos : os ≠ [])
    (os' : List O) :
    os'.foldlM m.forwardStep (fun s => .log ((m.smoothed b).weightTo os s) h.weightTo) =
      .ok fun s => .log ((m.smoothed b).weightTo (os ++ os') s) h.weightTo := by
  induction os' generalizing os with
  | nil => simp only [List.append_nil]; rfl
  | cons o os' ih =>
    have hne : os ++ [o] ≠ [] := by simp
    have hrest := ih hne
    simp only [List.append_assoc, List.singleton_append] at hrest
    exact Scan.bind_eq_ok.mpr ⟨_, forwardStep_eq hb h hos, hrest⟩

theorem Model.forwardAlgorithm_eq (hb : m.Emits b) (h : (m.smoothed b).Nonnegative)
    (hpi : ∀ s, 0 < m.initialPi s + smoothing) (hos : os ≠ [])
    (hpos : 0 < (m.smoothed b).totalWeight os) :
    m.forwardAlgorithm os =
      .ok fun s => some ((m.smoothed b).weightTo os s / (m.smoothed b).totalWeight os) := by
  cases os with
  | nil => exact absurd rfl hos
  | cons o os =>
    have hfirst : computeRow (fun s => do
        let logPi ← mathLog (m.initialPi s + smoothing)
        let o ← firstObservation (o :: os)
        let emit ← m.logProb o s
        .ok (logPi + emit)) =
        .ok fun s => .log ((m.smoothed b).weightTo [o] s) h.weightTo := by
      refine computeRow_eq_ok fun s => ?_
      have hweight : (m.smoothed b).weightTo [o] s = (m.initialPi s + smoothing) * b o s :=
        Trellis.weightTo_singleton
      have hlog : mathLog (m.initialPi s + smoothing) = .ok (.log _ (hpi s).le) := dif_pos (hpi s)
      refine Scan.bind_eq_ok.mpr ⟨_, hlog, Scan.bind_eq_ok.mpr ⟨o, rfl,
        Scan.bind_eq_ok.mpr ⟨_, hb.logProb o s, ?_⟩⟩⟩
      exact congrArg Except.ok (LogNumber.log_congr hweight.symm)
    have hrun := forward_run hb h (List.cons_ne_nil o []) os
    rw [List.singleton_append] at hrun
    refine Scan.bind_eq_ok.mpr ⟨_, hfirst, Scan.bind_eq_ok.mpr ⟨_, hrun, ?_⟩⟩
    have hz : LogNumber.reduce (fun s =>
        .log ((m.smoothed b).weightTo (o :: os) s) (h.weightTo (s := s))) =
        .log ((m.smoothed b).totalWeight (o :: os)) hpos.le := by
      rw [LogNumber.reduce_log fun s => h.weightTo (s := s)]
      exact LogNumber.log_congr (Trellis.sum_weightTo hos)
    simp only [hz, LogNumber.sub_log _ hpos]
    rfl

/-- If each state can be left, the result is the distribution of the last state. -/
theorem Model.forward_distribution {m : Model O K n} {b : O → Fin n → K} (hb : m.Emits b)
    (h : (m.smoothed b).Nonnegative) (hpi : ∀ s, 0 < m.initialPi s + smoothing)
    (hinitial : ∃ s, 0 < (m.smoothed b).initial s)
    (htransition : ∀ r, ∃ s, 0 < (m.smoothed b).transition r s) (hos : os ≠ []) :
    ∃ probs : Fin n → K, m.forwardAlgorithm os = .ok (fun s => some (probs s)) ∧
      (∀ s, probs s = (m.smoothed b).weightTo os s / (m.smoothed b).totalWeight os) ∧
      (∀ s, 0 ≤ probs s) ∧ ∑ s, probs s = 1 := by
  have hpos : 0 < (m.smoothed b).totalWeight os :=
    h.totalWeight_pos hos (h.exists_weightTo_pos hinitial htransition hb.pos hos)
  refine ⟨_, forwardAlgorithm_eq hb h hpi hos hpos, fun s => rfl,
    fun s => div_nonneg h.weightTo hpos.le, ?_⟩
  rw [← Finset.sum_div, Trellis.sum_weightTo hos, div_self hpos.ne']

theorem add_smoothing_pos {x : K} (h : 0 < x) : 0 < x + smoothing := add_pos h smoothing_pos

/-- The distribution of the last state, given the observations, in the model whose probabilities
are the configured ones with the smoothing added. -/
theorem Model.forward_posterior {m : Model O K (n + 1)} {b : O → Fin (n + 1) → K}
    (hb : m.Emits b) (hpi : ∀ s, 0 < m.initialPi s) (htransition : ∀ r s, 0 < m.transition r s)
    (hos : os ≠ []) :
    ∃ probs : Fin (n + 1) → K, m.forwardAlgorithm os = .ok (fun s => some (probs s)) ∧
      (∀ s, probs s = (m.smoothed b).weightTo os s / (m.smoothed b).totalWeight os) ∧
      (∀ s, 0 ≤ probs s) ∧ ∑ s, probs s = 1 := by
  have h : (m.smoothed b).Nonnegative :=
    ⟨fun s => (add_smoothing_pos (hpi s)).le, fun r s => (add_smoothing_pos (htransition r s)).le,
      fun o s => (hb.pos o s).le⟩
  exact forward_distribution hb h (fun s => add_smoothing_pos (hpi s))
    ⟨0, add_smoothing_pos (hpi 0)⟩ (fun r => ⟨0, add_smoothing_pos (htransition r 0)⟩) hos

/-- Only numbers that are not negative have their logarithm taken, and the result is a
distribution. -/
structure WellBehaved (m : Model O K n) : Prop where
  logarithms : ∀ x, m.Takes x → 0 ≤ x
  distribution : ∀ os : List O, os ≠ [] → ∃ probs : Fin n → K,
    m.forwardAlgorithm os = .ok (fun s => some (probs s)) ∧ (∀ s, 0 ≤ probs s) ∧ ∑ s, probs s = 1

theorem ok_of_computeRow {α : Type} {n : ℕ} {f : Fin n → Except PyException α} {v : Fin n → α}
    (h : computeRow f = .ok v) : ∀ s, ∃ x, f s = .ok x := by
  induction n with
  | zero => exact fun s => s.elim0
  | succ n ih =>
    obtain ⟨x, hx, hrest⟩ := Scan.bind_eq_ok.mp h
    obtain ⟨row, hrow, -⟩ := Scan.bind_eq_ok.mp hrest
    intro s
    cases s using Fin.cases with
    | zero => exact ⟨x, hx⟩
    | succ s => exact ih hrow s

theorem wellBehaved_iff {m : Model O K (n + 1)} {b : O → Fin (n + 1) → K}
    (hb : m.Emits b) [Nonempty O]
    (hleaves : ∀ r, ∃ s, m.transition r s + smoothing ≠ 0) :
    WellBehaved m ↔ (∀ s, 0 < m.initialPi s + smoothing) ∧
      ∀ r s, 0 ≤ m.transition r s + smoothing := by
  constructor
  · intro h
    refine ⟨fun s => ?_, fun r s => h.logarithms _ (.inr ⟨r, s, rfl⟩)⟩
    obtain ⟨o⟩ := (inferInstance : Nonempty O)
    obtain ⟨probs, hprobs, -⟩ := h.distribution [o] (by simp)
    obtain ⟨first, hfirst, -⟩ := Scan.bind_eq_ok.mp hprobs
    obtain ⟨x, hx⟩ := ok_of_computeRow hfirst s
    obtain ⟨logPi, hlog, -⟩ := Scan.bind_eq_ok.mp hx
    unfold mathLog at hlog
    split at hlog
    · assumption
    · cases hlog
  · rintro ⟨hpi, htransition⟩
    have hnonneg : (m.smoothed b).Nonnegative :=
      ⟨fun s => (hpi s).le, htransition, fun o s => (hb.pos o s).le⟩
    have hleave : ∀ r, ∃ s, 0 < (m.smoothed b).transition r s := by
      intro r
      obtain ⟨s, hs⟩ := hleaves r
      exact ⟨s, lt_of_le_of_ne (htransition r s) hs.symm⟩
    refine ⟨?_, fun os hos => ?_⟩
    · rintro x (⟨s, rfl⟩ | ⟨r, s, rfl⟩)
      · exact (hpi s).le
      · exact htransition r s
    · obtain ⟨probs, hprobs, -, hdistribution⟩ :=
        Model.forward_distribution hb hnonneg hpi ⟨0, hpi 0⟩ hleave hos
      exact ⟨probs, hprobs, hdistribution⟩

variable [RealFunctions K]

def gaussianDensity (x mean std : K) : K :=
  RealFunctions.exp (-0.5 * ((x - mean) / std) ^ 2) /
    (std * RealFunctions.sqrt (2 * RealFunctions.pi))

theorem gaussian_scale_pos {std : K} (h : 0 < std) :
    0 < std * RealFunctions.sqrt (2 * RealFunctions.pi) :=
  mul_pos h (RealFunctions.sqrt_pos _ (mul_pos two_pos RealFunctions.pi_pos))

theorem gaussianDensity_pos {x mean std : K} (h : 0 < std) : 0 < gaussianDensity x mean std :=
  div_pos (RealFunctions.exp_pos _) (gaussian_scale_pos h)

theorem gaussianLogProb_eq {x mean std : K} (h : 0 < std) :
    gaussianLogProb x mean std =
      .ok (.log (gaussianDensity x mean std) (gaussianDensity_pos h).le) := by
  have hlog : mathLog (std * RealFunctions.sqrt (2 * RealFunctions.pi)) =
      .ok (.log _ (gaussian_scale_pos h).le) := dif_pos (gaussian_scale_pos h)
  rw [gaussianLogProb, if_neg h.ne', hlog]
  exact congrArg Except.ok (LogNumber.sub_log _ (gaussian_scale_pos h))

theorem gaussianModel_emits {initialPi : Fin n → K} {transition : Fin n → Fin n → K}
    {emissionParams : Fin n → K × K} (h : ∀ s, 0 < (emissionParams s).2) :
    (gaussianModel initialPi transition emissionParams).Emits
      fun x s => gaussianDensity x (emissionParams s).1 (emissionParams s).2 where
  pos _ s := gaussianDensity_pos (h s)
  logProb _ s := gaussianLogProb_eq (h s)

end Posterior

/-- A model that starts in its first state half of the time, and whose states look alike. -/
noncomputable def lookalikes : Model ℝ ℝ 3 :=
  gaussianModel ![1 / 2, 1 / 4, 1 / 4] (fun _ _ => 1 / 3) fun _ => (0, 1)

noncomputable def lookalikeDensity (x : ℝ) (_ : Fin 3) : ℝ := gaussianDensity x 0 1

theorem lookalikes_emits : lookalikes.Emits lookalikeDensity :=
  gaussianModel_emits fun _ => one_pos

theorem lookalikes_initialPi_pos (s : Fin 3) : 0 < lookalikes.initialPi s := by
  fin_cases s <;> norm_num [lookalikes, gaussianModel]

theorem lookalikes_posterior :
    ∃ probs : Fin 3 → ℝ, lookalikes.forwardAlgorithm [0, 1] = .ok (fun s => some (probs s)) ∧
      (∀ s, probs s = (lookalikes.smoothed lookalikeDensity).weightTo [0, 1] s /
        (lookalikes.smoothed lookalikeDensity).totalWeight [0, 1]) ∧
      (∀ s, 0 ≤ probs s) ∧ ∑ s, probs s = 1 :=
  Model.forward_posterior lookalikes_emits lookalikes_initialPi_pos
    (fun _ _ => by norm_num [lookalikes, gaussianModel]) (by simp)

theorem lookalikes_transition_pos (r s : Fin 3) : 0 < lookalikes.transition r s := by
  norm_num [lookalikes, gaussianModel]

/-- The first state does not get its half: the smoothing moves the result. -/
theorem lookalikes_moved :
    (∀ s, 0 < lookalikes.initialPi s) ∧ (∀ r s, 0 < lookalikes.transition r s) ∧
      lookalikes.Emits lookalikeDensity ∧
      lookalikes.forwardAlgorithm [0] ≠ .ok fun s =>
        some ((lookalikes.configured lookalikeDensity).weightTo [0] s /
          (lookalikes.configured lookalikeDensity).totalWeight [0]) := by
  refine ⟨lookalikes_initialPi_pos, lookalikes_transition_pos, lookalikes_emits, fun h => ?_⟩
  have hdensity : 0 < gaussianDensity (0 : ℝ) 0 1 := gaussianDensity_pos one_pos
  have hsmoothing : (0 : ℝ) < smoothing := smoothing_pos
  have hnonneg : (lookalikes.smoothed lookalikeDensity).Nonnegative :=
    ⟨fun s => (add_smoothing_pos (lookalikes_initialPi_pos s)).le,
      fun r s => (add_smoothing_pos (lookalikes_transition_pos r s)).le, fun _ _ =>
        (gaussianDensity_pos one_pos).le⟩
  have hsmoothed : (lookalikes.smoothed lookalikeDensity).totalWeight [0] =
      (1 + 3 * smoothing) * gaussianDensity 0 0 1 := by
    rw [← Trellis.sum_weightTo (by simp), Fin.sum_univ_three]
    simp only [Trellis.weightTo_singleton, Model.smoothed, lookalikes, gaussianModel,
      lookalikeDensity, Matrix.cons_val]
    ring
  have hconfigured : (lookalikes.configured lookalikeDensity).totalWeight [0] =
      gaussianDensity 0 0 1 := by
    rw [← Trellis.sum_weightTo (by simp), Fin.sum_univ_three]
    simp only [Trellis.weightTo_singleton, Model.configured, lookalikes, gaussianModel,
      lookalikeDensity, Matrix.cons_val]
    ring
  have hpos : 0 < (lookalikes.smoothed lookalikeDensity).totalWeight [0] := by
    rw [hsmoothed]
    positivity
  rw [Model.forwardAlgorithm_eq lookalikes_emits hnonneg
    (fun s => add_smoothing_pos (lookalikes_initialPi_pos s)) (by simp) hpos] at h
  have hfirst := Option.some.inj (congrFun (Except.ok.inj h) 0)
  rw [hsmoothed, hconfigured, Trellis.weightTo_singleton, Trellis.weightTo_singleton] at hfirst
  simp only [Model.smoothed, Model.configured, lookalikes, gaussianModel, lookalikeDensity,
    Matrix.cons_val] at hfirst
  rw [mul_div_mul_right _ _ hdensity.ne', mul_div_assoc, div_self hdensity.ne',
    div_eq_iff (by positivity)] at hfirst
  linarith

end HiddenMarkov

end Finguard
