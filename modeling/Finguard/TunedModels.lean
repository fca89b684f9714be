import Finguard.Bankability
import Finguard.HiddenMarkov
import Finguard.Tuning

/-! What the validated tuning is used for: the hidden Markov model of the budget watchdog and the
bankability score. The numbers of a section are read as they are written, and the computations
are exact. -/

namespace Finguard
open PyValue

/-- The numbers that the hidden Markov model is built from. -/
structure WatchdogTuning where
  emissionParams : List (ℚ × ℚ)
  transition : List (List ℚ)
  initialPi : List ℚ

namespace Tuning

def Holds (v : PyValue) (q : ℚ) : Prop := v.number? = some (.finite q)

def HoldsPair (v : PyValue) (p : ℚ × ℚ) : Prop :=
  ∃ a b, v.pair? = some (a, b) ∧ Holds a p.1 ∧ Holds b p.2

def HoldsBand (v : PyValue) (band : ℚ × ℤ) : Prop :=
  ∃ a b, v.pair? = some (a, b) ∧ Holds a band.1 ∧ b.int? = some band.2

def HoldsAll {α : Type} (holds : PyValue → α → Prop) (v : PyValue) (l : List α) : Prop :=
  ∃ items, v.items? = some items ∧ List.Forall₂ holds items l

structure WatchdogTuning.Reads (raw : WatchdogTuning) (w : Finguard.WatchdogTuning) : Prop where
  emissionParams : HoldsAll HoldsPair raw.emissionParams w.emissionParams
  transition : HoldsAll (HoldsAll Holds) raw.transition w.transition
  initialPi : HoldsAll Holds raw.initialPi w.initialPi

structure BankabilityTuning.Reads (raw : BankabilityTuning) (bt : Finguard.BankabilityTuning) :
    Prop where
  trendMax : raw.trendMax.int? = some bt.trendMax
  ratioMax : raw.ratioMax.int? = some bt.ratioMax
  consistencyMax : raw.consistencyMax.int? = some bt.consistencyMax
  solvencyMax : raw.solvencyMax.int? = some bt.solvencyMax
  ratioBands : HoldsAll HoldsBand raw.ratioBands bt.ratioBands
  tierLowMin : raw.tierLowMin.int? = some bt.tierLowMin
  tierMediumMin : raw.tierMediumMin.int? = some bt.tierMediumMin

def floats (l : List ℚ) : PyValue := .array (l.map fun q => .float (.finite q))

/-- The section with these numbers, all of them floats. -/
def WatchdogTuning.ofNumbers (w : Finguard.WatchdogTuning) : WatchdogTuning where
  emissionParams := .array (w.emissionParams.map fun p => floats [p.1, p.2])
  transition := .array (w.transition.map floats)
  initialPi := floats w.initialPi

def BankabilityTuning.ofNumbers (bt : Finguard.BankabilityTuning) : BankabilityTuning where
  trendMax := .int bt.trendMax
  ratioMax := .int bt.ratioMax
  consistencyMax := .int bt.consistencyMax
  solvencyMax := .int bt.solvencyMax
  ratioBands := .array (bt.ratioBands.map fun band =>
    .array [.float (.finite band.1), .int band.2])
  tierLowMin := .int bt.tierLowMin
  tierMediumMin := .int bt.tierMediumMin

theorem holdsAll_map {α : Type} {holds : PyValue → α → Prop} {f : α → PyValue}
    (h : ∀ x, holds (f x) x) (l : List α) : HoldsAll holds (.array (l.map f)) l := by
  refine ⟨l.map f, rfl, ?_⟩
  induction l with
  | nil => exact .nil
  | cons x l ih => exact .cons (h x) ih

theorem holds_floats (l : List ℚ) : HoldsAll Holds (floats l) l :=
  holdsAll_map (f := fun q => .float (.finite q)) (fun _ => rfl) l

theorem WatchdogTuning.reads_ofNumbers (w : Finguard.WatchdogTuning) : (ofNumbers w).Reads w where
  emissionParams := holdsAll_map (fun p =>
    ⟨.float (.finite p.1), .float (.finite p.2), rfl, rfl, rfl⟩) w.emissionParams
  transition := holdsAll_map holds_floats w.transition
  initialPi := holds_floats w.initialPi

theorem BankabilityTuning.reads_ofNumbers (bt : Finguard.BankabilityTuning) :
    (ofNumbers bt).Reads bt where
  trendMax := rfl
  ratioMax := rfl
  consistencyMax := rfl
  solvencyMax := rfl
  ratioBands := holdsAll_map (fun band =>
    ⟨.float (.finite band.1), .int band.2, rfl, rfl, rfl⟩) bt.ratioBands
  tierLowMin := rfl
  tierMediumMin := rfl

section
variable {v a b : PyValue} {q r : ℚ} {n : ℤ}

theorem holds_of_int? (h : v.int? = some n) : Holds v n := by
  cases v <;> simp_all [PyValue.int?, Holds, PyValue.number?]

theorem scalarLt_of_numbers {x y : Number} (ha : a.number? = some x) (hb : b.number? = some y) :
    scalarLt a b = .ok (x.lt y) := by
  unfold scalarLt
  split
  · simp [PyValue.number?, PyValue.int?] at ha
  · simp [ha, hb]

theorem lt_of_pyLt (ha : Holds a q) (hb : Holds b r) (h : pyLt a b = .ok true) : q < r := by
  have hlt : scalarLt a b = .ok true := by
    cases a with
    | array items => simp [Holds, PyValue.number?, PyValue.int?] at ha
    | _ => exact h
  rw [scalarLt_of_numbers ha hb] at hlt
  simpa [Number.lt] using Except.ok.inj hlt

theorem nonneg_of_isAtLeast (hv : Holds v q) (h : isAtLeast 0 v = .ok true) : 0 ≤ q := by
  rw [isAtLeast, numberOf, hv] at h
  have hle : (Number.finite 0).le (.finite q) = true := Except.ok.inj h
  simp [Number.le, Number.lt, Number.eq] at hle
  rcases hle with hlt | heq
  · exact hlt.le
  · exact heq.le

theorem pos_of_isPositive (hv : Holds v q) (h : isPositive v = .ok true) : 0 < q := by
  rw [isPositive, numberOf, hv] at h
  have hlt : (Number.finite 0).lt (.finite q) = true := Except.ok.inj h
  simpa [Number.lt] using hlt

theorem reportProblems_eq_nil {cs : List Check} (h : reportProblems cs = .ok []) :
    ∀ c ∈ cs, c.1 = .ok true := by
  intro c hc
  obtain ⟨holds, hholds⟩ := (evaluates_reportProblems cs).mp ⟨_, h⟩ c hc
  cases holds with
  | true => exact hholds
  | false =>
    have hmem : c.2 ∈ ([] : List String) := by
      refine (mem_reportProblems h).mpr ?_
      rw [← hholds]
      exact hc
    exact absurd hmem List.not_mem_nil

theorem pyAll_eq_true {α : Type} {p : α → Except PyException Bool} {l : List α}
    (h : pyAll p l = .ok true) : ∀ x ∈ l, p x = .ok true := by
  induction l with
  | nil => simp
  | cons x l ih =>
    obtain ⟨holds, hx, hrest⟩ := Scan.bind_eq_ok.mp h
    cases holds with
    | false => cases hrest
    | true =>
      intro y hy
      rcases List.mem_cons.mp hy with rfl | hy
      · exact hx
      · exact ih hrest y hy

theorem pyAnd_eq_true {x y : Except PyException Bool} (h : pyAnd x y = .ok true) :
    x = .ok true ∧ y = .ok true := by
  obtain ⟨holds, hx, hrest⟩ := Scan.bind_eq_ok.mp h
  cases holds with
  | false => cases hrest
  | true => exact ⟨hx, hrest⟩

theorem pyLen_eq {items : List PyValue} (h : v.items? = some items) :
    pyLen v = .ok items.length := by
  rw [pyLen, pyIter, h]
  rfl

theorem sameLength_eq_true {w : PyValue} {items items' : List PyValue} (hv : v.items? = some items)
    (hw : w.items? = some items') (h : sameLength v w = .ok true) :
    items.length = items'.length := by
  rw [sameLength, pyLen_eq hv, pyLen_eq hw] at h
  exact beq_iff_eq.mp (Except.ok.inj h)

end

/-- What the validator makes sure of for the model. -/
structure Shaped (w : Finguard.WatchdogTuning) : Prop where
  states : w.emissionParams.length = 3
  std : ∀ p ∈ w.emissionParams, 0 < p.2
  initialPi : w.initialPi.length = 3
  transition : w.transition.length = 3
  rows : ∀ row ∈ w.transition, row.length = 3
  leaves : ∀ row ∈ w.transition, ∃ p ∈ row, p ≠ -HiddenMarkov.smoothing

section
variable {raw : WatchdogTuning} {w : Finguard.WatchdogTuning}

theorem sumsToOne_cancelled :
    sumsToOne (.array (List.replicate 3 (.float (.finite (-HiddenMarkov.smoothing))))) = .ok false := by
  decide +kernel

theorem exists_of_forall₂ {α β : Type} {R : α → β → Prop} {l : List α} {l' : List β}
    (h : List.Forall₂ R l l') {b : β} (hb : b ∈ l') : ∃ a ∈ l, R a b := by
  induction h with
  | nil => simp at hb
  | cons hr _ ih =>
    rcases List.mem_cons.mp hb with rfl | hb
    · exact ⟨_, List.mem_cons_self, hr⟩
    · obtain ⟨a, ha, hab⟩ := ih hb
      exact ⟨a, List.mem_cons_of_mem _ ha, hab⟩

theorem float_of_holds {v : PyValue} (h : Holds v (-HiddenMarkov.smoothing)) :
    v = .float (.finite (-HiddenMarkov.smoothing)) := by
  have hwhole : ∀ n : ℤ, (n : ℚ) ≠ -HiddenMarkov.smoothing := by
    intro n hn
    have hpos : (0 : ℚ) < HiddenMarkov.smoothing := HiddenMarkov.smoothing_pos
    have hsmall : (HiddenMarkov.smoothing : ℚ) < 1 := by decide +kernel
    have hneg : (n : ℚ) < 0 := by linarith
    have hlarge : (-1 : ℚ) < n := by linarith
    have hneg' : n < 0 := by exact_mod_cast hneg
    have hlarge' : -1 < n := by exact_mod_cast hlarge
    omega
  cases v with
  | float x =>
    have hx : x = .finite (-HiddenMarkov.smoothing) := Option.some.inj h
    rw [hx]
  | int n => exact absurd (Number.finite.inj (Option.some.inj h)) (hwhole n)
  | bool b =>
    have hn : ((if b then 1 else 0 : ℤ) : ℚ) = -HiddenMarkov.smoothing :=
      Number.finite.inj (Option.some.inj h)
    exact absurd hn (hwhole _)
  | _ => cases h

theorem exists_ne_of_sumsToOne {v : PyValue} {row : List ℚ} (h : HoldsAll Holds v row)
    (hlen : row.length = 3) (hsum : sumsToOne v = .ok true) :
    ∃ p ∈ row, p ≠ -HiddenMarkov.smoothing := by
  by_contra hall
  push Not at hall
  obtain ⟨items, hitems, hrow⟩ := h
  have hitems_eq : items = List.replicate 3 (.float (.finite (-HiddenMarkov.smoothing))) := by
    refine List.eq_replicate_iff.mpr ⟨hrow.length_eq.trans hlen, fun item hitem => ?_⟩
    obtain ⟨p, hp, hholds⟩ := exists_of_forall₂ hrow.flip hitem
    rw [hall p hp] at hholds
    exact float_of_holds hholds
  have hsame : sumsToOne v = sumsToOne (.array items) := by
    rw [sumsToOne, sumsToOne, pyIter, hitems]
    rfl
  rw [hsame, hitems_eq, sumsToOne_cancelled] at hsum
  cases hsum

theorem WatchdogTuning.Reads.shaped (h : raw.Reads w)
    (hvalid : ∀ c ∈ watchdogChecks raw, c.1 = .ok true) : Shaped w := by
  obtain ⟨states, hstates, hparams⟩ := h.emissionParams
  obtain ⟨rows, hrows, htransition⟩ := h.transition
  obtain ⟨initial, hinitial, hpi⟩ := h.initialPi
  have hiterStates : pyIter raw.emissionParams = .ok states := by rw [pyIter, hstates]; rfl
  have hiterRows : pyIter raw.transition = .ok rows := by rw [pyIter, hrows]; rfl
  simp only [watchdogChecks, List.forall_mem_cons] at hvalid
  obtain ⟨hcount, hstd, hstart, hsquare, hsums, -⟩ := hvalid
  have hthree : states.length = 3 := by
    rw [pyLen_eq hstates] at hcount
    exact beq_iff_eq.mp (Except.ok.inj hcount)
  rw [hiterStates] at hstd
  rw [hiterRows] at hsums
  obtain ⟨-, hpiLength⟩ := pyAnd_eq_true hstart
  obtain ⟨hrowsLength, hrowLength⟩ := pyAnd_eq_true hsquare
  rw [hiterRows] at hrowLength
  have hrowThree : ∀ row ∈ w.transition, row.length = 3 := by
    intro row hrow
    obtain ⟨v, hv, items, hitems, hholds⟩ := exists_of_forall₂ htransition hrow
    rw [← hholds.length_eq, ← hthree]
    exact sameLength_eq_true hitems hstates (pyAll_eq_true hrowLength v hv)
  refine ⟨hparams.length_eq ▸ hthree, fun p hp => ?_, ?_, ?_, hrowThree, fun row hrow => ?_⟩
  · obtain ⟨v, hv, a, b, hpair, -, hb⟩ := exists_of_forall₂ hparams hp
    obtain ⟨params, hunpack, hpositive⟩ := Scan.bind_eq_ok.mp (pyAll_eq_true hstd v hv)
    have hparams_eq : params = (a, b) :=
      Option.some.inj ((unpackPair_eq_ok.mp hunpack).symm.trans hpair)
    rw [hparams_eq] at hpositive
    exact pos_of_isPositive hb hpositive
  · rw [← hpi.length_eq, ← hthree]
    exact sameLength_eq_true hinitial hstates hpiLength
  · rw [← htransition.length_eq, ← hthree]
    exact sameLength_eq_true hrows hstates hrowsLength
  · obtain ⟨v, hv, hholds⟩ := exists_of_forall₂ htransition hrow
    exact exists_ne_of_sumsToOne hholds (hrowThree row hrow) (pyAll_eq_true hsums v hv)

end

theorem pairwise_of_zip_tail {α : Type} {R : α → α → Prop} (htrans : ∀ a b c, R a b → R b c → R a c)
    {l : List α} (h : ∀ p ∈ l.zip l.tail, R p.1 p.2) : l.Pairwise R := by
  have : IsTrans α R := ⟨htrans⟩
  refine List.IsChain.pairwise ?_
  induction l with
  | nil => exact .nil
  | cons a l ih =>
    cases l with
    | nil => exact .singleton a
    | cons b l =>
      refine .cons_cons (h (a, b) List.mem_cons_self) (ih fun p hp => ?_)
      exact h p (List.mem_cons_of_mem _ hp)

theorem zip_tail_of_forall₂ {α β : Type} {R : α → β → Prop} {l : List α} {l' : List β}
    (h : List.Forall₂ R l l') :
    List.Forall₂ (fun p q => R p.1 q.1 ∧ R p.2 q.2) (l.zip l.tail) (l'.zip l'.tail) := by
  induction h with
  | nil => exact .nil
  | cons hr hrest ih =>
    cases hrest with
    | nil => exact .nil
    | cons hs hrest => exact .cons ⟨hr, hs⟩ ih

theorem ascending_of_bandsAscend {v : PyValue} {items : List PyValue} (hv : v.items? = some items)
    (h : bandsAscend v = .ok true) : ∀ p ∈ items.zip items.tail, ascending p = .ok true := by
  unfold bandsAscend at h
  split at h
  · obtain ⟨rest, hrest, htail⟩ := Scan.bind_eq_ok.mp h
    obtain ⟨items', hitems', hall⟩ := Scan.bind_eq_ok.mp htail
    have hiter : pyIter v = .ok items := by rw [pyIter, hv]; rfl
    have hitems : items' = items := Except.ok.inj (hitems'.symm.trans hiter)
    have hslice : rest = items.tail := by
      unfold sliceTail at hrest
      split at hrest
      · cases hrest
      · rw [hiter] at hrest
        exact (Except.ok.inj hrest).symm
    rw [hitems, hslice] at hall
    exact pyAll_eq_true hall
  · cases h

theorem lt_of_ascending {p : PyValue × PyValue} {b c : ℚ × ℤ} (hb : HoldsBand p.1 b)
    (hc : HoldsBand p.2 c) (h : ascending p = .ok true) : b.1 < c.1 := by
  obtain ⟨u, points, hpair, hu, -⟩ := hb
  obtain ⟨u', points', hpair', hu', -⟩ := hc
  rw [ascending, unpackPair_eq_ok.mpr hpair, unpackPair_eq_ok.mpr hpair'] at h
  exact lt_of_pyLt hu hu' h

theorem BankabilityTuning.Reads.ordered {raw : BankabilityTuning} {bt : Finguard.BankabilityTuning}
    (h : raw.Reads bt) (hvalid : ∀ c ∈ bankabilityChecks raw, c.1 = .ok true) :
    Bankability.Ordered bt := by
  obtain ⟨bands, hbands, hall⟩ := h.ratioBands
  simp only [bankabilityChecks, List.forall_mem_cons] at hvalid
  obtain ⟨-, hweights, hascend, -⟩ := hvalid
  have hweight := pyAll_eq_true hweights
  have hnonneg : ∀ {v : PyValue} {n : ℤ}, v ∈ raw.weights → v.int? = some n → 0 ≤ n := by
    intro v n hv hn
    exact_mod_cast nonneg_of_isAtLeast (holds_of_int? hn) (hweight v hv)
  have hascending : ∀ q ∈ bt.ratioBands.zip bt.ratioBands.tail, q.1.1 < q.2.1 := by
    intro q hq
    obtain ⟨p, hp, hfirst, hsecond⟩ := exists_of_forall₂ (zip_tail_of_forall₂ hall) hq
    exact lt_of_ascending hfirst hsecond (ascending_of_bandsAscend hbands hascend p hp)
  have htrans : ∀ b c d : ℚ × ℤ, b.1 < c.1 → c.1 < d.1 → b.1 < d.1 := fun _ _ _ => lt_trans
  exact ⟨hnonneg (by simp [weights]) h.trendMax, hnonneg (by simp [weights]) h.ratioMax,
    hnonneg (by simp [weights]) h.consistencyMax, hnonneg (by simp [weights]) h.solvencyMax,
    pairwise_of_zip_tail htrans hascending⟩

end Tuning

/-- The model over the three states. -/
def WatchdogTuning.model {K : Type} [Field K] [LinearOrder K] [IsStrictOrderedRing K]
    [RealFunctions K] (w : WatchdogTuning) : HiddenMarkov.Model K K 3 :=
  HiddenMarkov.gaussianModel (fun s => (w.initialPi.getD s 0 : ℚ))
    (fun r s => ((w.transition.getD r []).getD s 0 : ℚ))
    fun s => (((w.emissionParams.getD s (0, 0)).1 : ℚ), ((w.emissionParams.getD s (0, 0)).2 : ℚ))

open HiddenMarkov Tuning

theorem forall_getD_iff {α : Type} {l : List α} {n : ℕ} (h : l.length = n) {p : α → Prop} (d : α) :
    (∀ s : Fin n, p (l.getD s d)) ↔ ∀ x ∈ l, p x := by
  subst h
  constructor
  · intro hall x hx
    obtain ⟨i, hi, rfl⟩ := List.mem_iff_getElem.mp hx
    have hget := hall ⟨i, hi⟩
    rwa [List.getD_eq_getElem _ _ hi] at hget
  · intro hall s
    rw [List.getD_eq_getElem _ _ s.isLt]
    exact hall _ (List.getElem_mem s.isLt)

theorem getD_mem {α : Type} {l : List α} {n : ℕ} (h : l.length = n) (d : α) (s : Fin n) :
    l.getD s d ∈ l := (forall_getD_iff h d).mpr (fun _ hx => hx) s

theorem smoothed_pos_iff {q : ℚ} : 0 < (q : ℝ) + smoothing ↔ -smoothing < q := by
  have hcast : ((q + smoothing : ℚ) : ℝ) = q + smoothing := by simp [smoothing]
  rw [← hcast, Rat.cast_pos, neg_lt_iff_pos_add]

theorem smoothed_nonneg_iff {q : ℚ} : 0 ≤ (q : ℝ) + smoothing ↔ -smoothing ≤ q := by
  have hcast : ((q + smoothing : ℚ) : ℝ) = q + smoothing := by simp [smoothing]
  rw [← hcast, Rat.cast_nonneg, neg_le_iff_add_nonneg]

theorem wellBehaved_model_iff {w : WatchdogTuning} (h : Shaped w) :
    WellBehaved (w.model (K := ℝ)) ↔
      (∀ p ∈ w.initialPi, -smoothing < p) ∧ ∀ row ∈ w.transition, ∀ p ∈ row, -smoothing ≤ p := by
  have hstd : ∀ s : Fin 3, (0 : ℝ) < ((w.emissionParams.getD s (0, 0)).2 : ℚ) := by
    intro s
    exact_mod_cast h.std _ (getD_mem h.states _ s)
  have hleaves : ∀ r : Fin 3, ∃ s : Fin 3,
      (((w.transition.getD r []).getD s 0 : ℚ) : ℝ) + smoothing ≠ 0 := by
    intro r
    have hrow := getD_mem h.transition [] r
    by_contra hall
    push Not at hall
    obtain ⟨p, hp, hne⟩ := h.leaves _ hrow
    have hcancel : ∀ q ∈ w.transition.getD r [], q = -smoothing := by
      refine (forall_getD_iff (h.rows _ hrow) 0).mp fun s => ?_
      have hcast : (((w.transition.getD r []).getD s 0 + smoothing : ℚ) : ℝ) = 0 := by
        rw [← hall s]
        simp [smoothing]
      exact eq_neg_of_add_eq_zero_left (by exact_mod_cast hcast)
    exact hne (hcancel p hp)
  refine (wellBehaved_iff (gaussianModel_emits hstd) hleaves).trans (and_congr ?_ ?_)
  · simp only [gaussianModel, smoothed_pos_iff]
    exact forall_getD_iff h.initialPi 0
  · simp only [gaussianModel, smoothed_nonneg_iff]
    rw [← forall_getD_iff h.transition []]
    exact forall_congr' fun r => forall_getD_iff (h.rows _ (getD_mem h.transition [] r)) 0

/-- The model whose first state is left in this way. -/
def leaving (row : List ℚ) : WatchdogTuning where
  emissionParams := [(1 / 2, 1 / 8), (3 / 4, 1 / 8), (5 / 4, 1 / 4)]
  transition := [row, [1 / 4, 1 / 2, 1 / 4], [0, 1 / 4, 3 / 4]]
  initialPi := [1 / 2, 1 / 4, 1 / 4]

def rewarding (trendMax : ℤ) : BankabilityTuning where
  trendMax := trendMax
  ratioBands := [(1 / 2, 30), (1, 10)]

def tuningOf (w : WatchdogTuning) (bt : BankabilityTuning) : AgentTuning where
  watchdog := .ofNumbers w
  bankability := .ofNumbers bt

end Finguard
