import Finguard.PythonOperators

/-! The tuning of the agents: sections with defaults, how a section is made of a dictionary, and
what the validator reports. A dictionary may put a value of any type in a field. -/

namespace Finguard
open PyValue

namespace Tuning

def floatLiteral (q : ℚ) : PyValue := .float (.ofRat q)

structure ReconcilerTuning where
  txnBatch : PyValue := .int 100
  invLimit : PyValue := .int 500
  fuzzyThreshold : PyValue := floatLiteral 65
  semanticThreshold : PyValue := floatLiteral 0.60
  fuzzyMatchBoundary : PyValue := floatLiteral 0.90
  amountToleranceKes : PyValue := floatLiteral 1
  dateWindowDays : PyValue := .int 2
  pass2CandidateCap : PyValue := .int 50

structure WatchdogTuning where
  emissionParams : PyValue := .array [
    .array [floatLiteral 0.55, floatLiteral 0.15],
    .array [floatLiteral 0.85, floatLiteral 0.12],
    .array [floatLiteral 1.20, floatLiteral 0.22]]
  transition : PyValue := .array [
    .array [floatLiteral 0.85, floatLiteral 0.13, floatLiteral 0.02],
    .array [floatLiteral 0.10, floatLiteral 0.78, floatLiteral 0.12],
    .array [floatLiteral 0.05, floatLiteral 0.20, floatLiteral 0.75]]
  initialPi : PyValue := .array [floatLiteral 0.80, floatLiteral 0.15, floatLiteral 0.05]
  duplicateThreshold : PyValue := floatLiteral 88
  isolationMinSamples : PyValue := .int 5

structure AuditorTuning where
  vatRate : PyValue := floatLiteral 0.16
  vatThresholdAnnualKes : PyValue := floatLiteral 5000000
  citRate : PyValue := floatLiteral 0.30
  totRate : PyValue := floatLiteral 0.03
  amlReportingThresholdKes : PyValue := floatLiteral 1000000

structure ClassifierTuning where
  batchSize : PyValue := .int 50
  drainMaxBatches : PyValue := .int 1

structure ReceiptTuning where
  categories : PyValue := .array [.text "supplies", .text "services", .text "utilities",
    .text "travel", .text "other"]
  ocrMinConfidence : PyValue := floatLiteral 0.6
  hifiRetryEnabled : PyValue := .bool true

structure BankabilityTuning where
  trendMax : PyValue := .int 30
  ratioMax : PyValue := .int 30
  consistencyMax : PyValue := .int 20
  solvencyMax : PyValue := .int 20
  ratioBands : PyValue := .array [
    .array [floatLiteral 0.50, .int 30],
    .array [floatLiteral 0.65, .int 24],
    .array [floatLiteral 0.80, .int 16],
    .array [floatLiteral 0.95, .int 8],
    .array [floatLiteral 1.00, .int 3]]
  tierLowMin : PyValue := .int 75
  tierMediumMin : PyValue := .int 45

structure AgentTuning where
  reconciler : ReconcilerTuning := {}
  watchdog : WatchdogTuning := {}
  auditor : AuditorTuning := {}
  bankability : BankabilityTuning := {}
  classifier : ClassifierTuning := {}
  receipt : ReceiptTuning := {}

/-! Sections. -/

inductive Section where
  | reconciler
  | watchdog
  | auditor
  | bankability
  | classifier
  | receipt
deriving DecidableEq

inductive SectionValue where
  | reconciler (r : ReconcilerTuning)
  | watchdog (w : WatchdogTuning)
  | auditor (a : AuditorTuning)
  | bankability (b : BankabilityTuning)
  | classifier (c : ClassifierTuning)
  | receipt (rc : ReceiptTuning)

namespace Section

def name : Section → String
  | reconciler => "reconciler"
  | watchdog => "watchdog"
  | auditor => "auditor"
  | bankability => "bankability"
  | classifier => "classifier"
  | receipt => "receipt"

def sections : List Section :=
  [reconciler, watchdog, auditor, bankability, classifier, receipt]

def ofName? (s : String) : Option Section := sections.find? (·.name = s)

/-- The names of the fields of a section. -/
def known : Section → List String
  | reconciler => ["txn_batch", "inv_limit", "fuzzy_threshold", "semantic_threshold",
      "fuzzy_match_boundary", "amount_tolerance_kes", "date_window_days", "pass2_candidate_cap"]
  | watchdog => ["emission_params", "transition", "initial_pi", "duplicate_threshold",
      "isolation_min_samples"]
  | auditor => ["vat_rate", "vat_threshold_annual_kes", "cit_rate", "tot_rate",
      "aml_reporting_threshold_kes"]
  | bankability => ["trend_max", "ratio_max", "consistency_max", "solvency_max", "ratio_bands",
      "tier_low_min", "tier_medium_min"]
  | classifier => ["batch_size", "drain_max_batches"]
  | receipt => ["categories", "ocr_min_confidence", "hifi_retry_enabled"]

/-- The value with the fields that are given, and the default of every other one. -/
def build (raw : PyFields) : Section → SectionValue
  | reconciler =>
    let d : ReconcilerTuning := {}
    .reconciler {
      txnBatch := dictGet raw "txn_batch" d.txnBatch
      invLimit := dictGet raw "inv_limit" d.invLimit
      fuzzyThreshold := dictGet raw "fuzzy_threshold" d.fuzzyThreshold
      semanticThreshold := dictGet raw "semantic_threshold" d.semanticThreshold
      fuzzyMatchBoundary := dictGet raw "fuzzy_match_boundary" d.fuzzyMatchBoundary
      amountToleranceKes := dictGet raw "amount_tolerance_kes" d.amountToleranceKes
      dateWindowDays := dictGet raw "date_window_days" d.dateWindowDays
      pass2CandidateCap := dictGet raw "pass2_candidate_cap" d.pass2CandidateCap }
  | watchdog =>
    let d : WatchdogTuning := {}
    .watchdog {
      emissionParams := dictGet raw "emission_params" d.emissionParams
      transition := dictGet raw "transition" d.transition
      initialPi := dictGet raw "initial_pi" d.initialPi
      duplicateThreshold := dictGet raw "duplicate_threshold" d.duplicateThreshold
      isolationMinSamples := dictGet raw "isolation_min_samples" d.isolationMinSamples }
  | auditor =>
    let d : AuditorTuning := {}
    .auditor {
      vatRate := dictGet raw "vat_rate" d.vatRate
      vatThresholdAnnualKes := dictGet raw "vat_threshold_annual_kes" d.vatThresholdAnnualKes
      citRate := dictGet raw "cit_rate" d.citRate
      totRate := dictGet raw "tot_rate" d.totRate
      amlReportingThresholdKes :=
        dictGet raw "aml_reporting_threshold_kes" d.amlReportingThresholdKes }
  | bankability =>
    let d : BankabilityTuning := {}
    .bankability {
      trendMax := dictGet raw "trend_max" d.trendMax
      ratioMax := dictGet raw "ratio_max" d.ratioMax
      consistencyMax := dictGet raw "consistency_max" d.consistencyMax
      solvencyMax := dictGet raw "solvency_max" d.solvencyMax
      ratioBands := dictGet raw "ratio_bands" d.ratioBands
      tierLowMin := dictGet raw "tier_low_min" d.tierLowMin
      tierMediumMin := dictGet raw "tier_medium_min" d.tierMediumMin }
  | classifier =>
    let d : ClassifierTuning := {}
    .classifier {
      batchSize := dictGet raw "batch_size" d.batchSize
      drainMaxBatches := dictGet raw "drain_max_batches" d.drainMaxBatches }
  | receipt =>
    let d : ReceiptTuning := {}
    .receipt {
      categories := dictGet raw "categories" d.categories
      ocrMinConfidence := dictGet raw "ocr_min_confidence" d.ocrMinConfidence
      hifiRetryEnabled := dictGet raw "hifi_retry_enabled" d.hifiRetryEnabled }

end Section

/-- Unknown keys are refused. -/
def coerceSection (section' : Section) (raw : PyFields) : Except PyException SectionValue :=
  if raw.all (·.1 ∈ section'.known) then .ok (section'.build raw) else .error .valueError

/-- The other sections have their defaults. -/
def SectionValue.candidate : SectionValue → AgentTuning
  | .reconciler r => { reconciler := r }
  | .watchdog w => { watchdog := w }
  | .auditor a => { auditor := a }
  | .bankability b => { bankability := b }
  | .classifier c => { classifier := c }
  | .receipt rc => { receipt := rc }

/-! The validator. -/

/-- A condition that may raise, and the problem if it fails. -/
abbrev Check := Except PyException Bool × String

/-- All conditions are evaluated, one after the other. -/
def reportProblems : List Check → Except PyException (List String)
  | [] => .ok []
  | (condition, problem) :: checks => do
    let holds ← condition
    let problems ← reportProblems checks
    .ok (if holds then problems else problem :: problems)

def isPositive (v : PyValue) : Except PyException Bool :=
  (numberOf v).map fun x => (Number.finite 0).lt x

def isAtLeast (low : ℚ) (v : PyValue) : Except PyException Bool :=
  (numberOf v).map fun x => (Number.finite low).le x

def isBetween (low high : ℚ) (v : PyValue) : Except PyException Bool :=
  (numberOf v).map fun x => (Number.finite low).le x && x.le (.finite high)

def probTol : Number := .ofRat 1e-6

/-- `abs(sum(items) - 1.0) < _PROB_TOL` -/
def sumsToOne (v : PyValue) : Except PyException Bool := do
  let items ← pyIter v
  let distance ← pySum items >>= fun s => minusFloat s (.finite 1)
  .ok (distance.abs.lt probTol)

def reconcilerChecks (r : ReconcilerTuning) : List Check := [
  (isPositive r.txnBatch, "reconciler.txn_batch must be > 0"),
  (isPositive r.invLimit, "reconciler.inv_limit must be > 0"),
  (isBetween 0 100 r.fuzzyThreshold, "reconciler.fuzzy_threshold must be 0-100"),
  (isBetween 0 1 r.semanticThreshold, "reconciler.semantic_threshold must be 0.0-1.0"),
  (isBetween 0 1 r.fuzzyMatchBoundary, "reconciler.fuzzy_match_boundary must be 0.0-1.0"),
  (isAtLeast 0 r.amountToleranceKes, "reconciler.amount_tolerance_kes must be >= 0"),
  (isAtLeast 0 r.dateWindowDays, "reconciler.date_window_days must be >= 0"),
  (isPositive r.pass2CandidateCap, "reconciler.pass2_candidate_cap must be > 0")]

def stdDevPositive (state : PyValue) : Except PyException Bool := do
  let params ← unpackPair state
  isPositive params.2

def sameLength (v w : PyValue) : Except PyException Bool := do
  let m ← pyLen v
  let n ← pyLen w
  .ok (m == n)

def watchdogChecks (w : WatchdogTuning) : List Check := [
  ((pyLen w.emissionParams).map (· == 3), "watchdog.emission_params must have 3 states"),
  (pyIter w.emissionParams >>= pyAll stdDevPositive,
    "watchdog.emission_params std-dev must be > 0 for every state"),
  (pyAnd (sumsToOne w.initialPi) (sameLength w.initialPi w.emissionParams),
    "watchdog.initial_pi must sum to 1.0 with one entry per state"),
  (pyAnd (sameLength w.transition w.emissionParams)
      (pyIter w.transition >>= pyAll fun row => sameLength row w.emissionParams),
    "watchdog.transition must be a square matrix matching the state count"),
  (pyIter w.transition >>= pyAll sumsToOne,
    "watchdog.transition rows must each sum to 1.0 (row-stochastic)"),
  (isBetween 0 100 w.duplicateThreshold, "watchdog.duplicate_threshold must be 0-100"),
  (isAtLeast 1 w.isolationMinSamples, "watchdog.isolation_min_samples must be >= 1")]

def auditorChecks (a : AuditorTuning) : List Check := [
  (isBetween 0 1 a.vatRate, "auditor.vat_rate must be 0.0-1.0"),
  (isBetween 0 1 a.citRate, "auditor.cit_rate must be 0.0-1.0"),
  (isBetween 0 1 a.totRate, "auditor.tot_rate must be 0.0-1.0"),
  (isAtLeast 0 a.vatThresholdAnnualKes, "auditor.vat_threshold_annual_kes must be >= 0"),
  (isAtLeast 0 a.amlReportingThresholdKes, "auditor.aml_reporting_threshold_kes must be >= 0")]

/-- `bands[1:]`. A dictionary has no item of that key. -/
def sliceTail : PyValue → Except PyException (List PyValue)
  | .object _ => .error (.other "KeyError")
  | v => (pyIter v).map List.tail

def ascending (bands : PyValue × PyValue) : Except PyException Bool := do
  let (u1, _) ← unpackPair bands.1
  let (u2, _) ← unpackPair bands.2
  pyLt u1 u2

def bandsAscend (bands : PyValue) : Except PyException Bool :=
  if bands.truthy then do
    let rest ← sliceTail bands
    let items ← pyIter bands
    pyAll ascending (items.zip rest)
  else .ok false

def BankabilityTuning.weights (b : BankabilityTuning) : List PyValue :=
  [b.trendMax, b.ratioMax, b.consistencyMax, b.solvencyMax]

def weightsProblem : String := "bankability sub-score max weights must be >= 0"

def bankabilityChecks (b : BankabilityTuning) : List Check := [
  (pyLt b.tierMediumMin b.tierLowMin,
    "bankability.tier_low_min must be greater than tier_medium_min"),
  (pyAll (isAtLeast 0) b.weights, weightsProblem),
  (bandsAscend b.ratioBands, "bankability.ratio_bands upper bounds must be strictly ascending")]

def classifierChecks (c : ClassifierTuning) : List Check := [
  (isPositive c.batchSize, "classifier.batch_size must be > 0"),
  (isAtLeast 1 c.drainMaxBatches, "classifier.drain_max_batches must be >= 1")]

/-- A membership test looks for a part in a text, for a key in a dictionary. -/
def hasOther : PyValue → Except PyException Bool
  | .text s => .ok (Text.isIn "other" s)
  | v => (pyIter v).map fun items => items.any (pyEq (.text "other"))

section unicode
variable [Text.Unicode]

def isCategory : PyValue → Bool
  | .text s => s = Text.Unicode.lower s ∧ s ≠ ""
  | _ => false

def receiptChecks (rc : ReceiptTuning) : List Check := [
  ((pyLen rc.categories).map (1 ≤ ·), "receipt.categories must be non-empty"),
  (hasOther rc.categories, "receipt.categories must include 'other' as the catch-all fallback"),
  ((pyIter rc.categories).map (·.all isCategory),
    "receipt.categories must be non-empty lowercase strings"),
  (isBetween 0 1 rc.ocrMinConfidence, "receipt.ocr_min_confidence must be 0.0-1.0")]

def validateAgentTuning (t : AgentTuning) : Except PyException (List String) :=
  reportProblems (reconcilerChecks t.reconciler ++ watchdogChecks t.watchdog ++
    auditorChecks t.auditor ++ bankabilityChecks t.bankability ++
    classifierChecks t.classifier ++ receiptChecks t.receipt)

end unicode

theorem reportProblems_of_true {cs : List Check} (h : ∀ c ∈ cs, c.1 = .ok true) :
    reportProblems cs = .ok [] := by
  induction cs with
  | nil => rfl
  | cons c cs ih =>
    obtain ⟨condition, problem⟩ := c
    have hfirst : condition = .ok true := h _ List.mem_cons_self
    rw [reportProblems, hfirst, ih fun d hd => h d (List.mem_cons_of_mem _ hd)]
    rfl

theorem evaluates_reportProblems (cs : List Check) :
    Evaluates (reportProblems cs) ↔ ∀ c ∈ cs, Evaluates c.1 := by
  induction cs with
  | nil => simp [reportProblems]
  | cons c cs ih =>
    obtain ⟨condition, problem⟩ := c
    rw [reportProblems, evaluates_bind, List.forall_mem_cons, ← ih]
    simp only [evaluates_bind]
    constructor
    · rintro ⟨b, hb, ps, hps, -⟩
      exact ⟨⟨b, hb⟩, ps, hps⟩
    · rintro ⟨⟨b, hb⟩, ps, hps⟩
      exact ⟨b, hb, ps, hps, _, rfl⟩

/-- The problems of checks that raise nothing are those of the conditions that fail. -/
theorem mem_reportProblems {cs : List Check} {ps : List String} {p : String}
    (h : reportProblems cs = .ok ps) : p ∈ ps ↔ (.ok false, p) ∈ cs := by
  induction cs generalizing ps with
  | nil =>
    rw [← Except.ok.inj h]
    simp
  | cons c cs ih =>
    obtain ⟨condition, problem⟩ := c
    obtain ⟨b, hb, hrest⟩ := Scan.bind_eq_ok.mp h
    obtain ⟨qs, hqs, hps⟩ := Scan.bind_eq_ok.mp hrest
    rw [← Except.ok.inj hps, hb]
    cases b
    · simp [ih hqs]
    · simp [ih hqs]

/-! The values that a check can be evaluated on. -/

def IsNumber (v : PyValue) : Prop := v.number?.isSome

def IsSized (v : PyValue) : Prop := v.items?.isSome

def HasSum (v : PyValue) : Prop := ∃ items, v.items? = some items ∧ SumsUp items

structure ReconcilerTuning.Judged (r : ReconcilerTuning) : Prop where
  numbers : ∀ v ∈ [r.txnBatch, r.invLimit, r.fuzzyThreshold, r.semanticThreshold,
    r.fuzzyMatchBoundary, r.amountToleranceKes, r.dateWindowDays, r.pass2CandidateCap], IsNumber v

/-- A state is a pair with a number at its end. The scan ends at the first that is not
positive. -/
structure WatchdogTuning.Judged (w : WatchdogTuning) : Prop where
  states : ∃ states, w.emissionParams.items? = some states ∧
    EachUntil (fun state => stdDevPositive state = .ok false)
      (fun state => ∃ params, state.pair? = some params ∧ IsNumber params.2) states
  initialPi : HasSum w.initialPi
  transition : ∃ rows, w.transition.items? = some rows ∧
    (sameLength w.transition w.emissionParams = .ok true →
      EachUntil (fun row => sameLength row w.emissionParams = .ok false) IsSized rows) ∧
    EachUntil (fun row => sumsToOne row = .ok false) HasSum rows
  numbers : ∀ v ∈ [w.duplicateThreshold, w.isolationMinSamples], IsNumber v

structure AuditorTuning.Judged (a : AuditorTuning) : Prop where
  numbers : ∀ v ∈ [a.vatRate, a.citRate, a.totRate, a.vatThresholdAnnualKes,
    a.amlReportingThresholdKes], IsNumber v

/-- Two neighbours among the bands are pairs with comparable bounds. -/
def HasBounds (bands : PyValue × PyValue) : Prop :=
  ∃ p q, bands.1.pair? = some p ∧ bands.2.pair? = some q ∧ Comparable p.1 q.1

structure BankabilityTuning.Judged (b : BankabilityTuning) : Prop where
  tiers : Comparable b.tierMediumMin b.tierLowMin
  weights : EachUntil (fun v => isAtLeast 0 v = .ok false) IsNumber b.weights
  bands : b.ratioBands.truthy → (∀ fields, b.ratioBands ≠ .object fields) ∧
    ∃ bands, b.ratioBands.items? = some bands ∧
      EachUntil (fun p => ascending p = .ok false) HasBounds (bands.zip bands.tail)

structure ClassifierTuning.Judged (c : ClassifierTuning) : Prop where
  numbers : ∀ v ∈ [c.batchSize, c.drainMaxBatches], IsNumber v

structure ReceiptTuning.Judged (rc : ReceiptTuning) : Prop where
  categories : IsSized rc.categories
  confidence : IsNumber rc.ocrMinConfidence

def SectionValue.Judged : SectionValue → Prop
  | .reconciler r => r.Judged
  | .watchdog w => w.Judged
  | .auditor a => a.Judged
  | .bankability b => b.Judged
  | .classifier c => c.Judged
  | .receipt rc => rc.Judged

section
variable {v w : PyValue}


theorem evaluates_isPositive : Evaluates (isPositive v) ↔ IsNumber v := by
  simp [isPositive, numberOf, IsNumber]

theorem evaluates_isAtLeast {low : ℚ} : Evaluates (isAtLeast low v) ↔ IsNumber v := by
  simp [isAtLeast, numberOf, IsNumber]

theorem evaluates_isBetween {low high : ℚ} : Evaluates (isBetween low high v) ↔ IsNumber v := by
  simp [isBetween, numberOf, IsNumber]

theorem evaluates_pyLen : Evaluates (pyLen v) ↔ IsSized v := by simp [pyLen, pyIter, IsSized]

theorem evaluates_sameLength : Evaluates (sameLength v w) ↔ IsSized v ∧ IsSized w := by
  unfold sameLength
  simp only [evaluates_bind, ← evaluates_pyLen]
  constructor
  · rintro ⟨m, hm, n, hn, -⟩
    exact ⟨⟨m, hm⟩, n, hn⟩
  · rintro ⟨⟨m, hm⟩, n, hn⟩
    exact ⟨m, hm, n, hn, _, rfl⟩

theorem evaluates_sumsToOne : Evaluates (sumsToOne v) ↔ HasSum v := by
  unfold sumsToOne HasSum
  rw [evaluates_bind]
  refine exists_congr fun items => and_congr orTypeError_eq_ok ?_
  rw [← evaluates_pySum_minus items (.finite 1), evaluates_bind]
  exact exists_congr fun d => and_iff_left ⟨_, rfl⟩

theorem evaluates_stdDevPositive : Evaluates (stdDevPositive v) ↔
    ∃ params, v.pair? = some params ∧ IsNumber params.2 := by
  unfold stdDevPositive
  rw [evaluates_bind]
  exact exists_congr fun params => and_congr unpackPair_eq_ok evaluates_isPositive

theorem evaluates_ascending {p : PyValue × PyValue} : Evaluates (ascending p) ↔ HasBounds p := by
  unfold ascending HasBounds
  simp only [evaluates_bind, evaluates_pyLt, unpackPair_eq_ok]
  constructor
  · rintro ⟨a, ha, b, hb, h⟩
    exact ⟨a, b, ha, hb, h⟩
  · rintro ⟨a, b, ha, hb, h⟩
    exact ⟨a, ha, b, hb, h⟩

/-- A scan of the items of a value. -/
theorem evaluates_scan {p : PyValue → Except PyException Bool} {holds : PyValue → Prop}
    (hp : ∀ v, Evaluates (p v) ↔ holds v) : Evaluates (pyIter v >>= pyAll p) ↔
      ∃ items, v.items? = some items ∧ EachUntil (fun a => p a = .ok false) holds items := by
  rw [evaluates_bind]
  refine exists_congr fun items => and_congr orTypeError_eq_ok ?_
  rw [evaluates_pyAll]
  exact EachUntil.congr hp fun _ _ => Iff.rfl

theorem evaluates_bandsAscend : Evaluates (bandsAscend v) ↔ (v.truthy →
    (∀ fields, v ≠ .object fields) ∧ ∃ bands, v.items? = some bands ∧
      EachUntil (fun p => ascending p = .ok false) HasBounds (bands.zip bands.tail)) := by
  unfold bandsAscend
  by_cases htrue : v.truthy = true
  · rw [if_pos htrue]
    simp only [htrue, true_implies]
    cases v with
    | object fields => simp [sliceTail, evaluates_bind]
    | null => cases htrue
    | bool b => simp [sliceTail, pyIter, items?, orTypeError, Except.map, evaluates_bind]
    | int n => simp [sliceTail, pyIter, items?, orTypeError, Except.map, evaluates_bind]
    | float x => simp [sliceTail, pyIter, items?, orTypeError, Except.map, evaluates_bind]
    | text s =>
      simp only [sliceTail, pyIter, items?, orTypeError, Option.elim_some, Except.map]
      refine Iff.trans evaluates_pyAll (Iff.trans (EachUntil.congr
        (fun _ => evaluates_ascending) fun _ _ => Iff.rfl) ?_)
      simp
    | array items =>
      simp only [sliceTail, pyIter, items?, orTypeError, Option.elim_some, Except.map]
      refine Iff.trans evaluates_pyAll (Iff.trans (EachUntil.congr
        (fun _ => evaluates_ascending) fun _ _ => Iff.rfl) ?_)
      simp
  · simp [htrue]

/-! Section by section: the checks can be evaluated on the values that the predicate describes. -/

theorem evaluates_reconcilerChecks {r : ReconcilerTuning} :
    (∀ c ∈ reconcilerChecks r, Evaluates c.1) ↔ r.Judged := by
  have hchecks : (∀ c ∈ reconcilerChecks r, Evaluates c.1) ↔
      ∀ v ∈ [r.txnBatch, r.invLimit, r.fuzzyThreshold, r.semanticThreshold, r.fuzzyMatchBoundary,
        r.amountToleranceKes, r.dateWindowDays, r.pass2CandidateCap], IsNumber v := by
    simp only [reconcilerChecks, List.forall_mem_cons, evaluates_isPositive, evaluates_isAtLeast,
      evaluates_isBetween]
    simp
  exact hchecks.trans ⟨fun h => ⟨h⟩, fun h => h.numbers⟩

theorem evaluates_auditorChecks {a : AuditorTuning} :
    (∀ c ∈ auditorChecks a, Evaluates c.1) ↔ a.Judged := by
  have hchecks : (∀ c ∈ auditorChecks a, Evaluates c.1) ↔
      ∀ v ∈ [a.vatRate, a.citRate, a.totRate, a.vatThresholdAnnualKes,
        a.amlReportingThresholdKes], IsNumber v := by
    simp only [auditorChecks, List.forall_mem_cons, evaluates_isAtLeast, evaluates_isBetween]
    simp
  exact hchecks.trans ⟨fun h => ⟨h⟩, fun h => h.numbers⟩

theorem evaluates_classifierChecks {c : ClassifierTuning} :
    (∀ d ∈ classifierChecks c, Evaluates d.1) ↔ c.Judged := by
  have hchecks : (∀ d ∈ classifierChecks c, Evaluates d.1) ↔
      ∀ v ∈ [c.batchSize, c.drainMaxBatches], IsNumber v := by
    simp only [classifierChecks, List.forall_mem_cons, evaluates_isPositive, evaluates_isAtLeast]
    simp
  exact hchecks.trans ⟨fun h => ⟨h⟩, fun h => h.numbers⟩

theorem evaluates_bankabilityChecks {b : BankabilityTuning} :
    (∀ c ∈ bankabilityChecks b, Evaluates c.1) ↔ b.Judged := by
  simp only [bankabilityChecks, List.forall_mem_cons, evaluates_pyLt, evaluates_bandsAscend,
    evaluates_pyAll]
  have hweights : EachUntil (fun v => isAtLeast 0 v = .ok false)
      (fun v => Evaluates (isAtLeast 0 v)) b.weights ↔
      EachUntil (fun v => isAtLeast 0 v = .ok false) IsNumber b.weights :=
    EachUntil.congr (fun _ => evaluates_isAtLeast) fun _ _ => Iff.rfl
  rw [hweights]
  constructor
  · rintro ⟨htiers, hweights, hbands, -⟩
    exact ⟨htiers, hweights, hbands⟩
  · rintro ⟨htiers, hweights, hbands⟩
    exact ⟨htiers, hweights, hbands, nofun⟩

theorem evaluates_watchdogChecks {w : WatchdogTuning} :
    (∀ c ∈ watchdogChecks w, Evaluates c.1) ↔ w.Judged := by
  simp only [watchdogChecks, List.forall_mem_cons, evaluates_map, evaluates_pyLen, evaluates_pyAnd,
    evaluates_scan (fun _ => evaluates_stdDevPositive), evaluates_sumsToOne, evaluates_sameLength,
    evaluates_scan (fun _ => evaluates_sumsToOne), evaluates_isBetween, evaluates_isAtLeast,
    evaluates_scan (fun _ => evaluates_sameLength)]
  constructor
  · rintro ⟨hsized, hstates, ⟨hpi, -⟩, ⟨-, hsquare⟩, ⟨rows, hrows, hsums⟩, hdup, hmin, -⟩
    refine ⟨hstates, hpi, ⟨rows, hrows, fun hlen => ?_, hsums⟩, by simpa using ⟨hdup, hmin⟩⟩
    obtain ⟨rows', hrows', hsquare⟩ := hsquare hlen
    rw [hrows] at hrows'
    rw [Option.some.inj hrows']
    exact (EachUntil.congr (fun _ => and_iff_left hsized) fun _ _ => Iff.rfl).mp hsquare
  · rintro ⟨hstates, hpi, ⟨rows, hrows, hsquare, hsums⟩, hnumbers⟩
    have hsized : IsSized w.emissionParams := by
      obtain ⟨states, hitems, -⟩ := hstates
      rw [IsSized, hitems]
      rfl
    have hpisized : IsSized w.initialPi := by
      obtain ⟨items, hitems, -⟩ := hpi
      rw [IsSized, hitems]
      rfl
    have hrowssized : IsSized w.transition := by
      rw [IsSized, hrows]
      rfl
    refine ⟨hsized, hstates, ⟨hpi, fun _ => ⟨hpisized, hsized⟩⟩, ⟨⟨hrowssized, hsized⟩, ?_⟩,
      ⟨rows, hrows, hsums⟩, hnumbers _ (by simp), hnumbers _ (by simp), List.forall_mem_nil _⟩
    intro hlen
    refine ⟨rows, hrows, ?_⟩
    exact (EachUntil.congr (fun _ => and_iff_left hsized) fun _ _ => Iff.rfl).mpr (hsquare hlen)

end

theorem evaluates_hasOther {v : PyValue} : Evaluates (hasOther v) ↔ IsSized v := by
  cases v <;> simp [hasOther, pyIter, items?, IsSized, orTypeError, Except.map]

theorem evaluates_receiptChecks [Text.Unicode] {rc : ReceiptTuning} :
    (∀ c ∈ receiptChecks rc, Evaluates c.1) ↔ rc.Judged := by
  simp only [receiptChecks, List.forall_mem_cons, evaluates_map, evaluates_pyLen,
    evaluates_isBetween, evaluates_hasOther]
  constructor
  · rintro ⟨hsized, -, -, hconfidence, -⟩
    exact ⟨hsized, hconfidence⟩
  · rintro ⟨hsized, hconfidence⟩
    refine ⟨hsized, hsized, ?_, hconfidence, List.forall_mem_nil _⟩
    simpa [pyIter, IsSized] using hsized

/-! The defaults pass. -/

theorem defaults_pass : reportProblems (reconcilerChecks {}) = .ok [] ∧
    reportProblems (watchdogChecks {}) = .ok [] ∧ reportProblems (auditorChecks {}) = .ok [] ∧
    reportProblems (bankabilityChecks {}) = .ok [] ∧
    reportProblems (classifierChecks {}) = .ok [] := by
  decide +kernel

theorem receipt_default [Text.Unicode] [Text.Format] [Text.LawfulText] :
    reportProblems (receiptChecks {}) = .ok [] := by
  have hlower : ∀ s, Text.isAscii s → Text.Unicode.lower s = Text.asciiLower s :=
    Text.LawfulText.lower_ascii
  have hcategories : ∀ s ∈ ["supplies", "services", "utilities", "travel", "other"],
      isCategory (.text s) = true := by
    have hplain : ∀ s ∈ ["supplies", "services", "utilities", "travel", "other"],
        Text.isAscii s ∧ s = Text.asciiLower s ∧ s ≠ "" := by
      decide +kernel
    intro s hs
    obtain ⟨hascii, hsame, hne⟩ := hplain s hs
    simp only [isCategory, decide_eq_true_eq]
    exact ⟨(hlower s hascii).symm ▸ hsame, hne⟩
  refine reportProblems_of_true ?_
  simp only [receiptChecks, List.forall_mem_cons]
  refine ⟨rfl, by decide +kernel, ?_, by decide +kernel, nofun⟩
  refine congrArg Except.ok ?_
  simpa using hcategories

end Tuning

end Finguard
