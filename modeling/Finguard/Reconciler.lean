import Finguard.Model
import Finguard.Lib.Buckets
import Finguard.Lib.Scan
import Finguard.Lib.Text

/-! The two passes that match settlements with open invoices. A float is the number that it
stands for. -/

namespace Finguard
open Text

structure ReconcilerTuning where
  txnBatch : ℕ := 100
  invLimit : ℕ := 500
  fuzzyThreshold : ℚ := 65
  semanticThreshold : ℚ := 3 / 5
  fuzzyMatchBoundary : ℚ := 9 / 10
  amountToleranceKes : ℚ := 1
  dateWindowDays : ℤ := 2
  pass2CandidateCap : ℕ := 50

/-- A date as the database or a caller hands it over. -/
inductive DateValue where
  | stamp (t : DateTime)
  | day (number : ℤ)
  | text (s : String)
deriving DecidableEq

def microsPerDay : ℤ := 86400000000

def DateValue.date? [Format] : DateValue → Option ℤ
  | stamp t => some (t / microsPerDay)
  | day number => some number
  | text s => (Format.fromisoformat s).map (· / microsPerDay)

/-- An M-Pesa transaction or a bank line. -/
structure FloatingSettlement where
  id : String
  amount : ℚ
  phone : String
  billRef : Option String
  createdAt : DateValue
deriving DecidableEq

structure OpenInvoice where
  id : String
  invoiceNumber : String
  balanceDue : ℚ
  dueDate : Option DateValue
deriving DecidableEq

/-! The helpers. -/

def amountMatch (tolerance paid due : ℚ) : Bool := |paid - due| ≤ tolerance

/-- Dates that cannot be read leave the decision to the other criteria. -/
def dateMatch [Format] (windowDays : ℤ) (txnDate : DateValue) (dueDate : Option DateValue) : Bool :=
  match dueDate with
  | none => true
  | some dueDate =>
    match txnDate.date?, dueDate.date? with
    | some t, some d => |t - d| ≤ windowDays
    | _, _ => true

def normalise [Unicode] (s : String) : String := strip (Unicode.lower s)

def refMatch [Unicode] (billRef : Option String) (invoiceNumber : String) : Bool :=
  match billRef with
  | none => false
  | some billRef =>
    if billRef = "" then false
    else
      let b := normalise billRef
      let i := normalise invoiceNumber
      isIn b i || isIn i b || (split b).any (fun token => 3 ≤ token.length && isIn token i)

/-! The first pass. -/

inductive MatchType where
  | exact
  | fuzzy
  | semantic
deriving DecidableEq

def MatchType.value : MatchType → String
  | exact => "exact"
  | fuzzy => "fuzzy"
  | semantic => "semantic"

inductive MatchSource where
  | mpesa
  | bank
deriving DecidableEq

def MatchSource.value : MatchSource → String
  | mpesa => "mpesa"
  | bank => "bank"

structure ReconciliationMatch where
  transactionId : String
  invoiceId : String
  matchType : MatchType
  matchScore : ℚ
  amount : ℚ
  newInvoiceStatus : InvoiceStatus
  source : MatchSource := .mpesa
deriving DecidableEq

/-- A match as its schema takes it. -/
def ReconciliationMatch.validate (m : ReconciliationMatch) :
    Except ServiceError ReconciliationMatch :=
  if 0 ≤ m.matchScore ∧ m.matchScore ≤ 1 ∧ 0 ≤ m.amount then .ok m
  else .error (.value "1 validation error for ReconciliationMatch")

/-- One cent short counts as the whole balance. -/
def predictedStatus (amount balanceDue : ℚ) : InvoiceStatus :=
  if balanceDue - 1 / 100 ≤ amount then .paid else .partiallyPaid

/-- What a pass has matched so far. -/
structure Matched where
  found : List ReconciliationMatch := []
  txnIds : Finset String := ∅
  invIds : Finset String := ∅
deriving DecidableEq

def Matched.add (matched : Matched) (m : ReconciliationMatch) : Matched where
  found := matched.found ++ [m]
  txnIds := insert m.transactionId matched.txnIds
  invIds := insert m.invoiceId matched.invIds

def Matched.record (matched : Matched) : Option ReconciliationMatch → Except ServiceError Matched
  | none => .ok matched
  | some m => do
    let m ← m.validate
    return matched.add m

def bucketInvoicesByAmount (invoices : List OpenInvoice) : Buckets.Index OpenInvoice :=
  Buckets.bucketed (fun inv => ⌊inv.balanceDue⌋) invoices

/-- The invoices whose balance may be near the amount, in the order of the scan. -/
def candidatesFor (tuning : ReconcilerTuning) (buckets : Buckets.Index OpenInvoice) (amount : ℚ) :
    List (ℕ × OpenInvoice) :=
  Buckets.near buckets (⌊amount - tuning.amountToleranceKes⌋ - 1)
    (⌊amount + tuning.amountToleranceKes⌋ + 1)

def exactPair (txn : FloatingSettlement) (inv : OpenInvoice) : ReconciliationMatch where
  transactionId := txn.id
  invoiceId := inv.id
  matchType := .exact
  matchScore := 1
  amount := txn.amount
  newInvoiceStatus := predictedStatus txn.amount inv.balanceDue

section
variable [Format] [Unicode]

def exactMatch (tuning : ReconcilerTuning) (txn : FloatingSettlement) (inv : OpenInvoice) : Bool :=
  amountMatch tuning.amountToleranceKes txn.amount inv.balanceDue &&
    dateMatch tuning.dateWindowDays txn.createdAt inv.dueDate &&
    refMatch txn.billRef inv.invoiceNumber

def Matched.takes (matched : Matched) (tuning : ReconcilerTuning) (txn : FloatingSettlement)
    (inv : OpenInvoice) : Bool :=
  decide (inv.id ∉ matched.invIds) && exactMatch tuning txn inv

def pass1Exact (tuning : ReconcilerTuning) (transactions : List FloatingSettlement)
    (invoices : List OpenInvoice) : Except ServiceError Matched :=
  let buckets := bucketInvoicesByAmount invoices
  transactions.foldlM (fun matched txn =>
    let candidates := candidatesFor tuning buckets txn.amount
    let first := (candidates.find? (fun pair => matched.takes tuning txn pair.2)).map Prod.snd
    matched.record (first.map (exactPair txn))) {}

/-- The nested loop over all the invoices, which the buckets replace. -/
def pass1Nested (tuning : ReconcilerTuning) (transactions : List FloatingSettlement)
    (invoices : List OpenInvoice) : Except ServiceError Matched :=
  transactions.foldlM (fun matched txn =>
    matched.record ((invoices.find? (matched.takes tuning txn)).map (exactPair txn))) {}

end

/-! The second pass. -/

structure FuzzyCandidate where
  transactionId : String
  invoiceId : String
  billRef : String
  invoiceNumber : String
  amountPaid : ℚ
  amountDue : ℚ
  phone : String
  rapidfuzzScore : ℚ

/-- A pair that the model has scored. -/
structure ReconciliationCandidate where
  transactionId : String
  invoiceId : String
  matchScore : ℚ
  matchReason : String
  score_nonneg : 0 ≤ matchScore
  score_le_one : matchScore ≤ 1

/-- The similarity of two texts, and the model's answer to a prompt, if it gives one. -/
structure Scorer where
  tokenSortRatio : String → String → ℚ
  scoreCandidates : List FuzzyCandidate → Option (List ReconciliationCandidate)

section
variable (tuning : ReconcilerTuning) (scorer : Scorer) (transactions : List FloatingSettlement)
  (invoices : List OpenInvoice)

def fuzzyCandidate? (txn : FloatingSettlement) (billRef : String) (inv : OpenInvoice) :
    Option FuzzyCandidate :=
  let score := scorer.tokenSortRatio billRef inv.invoiceNumber
  if tuning.fuzzyThreshold ≤ score then
    some ⟨txn.id, inv.id, billRef, inv.invoiceNumber, txn.amount, inv.balanceDue, txn.phone, score⟩
  else none

def buildFuzzyCandidates (matchedTxnIds matchedInvIds : Finset String) : List FuzzyCandidate :=
  (transactions.filter (·.id ∉ matchedTxnIds)).flatMap fun txn =>
    let billRef := strip (txn.billRef.getD "")
    if billRef = "" then []
    else (invoices.filter (·.id ∉ matchedInvIds)).filterMap
      (fuzzyCandidate? tuning scorer txn billRef)

/-- The last row with the identifier, as a dictionary keeps it. -/
def txnMap (id : String) : Option FloatingSettlement := transactions.reverse.find? (·.id = id)

def invMap (id : String) : Option OpenInvoice := invoices.reverse.find? (·.id = id)

def scoredPair (cand : ReconciliationCandidate) (txn : FloatingSettlement) (inv : OpenInvoice) :
    ReconciliationMatch where
  transactionId := cand.transactionId
  invoiceId := cand.invoiceId
  matchType := if tuning.fuzzyMatchBoundary ≤ cand.matchScore then .fuzzy else .semantic
  matchScore := cand.matchScore
  amount := txn.amount
  newInvoiceStatus := predictedStatus txn.amount inv.balanceDue

/-- What becomes of one answer of the model. Its pair is looked up among all the rows. -/
def Matched.judge (matched : Matched) (tuning : ReconcilerTuning)
    (transactions : List FloatingSettlement) (invoices : List OpenInvoice) (cand : ReconciliationCandidate) :
    Option ReconciliationMatch :=
  if cand.transactionId ∈ matched.txnIds ∨ cand.invoiceId ∈ matched.invIds then none
  else if cand.matchScore < tuning.semanticThreshold then none
  else match txnMap transactions cand.transactionId, invMap invoices cand.invoiceId with
    | some txn, some inv => some (scoredPair tuning cand txn inv)
    | _, _ => none

def sortedCandidates (scored : List ReconciliationCandidate) : List ReconciliationCandidate :=
  scored.insertionSort (fun a b => b.matchScore ≤ a.matchScore)

/-- A model that fails finds nothing. -/
def pass2Semantic (matchedTxnIds matchedInvIds : Finset String) :
    Except ServiceError (List ReconciliationMatch) :=
  let candidates := buildFuzzyCandidates tuning scorer transactions invoices matchedTxnIds matchedInvIds
  if candidates.isEmpty then .ok []
  else match scorer.scoreCandidates (candidates.take tuning.pass2CandidateCap) with
    | none => .ok []
    | some scored => do
      let matched ← (sortedCandidates scored).foldlM (fun (matched : Matched) cand =>
        matched.record (matched.judge tuning transactions invoices cand)) {}
      return matched.found

end

theorem floor_near {tolerance amount balance : ℚ} (h : amountMatch tolerance amount balance) :
    ⌊amount - tolerance⌋ - 1 ≤ ⌊balance⌋ ∧ ⌊balance⌋ ≤ ⌊amount + tolerance⌋ + 1 := by
  have habs : |amount - balance| ≤ tolerance := by simpa [amountMatch] using h
  obtain ⟨hlo, hhi⟩ := abs_le.mp habs
  have hbelow : ⌊amount - tolerance⌋ ≤ ⌊balance⌋ := Int.floor_le_floor (by linarith)
  have habove : ⌊balance⌋ ≤ ⌊amount + tolerance⌋ := Int.floor_le_floor (by linarith)
  omega

section
variable [Format] [Unicode] {tuning : ReconcilerTuning} {txn : FloatingSettlement}
  {inv : OpenInvoice} {matched : Matched}

theorem Matched.takes_amount (h : matched.takes tuning txn inv) :
    amountMatch tuning.amountToleranceKes txn.amount inv.balanceDue := by
  simp only [Matched.takes, exactMatch, Bool.and_eq_true] at h
  exact h.2.1.1

theorem find?_candidatesFor (invoices : List OpenInvoice) :
    ((candidatesFor tuning (bucketInvoicesByAmount invoices) txn.amount).find?
        (fun pair => matched.takes tuning txn pair.2)).map Prod.snd =
      invoices.find? (matched.takes tuning txn) :=
  Buckets.find?_near fun _ _ h => floor_near (Matched.takes_amount h)

/-- The bucketed matcher is the nested loop: the same matches in the same order, by the same
first choices. -/
theorem pass1_buckets_exact (tuning : ReconcilerTuning) (transactions : List FloatingSettlement)
    (invoices : List OpenInvoice) :
    pass1Exact tuning transactions invoices = pass1Nested tuning transactions invoices := by
  simp only [pass1Exact, pass1Nested, find?_candidatesFor]

/-! What a pass has recorded. -/

omit [Format] [Unicode] in
theorem match_validated {m m' : ReconciliationMatch} (h : m.validate = .ok m') :
    m' = m ∧ 0 ≤ m.amount := by
  simp only [ReconciliationMatch.validate] at h
  split at h
  · rename_i hvalid
    exact ⟨(Except.ok.inj h).symm, hvalid.2.2⟩
  · cases h

omit [Format] [Unicode] in
theorem record_eq_ok {matched' : Matched} {o : Option ReconciliationMatch}
    (h : matched.record o = .ok matched') :
    matched' = o.elim matched matched.add ∧ ∀ m ∈ o, 0 ≤ m.amount := by
  cases o with
  | none => exact ⟨(Except.ok.inj h).symm, by simp⟩
  | some m =>
    simp only [Matched.record, Scan.bind_eq_ok] at h
    obtain ⟨m', hvalid, hadd⟩ := h
    obtain ⟨rfl, hamount⟩ := match_validated hvalid
    exact ⟨(Except.ok.inj hadd).symm, by simpa using hamount⟩

omit [Format] [Unicode] in
theorem found_record {matched' : Matched} {o : Option ReconciliationMatch}
    (h : matched.record o = .ok matched') : matched'.found = matched.found ++ o.toList := by
  obtain ⟨rfl, -⟩ := record_eq_ok h
  cases o <;> simp [Matched.add]

/-- The sets hold the identifiers of the matches, and no invoice is matched twice. -/
structure Matched.Tracks (matched : Matched) : Prop where
  txnIds : matched.txnIds = (matched.found.map ReconciliationMatch.transactionId).toFinset
  invIds : matched.invIds = (matched.found.map ReconciliationMatch.invoiceId).toFinset
  invoices : (matched.found.map ReconciliationMatch.invoiceId).Nodup
  amounts : ∀ m ∈ matched.found, 0 ≤ m.amount

omit [Format] [Unicode] in
theorem Matched.tracks_empty : ({} : Matched).Tracks := ⟨rfl, rfl, List.nodup_nil, by simp⟩

omit [Format] [Unicode] in
theorem Matched.Tracks.record {matched' : Matched} {o : Option ReconciliationMatch}
    (h : matched.Tracks) (hnew : ∀ m ∈ o, m.invoiceId ∉ matched.invIds)
    (hrecord : matched.record o = .ok matched') : matched'.Tracks := by
  obtain ⟨rfl, hamount⟩ := record_eq_ok hrecord
  cases o with
  | none => exact h
  | some m =>
    have hfresh : m.invoiceId ∉ matched.found.map ReconciliationMatch.invoiceId := by
      have hm := hnew m rfl
      rwa [h.invIds, List.mem_toFinset] at hm
    refine ⟨?_, ?_, ?_, ?_⟩
    · simp only [Option.elim_some, Matched.add, h.txnIds, List.map_append, List.toFinset_append]
      ext id
      simp
    · simp only [Option.elim_some, Matched.add, h.invIds, List.map_append, List.toFinset_append]
      ext id
      simp
    · simp only [Option.elim_some, Matched.add, List.map_append, List.map_singleton]
      rw [List.nodup_append]
      refine ⟨h.invoices, List.nodup_singleton _, ?_⟩
      intro id hid id' hid'
      rintro rfl
      rw [List.mem_singleton.mp hid'] at hid
      exact hfresh hid
    · intro m' hm'
      simp only [Option.elim_some, Matched.add, List.mem_append, List.mem_singleton] at hm'
      rcases hm' with hm' | rfl
      · exact h.amounts m' hm'
      · exact hamount m' rfl

/-! The first pass. -/

section
variable {transactions : List FloatingSettlement} {invoices : List OpenInvoice}

/-- A transaction comes to the first pass, which has matched some before it. -/
def ComesTo (tuning : ReconcilerTuning) (invoices : List OpenInvoice)
    (transactions : List FloatingSettlement) (matched : Matched) (txn : FloatingSettlement) : Prop :=
  Scan.Visits (fun (matched : Matched) txn =>
    matched.record ((invoices.find? (matched.takes tuning txn)).map (exactPair txn))) {} transactions
    matched txn

theorem mem_pass1 {m : ReconciliationMatch}
    (h : pass1Exact tuning transactions invoices = .ok matched) :
    m ∈ matched.found ↔ ∃ before txn inv, ComesTo tuning invoices transactions before txn ∧
      invoices.find? (before.takes tuning txn) = some inv ∧ m = exactPair txn inv := by
  rw [pass1_buckets_exact] at h
  have hout := Scan.mem_out_iff Matched.found
    (fun s txn => ((invoices.find? (s.takes tuning txn)).map (exactPair txn)).toList)
    rfl (fun s txn s' hs => found_record hs) h (c := m)
  rw [hout]
  constructor
  · rintro ⟨before, txn, hcomes, hm⟩
    simp only [Option.mem_toList, Option.map_eq_some_iff] at hm
    obtain ⟨inv, hfind, rfl⟩ := hm
    exact ⟨before, txn, inv, hcomes, hfind, rfl⟩
  · rintro ⟨before, txn, inv, hcomes, hfind, rfl⟩
    exact ⟨before, txn, hcomes, by simp [hfind]⟩

theorem pass1_tracks (h : pass1Exact tuning transactions invoices = .ok matched) :
    matched.Tracks := by
  rw [pass1_buckets_exact] at h
  refine Scan.invariant (P := fun _ matched => matched.Tracks) Matched.tracks_empty ?_ h
  intro pre txn s s' hs hstep
  refine hs.record ?_ hstep
  intro m hm
  simp only [Option.mem_def, Option.map_eq_some_iff] at hm
  obtain ⟨inv, hfind, rfl⟩ := hm
  have htakes := List.find?_some hfind
  simp only [Matched.takes, Bool.and_eq_true, decide_eq_true_eq] at htakes
  exact htakes.1

theorem pass1_sublist (h : pass1Exact tuning transactions invoices = .ok matched) :
    (matched.found.map ReconciliationMatch.transactionId).Sublist
      (transactions.map FloatingSettlement.id) := by
  rw [pass1_buckets_exact] at h
  refine Scan.invariant (P := fun pre matched =>
    (matched.found.map ReconciliationMatch.transactionId).Sublist
      (pre.map FloatingSettlement.id)) (List.Sublist.refl _) ?_ h
  intro pre txn s s' hs hstep
  rw [found_record hstep, List.map_append, List.map_append]
  refine hs.append ?_
  cases invoices.find? (s.takes tuning txn) with
  | none => exact List.nil_sublist _
  | some inv => exact List.Sublist.refl _

end

end

/-! The second pass. -/

section
variable {tuning : ReconcilerTuning} {transactions : List FloatingSettlement}
  {invoices : List OpenInvoice} {matched : Matched} {cand : ReconciliationCandidate}

theorem judge_eq_some {m : ReconciliationMatch} :
    matched.judge tuning transactions invoices cand = some m ↔
      ∃ txn inv, cand.transactionId ∉ matched.txnIds ∧ cand.invoiceId ∉ matched.invIds ∧
        tuning.semanticThreshold ≤ cand.matchScore ∧
        txnMap transactions cand.transactionId = some txn ∧
        invMap invoices cand.invoiceId = some inv ∧ scoredPair tuning cand txn inv = m := by
  simp only [Matched.judge]
  by_cases hseen : cand.transactionId ∈ matched.txnIds ∨ cand.invoiceId ∈ matched.invIds
  · rw [if_pos hseen]
    constructor
    · intro h
      cases h
    · rintro ⟨txn, inv, htxn, hinv, -⟩
      exact absurd hseen (not_or.mpr ⟨htxn, hinv⟩)
  · obtain ⟨htxn, hinv⟩ := not_or.mp hseen
    rw [if_neg hseen]
    by_cases hscore : cand.matchScore < tuning.semanticThreshold
    · rw [if_pos hscore]
      constructor
      · intro h
        cases h
      · rintro ⟨txn, inv, -, -, hle, -⟩
        exact absurd hscore (not_lt.mpr hle)
    · rw [if_neg hscore]
      cases txnMap transactions cand.transactionId with
      | none => simp
      | some txn =>
        cases invMap invoices cand.invoiceId with
        | none => simp
        | some inv => simp [htxn, hinv, not_lt.mp hscore]

theorem judge_ids {m : ReconciliationMatch}
    (h : matched.judge tuning transactions invoices cand = some m) :
    m.transactionId = cand.transactionId ∧ m.invoiceId = cand.invoiceId := by
  obtain ⟨txn, inv, -, -, -, -, -, rfl⟩ := judge_eq_some.mp h
  exact ⟨rfl, rfl⟩

theorem txnMap_eq_some {id : String} {txn : FloatingSettlement}
    (h : txnMap transactions id = some txn) : txn ∈ transactions ∧ txn.id = id :=
  ⟨List.mem_reverse.mp (List.mem_of_find?_eq_some h), by simpa using List.find?_some h⟩

theorem invMap_eq_some {id : String} {inv : OpenInvoice} (h : invMap invoices id = some inv) :
    inv ∈ invoices ∧ inv.id = id :=
  ⟨List.mem_reverse.mp (List.mem_of_find?_eq_some h), by simpa using List.find?_some h⟩

/-- An answer of the model comes to the second pass, which has taken some of the better ones. -/
def IsJudged (tuning : ReconcilerTuning) (transactions : List FloatingSettlement)
    (invoices : List OpenInvoice) (scored : List ReconciliationCandidate) (matched : Matched)
    (cand : ReconciliationCandidate) : Prop :=
  Scan.Visits (fun (matched : Matched) cand =>
    matched.record (matched.judge tuning transactions invoices cand)) {} (sortedCandidates scored)
    matched cand

/-- The answers that the second pass goes through, if it asks the model and the model answers. -/
def answers (tuning : ReconcilerTuning) (scorer : Scorer) (transactions : List FloatingSettlement)
    (invoices : List OpenInvoice) (matchedTxnIds matchedInvIds : Finset String) :
    List ReconciliationCandidate :=
  let candidates := buildFuzzyCandidates tuning scorer transactions invoices matchedTxnIds matchedInvIds
  if candidates.isEmpty then []
  else (scorer.scoreCandidates (candidates.take tuning.pass2CandidateCap)).getD []

variable {scorer : Scorer} {matchedTxnIds matchedInvIds : Finset String}
  {found : List ReconciliationMatch}

theorem pass2_eq_ok
    (h : pass2Semantic tuning scorer transactions invoices matchedTxnIds matchedInvIds = .ok found) :
    ∃ matched : Matched, matched.found = found ∧
      (sortedCandidates (answers tuning scorer transactions invoices matchedTxnIds
        matchedInvIds)).foldlM (fun (matched : Matched) cand =>
          matched.record (matched.judge tuning transactions invoices cand)) {} = .ok matched := by
  simp only [pass2Semantic] at h
  simp only [answers]
  split at h
  · rename_i hempty
    rw [if_pos hempty]
    exact ⟨{}, Except.ok.inj h, rfl⟩
  · rename_i hempty
    rw [if_neg hempty]
    split at h
    · rename_i hfails
      rw [hfails]
      exact ⟨{}, Except.ok.inj h, rfl⟩
    · rename_i scored hscored
      obtain ⟨matched, hfold, hfound⟩ := Scan.bind_eq_ok.mp h
      rw [hscored]
      exact ⟨matched, Except.ok.inj hfound, hfold⟩

theorem mem_pass2 {m : ReconciliationMatch}
    (h : pass2Semantic tuning scorer transactions invoices matchedTxnIds matchedInvIds = .ok found) :
    m ∈ found ↔ ∃ before cand,
      IsJudged tuning transactions invoices
        (answers tuning scorer transactions invoices matchedTxnIds matchedInvIds) before cand ∧
      before.judge tuning transactions invoices cand = some m := by
  obtain ⟨matched, rfl, hfold⟩ := pass2_eq_ok h
  have hout := Scan.mem_out_iff Matched.found
    (fun (s : Matched) cand => (s.judge tuning transactions invoices cand).toList)
    rfl (fun s cand s' hs => found_record hs) hfold (c := m)
  simp only [Option.mem_toList] at hout
  exact hout

theorem pass2_nodup
    (h : pass2Semantic tuning scorer transactions invoices matchedTxnIds matchedInvIds = .ok found) :
    (found.map ReconciliationMatch.transactionId).Nodup ∧
      (found.map ReconciliationMatch.invoiceId).Nodup := by
  obtain ⟨matched, rfl, hfold⟩ := pass2_eq_ok h
  have htracks : matched.Tracks ∧ (matched.found.map ReconciliationMatch.transactionId).Nodup := by
    refine Scan.invariant (P := fun _ (matched : Matched) =>
      matched.Tracks ∧ (matched.found.map ReconciliationMatch.transactionId).Nodup)
      ⟨Matched.tracks_empty, List.nodup_nil⟩ ?_ hfold
    intro pre cand s s' hs hstep
    obtain ⟨htracks, hnodup⟩ := hs
    have hfresh : ∀ m ∈ s.judge tuning transactions invoices cand,
        m.transactionId ∉ s.txnIds ∧ m.invoiceId ∉ s.invIds := by
      intro m hm
      obtain ⟨htxn, hinv⟩ := judge_ids hm
      obtain ⟨_, _, hntxn, hninv, -⟩ := judge_eq_some.mp hm
      rw [htxn, hinv]
      exact ⟨hntxn, hninv⟩
    refine ⟨htracks.record (fun m hm => (hfresh m hm).2) hstep, ?_⟩
    rw [found_record hstep, List.map_append, List.nodup_append]
    refine ⟨hnodup, ?_, ?_⟩
    · cases s.judge tuning transactions invoices cand <;> simp
    · intro id hid id' hid'
      rintro rfl
      obtain ⟨m, hm, rfl⟩ := List.mem_map.mp hid'
      have hnot := (hfresh m (Option.mem_toList.mp hm)).1
      rw [htracks.txnIds, List.mem_toFinset] at hnot
      exact hnot hid
  exact ⟨htracks.2, htracks.1.invoices⟩

theorem mem_buildFuzzyCandidates {c : FuzzyCandidate}
    (h : c ∈ buildFuzzyCandidates tuning scorer transactions invoices matchedTxnIds matchedInvIds) :
    ∃ txn ∈ transactions, ∃ inv ∈ invoices, txn.id ∉ matchedTxnIds ∧ inv.id ∉ matchedInvIds ∧
      strip (txn.billRef.getD "") ≠ "" ∧ c.transactionId = txn.id ∧ c.invoiceId = inv.id := by
  simp only [buildFuzzyCandidates, List.mem_flatMap, List.mem_filter, decide_eq_true_eq] at h
  obtain ⟨txn, ⟨htxn, hntxn⟩, h⟩ := h
  split at h
  · cases h
  · rename_i hblank
    obtain ⟨inv, hinv, hc⟩ := List.mem_filterMap.mp h
    simp only [List.mem_filter, decide_eq_true_eq] at hinv
    simp only [fuzzyCandidate?] at hc
    split at hc
    · obtain rfl := Option.some.inj hc
      exact ⟨txn, htxn, inv, hinv.1, hntxn, hinv.2, hblank, rfl, rfl⟩
    · cases hc

end

end Finguard
