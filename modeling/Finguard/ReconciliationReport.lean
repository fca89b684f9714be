import Finguard.BlankReference
import Finguard.InvoiceReadModel
import Finguard.Reconciliation

/-! What the report of a run says: which rows its matches name, what its counts add up to and which
of its settlements were made. -/

namespace Finguard
open Decimal Text Transaction Transaction.Tx

/-! The payments of a run. -/

/-- A payment records the settlement of a match. -/
def Pays [Format] (source : MatchSource) (payment : Payment) (m : ReconciliationMatch) : Prop :=
  (payment.backedBy source).map Format.identifier = some m.transactionId ∧
    Format.identifier payment.invoiceId = m.invoiceId

section
variable [Context] [Format]

theorem applyReconciledPayment_eq_none {data : ReconciledPayment} {invoice : Invoice}
    {faults : Faults Site ServiceError} {db db' : Db} {r : Option Uuid}
    (hget : db.getInvoice data.invoiceId = some invoice)
    (h : applyReconciledPayment data faults db = .ok r db') :
    r = none ↔ min data.amount invoice.balanceDue.val ≤ 0 := by
  simp only [applyReconciledPayment, bind_eq_ok, select_eq_ok, getOrRaise_eq_ok] at h
  obtain ⟨_, _, ⟨-, rfl, rfl⟩, invoice', _, ⟨hget', rfl⟩, h⟩ := h
  obtain rfl : invoice = invoice' := Option.some.inj (hget.symm.trans hget')
  split at h
  · rename_i hle
    simp only [pure_apply, Outcome.ok.injEq] at h
    simp [← h.1, hle]
  · rename_i hgt
    simp only [bind_eq_ok, pure_apply, Outcome.ok.injEq] at h
    obtain ⟨_, _, -, rfl, -⟩ := h
    simp [hgt]

theorem getInvoice_posted {l l' : InvoiceLedger} {invoice : Invoice} {event : InvoiceEvent Money}
    {payment : Option Payment} (h : Posts l l' invoice event payment) (id : Uuid)
    (hid : id ≠ event.invoiceId) : l'.getInvoice id = l.getInvoice id := by
  obtain ⟨-, -, -, -, ⟨log, state, -, hprojected⟩, -⟩ := h
  refine Table.find?_of_update?_neg hprojected.row ?_ ?_
  · intro a a' ha
    rw [(Invoice.project?_eq_some ha).2.2.2.1]
  · intro a ha
    rw [beq_iff_eq] at ha
    simpa [ha] using hid

/-- One settlement on an open invoice: a payment of its own when there is an amount to apply, and no
other invoice moves. -/
theorem applyReconciledPayment_pays {data : ReconciledPayment} {invoice : Invoice}
    {faults : Faults Site ServiceError} {db db' : Db} {r : Option Uuid}
    (hget : db.getInvoice data.invoiceId = some invoice) (hopen : 0 < invoice.balanceDue.val)
    (h : applyReconciledPayment data faults db = .ok r db') :
    (∀ id, id ≠ data.invoiceId → db'.getInvoice id = db.getInvoice id) ∧
      ((data.amount ≤ 0 ∧ db'.payments.rows = db.payments.rows) ∨
        (0 < data.amount ∧ ∃ payment, db'.payments.rows = db.payments.rows ++ [payment] ∧
          payment.mpesaTransId = data.mpesaTransId ∧ payment.bankLineId = data.bankLineId ∧
          payment.invoiceId = data.invoiceId)) := by
  have hnone := applyReconciledPayment_eq_none hget h
  rw [min_le_iff, or_iff_left (not_le.mpr hopen)] at hnone
  obtain ⟨invoice', -, ⟨hr, rfl⟩ | ⟨hr, l', event, payment, _, _, hposts, hid, -, hmpesa, hbank,
    rfl⟩⟩ := applyReconciledPayment_eq_ok h
  · exact ⟨fun _ _ => rfl, .inl ⟨hnone.mp hr, rfl⟩⟩
  · have hpositive : 0 < data.amount := by
      by_contra hle
      rw [hnone.mpr (not_lt.mp hle)] at hr
      cases hr
    refine ⟨fun id hne => ?_, .inr ⟨hpositive, payment, ?_, hmpesa, hbank, ?_⟩⟩
    · have hframe := getInvoice_posted hposts id (by rwa [hid])
      simpa using hframe
    · have hinsert := hposts.2.2.2.payments
      have hrows := Table.rows_of_insert hinsert
      simpa using hrows
    · rw [hposts.2.2.1.2.2, hid]

/-- A match of a run names rows by their identifiers. -/
structure Named (source : MatchSource) (m : ReconciliationMatch) (t i : Uuid) : Prop where
  source_eq : m.source = source
  transactionId : m.transactionId = Format.identifier t
  invoiceId : m.invoiceId = Format.identifier i

variable {source : MatchSource} {m : ReconciliationMatch} {t i : Uuid}

omit [Context] [Format] in
theorem backedBy_payment {txnDates : List (String × DateTime)} {now : DateTime} {paymentId : Uuid}
    {payment : Payment} (hsource : m.source = source)
    (hmpesa : payment.mpesaTransId =
      ((m.confirmed txnDates now).payment i t paymentId).mpesaTransId)
    (hbank : payment.bankLineId = ((m.confirmed txnDates now).payment i t paymentId).bankLineId) :
    payment.backedBy source = some t := by
  cases source with
  | mpesa =>
    rw [Payment.backedBy, hmpesa]
    simp [ConfirmedMatch.payment, ReconciliationMatch.confirmed, hsource, MatchSource.vault]
  | bank =>
    rw [Payment.backedBy, hbank]
    simp [ConfirmedMatch.payment, ReconciliationMatch.confirmed, hsource, MatchSource.vault]

theorem applyConfirmedMatch_pays {txnDates : List (String × DateTime)} {now : DateTime}
    {paymentId : Uuid} {invoice : Invoice} {faults : Faults Site ServiceError} {db db' : Db}
    {r : Option Uuid} (hnamed : Named source m t i) (hget : db.getInvoice i = some invoice)
    (hopen : 0 < invoice.balanceDue.val)
    (h : applyConfirmedMatch (m.confirmed txnDates now) paymentId faults db = .ok r db') :
    (∀ id, id ≠ i → db'.getInvoice id = db.getInvoice id) ∧
      ((m.amount ≤ 0 ∧ db'.payments.rows = db.payments.rows) ∨
        (0 < m.amount ∧ ∃ payment, db'.payments.rows = db.payments.rows ++ [payment] ∧
          Pays source payment m)) := by
  have htxn : Format.ofIdentifier (m.confirmed txnDates now).transactionId = some t := by
    rw [ReconciliationMatch.confirmed, hnamed.transactionId, Format.ofIdentifier_identifier]
  have hinv : Format.ofIdentifier (m.confirmed txnDates now).invoiceId = some i := by
    rw [ReconciliationMatch.confirmed, hnamed.invoiceId, Format.ofIdentifier_identifier]
  simp only [applyConfirmedMatch, bind_eq_ok, getOrRaise_eq_ok, htxn, hinv] at h
  obtain ⟨_, _, ⟨hi, rfl⟩, h⟩ := h
  obtain rfl := Option.some.inj hi
  obtain ⟨hframe, hcases⟩ := applyReconciledPayment_pays hget hopen h
  refine ⟨hframe, ?_⟩
  rcases hcases with ⟨hle, hrows⟩ | ⟨hpos, payment, hrows, hmpesa, hbank, hid⟩
  · exact .inl ⟨hle, hrows⟩
  · refine .inr ⟨hpos, payment, hrows, ?_, ?_⟩
    · rw [backedBy_payment hnamed.source_eq hmpesa hbank, Option.map_some, hnamed.transactionId]
    · rw [hid, hnamed.invoiceId]
      rfl

variable {env : ReconciliationEnv} {txnDates : List (String × DateTime)} {index : ℕ}
  {settled settled' : Settled} {ms : List ReconciliationMatch} {faults : Faults Site ServiceError}
  {db db' : Db}

theorem applyExactMatches_settled
    (h : applyExactMatches env txnDates index settled ms faults db = .ok settled' db') :
    settled'.applied = settled.applied ++ ms.filter env.requireTaskVc ∧
      settled'.matchedTxnIds = settled.matchedTxnIds \
        ((ms.filter (!env.requireTaskVc ·)).map ReconciliationMatch.transactionId).toFinset := by
  induction ms generalizing index settled db with
  | nil =>
    simp only [applyExactMatches, pure_apply, Outcome.ok.injEq] at h
    simp [← h.1]
  | cons m ms ih =>
    simp only [applyExactMatches] at h
    by_cases hvc : env.requireTaskVc m = true
    · rw [if_pos hvc, bind_eq_ok] at h
      obtain ⟨_, db₁, -, h⟩ := h
      obtain ⟨happlied, hids⟩ := ih h
      simp [happlied, hids, hvc]
    · rw [if_neg hvc] at h
      obtain ⟨happlied, hids⟩ := ih h
      refine ⟨by simp [happlied, hvc], ?_⟩
      rw [hids]
      ext id
      simp [hvc]
      tauto

theorem applyExactMatches_pays (hnamed : ∀ m ∈ ms, ∃ t i, Named source m t i ∧
      ∃ invoice, db.getInvoice i = some invoice ∧ 0 < invoice.balanceDue.val)
    (hinv : (ms.map ReconciliationMatch.invoiceId).Nodup)
    (h : applyExactMatches env txnDates index settled ms faults db = .ok settled' db') :
    ∃ news, db'.payments.rows = db.payments.rows ++ news ∧
      (∀ payment ∈ news, ∃ m ∈ ms, 0 < m.amount ∧ Pays source payment m) ∧
      ∀ m ∈ ms, env.requireTaskVc m → 0 < m.amount → ∃ payment ∈ news, Pays source payment m := by
  induction ms generalizing index settled db with
  | nil =>
    simp only [applyExactMatches, pure_apply, Outcome.ok.injEq] at h
    exact ⟨[], by simp [h.2], by simp, by simp⟩
  | cons m ms ih =>
    rw [List.map_cons, List.nodup_cons] at hinv
    obtain ⟨hfirst, hinv⟩ := hinv
    obtain ⟨t, i, hm, invoice, hget, hopen⟩ := hnamed m List.mem_cons_self
    simp only [applyExactMatches] at h
    by_cases hvc : env.requireTaskVc m = true
    · rw [if_pos hvc, bind_eq_ok] at h
      obtain ⟨r, db₁, hone, h⟩ := h
      rw [within_apply] at hone
      obtain ⟨hframe, hcases⟩ := applyConfirmedMatch_pays hm hget hopen hone
      have hrest : ∀ m' ∈ ms, ∃ t i, Named source m' t i ∧
          ∃ invoice, db₁.getInvoice i = some invoice ∧ 0 < invoice.balanceDue.val := by
        intro m' hm'
        obtain ⟨t', i', hnamed', invoice', hget', hopen'⟩ := hnamed m' (List.mem_cons_of_mem _ hm')
        refine ⟨t', i', hnamed', invoice', ?_, hopen'⟩
        rw [hframe i' ?_, hget']
        rintro rfl
        exact hfirst (List.mem_map.mpr ⟨m', hm', hnamed'.invoiceId.trans hm.invoiceId.symm⟩)
      obtain ⟨news, hrows, hnews, hpaid⟩ := ih hrest hinv h
      rcases hcases with ⟨hle, hsame⟩ | ⟨hpos, payment, hadded, hpays⟩
      · refine ⟨news, by rw [hrows, hsame], ?_, ?_⟩
        · intro payment hpayment
          obtain ⟨m', hm', hrest'⟩ := hnews payment hpayment
          exact ⟨m', List.mem_cons_of_mem _ hm', hrest'⟩
        · intro m' hm' hvc' hpos'
          rcases List.mem_cons.mp hm' with rfl | hm'
          · exact absurd hpos' (not_lt.mpr hle)
          · exact hpaid m' hm' hvc' hpos'
      · refine ⟨payment :: news, by simp [hrows, hadded], ?_, ?_⟩
        · intro payment' hpayment'
          rcases List.mem_cons.mp hpayment' with rfl | hpayment'
          · exact ⟨m, List.mem_cons_self, hpos, hpays⟩
          · obtain ⟨m', hm', hrest'⟩ := hnews payment' hpayment'
            exact ⟨m', List.mem_cons_of_mem _ hm', hrest'⟩
        · intro m' hm' hvc' hpos'
          rcases List.mem_cons.mp hm' with rfl | hm'
          · exact ⟨payment, List.mem_cons_self, hpays⟩
          · obtain ⟨payment', hpayment', hpays'⟩ := hpaid m' hm' hvc' hpos'
            exact ⟨payment', List.mem_cons_of_mem _ hpayment', hpays'⟩
    · rw [if_neg hvc] at h
      obtain ⟨news, hrows, hnews, hpaid⟩ :=
        ih (fun m' hm' => hnamed m' (List.mem_cons_of_mem _ hm')) hinv h
      refine ⟨news, hrows, ?_, ?_⟩
      · intro payment hpayment
        obtain ⟨m', hm', hrest'⟩ := hnews payment hpayment
        exact ⟨m', List.mem_cons_of_mem _ hm', hrest'⟩
      · intro m' hm' hvc' hpos'
        rcases List.mem_cons.mp hm' with rfl | hm'
        · exact absurd hvc' hvc
        · exact hpaid m' hm' hvc' hpos'

end

/-! The rows of a run. -/

section
variable [Format] {source : MatchSource} {env : ReconciliationEnv} {db : Db}

/-- A selection of the rows of a table, in some order, has no identifier twice. -/
theorem nodup_selection {ρ : Type} [Row ρ] (t : Table ρ) (id : ρ → Uuid) {p q : ρ → Bool}
    {r : ρ → ρ → Prop} [DecidableRel r] {n : ℕ} (hclash : ∀ a b : ρ, id a = id b → Row.clash a b) :
    (((((t.filter p).insertionSort r).filter q).take n).map
      (fun row => Format.identifier (id row))).Nodup := by
  have hrows : (t.rows.map (fun row => Format.identifier (id row))).Nodup := by
    rw [List.Nodup, List.pairwise_map]
    refine t.unique.imp fun {a b} hab hid => hab (hclash a b ?_)
    exact Format.identifier_injective hid
  have hfilter : ((t.filter p).map (fun row => Format.identifier (id row))).Nodup :=
    hrows.sublist (List.filter_sublist.map _)
  have hsort : (((t.filter p).insertionSort r).map (fun row => Format.identifier (id row))).Nodup :=
    ((List.perm_insertionSort r (t.filter p)).map _).nodup_iff.mpr hfilter
  exact hsort.sublist (((List.take_sublist _ _).trans List.filter_sublist).map _)

theorem nodup_lockTransactions (db : Db) (env : ReconciliationEnv) (source : MatchSource) :
    (((db.lockTransactions env source).map Prod.fst).map FloatingSettlement.id).Nodup := by
  rw [List.map_map]
  cases source with
  | mpesa =>
    rw [Db.lockTransactions, List.map_map]
    refine nodup_selection db.mpesaTransactions MpesaTransaction.id fun a b hid => ?_
    simp [Row.clash, hid]
  | bank =>
    rw [Db.lockTransactions, List.map_map]
    refine nodup_selection db.bankStatementLines BankStatementLine.id fun a b hid => ?_
    simp [Row.clash, hid]

theorem mem_lockTransactions {txn : FloatingSettlement}
    (h : txn ∈ (db.lockTransactions env source).map Prod.fst) :
    ∃ (t : Uuid) (amount : SettledAmount), txn.id = Format.identifier t ∧ txn.amount = amount.val := by
  obtain ⟨row, hrow, rfl⟩ := List.mem_map.mp h
  cases source with
  | mpesa =>
    obtain ⟨t, -, rfl⟩ := List.mem_map.mp hrow
    exact ⟨t.id, t.amount, rfl, rfl⟩
  | bank =>
    obtain ⟨line, -, rfl⟩ := List.mem_map.mp hrow
    exact ⟨line.id, line.amount, rfl, rfl⟩

theorem mem_lockOpenInvoices {inv : OpenInvoice} (h : inv ∈ db.lockOpenInvoices env) :
    ∃ invoice, db.getInvoice invoice.id = some invoice ∧ inv = invoice.toOpen ∧
      invoice.isOpen = true := by
  obtain ⟨invoice, hinvoice, rfl⟩ := List.mem_map.mp h
  have hsorted := (List.mem_filter.mp (List.mem_of_mem_take hinvoice)).1
  have hfilter := (List.perm_insertionSort _ _).mem_iff.mp hsorted
  obtain ⟨hmem, hopen⟩ := List.mem_filter.mp hfilter
  exact ⟨invoice, getInvoice_eq_some.mpr ⟨hmem, rfl⟩, rfl, hopen⟩

end

/-! The passes of a run. -/

section
variable [Format] [Unicode] {tuning : ReconcilerTuning} {scorer : Scorer} {source : MatchSource}
  {transactions : List FloatingSettlement} {invoices : List OpenInvoice} {passes : MatchedBatch}

theorem pass1Exact_nil_invoices (transactions : List FloatingSettlement) :
    pass1Exact tuning transactions [] = .ok {} := by
  rw [pass1_buckets_exact, pass1Nested]
  induction transactions with
  | nil => rfl
  | cons txn rest ih =>
    rw [List.foldlM_cons]
    exact ih

omit [Format] [Unicode] in
theorem buildFuzzyCandidates_nil_invoices (txnIds invIds : Finset String) :
    buildFuzzyCandidates tuning scorer transactions [] txnIds invIds = [] := by
  rw [buildFuzzyCandidates, List.flatMap_eq_nil_iff]
  intro txn _
  simp only
  split <;> rfl

theorem runPasses_eq_ok (h : runPasses tuning scorer source transactions invoices = .ok passes) :
    ∃ pass1 found, pass1Exact tuning transactions invoices = .ok pass1 ∧
      pass2Semantic tuning scorer transactions invoices pass1.txnIds pass1.invIds = .ok found ∧
      passes.exactMatches = pass1.found.map (·.tagged source) ∧
      passes.semanticMatches = found.map (·.tagged source) ∧
      passes.matchedTxnIds =
        pass1.txnIds ∪ (found.map ReconciliationMatch.transactionId).toFinset := by
  simp only [runPasses] at h
  split at h
  · rename_i hempty
    obtain rfl := Except.ok.inj h
    have hpass1 : pass1Exact tuning transactions invoices = .ok {} := by
      rcases Bool.or_eq_true_iff.mp hempty with hnil | hnil
      · rw [List.isEmpty_iff.mp hnil]
        rfl
      · rw [List.isEmpty_iff.mp hnil]
        exact pass1Exact_nil_invoices transactions
    have hcandidates : buildFuzzyCandidates tuning scorer transactions invoices ∅ ∅ = [] := by
      rcases Bool.or_eq_true_iff.mp hempty with hnil | hnil
      · rw [List.isEmpty_iff.mp hnil]
        rfl
      · rw [List.isEmpty_iff.mp hnil]
        exact buildFuzzyCandidates_nil_invoices ∅ ∅
    refine ⟨{}, [], hpass1, ?_, rfl, rfl, rfl⟩
    simp [pass2Semantic, hcandidates]
  · simp only [Scan.bind_eq_ok] at h
    obtain ⟨pass1, hpass1, found, hpass2, hpasses⟩ := h
    obtain rfl := Except.ok.inj hpasses
    exact ⟨pass1, found, hpass1, hpass2, rfl, rfl, rfl⟩

theorem pass1_exact_type {pass1 : Matched} (h : pass1Exact tuning transactions invoices = .ok pass1)
    {m : ReconciliationMatch} (hm : m ∈ pass1.found) : m.matchType = .exact := by
  obtain ⟨_, _, _, -, -, rfl⟩ := (mem_pass1 h).mp hm
  rfl

omit [Format] [Unicode] in
theorem pass2_exact_type {txnIds invIds : Finset String} {found : List ReconciliationMatch}
    (h : pass2Semantic tuning scorer transactions invoices txnIds invIds = .ok found)
    {m : ReconciliationMatch} (hm : m ∈ found) : m.matchType ≠ .exact := by
  obtain ⟨before, cand, -, hjudge⟩ := (mem_pass2 h).mp hm
  obtain ⟨_, _, -, -, -, -, -, rfl⟩ := judge_eq_some.mp hjudge
  simp only [scoredPair]
  split <;> decide

end

/-! The report. -/

section
variable [Context] [Format] [Unicode]

/-- What a report claims of its run. `pass1` is what the first pass has matched. -/
structure ReportSound (source : MatchSource) (env : ReconciliationEnv) (pass1 : Matched) (db : Db)
    (result : ReconciliationResult) (db' : Db) : Prop where
  fresh : ∀ m ∈ result.semanticMatches, ∀ e ∈ pass1.found,
    m.transactionId ≠ e.transactionId ∧ m.invoiceId ≠ e.invoiceId
  candidate : ∀ m ∈ result.semanticMatches, ∃ c ∈ buildFuzzyCandidates env.tuning env.scorer
    ((db.lockTransactions env source).map Prod.fst) (db.lockOpenInvoices env) pass1.txnIds
    pass1.invIds, c.transactionId = m.transactionId ∧ c.invoiceId = m.invoiceId
  onceTxn : (result.report.allMatches.map ReconciliationMatch.transactionId).Nodup
  onceInv : (result.report.allMatches.map ReconciliationMatch.invoiceId).Nodup
  counts : (result.report.matchedExact : ℤ) + result.report.matchedFuzzy + result.report.unmatched =
    result.report.totalTransactions
  applied : ∀ m ∈ result.report.allMatches, m.matchType = .exact →
    ∃ payment ∈ db'.payments.rows, payment ∉ db.payments.rows ∧ Pays source payment m

/-- The model names a pair that would be taken only if it is one that it was asked about, and the
first pass takes no settlement without an amount that would then be reported. -/
structure Confined (source : MatchSource) (env : ReconciliationEnv) (pass1 : Matched) (db : Db) :
    Prop where
  answers : ∀ before cand, IsJudged env.tuning ((db.lockTransactions env source).map Prod.fst)
      (db.lockOpenInvoices env) (answers env.tuning env.scorer
        ((db.lockTransactions env source).map Prod.fst) (db.lockOpenInvoices env) pass1.txnIds
        pass1.invIds) before cand →
    (∃ txn ∈ (db.lockTransactions env source).map Prod.fst, txn.id = cand.transactionId) →
    Takes env.tuning (db.lockOpenInvoices env) before cand →
    ∃ c ∈ buildFuzzyCandidates env.tuning env.scorer
      ((db.lockTransactions env source).map Prod.fst) (db.lockOpenInvoices env) pass1.txnIds
      pass1.invIds, c.transactionId = cand.transactionId ∧ c.invoiceId = cand.invoiceId
  amounts : ∀ before txn inv, ComesTo env.tuning (db.lockOpenInvoices env)
      ((db.lockTransactions env source).map Prod.fst) before txn →
    (db.lockOpenInvoices env).find? (before.takes env.tuning txn) = some inv →
    env.requireTaskVc ((exactPair txn inv).tagged source) → 0 < txn.amount

variable {source : MatchSource} {env : ReconciliationEnv} {pass1 : Matched} {db db' : Db}
  {faults : Faults Site ServiceError} {result : ReconciliationResult}

theorem reconcile_eq_ok (h : reconcile source env faults db = .ok result db') :
    ∃ passes settled, runPasses env.tuning env.scorer source
        ((db.lockTransactions env source).map Prod.fst) (db.lockOpenInvoices env) = .ok passes ∧
      applyExactMatches env ((db.lockTransactions env source).map fun row => (row.1.id, row.2)) 0
        ⟨[], passes.matchedTxnIds, passes.matchedInvIds⟩ passes.exactMatches faults db =
          .ok settled db' ∧
      result = ⟨reportOf ((db.lockTransactions env source).map Prod.fst).length settled
        passes.semanticMatches env.now, passes.semanticMatches⟩ := by
  simp only [reconcile, bind_eq_ok, select_eq_ok] at h
  obtain ⟨_, _, ⟨-, rfl, rfl⟩, _, _, ⟨-, rfl, rfl⟩, h⟩ := h
  cases hpasses : runPasses env.tuning env.scorer source
      ((db.lockTransactions env source).map Prod.fst) (db.lockOpenInvoices env) with
  | error e =>
    rw [hpasses] at h
    cases h
  | ok passes =>
    rw [hpasses] at h
    simp only [bind_eq_ok, raiseIf_eq_ok, commit, site_eq_ok, pure_apply, Outcome.ok.injEq] at h
    obtain ⟨_, _, ⟨-, rfl⟩, settled, _, happly, _, _, ⟨-, rfl⟩, rfl, rfl⟩ := h
    exact ⟨passes, settled, rfl, happly, rfl⟩

/-- The parts of a run: what its passes found, and what its report is made of. -/
structure RunParts (source : MatchSource) (env : ReconciliationEnv) (pass1 : Matched) (db : Db)
    (result : ReconciliationResult) (db' : Db) (found : List ReconciliationMatch)
    (settled : Settled) : Prop where
  pass2 : pass2Semantic env.tuning env.scorer ((db.lockTransactions env source).map Prod.fst)
    (db.lockOpenInvoices env) pass1.txnIds pass1.invIds = .ok found
  semantic : result.semanticMatches = found.map (·.tagged source)
  report : result.report = reportOf ((db.lockTransactions env source).map Prod.fst).length settled
    (found.map (·.tagged source)) env.now
  applied : settled.applied = (pass1.found.map (·.tagged source)).filter env.requireTaskVc
  matchedTxnIds : settled.matchedTxnIds =
    (pass1.txnIds ∪ (found.map ReconciliationMatch.transactionId).toFinset) \
      (((pass1.found.map (·.tagged source)).filter (!env.requireTaskVc ·)).map
        ReconciliationMatch.transactionId).toFinset
  payments : ∃ news, db'.payments.rows = db.payments.rows ++ news ∧
    (∀ payment ∈ news, ∃ m ∈ pass1.found.map (·.tagged source), 0 < m.amount ∧
      Pays source payment m) ∧
    ∀ m ∈ settled.applied, 0 < m.amount → ∃ payment ∈ news, Pays source payment m

omit [Context] in
theorem pass1_named (hpass1 : pass1Exact env.tuning ((db.lockTransactions env source).map Prod.fst)
    (db.lockOpenInvoices env) = .ok pass1) {m : ReconciliationMatch}
    (hm : m ∈ pass1.found.map (·.tagged source)) : ∃ t i, Named source m t i ∧
      ∃ invoice, db.getInvoice i = some invoice ∧ 0 < invoice.balanceDue.val := by
  obtain ⟨m', hm', rfl⟩ := List.mem_map.mp hm
  obtain ⟨before, txn, inv, hcomes, hfind, rfl⟩ := (mem_pass1 hpass1).mp hm'
  obtain ⟨t, -, ht, -⟩ := mem_lockTransactions hcomes.mem
  obtain ⟨invoice, hget, rfl, hopen⟩ := mem_lockOpenInvoices (List.mem_of_find?_eq_some hfind)
  refine ⟨t, invoice.id, ⟨rfl, ht, rfl⟩, invoice, hget, ?_⟩
  have hunits : 0 < invoice.balanceDue.units := by
    simp only [Invoice.isOpen, Bool.and_eq_true, decide_eq_true_eq] at hopen
    exact hopen.2
  simpa [Numeric.val] using hunits

theorem reconcile_parts (h : reconcile source env faults db = .ok result db')
    (hpass1 : pass1Exact env.tuning ((db.lockTransactions env source).map Prod.fst)
      (db.lockOpenInvoices env) = .ok pass1) :
    ∃ found settled, RunParts source env pass1 db result db' found settled := by
  obtain ⟨passes, settled, hpasses, happly, rfl⟩ := reconcile_eq_ok h
  obtain ⟨pass1', found, hpass1', hpass2, hexact, hsemantic, hids⟩ := runPasses_eq_ok hpasses
  obtain rfl : pass1 = pass1' := Except.ok.inj (hpass1.symm.trans hpass1')
  obtain ⟨happlied, hmatched⟩ := applyExactMatches_settled happly
  rw [hexact] at happly happlied hmatched
  have hinvoices : ((pass1.found.map (·.tagged source)).map
      ReconciliationMatch.invoiceId).Nodup := by
    rw [List.map_map]
    exact (pass1_tracks hpass1).invoices
  obtain ⟨news, hrows, hnews, hpaid⟩ :=
    applyExactMatches_pays (fun m hm => pass1_named hpass1 hm) hinvoices happly
  rw [List.nil_append] at happlied
  refine ⟨found, settled, hpass2, hsemantic, by rw [hsemantic], happlied, ?_, news, hrows, hnews, ?_⟩
  · rw [hmatched, hids]
  · intro m hm hpos
    rw [happlied] at hm
    obtain ⟨hm, hvc⟩ := List.mem_filter.mp hm
    exact hpaid m hm hvc hpos

namespace RunParts
variable {found : List ReconciliationMatch} {settled : Settled}

omit [Context] [Unicode] in
theorem mem_applied (h : RunParts source env pass1 db result db' found settled)
    {m : ReconciliationMatch} : m ∈ settled.applied ↔
      ∃ e ∈ pass1.found, e.tagged source = m ∧ env.requireTaskVc m = true := by
  rw [h.applied, List.mem_filter, List.mem_map]
  constructor
  · rintro ⟨⟨e, he, rfl⟩, hvc⟩
    exact ⟨e, he, rfl, hvc⟩
  · rintro ⟨e, he, rfl, hvc⟩
    exact ⟨⟨e, he, rfl⟩, hvc⟩

omit [Context] [Unicode] in
theorem allMatches (h : RunParts source env pass1 db result db' found settled) :
    result.report.allMatches = settled.applied ++ found.map (·.tagged source) := by
  rw [h.report]
  rfl

omit [Context] [Unicode] in
/-- An answer is taken exactly when it becomes a match of the second pass. -/
theorem answers_iff (h : RunParts source env pass1 db result db' found settled) :
    (∀ m ∈ result.semanticMatches, ∃ c ∈ buildFuzzyCandidates env.tuning env.scorer
        ((db.lockTransactions env source).map Prod.fst) (db.lockOpenInvoices env) pass1.txnIds
        pass1.invIds, c.transactionId = m.transactionId ∧ c.invoiceId = m.invoiceId) ↔
      ∀ before cand, IsJudged env.tuning ((db.lockTransactions env source).map Prod.fst)
          (db.lockOpenInvoices env) (answers env.tuning env.scorer
            ((db.lockTransactions env source).map Prod.fst) (db.lockOpenInvoices env) pass1.txnIds
            pass1.invIds) before cand →
        (∃ txn ∈ (db.lockTransactions env source).map Prod.fst, txn.id = cand.transactionId) →
        Takes env.tuning (db.lockOpenInvoices env) before cand →
        ∃ c ∈ buildFuzzyCandidates env.tuning env.scorer
          ((db.lockTransactions env source).map Prod.fst) (db.lockOpenInvoices env) pass1.txnIds
          pass1.invIds, c.transactionId = cand.transactionId ∧ c.invoiceId = cand.invoiceId := by
  rw [h.semantic]
  constructor
  · intro hcandidates before cand hjudged htxn htakes
    obtain ⟨m, hjudge⟩ := (takes_iff_judge htxn).mp htakes
    have hm : m ∈ found := (mem_pass2 h.pass2).mpr ⟨before, cand, hjudged, hjudge⟩
    obtain ⟨c, hc, hids⟩ := hcandidates _ (List.mem_map_of_mem hm)
    obtain ⟨htxnId, hinvId⟩ := judge_ids hjudge
    refine ⟨c, hc, ?_⟩
    rw [← htxnId, ← hinvId]
    exact hids
  · intro hanswers m hm
    obtain ⟨m', hm', rfl⟩ := List.mem_map.mp hm
    obtain ⟨before, cand, hjudged, hjudge⟩ := (mem_pass2 h.pass2).mp hm'
    obtain ⟨txn, _, -, -, -, hmap, -, -⟩ := judge_eq_some.mp hjudge
    have htxn : ∃ txn ∈ (db.lockTransactions env source).map Prod.fst,
        txn.id = cand.transactionId := ⟨txn, txnMap_eq_some hmap⟩
    have htakes := (takes_iff_judge htxn).mpr ⟨m', hjudge⟩
    obtain ⟨c, hc, hids⟩ := hanswers before cand hjudged htxn htakes
    obtain ⟨htxnId, hinvId⟩ := judge_ids hjudge
    exact ⟨c, hc, hids.1.trans htxnId.symm, hids.2.trans hinvId.symm⟩

omit [Context] in
/-- A reported settlement was made exactly when it had an amount. -/
theorem applied_iff (h : RunParts source env pass1 db result db' found settled)
    (hpass1 : pass1Exact env.tuning ((db.lockTransactions env source).map Prod.fst)
      (db.lockOpenInvoices env) = .ok pass1) :
    (∀ m ∈ result.report.allMatches, m.matchType = .exact →
        ∃ payment ∈ db'.payments.rows, payment ∉ db.payments.rows ∧ Pays source payment m) ↔
      ∀ before txn inv, ComesTo env.tuning (db.lockOpenInvoices env)
          ((db.lockTransactions env source).map Prod.fst) before txn →
        (db.lockOpenInvoices env).find? (before.takes env.tuning txn) = some inv →
        env.requireTaskVc ((exactPair txn inv).tagged source) → 0 < txn.amount := by
  obtain ⟨news, hrows, hnews, hpaid⟩ := h.payments
  have hdistinct : (pass1.found.map ReconciliationMatch.transactionId).Nodup :=
    (nodup_lockTransactions db env source).sublist (pass1_sublist hpass1)
  have hunique : (db.payments.rows ++ news).Pairwise (fun a b => ¬ Row.clash a b) := by
    rw [← hrows]
    exact db'.payments.unique
  have hnew : ∀ payment ∈ news, payment ∉ db.payments.rows := by
    intro payment hpayment hold
    have hclash := (List.pairwise_append.mp hunique).2.2 payment hold payment hpayment
    simp [Row.clash] at hclash
  rw [h.allMatches, hrows]
  constructor
  · intro hpaidAll before txn inv hcomes hfind hvc
    have he : exactPair txn inv ∈ pass1.found :=
      (mem_pass1 hpass1).mpr ⟨before, txn, inv, hcomes, hfind, rfl⟩
    have hm := h.mem_applied.mpr ⟨_, he, rfl, hvc⟩
    obtain ⟨payment, hpayment, hnot, hpays⟩ :=
      hpaidAll _ (List.mem_append_left _ hm) rfl
    have hpayment := (List.mem_append.mp hpayment).resolve_left hnot
    obtain ⟨m', hm', hpos, hpays'⟩ := hnews payment hpayment
    obtain ⟨e', he', rfl⟩ := List.mem_map.mp hm'
    have hsame : e' = exactPair txn inv := by
      refine List.inj_on_of_nodup_map hdistinct he' he ?_
      exact Option.some.inj (hpays'.1.symm.trans hpays.1)
    rw [hsame] at hpos
    exact hpos
  · intro hamounts m hm hexact
    rcases List.mem_append.mp hm with hm | hm
    · obtain ⟨e, he, rfl, hvc⟩ := h.mem_applied.mp hm
      obtain ⟨before, txn, inv, hcomes, hfind, rfl⟩ := (mem_pass1 hpass1).mp he
      obtain ⟨payment, hpayment, hpays⟩ := hpaid _ hm (hamounts before txn inv hcomes hfind hvc)
      exact ⟨payment, List.mem_append_right _ hpayment, hnew payment hpayment, hpays⟩
    · obtain ⟨e, he, rfl⟩ := List.mem_map.mp hm
      exact absurd (show e.matchType = .exact from hexact) (pass2_exact_type h.pass2 he)

end RunParts

omit [Context] in
theorem fresh_of_candidates (hpass1 : pass1Exact env.tuning ((db.lockTransactions env source).map Prod.fst)
      (db.lockOpenInvoices env) = .ok pass1)
    (hcandidates : ∀ m ∈ result.semanticMatches, ∃ c ∈ buildFuzzyCandidates env.tuning env.scorer
      ((db.lockTransactions env source).map Prod.fst) (db.lockOpenInvoices env) pass1.txnIds
      pass1.invIds, c.transactionId = m.transactionId ∧ c.invoiceId = m.invoiceId) :
    ∀ m ∈ result.semanticMatches, ∀ e ∈ pass1.found,
      m.transactionId ≠ e.transactionId ∧ m.invoiceId ≠ e.invoiceId := by
  have htracks := pass1_tracks hpass1
  intro m hm e he
  obtain ⟨c, hc, htxnId, hinvId⟩ := hcandidates m hm
  obtain ⟨txn, -, inv, -, htxn, hinv, -, hctxn, hcinv⟩ := mem_buildFuzzyCandidates hc
  rw [htracks.txnIds, List.mem_toFinset, ← hctxn, htxnId] at htxn
  rw [htracks.invIds, List.mem_toFinset, ← hcinv, hinvId] at hinv
  constructor
  · intro heq
    exact htxn (heq ▸ List.mem_map_of_mem he)
  · intro heq
    exact hinv (heq ▸ List.mem_map_of_mem he)

namespace RunParts
variable {found : List ReconciliationMatch} {settled : Settled}

omit [Context] [Unicode] in
/-- Matches that the passes keep apart name each row once. -/
theorem nodup_allMatches (h : RunParts source env pass1 db result db' found settled)
    {key : ReconciliationMatch → String}
    (htag : ∀ m, key (m.tagged source) = key m) (hexact : (pass1.found.map key).Nodup)
    (hfound : (found.map key).Nodup)
    (hapart : ∀ m ∈ result.semanticMatches, ∀ e ∈ pass1.found, key m ≠ key e) :
    (result.report.allMatches.map key).Nodup := by
  have hcomp : key ∘ (·.tagged source) = key := funext htag
  have happlied : (settled.applied.map key).Nodup := by
    have hall : ((pass1.found.map (·.tagged source)).map key).Nodup := by
      rwa [List.map_map, hcomp]
    rw [h.applied]
    exact hall.sublist (List.filter_sublist.map _)
  have hsemantic : ((found.map (·.tagged source)).map key).Nodup := by
    rwa [List.map_map, hcomp]
  rw [h.allMatches, List.map_append, List.nodup_append]
  refine ⟨happlied, hsemantic, ?_⟩
  intro id hid id' hid' heq
  obtain ⟨m, hm, rfl⟩ := List.mem_map.mp hid
  obtain ⟨m', hm', rfl⟩ := List.mem_map.mp hid'
  obtain ⟨e, he, rfl, -⟩ := h.mem_applied.mp hm
  rw [← h.semantic] at hm'
  exact hapart m' hm' e he (by rw [← heq, htag])

variable (h : RunParts source env pass1 db result db' found settled)
  (hpass1 : pass1Exact env.tuning ((db.lockTransactions env source).map Prod.fst)
    (db.lockOpenInvoices env) = .ok pass1)
  (hfresh : ∀ m ∈ result.semanticMatches, ∀ e ∈ pass1.found,
    m.transactionId ≠ e.transactionId ∧ m.invoiceId ≠ e.invoiceId)

include h hpass1 hfresh

omit [Context] in
theorem nodup_txnIds :
    (result.report.allMatches.map ReconciliationMatch.transactionId).Nodup := by
  have hexact := (nodup_lockTransactions db env source).sublist (pass1_sublist hpass1)
  exact h.nodup_allMatches (fun _ => rfl) hexact (pass2_nodup h.pass2).1
    fun m hm e he => (hfresh m hm e he).1

omit [Context] in
theorem nodup_invIds : (result.report.allMatches.map ReconciliationMatch.invoiceId).Nodup :=
  h.nodup_allMatches (fun _ => rfl) (pass1_tracks hpass1).invoices
    (pass2_nodup h.pass2).2 fun m hm e he => (hfresh m hm e he).2

omit [Context] in
theorem matchedTxnIds_eq : settled.matchedTxnIds =
    (result.report.allMatches.map ReconciliationMatch.transactionId).toFinset := by
  have hdistinct : (pass1.found.map ReconciliationMatch.transactionId).Nodup :=
    (nodup_lockTransactions db env source).sublist (pass1_sublist hpass1)
  have htracks := pass1_tracks hpass1
  ext id
  rw [h.matchedTxnIds, h.allMatches, Finset.mem_sdiff, Finset.mem_union, htracks.txnIds]
  simp only [List.mem_toFinset, List.mem_map, List.mem_filter, List.mem_append]
  constructor
  · rintro ⟨⟨e, he, rfl⟩ | ⟨m, hm, rfl⟩, hkept⟩
    · by_cases hvc : env.requireTaskVc (e.tagged source) = true
      · exact ⟨e.tagged source, .inl (h.mem_applied.mpr ⟨e, he, rfl, hvc⟩), rfl⟩
      · exact absurd ⟨e.tagged source, ⟨⟨e, he, rfl⟩, by simpa using hvc⟩, rfl⟩ hkept
    · exact ⟨m.tagged source, .inr ⟨m, hm, rfl⟩, rfl⟩
  · rintro ⟨m, hm | ⟨m, hm, rfl⟩, rfl⟩
    · obtain ⟨e, he, rfl, hvc⟩ := h.mem_applied.mp hm
      refine ⟨.inl ⟨e, he, rfl⟩, ?_⟩
      rintro ⟨m', ⟨⟨e', he', rfl⟩, hvc'⟩, hid⟩
      obtain rfl : e' = e := List.inj_on_of_nodup_map hdistinct he' he hid
      simp [hvc] at hvc'
    · refine ⟨.inr ⟨m, hm, rfl⟩, ?_⟩
      rintro ⟨m', ⟨⟨e, he, rfl⟩, -⟩, hid⟩
      have hm' : m.tagged source ∈ result.semanticMatches := by
        rw [h.semantic]
        exact List.mem_map_of_mem hm
      exact (hfresh _ hm' e he).1 hid.symm

omit [Context] in
theorem counts : (result.report.matchedExact : ℤ) + result.report.matchedFuzzy +
    result.report.unmatched = result.report.totalTransactions := by
  have hcard : settled.matchedTxnIds.card = settled.applied.length + found.length := by
    rw [h.matchedTxnIds_eq hpass1 hfresh,
      List.toFinset_card_of_nodup (h.nodup_txnIds hpass1 hfresh), List.length_map, h.allMatches,
      List.length_append, List.length_map]
  have happlied : settled.applied.filter (·.matchType ≠ .exact) = [] := by
    rw [List.filter_eq_nil_iff]
    intro m hm
    obtain ⟨e, he, rfl, -⟩ := h.mem_applied.mp hm
    have htype := pass1_exact_type hpass1 he
    simp [ReconciliationMatch.tagged, htype]
  have hfound : (found.map (·.tagged source)).filter (·.matchType ≠ .exact) =
      found.map (·.tagged source) := by
    rw [List.filter_eq_self]
    intro m hm
    obtain ⟨e, he, rfl⟩ := List.mem_map.mp hm
    have htype := pass2_exact_type h.pass2 he
    simp [ReconciliationMatch.tagged, htype]
  have hfuzzy : result.report.matchedFuzzy = found.length := by
    rw [h.report]
    simp only [reportOf, List.filter_append, happlied, hfound, List.nil_append, List.length_map]
  have hexact : result.report.matchedExact = settled.applied.length := by
    rw [h.report]
    rfl
  have hunmatched : result.report.unmatched =
      result.report.totalTransactions - settled.matchedTxnIds.card := by
    rw [h.report]
    rfl
  rw [hexact, hfuzzy, hunmatched, hcard]
  push_cast
  omega

end RunParts

end

/-- Invoice 10 is sent. Of two transactions one has no reference, the other a typing error in it. -/
def unmatchedBooks [Context] [Format] : Db :=
  { (InvoiceRequest.sendInvoice 10).run.committed noFaults issuedInvoice with
    mpesaTransactions := ⟨[⟨5, "TX5", ⟨116000, settled_fits⟩, "254700000001", none, .mpesa, false, 4⟩,
      ⟨6, "TX6", ⟨50000, by decide⟩, "254700000001", some "INW-1", .mpesa, false, 5⟩], by decide⟩ }

def namingEnv [Format] (t : Uuid) : ReconciliationEnv where
  tuning := {}
  scorer := naming (Format.identifier t) (Format.identifier 10)
  heldTxn _ := false
  heldInv _ := false
  requireTaskVc _ := true
  paymentId n := 100 + n
  now := 9

end Finguard
