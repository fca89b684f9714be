import Finguard.PaymentBacking
import Finguard.ReconciliationReport
import Finguard.StatusAgreement

/-! The status that a match predicts and the one that its application reaches. The prediction gives
one cent of slack, the fold of the log gives none. -/

namespace Finguard
open Decimal Text InvoiceLedger Transaction Transaction.Tx

section
variable [Context]

theorem paymentStatus_apply_payment {acc : Acc} {invoice row : Invoice} {event : InvoiceEvent Money}
    (h : acc.Agrees invoice) (htype : event.eventType = .paymentApplied)
    (hpositive : 0 < event.amount.units) (hpaid : 0 ≤ invoice.amountPaid.units)
    (hrow : invoice.project? (acc.apply event.load).finalize = some row) :
    (acc.apply event.load).paymentStatus =
      if acc.cancelled then some .cancelled
      else if invoice.balanceDue.units ≤ event.amount.units then some .paid
      else some .partiallyPaid := by
  by_cases hc : acc.cancelled = true
  · rw [if_pos hc]
    exact Acc.paymentStatus_cancelled (Acc.apply_cancelled hc)
  · have hissued : event.eventType ≠ .invoiceIssued := by simp [htype]
    obtain ⟨hagrees, hamount, hcredited⟩ := h.project hissued hrow
    have htotal := (Invoice.project?_eq_some hrow).2.2.2.2.1
    have hkept : (acc.apply event.load).cancelled = false := by
      simp [Acc.apply, InvoiceEvent.load, hc, htype]
    have hpaidBy : acc.paidBy event = event.amount.units := by
      simp [Acc.paidBy, hc, htype]
    have hcreditedBy : acc.creditedBy event = 0 := by
      simp [Acc.creditedBy, htype]
    have hunits : row.balanceDue.units = invoice.balanceDue.units - event.amount.units := by
      rw [row.balanceConsistent, invoice.balanceConsistent, hamount, hcredited, htotal, hpaidBy,
        hcreditedBy]
      omega
    have hnone : ¬ (acc.apply event.load).amountPaid ≤ 0 := by
      rw [hagrees.amountPaid, Numeric.val, ofUnits_nonpos, hamount, hpaidBy]
      omega
    have hbalance : (acc.apply event.load).balanceDue ≤ 0 ↔
        invoice.balanceDue.units ≤ event.amount.units := by
      rw [hagrees.balanceDue, Numeric.val, ofUnits_nonpos, hunits]
      omega
    simp [Acc.paymentStatus, hkept, hnone, hbalance, hc]

/-! What has been paid is never negative. -/

section
variable [Format]

structure PaidSound (l : InvoiceLedger) : Prop extends LedgerSound l where
  paid : ∀ invoice ∈ l.invoices.rows, 0 ≤ invoice.amountPaid.units

theorem PaidSound.created {l l' : InvoiceLedger} {invoice : Invoice} (h : PaidSound l)
    (hc : Created l l' invoice) : PaidSound l' := by
  refine ⟨h.toLedgerSound.created hc, ?_⟩
  intro row hrow
  rcases (Table.mem_of_insert hc.row).mp hrow with hrow | rfl
  · exact h.paid row hrow
  · exact hc.unpaid.ge

theorem PaidSound.patched {l l' : InvoiceLedger} {id : Uuid} {data : InvoiceUpdate}
    (h : PaidSound l) (hp : Patched l l' id data) : PaidSound l' := by
  refine ⟨h.toLedgerSound.patched hp, ?_⟩
  intro row hrow
  rw [hp.row] at hrow
  obtain ⟨a, ha, ⟨-, rfl⟩ | ⟨-, rfl⟩⟩ := Table.mem_update hrow
  · exact h.paid row ha
  · exact h.paid a ha

omit [Context] [Format] in
theorem Acc.paidBy_nonneg (acc : Acc) {invoice : Invoice} {event : InvoiceEvent Money}
    (h : Within invoice event) : 0 ≤ acc.paidBy event := by
  by_cases hpay : acc.cancelled = false ∧ event.eventType = .paymentApplied
  · rw [Acc.paidBy, if_pos hpay]
    rcases h.2 with hcancel | ⟨hnonneg, -⟩
    · rw [hpay.2] at hcancel
      cases hcancel
    · exact hnonneg
  · rw [Acc.paidBy, if_neg hpay]

theorem PaidSound.posted {l l' : InvoiceLedger} {invoice : Invoice} {event : InvoiceEvent Money}
    {payment : Option Payment} (h : PaidSound l) (hp : Posts l l' invoice event payment) :
    PaidSound l' := by
  refine ⟨h.toLedgerSound.posted hp, ?_⟩
  intro row hrow
  by_cases hid : event.invoiceId = row.id
  · obtain ⟨hold, -, hpaid⟩ := amountPaid_posted h.toLedgerSound hp hrow hid
    have hbefore := h.paid invoice hold
    have hadded := Acc.paidBy_nonneg (l.acc event.invoiceId) hp.2.1
    omega
  · rcases h.posted_row hp hrow with ⟨-, hold⟩ | ⟨hsame, -⟩
    · exact h.paid row hold
    · exact absurd hsame hid

theorem paidSound_kept : Kept Policy.any PaidSound where
  created h hc := h.created hc
  sent h _ _ hp := h.patched hp
  patched h _ _ hp := h.patched hp
  posted h hp := h.posted hp
  paid h _ hp := h.posted hp

theorem paidSound_empty : PaidSound {} where
  toLedgerSound := ledgerSound_empty
  paid _ h := by cases h

theorem reachable_paidSound {start db : Db} (hstart : start.toInvoiceLedger = {})
    (hrun : Runs.Reaches invoiceStep Runs.always start db) : PaidSound db.toInvoiceLedger := by
  have hobeys : Runs.Reaches invoiceStep (Obeys Policy.any) start db := by
    refine hrun.weaken ?_
    intro db action _
    exact obeys_any db action
  exact paidSound_kept.run (by rw [hstart]; exact paidSound_empty) hobeys

/-! The prediction. -/

omit [Context] in
theorem mem_passes_predicted [Unicode] {tuning : ReconcilerTuning} {scorer : Scorer}
    {transactions : List FloatingSettlement} {invoices : List OpenInvoice} {pass1 : Matched}
    {found : List ReconciliationMatch} {m : ReconciliationMatch}
    (hpass1 : pass1Exact tuning transactions invoices = .ok pass1)
    (hpass2 : pass2Semantic tuning scorer transactions invoices pass1.txnIds pass1.invIds = .ok found)
    (hm : m ∈ pass1.found ++ found) :
    ∃ txn ∈ transactions, ∃ inv ∈ invoices, m.transactionId = txn.id ∧ m.invoiceId = inv.id ∧
      m.amount = txn.amount ∧ m.newInvoiceStatus = predictedStatus txn.amount inv.balanceDue := by
  rcases List.mem_append.mp hm with hm | hm
  · obtain ⟨before, txn, inv, hcomes, hfind, rfl⟩ := (mem_pass1 hpass1).mp hm
    exact ⟨txn, hcomes.mem, inv, List.mem_of_find?_eq_some hfind, rfl, rfl, rfl, rfl⟩
  · obtain ⟨before, cand, -, hjudge⟩ := (mem_pass2 hpass2).mp hm
    obtain ⟨txn, inv, -, -, -, htxn, hinv, rfl⟩ := judge_eq_some.mp hjudge
    obtain ⟨htxn, htxnId⟩ := txnMap_eq_some htxn
    obtain ⟨hinv, hinvId⟩ := invMap_eq_some hinv
    exact ⟨txn, htxn, inv, hinv, htxnId.symm, hinvId.symm, rfl, rfl⟩

omit [Context] [Format] in
theorem predictedStatus_units (amount : SettledAmount) (balance : Money) :
    predictedStatus amount.val balance.val =
      if balance.units - 1 ≤ amount.units then .paid else .partiallyPaid := by
  have hcent : balance.val - 1 / 100 = ofUnits 2 (balance.units - 1) := by
    simp only [Numeric.val, ofUnits, Int.cast_sub, Int.cast_one]
    ring
  rw [predictedStatus, hcent]
  simp only [Numeric.val, ofUnits_le]

theorem applied_status {db db' : Db} {data : ReconciledPayment} {invoice : Invoice} {p : Uuid}
    {faults : Faults Site ServiceError} (amount : SettledAmount) (hsound : PaidSound db.toInvoiceLedger)
    (hget : db.getInvoice data.invoiceId = some invoice) (hamount : data.amount = amount.val)
    (h : applyReconciledPayment data faults db = .ok (some p) db') :
    ∃ row, db'.getInvoice invoice.id = some row ∧
      row.status = if (foldInvoiceEvents (db.listByInvoice invoice.id)).cancelled then .cancelled
        else if invoice.balanceDue.units ≤ amount.units then .paid else .partiallyPaid := by
  have hnone := applyReconciledPayment_eq_none hget h
  have hpositive : 0 < min amount.units invoice.balanceDue.units := by
    have hpos : ¬ min data.amount invoice.balanceDue.val ≤ 0 := fun hle => by
      cases hnone.mpr hle
    rw [hamount, Numeric.val, Numeric.val, min_le_iff, not_or, ofUnits_nonpos, ofUnits_nonpos] at hpos
    omega
  obtain ⟨invoice', hget', ⟨hr, -⟩ | ⟨-, l', event, payment, _, _, hposts, hid, hstored, -, -, rfl⟩⟩ :=
    applyReconciledPayment_eq_ok h
  · cases hr
  · obtain rfl : invoice = invoice' := Option.some.inj (hget.symm.trans hget')
    obtain ⟨hmem, hinvoiceId⟩ := getInvoice_eq_some.mp hget
    have hunits : event.amount.units = min amount.units invoice.balanceDue.units := by
      have hmin : min data.amount invoice.balanceDue.val =
          ofUnits 2 (min amount.units invoice.balanceDue.units) := by
        rw [hamount]
        simp only [Numeric.val]
        rcases le_total amount.units invoice.balanceDue.units with hle | hle
        · rw [min_eq_left hle, min_eq_left (ofUnits_le.mpr hle)]
        · rw [min_eq_right hle, min_eq_right (ofUnits_le.mpr hle)]
      rw [hmin] at hstored
      exact Numeric.units_of_store_ofUnits hstored
    obtain ⟨row, hrow, hrowId⟩ := hsound.posted_kept hposts ⟨invoice, hmem, rfl⟩
    have hgetRow : l'.getInvoice invoice.id = some row := getInvoice_eq_some.mpr ⟨hrow, hrowId⟩
    refine ⟨row, by simpa using hgetRow, ?_⟩
    rcases hsound.posted_row hposts hrow with ⟨hne, -⟩ | ⟨-, hevent, -, hproject⟩
    · exact absurd (hid.trans (hinvoiceId.symm.trans hrowId.symm)) hne
    · have hagrees := (hsound.row invoice hmem).agrees
      rw [← hevent] at hagrees
      have hstatus := paymentStatus_apply_payment hagrees hposts.2.2.1.1 (by omega)
        (hsound.paid invoice hmem) hproject
      have hcancelled := acc_cancelled (hsound.log invoice.id)
      have hrowStatus : row.status =
          ((l'.acc event.invoiceId).paymentStatus).getD invoice.status := by
        rw [hposts.2.2.2.acc_self]
        exact (Invoice.project?_eq_some hproject).2.2.2.2.2
      rw [hrowStatus, hposts.2.2.2.acc_self, hstatus, hcancelled, ← hevent, hunits]
      by_cases hc : (db.acc event.invoiceId).cancelled = true
      · simp [hc]
      · by_cases hle : invoice.balanceDue.units ≤ amount.units
        · simp [hc, hle]
        · simp [hc, hle]

end

end

/-- A customer whose transaction of this amount names invoice INV-1. -/
def paidBy (amount : SettledAmount) : Db :=
  { oneCustomer with
    mpesaTransactions := ⟨[⟨5, "TX5", amount, "254700000001", some "INV-1", .mpesa, false, 4⟩],
      List.pairwise_singleton _ _⟩ }

def issueAndSend : List InvoiceAction :=
  [(.createInvoice sampleInvoice 10 1, noFaults), (.sendInvoice 10, noFaults)]

def payInvoice10 [Format] (amount : ℚ) (status : InvoiceStatus) : ReconciliationMatch :=
  ⟨Format.identifier 5, Format.identifier 10, .exact, 1, amount, status, .mpesa⟩

/-- What the first pass predicts for the transaction, and what its application leaves. -/
def statusesOf [Context] [Format] [Unicode] (amount : SettledAmount) :
    Option (List InvoiceStatus × List InvoiceStatus) := do
  let db ← Runs.replay invoiceStep Runs.always (paidBy amount) issueAndSend
  let pass1 ← (pass1Exact {} ((db.lockTransactions (namingEnv 5) .mpesa).map Prod.fst)
    (db.lockOpenInvoices (namingEnv 5))).toOption
  let m ← pass1.found.head?
  let after ← (applyConfirmedMatch (m.confirmed [] 9) 20 noFaults db).working?
  return (pass1.found.map ReconciliationMatch.newInvoiceStatus, after.invoices.rows.map Invoice.status)

end Finguard
