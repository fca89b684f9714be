import Finguard.InvoiceReadModel

/-! Payments against the read model: what backs an invoice's amount paid, and the
payments that nothing in the read model answers for. -/

namespace Finguard
open Decimal Text InvoiceLedger

/-- The money recorded for an invoice, in cents. -/
def InvoiceLedger.collected (l : InvoiceLedger) (id : Uuid) : ℤ :=
  l.payments.total (·.invoiceId == id) (fun payment => payment.amount.units)

section
variable [Context] [Format]

/-- No payment of any amount is recorded for an invoice whose log holds a
cancellation. -/
def backingPolicy : Policy where
  patch _ _ _ := True
  payment l id amount :=
    (foldInvoiceEvents (l.listByInvoice id)).cancelled = false ∨ amount.units = 0

structure BackingSound (l : InvoiceLedger) : Prop extends LedgerSound l where
  paymentOwner : ∀ payment ∈ l.payments.rows, ∃ i ∈ l.invoices.rows, i.id = payment.invoiceId
  backed : ∀ invoice ∈ l.invoices.rows, l.collected invoice.id = invoice.amountPaid.units

omit [Context] [Format] in
theorem collected_insert {l l' : InvoiceLedger} {payment : Payment}
    (h : l.payments.insert? payment = some l'.payments) (id : Uuid) :
    l'.collected id =
      l.collected id + if payment.invoiceId = id then payment.amount.units else 0 := by
  unfold collected
  rw [Table.total_of_insert h]
  simp only [beq_iff_eq]

omit [Context] [Format] in
theorem collected_congr {l l' : InvoiceLedger} (h : l'.payments = l.payments) (id : Uuid) :
    l'.collected id = l.collected id := by
  unfold collected
  rw [h]

theorem acc_cancelled {l : InvoiceLedger} {id : Uuid} (h : LogSound l id) :
    (foldInvoiceEvents (l.listByInvoice id)).cancelled = (l.acc id).cancelled := by
  rw [fold_eq_acc h.sequences]
  rfl

theorem amountPaid_posted {l l' : InvoiceLedger} {invoice row : Invoice}
    {event : InvoiceEvent Money} {payment : Option Payment} (h : LedgerSound l)
    (hp : Posts l l' invoice event payment) (hrow : row ∈ l'.invoices.rows)
    (hid : event.invoiceId = row.id) :
    invoice ∈ l.invoices.rows ∧ event.invoiceId = invoice.id ∧
      row.amountPaid.units = invoice.amountPaid.units + (l.acc event.invoiceId).paidBy event := by
  rcases h.posted_row hp hrow with ⟨hne, -⟩ | ⟨-, hinvoice, hold, hproject⟩
  · exact absurd hid hne
  · have hagrees := (h.row invoice hold).agrees
    rw [← hinvoice] at hagrees
    exact ⟨hold, hinvoice, (hagrees.project hp.2.1.1 hproject).2.1⟩

theorem backed_after_payment_iff {l l' : InvoiceLedger} {invoice row : Invoice}
    {event : InvoiceEvent Money} {payment : Payment} (h : BackingSound l)
    (hp : Posts l l' invoice event (some payment)) (hrow : row ∈ l'.invoices.rows)
    (hid : event.invoiceId = row.id) :
    l'.collected row.id = row.amountPaid.units ↔
      backingPolicy.payment l event.invoiceId event.amount := by
  obtain ⟨hold, hinvoice, hpaid⟩ := amountPaid_posted h.toLedgerSound hp hrow hid
  obtain ⟨-, -, ⟨htype, hamount, howner⟩, hposted⟩ := hp
  have hbacked := h.backed invoice hold
  have hcollected := collected_insert hposted.payments row.id
  rw [if_pos (howner.trans hid), hamount] at hcollected
  have hcancelled := acc_cancelled (h.log event.invoiceId)
  show _ ↔ (foldInvoiceEvents (l.listByInvoice event.invoiceId)).cancelled = false ∨ _
  rw [hcollected, hpaid, hcancelled, ← hid, hinvoice, hbacked, ← hinvoice]
  by_cases hc : (l.acc event.invoiceId).cancelled = false
  · rw [Acc.paidBy, if_pos ⟨hc, htype⟩]
    simp [hc]
  · have hnot : ¬ ((l.acc event.invoiceId).cancelled = false ∧ event.eventType = .paymentApplied) :=
      fun hboth => hc hboth.1
    rw [Acc.paidBy, if_neg hnot]
    simp [hc]

theorem BackingSound.created {l l' : InvoiceLedger} {invoice : Invoice} (h : BackingSound l)
    (hc : Created l l' invoice) : BackingSound l' := by
  refine ⟨h.toLedgerSound.created hc, ?_, ?_⟩
  · intro payment hpayment
    rw [hc.payments] at hpayment
    exact hc.owner_kept (h.paymentOwner payment hpayment)
  · intro row hrow
    rw [collected_congr hc.payments]
    rcases (Table.mem_of_insert hc.row).mp hrow with hrow | rfl
    · exact h.backed row hrow
    · -- nothing refers to an identifier before its row exists
      have hnone : l.paymentsOf row.id = [] := by
        refine List.filter_eq_nil_iff.mpr ?_
        intro payment hpayment
        obtain ⟨i, hi, hid⟩ := h.paymentOwner payment hpayment
        have hne := hc.fresh i hi
        simpa [← hid] using hne
      rw [hc.unpaid]
      show ((l.paymentsOf row.id).map (fun payment => payment.amount.units)).sum = 0
      rw [hnone]
      rfl

theorem BackingSound.patched {l l' : InvoiceLedger} {id : Uuid} {data : InvoiceUpdate}
    (h : BackingSound l) (hp : Patched l l' id data) : BackingSound l' := by
  refine ⟨h.toLedgerSound.patched hp, ?_, ?_⟩
  · intro payment hpayment
    rw [hp.payments] at hpayment
    exact hp.owner_kept (h.paymentOwner payment hpayment)
  · intro row hrow
    rw [collected_congr hp.payments]
    rw [hp.row] at hrow
    obtain ⟨a, ha, ⟨-, rfl⟩ | ⟨-, rfl⟩⟩ := Table.mem_update hrow
    · exact h.backed row ha
    · exact h.backed a ha

theorem BackingSound.posted {l l' : InvoiceLedger} {invoice : Invoice} {event : InvoiceEvent Money}
    (h : BackingSound l) (hp : Posts l l' invoice event none) : BackingSound l' := by
  have hpayments : l'.payments = l.payments := hp.2.2.2.payments
  have htype : event.eventType ≠ .paymentApplied := hp.2.2.1
  refine ⟨h.toLedgerSound.posted hp, ?_, ?_⟩
  · intro payment hpayment
    rw [hpayments] at hpayment
    exact h.posted_kept hp (h.paymentOwner payment hpayment)
  · intro row hrow
    rw [collected_congr hpayments]
    by_cases hid : event.invoiceId = row.id
    · obtain ⟨hold, hinvoice, hpaid⟩ := amountPaid_posted h.toLedgerSound hp hrow hid
      have hnot : ¬ ((l.acc event.invoiceId).cancelled = false ∧
          event.eventType = .paymentApplied) := fun hboth => htype hboth.2
      rw [hpaid, Acc.paidBy, if_neg hnot, ← hid, hinvoice, h.backed invoice hold, add_zero]
    · rcases h.posted_row hp hrow with ⟨-, hold⟩ | ⟨hsame, -⟩
      · exact h.backed row hold
      · exact absurd hsame hid

theorem BackingSound.paid {l l' : InvoiceLedger} {invoice : Invoice} {event : InvoiceEvent Money}
    {payment : Payment} (h : BackingSound l)
    (hpolicy : backingPolicy.payment l event.invoiceId event.amount)
    (hp : Posts l l' invoice event (some payment)) : BackingSound l' := by
  have hinsert : l.payments.insert? payment = some l'.payments := hp.2.2.2.payments
  have howner : payment.invoiceId = event.invoiceId := hp.2.2.1.2.2
  refine ⟨h.toLedgerSound.posted hp, ?_, ?_⟩
  · intro p hpayment
    rcases (Table.mem_of_insert hinsert).mp hpayment with hpayment | rfl
    · exact h.posted_kept hp (h.paymentOwner p hpayment)
    · obtain ⟨hmem, hid⟩ := getInvoice_eq_some.mp hp.1
      exact h.posted_kept hp ⟨invoice, hmem, hid.trans howner.symm⟩
  · intro row hrow
    by_cases hid : event.invoiceId = row.id
    · exact (backed_after_payment_iff h hp hrow hid).mpr hpolicy
    · rcases h.posted_row hp hrow with ⟨-, hold⟩ | ⟨hsame, -⟩
      · have hother : ¬ payment.invoiceId = row.id := by rwa [howner]
        rw [collected_insert hinsert, if_neg hother, add_zero]
        exact h.backed row hold
      · exact absurd hsame hid

theorem backingSound_kept : Kept backingPolicy BackingSound where
  created h hc := h.created hc
  sent h _ _ hp := h.patched hp
  patched h _ _ hp := h.patched hp
  posted h hp := h.posted hp
  paid h hpolicy hp := h.paid hpolicy hp

theorem backingSound_empty : BackingSound {} where
  toLedgerSound := ledgerSound_empty
  paymentOwner _ h := by cases h
  backed _ h := by cases h

/-- As long as no payment is recorded for a cancelled invoice, the payments of every
invoice add up to its amount paid. -/
theorem guarded_payments_backed {start db : Db} (hstart : start.toInvoiceLedger = {})
    (hrun : Runs.Reaches invoiceStep (Obeys backingPolicy) start db) :
    ∀ invoice ∈ db.invoices.rows,
      ((db.paymentsOf invoice.id).map (fun payment => payment.amount.val)).sum =
        invoice.amountPaid.val := by
  have hsound : BackingSound db.toInvoiceLedger :=
    backingSound_kept.run (by rw [hstart]; exact backingSound_empty) hrun
  intro invoice hmem
  have hbacked := hsound.backed invoice hmem
  unfold Numeric.val
  rw [← hbacked, collected, Table.total, ← ofUnits_sum, List.map_map]
  rfl

end

/-- Paid in part while it is open, then cancelled. -/
theorem openPayment_backed :
    letI := Context.default
    letI := Format.plain
    ∃ db, Runs.Reaches invoiceStep (Obeys backingPolicy) oneCustomer db ∧
      db.payments.rows.map (fun payment => payment.amount.units) = [58000] ∧
      ∀ invoice ∈ db.invoices.rows,
        ((db.paymentsOf invoice.id).map (fun payment => payment.amount.val)).sum =
          invoice.amountPaid.val := by
  let := Context.default
  let := Format.plain
  have hrun : Runs.Reaches invoiceStep (Obeys backingPolicy) oneCustomer _ :=
    .head ⟨(.createInvoice sampleInvoice 10 1, noFaults), trivial, rfl⟩ <|
    .head ⟨(.recordCashPayment (samplePayment 580 (by norm_num)) 7 20, noFaults),
      fun _ _ => .inl (by decide +kernel), rfl⟩ <|
    .head ⟨(.cancelInvoice 10 none 9, noFaults), trivial, rfl⟩ .refl
  exact ⟨_, hrun, by decide +kernel, guarded_payments_backed rfl hrun⟩

/-- Cash taken for an invoice that was cancelled with its balance open. -/
theorem cancelledPayment_not_backed :
    letI := Context.default
    letI := Format.plain
    ∃ db, Runs.Reaches invoiceStep Runs.always oneCustomer db ∧
      ∃ invoice ∈ db.invoices.rows,
        ((db.paymentsOf invoice.id).map (fun payment => payment.amount.val)).sum ≠
          invoice.amountPaid.val := by
  let := Context.default
  let := Format.plain
  have hrun : Runs.Reaches invoiceStep Runs.always oneCustomer _ :=
    .head ⟨(.createInvoice sampleInvoice 10 1, noFaults), trivial, rfl⟩ <|
    .head ⟨(.cancelInvoice 10 none 4, noFaults), trivial, rfl⟩ <|
    .head ⟨(.recordCashPayment (samplePayment 100 (by norm_num)) 7 20, noFaults),
      trivial, rfl⟩ .refl
  exact ⟨_, hrun, by decide +kernel⟩

end Finguard
