import Finguard.InvoiceReadModel

/-! The status of an invoice: what its log derives against what its row stores. -/

namespace Finguard
open Decimal Text Transaction Transaction.Tx InvoiceLedger

structure InvoiceReconstruction where
  invoiceId : Uuid
  eventCount : ℤ
  derivedTotal : ℚ
  derivedAmountPaid : ℚ
  derivedBalanceDue : ℚ
  derivedStatus : Option InvoiceStatus
  storedAmountPaid : Money
  storedBalanceDue : Money
  storedStatus : InvoiceStatus
  matchesProjection : Bool
  events : List (InvoiceEvent ℚ)

def matchesProjection (state : InvoiceState) (invoice : Invoice) : Bool :=
  state.amountPaid = invoice.amountPaid.val ∧ state.credited = invoice.amountCredited.val ∧
    state.balanceDue = invoice.balanceDue.val ∧
    (state.paymentStatus = none ∨ state.paymentStatus = some invoice.status)

section
variable [Context]

/-- The audit endpoint. -/
def reconstructInvoice (id : Uuid) : AppTx InvoiceReconstruction := do
  let found ← select .getInvoice (·.getInvoice id)
  let invoice ← getOrRaise found (.notFound "Invoice not found")
  let events ← select .listEvents (·.listByInvoice id)
  let state := foldInvoiceEvents events
  return {
    invoiceId := invoice.id
    eventCount := state.eventCount
    derivedTotal := state.total
    derivedAmountPaid := state.amountPaid
    derivedBalanceDue := state.balanceDue
    derivedStatus := state.paymentStatus
    storedAmountPaid := invoice.amountPaid
    storedBalanceDue := invoice.balanceDue
    storedStatus := invoice.status
    matchesProjection := matchesProjection state invoice
    events }

theorem reconstructInvoice_eq_ok {id : Uuid} {faults : Faults Site ServiceError} {db db' : Db}
    {r : InvoiceReconstruction} (h : reconstructInvoice id faults db = .ok r db') :
    ∃ invoice, db.getInvoice id = some invoice ∧
      r.matchesProjection = matchesProjection (foldInvoiceEvents (db.listByInvoice id)) invoice := by
  simp only [reconstructInvoice, bind_eq_ok, select_eq_ok, getOrRaise_eq_ok, pure_apply,
    Outcome.ok.injEq] at h
  obtain ⟨_, _, ⟨-, rfl, rfl⟩, invoice, _, ⟨hget, rfl⟩, _, _, ⟨-, rfl, rfl⟩, rfl, rfl⟩ := h
  exact ⟨invoice, hget, rfl⟩

theorem Acc.paymentStatus_ne_draft (acc : Acc) : acc.paymentStatus ≠ some .draft := by
  unfold Acc.paymentStatus
  split
  · simp
  · split
    · simp
    · split <;> simp

theorem Acc.apply_cancelled {acc : Acc} {event : InvoiceEvent ℚ} (h : acc.cancelled = true) :
    (acc.apply event).cancelled = true := by simp [Acc.apply, h]

theorem Acc.apply_invoiceCancelled {acc : Acc} {event : InvoiceEvent ℚ}
    (h : event.eventType = .invoiceCancelled) : (acc.apply event).cancelled = true := by
  by_cases hc : acc.cancelled = true
  · exact acc.apply_cancelled hc
  · simp [Acc.apply, hc, h]

theorem Acc.paymentStatus_cancelled {acc : Acc} (h : acc.cancelled = true) :
    acc.paymentStatus = some .cancelled := by rw [Acc.paymentStatus, if_pos h]

variable [Format]

/-- A patch leaves the status alone once the log derives it, unless it sets what the
log derives. -/
def statusPolicy : Policy where
  patch l id data :=
    data.status = none ∨ (foldInvoiceEvents (l.listByInvoice id)).paymentStatus = none ∨
      (foldInvoiceEvents (l.listByInvoice id)).paymentStatus = data.status
  payment _ _ _ := True

structure StatusSound (l : InvoiceLedger) : Prop extends LedgerSound l where
  agrees : ∀ invoice ∈ l.invoices.rows, ∀ status,
    (l.acc invoice.id).paymentStatus = some status → invoice.status = status

theorem StatusSound.created {l l' : InvoiceLedger} {invoice : Invoice} (h : StatusSound l)
    (hc : Created l l' invoice) : StatusSound l' := by
  refine ⟨h.toLedgerSound.created hc, ?_⟩
  intro row hrow status hstatus
  rcases (Table.mem_of_insert hc.row).mp hrow with hrow | rfl
  · have hacc : l'.acc row.id = l.acc row.id := by
      unfold InvoiceLedger.acc InvoiceLedger.log
      rw [h.created_events hc, if_neg (hc.fresh row hrow).symm]
    rw [hacc] at hstatus
    exact h.agrees row hrow status hstatus
  · rw [h.created_acc hc] at hstatus
    simp [Acc.paymentStatus] at hstatus

omit [Format] in
theorem InvoiceLedger.Patched.acc_eq {l l' : InvoiceLedger} {id : Uuid} {data : InvoiceUpdate}
    (hp : Patched l l' id data) (id' : Uuid) : l'.acc id' = l.acc id' := by
  unfold InvoiceLedger.acc InvoiceLedger.log eventsOf
  rw [hp.events]

theorem paymentStatus_fold {l : InvoiceLedger} {id : Uuid} (h : LogSound l id) :
    (foldInvoiceEvents (l.listByInvoice id)).paymentStatus = (l.acc id).paymentStatus := by
  rw [fold_eq_acc h.sequences]
  rfl

/-- A patch keeps the agreement exactly when the policy allows it. -/
theorem StatusSound.patched_iff {l l' : InvoiceLedger} {id : Uuid} {data : InvoiceUpdate}
    {invoice : Invoice} (h : StatusSound l) (hget : l.getInvoice id = some invoice)
    (hp : Patched l l' id data) : StatusSound l' ↔ statusPolicy.patch l id data := by
  obtain ⟨hmem, rfl⟩ := getInvoice_eq_some.mp hget
  have hfold := paymentStatus_fold (h.log invoice.id)
  show _ ↔ data.status = none ∨ (foldInvoiceEvents (l.listByInvoice invoice.id)).paymentStatus = none
    ∨ (foldInvoiceEvents (l.listByInvoice invoice.id)).paymentStatus = data.status
  rw [hfold]
  constructor
  · intro h'
    have hrow : invoice.patch data ∈ l'.invoices.rows := by
      rw [hp.row]
      exact List.mem_map.mpr ⟨invoice, hmem, by simp [Table.updated]⟩
    have hagrees := h'.agrees _ hrow
    rw [hp.acc_eq] at hagrees
    cases hdata : data.status with
    | none => exact .inl rfl
    | some status =>
      cases hderived : (l.acc invoice.id).paymentStatus with
      | none => exact .inr (.inl rfl)
      | some derived =>
        have hpatched : (invoice.patch data).status = derived := hagrees derived hderived
        simp only [Invoice.patch, hdata, Option.getD_some] at hpatched
        exact .inr (.inr (congrArg some hpatched.symm))
  · intro hpolicy
    refine ⟨h.toLedgerSound.patched hp, ?_⟩
    intro row hrow status hstatus
    rw [hp.acc_eq] at hstatus
    rw [hp.row] at hrow
    obtain ⟨a, ha, ⟨-, rfl⟩ | ⟨hsel, rfl⟩⟩ := Table.mem_update hrow
    · exact h.agrees row ha status hstatus
    · have hold : a.status = status := h.agrees a ha status hstatus
      have hid : a.id = invoice.id := by simpa using hsel
      have hstatus' : (l.acc invoice.id).paymentStatus = some status := hid ▸ hstatus
      show data.status.getD a.status = status
      rcases hpolicy with hnone | hnone | hsame
      · rw [hnone]
        exact hold
      · rw [hnone] at hstatus'
        cases hstatus'
      · rw [← hsame, hstatus']
        rfl

/-- A draft has a log that derives no status, so sending it disagrees with nothing. -/
theorem StatusSound.sent {l l' : InvoiceLedger} {id : Uuid} {invoice : Invoice} (h : StatusSound l)
    (hget : l.getInvoice id = some invoice) (hdraft : invoice.status = .draft)
    (hp : Patched l l' id ⟨some .sent, none, none⟩) : StatusSound l' := by
  refine (h.patched_iff hget hp).mpr (.inr (.inl ?_))
  obtain ⟨hmem, rfl⟩ := getInvoice_eq_some.mp hget
  rw [paymentStatus_fold (h.log invoice.id)]
  cases hderived : (l.acc invoice.id).paymentStatus with
  | none => rfl
  | some status =>
    have hstatus := h.agrees invoice hmem status hderived
    rw [hdraft] at hstatus
    rw [← hstatus] at hderived
    exact absurd hderived (Acc.paymentStatus_ne_draft _)

/-- A projection writes the derived status. -/
theorem StatusSound.posted {l l' : InvoiceLedger} {invoice : Invoice} {event : InvoiceEvent Money}
    {payment : Option Payment} (h : StatusSound l) (hp : Posts l l' invoice event payment) :
    StatusSound l' := by
  refine ⟨h.toLedgerSound.posted hp, ?_⟩
  intro row hrow status hstatus
  rcases h.posted_row hp hrow with ⟨hne, hold⟩ | ⟨hid, -, -, hproject⟩
  · have hacc : l'.acc row.id = l.acc row.id := by
      unfold InvoiceLedger.acc InvoiceLedger.log
      rw [(hp.2.2.2.frame hne).1]
    rw [hacc] at hstatus
    exact h.agrees row hold status hstatus
  · obtain ⟨-, -, -, -, -, hprojected⟩ := Invoice.project?_eq_some hproject
    rw [← hid, hp.2.2.2.acc_self] at hstatus
    rw [hprojected]
    show (Acc.paymentStatus _).getD invoice.status = status
    rw [hstatus]
    rfl

/-- The log of an invoice on file holds a cancellation. -/
def CancelledFor (l : InvoiceLedger) (id : Uuid) : Prop :=
  (∃ invoice ∈ l.invoices.rows, invoice.id = id) ∧ (l.acc id).cancelled = true

theorem CancelledFor.posted {l l' : InvoiceLedger} {id : Uuid} {invoice : Invoice}
    {event : InvoiceEvent Money} {payment : Option Payment} (hc : CancelledFor l id)
    (h : LedgerSound l) (hp : Posts l l' invoice event payment) : CancelledFor l' id := by
  refine ⟨h.posted_kept hp hc.1, ?_⟩
  by_cases hid : event.invoiceId = id
  · subst hid
    rw [hp.2.2.2.acc_self]
    exact Acc.apply_cancelled hc.2
  · have hacc : l'.acc id = l.acc id := by
      unfold InvoiceLedger.acc InvoiceLedger.log
      rw [(hp.2.2.2.frame hid).1]
    rw [hacc]
    exact hc.2

theorem statusSound_kept : Kept statusPolicy StatusSound where
  created h hc := h.created hc
  sent h hget hdraft hp := h.sent hget hdraft hp
  patched h hget hpolicy hp := (h.patched_iff hget hp).mpr hpolicy
  posted h hp := h.posted hp
  paid h _ hp := h.posted hp

theorem cancelledFor_kept (id : Uuid) :
    Kept statusPolicy (fun l => StatusSound l ∧ CancelledFor l id) where
  created := by
    rintro l l' invoice ⟨h, hc⟩ hcreated
    refine ⟨h.created hcreated, hcreated.owner_kept hc.1, ?_⟩
    obtain ⟨i, hi, rfl⟩ := hc.1
    have hacc : l'.acc i.id = l.acc i.id := by
      unfold InvoiceLedger.acc InvoiceLedger.log
      rw [h.created_events hcreated, if_neg (hcreated.fresh i hi).symm]
    rw [hacc]
    exact hc.2
  sent := by
    rintro l l' id' invoice ⟨h, hc⟩ hget hdraft hp
    exact ⟨h.sent hget hdraft hp, hp.owner_kept hc.1, by rw [hp.acc_eq]; exact hc.2⟩
  patched := by
    rintro l l' id' invoice data ⟨h, hc⟩ hget hpolicy hp
    exact ⟨(h.patched_iff hget hp).mpr hpolicy, hp.owner_kept hc.1,
      by rw [hp.acc_eq]; exact hc.2⟩
  posted := by
    rintro l l' invoice event ⟨h, hc⟩ hp
    exact ⟨h.posted hp, hc.posted h.toLedgerSound hp⟩
  paid := by
    rintro l l' invoice event payment ⟨h, hc⟩ - hp
    exact ⟨h.posted hp, hc.posted h.toLedgerSound hp⟩

theorem statusSound_empty : StatusSound {} where
  toLedgerSound := ledgerSound_empty
  agrees _ h := by cases h

theorem StatusSound.matchesProjection {l : InvoiceLedger} (h : StatusSound l) {invoice : Invoice}
    (hmem : invoice ∈ l.invoices.rows) :
    matchesProjection (foldInvoiceEvents (l.listByInvoice invoice.id)) invoice = true := by
  have hmodel := h.readModel hmem
  have hstatus : (foldInvoiceEvents (l.listByInvoice invoice.id)).paymentStatus = none ∨
      (foldInvoiceEvents (l.listByInvoice invoice.id)).paymentStatus = some invoice.status := by
    rw [paymentStatus_fold (h.log invoice.id)]
    cases hderived : (l.acc invoice.id).paymentStatus with
    | none => exact .inl rfl
    | some status => exact .inr (congrArg some (h.agrees invoice hmem status hderived).symm)
  unfold Finguard.matchesProjection
  rw [decide_eq_true_eq]
  exact ⟨hmodel.amountPaid.symm, hmodel.amountCredited.symm, hmodel.balanceDue.symm, hstatus⟩

/-- As long as no patch contradicts the log, stored and derived status agree, and a
cancelled invoice stays cancelled. -/
theorem guarded_status_agrees {start db : Db} (hstart : start.toInvoiceLedger = {})
    (hrun : Runs.Reaches invoiceStep (Obeys statusPolicy) start db) :
    (∀ invoice ∈ db.invoices.rows, ∀ status,
      (foldInvoiceEvents (db.listByInvoice invoice.id)).paymentStatus = some status →
        invoice.status = status) ∧
    (∀ id faults r db', reconstructInvoice id faults db = .ok r db' →
      r.matchesProjection = true) ∧
    ∀ id user now faults r db' later, cancelInvoice id user now faults db = .ok r db' →
      Runs.Reaches invoiceStep (Obeys statusPolicy) db' later →
        ∃ invoice, later.getInvoice id = some invoice ∧ invoice.status = .cancelled := by
  have hsound : StatusSound db.toInvoiceLedger :=
    statusSound_kept.run (by rw [hstart]; exact statusSound_empty) hrun
  refine ⟨?_, ?_, ?_⟩
  · intro invoice hmem status hstatus
    rw [paymentStatus_fold (hsound.log invoice.id)] at hstatus
    exact hsound.agrees invoice hmem status hstatus
  · intro id faults r db' hok
    obtain ⟨invoice, hget, hmatches⟩ := reconstructInvoice_eq_ok hok
    obtain ⟨hmem, rfl⟩ := getInvoice_eq_some.mp hget
    rw [hmatches]
    exact hsound.matchesProjection hmem
  · intro id user now faults r db' later hcancel hlater
    obtain ⟨invoice, event, htype, rfl, hposts⟩ := cancelInvoice_eq_ok hcancel
    obtain ⟨hmem, hid⟩ := getInvoice_eq_some.mp hposts.1
    have hcancelled : CancelledFor db'.toInvoiceLedger event.invoiceId := by
      refine ⟨hsound.posted_kept hposts ⟨invoice, hmem, hid⟩, ?_⟩
      rw [hposts.2.2.2.acc_self]
      exact Acc.apply_invoiceCancelled htype
    obtain ⟨hsound', ⟨row, hrow, hrowid⟩, hstill⟩ :=
      (cancelledFor_kept event.invoiceId).run ⟨hsound.posted hposts, hcancelled⟩ hlater
    refine ⟨row, getInvoice_eq_some.mpr ⟨hrow, hrowid⟩, ?_⟩
    apply hsound'.agrees row hrow
    rw [hrowid]
    exact Acc.paymentStatus_cancelled hstill

end

def cancelledInvoice [Context] [Format] : Db :=
  (cancelInvoice 10 none 4).committed noFaults issuedInvoice

/-- Cancelled, then patched in its notes only. -/
theorem annotated_stays_cancelled :
    letI := Context.default
    letI := Format.plain
    ∃ later, cancelInvoice 10 none 4 noFaults issuedInvoice = .ok 10 cancelledInvoice ∧
      Runs.Reaches invoiceStep (Obeys statusPolicy) cancelledInvoice later ∧
      ∃ invoice, later.getInvoice 10 = some invoice ∧ invoice.status = .cancelled := by
  let := Context.default
  let := Format.plain
  have hrun : Runs.Reaches invoiceStep (Obeys statusPolicy) oneCustomer issuedInvoice :=
    .single ⟨(.createInvoice sampleInvoice 10 1, noFaults), trivial, rfl⟩
  have hcancel : cancelInvoice 10 none 4 noFaults issuedInvoice = .ok 10 cancelledInvoice :=
    eq_ok_committed (by decide +kernel)
  have hlater : Runs.Reaches invoiceStep (Obeys statusPolicy) cancelledInvoice _ :=
    .single ⟨(.updateInvoice 10 ⟨none, some "void", none⟩, noFaults), .inl rfl, rfl⟩
  exact ⟨_, hcancel, hlater, (guarded_status_agrees rfl hrun).2.2 _ _ _ _ _ _ _ hcancel hlater⟩

/-- A patch brings a cancelled invoice back to sent. -/
theorem patched_not_cancelled :
    letI := Context.default
    letI := Format.plain
    Runs.Reaches invoiceStep Runs.always oneCustomer issuedInvoice ∧
      cancelInvoice 10 none 4 noFaults issuedInvoice = .ok 10 cancelledInvoice ∧
      ∃ later, Runs.Reaches invoiceStep Runs.always cancelledInvoice later ∧
        (later.getInvoice 10).map Invoice.status = some .sent ∧
        (reconstructInvoice 10 noFaults later).value?.map
          InvoiceReconstruction.matchesProjection = some false := by
  let := Context.default
  let := Format.plain
  have hrun : Runs.Reaches invoiceStep Runs.always oneCustomer issuedInvoice :=
    .single ⟨(.createInvoice sampleInvoice 10 1, noFaults), trivial, rfl⟩
  have hlater : Runs.Reaches invoiceStep Runs.always cancelledInvoice _ :=
    .single ⟨(.updateInvoice 10 ⟨some .sent, none, none⟩, noFaults), trivial, rfl⟩
  exact ⟨hrun, eq_ok_committed (by decide +kernel), _, hlater, by decide +kernel,
    by decide +kernel⟩

end Finguard
