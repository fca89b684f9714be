import Finguard.Invoicing
import Finguard.Lib.Runs

/-! What a successful invoice request writes: one inversion lemma for each, in terms
of three moves on the ledger. -/

namespace Finguard
open Decimal Text Transaction Transaction.Tx

/-- The conditions under which a projection writes a snapshot. -/
def InvoiceLedger.SnapshotDue (l : InvoiceLedger) (id : Uuid) (state : InvoiceState) : Prop :=
  (state.eventCount ≠ 0 ∧ state.eventCount % snapshotInterval = 0) ∧
    (l.latestSnapshot id).all (fun snapshot => snapshot.sequence < state.sequence)

/-- A payment and the event that records it carry one amount; no other event has a
payment. -/
def Backed (event : InvoiceEvent Money) : Option Payment → Prop
  | none => event.eventType ≠ .paymentApplied
  | some payment => event.eventType = .paymentApplied ∧ payment.amount = event.amount ∧
      payment.invoiceId = event.invoiceId

/-- No event but a cancellation moves more than the balance or a negative amount. -/
def Within (invoice : Invoice) (event : InvoiceEvent Money) : Prop :=
  event.eventType ≠ .invoiceIssued ∧ (event.eventType = .invoiceCancelled ∨
    0 ≤ event.amount.units ∧ event.amount.units ≤ invoice.balanceDue.units)

theorem createPayment_eq_some {db db' : Db} {id invoiceId : Uuid} {amount : ℚ} {vault : VaultType}
    {note : Option String} {date : DateTime} {user mpesa bank : Option Uuid}
    (h : db.createPayment id invoiceId amount vault note date user mpesa bank = some db') :
    ∃ stored payments, Numeric.store? 18 2 amount = some stored ∧
      db.payments.insert? ⟨id, invoiceId, stored, vault, note, date, user, mpesa, bank⟩ =
        some payments ∧
      db' = { db with payments } := by
  simp only [Db.createPayment, Option.bind_eq_bind, Option.bind_eq_some_iff] at h
  obtain ⟨stored, hstored, _, _, h⟩ := h
  split at h
  · simp only [Option.bind_eq_some_iff] at h
    obtain ⟨payments, hins, hdb⟩ := h
    exact ⟨stored, payments, hstored, hins, (Option.some.inj hdb).symm⟩
  · cases h

theorem enqueueEmail_eq_ok {toEmail toName : Option String} {subject template : String}
    {context : List (String × Option String)} {key : String} {faults : Faults Site ServiceError}
    {db db' : Db} {b : Bool}
    (h : enqueueEmail toEmail toName subject template context key faults db = .ok b db') :
    ∃ emailOutbox, db' = { db with emailOutbox } := by
  unfold enqueueEmail at h
  split at h
  · simp only [pure_apply, Outcome.ok.injEq] at h
    exact ⟨_, h.2.symm⟩
  · split at h
    · simp only [pure_apply, Outcome.ok.injEq] at h
      exact ⟨_, h.2.symm⟩
    · simp only [bind_eq_ok, read_apply, flush_eq_ok, pure_apply, Outcome.ok.injEq,
        Option.some.injEq] at h
      obtain ⟨_, _, ⟨-, rfl⟩, _, _, ⟨-, rfl⟩, -, rfl⟩ := h
      unfold Db.enqueue
      split
      · exact ⟨_, rfl⟩
      · exact ⟨_, rfl⟩

namespace Db

def settledMpesa (db : Db) (id : Option Uuid) : Db :=
  match id with
  | none => db
  | some id => db.markMpesaReconciled id

def settledBankLine (db : Db) (id : Option Uuid) : Db :=
  match id with
  | none => db
  | some id => db.markBankLineReconciled id

@[simp] theorem settledMpesa_ledger (db : Db) (id : Option Uuid) :
    (db.settledMpesa id).toInvoiceLedger = db.toInvoiceLedger := by cases id <;> rfl

@[simp] theorem settledBankLine_ledger (db : Db) (id : Option Uuid) :
    (db.settledBankLine id).toInvoiceLedger = db.toInvoiceLedger := by cases id <;> rfl

end Db

section
variable [Context] [Format]

namespace InvoiceLedger

/-- The fold from the latest snapshot, when that snapshot can be read. -/
def derived? (l : InvoiceLedger) (id : Uuid) : Option InvoiceState :=
  match l.latestSnapshot id with
  | none => some (foldInvoiceEvents (l.listByInvoice id))
  | some snapshot => (InvoiceState.fromSnapshot snapshot.state).map
      (fun base => foldFromSnapshot base (l.listAfterSequence id snapshot.sequence))

/-- The log is unchanged; the row takes the derived state and a snapshot is written
if one is due. -/
structure Projected (l l' : InvoiceLedger) (id : Uuid) (state : InvoiceState) : Prop where
  derived : l.derived? id = some state
  row : l.invoices.update? (·.id == id) (Invoice.project? state)
    (fun _ _ => Invoice.project?_clash) = some l'.invoices
  events : l'.invoiceEvents = l.invoiceEvents
  payments : l'.payments = l.payments
  kept : ¬ l.SnapshotDue id state → l'.invoiceSnapshots = l.invoiceSnapshots
  taken : l.SnapshotDue id state → l.invoiceSnapshots.insert?
    ⟨id, state.sequence, state.toSnapshot⟩ = some l'.invoiceSnapshots

/-- One event joins the log, with the payment that backs it if there is one, and the
row is projected again. -/
structure Posted (l l' : InvoiceLedger) (event : InvoiceEvent Money) (payment : Option Payment) :
    Prop where
  sequence : event.sequence = l.nextSequence event.invoiceId
  appended : ∃ log state, l.invoiceEvents.insert? event = some log ∧
    Projected { l with invoiceEvents := log, payments := l'.payments } l' event.invoiceId state
  payments : match payment with
    | none => l'.payments = l.payments
    | some payment => l.payments.insert? payment = some l'.payments

/-- A new invoice starts its log with the event that issues it. -/
structure Created (l l' : InvoiceLedger) (invoice : Invoice) : Prop where
  row : l.invoices.insert? invoice = some l'.invoices
  events : l.invoiceEvents.insert?
    ⟨invoice.id, 1, .invoiceIssued, invoice.total, invoice.createdAt, none⟩ = some l'.invoiceEvents
  snapshots : l'.invoiceSnapshots = l.invoiceSnapshots
  payments : l'.payments = l.payments
  draft : invoice.status = .draft
  unpaid : invoice.amountPaid.units = 0
  uncredited : invoice.amountCredited.units = 0
  owed : invoice.balanceDue = invoice.total
  total_nonneg : 0 ≤ invoice.total.units

/-- A direct write of the columns that no event derives. -/
structure Patched (l l' : InvoiceLedger) (id : Uuid) (data : InvoiceUpdate) : Prop where
  row : l'.invoices =
    l.invoices.update (·.id == id) (Invoice.patch data) (Invoice.patch_clash data)
  events : l'.invoiceEvents = l.invoiceEvents
  snapshots : l'.invoiceSnapshots = l.invoiceSnapshots
  payments : l'.payments = l.payments

end InvoiceLedger

open InvoiceLedger

theorem deriveState_eq_ok {id : Uuid} {faults : Faults Site ServiceError} {db db' : Db}
    {state : InvoiceState} (h : deriveState id faults db = .ok state db') :
    db' = db ∧ db.derived? id = some state := by
  simp only [deriveState, bind_eq_ok, select_eq_ok] at h
  obtain ⟨snapshot, db₁, ⟨-, hsnap, rfl⟩, h⟩ := h
  cases snapshot with
  | none =>
    simp only [bind_eq_ok, select_eq_ok, pure_apply, Outcome.ok.injEq] at h
    obtain ⟨events, db₂, ⟨-, rfl, rfl⟩, rfl, rfl⟩ := h
    refine ⟨rfl, ?_⟩
    rw [derived?, hsnap]
  | some snapshot =>
    simp only [bind_eq_ok, select_eq_ok, getOrRaise_eq_ok, pure_apply, Outcome.ok.injEq] at h
    obtain ⟨base, db₂, ⟨hbase, rfl⟩, tail, db₃, ⟨-, rfl, rfl⟩, rfl, rfl⟩ := h
    refine ⟨rfl, ?_⟩
    simp only [derived?, hsnap, hbase, Option.map_some]

omit [Context] in
theorem maybeSnapshot_eq_ok {id : Uuid} {state : InvoiceState} {faults : Faults Site ServiceError}
    {db db' : Db} {u : Unit} (h : maybeSnapshot id state faults db = .ok u db') :
    (¬ db.SnapshotDue id state ∧ db' = db) ∨
      (db.SnapshotDue id state ∧ ∃ snapshots,
        db.invoiceSnapshots.insert? ⟨id, state.sequence, state.toSnapshot⟩ = some snapshots ∧
        db' = { db with invoiceSnapshots := snapshots }) := by
  unfold maybeSnapshot at h
  by_cases hc : state.eventCount = 0 ∨ state.eventCount % snapshotInterval ≠ 0
  · rw [if_pos hc] at h
    simp only [pure_apply, Outcome.ok.injEq] at h
    refine .inl ⟨?_, h.2.symm⟩
    intro hdue
    rcases hc with hc | hc
    · exact hdue.1.1 hc
    · exact hc hdue.1.2
  · rw [if_neg hc] at h
    simp only [bind_eq_ok, select_eq_ok] at h
    obtain ⟨latest, db₁, ⟨-, hlatest, rfl⟩, h⟩ := h
    have hc' : state.eventCount ≠ 0 ∧ state.eventCount % snapshotInterval = 0 := by
      constructor
      · intro hz
        exact hc (.inl hz)
      · by_contra hm
        exact hc (.inr hm)
    by_cases hall : latest.all (fun snapshot => snapshot.sequence < state.sequence)
    · rw [if_pos hall] at h
      simp only [flush_eq_ok, Db.createSnapshot, Option.bind_eq_bind, Option.bind_eq_some_iff] at h
      obtain ⟨-, _, _, snapshots, hins, hdb⟩ := h
      exact .inr ⟨⟨hc', hlatest ▸ hall⟩, snapshots, hins, (Option.some.inj hdb).symm⟩
    · rw [if_neg hall] at h
      simp only [pure_apply, Outcome.ok.injEq] at h
      refine .inl ⟨?_, h.2.symm⟩
      intro hdue
      exact hall (hlatest ▸ hdue.2)

theorem projectInvoiceFromEvents_eq_ok {id : Uuid} {faults : Faults Site ServiceError} {db db' : Db}
    {state : InvoiceState} (h : projectInvoiceFromEvents id faults db = .ok state db') :
    ∃ l', Projected db.toInvoiceLedger l' id state ∧ db' = { db with toInvoiceLedger := l' } := by
  simp only [projectInvoiceFromEvents, bind_eq_ok, write_eq_ok, pure_apply, Outcome.ok.injEq] at h
  obtain ⟨s, db₁, hderive, _, db₂, hrow, _, db₃, hsnap, rfl, rfl⟩ := h
  obtain ⟨rfl, hderived⟩ := deriveState_eq_ok hderive
  simp only [Db.projectInvoice, Option.bind_eq_bind, Option.bind_eq_some_iff] at hrow
  obtain ⟨invoices, hinv, hdb⟩ := hrow
  obtain rfl := Option.some.inj hdb
  -- the row is not among what decides whether a snapshot is due
  rcases maybeSnapshot_eq_ok hsnap with ⟨hdue, rfl⟩ | ⟨hdue, snapshots, hins, rfl⟩
  · exact ⟨{ db₁.toInvoiceLedger with invoices },
      ⟨hderived, hinv, rfl, rfl, fun _ => rfl, fun hd => absurd hd hdue⟩, rfl⟩
  · exact ⟨{ db₁.toInvoiceLedger with invoices, invoiceSnapshots := snapshots },
      ⟨hderived, hinv, rfl, rfl, fun hd => absurd hdue hd, fun _ => hins⟩, rfl⟩

theorem appendAndProject_eq_ok {id : Uuid} {eventType : InvoiceEventType} {amount : ℚ}
    {occurredAt : DateTime} {recordedBy : Option Uuid} {faults : Faults Site ServiceError}
    {db db' : Db} {u : Unit}
    (h : appendAndProject id eventType amount occurredAt recordedBy faults db = .ok u db') :
    ∃ stored l', Numeric.store? 18 2 amount = some stored ∧
      Posted db.toInvoiceLedger l'
        ⟨id, db.nextSequence id, eventType, stored, occurredAt, recordedBy⟩ none ∧
      db' = { db with toInvoiceLedger := l' } := by
  simp only [appendAndProject, bind_eq_ok, select_eq_ok, flush_eq_ok, pure_apply,
    Outcome.ok.injEq] at h
  obtain ⟨sequence, db₁, ⟨-, rfl, rfl⟩, _, db₂, ⟨-, hevent⟩, state, db₃, hproj, -, rfl⟩ := h
  simp only [Db.appendEvent, Option.bind_eq_bind, Option.bind_eq_some_iff] at hevent
  obtain ⟨stored, hstored, _, _, log, hlog, hdb⟩ := hevent
  obtain rfl := Option.some.inj hdb
  obtain ⟨l', hl', rfl⟩ := projectInvoiceFromEvents_eq_ok hproj
  refine ⟨stored, l', hstored, ⟨rfl, ⟨log, state, hlog, ?_⟩, hl'.payments⟩, rfl⟩
  rw [hl'.payments]
  exact hl'

/-- What every posting request does to the ledger. -/
def Posts (l l' : InvoiceLedger) (invoice : Invoice) (event : InvoiceEvent Money)
    (payment : Option Payment) : Prop :=
  l.getInvoice event.invoiceId = some invoice ∧ Within invoice event ∧ Backed event payment ∧
    Posted l l' event payment

theorem InvoiceLedger.Posted.with_payment {l l' : InvoiceLedger} {event : InvoiceEvent Money} {payment : Payment}
    {payments : Table Payment} (hp : l.payments.insert? payment = some payments)
    (h : Posted { l with payments } l' event none) : Posted l l' event (some payment) := by
  refine ⟨h.sequence, h.appended, ?_⟩
  show l.payments.insert? payment = some l'.payments
  rw [hp]
  exact congrArg some h.payments.symm

omit [Context] in
theorem enqueuePaymentReceipt_eq_ok {invoice : Invoice} {paymentId : Uuid} {amount : ℚ}
    {vault : VaultType} {faults : Faults Site ServiceError} {db db' : Db} {u : Unit}
    (h : enqueuePaymentReceipt invoice paymentId amount vault faults db = .ok u db') :
    ∃ emailOutbox, db' = { db with emailOutbox } := by
  simp only [enqueuePaymentReceipt, bind_eq_ok, select_eq_ok, pure_apply, Outcome.ok.injEq] at h
  obtain ⟨_, db₁, ⟨-, -, rfl⟩, _, db₂, hmail, -, rfl⟩ := h
  exact enqueueEmail_eq_ok hmail

/-- Recording a payment for `amount` and appending its event is one posting. -/
theorem payment_posts {id invoiceId : Uuid} {amount : ℚ} {vault : VaultType} {note : Option String}
    {date : DateTime} {user mpesa bank : Option Uuid} {invoice : Invoice}
    {faults : Faults Site ServiceError} {db db₁ db' : Db} {u : Unit}
    (hinvoice : db.getInvoice invoiceId = some invoice) (hpos : 0 < amount)
    (hle : amount ≤ invoice.balanceDue.val)
    (hpay : db.createPayment id invoiceId amount vault note date user mpesa bank = some db₁)
    (hpost : appendAndProject invoiceId .paymentApplied amount date user faults db₁ = .ok u db') :
    ∃ l' event payment, Posts db.toInvoiceLedger l' invoice event (some payment) ∧
      event.invoiceId = invoiceId ∧ event.eventType = .paymentApplied ∧
      Numeric.store? 18 2 amount = some event.amount ∧
      payment.mpesaTransId = mpesa ∧ payment.bankLineId = bank ∧
      db' = { db with toInvoiceLedger := l' } := by
  obtain ⟨stored, payments, hstored, hins, rfl⟩ := createPayment_eq_some hpay
  obtain ⟨stored', l', hstored', hposted, rfl⟩ := appendAndProject_eq_ok hpost
  obtain rfl : stored = stored' := Option.some.inj (hstored.symm.trans hstored')
  have hwithin : 0 ≤ stored.units ∧ stored.units ≤ invoice.balanceDue.units :=
    ⟨Numeric.units_nonneg_of_store hpos.le hstored, Numeric.units_le_of_store hle hstored⟩
  exact ⟨l', _, _, ⟨hinvoice, ⟨by simp, .inr hwithin⟩, ⟨rfl, rfl, rfl⟩, hposted.with_payment hins⟩,
    rfl, rfl, hstored, rfl, rfl, rfl⟩

omit [Format] in
theorem createInvoice_eq_ok {data : InvoiceCreate} {id : Uuid} {createdAt : DateTime}
    {faults : Faults Site ServiceError} {db db' : Db} {r : Uuid}
    (h : createInvoice data id createdAt faults db = .ok r db') :
    ∃ invoice, Created db.toInvoiceLedger db'.toInvoiceLedger invoice := by
  simp only [createInvoice, bind_eq_ok, select_eq_ok, raiseIf_eq_ok, flush_eq_ok, assign_apply,
    commit, site_eq_ok, pure_apply, Outcome.ok.injEq] at h
  obtain ⟨_, _, ⟨-, -, rfl⟩, _, _, ⟨-, rfl⟩, _, db₁, ⟨-, hrow⟩, _, db₂, ⟨-, hevent⟩, _, _,
    ⟨-, rfl⟩, _, _, ⟨-, rfl⟩, -, rfl⟩ := h
  simp only [Db.insertInvoice, Option.bind_eq_bind, Option.bind_eq_some_iff] at hrow
  obtain ⟨subtotal, -, tax, -, total, htotal, _, -, invoices, hinv, hdb⟩ := hrow
  obtain rfl := Option.some.inj hdb
  simp only [Db.appendEvent, Option.bind_eq_bind, Option.bind_eq_some_iff] at hevent
  obtain ⟨total', htotal', _, -, log, hlog, hdb⟩ := hevent
  obtain rfl := Option.some.inj hdb
  -- the row and the event store the same sum
  obtain rfl : total = total' := Option.some.inj (htotal.symm.trans htotal')
  have hnonneg : 0 ≤ total.units :=
    Numeric.units_nonneg_of_store (Decimal.add_nonneg data.subtotal_pos.le data.tax_nonneg) htotal
  exact ⟨_, ⟨hinv, hlog, rfl, rfl, rfl, rfl, rfl, rfl, hnonneg⟩⟩

omit [Context] in
theorem sendInvoice_eq_ok {id : Uuid} {faults : Faults Site ServiceError} {db db' : Db} {r : Uuid}
    (h : sendInvoice id faults db = .ok r db') :
    ∃ invoice, db.getInvoice id = some invoice ∧ invoice.status = .draft ∧
      Patched db.toInvoiceLedger db'.toInvoiceLedger id ⟨some .sent, none, none⟩ := by
  simp only [sendInvoice, bind_eq_ok, select_eq_ok, getOrRaise_eq_ok, raiseIf_eq_ok, flush_eq_ok,
    commit, site_eq_ok, pure_apply, Outcome.ok.injEq, Option.some.injEq, not_not] at h
  obtain ⟨_, _, ⟨-, rfl, rfl⟩, invoice, _, ⟨hget, rfl⟩, _, _, ⟨hdraft, rfl⟩, _, _, ⟨-, rfl⟩,
    _, _, ⟨-, -, rfl⟩, _, _, hmail, _, _, ⟨-, rfl⟩, -, rfl⟩ := h
  obtain ⟨_, rfl⟩ := enqueueEmail_eq_ok hmail
  exact ⟨invoice, hget, hdraft, ⟨rfl, rfl, rfl, rfl⟩⟩

omit [Context] [Format] in
theorem updateInvoice_eq_ok {id : Uuid} {data : InvoiceUpdate} {faults : Faults Site ServiceError}
    {db db' : Db} {r : Uuid} (h : updateInvoice id data faults db = .ok r db') :
    ∃ invoice, db.getInvoice id = some invoice ∧
      Patched db.toInvoiceLedger db'.toInvoiceLedger id data := by
  simp only [updateInvoice, bind_eq_ok, select_eq_ok, getOrRaise_eq_ok, flush_eq_ok, commit,
    site_eq_ok, pure_apply, Outcome.ok.injEq, Option.some.injEq] at h
  obtain ⟨_, _, ⟨-, rfl, rfl⟩, invoice, _, ⟨hget, rfl⟩, _, _, ⟨-, rfl⟩, _, _, ⟨-, rfl⟩, -, rfl⟩ := h
  exact ⟨invoice, hget, ⟨rfl, rfl, rfl, rfl⟩⟩

theorem markInvoicePaid_eq_ok {id : Uuid} {user : Option Uuid} {vault : VaultType}
    {note : Option String} {paymentId : Uuid} {now : DateTime} {faults : Faults Site ServiceError}
    {db db' : Db} {r : Uuid}
    (h : markInvoicePaid id user vault note paymentId now faults db = .ok r db') :
    ∃ invoice, db.getInvoice id = some invoice ∧
      (db' = db ∨ 0 < invoice.balanceDue.units ∧ ∃ event payment,
        Posts db.toInvoiceLedger db'.toInvoiceLedger invoice event (some payment) ∧
        event.invoiceId = id ∧ event.amount = invoice.balanceDue) := by
  simp only [markInvoicePaid, bind_eq_ok, select_eq_ok, getOrRaise_eq_ok, commit, site_eq_ok,
    pure_apply, Outcome.ok.injEq] at h
  obtain ⟨_, _, ⟨-, rfl, rfl⟩, invoice, _, ⟨hget, rfl⟩, _, db₁, hsettle, _, _, ⟨-, rfl⟩, _, _,
    ⟨-, rfl⟩, -, rfl⟩ := h
  refine ⟨invoice, hget, ?_⟩
  have hid : invoice.id = id := by simpa using Table.of_find? hget
  simp only [settleRemaining] at hsettle
  split at hsettle
  · rename_i hpos
    simp only [bind_eq_ok, flush_eq_ok] at hsettle
    obtain ⟨_, db₂, ⟨-, hpay⟩, hpost⟩ := hsettle
    obtain ⟨l', event, payment, hposts, hevent, -, hstored, -, -, rfl⟩ :=
      payment_posts (by rw [hid]; exact hget) hpos le_rfl hpay hpost
    rw [Numeric.store?_val] at hstored
    exact .inr ⟨by simpa [Numeric.val] using hpos, event, payment, hposts, hevent.trans hid,
      (Option.some.inj hstored).symm⟩
  · simp only [pure_apply, Outcome.ok.injEq] at hsettle
    exact .inl hsettle.2.symm

theorem applyCreditNote_eq_ok {id : Uuid} {amount : ℚ} {user : Option Uuid} {now : DateTime}
    {faults : Faults Site ServiceError} {db db' : Db} {r : Uuid}
    (h : applyCreditNote id amount user now faults db = .ok r db') :
    ∃ invoice event, invoice.status ≠ .cancelled ∧
      Posts db.toInvoiceLedger db'.toInvoiceLedger invoice event none := by
  simp only [applyCreditNote, bind_eq_ok, select_eq_ok, getOrRaise_eq_ok, raiseIf_eq_ok, commit,
    site_eq_ok, pure_apply, Outcome.ok.injEq, not_le, not_lt] at h
  obtain ⟨_, _, ⟨hpos, rfl⟩, _, _, ⟨-, rfl, rfl⟩, invoice, _, ⟨hget, rfl⟩, _, _, ⟨hopen, rfl⟩, _, _,
    ⟨hle, rfl⟩, _, _, hpost, _, _, ⟨-, rfl⟩, _, _, ⟨-, rfl⟩, -, rfl⟩ := h
  obtain ⟨stored, l', hstored, hposted, rfl⟩ := appendAndProject_eq_ok hpost
  have hwithin : 0 ≤ stored.units ∧ stored.units ≤ invoice.balanceDue.units :=
    ⟨Numeric.units_nonneg_of_store hpos.le hstored, Numeric.units_le_of_store hle hstored⟩
  exact ⟨invoice, _, hopen, hget, ⟨by simp, .inr hwithin⟩, by simp [Backed], hposted⟩

theorem cancelInvoice_eq_ok {id : Uuid} {user : Option Uuid} {now : DateTime}
    {faults : Faults Site ServiceError} {db db' : Db} {r : Uuid}
    (h : cancelInvoice id user now faults db = .ok r db') :
    ∃ invoice event, event.eventType = .invoiceCancelled ∧ event.invoiceId = id ∧
      Posts db.toInvoiceLedger db'.toInvoiceLedger invoice event none := by
  simp only [cancelInvoice, bind_eq_ok, select_eq_ok, getOrRaise_eq_ok, raiseIf_eq_ok, commit,
    site_eq_ok, pure_apply, Outcome.ok.injEq] at h
  obtain ⟨_, _, ⟨-, rfl, rfl⟩, invoice, _, ⟨hget, rfl⟩, _, _, ⟨-, rfl⟩, _, _, ⟨-, rfl⟩, _, _, hpost,
    _, _, ⟨-, rfl⟩, _, _, ⟨-, rfl⟩, -, rfl⟩ := h
  obtain ⟨stored, l', -, hposted, rfl⟩ := appendAndProject_eq_ok hpost
  exact ⟨invoice, _, rfl, rfl, hget, ⟨by simp, .inl rfl⟩, by simp [Backed], hposted⟩

theorem recordCashPayment_eq_ok {data : PaymentCreate} {user paymentId : Uuid}
    {faults : Faults Site ServiceError} {db db' : Db} {r : Uuid}
    (h : recordCashPayment data user paymentId faults db = .ok r db') :
    ∃ invoice event payment, event.invoiceId = data.invoiceId ∧
      Numeric.store? 18 2 data.amount = some event.amount ∧
      Posts db.toInvoiceLedger db'.toInvoiceLedger invoice event (some payment) := by
  simp only [recordCashPayment, bind_eq_ok, select_eq_ok, getOrRaise_eq_ok, raiseIf_eq_ok,
    flush_eq_ok, currentInvoice, storedAmount, read_apply, assign_apply, commit, site_eq_ok,
    pure_apply, Outcome.ok.injEq, not_lt] at h
  obtain ⟨_, _, ⟨-, rfl, rfl⟩, invoice, _, ⟨hget, rfl⟩, _, _, ⟨hle, rfl⟩, _, db₁, ⟨-, hpay⟩, _, db₂,
    hpost, _, _, ⟨-, rfl⟩, _, _, ⟨-, rfl⟩, _, _, ⟨-, rfl⟩, _, _, hmail, _, _, ⟨-, rfl⟩, -, rfl⟩ := h
  obtain ⟨l', event, payment, hposts, hid, -, hstored, -, -, rfl⟩ :=
    payment_posts hget data.amount_pos hle hpay hpost
  obtain ⟨_, rfl⟩ := enqueuePaymentReceipt_eq_ok hmail
  exact ⟨invoice, event, payment, hid, hstored, hposts⟩

omit [Context] [Format] in
theorem markMpesaReconciled_eq_ok {id : Option Uuid} {faults : Faults Site ServiceError}
    {db db' : Db} {u : Unit} (h : markMpesaReconciled id faults db = .ok u db') :
    db' = db.settledMpesa id := by
  cases id with
  | none => exact ((Outcome.ok.inj h).2).symm
  | some id =>
    simp only [markMpesaReconciled, flush_eq_ok, Option.some.injEq] at h
    exact h.2.symm

omit [Context] [Format] in
theorem markBankLineReconciled_eq_ok {id : Option Uuid} {faults : Faults Site ServiceError}
    {db db' : Db} {u : Unit} (h : markBankLineReconciled id faults db = .ok u db') :
    db' = db.settledBankLine id := by
  cases id with
  | none => exact ((Outcome.ok.inj h).2).symm
  | some id =>
    simp only [markBankLineReconciled, flush_eq_ok, Option.some.injEq] at h
    exact h.2.symm

/-- A settlement is applied to what the invoice can absorb, or not at all. -/
theorem applyReconciledPayment_eq_ok {data : ReconciledPayment} {faults : Faults Site ServiceError}
    {db db' : Db} {r : Option Uuid} (h : applyReconciledPayment data faults db = .ok r db') :
    ∃ invoice, db.getInvoice data.invoiceId = some invoice ∧
      ((r = none ∧ db' = db) ∨ (r = some data.paymentId ∧ ∃ l' event payment outbox emails,
        Posts db.toInvoiceLedger l' invoice event (some payment) ∧
        event.invoiceId = data.invoiceId ∧
        Numeric.store? 18 2 (min data.amount invoice.balanceDue.val) = some event.amount ∧
        payment.mpesaTransId = data.mpesaTransId ∧ payment.bankLineId = data.bankLineId ∧
        db' = { ((({ db with toInvoiceLedger := l' } : Db).settledMpesa
          data.mpesaTransId).settledBankLine data.bankLineId) with
          outboxEvents := outbox, emailOutbox := emails })) := by
  simp only [applyReconciledPayment, bind_eq_ok, select_eq_ok, getOrRaise_eq_ok] at h
  obtain ⟨_, _, ⟨-, rfl, rfl⟩, invoice, _, ⟨hget, rfl⟩, h⟩ := h
  refine ⟨invoice, hget, ?_⟩
  split at h
  · simp only [pure_apply, Outcome.ok.injEq] at h
    exact .inl ⟨h.1.symm, h.2.symm⟩
  · rename_i happlied
    simp only [recordReconciled, bind_eq_ok, flush_eq_ok, currentInvoice, storedAmount, read_apply,
      assign_apply, pure_apply, Outcome.ok.injEq] at h
    obtain ⟨_, db₀, ⟨_, db₁, ⟨-, hpay⟩, _, db₂, hpost, _, db₃, hmpesa, _, db₄, hbank, _, _,
      ⟨-, rfl⟩, _, _, ⟨-, rfl⟩, _, _, ⟨-, rfl⟩, hmail⟩, rfl, rfl⟩ := h
    obtain ⟨l', event, payment, hposts, hid, -, hstored, hm, hb, rfl⟩ :=
      payment_posts hget (not_le.mp happlied) (min_le_right _ _) hpay hpost
    obtain rfl := markMpesaReconciled_eq_ok hmpesa
    obtain rfl := markBankLineReconciled_eq_ok hbank
    obtain ⟨emails, rfl⟩ := enqueuePaymentReceipt_eq_ok hmail
    exact .inr ⟨rfl, l', event, payment, _, emails, hposts, hid, hstored, hm, hb, rfl⟩

end

end Finguard
