import Finguard.Lib.Counted
import Finguard.Model

/-! The invoice service: every request as one transaction over the database. -/

namespace Finguard
open Decimal Text Transaction Transaction.Tx

/-! Requests, with the bounds that their schemas check. -/

structure InvoiceCreate where
  customerId : Uuid
  invoiceNumber : String
  subtotal : ℚ
  tax : ℚ
  currency : String
  dueDate : Option DateTime
  notes : Option String
  subtotal_pos : 0 < subtotal
  tax_nonneg : 0 ≤ tax

structure InvoiceUpdate where
  status : Option InvoiceStatus
  notes : Option String
  paidAt : Option DateTime

structure PaymentCreate where
  invoiceId : Uuid
  amount : ℚ
  referenceNote : Option String
  paymentDate : DateTime
  amount_pos : 0 < amount

/-- A settlement that reconciliation matched to an invoice. -/
structure ReconciledPayment where
  invoiceId : Uuid
  amount : ℚ
  vault : VaultType
  occurredAt : DateTime
  mpesaTransId : Option Uuid
  bankLineId : Option Uuid
  paymentId : Uuid

/-! Queries. -/

namespace InvoiceLedger

def getInvoice (l : InvoiceLedger) (id : Uuid) : Option Invoice := l.invoices.find? (·.id == id)

def getByNumber (l : InvoiceLedger) (number : String) : Option Invoice :=
  l.invoices.find? (·.invoiceNumber == number)

def eventsOf (l : InvoiceLedger) (id : Uuid) : List (InvoiceEvent Money) :=
  l.invoiceEvents.filter (·.invoiceId == id)

def nextSequence (l : InvoiceLedger) (id : Uuid) : ℤ :=
  (((l.eventsOf id).map InvoiceEvent.sequence).max?).getD 0 + 1

def listByInvoice (l : InvoiceLedger) (id : Uuid) : List (InvoiceEvent ℚ) :=
  sortBySequence ((l.eventsOf id).map InvoiceEvent.load)

def listAfterSequence (l : InvoiceLedger) (id : Uuid) (sequence : ℤ) : List (InvoiceEvent ℚ) :=
  sortBySequence (((l.eventsOf id).map InvoiceEvent.load).filter (sequence < ·.sequence))

def snapshotsOf (l : InvoiceLedger) (id : Uuid) : List InvoiceSnapshot :=
  l.invoiceSnapshots.filter (·.invoiceId == id)

def latestSnapshot (l : InvoiceLedger) (id : Uuid) : Option InvoiceSnapshot :=
  latestBy InvoiceSnapshot.sequence (l.snapshotsOf id)

def paymentsOf (l : InvoiceLedger) (id : Uuid) : List Payment :=
  l.payments.filter (·.invoiceId == id)

end InvoiceLedger

/-! Writes. Each is refused when a value does not fit its column or a constraint
is violated. -/

namespace Db

def insertInvoice (db : Db) (id : Uuid) (data : InvoiceCreate) (total : ℚ) (createdAt : DateTime) :
    Option Db := do
  let subtotal ← Numeric.store? 18 2 data.subtotal
  let tax ← Numeric.store? 18 2 data.tax
  let total ← Numeric.store? 18 2 total
  let _ ← db.customers.find? (·.id == data.customerId)
  let invoices ← db.invoices.insert? {
    id
    customerId := data.customerId
    invoiceNumber := data.invoiceNumber
    status := .draft
    subtotal
    tax
    total
    amountPaid := default
    amountCredited := default
    balanceDue := total
    currency := data.currency
    dueDate := data.dueDate
    paidAt := none
    notes := data.notes
    createdAt
    balanceConsistent := by simp [default] }
  return { db with invoices }

def appendEvent (db : Db) (event : InvoiceEvent ℚ) : Option Db := do
  let amount ← Numeric.store? 18 2 event.amount
  let _ ← db.getInvoice event.invoiceId
  let invoiceEvents ← db.invoiceEvents.insert? { event with amount }
  return { db with invoiceEvents }

end Db

def Invoice.project? (state : InvoiceState) (invoice : Invoice) : Option Invoice := do
  let amountPaid ← Numeric.store? 18 2 state.amountPaid
  let amountCredited ← Numeric.store? 18 2 state.credited
  let balanceDue ← Numeric.store? 18 2 state.balanceDue
  if h : balanceDue.units = invoice.total.units - amountCredited.units - amountPaid.units then
    some { invoice with
      amountPaid
      amountCredited
      balanceDue
      status := state.paymentStatus.getD invoice.status
      paidAt := if state.paymentStatus.isSome then state.paidAt else invoice.paidAt
      balanceConsistent := h }
  else none

def Invoice.patch (data : InvoiceUpdate) (invoice : Invoice) : Invoice :=
  { invoice with
    status := data.status.getD invoice.status
    notes := data.notes.orElse (fun _ => invoice.notes)
    paidAt := data.paidAt.orElse (fun _ => invoice.paidAt) }

theorem Invoice.patch_clash (data : InvoiceUpdate) (a b : Invoice) :
    Row.clash (a.patch data) b = Row.clash a b := rfl

theorem Invoice.project?_clash {state : InvoiceState} {a a' : Invoice}
    (h : a.project? state = some a') (b : Invoice) : Row.clash a' b = Row.clash a b := by
  simp only [Invoice.project?, Option.bind_eq_bind, Option.bind_eq_some_iff] at h
  obtain ⟨_, _, _, _, _, _, h⟩ := h
  split at h
  · obtain rfl := Option.some.inj h
    rfl
  · cases h

namespace Db

def projectInvoice (db : Db) (id : Uuid) (state : InvoiceState) : Option Db := do
  let invoices ← db.invoices.update? (·.id == id) (Invoice.project? state)
    (fun _ _ => Invoice.project?_clash)
  return { db with invoices }

def patchInvoice (db : Db) (id : Uuid) (data : InvoiceUpdate) : Db :=
  { db with
    invoices := db.invoices.update (·.id == id) (Invoice.patch data) (Invoice.patch_clash data) }

def createSnapshot (db : Db) (snapshot : InvoiceSnapshot) : Option Db := do
  let _ ← db.getInvoice snapshot.invoiceId
  let invoiceSnapshots ← db.invoiceSnapshots.insert? snapshot
  return { db with invoiceSnapshots }

def createPayment (db : Db) (id invoiceId : Uuid) (amount : ℚ) (vault : VaultType)
    (referenceNote : Option String) (paymentDate : DateTime) (recordedBy : Option Uuid)
    (mpesaTransId bankLineId : Option Uuid) : Option Db := do
  let amount ← Numeric.store? 18 2 amount
  -- foreign keys
  let _ ← db.getInvoice invoiceId
  if mpesaTransId.all (fun t => (db.mpesaTransactions.find? (·.id == t)).isSome) &&
      bankLineId.all (fun t => (db.bankStatementLines.find? (·.id == t)).isSome) then
    let payments ← db.payments.insert?
      ⟨id, invoiceId, amount, vault, referenceNote, paymentDate, recordedBy, mpesaTransId, bankLineId⟩
    return { db with payments }
  else none

def markMpesaReconciled (db : Db) (id : Uuid) : Db :=
  { db with
    mpesaTransactions := db.mpesaTransactions.update (·.id == id)
      (fun t => { t with isReconciled := true }) (fun _ _ => rfl) }

def markBankLineReconciled (db : Db) (id : Uuid) : Db :=
  { db with
    bankStatementLines := db.bankStatementLines.update (·.id == id)
      (fun t => { t with isReconciled := true }) (fun _ _ => rfl) }

def addOutboxEvent (event : OutboxEvent) (db : Db) : Db :=
  { db with outboxEvents := db.outboxEvents ++ [event] }

/-- A second message under one idempotency key is dropped. -/
def enqueue (message : EmailMessage) (db : Db) : Db :=
  match db.emailOutbox.insert? message with
  | some emailOutbox => { db with emailOutbox }
  | none => db

end Db

/-! The service. -/

section
variable [Context] [Format]

def commit : AppTx Unit := site .commit

/-- A missing recipient is a skip. -/
def enqueueEmail (toEmail toName : Option String) (subject template : String)
    (context : List (String × Option String)) (idempotencyKey : String) : AppTx Bool :=
  match toEmail with
  | none => pure false
  | some toEmail =>
    if toEmail = "" then pure false
    else do
      let free ← read (fun db => (db.emailOutbox.insert?
        ⟨toEmail, toName, subject, template, context, idempotencyKey⟩).isSome)
      flush .enqueueEmail .database
        (fun db => some (db.enqueue ⟨toEmail, toName, subject, template, context, idempotencyKey⟩))
      return free

def createInvoice (data : InvoiceCreate) (id : Uuid) (createdAt : DateTime) : AppTx Uuid := do
  let existing ← select .getInvoiceByNumber (·.getByNumber data.invoiceNumber)
  raiseIf existing.isSome (.conflict s!"Invoice {data.invoiceNumber} already exists")
  let total := add data.subtotal data.tax
  flush .insertInvoice .database (·.insertInvoice id data total createdAt)
  flush .appendEvent .database (·.appendEvent ⟨id, 1, .invoiceIssued, total, createdAt, none⟩)
  assign (Db.addOutboxEvent
    ⟨"finguard.finance", "finance.invoice.created", .invoiceCreated id data.customerId⟩)
  commit
  return id

def sendInvoice (id : Uuid) : AppTx Uuid := do
  let found ← select .lockInvoice (·.getInvoice id)
  let invoice ← getOrRaise found (.notFound "Invoice not found")
  raiseIf (invoice.status ≠ .draft)
    (.unprocessable s!"Only a draft invoice can be sent (this one is {invoice.status.value})")
  flush .saveInvoice .database (fun db => some (db.patchInvoice id ⟨some .sent, none, none⟩))
  let customer ← select .getCustomer (·.customers.find? (·.id == invoice.customerId))
  let _ ← enqueueEmail (customer.map Customer.email) (customer.map Customer.name)
    s!"Invoice {invoice.invoiceNumber}" "invoice_issued"
    [("customer_name", customer.map Customer.name),
      ("invoice_number", some invoice.invoiceNumber),
      ("currency", some invoice.currency),
      ("total", some (Format.str invoice.total.val)),
      ("balance_due", some (Format.str invoice.balanceDue.val)),
      ("due_date", invoice.dueDate.map (fun t => String.ofList ((Format.isoformat t).toList.take 10)))]
    s!"invoice_sent:{Format.identifier invoice.id}"
  commit
  return id

/-- Persist a fresh snapshot once the log crosses an interval boundary. -/
def maybeSnapshot (invoiceId : Uuid) (state : InvoiceState) : AppTx Unit :=
  if state.eventCount = 0 ∨ state.eventCount % snapshotInterval ≠ 0 then pure ()
  else do
    let latest ← select .recheckSnapshot (·.latestSnapshot invoiceId)
    if latest.all (fun snapshot => snapshot.sequence < state.sequence) then
      flush .createSnapshot .database
        (·.createSnapshot ⟨invoiceId, state.sequence, state.toSnapshot⟩)

/-- Fold the log, from the latest snapshot if there is one. -/
def deriveState (invoiceId : Uuid) : AppTx InvoiceState := do
  let snapshot ← select .latestSnapshot (·.latestSnapshot invoiceId)
  match snapshot with
  | none => do
    let events ← select .listEvents (·.listByInvoice invoiceId)
    return foldInvoiceEvents events
  | some snapshot => do
    let base ← getOrRaise (InvoiceState.fromSnapshot snapshot.state) (.value "snapshot")
    let tail ← select .listEventsAfter (·.listAfterSequence invoiceId snapshot.sequence)
    return foldFromSnapshot base tail

/-- The row is sent with the next flush; a value that it refuses fails there. -/
def projectInvoiceFromEvents (invoiceId : Uuid) : AppTx InvoiceState := do
  let state ← deriveState invoiceId
  write .database (·.projectInvoice invoiceId state)
  maybeSnapshot invoiceId state
  return state

/-- Every payment path, credit note and cancellation allocates the next sequence,
appends its event and re-projects. -/
def appendAndProject (invoiceId : Uuid) (eventType : InvoiceEventType) (amount : ℚ)
    (occurredAt : DateTime) (recordedBy : Option Uuid) : AppTx Unit := do
  let sequence ← select .nextSequence (·.nextSequence invoiceId)
  flush .appendEvent .database
    (·.appendEvent ⟨invoiceId, sequence, eventType, amount, occurredAt, recordedBy⟩)
  let _ ← projectInvoiceFromEvents invoiceId

def updateInvoice (id : Uuid) (data : InvoiceUpdate) : AppTx Uuid := do
  let found ← select .getInvoice (·.getInvoice id)
  let _ ← getOrRaise found (.notFound "Invoice not found")
  flush .saveInvoice .database (fun db => some (db.patchInvoice id data))
  commit
  return id

/-- Record a payment for the outstanding balance; a no-op on a settled invoice. -/
def settleRemaining (invoice : Invoice) (currentUser : Option Uuid) (vault : VaultType)
    (referenceNote : Option String) (paymentId : Uuid) (now : DateTime) : AppTx Unit :=
  let remaining := invoice.balanceDue.val
  if 0 < remaining then do
    let note := (referenceNote.filter (· ≠ "")).getD "Manual settlement"
    flush .createPayment .database
      (·.createPayment paymentId invoice.id remaining vault (some note) now currentUser none none)
    appendAndProject invoice.id .paymentApplied remaining now currentUser
  else pure ()

def markInvoicePaid (id : Uuid) (currentUser : Option Uuid) (vault : VaultType)
    (referenceNote : Option String) (paymentId : Uuid) (now : DateTime) : AppTx Uuid := do
  let found ← select .lockInvoice (·.getInvoice id)
  let invoice ← getOrRaise found (.notFound "Invoice not found")
  settleRemaining invoice currentUser vault referenceNote paymentId now
  site .saveInvoice
  commit
  return id

def applyCreditNote (id : Uuid) (amount : ℚ) (currentUser : Option Uuid) (now : DateTime) :
    AppTx Uuid := do
  raiseIf (amount ≤ 0) (.unprocessable "Credit note amount must be positive")
  let found ← select .lockInvoice (·.getInvoice id)
  let invoice ← getOrRaise found (.notFound "Invoice not found")
  raiseIf (invoice.status = .cancelled) (.unprocessable "Cannot credit a cancelled invoice")
  raiseIf (invoice.balanceDue.val < amount)
    (.unprocessable "Credit note exceeds the invoice's outstanding balance")
  appendAndProject id .creditNoteApplied amount now currentUser
  site .saveInvoice
  commit
  return id

def cancelInvoice (id : Uuid) (currentUser : Option Uuid) (now : DateTime) : AppTx Uuid := do
  let found ← select .lockInvoice (·.getInvoice id)
  let invoice ← getOrRaise found (.notFound "Invoice not found")
  raiseIf (invoice.status = .cancelled) (.unprocessable "Invoice is already cancelled")
  raiseIf (invoice.status = .paid) (.unprocessable "Cannot cancel a fully-paid invoice")
  appendAndProject id .invoiceCancelled 0 now currentUser
  site .saveInvoice
  commit
  return id

/-- The session's copy of a row after the writes so far. -/
def currentInvoice (invoice : Invoice) : AppTx Invoice :=
  read (fun db => (db.getInvoice invoice.id).getD invoice)

/-- What the column kept of the amount of a payment. -/
def storedAmount (paymentId : Uuid) (amount : ℚ) : AppTx ℚ :=
  read (fun db => ((db.payments.find? (·.id == paymentId)).map (fun p => p.amount.val)).getD amount)

def enqueuePaymentReceipt (invoice : Invoice) (paymentId : Uuid) (amount : ℚ) (vault : VaultType) :
    AppTx Unit := do
  let customer ← select .getCustomer (·.customers.find? (·.id == invoice.customerId))
  let _ ← enqueueEmail (customer.map Customer.email) (customer.map Customer.name)
    s!"Payment received — invoice {invoice.invoiceNumber}" "payment_receipt"
    [("customer_name", customer.map Customer.name),
      ("invoice_number", some invoice.invoiceNumber),
      ("amount", some (Format.str amount)),
      ("currency", some invoice.currency),
      ("balance_due", some (Format.str invoice.balanceDue.val)),
      ("vault", some vault.value)]
    s!"receipt:{Format.identifier paymentId}"

def recordCashPayment (data : PaymentCreate) (currentUser paymentId : Uuid) : AppTx Uuid := do
  let found ← select .lockInvoice (·.getInvoice data.invoiceId)
  let invoice ← getOrRaise found (.notFound "Invoice not found")
  raiseIf (invoice.balanceDue.val < data.amount)
    (.unprocessable (s!"Payment amount {Format.str data.amount} exceeds balance due " ++
      Format.str invoice.balanceDue.val))
  flush .createPayment .database
    (·.createPayment paymentId data.invoiceId data.amount .cash data.referenceNote data.paymentDate
      (some currentUser) none none)
  appendAndProject data.invoiceId .paymentApplied data.amount data.paymentDate (some currentUser)
  let invoice ← currentInvoice invoice
  assign (Db.addOutboxEvent ⟨"finguard.events", "payments.cash_recorded",
    .cashRecorded paymentId data.invoiceId data.amount .cash currentUser invoice.balanceDue.val⟩)
  let amount ← storedAmount paymentId data.amount
  enqueuePaymentReceipt invoice paymentId amount .cash
  commit
  return paymentId

def markMpesaReconciled (id : Option Uuid) : AppTx Unit :=
  match id with
  | none => pure ()
  | some id => flush .markMpesaReconciled .database (fun db => some (db.markMpesaReconciled id))

def markBankLineReconciled (id : Option Uuid) : AppTx Unit :=
  match id with
  | none => pure ()
  | some id =>
    flush .markBankLineReconciled .database (fun db => some (db.markBankLineReconciled id))

/-- Record the part of a settlement that the locked invoice can absorb. -/
def recordReconciled (data : ReconciledPayment) (invoice : Invoice) (applied : ℚ) : AppTx Unit := do
  flush .createPayment .database
    (·.createPayment data.paymentId data.invoiceId applied data.vault
      (some s!"Auto-reconciled ({data.vault.value})") data.occurredAt none data.mpesaTransId
      data.bankLineId)
  appendAndProject data.invoiceId .paymentApplied applied data.occurredAt none
  markMpesaReconciled data.mpesaTransId
  markBankLineReconciled data.bankLineId
  let invoice ← currentInvoice invoice
  assign (Db.addOutboxEvent ⟨"finguard.events", "payments.reconciled",
    .paymentReconciled data.paymentId data.invoiceId applied data.vault invoice.balanceDue.val⟩)
  let amount ← storedAmount data.paymentId applied
  enqueuePaymentReceipt invoice data.paymentId amount data.vault

/-- Flush only: the caller owns the commit. Nothing is applied to a settled invoice. -/
def applyReconciledPayment (data : ReconciledPayment) : AppTx (Option Uuid) := do
  let found ← select .lockInvoice (·.getInvoice data.invoiceId)
  let invoice ← getOrRaise found (.notFound "Invoice not found")
  let applied := min data.amount invoice.balanceDue.val
  if applied ≤ 0 then return none
  else do
    recordReconciled data invoice applied
    return some data.paymentId

/-- The matches of one reconciliation batch, applied in one transaction. -/
def applyReconciledPayments (index : ℕ) : List ReconciledPayment → AppTx Unit
  | [] => pure ()
  | data :: rest => do
    let _ ← within (Site.inBatch index) (applyReconciledPayment data)
    applyReconciledPayments (index + 1) rest

end

end Finguard
