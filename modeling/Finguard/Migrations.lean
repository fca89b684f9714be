import Finguard.Invoicing
import Finguard.Lib.Json

/-! The migrations that gave old invoices their events and old settlements their payments. The
column of event types is text: SQL writes there what it likes, and the ORM reads names. -/

namespace Finguard
open Decimal

/-- A payment with the moment at which its row was written. -/
structure StoredPayment extends Payment where
  createdAt : DateTime

instance : Row StoredPayment where
  clash a b := Row.clash a.toPayment b.toPayment
  clash_symm h := Row.clash_symm h

/-- A row of the event log as the database holds it. -/
structure InvoiceEventRow where
  id : Uuid
  invoiceId : Uuid
  sequence : ℤ
  eventType : String
  amount : Money
  payload : Json.Fields
  occurredAt : DateTime
  recordedBy : Option Uuid
  createdAt : DateTime

instance : Row InvoiceEventRow where
  clash a b := a.id == b.id || a.invoiceId == b.invoiceId && a.sequence == b.sequence
  clash_symm h := by
    simp only [Bool.or_eq_true, Bool.and_eq_true, beq_iff_eq] at h ⊢
    exact h.imp Eq.symm (And.imp Eq.symm Eq.symm)

structure LegacyDb where
  now : DateTime
  invoices : Table Invoice
  payments : Table StoredPayment
  invoiceEvents : Table InvoiceEventRow

/-- The identifiers that the database generates, by what the new row is made from. -/
structure GeneratedIds where
  issued : Uuid → Uuid
  applied : Uuid → Uuid
  unlinked : Uuid → Uuid
  cash : Uuid → Uuid
  mpesa : Uuid → Uuid

def InvoiceEventType.name : InvoiceEventType → String
  | invoiceIssued => "INVOICE_ISSUED"
  | paymentApplied => "PAYMENT_APPLIED"
  | creditNoteApplied => "CREDIT_NOTE_APPLIED"
  | invoiceCancelled => "INVOICE_CANCELLED"

/-- What the ORM makes of the column. It stores the names of an enumeration, not its values. -/
def InvoiceEventType.ofName? : String → Option InvoiceEventType
  | "INVOICE_ISSUED" => some invoiceIssued
  | "PAYMENT_APPLIED" => some paymentApplied
  | "CREDIT_NOTE_APPLIED" => some creditNoteApplied
  | "INVOICE_CANCELLED" => some invoiceCancelled
  | _ => none

@[simp] theorem InvoiceEventType.ofName?_name (type : InvoiceEventType) :
    ofName? type.name = some type := by cases type <;> rfl

def InvoiceEventRow.load? (row : InvoiceEventRow) : Option (InvoiceEvent ℚ) := do
  let eventType ← InvoiceEventType.ofName? row.eventType
  return {
    invoiceId := row.invoiceId
    sequence := row.sequence
    eventType
    amount := row.amount.val
    occurredAt := row.occurredAt
    recordedBy := row.recordedBy }

namespace LegacyDb

def paid (db : LegacyDb) (invoiceId : Uuid) (counts : StoredPayment → Bool) : ℤ :=
  db.payments.total (fun p => counts p && p.invoiceId == invoiceId) (·.amount.units)

/-- The events of one invoice as the application reads them. -/
def listByInvoice? (db : LegacyDb) (invoiceId : Uuid) : Option (List (InvoiceEvent ℚ)) :=
  ((db.invoiceEvents.filter (·.invoiceId == invoiceId)).mapM InvoiceEventRow.load?).map
    sortBySequence

/-! Revision 0002: the events of what predates the log. -/

def issuedEvent (ids : GeneratedIds) (invoice : Invoice) : InvoiceEventRow where
  id := ids.issued invoice.id
  invoiceId := invoice.id
  sequence := 1
  eventType := "invoice_issued"
  amount := invoice.total
  payload := [("backfilled", .bool true), ("invoice_number", .text invoice.invoiceNumber)]
  occurredAt := invoice.createdAt
  recordedBy := none
  createdAt := invoice.createdAt

/-- The place of a payment among those of its invoice. -/
def rowNumber (db : LegacyDb) (p : StoredPayment) : ℕ :=
  db.payments.rows.countP fun q => q.invoiceId = p.invoiceId ∧
    (q.createdAt < p.createdAt ∨ q.createdAt = p.createdAt ∧ q.id ≤ p.id)

def appliedEvent (db : LegacyDb) (ids : GeneratedIds) (p : StoredPayment) : InvoiceEventRow where
  id := ids.applied p.id
  invoiceId := p.invoiceId
  sequence := 1 + db.rowNumber p
  eventType := "payment_applied"
  amount := p.amount
  payload := [("backfilled", .bool true), ("payment_id", .text (toString p.id))]
  occurredAt := p.paymentDate
  recordedBy := p.recordedBy
  createdAt := p.createdAt

def backfillInvoiceEvents (db : LegacyDb) (ids : GeneratedIds) : Option LegacyDb := do
  let issued ← db.invoiceEvents.insertAll? (db.invoices.rows.map (issuedEvent ids))
  let invoiceEvents ← issued.insertAll? (db.payments.rows.map (db.appliedEvent ids))
  return { db with invoiceEvents }

/-! Revision 0006: a payment for what no payment backs. -/

def oldNote : String := "Backfilled: pre-linkage settlement"

/-- The payment that a backfill makes for an invoice, unless the column cannot hold its amount. -/
def backfilledPayment (db : LegacyDb) (id : Uuid) (vault : VaultType) (note : String)
    (invoice : Invoice) (units : ℤ) : Option StoredPayment := do
  let amount ← Numeric.store? 18 2 (ofUnits 2 units)
  return {
    id
    invoiceId := invoice.id
    amount
    vault
    referenceNote := some note
    paymentDate := invoice.paidAt.getD invoice.createdAt
    recordedBy := none
    mpesaTransId := none
    bankLineId := none
    createdAt := db.now }

/-- One payment for each invoice with a positive gap. -/
def backfillPayments (db : LegacyDb) (id : Uuid → Uuid) (vault : VaultType) (note : String)
    (gap : Invoice → ℤ) (due : Invoice → Bool) : Option LegacyDb := do
  let rows ← (db.invoices.rows.filter fun invoice =>
    invoice.status ≠ .cancelled ∧ 0 < gap invoice ∧ due invoice).mapM
      fun invoice => db.backfilledPayment (id invoice.id) vault note invoice (gap invoice)
  let payments ← db.payments.insertAll? rows
  return { db with payments }

def backfillUnlinkedPayments (db : LegacyDb) (ids : GeneratedIds) : Option LegacyDb :=
  db.backfillPayments ids.unlinked .cash oldNote
    (fun invoice => invoice.amountPaid.units - db.paid invoice.id fun _ => true) fun _ => true

/-! Revision 0008: the same payments, with the vault that they are thought to have come from. -/

def mpesaNote : String := "Backfilled: legacy M-Pesa reconciliation"

def cashNote : String := "Backfilled: manual settlement"

def hasNote (note : String) (p : StoredPayment) : Bool := p.referenceNote == some note

def isReal (p : StoredPayment) : Bool :=
  !hasNote mpesaNote p && !hasNote cashNote p && !hasNote oldNote p

def eventTotal (db : LegacyDb) (invoiceId : Uuid) : ℤ :=
  db.invoiceEvents.total (fun e => e.eventType == "PAYMENT_APPLIED" && e.invoiceId == invoiceId)
    (·.amount.units)

/-- Not backfilled under this note before. -/
def lacks (db : LegacyDb) (note : String) (invoice : Invoice) : Bool :=
  !db.payments.rows.any fun p => p.invoiceId == invoice.id && hasNote note p

def insertCash (db : LegacyDb) (ids : GeneratedIds) : Option LegacyDb :=
  db.backfillPayments ids.cash .cash cashNote
    (fun invoice => db.eventTotal invoice.id - db.paid invoice.id isReal) (db.lacks cashNote)

def insertMpesa (db : LegacyDb) (ids : GeneratedIds) : Option LegacyDb :=
  db.backfillPayments ids.mpesa .mpesa mpesaNote
    (fun invoice => invoice.amountPaid.units - db.eventTotal invoice.id) (db.lacks mpesaNote)

def honestAttribution (db : LegacyDb) (ids : GeneratedIds) : Option LegacyDb := do
  let cash ← { db with payments := db.payments.delete (hasNote oldNote) }.insertCash ids
  cash.insertMpesa ids

/-- The data steps of the three revisions. -/
def migrate (db : LegacyDb) (ids : GeneratedIds) : Option LegacyDb := do
  let logged ← db.backfillInvoiceEvents ids
  let backed ← logged.backfillUnlinkedPayments ids
  backed.honestAttribution ids

/-- The payments, the events and the row of one invoice say the same. -/
structure KeepsBooks [Context] (db : LegacyDb) (invoice : Invoice) : Prop where
  backed : db.paid invoice.id (fun _ => true) = invoice.amountPaid.units
  derived : ∃ events projected, db.listByInvoice? invoice.id = some events ∧
    (foldInvoiceEvents events).amountPaid = invoice.amountPaid.val ∧
    invoice.project? (foldInvoiceEvents events) = some projected ∧
    projected.amountPaid = invoice.amountPaid ∧ projected.amountCredited = invoice.amountCredited ∧
    projected.balanceDue = invoice.balanceDue

section
variable {db db' : LegacyDb} {ids : GeneratedIds}

theorem backfillPayments_eq_some {id : Uuid → Uuid} {vault : VaultType} {note : String}
    {gap : Invoice → ℤ} {due : Invoice → Bool}
    (h : db.backfillPayments id vault note gap due = some db') :
    ∃ rows payments, ((db.invoices.rows.filter fun invoice =>
        invoice.status ≠ .cancelled ∧ 0 < gap invoice ∧ due invoice).mapM fun invoice =>
          db.backfilledPayment (id invoice.id) vault note invoice (gap invoice)) = some rows ∧
      db.payments.insertAll? rows = some payments ∧ db' = { db with payments } := by
  simp only [backfillPayments, Option.bind_eq_bind, Option.bind_eq_some_iff] at h
  obtain ⟨rows, hrows, payments, hinsert, hsome⟩ := h
  exact ⟨rows, payments, hrows, hinsert, (Option.some.inj hsome).symm⟩

theorem backfillInvoiceEvents_eq_some (h : db.backfillInvoiceEvents ids = some db') :
    ∃ invoiceEvents, invoiceEvents.rows = db.invoiceEvents.rows ++
        db.invoices.rows.map (issuedEvent ids) ++ db.payments.rows.map (db.appliedEvent ids) ∧
      db' = { db with invoiceEvents } := by
  simp only [backfillInvoiceEvents, Option.bind_eq_bind, Option.bind_eq_some_iff] at h
  obtain ⟨issued, hissued, invoiceEvents, happlied, hsome⟩ := h
  refine ⟨invoiceEvents, ?_, (Option.some.inj hsome).symm⟩
  rw [Table.rows_of_insertAll happlied, Table.rows_of_insertAll hissued]

/-- Only the payments change after the events were written. -/
theorem migrate_eq_some (h : db.migrate ids = some db') :
    ∃ logged payments, db.backfillInvoiceEvents ids = some logged ∧
      db' = { logged with payments } := by
  simp only [migrate, honestAttribution, Option.bind_eq_bind, Option.bind_eq_some_iff] at h
  obtain ⟨logged, hlogged, backed, hbacked, cash, hcash, hmpesa⟩ := h
  obtain ⟨-, unlinked, -, -, rfl⟩ := backfillPayments_eq_some hbacked
  obtain ⟨-, cashed, -, -, rfl⟩ := backfillPayments_eq_some hcash
  obtain ⟨-, payments, -, -, rfl⟩ := backfillPayments_eq_some hmpesa
  exact ⟨logged, payments, hlogged, rfl⟩

theorem invoices_of_migrate (h : db.migrate ids = some db') : db'.invoices = db.invoices := by
  obtain ⟨logged, payments, hlogged, rfl⟩ := migrate_eq_some h
  obtain ⟨invoiceEvents, -, rfl⟩ := backfillInvoiceEvents_eq_some hlogged
  rfl

theorem mapM_eq_none {α β : Type} {f : α → Option β} {l : List α} {a : α} (ha : a ∈ l)
    (hf : f a = none) : l.mapM f = none := by
  induction l with
  | nil => cases ha
  | cons b l ih =>
    rw [List.mapM_cons]
    rcases List.mem_cons.mp ha with rfl | ha
    · rw [hf]
      rfl
    · rw [ih ha]
      cases f b <;> rfl

/-- The application cannot read the event that the migration has written for an invoice. -/
theorem unreadable_of_migrate (h : db.migrate ids = some db') {invoice : Invoice}
    (hinvoice : invoice ∈ db.invoices.rows) : db'.listByInvoice? invoice.id = none := by
  obtain ⟨logged, payments, hlogged, rfl⟩ := migrate_eq_some h
  obtain ⟨invoiceEvents, hrows, rfl⟩ := backfillInvoiceEvents_eq_some hlogged
  have hmem : issuedEvent ids invoice ∈ invoiceEvents.rows := by
    rw [hrows]
    exact List.mem_append_left _ (List.mem_append_right _ (List.mem_map_of_mem hinvoice))
  have hlisted : issuedEvent ids invoice ∈
      invoiceEvents.filter (·.invoiceId == invoice.id) :=
    List.mem_filter.mpr ⟨hmem, by simp [issuedEvent]⟩
  have hload : (issuedEvent ids invoice).load? = none := rfl
  rw [listByInvoice?, mapM_eq_none hlisted hload, Option.map_none]

theorem not_keepsBooks_of_migrate [Context] (h : db.migrate ids = some db') {invoice : Invoice}
    (hinvoice : invoice ∈ db.invoices.rows) : ¬ db'.KeepsBooks invoice := by
  intro hkeeps
  obtain ⟨events, projected, hlist, -⟩ := hkeeps.derived
  rw [unreadable_of_migrate h hinvoice] at hlist
  cases hlist

end

/-! What the payments add up to. -/

/-- Nothing in the log yet, and no payment that a migration has made. -/
structure Untouched (db : LegacyDb) : Prop where
  events : db.invoiceEvents.rows = []
  real : ∀ p ∈ db.payments.rows, isReal p

section
variable {db db' : LegacyDb} {ids : GeneratedIds} {id : Uuid → Uuid} {vault : VaultType}
  {note : String} {gap : Invoice → ℤ} {due : Invoice → Bool} {invoice : Invoice}
  {l : List Invoice} {rows : List StoredPayment}

theorem backfilledPayment_eq_some {newId : Uuid} {units : ℤ} {p : StoredPayment}
    (h : db.backfilledPayment newId vault note invoice units = some p) :
    p.invoiceId = invoice.id ∧ p.amount.units = units ∧ p.referenceNote = some note := by
  simp only [backfilledPayment, Option.bind_eq_bind, Option.bind_eq_some_iff] at h
  obtain ⟨amount, hamount, hsome⟩ := h
  obtain rfl := Option.some.inj hsome
  exact ⟨rfl, Numeric.units_of_store_ofUnits hamount, rfl⟩

theorem note_of_backfilled
    (h : (l.mapM fun i => db.backfilledPayment (id i.id) vault note i (gap i)) = some rows) :
    ∀ p ∈ rows, p.referenceNote = some note := by
  induction l generalizing rows with
  | nil =>
    obtain rfl := Option.some.inj h
    simp
  | cons i l ih =>
    simp only [List.mapM_cons, Option.bind_eq_bind, Option.bind_eq_some_iff] at h
    obtain ⟨q, hq, qs, hqs, hsome⟩ := h
    obtain rfl := Option.some.inj hsome
    intro p hp
    rcases List.mem_cons.mp hp with rfl | hp
    · exact (backfilledPayment_eq_some hq).2.2
    · exact ih hqs p hp

theorem sum_backfilled (hids : l.Pairwise (·.id ≠ ·.id))
    (h : (l.mapM fun i => db.backfilledPayment (id i.id) vault note i (gap i)) = some rows)
    (hsame : ∀ i ∈ l, i.id = invoice.id → i = invoice) :
    ((rows.filter (·.invoiceId == invoice.id)).map (·.amount.units)).sum =
      if invoice ∈ l then gap invoice else 0 := by
  induction l generalizing rows with
  | nil =>
    obtain rfl := Option.some.inj h
    rfl
  | cons i l ih =>
    simp only [List.mapM_cons, Option.bind_eq_bind, Option.bind_eq_some_iff] at h
    obtain ⟨q, hq, qs, hqs, hsome⟩ := h
    obtain rfl := Option.some.inj hsome
    obtain ⟨hfirst, hrest⟩ := List.pairwise_cons.mp hids
    obtain ⟨hqid, hqunits, -⟩ := backfilledPayment_eq_some hq
    have htail := ih hrest hqs (fun j hj => hsame j (List.mem_cons_of_mem _ hj))
    by_cases hi : i.id = invoice.id
    · obtain rfl := hsame i List.mem_cons_self hi
      have habsent : i ∉ l := fun hmem => hfirst i hmem rfl
      rw [if_neg habsent] at htail
      simp [hqid, hqunits, htail]
    · have hne : invoice ≠ i := fun heq => hi (heq ▸ rfl)
      have hkey : (q.invoiceId == invoice.id) = false := by simpa [hqid] using hi
      simp [hkey, htail, hne]

theorem invoice_ids (db : LegacyDb) : db.invoices.rows.Pairwise (·.id ≠ ·.id) := by
  refine db.invoices.unique.imp ?_
  intro a b hclash hid
  exact hclash (by simp [Row.clash, hid])

theorem paid_backfillPayments (h : db.backfillPayments id vault note gap due = some db')
    (hinvoice : invoice ∈ db.invoices.rows) :
    db'.paid invoice.id (fun _ => true) = db.paid invoice.id (fun _ => true) +
      if invoice.status ≠ .cancelled ∧ 0 < gap invoice ∧ due invoice then gap invoice else 0 := by
  obtain ⟨rows, payments, hrows, hinsert, rfl⟩ := backfillPayments_eq_some h
  have hsame : ∀ i ∈ db.invoices.rows, i.id = invoice.id → i = invoice := by
    intro i hi hid
    exact Table.eq_of_clash hi hinvoice (by simp [Row.clash, hid])
  have hsum := sum_backfilled (db.invoice_ids.filter _) hrows
    (fun i hi => hsame i (List.mem_filter.mp hi).1)
  simp only [List.mem_filter, hinvoice, true_and, decide_eq_true_eq] at hsum
  simp only [paid, Table.total, Table.filter, Table.rows_of_insertAll hinsert, Bool.true_and,
    List.filter_append, List.map_append, List.sum_append, hsum]

theorem rows_delete_unlinked (hreal : ∀ p ∈ db.payments.rows, isReal p)
    (h : db.backfillUnlinkedPayments ids = some db') :
    (db'.payments.delete (hasNote oldNote)).rows = db.payments.rows := by
  obtain ⟨rows, payments, hrows, hinsert, rfl⟩ := backfillPayments_eq_some h
  have hkept : db.payments.rows.filter (fun p => !hasNote oldNote p) = db.payments.rows := by
    rw [List.filter_eq_self]
    intro p hp
    have hnotes := hreal p hp
    simp only [isReal, Bool.and_eq_true] at hnotes
    exact hnotes.2
  have hgone : rows.filter (fun p => !hasNote oldNote p) = [] := by
    rw [List.filter_eq_nil_iff]
    intro p hp
    simp [hasNote, note_of_backfilled hrows p hp]
  calc (payments.delete (hasNote oldNote)).rows
      = payments.rows.filter (fun p => !hasNote oldNote p) := rfl
    _ = db.payments.rows := by
      rw [Table.rows_of_insertAll hinsert, List.filter_append, hkept, hgone, List.append_nil]

theorem eventTotal_of_backfill (hevents : db.invoiceEvents.rows = [])
    (h : db.backfillInvoiceEvents ids = some db') (invoiceId : Uuid) :
    db'.eventTotal invoiceId = 0 := by
  obtain ⟨invoiceEvents, hrows, rfl⟩ := backfillInvoiceEvents_eq_some h
  have hnone : invoiceEvents.rows.filter
      (fun e => e.eventType == "PAYMENT_APPLIED" && e.invoiceId == invoiceId) = [] := by
    rw [List.filter_eq_nil_iff, hrows, hevents, List.nil_append]
    intro e he
    rcases List.mem_append.mp he with he | he
    · obtain ⟨invoice, -, rfl⟩ := List.mem_map.mp he
      simp [issuedEvent]
    · obtain ⟨p, -, rfl⟩ := List.mem_map.mp he
      simp [appliedEvent]
  simp [eventTotal, Table.total, Table.filter, hnone]

theorem paid_of_honestAttribution (hreal : ∀ p ∈ db.payments.rows, isReal p)
    (hevents : db.eventTotal invoice.id = 0) {cash : LegacyDb}
    (hcash : db.insertCash ids = some cash) (hmpesa : cash.insertMpesa ids = some db')
    (hinvoice : invoice ∈ db.invoices.rows) (hopen : invoice.status ≠ .cancelled)
    (hpaid : 0 ≤ invoice.amountPaid.units) (hnonneg : 0 ≤ db.paid invoice.id fun _ => true) :
    db'.paid invoice.id (fun _ => true) =
      db.paid invoice.id (fun _ => true) + invoice.amountPaid.units := by
  have hpaidReal : db.paid invoice.id isReal = db.paid invoice.id (fun _ => true) := by
    simp only [paid, Table.total, Table.filter]
    rw [List.filter_congr]
    intro p hp
    rw [hreal p hp]
  have hcashPaid : cash.paid invoice.id (fun _ => true) = db.paid invoice.id (fun _ => true) := by
    rw [paid_backfillPayments hcash hinvoice, if_neg, add_zero]
    rintro ⟨-, hgap, -⟩
    omega
  obtain ⟨rows, payments, hrows, hinsert, rfl⟩ := backfillPayments_eq_some hcash
  have hlacks : lacks { db with payments } mpesaNote invoice = true := by
    simp only [lacks, Table.rows_of_insertAll hinsert, List.any_append, Bool.not_eq_true',
      Bool.or_eq_false_iff, List.any_eq_false, Bool.and_eq_true, not_and]
    constructor
    · intro p hp _ hnote
      have hnotes := hreal p hp
      simp [isReal, hnote] at hnotes
    · intro p hp _
      rw [hasNote, note_of_backfilled hrows p hp]
      decide
  have hsame : eventTotal { db with payments } invoice.id = 0 := hevents
  rw [paid_backfillPayments hmpesa hinvoice, hcashPaid, hsame, hlacks]
  by_cases hpos : 0 < invoice.amountPaid.units
  · rw [if_pos ⟨hopen, by omega, rfl⟩, sub_zero]
  · rw [if_neg (by omega)]
    omega

/-- An invoice that had payments is paid twice afterwards. -/
theorem paid_of_migrate (hdb : db.Untouched) (h : db.migrate ids = some db')
    (hinvoice : invoice ∈ db.invoices.rows) (hopen : invoice.status ≠ .cancelled)
    (hpaid : 0 ≤ invoice.amountPaid.units) (hnonneg : 0 ≤ db.paid invoice.id fun _ => true) :
    db'.paid invoice.id (fun _ => true) =
      db.paid invoice.id (fun _ => true) + invoice.amountPaid.units := by
  simp only [migrate, honestAttribution, Option.bind_eq_bind, Option.bind_eq_some_iff] at h
  obtain ⟨logged, hlogged, backed, hbacked, cash, hcash, hmpesa⟩ := h
  have hevents := eventTotal_of_backfill hdb.events hlogged invoice.id
  obtain ⟨invoiceEvents, -, rfl⟩ := backfillInvoiceEvents_eq_some hlogged
  have hreal : ∀ p ∈ ({ db with invoiceEvents } : LegacyDb).payments.rows, isReal p := hdb.real
  have hrows := rows_delete_unlinked hreal hbacked
  obtain ⟨-, unlinked, -, -, rfl⟩ := backfillPayments_eq_some hbacked
  have hcleared : ∀ p ∈ (unlinked.delete (hasNote oldNote)).rows, isReal p := by
    simpa only [hrows] using hreal
  have hsame : ∀ id counts, paid { db with
      invoiceEvents, payments := unlinked.delete (hasNote oldNote) } id counts =
      db.paid id counts := by
    intro id counts
    simp only [paid, Table.total, Table.filter, hrows]
  rw [← hsame] at hnonneg ⊢
  exact paid_of_honestAttribution hcleared hevents hcash hmpesa hinvoice hopen hpaid hnonneg

end

end LegacyDb

/-- The chain keeps the books of all invoices that count only where there are none of them. -/
theorem migrate_keeps_books_iff [Context] {db db' : LegacyDb} {ids : GeneratedIds}
    (h : db.migrate ids = some db') :
    (∀ invoice ∈ db'.invoices.rows, invoice.status ≠ .cancelled → db'.KeepsBooks invoice) ↔
      ∀ invoice ∈ db.invoices.rows, invoice.status = .cancelled := by
  rw [LegacyDb.invoices_of_migrate h]
  constructor
  · intro hkeeps invoice hinvoice
    by_contra hopen
    exact LegacyDb.not_keepsBooks_of_migrate h hinvoice (hkeeps invoice hinvoice hopen)
  · intro hcancelled invoice hinvoice hopen
    exact absurd (hcancelled invoice hinvoice) hopen

/-! An invoice of which 60 are paid. One payment of 30 is known. -/

def partlyPaidInvoice : Invoice where
  id := 1
  customerId := 2
  invoiceNumber := "INV-1"
  status := .partiallyPaid
  subtotal := ⟨10000, hundred_fits⟩
  tax := ⟨0, zero_fits⟩
  total := ⟨10000, hundred_fits⟩
  amountPaid := ⟨6000, sixty_fits⟩
  amountCredited := ⟨0, zero_fits⟩
  balanceDue := ⟨4000, forty_fits⟩
  currency := "KES"
  dueDate := none
  paidAt := none
  notes := none
  createdAt := 0
  balanceConsistent := by decide

def knownPayment : StoredPayment where
  id := 3
  invoiceId := 1
  amount := ⟨3000, thirty_fits⟩
  vault := .cash
  referenceNote := none
  paymentDate := 5
  recordedBy := some 4
  mpesaTransId := none
  bankLineId := none
  createdAt := 5

def legacyBooks : LegacyDb where
  now := 100
  invoices := ⟨[partlyPaidInvoice], List.pairwise_singleton _ _⟩
  payments := ⟨[knownPayment], List.pairwise_singleton _ _⟩
  invoiceEvents := ∅

def plainIds : GeneratedIds := ⟨(10 + ·), (20 + ·), (30 + ·), (40 + ·), (50 + ·)⟩

theorem legacyBooks_migrated :
    letI := Context.default
    ∃ db', legacyBooks.migrate plainIds = some db' ∧
      ((∀ invoice ∈ db'.invoices.rows, invoice.status ≠ .cancelled → db'.KeepsBooks invoice) ↔
        ∀ invoice ∈ legacyBooks.invoices.rows, invoice.status = .cancelled) := by
  let := Context.default
  have hsome : (legacyBooks.migrate plainIds).isSome := by decide +kernel
  obtain ⟨db', hdb'⟩ := Option.isSome_iff_exists.mp hsome
  exact ⟨db', hdb', migrate_keeps_books_iff hdb'⟩

/-- Its payments add up to 90, and its events cannot be read. -/
theorem legacyBooks_lost :
    letI := Context.default
    ∃ db', legacyBooks.migrate plainIds = some db' ∧
      db'.paid partlyPaidInvoice.id (fun _ => true) = 9000 ∧
      db'.listByInvoice? partlyPaidInvoice.id = none ∧
      ¬ ∀ invoice ∈ db'.invoices.rows, invoice.status ≠ .cancelled → db'.KeepsBooks invoice := by
  let := Context.default
  have hpaid : (legacyBooks.migrate plainIds).map
      (·.paid partlyPaidInvoice.id (fun _ => true)) = some 9000 := by decide +kernel
  obtain ⟨db', hdb', hpaid⟩ := Option.map_eq_some_iff.mp hpaid
  have hmem : partlyPaidInvoice ∈ legacyBooks.invoices.rows := List.mem_singleton_self _
  refine ⟨db', hdb', hpaid, LegacyDb.unreadable_of_migrate hdb' hmem, fun hkeeps => ?_⟩
  refine LegacyDb.not_keepsBooks_of_migrate hdb' hmem (hkeeps _ ?_ (by decide))
  rw [LegacyDb.invoices_of_migrate hdb']
  exact hmem

end Finguard
