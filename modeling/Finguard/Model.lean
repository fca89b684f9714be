import Finguard.InvoiceFold
import Finguard.Lib.Json
import Finguard.Lib.Table
import Finguard.Lib.Transaction

/-! The rows of the database with their check constraints as fields, and the whole
store. Columns that no modelled function reads are left out. -/

namespace Finguard
open Decimal

/-- A nullable unique column: two rows clash on it only when both hold a value. -/
def sameValue (a b : Option Uuid) : Bool := a.isSome && a == b

theorem sameValue_comm (a b : Option Uuid) : sameValue a b = sameValue b a := by
  unfold sameValue
  by_cases h : a = b
  · rw [h]
  · have hab : (a == b) = false := by simpa using h
    have hba : (b == a) = false := by simpa using Ne.symm h
    rw [hab, hba, Bool.and_false, Bool.and_false]

theorem sameValue_eq_true {a b : Option Uuid} :
    sameValue a b = true ↔ ∃ v, a = some v ∧ b = some v := by
  unfold sameValue
  cases a with
  | none => simp
  | some v =>
    simp only [Option.isSome_some, Bool.true_and, beq_iff_eq, Option.some.injEq]
    constructor
    · intro h
      exact ⟨v, rfl, h.symm⟩
    · rintro ⟨w, rfl, rfl⟩
      rfl

structure Customer where
  id : Uuid
  name : String
  email : String
deriving DecidableEq

instance : Row Customer where
  clash a b := a.id == b.id || a.email == b.email
  clash_symm h := by
    simp only [Bool.or_eq_true, beq_iff_eq] at h ⊢
    exact h.imp Eq.symm Eq.symm

/-- `balanceConsistent` is the check constraint on the balance. -/
structure Invoice where
  id : Uuid
  customerId : Uuid
  invoiceNumber : String
  status : InvoiceStatus
  subtotal : Money
  tax : Money
  total : Money
  amountPaid : Money
  amountCredited : Money
  balanceDue : Money
  currency : String
  dueDate : Option DateTime
  paidAt : Option DateTime
  notes : Option String
  createdAt : DateTime
  balanceConsistent : balanceDue.units = total.units - amountCredited.units - amountPaid.units
deriving DecidableEq

instance : Row Invoice where
  clash a b := a.id == b.id || a.invoiceNumber == b.invoiceNumber
  clash_symm h := by
    simp only [Bool.or_eq_true, beq_iff_eq] at h ⊢
    exact h.imp Eq.symm Eq.symm

instance {α : Type} : Row (InvoiceEvent α) where
  clash a b := a.invoiceId == b.invoiceId && a.sequence == b.sequence
  clash_symm h := by
    simp only [Bool.and_eq_true, beq_iff_eq] at h ⊢
    exact h.imp Eq.symm Eq.symm

/-- A stored event as the fold sees it. -/
def InvoiceEvent.load (event : InvoiceEvent Money) : InvoiceEvent ℚ :=
  { event with amount := event.amount.val }

@[simp] theorem InvoiceEvent.load_sequence (event : InvoiceEvent Money) :
    event.load.sequence = event.sequence := rfl

structure InvoiceSnapshot where
  invoiceId : Uuid
  sequence : ℤ
  state : SnapshotData
deriving DecidableEq

instance : Row InvoiceSnapshot where
  clash a b := a.invoiceId == b.invoiceId && a.sequence == b.sequence
  clash_symm h := by
    simp only [Bool.and_eq_true, beq_iff_eq] at h ⊢
    exact h.imp Eq.symm Eq.symm

structure Payment where
  id : Uuid
  invoiceId : Uuid
  amount : Money
  vault : VaultType
  referenceNote : Option String
  paymentDate : DateTime
  recordedBy : Option Uuid
  mpesaTransId : Option Uuid
  bankLineId : Option Uuid
deriving DecidableEq

instance : Row Payment where
  clash a b :=
    a.id == b.id || sameValue a.mpesaTransId b.mpesaTransId || sameValue a.bankLineId b.bankLineId
  clash_symm {a b} h := by
    rw [sameValue_comm b.mpesaTransId, sameValue_comm b.bankLineId]
    simp only [Bool.or_eq_true, beq_iff_eq] at h ⊢
    exact h.imp (Or.imp Eq.symm id) id

structure MpesaTransaction where
  id : Uuid
  transId : String
  amount : SettledAmount
  phone : String
  billRef : Option String
  vault : VaultType
  isReconciled : Bool
  createdAt : DateTime
deriving DecidableEq

instance : Row MpesaTransaction where
  clash a b := a.id == b.id || a.transId == b.transId
  clash_symm h := by
    simp only [Bool.or_eq_true, beq_iff_eq] at h ⊢
    exact h.imp Eq.symm Eq.symm

structure BankStatementLine where
  id : Uuid
  amount : SettledAmount
  date : DateTime
  referenceText : Option String
  externalRef : String
  importedBy : Option Uuid
  reviewStatus : String
  approvedBy : Option Uuid
  approvedAt : Option DateTime
  isReconciled : Bool
deriving DecidableEq

instance : Row BankStatementLine where
  clash a b := a.id == b.id || a.externalRef == b.externalRef
  clash_symm h := by
    simp only [Bool.or_eq_true, beq_iff_eq] at h ⊢
    exact h.imp Eq.symm Eq.symm

structure Expense where
  id : Uuid
  category : String
  amount : SettledAmount
  vault : VaultType
  approvalStatus : ExpenseApprovalStatus
  submittedBy : Option Uuid
  reviewedBy : Option Uuid
  reviewedAt : Option DateTime
  scheduledFor : Option DateTime
  createdAt : DateTime
deriving DecidableEq

instance : Row Expense where
  clash a b := a.id == b.id
  clash_symm h := by
    rw [beq_iff_eq] at h ⊢
    exact h.symm

structure Budget where
  id : Uuid
  category : String
  amount : Money
  spent : Money
  periodStart : DateTime
  periodEnd : DateTime
deriving DecidableEq

instance : Row Budget where
  clash a b := a.id == b.id
  clash_symm h := by
    rw [beq_iff_eq] at h ⊢
    exact h.symm

structure VaultTransfer where
  id : Uuid
  fromVault : VaultType
  toVault : VaultType
  amount : Money
  fee : Money
  referenceNote : Option String
  occurredAt : DateTime
  recordedBy : Option Uuid
  feeExpenseId : Option Uuid
  distinctVaults : fromVault ≠ toVault
deriving DecidableEq

instance : Row VaultTransfer where
  clash a b := a.id == b.id
  clash_symm h := by
    rw [beq_iff_eq] at h ⊢
    exact h.symm

/-- Outgoing messages. Amounts are the decimals that are written as floats. -/
inductive OutboxPayload where
  | invoiceCreated (invoiceId customerId : Uuid)
  | expenseCreated (expenseId : Uuid) (amount : ℚ) (category : String) (vault : VaultType)
      (occurredAt : DateTime) (source : String)
  | cashRecorded (paymentId invoiceId : Uuid) (amount : ℚ) (vault : VaultType)
      (recordedBy : Uuid) (balanceDueAfter : ℚ)
  | paymentReconciled (paymentId invoiceId : Uuid) (amount : ℚ) (vault : VaultType)
      (balanceDueAfter : ℚ)
  | vaultTransferRecorded (transferId : Uuid) (fromVault toVault : VaultType) (amount fee : ℚ)
      (recordedBy : Uuid)
  | mpesaReconciled (transId : String) (amount : ℚ) (phone : String) (billRef : Option String)
      (vault : VaultType)
  | bankStatementImported (importedBy : Option Uuid) (lineCount : ℕ) (externalRefs : List String)
      (totalAmount : ℚ)
deriving DecidableEq

structure OutboxEvent where
  exchange : String
  routingKey : String
  payload : OutboxPayload
deriving DecidableEq

structure EmailMessage where
  toEmail : String
  toName : Option String
  subject : String
  template : String
  context : List (String × Option String)
  idempotencyKey : String
deriving DecidableEq

instance : Row EmailMessage where
  clash a b := a.idempotencyKey == b.idempotencyKey
  clash_symm h := by
    rw [beq_iff_eq] at h ⊢
    exact h.symm

structure Product where
  id : Uuid
  sku : String
  name : String
  reorderLevel : Quantity
  isActive : Bool
deriving DecidableEq

instance : Row Product where
  clash a b := a.id == b.id || a.sku == b.sku
  clash_symm h := by
    simp only [Bool.or_eq_true, beq_iff_eq] at h ⊢
    exact h.imp Eq.symm Eq.symm

/-- The unique constraint is on product and location, and a missing location equals
no other, so it does not keep two rows without a location apart. -/
structure StockLevel where
  id : Uuid
  productId : Uuid
  locationId : Option Uuid
  quantityOnHand : Quantity
  quantityReserved : Quantity
  averageCost : Money
  onHandNonneg : 0 ≤ quantityOnHand.units
  reservedNonneg : 0 ≤ quantityReserved.units
deriving DecidableEq

instance : Row StockLevel where
  clash a b := a.id == b.id || (a.productId == b.productId && sameValue a.locationId b.locationId)
  clash_symm {a b} h := by
    rw [sameValue_comm b.locationId]
    simp only [Bool.or_eq_true, Bool.and_eq_true, beq_iff_eq] at h ⊢
    exact h.imp Eq.symm (And.imp Eq.symm id)

structure StockMovement where
  id : Uuid
  productId : Uuid
  sequence : ℤ
  movementType : MovementType
  movementReason : Option MovementReason
  quantity : Quantity
  unitCost : Option Money
  balanceAfter : Quantity
  referenceType : Option String
  referenceId : Option Uuid
  note : Option String
  occurredAt : DateTime
  createdBy : Option Uuid
  positiveQuantity : 0 < quantity.units
deriving DecidableEq

instance : Row StockMovement where
  clash a b := a.id == b.id || (a.productId == b.productId && a.sequence == b.sequence)
  clash_symm h := by
    simp only [Bool.or_eq_true, Bool.and_eq_true, beq_iff_eq] at h ⊢
    exact h.imp Eq.symm (And.imp Eq.symm Eq.symm)

/-- The tool arguments a proposal keeps. Identifiers and instants are texts that may
not parse, and what a caller sent for a reason, a cost or a note is kept unread. -/
inductive ProposalPayload where
  | stock (productRef movementType : String) (quantity : ℚ) (reason unitCost note : Json)
  | settlement (transactionId invoiceId matchType : String) (matchScore amount : ℚ)
      (newInvoiceStatus source occurredAt : String)

structure AgentActionProposal where
  id : Uuid
  agentLabel : String
  actionType : String
  payload : ProposalPayload
  payloadHash : Option String
  status : ProposalStatus
  triggeredBy : Option Uuid
  reviewedBy : Option Uuid
  reviewedAt : Option DateTime
  appliedRef : Option String

instance : Row AgentActionProposal where
  clash a b := a.id == b.id
  clash_symm h := by
    rw [beq_iff_eq] at h ⊢
    exact h.symm

structure AuditLog where
  action : String
  actorLabel : Option String
  actorId : Option Uuid
  resourceType : String
  resourceId : Option String
deriving DecidableEq

/-- Invoices with their event log, its snapshot cache and the payments. -/
structure InvoiceLedger where
  invoices : Table Invoice := ∅
  invoiceEvents : Table (InvoiceEvent Money) := ∅
  invoiceSnapshots : Table InvoiceSnapshot := ∅
  payments : Table Payment := ∅

structure StockLedger where
  products : Table Product := ∅
  stockLevels : Table StockLevel := ∅
  stockMovements : Table StockMovement := ∅

structure Db extends InvoiceLedger, StockLedger where
  customers : Table Customer := ∅
  mpesaTransactions : Table MpesaTransaction := ∅
  bankStatementLines : Table BankStatementLine := ∅
  expenses : Table Expense := ∅
  budgets : Table Budget := ∅
  vaultTransfers : Table VaultTransfer := ∅
  outboxEvents : List OutboxEvent := []
  emailOutbox : Table EmailMessage := ∅
  proposals : Table AgentActionProposal := ∅
  auditLogs : List AuditLog := []

/-- What a request fails with. -/
inductive ServiceError where
  | conflict (message : String)
  | notFound (message : String)
  | unprocessable (message : String)
  | forbidden (message : String)
  | value (message : String)
  | runtime (message : String)
  | invalidOperation
  | multipleResults
  | database
deriving DecidableEq

/-- The places where a statement is sent and the environment may fail it. -/
inductive Site where
  | inBatch (index : ℕ) (site : Site)
  | commit
  | lockInvoice
  | getInvoice
  | getInvoiceByNumber
  | insertInvoice
  | saveInvoice
  | nextSequence
  | appendEvent
  | latestSnapshot
  | listEvents
  | listEventsAfter
  | recheckSnapshot
  | createSnapshot
  | createPayment
  | markMpesaReconciled
  | markBankLineReconciled
  | getCustomer
  | enqueueEmail
  | createExpense
  | burnBudget
  | lockExpense
  | createTransfer
  | vaultLock
  | vaultTotals
  | getProduct
  | getProductBySku
  | lockLevel
  | createLevel
  | getLevel
  | lastSequence
  | appendMovement
  | saveLevel
  | requireTaskVc
  | insertProposal
  | listReviewers
  | recordAudit
  | lockProposal
  | getBankLine
  | lockTransactions
  | lockOpenInvoices
  | getMpesaByTransId
  | createMpesaTransaction
  | existingExternalRefs
  | bulkCreateLines
  | cogsForReference
  | saveProduct
deriving DecidableEq

abbrev AppTx := Transaction.Tx Site Db ServiceError

def noFaults : Transaction.Faults Site ServiceError := fun _ => none

end Finguard
