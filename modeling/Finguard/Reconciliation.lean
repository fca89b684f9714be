import Finguard.BankReview
import Finguard.ProposalReview
import Finguard.Reconciler

/-! One reconciliation run: the batch that it locks, its two passes, the settlements that it makes at
once and its report. -/

namespace Finguard
open Decimal Text Transaction Transaction.Tx

def Payment.backedBy (source : MatchSource) (payment : Payment) : Option Uuid :=
  match source with
  | .mpesa => payment.mpesaTransId
  | .bank => payment.bankLineId

def MatchSource.vault : MatchSource → VaultType
  | mpesa => .mpesa
  | bank => .bank

/-! The batch. -/

section
variable [Format]

def MpesaTransaction.floating (t : MpesaTransaction) : FloatingSettlement where
  id := Format.identifier t.id
  amount := t.amount.val
  phone := t.phone
  billRef := t.billRef
  createdAt := .stamp t.createdAt

/-- A bank line in the shape of a transaction. -/
def BankStatementLine.floating (line : BankStatementLine) : FloatingSettlement where
  id := Format.identifier line.id
  amount := line.amount.val
  phone := ""
  billRef := line.referenceText
  createdAt := .stamp line.date

def Invoice.toOpen (invoice : Invoice) : OpenInvoice where
  id := Format.identifier invoice.id
  invoiceNumber := invoice.invoiceNumber
  balanceDue := invoice.balanceDue.val
  dueDate := invoice.dueDate.map .stamp

end

def Invoice.isOpen (invoice : Invoice) : Bool :=
  (invoice.status = .sent || invoice.status = .overdue) && 0 < invoice.balanceDue.units

def nullsLast : Option DateTime → Option DateTime → Bool
  | _, none => true
  | none, some _ => false
  | some a, some b => a ≤ b

/-- What a run meets: its settings, the rows that other sessions hold, the model, the checks of the
task credential and the identifiers of the payments. -/
structure ReconciliationEnv where
  tuning : ReconcilerTuning
  scorer : Scorer
  heldTxn : Uuid → Bool
  heldInv : Uuid → Bool
  requireTaskVc : ReconciliationMatch → Bool
  paymentId : ℕ → Uuid
  now : DateTime

/-- The rows of a run and the moments of its transactions. -/
structure ReconciliationBatch where
  transactions : List FloatingSettlement
  invoices : List OpenInvoice
  txnDates : List (String × DateTime)

namespace Db
variable [Format]

def unreconciledTransactions (db : Db) : List MpesaTransaction :=
  (db.mpesaTransactions.filter (!·.isReconciled)).insertionSort (fun a b => a.createdAt ≤ b.createdAt)

/-- The settlements that a run picks up, oldest first, with their moments. -/
def lockTransactions (db : Db) (env : ReconciliationEnv) :
    MatchSource → List (FloatingSettlement × DateTime)
  | .mpesa => ((db.unreconciledTransactions.filter (!env.heldTxn ·.id)).take env.tuning.txnBatch).map
      (fun t => (t.floating, t.createdAt))
  | .bank => ((db.reconcilableLines.filter (!env.heldTxn ·.id)).take env.tuning.txnBatch).map
      (fun line => (line.floating, line.date))

def lockOpenInvoices (db : Db) (env : ReconciliationEnv) : List OpenInvoice :=
  ((((db.invoices.filter Invoice.isOpen).insertionSort
    (fun a b => nullsLast a.dueDate b.dueDate)).filter (!env.heldInv ·.id)).take
      env.tuning.invLimit).map Invoice.toOpen

end Db

/-! The passes. -/

/-- What both passes have matched. -/
structure MatchedBatch where
  exactMatches : List ReconciliationMatch := []
  semanticMatches : List ReconciliationMatch := []
  matchedTxnIds : Finset String := ∅
  matchedInvIds : Finset String := ∅

def ReconciliationMatch.tagged (source : MatchSource) (m : ReconciliationMatch) :
    ReconciliationMatch := { m with source }

section
variable [Format] [Unicode]

def runPasses (tuning : ReconcilerTuning) (scorer : Scorer) (source : MatchSource)
    (transactions : List FloatingSettlement) (invoices : List OpenInvoice) :
    Except ServiceError MatchedBatch :=
  if transactions.isEmpty || invoices.isEmpty then .ok {}
  else do
    let pass1 ← pass1Exact tuning transactions invoices
    let semantic ← pass2Semantic tuning scorer transactions invoices pass1.txnIds pass1.invIds
    return {
      exactMatches := pass1.found.map (·.tagged source)
      semanticMatches := semantic.map (·.tagged source)
      matchedTxnIds := pass1.txnIds ∪ (semantic.map ReconciliationMatch.transactionId).toFinset
      matchedInvIds := pass1.invIds ∪ (semantic.map ReconciliationMatch.invoiceId).toFinset }

end

/-! The settlements that are made at once. -/

/-- The moment of a settlement, or of the run where the rows give none. -/
def ReconciliationMatch.confirmed (m : ReconciliationMatch) (txnDates : List (String × DateTime))
    (now : DateTime) : ConfirmedMatch where
  transactionId := m.transactionId
  invoiceId := m.invoiceId
  amount := m.amount
  vault := m.source.vault
  occurredAt := (txnDates.lookup m.transactionId).getD now

/-- The exact matches that were applied, and the rows that still count as matched. -/
structure Settled where
  applied : List ReconciliationMatch := []
  matchedTxnIds : Finset String
  matchedInvIds : Finset String

structure ReconciliationReport where
  totalTransactions : ℕ
  matchedExact : ℕ
  matchedFuzzy : ℕ
  proposedForReview : ℕ
  unmatched : ℤ
  allMatches : List ReconciliationMatch
  runAt : DateTime

/-- What a run leaves: its report, and the matches that people are asked about afterwards. -/
structure ReconciliationResult where
  report : ReconciliationReport
  semanticMatches : List ReconciliationMatch

def reportOf (total : ℕ) (settled : Settled) (semantic : List ReconciliationMatch)
    (runAt : DateTime) : ReconciliationReport :=
  let allMatches := settled.applied ++ semantic
  { totalTransactions := total
    matchedExact := settled.applied.length
    matchedFuzzy := (allMatches.filter (·.matchType ≠ .exact)).length
    proposedForReview := semantic.length
    unmatched := total - settled.matchedTxnIds.card
    allMatches
    runAt }

section
variable [Context] [Format]

/-- A match whose credential check fails is left out, and its rows no longer count as matched. What an
application answers is not looked at. -/
def applyExactMatches (env : ReconciliationEnv) (txnDates : List (String × DateTime)) (index : ℕ)
    (settled : Settled) : List ReconciliationMatch → AppTx Settled
  | [] => pure settled
  | m :: rest =>
    if env.requireTaskVc m then do
      let _ ← within (Site.inBatch index)
        (applyConfirmedMatch (m.confirmed txnDates env.now) (env.paymentId index))
      applyExactMatches env txnDates (index + 1) { settled with applied := settled.applied ++ [m] } rest
    else applyExactMatches env txnDates (index + 1)
      { settled with
        matchedTxnIds := settled.matchedTxnIds.erase m.transactionId
        matchedInvIds := settled.matchedInvIds.erase m.invoiceId } rest

variable [Unicode]

def reconcile (source : MatchSource) (env : ReconciliationEnv) : AppTx ReconciliationResult := do
  let rows ← select .lockTransactions (·.lockTransactions env source)
  let invoices ← select .lockOpenInvoices (·.lockOpenInvoices env)
  let transactions := rows.map Prod.fst
  match runPasses env.tuning env.scorer source transactions invoices with
  | .error e => raise e
  | .ok passes => do
    raiseIf ("direct_write" ∉ mutationKinds "C") (.runtime (
      "Agent 'C' is not declared 'direct_write'-capable in " ++
      "agent_registry, but reconciliation_service's Pass 1 auto-apply " ++
      "requires it — registry/code have drifted apart."))
    let settled ← applyExactMatches env (rows.map fun row => (row.1.id, row.2)) 0
      ⟨[], passes.matchedTxnIds, passes.matchedInvIds⟩ passes.exactMatches
    commit
    return ⟨reportOf transactions.length settled passes.semanticMatches env.now,
      passes.semanticMatches⟩

def runReconciliation (env : ReconciliationEnv) : AppTx ReconciliationResult := reconcile .mpesa env

def runBankReconciliation (env : ReconciliationEnv) : AppTx ReconciliationResult := reconcile .bank env

end

end Finguard
