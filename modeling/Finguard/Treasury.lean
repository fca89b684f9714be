import Finguard.Inventory

/-! The finance service: expenses, payables, vault transfers and the balances that
are derived from them. -/

namespace Finguard
open Decimal Text Transaction Transaction.Tx

/-! Requests, with what their schemas check. -/

structure ExpenseCreate where
  category : String
  amount : ℚ
  vault : VaultType
  amount_pos : 0 < amount

structure StockPurchaseCreate where
  expense : ExpenseCreate
  productId : Uuid
  quantity : ℚ
  unitCost : ℚ
  quantity_pos : 0 < quantity
  unitCost_pos : 0 < unitCost

structure VaultTransferCreate where
  fromVault : VaultType
  toVault : VaultType
  amount : ℚ
  fee : ℚ
  referenceNote : Option String
  occurredAt : DateTime
  amount_pos : 0 < amount
  fee_nonneg : 0 ≤ fee
  distinct : fromVault ≠ toVault

/-- An approver with the link that lets them unsubscribe. -/
structure Reviewer where
  id : Uuid
  email : String
  fullName : Option String
  unsubscribeUrl : String

structure VaultBalance where
  vault : VaultType
  balance : ℚ

structure VaultBalancesResponse where
  balances : List VaultBalance
  currency : String
  total : ℚ

/-! Aggregates, in cents. A vault without rows has a total of zero. -/

namespace Db

def signedOff (expense : Expense) : Bool :=
  expense.approvalStatus = .approved || expense.approvalStatus = .scheduled

def paymentsIn (db : Db) (vault : VaultType) : ℤ :=
  db.payments.total (fun p => p.vault == vault) (fun p => p.amount.units)

def expensesOut (db : Db) (vault : VaultType) : ℤ :=
  db.expenses.total (fun e => signedOff e && e.vault == vault) (fun e => e.amount.units)

def transfersIn (db : Db) (vault : VaultType) : ℤ :=
  db.vaultTransfers.total (fun t => t.toVault == vault) (fun t => t.amount.units)

def transfersOut (db : Db) (vault : VaultType) : ℤ :=
  db.vaultTransfers.total (fun t => t.fromVault == vault) (fun t => t.amount.units)

/-! Writes. -/

def createExpense (db : Db) (id : Uuid) (category : String) (amount : ℚ) (vault : VaultType)
    (approvalStatus : ExpenseApprovalStatus) (submittedBy : Option Uuid) (createdAt : DateTime) :
    Option Db := do
  let amount ← Numeric.store? 15 2 amount
  let expenses ← db.expenses.insert?
    ⟨id, category, amount, vault, approvalStatus, submittedBy, none, none, none, createdAt⟩
  return { db with expenses }

def Budget.burn? (amount : ℚ) (budget : Budget) : Option Budget := do
  let spent ← Numeric.store? 18 2 (budget.spent.val + amount)
  return { budget with spent }

theorem Budget.burn?_clash {amount : ℚ} {a a' : Budget} (h : Budget.burn? amount a = some a')
    (b : Budget) : Row.clash a' b = Row.clash a b := by
  simp only [Budget.burn?, Option.bind_eq_bind, Option.bind_eq_some_iff] at h
  obtain ⟨_, _, h⟩ := h
  obtain rfl := Option.some.inj h
  rfl

/-- Add the amount to every budget of the category whose period is running. -/
def burnBudgets (db : Db) (category : String) (amount : ℚ) (now : DateTime) : Option Db := do
  let budgets ← db.budgets.update?
    (fun b => b.category == category && b.periodStart ≤ now && now ≤ b.periodEnd)
    (Budget.burn? amount) (fun _ _ => Budget.burn?_clash)
  return { db with budgets }

def reviewExpense (db : Db) (id : Uuid) (f : Expense → Expense)
    (hf : ∀ a b : Expense, Row.clash (f a) b = Row.clash a b) : Db :=
  { db with expenses := db.expenses.update (·.id == id) f hf }

def createTransfer (db : Db) (id : Uuid) (data : VaultTransferCreate) (recordedBy : Uuid) :
    Option Db := do
  let amount ← Numeric.store? 18 2 data.amount
  let fee ← Numeric.store? 18 2 data.fee
  let vaultTransfers ← db.vaultTransfers.insert?
    ⟨id, data.fromVault, data.toVault, amount, fee, data.referenceNote, data.occurredAt,
      some recordedBy, none, data.distinct⟩
  return { db with vaultTransfers }

def linkFee (id expenseId : Uuid) (db : Db) : Db :=
  { db with
    vaultTransfers := db.vaultTransfers.update (·.id == id)
      (fun t => { t with feeExpenseId := some expenseId }) (fun _ _ => rfl) }

end Db

def payableTransitions : ExpenseApprovalStatus → List ExpenseApprovalStatus
  | .draft => [.pendingReview]
  | .pendingReview => [.approved, .rejected]
  | .approved => [.scheduled]
  | _ => []

def isReviewDecision (target : ExpenseApprovalStatus) : Prop :=
  target = .approved ∨ target = .rejected

instance (target : ExpenseApprovalStatus) : Decidable (isReviewDecision target) :=
  inferInstanceAs (Decidable (_ ∨ _))

/-- The row after a transition. -/
def Expense.transition (target : ExpenseApprovalStatus) (currentUser : Uuid)
    (scheduledFor : Option DateTime) (now : DateTime) (expense : Expense) : Expense :=
  { expense with
    approvalStatus := target
    reviewedBy := if isReviewDecision target then some currentUser else expense.reviewedBy
    reviewedAt := if isReviewDecision target then some now else expense.reviewedAt
    scheduledFor :=
      if target = .scheduled then some (scheduledFor.getD now) else expense.scheduledFor }

theorem Expense.transition_clash (target : ExpenseApprovalStatus) (currentUser : Uuid)
    (scheduledFor : Option DateTime) (now : DateTime) (a b : Expense) :
    Row.clash (a.transition target currentUser scheduledFor now) b = Row.clash a b := rfl

theorem Expense.find?_transition (t : Table Expense) (id other currentUser : Uuid)
    (target : ExpenseApprovalStatus) (scheduledFor : Option DateTime) (now : DateTime) :
    (t.update (·.id == other) (Expense.transition target currentUser scheduledFor now)
      (Expense.transition_clash target currentUser scheduledFor now)).find? (·.id == id) =
      (t.find? (·.id == id)).map (Table.updated (·.id == other)
        (Expense.transition target currentUser scheduledFor now)) :=
  Table.find?_update (fun _ => rfl)

/-! The service. -/

section
variable [Context] [Format]

/-- What a freshly flushed or newly approved expense triggers. -/
def applyExpenseSideEffects (expenseId : Uuid) (now : DateTime) (source : String) : AppTx Unit := do
  let found ← read (·.expenses.find? (·.id == expenseId))
  let expense ← getOrRaise found (.notFound "Payable not found")
  flush .burnBudget .database (·.burnBudgets expense.category expense.amount.val now)
  assign (Db.addOutboxEvent ⟨"finguard.events", "expenses.created",
    .expenseCreated expense.id expense.amount.val expense.category expense.vault
      expense.createdAt source⟩)

/-- Book an expense that needs no review. -/
def bookExpense (data : ExpenseCreate) (id : Uuid) (now : DateTime) (source : String) :
    AppTx Unit := do
  flush .createExpense .database
    (·.createExpense id data.category data.amount data.vault .approved none now)
  applyExpenseSideEffects id now source

def createExpense (data : ExpenseCreate) (id : Uuid) (now : DateTime) : AppTx Uuid := do
  bookExpense data id now "database.expenses"
  commit
  return id

def createReceiptExpense (data : ExpenseCreate) (id : Uuid) (now : DateTime) : AppTx Uuid := do
  bookExpense data id now "receipt.scan"
  commit
  return id

/-- The expense and the receipt of the stock are one transaction. -/
def createStockPurchase (data : StockPurchaseCreate) (actorId : Option Uuid) (id : Uuid)
    (stamp : MovementStamp) : AppTx (Uuid × Option StockMovement) := do
  bookExpense data.expense id stamp.now "inventory.purchase"
  let movement ←
    recordPurchaseReceipt data.productId data.quantity data.unitCost id actorId stamp
  commit
  return (id, movement)

def notifyReviewers (subject template : String) (context : List (String × Option String))
    (resourceId : Uuid) (keyPrefix : String) (excluded : Option Uuid) :
    List Reviewer → AppTx Unit
  | [] => pure ()
  | user :: users => do
    if excluded = some user.id then pure ()
    else do
      let _ ← enqueueEmail (some user.email) user.fullName subject template
        (context ++ [("reviewer_name", user.fullName), ("unsubscribe_url", some user.unsubscribeUrl)])
        (s!"{keyPrefix}:{Format.identifier resourceId}:" ++ Format.identifier user.id)
    notifyReviewers subject template context resourceId keyPrefix excluded users

/-- A submitted bill moves no money until it is approved. -/
def createPayable (data : ExpenseCreate) (description reviewUrl : String) (currentUser : Uuid)
    (reviewers : List Reviewer) (id : Uuid) (now : DateTime) : AppTx Uuid := do
  flush .createExpense .database
    (·.createExpense id data.category data.amount data.vault .pendingReview (some currentUser) now)
  let amount ← read (fun db =>
    ((db.expenses.find? (·.id == id)).map (fun e => e.amount.val)).getD data.amount)
  notifyReviewers "A payable needs your approval" "approval_needed"
    [("summary", some (s!"A bill of {Format.str amount} ({data.category}) is awaiting approval.")),
      ("detail", some description), ("review_url", some reviewUrl)]
    id "payable_review" (some currentUser) reviewers
  commit
  return id

/-- An approval is the moment the bill counts; the other transitions have no effects. -/
def approvalEffects (target : ExpenseApprovalStatus) (expenseId : Uuid) (burnedAt : DateTime) :
    AppTx Unit :=
  if target = .approved then applyExpenseSideEffects expenseId burnedAt "payable.approved"
  else pure ()

/-- Everything after the row is locked. The budgets are burned by a clock of their own. -/
def decidePayable (expense : Expense) (currentUser : Uuid) (target : ExpenseApprovalStatus)
    (scheduledFor : Option DateTime) (now burnedAt : DateTime) : AppTx Uuid := do
  raiseIf (target ∉ payableTransitions expense.approvalStatus)
    (.unprocessable
      s!"Cannot move payable from {expense.approvalStatus.value} to {target.value}")
  raiseIf (isReviewDecision target ∧ expense.submittedBy = some currentUser)
    (.forbidden "The submitter cannot review their own payable")
  assign (Db.reviewExpense · expense.id (Expense.transition target currentUser scheduledFor now)
    (Expense.transition_clash target currentUser scheduledFor now))
  approvalEffects target expense.id burnedAt
  commit
  return expense.id

def transitionPayable (id : Uuid) (currentUser : Uuid) (target : ExpenseApprovalStatus)
    (scheduledFor : Option DateTime) (now burnedAt : DateTime) : AppTx Uuid := do
  let found ← select .lockExpense (·.expenses.find? (·.id == id))
  let expense ← getOrRaise found (.notFound "Payable not found")
  decidePayable expense currentUser target scheduledFor now burnedAt

/-- The balance of one vault from its four totals. -/
def vaultBalance (paymentsIn transfersIn expensesOut transfersOut : ℤ) : Option ℚ :=
  quantize? 2 (sub (sub (add (ofUnits 2 paymentsIn) (ofUnits 2 transfersIn))
    (ofUnits 2 expensesOut)) (ofUnits 2 transfersOut))

def getVaultBalances : AppTx VaultBalancesResponse := do
  let paymentsIn ← select .vaultTotals Db.paymentsIn
  let expensesOut ← select .vaultTotals Db.expensesOut
  let transfersIn ← select .vaultTotals Db.transfersIn
  let transfersOut ← select .vaultTotals Db.transfersOut
  let balances ← getOrRaise (VaultType.all.mapM (fun vault =>
    (vaultBalance (paymentsIn vault) (transfersIn vault) (expensesOut vault)
      (transfersOut vault)).map (VaultBalance.mk vault))) .invalidOperation
  return {
    balances
    currency := "KES"
    total := balances.foldl (fun total b => add total b.balance) 0 }

def VaultBalancesResponse.of (response : VaultBalancesResponse) (vault : VaultType) : ℚ :=
  ((response.balances.find? (·.vault == vault)).map VaultBalance.balance).getD 0

/-- A fee is an expense of the source vault that burns no budget. -/
def bookFee (data : VaultTransferCreate) (id feeId : Uuid) (now : DateTime) : AppTx Unit :=
  if 0 < data.fee then do
    flush .createExpense .database
      (·.createExpense feeId "Transfer fee" data.fee data.fromVault .approved none now)
    assign (Db.linkFee id feeId)
  else pure ()

def createVaultTransfer (data : VaultTransferCreate) (currentUser id feeId : Uuid)
    (now : DateTime) : AppTx Uuid := do
  site .vaultLock
  let balances ← getVaultBalances
  let fromBalance := balances.of data.fromVault
  raiseIf (fromBalance < add data.amount data.fee)
    (.unprocessable (s!"Transfer of {Format.str data.amount} (+ fee {Format.str data.fee}) " ++
      s!"exceeds the {data.fromVault.value} balance of {Format.str fromBalance}"))
  flush .createTransfer .database (·.createTransfer id data currentUser)
  bookFee data id feeId now
  assign (Db.addOutboxEvent ⟨"finguard.events", "finance.vault_transfer.recorded",
    .vaultTransferRecorded id data.fromVault data.toVault data.amount data.fee currentUser⟩)
  commit
  return id

end

end Finguard
