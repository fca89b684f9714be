import Finguard.AppendOnly
import Finguard.Lib.Sessions
import Finguard.Proposals

/-! The decision on a proposal. An approval claims the proposal in one transaction, applies
its write in another, and undoes the claim where the write is refused. -/

namespace Finguard
open Decimal Text Transaction Transaction.Tx Sessions

structure ReviewRequest where
  proposalId : Uuid
  currentUser : Uuid
  expectedActionType : String
  approves : Bool

/-! The claim. -/

namespace AgentActionProposal

def decided (status : ProposalStatus) (currentUser : Uuid) (now : DateTime)
    (proposal : AgentActionProposal) : AgentActionProposal :=
  { proposal with
    status
    reviewedBy := some currentUser
    reviewedAt := some now }

def reset (proposal : AgentActionProposal) : AgentActionProposal :=
  { proposal with
    status := .proposed
    reviewedBy := none
    reviewedAt := none }

def referenced (appliedRef : String) (proposal : AgentActionProposal) : AgentActionProposal :=
  { proposal with appliedRef := some appliedRef }

theorem clash_reset (a b : AgentActionProposal) : Row.clash a.reset b = Row.clash a b := rfl

theorem clash_referenced (appliedRef : String) (a b : AgentActionProposal) :
    Row.clash (a.referenced appliedRef) b = Row.clash a b := rfl

end AgentActionProposal

/-- The checks on the locked row. A rejection does not look at the payload. -/
def checkDecision [PayloadHash] (request : ReviewRequest) (proposal : AgentActionProposal) :
    Except ServiceError Unit :=
  if proposal.actionType ≠ request.expectedActionType then
    .error (.forbidden (s!"Proposal action_type '{proposal.actionType}' does not match " ++
      s!"this endpoint ('{request.expectedActionType}')"))
  else if proposal.status ≠ .proposed then
    .error (.unprocessable s!"Proposal is already {proposal.status.value}")
  else if proposal.triggeredBy = some request.currentUser then
    .error (.forbidden (if request.approves then
      "The requester cannot approve their own agent action"
      else "The requester cannot review their own agent action"))
  else if request.approves ∧
      proposal.payloadHash.any (· ≠ PayloadHash.payloadHash proposal.payload) then
    .error (.forbidden
      "Proposal payload has changed since it was proposed — refusing to apply")
  else .ok ()

def ReviewRequest.verdict (request : ReviewRequest) : ProposalStatus :=
  if request.approves then .applied else .rejected

def decideProposal [PayloadHash] (request : ReviewRequest) (now : DateTime) :
    AppTx AgentActionProposal := do
  let found ← select .lockProposal (·.getProposal request.proposalId)
  let proposal ← getOrRaise found (.notFound "Agent action proposal not found")
  match checkDecision request proposal with
  | .error e => raise e
  | .ok () => do
    assign (Db.updateProposal · request.proposalId
      (AgentActionProposal.decided request.verdict request.currentUser now) (fun _ _ => rfl))
    commit
    return proposal

/-! The write. -/

/-- What an apply is given by its surroundings. -/
structure ApplyEnv where
  stamp : MovementStamp
  paymentId : Uuid
  faults : Faults Site ServiceError

/-- A movement is committed as it is made; a payment waits for the caller's commit. -/
inductive AppliedWrite where
  | moved (base : MovementResult) (movement : Option StockMovement)
  | settled (appliedRef : String)

/-- A match that was read back from its payload. -/
structure ConfirmedMatch where
  transactionId : String
  invoiceId : String
  amount : ℚ
  vault : VaultType
  occurredAt : DateTime

def ConfirmedMatch.payment (confirmed : ConfirmedMatch) (invoiceId transactionId paymentId : Uuid) :
    ReconciledPayment where
  invoiceId
  amount := confirmed.amount
  vault := confirmed.vault
  occurredAt := confirmed.occurredAt
  mpesaTransId := if confirmed.vault = .bank then none else some transactionId
  bankLineId := if confirmed.vault = .bank then some transactionId else none
  paymentId

section
variable [Context] [Format] [Python]

/-- The identifier of the settlement is read only after the balance of the invoice. -/
def applyConfirmedMatch (confirmed : ConfirmedMatch) (paymentId : Uuid) : AppTx (Option Uuid) := do
  let invoiceId ← getOrRaise (Format.ofIdentifier confirmed.invoiceId)
    (.value "badly formed hexadecimal UUID string")
  match Format.ofIdentifier confirmed.transactionId with
  | some transactionId =>
    applyReconciledPayment (confirmed.payment invoiceId transactionId paymentId)
  | none => do
    let found ← select .lockInvoice (·.getInvoice invoiceId)
    let invoice ← getOrRaise found (.notFound "Invoice not found")
    if min confirmed.amount invoice.balanceDue.val ≤ 0 then return none
    else raise (.value "badly formed hexadecimal UUID string")

/-- The payload as the schema of a match takes it. -/
def readMatch : ProposalPayload → Except ServiceError ConfirmedMatch
  | .settlement transactionId invoiceId _ matchScore amount _ source occurredAt =>
    if 0 ≤ matchScore ∧ matchScore ≤ 1 ∧ 0 ≤ amount ∧ (source = "mpesa" ∨ source = "bank") then
      match Format.fromisoformat occurredAt with
      | some occurredAt =>
        .ok ⟨transactionId, invoiceId, amount, if source = "bank" then .bank else .mpesa, occurredAt⟩
      | none => .error (.value "Invalid isoformat string")
    else .error (.value "1 validation error for ReconciliationMatch")
  | .stock .. => .error (.value "1 validation error for ReconciliationMatch")

def readMovement : ProposalPayload → Except ServiceError MovementArgs
  | .stock productRef movementType quantity reason unitCost note =>
    .ok ⟨productRef, movementType, .finite quantity, reason, unitCost, note⟩
  | .settlement .. => .error (.runtime "'product_ref'")

def applyStock (args : MovementArgs) (reviewerId : Uuid) (stamp : MovementStamp) :
    AppTx AppliedWrite := do
  let outcome ← proposeStockMovement args true (some reviewerId) stamp
  match outcome with
  | .committed base movement => return .moved base movement
  | .answered result => raise (.unprocessable s!"Cannot apply proposal: {result.detail}")

def applyMatch (confirmed : ConfirmedMatch) (paymentId : Uuid) : AppTx AppliedWrite := do
  let payment ← applyConfirmedMatch confirmed paymentId
  match payment with
  | some id => return .settled (Format.identifier id)
  | none => raise (.unprocessable "Cannot apply proposal: invoice already settled")

def applyProposal (actionType : String) (payload : ProposalPayload) (reviewerId : Uuid)
    (env : ApplyEnv) : AppTx AppliedWrite :=
  if actionType = actionStockAdjustment then
    match readMovement payload with
    | .ok args => applyStock args reviewerId env.stamp
    | .error e => raise e
  else if actionType = actionReconciliationMatch then
    match readMatch payload with
    | .ok confirmed => applyMatch confirmed env.paymentId
    | .error e => raise e
  else raise (.unprocessable s!"Unknown action_type '{actionType}'")

end

/-! The sessions. -/

inductive ReviewPhase where
  | begun
  | claimed (actionType : String) (payload : ProposalPayload)
  | moved (base : MovementResult) (movement : Option StockMovement)
  | applied (appliedRef : String)

structure ReviewTx where
  request : ReviewRequest
  phase : ReviewPhase := .begun

/-- Other work of the application leaves the proposals alone. -/
structure OutsideWork where
  run : Db → Db
  proposals : ∀ db, (run db).proposals = db.proposals

/-- `commits` says whether the commit that ends the step goes through. -/
inductive ReviewAction where
  | decide (now : DateTime) (faults : Faults Site ServiceError)
  | apply (env : ApplyEnv) (commits : Bool)
  | audit (recorded commits : Bool)
  | finish (commits : Bool)
  | outside (work : OutsideWork)
  | crash

/-- A row that has come into the database by the review of a proposal. -/
structure ReviewWrite where
  request : ReviewRequest
  row : StockMovement ⊕ Payment

structure ReviewStore where
  db : Db
  writes : List ReviewWrite := []

namespace ReviewStore

def newMovements (db db' : Db) : List StockMovement :=
  db'.stockMovements.rows.drop db.stockMovements.rows.length

def newPayments (db db' : Db) : List Payment :=
  db'.payments.rows.drop db.payments.rows.length

def rows (db db' : Db) : List (StockMovement ⊕ Payment) :=
  (newMovements db db').map .inl ++ (newPayments db db').map .inr

/-- The store after a commit of a review, with the rows that came in by it. -/
def commit (s : ReviewStore) (request : ReviewRequest) (db' : Db) : ReviewStore where
  db := db'
  writes := s.writes ++ (rows s.db db').map (⟨request, ·⟩)

def writesOf (s : ReviewStore) (id : Uuid) : List ReviewWrite :=
  s.writes.filter (·.request.proposalId == id)

/-- The error branch of an approval, on the work that is still pending. -/
def resetProposal (s : ReviewStore) (request : ReviewRequest) (commits : Bool) (working : Db) :
    ReviewStore :=
  if commits then
    s.commit request (working.updateProposal request.proposalId AgentActionProposal.reset
      (fun _ _ => rfl))
  else s

def finishProposal (s : ReviewStore) (request : ReviewRequest) (commits : Bool)
    (appliedRef : String) (working : Db) : ReviewStore :=
  if commits then
    s.commit request (working.updateProposal request.proposalId
      (AgentActionProposal.referenced appliedRef) (fun _ _ => rfl))
  else s

end ReviewStore

namespace ReviewTx

section
variable [Context] [Format] [Python] [PayloadHash]

/-- After an aborted statement the session refuses the commit of the error branch. -/
def advance (s : ReviewStore) (_ : List ReviewTx) (t : ReviewTx) :
    ReviewAction → Option (ReviewStore × Option ReviewTx)
  | .decide now faults =>
    match t.phase with
    | .begun =>
      match decideProposal t.request now faults s.db with
      | .ok proposal db' => some (s.commit t.request db',
          if t.request.approves then
            some { t with phase := .claimed proposal.actionType proposal.payload } else none)
      | _ => some (s, none)
    | _ => none
  | .apply env commits =>
    match t.phase with
    | .claimed actionType payload =>
      match applyProposal actionType payload t.request.currentUser env env.faults s.db with
      | .ok (.moved base movement) db' =>
        some (s.commit t.request db', some { t with phase := .moved base movement })
      | .ok (.settled appliedRef) working =>
        some (s.finishProposal t.request commits appliedRef working, none)
      | .raised _ working => some (s.resetProposal t.request commits working, none)
      | .aborted _ => some (s, none)
    | _ => none
  | .audit recorded commits =>
    match t.phase with
    | .moved base movement =>
      match auditMovement recorded base (some t.request.currentUser) movement s.db with
      | (some result, db') =>
        some (s.commit t.request db', some { t with phase := .applied result.detail })
      | (none, db') => some (s.resetProposal t.request commits db', none)
    | _ => none
  | .finish commits =>
    match t.phase with
    | .applied appliedRef =>
      some (s.finishProposal t.request commits appliedRef s.db, none)
    | _ => none
  | .outside work => some ({ s with db := work.run s.db }, some t)
  | .crash => some (s, none)

def machine : Machine ReviewStore ReviewTx ReviewRequest ReviewAction where
  start request := { request }
  advance := advance

end

end ReviewTx

/-! What a step of a review does. -/

section
variable [Context] [Format] [Python]

theorem applyStock_keeps (args : MovementArgs) (reviewerId : Uuid) (stamp : MovementStamp) :
    Keeps StockGrows (applyStock args reviewerId stamp) := by
  refine .bind (proposeStockMovement_keeps _ _ _ _) fun outcome => ?_
  cases outcome with
  | answered result => exact .raise _
  | committed base movement => exact .pure _

omit [Python] in
theorem applyMatch_keeps (confirmed : ConfirmedMatch) (paymentId : Uuid) :
    Keeps PaymentsGrow (applyMatch confirmed paymentId) := by
  refine .bind (.bind (.getOrRaise _ _) fun invoiceId => ?_) fun payment => ?_
  · cases Format.ofIdentifier confirmed.transactionId with
    | some transactionId => exact applyReconciledPayment_keeps _
    | none =>
      refine .bind (.select _ _) fun found => .bind (.getOrRaise _ _) fun invoice => ?_
      split
      · exact .pure _
      · exact .raise _
  · cases payment with
    | some id => exact .pure _
    | none => exact .raise _

theorem applyProposal_keeps (actionType : String) (payload : ProposalPayload) (reviewerId : Uuid)
    (env : ApplyEnv) : Keeps Grows (applyProposal actionType payload reviewerId env) := by
  unfold applyProposal
  split
  · cases readMovement payload with
    | error e => exact .raise _
    | ok args => exact (applyStock_keeps _ _ _).mono StockGrows.grows
  · split
    · cases readMatch payload with
      | error e => exact .raise _
      | ok confirmed => exact (applyMatch_keeps _ _).mono PaymentsGrow.grows
    · exact .raise _

theorem applyProposal_movements {actionType : String} (hstock : actionType ≠ actionStockAdjustment)
    (payload : ProposalPayload) (reviewerId : Uuid) (env : ApplyEnv) :
    Keeps PaymentsGrow (applyProposal actionType payload reviewerId env) := by
  unfold applyProposal
  rw [if_neg hstock]
  split
  · cases readMatch payload with
    | error e => exact .raise _
    | ok confirmed => exact applyMatch_keeps _ _
  · exact .raise _

/-- The row that an apply which comes to its end has written. -/
inductive Wrote (actionType : String) (db db' : Db) : AppliedWrite → StockMovement ⊕ Payment → Prop
  | movement {base : MovementResult} {found : Option StockMovement} {row : StockMovement}
    (htype : actionType = actionStockAdjustment) (hpayments : db'.payments = db.payments)
    (hrows : db'.stockMovements.rows = db.stockMovements.rows ++ [row]) :
    Wrote actionType db db' (.moved base found) (.inl row)
  | payment {appliedRef : String} {row : Payment}
    (htype : actionType = actionReconciliationMatch)
    (hmovements : db'.stockMovements = db.stockMovements)
    (hrows : db'.payments.rows = db.payments.rows ++ [row]) :
    Wrote actionType db db' (.settled appliedRef) (.inr row)

theorem applyStock_eq_ok {args : MovementArgs} {reviewerId : Uuid} {stamp : MovementStamp}
    {faults : Faults Site ServiceError} {db db' : Db} {write : AppliedWrite}
    (h : applyStock args reviewerId stamp faults db = .ok write db') :
    ∃ base found row, write = .moved base found ∧ db'.payments = db.payments ∧
      db'.stockMovements.rows = db.stockMovements.rows ++ [row] := by
  simp only [applyStock, bind_eq_ok] at h
  obtain ⟨outcome, db₁, hpropose, h⟩ := h
  cases proposeStockMovement_eq_ok hpropose with
  | refused hstatus hdb => cases h
  | proposed happly hdb htype hquantity hstatus => cases happly
  | moved happly htype hguard hrun =>
    obtain ⟨l', row, hinsert, -, hdb⟩ := applyAccepted_eq_ok hrun
    cases h
    rw [hdb]
    exact ⟨_, _, row, rfl, rfl, Table.rows_of_insert hinsert⟩

omit [Python] in
theorem applyMatch_eq_ok {confirmed : ConfirmedMatch} {paymentId : Uuid}
    {faults : Faults Site ServiceError} {db db' : Db} {write : AppliedWrite}
    (h : applyMatch confirmed paymentId faults db = .ok write db') :
    ∃ appliedRef row, write = .settled appliedRef ∧ db'.stockMovements = db.stockMovements ∧
      db'.payments.rows = db.payments.rows ++ [row] := by
  simp only [applyMatch, applyConfirmedMatch, bind_eq_ok, getOrRaise_eq_ok] at h
  obtain ⟨paid, db₁, ⟨invoiceId, _, ⟨-, rfl⟩, hpaid⟩, h⟩ := h
  cases paid with
  | none => cases h
  | some id =>
    cases h
    cases htransaction : Format.ofIdentifier confirmed.transactionId with
    | none =>
      simp only [htransaction, bind_eq_ok, select_eq_ok, getOrRaise_eq_ok] at hpaid
      obtain ⟨_, _, ⟨-, rfl, rfl⟩, invoice, _, ⟨-, rfl⟩, hpaid⟩ := hpaid
      split at hpaid <;> cases hpaid
    | some transactionId =>
      simp only [htransaction] at hpaid
      obtain ⟨invoice, -, ⟨hnone, -⟩ | ⟨-, l', event, payment, outbox, emails, hposts, -, -, -, -,
        rfl⟩⟩ := applyReconciledPayment_eq_ok hpaid
      · cases hnone
      · obtain ⟨-, -, -, hposted⟩ := hposts
        have hinserted : db.payments.insert? payment = some l'.payments := hposted.payments
        refine ⟨_, payment, rfl, ?_, ?_⟩
        · cases (confirmed.payment invoiceId transactionId paymentId).mpesaTransId <;>
            cases (confirmed.payment invoiceId transactionId paymentId).bankLineId <;> rfl
        · simpa using Table.rows_of_insert hinserted

theorem applyProposal_eq_ok {actionType : String} {payload : ProposalPayload} {reviewerId : Uuid}
    {env : ApplyEnv} {db db' : Db} {write : AppliedWrite}
    (h : applyProposal actionType payload reviewerId env env.faults db = .ok write db') :
    ∃ row, Wrote actionType db db' write row := by
  unfold applyProposal at h
  by_cases hstock : actionType = actionStockAdjustment
  · rw [if_pos hstock] at h
    cases hargs : readMovement payload with
    | error e =>
      rw [hargs] at h
      cases h
    | ok args =>
      rw [hargs] at h
      obtain ⟨base, found, row, rfl, hpayments, hrows⟩ := applyStock_eq_ok h
      exact ⟨_, .movement hstock hpayments hrows⟩
  · rw [if_neg hstock] at h
    by_cases hmatch : actionType = actionReconciliationMatch
    · rw [if_pos hmatch] at h
      cases hconfirmed : readMatch payload with
      | error e =>
        rw [hconfirmed] at h
        cases h
      | ok confirmed =>
        rw [hconfirmed] at h
        obtain ⟨appliedRef, row, rfl, hmovements, hrows⟩ := applyMatch_eq_ok h
        exact ⟨_, .payment hmatch hmovements hrows⟩
    · rw [if_neg hmatch] at h
      cases h

end

namespace ReviewStore

theorem rows_of_same {db db' : Db} (hmovements : db'.stockMovements = db.stockMovements)
    (hpayments : db'.payments = db.payments) : rows db db' = [] := by
  simp [rows, newMovements, newPayments, hmovements, hpayments]

theorem commit_of_same {s : ReviewStore} {request : ReviewRequest} {db' : Db}
    (hmovements : db'.stockMovements = s.db.stockMovements)
    (hpayments : db'.payments = s.db.payments) : s.commit request db' = { s with db := db' } := by
  simp [commit, rows_of_same hmovements hpayments]

end ReviewStore

/-- The proposal after the verdict of a reviewer. -/
def Db.decided (db : Db) (request : ReviewRequest) (now : DateTime) : Db :=
  db.updateProposal request.proposalId
    (AgentActionProposal.decided request.verdict request.currentUser now) (fun _ _ => rfl)

theorem decideProposal_eq_ok [PayloadHash] {request : ReviewRequest} {now : DateTime}
    {faults : Faults Site ServiceError} {db db' : Db} {proposal : AgentActionProposal}
    (h : decideProposal request now faults db = .ok proposal db') :
    db.getProposal request.proposalId = some proposal ∧
      checkDecision request proposal = .ok () ∧ db' = db.decided request now := by
  simp only [decideProposal, bind_eq_ok, select_eq_ok, getOrRaise_eq_ok] at h
  obtain ⟨_, _, ⟨-, rfl, rfl⟩, found, _, ⟨hfound, rfl⟩, h⟩ := h
  cases hcheck : checkDecision request found with
  | error e =>
    rw [hcheck] at h
    cases h
  | ok u =>
    simp only [hcheck, bind_eq_ok, assign_apply, commit, site_eq_ok, pure_apply,
      Outcome.ok.injEq] at h
    obtain ⟨_, _, ⟨-, rfl⟩, _, _, ⟨-, rfl⟩, rfl, rfl⟩ := h
    exact ⟨hfound, hcheck, rfl⟩

theorem checkDecision_eq_ok [PayloadHash] {request : ReviewRequest} {proposal : AgentActionProposal}
    (h : checkDecision request proposal = .ok ()) :
    proposal.actionType = request.expectedActionType ∧ proposal.status = .proposed ∧
      proposal.triggeredBy ≠ some request.currentUser := by
  unfold checkDecision at h
  split at h
  · cases h
  · split at h
    · cases h
    · split at h
      · cases h
      · rename_i htype hstatus htriggered
        exact ⟨not_not.mp htype, not_not.mp hstatus, htriggered⟩

namespace ReviewTx
section
variable [Context] [Format] [Python] [PayloadHash]

/-- Every step that a review can take. -/
inductive Effect (s : ReviewStore) (t : ReviewTx) :
    ReviewAction → ReviewStore → Option ReviewTx → Prop
  | refused {now : DateTime} {faults : Faults Site ServiceError} (hphase : t.phase = .begun) :
    Effect s t (.decide now faults) s none
  | decided {now : DateTime} {faults : Faults Site ServiceError} {proposal : AgentActionProposal}
    (hphase : t.phase = .begun) (hfound : s.db.getProposal t.request.proposalId = some proposal)
    (hcheck : checkDecision t.request proposal = .ok ()) :
    Effect s t (.decide now faults) { s with db := s.db.decided t.request now }
      (if t.request.approves then
        some { t with phase := .claimed proposal.actionType proposal.payload } else none)
  | moved {env : ApplyEnv} {commits : Bool} {actionType : String} {payload : ProposalPayload}
    {base : MovementResult} {movement : Option StockMovement} {db' : Db}
    (hphase : t.phase = .claimed actionType payload)
    (hrun : applyProposal actionType payload t.request.currentUser env env.faults s.db =
      .ok (.moved base movement) db') :
    Effect s t (.apply env commits) (s.commit t.request db')
      (some { t with phase := .moved base movement })
  | settled {env : ApplyEnv} {commits : Bool} {actionType : String} {payload : ProposalPayload}
    {appliedRef : String} {working : Db} (hphase : t.phase = .claimed actionType payload)
    (hrun : applyProposal actionType payload t.request.currentUser env env.faults s.db =
      .ok (.settled appliedRef) working) :
    Effect s t (.apply env commits) (s.finishProposal t.request commits appliedRef working) none
  | failed {env : ApplyEnv} {commits : Bool} {actionType : String} {payload : ProposalPayload}
    {e : ServiceError} {working : Db} (hphase : t.phase = .claimed actionType payload)
    (hrun : applyProposal actionType payload t.request.currentUser env env.faults s.db =
      .raised e working) :
    Effect s t (.apply env commits) (s.resetProposal t.request commits working) none
  | aborted {env : ApplyEnv} {commits : Bool} {actionType : String} {payload : ProposalPayload}
    {e : ServiceError} (hphase : t.phase = .claimed actionType payload)
    (hrun : applyProposal actionType payload t.request.currentUser env env.faults s.db =
      .aborted e) :
    Effect s t (.apply env commits) s none
  | audited {recorded commits : Bool} {base result : MovementResult}
    {movement : Option StockMovement} {db' : Db} (hphase : t.phase = .moved base movement)
    (haudit : auditMovement recorded base (some t.request.currentUser) movement s.db =
      (some result, db')) :
    Effect s t (.audit recorded commits) (s.commit t.request db')
      (some { t with phase := .applied result.detail })
  | unaudited {recorded commits : Bool} {base : MovementResult} {movement : Option StockMovement}
    {db' : Db} (hphase : t.phase = .moved base movement)
    (haudit : auditMovement recorded base (some t.request.currentUser) movement s.db =
      (none, db')) :
    Effect s t (.audit recorded commits) (s.resetProposal t.request commits db') none
  | finished {commits : Bool} {appliedRef : String} (hphase : t.phase = .applied appliedRef) :
    Effect s t (.finish commits) (s.finishProposal t.request commits appliedRef s.db) none
  | outside {work : OutsideWork} : Effect s t (.outside work) { s with db := work.run s.db } (some t)
  | crashed : Effect s t .crash s none

theorem advance_effect {s s' : ReviewStore} {others : List ReviewTx} {t : ReviewTx}
    {action : ReviewAction} {ended : Option ReviewTx}
    (h : advance s others t action = some (s', ended)) : Effect s t action s' ended := by
  cases action with
  | decide now faults =>
    cases hphase : t.phase with
    | begun =>
      cases hrun : decideProposal t.request now faults s.db with
      | ok proposal db' =>
        simp only [advance, hphase, hrun, Option.some.injEq, Prod.mk.injEq] at h
        obtain ⟨rfl, rfl⟩ := h
        obtain ⟨hfound, hcheck, rfl⟩ := decideProposal_eq_ok hrun
        rw [ReviewStore.commit_of_same (by rfl) (by rfl)]
        exact .decided hphase hfound hcheck
      | raised e working =>
        simp only [advance, hphase, hrun, Option.some.injEq, Prod.mk.injEq] at h
        obtain ⟨rfl, rfl⟩ := h
        exact .refused hphase
      | aborted e =>
        simp only [advance, hphase, hrun, Option.some.injEq, Prod.mk.injEq] at h
        obtain ⟨rfl, rfl⟩ := h
        exact .refused hphase
    | _ =>
      simp only [advance, hphase] at h
      cases h
  | apply env commits =>
    cases hphase : t.phase with
    | claimed actionType payload =>
      rcases hrun : applyProposal actionType payload t.request.currentUser env env.faults s.db with
        ⟨⟨base, movement⟩ | appliedRef, db'⟩ | ⟨e, working⟩ | e
      all_goals
        simp only [advance, hphase, hrun, Option.some.injEq, Prod.mk.injEq] at h
        obtain ⟨rfl, rfl⟩ := h
      · exact .moved hphase hrun
      · exact .settled hphase hrun
      · exact .failed hphase hrun
      · exact .aborted hphase hrun
    | _ =>
      simp only [advance, hphase] at h
      cases h
  | audit recorded commits =>
    cases hphase : t.phase with
    | moved base movement =>
      rcases haudit : auditMovement recorded base (some t.request.currentUser) movement s.db with
        ⟨_ | result, db'⟩
      all_goals
        simp only [advance, hphase, haudit, Option.some.injEq, Prod.mk.injEq] at h
        obtain ⟨rfl, rfl⟩ := h
      · exact .unaudited hphase haudit
      · exact .audited hphase haudit
    | _ =>
      simp only [advance, hphase] at h
      cases h
  | finish commits =>
    cases hphase : t.phase with
    | applied appliedRef =>
      simp only [advance, hphase, Option.some.injEq, Prod.mk.injEq] at h
      obtain ⟨rfl, rfl⟩ := h
      exact .finished hphase
    | _ =>
      simp only [advance, hphase] at h
      cases h
  | outside work =>
    cases h
    exact .outside
  | crash =>
    cases h
    exact .crashed

end
end ReviewTx

end Finguard
