import Finguard.Permissions
import Finguard.Proposals
import Finguard.StockTool

/-! The stock steward. It takes its orders from a context that the caller starts, and
moves stock inline where the role it finds may act. -/

namespace Finguard
open Decimal Text Transaction Transaction.Tx Json

/-! The context of a run. -/

inductive Route where
  | conversation
  | aiInsights
  | aiActions
deriving DecidableEq

structure AgentRequest where
  route : Route
  message : String
  mode : String
  context : Fields

inductive GraphNode where
  | supervisor
  | planner
  | hubWriter
  | aGenerator
  | bClassifier
  | cReconciler
  | dForecaster
  | eWatchdog
  | fAuditor
  | gReporter
  | hAdvisor
  | iIntegrator
  | jSummarizer
  | kStockkeeper

/-- The keys that a node sets. The first three return the rest of the context as they
found it. -/
def GraphNode.writeKeys : GraphNode → List String
  | supervisor => ["_route_history", "_route_origin", "_planner_targets"]
  | planner => ["_plan", "_planner_targets", "_replans_used", "_replan_targets", "_stage",
      "_current_dispatch", "_planner_skipped", "_planner_done"]
  | hubWriter => ["hub_genui_artifact_ids", "hub_artifact_id", "hub_artifact_ids", "_handed_off"]
  | aGenerator => ["extracted_invoice"]
  | bClassifier => ["classified_transactions"]
  | cReconciler => ["reconciliation_report"]
  | dForecaster => ["forecast", "sql_result"]
  | eWatchdog => ["watchdog_analysis", "budget_watchdog_result"]
  | fAuditor => ["audit_result"]
  | gReporter => ["credit_strategy_result", "credit_forecast", "credit_report_pdf_b64",
      "credit_forecast_xlsx_b64"]
  | hAdvisor => ["advice", "crm_profile"]
  | iIntegrator => ["external_data"]
  | jSummarizer => ["executive_summary", "executive_summary_bullets"]
  | kStockkeeper => ["inventory_analysis"]

structure ContextWrite where
  node : GraphNode
  update : Fields
  owned : ∀ field ∈ update, field.1 ∈ node.writeKeys

/-- A conversation puts the caller's context over its own two fields. -/
def AgentRequest.initialContext (request : AgentRequest) (auditTrail : String) : Fields :=
  match request.route with
  | .conversation =>
    Fields.merge [("current_intent", .text request.message), ("audit_trail", .text auditTrail)]
      request.context
  | .aiInsights => request.context
  | .aiActions => request.context

def AgentRequest.graphContext (request : AgentRequest) (auditTrail : String)
    (writes : List ContextWrite) : Fields :=
  (writes.map ContextWrite.update).foldl Fields.merge (request.initialContext auditTrail)

/-! What the steward makes of its context. -/

inductive StewardError where
  | attribute
  | expired
  | service (error : ServiceError)

structure StockAnalysis where
  userRole : String
  canAct : Bool
  movementResult : Option MovementResult

/-- What one run of the steward is given by its surroundings: whether the query for the
role is answered, which statements fail, whether the audit row is written, and what new rows
are named. -/
structure StewardTurn where
  roleAnswered : Bool
  faults : Faults Site ServiceError
  audited : Bool
  stamp : MovementStamp
  proposalId : Uuid
  rationale : Option String
  notice : ReviewNotice

/-- The role must hold both the permission to act and the one to write to the inventory. -/
def canAct (userRole : String) : Bool :=
  (UserRole.ofValue? userRole).any
    (fun role => hasPermission role .intelligenceAct && hasPermission role .inventoryWrite)

def requestedAction (ctx : Fields) : Option Fields :=
  (ctx.get "stock_action").fields?.filter (fun action => (action.get "product_ref").truthy)

section
variable [Format] [Unicode]

def lookUpRole (answered : Bool) (users : Table User) (userId : String) : String :=
  if answered then
    match users.find? (fun user => Format.identifier user.id == userId) with
    | some user => Unicode.lower user.role.name
    | none => "viewer"
  else "viewer"

def resolveUserRole (answered : Bool) (users : Table User) (userId : Option String)
    (ctxRole : Json) : Except StewardError String :=
  if ctxRole.truthy then
    match ctxRole with
    | .text role => .ok (Unicode.lower role)
    | _ => .error .attribute
  else
    match userId with
    | none => .ok "viewer"
    | some userId => .ok (if userId = "" then "viewer" else lookUpRole answered users userId)

end

section
variable [Context] [Format] [Unicode] [Python]

def movementArgs (action : Fields) : Except ServiceError MovementArgs := do
  let quantity ← Python.float ((action.get? "quantity").getD (.number 0))
  return {
    productRef := Python.str (action.get "product_ref")
    movementType := Python.str ((action.get? "movement_type").getD (.text "adjustment"))
    quantity
    reason := action.get "reason"
    unitCost := action.get "unit_cost"
    note := action.get "note" }

def adjustmentDraft (turn : StewardTurn) (args : MovementArgs) (quantity : ℚ)
    (actorId : Option Uuid) : ProposalDraft where
  id := turn.proposalId
  agentLabel := "k_stockkeeper"
  actionType := actionStockAdjustment
  payload := .stock args.productRef args.movementType quantity args.reason args.unitCost args.note
  triggeredBy := actorId
  rationale := turn.rationale

def queuePreviewed [PayloadHash] (turn : StewardTurn) (args : MovementArgs)
    (actorId : Option Uuid) (preview : MovementOutcome) : AppTx MovementResult :=
  match preview, args.quantity with
  | .answered result, .finite quantity =>
    if result.status ≠ "proposed" then return result
    else do
      let proposal ← createProposal (adjustmentDraft turn args quantity actorId) turn.notice
      return { result with
        status := "pending_approval"
        proposalId := some proposal.id
        detail := "Queued for release by a second authorised reviewer (inventory:adjust)." }
  | .answered result, _ => return result
  | .committed base _, _ => return base

/-- An adjustment is never applied here. A movement that is possible waits for a second
person. -/
def queueAdjustmentProposal [PayloadHash] (turn : StewardTurn) (args : MovementArgs)
    (actorId : Option Uuid) : AppTx MovementResult := do
  let preview ← proposeStockMovement args false actorId turn.stamp
  queuePreviewed turn args actorId preview

/-- What an answer is and what the store holds after it. A call that fails commits nothing. -/
def settled {α : Type} (run : Transaction.Outcome Db ServiceError α) (db : Db) :
    Except StewardError α × Db :=
  match run with
  | .ok a db' => (.ok a, db')
  | .raised e _ => (.error (.service e), db)
  | .aborted e => (.error (.service e), db)

def moveInline (turn : StewardTurn) (args : MovementArgs) (apply : Bool) (actorId : Option Uuid)
    (db : Db) : Except StewardError MovementResult × Db :=
  match proposeStockMovement args apply actorId turn.stamp turn.faults db with
  | .ok (.answered result) _ => (.ok result, db)
  | .ok (.committed base movement) db' =>
    let (answer, db'') := auditMovement turn.audited base actorId movement db'
    (answer.elim (.error .expired) .ok, db'')
  | .raised e _ => (.error (.service e), db)
  | .aborted e => (.error (.service e), db)

def actorOf (userId : Option String) : Option Uuid :=
  match userId with
  | none => none
  | some userId => if userId = "" then none else Format.ofIdentifier userId

/-- An adjustment in any case waits for a second person. -/
def requestedMovement [PayloadHash] (turn : StewardTurn) (args : MovementArgs) (apply : Bool)
    (actorId : Option Uuid) (db : Db) : Except StewardError MovementResult × Db :=
  if Unicode.lower args.movementType = MovementType.adjustment.value then
    settled (queueAdjustmentProposal turn args actorId turn.faults db) db
  else moveInline turn args apply actorId db

/-- The write request in the context, for a role that may act or not. -/
def requestMovement [PayloadHash] (turn : StewardTurn) (granted : Bool) (ctx : Fields)
    (userId : Option String) (db : Db) : Except StewardError (Option MovementResult) × Db :=
  match (requestedAction ctx).map movementArgs with
  | none => (.ok none, db)
  | some (.error e) => (.error (.service e), db)
  | some (.ok args) =>
    let apply := granted && (ctx.get "require_stock_confirmation").truthy
    let (answer, db') := requestedMovement turn args apply (actorOf userId) db
    (answer.map some, db')

def runStockAnalysis [PayloadHash] (turn : StewardTurn) (users : Table User) (ctx : Fields)
    (userId : Option String) (db : Db) : Except StewardError StockAnalysis × Db :=
  match resolveUserRole turn.roleAnswered users userId (ctx.get "user_role") with
  | .error e => (.error e, db)
  | .ok userRole =>
    let (answer, db') := requestMovement turn (canAct userRole) ctx userId db
    (answer.map (fun movementResult => ⟨userRole, canAct userRole, movementResult⟩), db')

/-- The steward's turn in a run that an authenticated user has asked for. -/
def stockTurn [PayloadHash] (turn : StewardTurn) (users : Table User) (user : Uuid)
    (request : AgentRequest) (auditTrail : String) (writes : List ContextWrite) (db : Db) :
    Except StewardError StockAnalysis × Db :=
  runStockAnalysis turn users (request.graphContext auditTrail writes) (some (Format.identifier user))
    db

omit [Unicode] [Python] in
theorem queuePreviewed_refused [PayloadHash] {turn : StewardTurn} {args : MovementArgs}
    {actorId : Option Uuid} {faults : Faults Site ServiceError} {db db' : Db}
    {base result : MovementResult} (hstatus : base.status ≠ "proposed")
    (h : queuePreviewed turn args actorId (.answered base) faults db = .ok result db') :
    db' = db := by
  unfold queuePreviewed at h
  cases hquantity : args.quantity with
  | finite quantity =>
    simp only [hquantity, hstatus, ne_eq, not_false_eq_true, if_true] at h
    cases h
    rfl
  | _ =>
    simp only [hquantity] at h
    cases h
    rfl

omit [Unicode] in
/-- Either nothing is written, or the proposal is. -/
theorem queueAdjustmentProposal_eq_ok [PayloadHash] {turn : StewardTurn} {args : MovementArgs}
    {actorId : Option Uuid} {faults : Faults Site ServiceError} {db db' : Db}
    {result : MovementResult}
    (h : queueAdjustmentProposal turn args actorId faults db = .ok result db') :
    db' = db ∨ ∃ quantity proposals emailOutbox,
      args.quantity = .finite quantity ∧ (MovementType.ofValue? args.movementType).isSome ∧
      db.proposals.insert? (adjustmentDraft turn args quantity actorId).proposal = some proposals ∧
      db' = { db with proposals, emailOutbox } := by
  simp only [queueAdjustmentProposal, bind_eq_ok] at h
  obtain ⟨preview, db₁, hpreview, h⟩ := h
  cases proposeStockMovement_eq_ok hpreview with
  | refused hstatus hdb =>
    left
    rw [queuePreviewed_refused (by rw [hstatus]; decide) h, hdb rfl]
  | proposed happly hdb htype hquantity hstatus =>
    right
    simp only [queuePreviewed, hquantity, hstatus, ne_eq, not_true_eq_false, if_false, bind_eq_ok,
      pure_apply, Outcome.ok.injEq] at h
    obtain ⟨proposal, db₂, hcreate, -, rfl⟩ := h
    obtain ⟨-, proposals, emailOutbox, hinsert, rfl⟩ := createProposal_eq_ok hcreate
    rw [hdb] at hinsert ⊢
    exact ⟨_, proposals, emailOutbox, hquantity, by rw [htype]; rfl, hinsert, rfl⟩
  | moved happly htype hguard hrun => cases happly

end

end Finguard
