import Finguard.PayableReview

/-! What agents propose and people decide. A proposal has no effect of its own. -/

namespace Finguard
open Decimal Text Transaction Transaction.Tx

def actionStockAdjustment : String := "stock.adjustment"

def actionReconciliationMatch : String := "reconciliation.match"

/-- The fingerprint of the arguments that a proposal was made with. -/
class PayloadHash where
  payloadHash : ProposalPayload → String

/-- The registered agent behind a type of action. -/
def actionAgentId (actionType : String) : Option String :=
  if actionType = actionStockAdjustment then some "K"
  else if actionType = actionReconciliationMatch then some "C"
  else none

def mutationKinds : String → List String
  | "B" => ["direct_write"]
  | "C" => ["direct_write", "proposal"]
  | "E" => ["event", "direct_write"]
  | "K" => ["proposal"]
  | _ => []

structure ProposalDraft where
  id : Uuid
  agentLabel : String
  actionType : String
  payload : ProposalPayload
  triggeredBy : Option Uuid
  rationale : Option String

/-- What the reconciler asks for. Nobody has triggered it. -/
def matchDraft (id : Uuid) (payload : ProposalPayload) (rationale : Option String) :
    ProposalDraft where
  id
  agentLabel := "c_reconciler"
  actionType := actionReconciliationMatch
  payload
  triggeredBy := none
  rationale

/-- The people who are told of a new proposal. -/
structure ReviewNotice where
  reviewUrl : String
  reviewers : List Reviewer

namespace Db

def getProposal (db : Db) (id : Uuid) : Option AgentActionProposal :=
  db.proposals.find? (·.id == id)

def insertProposal (db : Db) (proposal : AgentActionProposal) : Option Db := do
  let proposals ← db.proposals.insert? proposal
  return { db with proposals }

def updateProposal (db : Db) (id : Uuid) (f : AgentActionProposal → AgentActionProposal)
    (hf : ∀ a b, Row.clash (f a) b = Row.clash a b) : Db :=
  { db with proposals := db.proposals.update (·.id == id) f hf }

end Db

section
variable [PayloadHash]

def ProposalDraft.proposal (draft : ProposalDraft) : AgentActionProposal where
  id := draft.id
  agentLabel := draft.agentLabel
  actionType := draft.actionType
  payload := draft.payload
  payloadHash := some (PayloadHash.payloadHash draft.payload)
  status := .proposed
  triggeredBy := draft.triggeredBy
  reviewedBy := none
  reviewedAt := none
  appliedRef := none

def createProposal [Context] [Format] (draft : ProposalDraft) (notice : ReviewNotice) :
    AppTx AgentActionProposal := do
  let agentId := (actionAgentId draft.actionType).getD draft.agentLabel
  raiseIf ("proposal" ∉ mutationKinds agentId)
    (.runtime (s!"Agent '{agentId}' is not declared 'proposal'-capable in agent_registry, " ++
      s!"but create_proposal was called for action_type '{draft.actionType}'."))
  site .requireTaskVc
  flush .insertProposal .database (·.insertProposal draft.proposal)
  site .listReviewers
  notifyReviewers "An agent action needs your review" "approval_needed"
    [("summary",
        some s!"{draft.agentLabel} proposed an action ({draft.actionType}) awaiting release."),
      ("detail", some (draft.rationale.getD "")), ("review_url", some notice.reviewUrl)]
    draft.id "proposal_review" draft.triggeredBy notice.reviewers
  commit
  return draft.proposal

theorem createProposal_eq_ok [Context] [Format] {draft : ProposalDraft} {notice : ReviewNotice}
    {faults : Faults Site ServiceError} {db db' : Db} {proposal : AgentActionProposal}
    (h : createProposal draft notice faults db = .ok proposal db') :
    proposal = draft.proposal ∧ ∃ proposals emailOutbox,
      db.proposals.insert? draft.proposal = some proposals ∧
      db' = { db with proposals, emailOutbox } := by
  simp only [createProposal, bind_eq_ok, raiseIf_eq_ok, site_eq_ok, flush_eq_ok, commit, pure_apply,
    Outcome.ok.injEq, Db.insertProposal, Option.bind_eq_bind, Option.bind_eq_some_iff] at h
  obtain ⟨_, _, ⟨-, rfl⟩, _, _, ⟨-, rfl⟩, _, _, ⟨-, proposals, hinsert, hdb⟩, _, _, ⟨-, rfl⟩, _, _,
    hnotify, _, _, ⟨-, rfl⟩, rfl, rfl⟩ := h
  obtain rfl := Option.some.inj hdb
  obtain ⟨emailOutbox, rfl⟩ := notifyReviewers_eq_ok hnotify
  exact ⟨rfl, proposals, emailOutbox, hinsert, rfl⟩

end

end Finguard
