import Finguard.FailedApproval
import Finguard.MatchStatus
import Finguard.Settlement

/-! Reconciliation runs and reviews that take turns. A run holds the rows it has picked up until it
has committed its exact matches, and proposes the others afterwards, one by one. -/

namespace Finguard
open Decimal Text Transaction Transaction.Tx Sessions

def ProposalPayload.transactionId? : ProposalPayload → Option String
  | .settlement transactionId _ _ _ _ _ _ _ => some transactionId
  | .stock .. => none

/-- The check before a match is proposed. It compares texts. -/
def Db.pendingReconciliationProposalExists (db : Db) (transactionId : String) : Bool :=
  db.proposals.rows.any fun p => p.actionType == actionReconciliationMatch &&
    p.status == .proposed && p.payload.transactionId? == some transactionId

section
variable [Format]

def ReconciliationMatch.payload (m : ReconciliationMatch) (occurredAt : DateTime) :
    ProposalPayload :=
  .settlement m.transactionId m.invoiceId m.matchType.value m.matchScore m.amount
    m.newInvoiceStatus.value m.source.value (Format.isoformat occurredAt)

variable [Context] [Unicode]

/-- What a run does once it holds its rows. -/
def settleLocked (source : MatchSource) (env : ReconciliationEnv)
    (rows : List (FloatingSettlement × DateTime)) (invoices : List OpenInvoice) :
    AppTx ReconciliationResult :=
  match runPasses env.tuning env.scorer source (rows.map Prod.fst) invoices with
  | .error e => raise e
  | .ok passes => do
    raiseIf ("direct_write" ∉ mutationKinds "C") (.runtime (
      "Agent 'C' is not declared 'direct_write'-capable in " ++
      "agent_registry, but reconciliation_service's Pass 1 auto-apply " ++
      "requires it — registry/code have drifted apart."))
    let settled ← applyExactMatches env (rows.map fun row => (row.1.id, row.2)) 0
      ⟨[], passes.matchedTxnIds, passes.matchedInvIds⟩ passes.exactMatches
    commit
    return ⟨reportOf (rows.map Prod.fst).length settled passes.semanticMatches env.now,
      passes.semanticMatches⟩

/-- A run whose two halves follow each other. -/
theorem reconcile_eq (source : MatchSource) (env : ReconciliationEnv) :
    reconcile source env = (do
      let rows ← select .lockTransactions (·.lockTransactions env source)
      let invoices ← select .lockOpenInvoices (·.lockOpenInvoices env)
      settleLocked source env rows invoices) := rfl

end

/-! The sessions. -/

inductive RunPhase where
  | begun
  | locked (rows : List (FloatingSettlement × DateTime)) (invoices : List OpenInvoice)
  | proposing (matched : List ReconciliationMatch) (txnDates : List (String × DateTime))
  | checked (m : ReconciliationMatch) (rest : List ReconciliationMatch)
      (txnDates : List (String × DateTime))

structure RunTx where
  source : MatchSource
  env : ReconciliationEnv
  phase : RunPhase := .begun

inductive SettlementTx where
  | run (t : RunTx)
  | review (t : ReviewTx)

inductive SettlementRequest where
  | run (source : MatchSource) (env : ReconciliationEnv)
  | review (request : ReviewRequest)

/-- Other work of the application leaves the proposals alone and settles nothing. -/
structure UnsettlingWork where
  run : Db → Db
  settles : ∀ db, Settles [] db (run db)

inductive SettlementAction where
  | fetch
  | settle (faults : Faults Site ServiceError)
  | check
  | propose (id : Uuid) (rationale : Option String) (notice : ReviewNotice)
    (faults : Faults Site ServiceError)
  | review (action : ReviewAction)
  | outside (work : UnsettlingWork)
  | crash

def SettlementTx.start : SettlementRequest → SettlementTx
  | .run source env => .run { source, env }
  | .review request => .review { request }

def MatchSource.settlement : MatchSource → Uuid → Settlement
  | mpesa => .mpesa
  | bank => .bankLine

section
variable [Format]

/-- The rows that a run holds. -/
def SettlementTx.holds (settlement : Settlement) : SettlementTx → Bool
  | .run ⟨source, _, .locked rows _⟩ => rows.any fun row =>
      (Format.ofIdentifier row.1.id).map source.settlement == some settlement
  | _ => false

def SettlementTx.holdsInvoice (id : Uuid) : SettlementTx → Bool
  | .run ⟨_, _, .locked _ invoices⟩ => invoices.any fun invoice =>
      Format.ofIdentifier invoice.id == some id
  | _ => false

/-- A run skips the rows that others hold. -/
def RunTx.skipping (t : RunTx) (others : List SettlementTx) : ReconciliationEnv :=
  { t.env with
    heldTxn := fun id => t.env.heldTxn id || others.any (·.holds (t.source.settlement id))
    heldInv := fun id => t.env.heldInv id || others.any (·.holdsInvoice id) }

def ProposalPayload.invoice? : ProposalPayload → Option Uuid
  | .settlement _ invoiceId _ _ _ _ _ _ => Format.ofIdentifier invoiceId
  | .stock .. => none

/-- An apply waits for the rows that a run holds. -/
def ReviewTx.waits (t : ReviewTx) (others : List SettlementTx) : ReviewAction → Bool
  | .apply _ _ =>
    match t.phase with
    | .claimed actionType payload =>
      (settlementOf actionType payload).any (fun x => others.any (·.holds x)) ||
        payload.invoice?.any (fun id => others.any (·.holdsInvoice id))
    | _ => false
  | _ => false

def RunTx.draft (t : RunTx) (m : ReconciliationMatch) (txnDates : List (String × DateTime))
    (id : Uuid) (rationale : Option String) : ProposalDraft :=
  matchDraft id (m.payload ((txnDates.lookup m.transactionId).getD t.env.now)) rationale

variable [Context] [Unicode] [Python] [PayloadHash]

def RunTx.advance (s : ReviewStore) (others : List SettlementTx) (t : RunTx) :
    SettlementAction → Option (ReviewStore × Option RunTx)
  | .fetch =>
    match t.phase with
    | .begun =>
      let env := t.skipping others
      some (s, some { t with
        phase := .locked (s.db.lockTransactions env t.source) (s.db.lockOpenInvoices env) })
    | _ => none
  | .settle faults =>
    match t.phase with
    | .locked rows invoices =>
      match settleLocked t.source t.env rows invoices faults s.db with
      | .ok result db' => some ({ s with db := db' }, some { t with
          phase := .proposing result.semanticMatches (rows.map fun row => (row.1.id, row.2)) })
      | _ => some (s, none)
    | _ => none
  | .check =>
    match t.phase with
    | .proposing [] _ => some (s, none)
    | .proposing (m :: rest) txnDates =>
      if s.db.pendingReconciliationProposalExists m.transactionId then
        some (s, some { t with phase := .proposing rest txnDates })
      else some (s, some { t with phase := .checked m rest txnDates })
    | _ => none
  | .propose id rationale notice faults =>
    match t.phase with
    | .checked m rest txnDates =>
      match createProposal (t.draft m txnDates id rationale) notice faults s.db with
      | .ok _ db' =>
        some ({ s with db := db' }, some { t with phase := .proposing rest txnDates })
      | _ => some (s, none)
    | _ => none
  | _ => none

def SettlementTx.advance (s : ReviewStore) (others : List SettlementTx) (t : SettlementTx) :
    SettlementAction → Option (ReviewStore × Option SettlementTx)
  | .review (.outside _) => none
  | .review action =>
    match t with
    | .run _ => none
    | .review t =>
      if t.waits others action then none
      else (t.advance s [] action).map fun (s', ended) => (s', ended.map .review)
  | .outside work => some ({ s with db := work.run s.db }, some t)
  | .crash => some (s, none)
  | action =>
    match t with
    | .run t => (t.advance s others action).map fun (s', ended) => (s', ended.map .run)
    | .review _ => none

def settlementMachine : Machine ReviewStore SettlementTx SettlementRequest SettlementAction where
  start := SettlementTx.start
  advance := SettlementTx.advance

end

/-! What the steps of a run settle. -/

section
variable [Format]

def ReconciliationMatch.settlement? (m : ReconciliationMatch) : Option Settlement :=
  (Format.ofIdentifier m.transactionId).map m.source.settlement

theorem settlementOf_payload (m : ReconciliationMatch) (occurredAt : DateTime) :
    settlementOf actionReconciliationMatch (m.payload occurredAt) = m.settlement? := by
  unfold ReconciliationMatch.settlement? settlementOf ReconciliationMatch.payload
  cases m.source <;> rfl

/-- The settlements that the exact matches of a run apply. -/
def exactSettlements [Unicode] (source : MatchSource) (env : ReconciliationEnv)
    (rows : List (FloatingSettlement × DateTime)) (invoices : List OpenInvoice) : List Settlement :=
  match runPasses env.tuning env.scorer source (rows.map Prod.fst) invoices with
  | .error _ => []
  | .ok passes => (passes.exactMatches.filter env.requireTaskVc).filterMap (·.settlement?)

variable [Context]

theorem applyExactMatches_settles (env : ReconciliationEnv) (txnDates : List (String × DateTime))
    (index : ℕ) (settled : Settled) (matched : List ReconciliationMatch) :
    Keeps (Settles ((matched.filter env.requireTaskVc).filterMap (·.settlement?)))
      (applyExactMatches env txnDates index settled matched) := by
  induction matched generalizing index settled with
  | nil => exact .pure _
  | cons m rest ih =>
    by_cases hvc : env.requireTaskVc m = true
    · rw [applyExactMatches, if_pos hvc, List.filter_cons_of_pos hvc]
      have hone : Keeps (Settles ((m :: rest.filter env.requireTaskVc).filterMap (·.settlement?)))
          (applyConfirmedMatch (m.confirmed txnDates env.now) (env.paymentId index)) := by
        refine applyConfirmedMatch_settles (fun id hid => ?_) _
        refine List.mem_filterMap.mpr ⟨m, List.mem_cons_self, ?_⟩
        change Format.ofIdentifier m.transactionId = some id at hid
        rw [ReconciliationMatch.settlement?, hid]
        cases hsource : m.source <;>
          simp [ReconciliationMatch.confirmed, MatchSource.vault, MatchSource.settlement, hsource]
      refine .bind (fun faults db db' h => hone (faults ∘ Site.inBatch index) db db' h) fun _ => ?_
      refine (ih _ _).mono (Settles.mono fun x hx => ?_)
      rw [List.filterMap_cons]
      split
      · exact hx
      · exact List.mem_cons_of_mem _ hx
    · rw [applyExactMatches, if_neg hvc, List.filter_cons_of_neg hvc]
      exact ih _ _

theorem settleLocked_settles [Unicode] (source : MatchSource) (env : ReconciliationEnv)
    (rows : List (FloatingSettlement × DateTime)) (invoices : List OpenInvoice) :
    Keeps (Settles (exactSettlements source env rows invoices))
      (settleLocked source env rows invoices) := by
  unfold settleLocked exactSettlements
  cases runPasses env.tuning env.scorer source (rows.map Prod.fst) invoices with
  | error e => exact .raise _
  | ok passes =>
    exact .bind (.raiseIf _ _) fun _ => .bind (applyExactMatches_settles _ _ _ _ _) fun _ =>
      .bind (.site _) fun _ => .pure _

end

/-! Proposals keep their type and their payload. -/

/-- A proposal of this type and payload is there. -/
def Db.Records (db : Db) (id : Uuid) (actionType : String) (payload : ProposalPayload) : Prop :=
  ∃ p, db.getProposal id = some p ∧ p.actionType = actionType ∧ p.payload = payload

structure Retains (db db' : Db) : Prop where
  records : ∀ id actionType payload, db.Records id actionType payload →
    db'.Records id actionType payload

namespace Retains
variable {db db' db'' : Db}

theorem refl (db : Db) : Retains db db := ⟨fun _ _ _ => id⟩

theorem trans (h : Retains db db') (h' : Retains db' db'') : Retains db db'' :=
  ⟨fun id actionType payload hold => h'.records id actionType payload (h.records id _ _ hold)⟩

theorem of_eq (h : db'.proposals = db.proposals) : Retains db db' := by
  refine ⟨fun id actionType payload hold => ?_⟩
  obtain ⟨p, hp, hsame⟩ := hold
  exact ⟨p, by rwa [Db.getProposal, h], hsame⟩

theorem updateProposal (db : Db) (proposalId : Uuid) {f : AgentActionProposal → AgentActionProposal}
    (hf : ∀ a b, Row.clash (f a) b = Row.clash a b)
    (hkept : ∀ p, (f p).id = p.id ∧ (f p).actionType = p.actionType ∧ (f p).payload = p.payload) :
    Retains db (db.updateProposal proposalId f hf) := by
  refine ⟨fun id actionType payload hold => ?_⟩
  obtain ⟨p, hp, htype, hpayload⟩ := hold
  have hfind : (db.updateProposal proposalId f hf).getProposal id =
      (db.getProposal id).map (Table.updated (·.id == proposalId) f) :=
    @Table.find?_update _ _ db.proposals _ _ f hf fun p => by rw [(hkept p).1]
  obtain ⟨-, htype', hpayload'⟩ := hkept p
  rw [hp, Option.map_some] at hfind
  refine ⟨_, hfind, ?_⟩
  unfold Table.updated
  split
  · exact ⟨htype'.trans htype, hpayload'.trans hpayload⟩
  · exact ⟨htype, hpayload⟩

theorem insert {proposal : AgentActionProposal} {proposals : Table AgentActionProposal}
    {emailOutbox : Table EmailMessage} (hinsert : db.proposals.insert? proposal = some proposals) :
    Retains db { db with proposals, emailOutbox } := by
  refine ⟨fun id actionType payload hold => ?_⟩
  obtain ⟨p, hp, hsame⟩ := hold
  refine ⟨p, ?_, hsame⟩
  change db.proposals.rows.find? _ = some p at hp
  show proposals.rows.find? _ = some p
  rw [Table.rows_of_insert hinsert, List.find?_append, hp]
  rfl

end Retains

theorem retains_reset (db : Db) (id : Uuid) :
    Retains db (db.updateProposal id AgentActionProposal.reset fun _ _ => rfl) :=
  .updateProposal db id _ fun _ => ⟨rfl, rfl, rfl⟩

theorem retains_referenced (db : Db) (id : Uuid) (appliedRef : String) :
    Retains db (db.updateProposal id (AgentActionProposal.referenced appliedRef) fun _ _ => rfl) :=
  .updateProposal db id _ fun _ => ⟨rfl, rfl, rfl⟩

section
variable [Format]

theorem Db.Records.settlement?_eq {db : Db} {id : Uuid} {actionType : String}
    {payload : ProposalPayload} (h : db.Records id actionType payload) {p : AgentActionProposal}
    (hp : db.getProposal id = some p) : p.settlement? = settlementOf actionType payload := by
  obtain ⟨p', hp', rfl, rfl⟩ := h
  obtain rfl := Option.some.inj (hp.symm.trans hp')
  rfl

theorem settlementOf_stock (payload : ProposalPayload) :
    settlementOf actionStockAdjustment payload = none := by
  have hne : actionStockAdjustment ≠ actionReconciliationMatch := by decide
  cases payload with
  | stock => rfl
  | settlement => rw [settlementOf, if_neg hne]

theorem auditMovement_settles {audited : Bool} {base : MovementResult} {actorId : Option Uuid}
    {movement : Option StockMovement} {db db' : Db} {answer : Option MovementResult}
    (h : auditMovement audited base actorId movement db = (answer, db')) :
    Settles [] db db' := by
  unfold auditMovement at h
  split at h
  · obtain ⟨-, rfl⟩ := Prod.mk.inj h
    exact .of_eq rfl rfl rfl
  · obtain ⟨-, rfl⟩ := Prod.mk.inj h
    exact Std.Refl.refl _

/-- What a session relies on: a claim names what its proposal asks for, and the write that a session
has made was no settlement. -/
def SettlementTx.Sound (s : ReviewStore) : SettlementTx → Prop
  | .run _ => True
  | .review t =>
    match t.phase with
    | .begun => True
    | .claimed actionType payload => s.db.Records t.request.proposalId actionType payload
    | .moved _ _ | .applied _ => ∃ actionType payload,
        s.db.Records t.request.proposalId actionType payload ∧ settlementOf actionType payload = none

theorem SettlementTx.Sound.retains {s s' : ReviewStore} {t : SettlementTx}
    (h : t.Sound s) (hretains : Retains s.db s'.db) : t.Sound s' := by
  cases t with
  | run t => trivial
  | review t =>
    obtain ⟨request, phase⟩ := t
    cases phase with
    | begun => trivial
    | claimed actionType payload => exact hretains.records _ _ _ h
    | moved base movement =>
      obtain ⟨actionType, payload, hrecords, hnone⟩ := h
      exact ⟨actionType, payload, hretains.records _ _ _ hrecords, hnone⟩
    | applied appliedRef =>
      obtain ⟨actionType, payload, hrecords, hnone⟩ := h
      exact ⟨actionType, payload, hretains.records _ _ _ hrecords, hnone⟩

/-- What a step has to leave. -/
structure Leaves (s s' : ReviewStore) (ended : Option SettlementTx) : Prop where
  exclusive : s'.db.Exclusive
  retains : Retains s.db s'.db
  sound : ∀ t' ∈ ended, t'.Sound s'

variable {s : ReviewStore}

theorem Leaves.unchanged (h : s.db.Exclusive) (t : Option RunTx) : Leaves s s (t.map .run) := by
  refine ⟨h, .refl _, fun t' ht' => ?_⟩
  obtain ⟨t, -, rfl⟩ := Option.map_eq_some_iff.mp ht'
  trivial

theorem Leaves.gone {db : Db} {writes : List ReviewWrite} (hexclusive : db.Exclusive)
    (hretains : Retains s.db db) : Leaves s ⟨db, writes⟩ none :=
  ⟨hexclusive, hretains, fun _ ht' => by cases ht'⟩

/-- A proposal that settles something is set back only where its settlement is clear. -/
theorem leaves_resetProposal {request : ReviewRequest} {commits : Bool} {working : Db}
    {actionType : String} {payload : ProposalPayload} (h : s.db.Exclusive)
    (hrecords : s.db.Records request.proposalId actionType payload)
    (hsettles : Settles (settlementOf actionType payload).toList s.db working)
    (hclear : commits → ∀ x ∈ settlementOf actionType payload, working.Clear x) :
    Leaves s (s.resetProposal request commits working) none := by
  by_cases hcommits : commits
  · have hretains : Retains s.db working := .of_eq hsettles.proposals
    have hworking : working.Exclusive := by
      refine h.settles hsettles fun x hx => ?_
      have hnone := (hclear hcommits x (Option.mem_toList.mp hx)).1
      rw [← Db.openFor_of_eq hsettles.proposals]
      exact List.isEmpty_iff.mp hnone
    rw [ReviewStore.resetProposal, if_pos hcommits]
    refine .gone (hworking.reset _ fun p hp x hx => ?_) (hretains.trans (retains_reset _ _))
    rw [(hretains.records _ _ _ hrecords).settlement?_eq hp] at hx
    exact hclear hcommits x hx
  · rw [ReviewStore.resetProposal, if_neg hcommits]
    exact .gone h (.refl _)

theorem leaves_finishProposal {request : ReviewRequest} {commits : Bool} {working : Db}
    {appliedRef : String} (h : s.db.Exclusive) (hworking : working.Exclusive)
    (hretains : Retains s.db working) :
    Leaves s (s.finishProposal request commits appliedRef working) none := by
  by_cases hcommits : commits
  · rw [ReviewStore.finishProposal, if_pos hcommits]
    exact .gone (hworking.referenced _ _) (hretains.trans (retains_referenced _ _ _))
  · rw [ReviewStore.finishProposal, if_neg hcommits]
    exact .gone h (.refl _)

end

section
variable [Context] [Format] [Unicode] [Python] [PayloadHash]

/-- An apply that settles a transaction finds no proposal open on it, and one whose proposal is set back
leaves the transaction clear. -/
def ApplyUnopposed (db : Db) (actionType : String) (payload : ProposalPayload) (reviewerId : Uuid)
    (env : ApplyEnv) (commits : Bool) (x : Settlement) : Prop :=
  match applyProposal actionType payload reviewerId env env.faults db with
  | .ok _ _ => (db.openFor x).isEmpty
  | .raised _ working => commits → working.Clear x
  | .aborted _ => True

instance (db : Db) (actionType : String) (payload : ProposalPayload) (reviewerId : Uuid)
    (env : ApplyEnv) (commits : Bool) (x : Settlement) :
    Decidable (ApplyUnopposed db actionType payload reviewerId env commits x) := by
  unfold ApplyUnopposed
  split <;> infer_instance

/-- A step that settles a transaction finds no proposal open on it, and one that opens a proposal
finds neither another one nor a settled transaction. -/
def Unopposed (s : ReviewStore) : SettlementTx → SettlementAction → Prop
  | .run ⟨source, env, .locked rows invoices⟩, .settle _ =>
    ∀ x ∈ exactSettlements source env rows invoices, (s.db.openFor x).isEmpty
  | .run ⟨_, _, .checked m _ _⟩, .propose .. => ∀ x ∈ m.settlement?, s.db.Clear x
  | .review ⟨request, .claimed actionType payload⟩, .review (.apply env commits) =>
    ∀ x ∈ settlementOf actionType payload,
      ApplyUnopposed s.db actionType payload request.currentUser env commits x
  | _, _ => True

instance (s : ReviewStore) (t : SettlementTx) (action : SettlementAction) :
    Decidable (Unopposed s t action) := by
  unfold Unopposed
  split
  · infer_instance
  · infer_instance
  · infer_instance
  · exact .isTrue trivial

section advance
variable {s s' : ReviewStore} {others : List SettlementTx}

theorem RunTx.advance_leaves {t : RunTx} {action : SettlementAction} {ended : Option RunTx}
    (h : s.db.Exclusive) (hguard : Unopposed s (.run t) action)
    (hstep : t.advance s others action = some (s', ended)) : Leaves s s' (ended.map .run) := by
  have hsound : ∀ {db : Db} {ended : Option RunTx}, ∀ t' ∈ ended.map SettlementTx.run,
      t'.Sound { s with db } := by
    intro db ended t' ht'
    obtain ⟨t, -, rfl⟩ := Option.map_eq_some_iff.mp ht'
    trivial
  obtain ⟨source, env, phase⟩ := t
  cases action with
  | fetch =>
    cases phase with
    | begun =>
      cases hstep
      exact .unchanged h _
    | _ => cases hstep
  | settle faults =>
    cases phase with
    | locked rows invoices =>
      have hsettles := settleLocked_settles source env rows invoices faults s.db
      simp only [advance] at hstep
      cases hrun : settleLocked source env rows invoices faults s.db with
      | ok result db' =>
        rw [hrun] at hstep hsettles
        cases hstep
        have hkept := hsettles db' rfl
        exact ⟨h.settles hkept fun x hx => List.isEmpty_iff.mp (hguard x hx),
          .of_eq hkept.proposals, hsound⟩
      | raised e working =>
        rw [hrun] at hstep
        cases hstep
        exact .gone h (.refl _)
      | aborted e =>
        rw [hrun] at hstep
        cases hstep
        exact .gone h (.refl _)
    | _ => cases hstep
  | check =>
    cases phase with
    | proposing matched txnDates =>
      cases matched with
      | nil =>
        cases hstep
        exact .gone h (.refl _)
      | cons m rest =>
        simp only [advance] at hstep
        split at hstep <;> cases hstep <;> exact .unchanged h _
    | _ => cases hstep
  | propose id rationale notice faults =>
    cases phase with
    | checked m rest txnDates =>
      simp only [advance] at hstep
      cases hrun : createProposal (draft ⟨source, env, .checked m rest txnDates⟩ m txnDates id
          rationale) notice faults s.db with
      | ok proposal db' =>
        rw [hrun] at hstep
        cases hstep
        obtain ⟨-, proposals, emailOutbox, hinsert, rfl⟩ := createProposal_eq_ok hrun
        refine ⟨h.propose hinsert fun x hx => ?_, .insert hinsert, hsound⟩
        change settlementOf actionReconciliationMatch (m.payload _) = some x at hx
        rw [settlementOf_payload] at hx
        exact hguard x hx
      | raised e working =>
        rw [hrun] at hstep
        cases hstep
        exact .gone h (.refl _)
      | aborted e =>
        rw [hrun] at hstep
        cases hstep
        exact .gone h (.refl _)
    | _ => cases hstep
  | review _ => cases hstep
  | outside _ => cases hstep
  | crash => cases hstep

theorem ReviewTx.advance_leaves {t : ReviewTx} {action : ReviewAction} {ended : Option ReviewTx}
    (h : s.db.Exclusive) (ht : (SettlementTx.review t).Sound s)
    (hguard : Unopposed s (.review t) (.review action))
    (houtside : ∀ work, action ≠ .outside work) (heffect : ReviewTx.Effect s t action s' ended) :
    Leaves s s' (ended.map .review) := by
  obtain ⟨request, phase⟩ := t
  cases heffect with
  | refused hphase => exact .gone h (.refl _)
  | @decided now _ proposal hphase hfound hcheck =>
    have hretains : Retains s.db (s.db.decided request now) :=
      .updateProposal s.db request.proposalId _ fun _ => ⟨rfl, rfl, rfl⟩
    refine ⟨h.decided _ _, hretains, fun t' ht' => ?_⟩
    obtain ⟨t, hended, rfl⟩ := Option.map_eq_some_iff.mp ht'
    split at hended
    · obtain rfl := Option.some.inj hended
      exact hretains.records _ _ _ ⟨_, hfound, rfl, rfl⟩
    · cases hended
  | @moved env _ actionType payload base movement db' hphase hrun =>
    obtain rfl : phase = .claimed actionType payload := hphase
    have hkept := (applyProposal_settles actionType payload request.currentUser env).of_ok hrun
    obtain ⟨row, hwrote⟩ := applyProposal_eq_ok hrun
    have hnone : settlementOf actionType payload = none := by
      cases hwrote with
      | movement htype => rw [htype, settlementOf_stock]
    have hretains : Retains s.db db' := .of_eq hkept.proposals
    refine ⟨h.settles hkept (by simp [hnone]), hretains, fun t' ht' => ?_⟩
    obtain rfl := Option.some.inj ht'
    exact ⟨actionType, payload, hretains.records _ _ _ ht, hnone⟩
  | @settled env commits actionType payload appliedRef working hphase hrun =>
    obtain rfl : phase = .claimed actionType payload := hphase
    have hkept := (applyProposal_settles actionType payload request.currentUser env).of_ok hrun
    refine leaves_finishProposal h (h.settles hkept fun x hx => ?_) (.of_eq hkept.proposals)
    have hopen := hguard x (Option.mem_toList.mp hx)
    rw [ApplyUnopposed, hrun] at hopen
    exact List.isEmpty_iff.mp hopen
  | @failed env commits actionType payload e working hphase hrun =>
    obtain rfl : phase = .claimed actionType payload := hphase
    have hkept := (applyProposal_settles actionType payload request.currentUser env).of_raised hrun
    refine leaves_resetProposal h ht hkept fun hcommits x hx => ?_
    have hclear := hguard x hx
    rw [ApplyUnopposed, hrun] at hclear
    exact hclear hcommits
  | aborted hphase hrun => exact .gone h (.refl _)
  | @audited recorded commits base result movement db' hphase haudit =>
    obtain rfl : phase = .moved base movement := hphase
    have hkept := auditMovement_settles haudit
    have hretains : Retains s.db db' := .of_eq hkept.proposals
    refine ⟨h.settles hkept (by simp), hretains, fun t' ht' => ?_⟩
    obtain rfl := Option.some.inj ht'
    obtain ⟨actionType, payload, hrecords, hnone⟩ := ht
    exact ⟨actionType, payload, hretains.records _ _ _ hrecords, hnone⟩
  | @unaudited recorded commits base movement db' hphase haudit =>
    obtain rfl : phase = .moved base movement := hphase
    obtain ⟨actionType, payload, hrecords, hnone⟩ := ht
    have hkept := auditMovement_settles haudit
    exact leaves_resetProposal h hrecords (hkept.mono (by simp)) (by simp [hnone])
  | finished hphase => exact leaves_finishProposal h h (.refl _)
  | outside => exact absurd rfl (houtside _)
  | crashed => exact .gone h (.refl _)

theorem SettlementTx.advance_leaves {t : SettlementTx} {action : SettlementAction}
    {ended : Option SettlementTx} (h : s.db.Exclusive) (ht : t.Sound s)
    (hguard : Unopposed s t action) (hstep : t.advance s others action = some (s', ended)) :
    Leaves s s' ended := by
  have hrun : ∀ t : RunTx, Unopposed s (.run t) action →
      (t.advance s others action).map (fun (s', ended) => (s', ended.map SettlementTx.run)) =
        some (s', ended) → Leaves s s' ended := by
    intro t hguard hstep
    obtain ⟨⟨s₁, ended₁⟩, hadvance, heq⟩ := Option.map_eq_some_iff.mp hstep
    obtain ⟨rfl, rfl⟩ := Prod.mk.inj heq
    exact t.advance_leaves h hguard hadvance
  cases action with
  | review action =>
    cases t with
    | run t => cases action <;> cases hstep
    | review t =>
      have houtside : ∀ work, action ≠ .outside work := by
        rintro work rfl
        cases hstep
      have hadvance : (if t.waits others action then none else
          (t.advance s [] action).map fun (s', ended) => (s', ended.map SettlementTx.review)) =
            some (s', ended) := by
        cases action with
        | outside work => exact absurd rfl (houtside work)
        | _ => exact hstep
      split at hadvance
      · cases hadvance
      · obtain ⟨⟨s₁, ended₁⟩, hstep₁, heq⟩ := Option.map_eq_some_iff.mp hadvance
        obtain ⟨rfl, rfl⟩ := Prod.mk.inj heq
        exact t.advance_leaves h ht hguard houtside (ReviewTx.advance_effect hstep₁)
  | outside work =>
    cases hstep
    have hkept := work.settles s.db
    have hretains : Retains s.db (work.run s.db) := .of_eq hkept.proposals
    refine ⟨h.settles hkept (by simp), hretains, fun t' ht' => ?_⟩
    obtain rfl := Option.some.inj ht'
    exact ht.retains hretains
  | crash =>
    cases hstep
    exact .gone h (.refl _)
  | _ =>
    cases t with
    | run t => exact hrun t hguard hstep
    | review t => cases hstep

end advance

theorem settlementMachine_secure : Secure settlementMachine Unopposed (fun s => s.db.Exclusive)
    SettlementTx.Sound (fun _ _ => True) where
  symm _ := trivial
  starts {_ request} _ := by cases request <;> trivial
  starts_apart _ := trivial
  advances {s others t action s' ended} hs ht hothers hguard hadvance := by
    have hleaves : Leaves s s' ended := SettlementTx.advance_leaves hs ht hguard hadvance
    exact ⟨hleaves.exclusive, fun t' ht' => ⟨hleaves.sound t' ht', fun _ _ => trivial⟩,
      fun u hu => (hothers u hu).1.retains hleaves.retains⟩

end

/-! A transaction whose reference has a typing error in it. -/

def unmatchedStart [Context] [Format] : System ReviewStore SettlementTx :=
  ⟨{ db := unmatchedBooks }, []⟩

def runToSettle [Format] : List (Sessions.Action SettlementRequest SettlementAction) :=
  [.start (.run .mpesa (namingEnv 6)), .advance 0 .fetch, .advance 0 (.settle noFaults)]

/-- A run up to the check of the pair that the model has named. -/
def runToCheck [Format] : List (Sessions.Action SettlementRequest SettlementAction) :=
  runToSettle ++ [.advance 0 .check]

def proposeMatch (id : Uuid) : SettlementAction := .propose id none ⟨"", []⟩ noFaults

def proposeThenApprove [Format] : List (Sessions.Action SettlementRequest SettlementAction) :=
  runToCheck ++ [.advance 0 (proposeMatch 80), .advance 0 .check, .start (.review approveMatch),
    .advance 0 (.review (.decide 100 noFaults)),
    .advance 0 (.review (.apply ⟨⟨50, 60, 1⟩, 90, noFaults⟩ true))]

/-- Two runs check before either of them proposes. -/
def checkTwice [Format] : List (Sessions.Action SettlementRequest SettlementAction) :=
  runToCheck ++ runToCheck ++ [.advance 0 (proposeMatch 80), .advance 1 (proposeMatch 81)]

/-- How many proposals are open on a settlement, whether it is reconciled, and how many payments it
backs. -/
def Db.standing [Format] (db : Db) (settlement : Settlement) : ℕ × Bool × ℕ :=
  ((db.openFor settlement).length, db.reconciled settlement, (db.paymentsFor settlement).length)

/-- Invoice INV-1 is sent. A proposal for another invoice is open on the transaction that names it. -/
def contestedBooks [Context] [Format] : Db :=
  { (InvoiceRequest.sendInvoice 10).run.committed noFaults
      ((InvoiceRequest.createInvoice sampleInvoice 10 1).run.committed noFaults
        (paidBy ⟨116000, settled_fits⟩)) with
    proposals := (matchProposal 11).proposals }

end Finguard
