import Finguard.ApprovalOnce
import Finguard.InvoiceRuns
import Finguard.Lib.FirstWrite

/-! What a failed approval leaves behind. The error branch commits whatever the apply had flushed
before it failed. -/

namespace Finguard
open Decimal Text Transaction Transaction.Tx Sessions

/-! One approval on its own. -/

/-- How the steps of an approval end. `commits` is about the commit that ends it. -/
structure ApprovalRun where
  now : DateTime
  faults : Faults Site ServiceError
  env : ApplyEnv
  recorded : Bool
  commits : Bool

/-- `failed` holds the database that the apply started from, and what is left. -/
inductive ApprovalResult where
  | refused
  | approved (db : Db)
  | unfinished (db : Db)
  | failed (claimed after : Db)

/-- The error branch, on the work that is still pending. -/
def undoClaim (request : ReviewRequest) (commits : Bool) (working claimed : Db) : Db :=
  if commits then
    working.updateProposal request.proposalId AgentActionProposal.reset AgentActionProposal.clash_reset
  else claimed

def finishApproval (request : ReviewRequest) (commits : Bool) (appliedRef : String)
    (working claimed : Db) : ApprovalResult :=
  if commits then
    .approved (working.updateProposal request.proposalId (AgentActionProposal.referenced appliedRef)
      (AgentActionProposal.clash_referenced appliedRef))
  else .unfinished claimed

section
variable [Context] [Format] [Python]

def applyClaimed (request : ReviewRequest) (run : ApprovalRun) (proposal : AgentActionProposal)
    (claimed : Db) : ApprovalResult :=
  match applyProposal proposal.actionType proposal.payload request.currentUser run.env
      run.env.faults claimed with
  | .ok (.moved base movement) moved =>
    match auditMovement run.recorded base (some request.currentUser) movement moved with
    | (some result, audited) => finishApproval request run.commits result.detail audited audited
    | (none, moved) => .failed claimed (undoClaim request run.commits moved moved)
  | .ok (.settled appliedRef) working =>
    finishApproval request run.commits appliedRef working claimed
  | .raised _ working => .failed claimed (undoClaim request run.commits working claimed)
  | .aborted _ => .failed claimed claimed

def approve [PayloadHash] (request : ReviewRequest) (run : ApprovalRun) (db : Db) :
    ApprovalResult :=
  match decideProposal request run.now run.faults db with
  | .ok proposal claimed => applyClaimed request run proposal claimed
  | _ => .refused

/-- The apply fails before it sends its first write. -/
def RefusedEarly (proposal : AgentActionProposal) (request : ReviewRequest) (env : ApplyEnv)
    (db : Db) : Prop :=
  ∃ e w, (applyProposal proposal.actionType proposal.payload request.currentUser env).upTo
    firstWrites .database env.faults db = .raised e w

end

/-- The proposal is open again, and nothing else has changed. -/
structure Restored (id : Uuid) (claimed after : Db) : Prop where
  proposal : ∃ p, after.getProposal id = some p ∧ p.status = .proposed ∧ p.reviewedBy = none
  rest : { after with proposals := claimed.proposals } = claimed

/-- What the first row of an apply leaves. -/
def Longer (db db' : Db) : Prop :=
  db.payments.rows.length < db'.payments.rows.length ∨
  db.stockMovements.rows.length < db'.stockMovements.rows.length ∨
  db.stockLevels.rows.length < db'.stockLevels.rows.length

theorem not_longer_self (db : Db) : ¬ Longer db db := by
  unfold Longer
  omega

structure LevelsKept (db db' : Db) : Prop where
  levels : db'.stockLevels.rows.length = db.stockLevels.rows.length

instance : Std.Refl LevelsKept := ⟨fun _ => ⟨rfl⟩⟩

instance : IsTrans Db LevelsKept := ⟨fun _ _ _ h h' => ⟨h'.levels.trans h.levels⟩⟩

/-! The writes of the service. -/

abbrev WritesLate {α : Type} (x : AppTx α) : Prop := Traced firstWrites .database Longer x

section
variable [Context] [Format]

omit [Context] [Format] in
theorem onStock_eq_some {f : StockLedger → Option StockLedger} {db db' : Db}
    (h : Db.onStock f db = some db') : f db.toStockLedger = some db'.toStockLedger := by
  obtain ⟨l', hl, rfl⟩ := Option.map_eq_some_iff.mp h
  exact hl

omit [Context] [Format] in
theorem writeMovement_rows {l l' : StockLedger} {loaded : StockLevel} {request : MovementRequest}
    {plan : MovementPlan} {stamp : MovementStamp} {sequence : ℤ}
    (h : l.writeMovement loaded request plan stamp sequence = some l') :
    l.stockMovements.rows.length < l'.stockMovements.rows.length ∧
      l'.stockLevels.rows.length = l.stockLevels.rows.length := by
  simp only [StockLedger.writeMovement, Option.bind_eq_bind, Option.bind_eq_some_iff] at h
  obtain ⟨movement, -, movements, hinsert, levels, hlevels, h⟩ := h
  obtain rfl := Option.some.inj h
  exact ⟨by simp [Table.rows_of_insert hinsert], by simp [Table.rows_of_update? hlevels]⟩

omit [Context] [Format] in
theorem createLevel_rows {l l' : StockLedger} {id productId : Uuid}
    (h : l.createLevel id productId = some l') :
    l.stockLevels.rows.length < l'.stockLevels.rows.length := by
  simp only [StockLedger.createLevel, Option.bind_eq_bind, Option.bind_eq_some_iff] at h
  obtain ⟨product, -, levels, hinsert, h⟩ := h
  obtain rfl := Option.some.inj h
  simp [Table.rows_of_insert hinsert]

/-- What a movement does once its level is at hand. -/
def moveLevel (request : MovementRequest) (stamp : MovementStamp) (product : Product)
    (level : StockLevel) : AppTx (Option StockMovement × Option LowStockSignal × Option Uuid) :=
  match planMovement product level request with
  | .error e => raise e
  | .ok plan => do
    let last ← select .lastSequence (·.lastSequence request.productId)
    flush .appendMovement .database
      (Db.onStock (·.writeMovement level request plan stamp (last + 1)))
    let movement ← select .saveLevel (fun db => db.stockMovements.find? (·.id == stamp.movementId))
    return (movement, plan.signal, plan.recovered)

theorem moveLevel_late (request : MovementRequest) (stamp : MovementStamp) (product : Product)
    (level : StockLevel) : WritesLate (moveLevel request stamp product level) := by
  unfold moveLevel
  cases planMovement product level request with
  | error e => exact (Silent.raise e).traced
  | ok plan =>
    refine .after (.select rfl _) fun last => ?_
    have hafter : ReadsOnly (select Site.saveLevel
        (fun db : Db => db.stockMovements.find? (·.id == stamp.movementId)) >>= fun movement =>
          (pure (movement, plan.signal, plan.recovered) : AppTx _)) :=
      .bind (.select rfl _) fun movement => .pure _
    refine .flush rfl hafter.keeps ?_
    rintro db db' _ hwrite rfl
    exact .inr (.inl (writeMovement_rows (onStock_eq_some hwrite)).1)

theorem moveLevel_keeps (request : MovementRequest) (stamp : MovementStamp) (product : Product)
    (level : StockLevel) : Keeps LevelsKept (moveLevel request stamp product level) := by
  unfold moveLevel
  cases planMovement product level request with
  | error e => exact .raise e
  | ok plan =>
    refine .bind (.select _ _) fun last => .bind (.flush ?_) fun _ =>
      .bind (.select _ _) fun movement => .pure _
    intro db db' hwrite
    exact ⟨(writeMovement_rows (onStock_eq_some hwrite)).2⟩

theorem applyMovement_late (request : MovementRequest) (stamp : MovementStamp) :
    WritesLate (applyMovement request stamp) := by
  refine .after (.select rfl _) fun found => .after (.getOrRaise _ _) fun product =>
    .after (.raiseIf _ _) fun _ => ?_
  change WritesLate (getOrCreateLevel request.productId stamp.levelId >>=
    moveLevel request stamp product)
  unfold getOrCreateLevel
  rw [bind_assoc]
  refine .after (.select rfl _) fun levels => ?_
  rcases levels with _ | ⟨level, _ | ⟨other, rest⟩⟩
  · simp only [bind_assoc]
    have hafter : Keeps LevelsKept ((pure (.fresh stamp.levelId request.productId) : AppTx _) >>=
        moveLevel request stamp product) :=
      .bind (.pure _) fun level => moveLevel_keeps _ _ _ _
    refine .flush rfl hafter ?_
    intro db db' _ hcreate hkept
    refine .inr (.inr ?_)
    rw [hkept.levels]
    exact createLevel_rows (onStock_eq_some hcreate)
  · exact .after (.pure _) fun level => moveLevel_late _ _ _ _
  · exact .after (.raise _) fun level => moveLevel_late _ _ _ _

theorem recordMovement_late (productId : Uuid) (data : InventoryMovementCreate)
    (actorId : Option Uuid) (stamp : MovementStamp) :
    WritesLate (recordMovement productId data actorId stamp) :=
  .after (.raiseIf _ _) fun _ => .before (applyMovement_late _ _) fun _ =>
    .bind (.site rfl) fun _ => .pure _

theorem adjustStock_late (productId : Uuid) (data : StockAdjustmentCreate)
    (actorId : Option Uuid) (stamp : MovementStamp) :
    WritesLate (adjustStock productId data actorId stamp) :=
  .after (.raiseIf _ _) fun _ => .before (applyMovement_late _ _) fun _ =>
    .bind (.site rfl) fun _ => .pure _

theorem recordReconciled_late (data : ReconciledPayment) (invoice : Invoice) (applied : ℚ) :
    WritesLate (recordReconciled data invoice applied) := by
  refine .flush rfl (afterPayment_keeps data invoice applied) ?_
  intro db db' _ hcreate hgrows
  obtain ⟨payment, payments, hinsert, -, -, -, rfl⟩ := createPayment_rows hcreate
  have hlength := hgrows.payments.length_le
  rw [Table.rows_of_insert hinsert, List.length_append, List.length_singleton] at hlength
  left
  omega

theorem applyReconciledPayment_late (data : ReconciledPayment) :
    WritesLate (applyReconciledPayment data) := by
  refine .after (.select rfl _) fun found => .after (.getOrRaise _ _) fun invoice => ?_
  simp only
  split
  · exact (Silent.pure _).traced
  · exact .before (recordReconciled_late _ _ _) fun _ => .pure _

end

/-! The tool and the match. -/

section
variable [Context] [Format] [Python]

theorem applyAccepted_late (accepted : AcceptedMovement) (args : MovementArgs)
    (actorId : Option Uuid) (stamp : MovementStamp) :
    WritesLate (applyAccepted accepted args actorId stamp) := by
  unfold applyAccepted
  split
  · refine .after (readReason_reads _) fun reason => .after (readNote_reads _ _) fun note => ?_
    split
    · exact adjustStock_late _ _ _ _
    · exact (Silent.raise _).traced
  · refine .after (readUnitCost_reads _) fun cost => .after (readOptionalReason_reads _) fun reason =>
      .after (finiteCost_reads _ _ _) fun unitCost => .after (readNote_reads _ _) fun note => ?_
    split
    · exact recordMovement_late _ _ _ _
    · exact (Silent.raise _).traced

theorem proposeStockMovement_late (args : MovementArgs) (apply : Bool) (actorId : Option Uuid)
    (stamp : MovementStamp) : WritesLate (proposeStockMovement args apply actorId stamp) := by
  refine .after (guardMovement_reads _) fun guarded => ?_
  cases guarded with
  | error rejected => exact (Silent.pure _).traced
  | ok accepted =>
    cases apply with
    | false => exact (Silent.pure _).traced
    | true =>
      refine .before (.attempt (applyAccepted_late _ _ _ _)) fun applied => ?_
      cases applied with
      | ok movement => exact .pure _
      | error e =>
        cases e with
        | unprocessable message => exact .pure _
        | value message => exact .pure _
        | _ => exact .raise _

theorem applyStock_late (args : MovementArgs) (reviewerId : Uuid) (stamp : MovementStamp) :
    WritesLate (applyStock args reviewerId stamp) := by
  refine .before (proposeStockMovement_late _ _ _ _) fun outcome => ?_
  cases outcome with
  | answered result => exact .raise _
  | committed base movement => exact .pure _

omit [Python] in
theorem applyMatch_late (confirmed : ConfirmedMatch) (paymentId : Uuid) :
    WritesLate (applyMatch confirmed paymentId) := by
  refine .before (.after (.getOrRaise _ _) fun invoiceId => ?_) fun payment => ?_
  · cases Format.ofIdentifier confirmed.transactionId with
    | some transactionId => exact applyReconciledPayment_late _
    | none =>
      refine .after (.select rfl _) fun found => .after (.getOrRaise _ _) fun invoice => ?_
      split
      · exact (Silent.pure _).traced
      · exact (Silent.raise _).traced
  · cases payment with
    | some id => exact .pure _
    | none => exact .raise _

theorem applyProposal_late (actionType : String) (payload : ProposalPayload) (reviewerId : Uuid)
    (env : ApplyEnv) : WritesLate (applyProposal actionType payload reviewerId env) := by
  unfold applyProposal
  split
  · cases readMovement payload with
    | error e => exact (Silent.raise _).traced
    | ok args => exact applyStock_late _ _ _
  · split
    · cases readMatch payload with
      | error e => exact (Silent.raise _).traced
      | ok confirmed => exact applyMatch_late _ _
    · exact (Silent.raise _).traced

end

/-! The error branch. -/

theorem Restored.not_longer {id : Uuid} {claimed after : Db} (h : Restored id claimed after) :
    ¬ Longer claimed after := by
  intro hlonger
  rw [← h.rest] at hlonger
  exact not_longer_self _ hlonger

theorem Longer.undoClaim {request : ReviewRequest} {commits : Bool} {start working : Db}
    (h : Longer start working) : Longer start (undoClaim request commits working working) := by
  unfold Finguard.undoClaim
  split
  · exact h
  · exact h

/-- A claim that stands is no open proposal. -/
theorem not_restored_claimed {id : Uuid} {claimed : Db}
    (hclaimed : claimed.proposalStatus? id = some .applied) : ¬ Restored id claimed claimed := by
  rintro ⟨⟨p, hp, hstatus, -⟩, -⟩
  rw [Db.proposalStatus?, hp, Option.map_some, hstatus] at hclaimed
  cases hclaimed

theorem restored_reset {id : Uuid} {claimed : Db}
    (hclaimed : claimed.proposalStatus? id = some .applied) : Restored id claimed
      (claimed.updateProposal id AgentActionProposal.reset (fun _ _ => rfl)) := by
  obtain ⟨p, hp, -⟩ := Option.map_eq_some_iff.mp hclaimed
  have hid : p.id = id := by simpa using Table.of_find? hp
  refine ⟨⟨p.reset, ?_, rfl, rfl⟩, rfl⟩
  have hfind : (claimed.updateProposal id AgentActionProposal.reset
      (fun _ _ => rfl)).getProposal id =
        (claimed.getProposal id).map (Table.updated (·.id == id) AgentActionProposal.reset) :=
    @Table.find?_update _ _ claimed.proposals _ _ AgentActionProposal.reset (fun _ _ => rfl)
      fun _ => rfl
  rw [hfind, hp]
  simp [Table.updated, hid]

section
variable [Context] [Format] [Python]

theorem applyClaimed_restores_iff {request : ReviewRequest} {run : ApprovalRun}
    {proposal : AgentActionProposal} {start claimed after : Db}
    (hclaimed : start.proposalStatus? request.proposalId = some .applied)
    (h : applyClaimed request run proposal start = .failed claimed after) : claimed = start ∧
      (Restored request.proposalId start after ↔
        run.commits = true ∧ RefusedEarly proposal request run.env start) := by
  have hlate := applyProposal_late proposal.actionType proposal.payload request.currentUser run.env
  unfold applyClaimed at h
  unfold RefusedEarly
  rcases hrun : applyProposal proposal.actionType proposal.payload request.currentUser run.env
    run.env.faults start with ⟨⟨base, movement⟩ | appliedRef, working⟩ | ⟨e, working⟩ | e <;>
    simp only [hrun] at h
  · -- the movement is committed, and stays
    have hmoved : start.stockMovements.rows.length < working.stockMovements.rows.length := by
      obtain ⟨row, hwrote⟩ := applyProposal_eq_ok hrun
      cases hwrote with
      | movement htype hpayments hrows =>
        rw [hrows, List.length_append, List.length_singleton]
        omega
    rcases haudit : auditMovement run.recorded base (some request.currentUser) movement working with
      ⟨_ | result, db'⟩ <;> simp only [haudit] at h
    · cases h
      obtain ⟨-, hmovements, -⟩ := auditMovement_frame haudit
      have hlonger : Longer start db' := by
        refine .inr (.inl ?_)
        rw [hmovements]
        exact hmoved
      refine ⟨rfl, fun hrestored => absurd hlonger.undoClaim hrestored.not_longer, ?_⟩
      · rintro ⟨-, e', w, hcut⟩
        obtain ⟨hsame, -⟩ := hlate.refused hcut
        rw [hrun] at hsame
        cases hsame
    · unfold finishApproval at h
      split at h <;> cases h
  · unfold finishApproval at h
    split at h <;> cases h
  · cases h
    refine ⟨rfl, ?_⟩
    cases hcommits : run.commits with
    | false =>
      refine ⟨fun hrestored => absurd hrestored (not_restored_claimed hclaimed), fun hboth => ?_⟩
      cases hboth.1
    | true =>
      rcases hlate.refused_or_traced hrun with ⟨hcut, rfl⟩ | ⟨hcut, hlonger⟩
      · exact ⟨fun _ => ⟨rfl, hcut⟩, fun _ => restored_reset hclaimed⟩
      · exact ⟨fun hrestored => absurd hlonger hrestored.not_longer,
          fun hboth => absurd hboth.2 hcut⟩
  · cases h
    refine ⟨rfl, fun hrestored => absurd hrestored (not_restored_claimed hclaimed), ?_⟩
    rintro ⟨-, e', w, hcut⟩
    obtain ⟨hsame, -⟩ := hlate.refused hcut
    rw [hrun] at hsame
    cases hsame

omit [Context] [Format] [Python] in
theorem applied_of_decided [PayloadHash] {request : ReviewRequest} {run : ApprovalRun}
    {db claimed : Db} {proposal : AgentActionProposal} (happroves : request.approves)
    (h : decideProposal request run.now run.faults db = .ok proposal claimed) :
    claimed.proposalStatus? request.proposalId = some .applied := by
  obtain ⟨hfound, -, rfl⟩ := decideProposal_eq_ok h
  rw [db.proposalStatus?_decided request run.now, hfound]
  simp [ReviewRequest.verdict, happroves]

omit [Context] [Python] in
theorem auditMovement_eq_none {audited : Bool} {base : MovementResult} {actorId : Option Uuid}
    {movement : Option StockMovement} {db db' : Db}
    (h : auditMovement audited base actorId movement db = (none, db')) : db' = db := by
  cases audited <;> cases movement <;> cases h <;> rfl

theorem reached_undo [PayloadHash] {start : System ReviewStore ReviewTx} {s : ReviewStore}
    {request : ReviewRequest} {commits : Bool} {working : Db}
    (h : Runs.Reaches ReviewTx.machine.step Runs.always start
      ⟨s.resetProposal request commits working, []⟩) : ∃ writes,
      Runs.Reaches ReviewTx.machine.step Runs.always start
        ⟨⟨undoClaim request commits working s.db, writes⟩, []⟩ := by
  cases commits with
  | false => exact ⟨_, h⟩
  | true => exact ⟨_, h⟩

/-- The session of an approval, when nobody else is at work. -/
theorem failed_approval_reached [PayloadHash] {request : ReviewRequest} {run : ApprovalRun}
    {db claimed after : Db} (happroves : request.approves)
    (h : approve request run db = .failed claimed after) : ∃ writes,
      Runs.Reaches ReviewTx.machine.step Runs.always ⟨{ db }, []⟩ ⟨⟨after, writes⟩, []⟩ := by
  have hstart : Runs.Reaches ReviewTx.machine.step Runs.always ⟨{ db }, []⟩
      ⟨{ db }, [{ request }]⟩ := .single ⟨.start request, trivial, rfl⟩
  unfold approve at h
  cases hdecide : decideProposal request run.now run.faults db with
  | ok proposal start =>
    rw [hdecide] at h
    have hclaim : ReviewTx.machine.advance { db } [] { request } (.decide run.now run.faults) =
        some (ReviewStore.commit { db } request start,
          some ⟨request, .claimed proposal.actionType proposal.payload⟩) := by
      simp [ReviewTx.machine, ReviewTx.advance, hdecide, happroves]
    have hclaimed := hstart.tail ⟨_, trivial, Machine.step_alone hclaim⟩
    unfold applyClaimed at h
    rcases hrun : applyProposal proposal.actionType proposal.payload request.currentUser run.env
      run.env.faults start with ⟨⟨base, movement⟩ | appliedRef, working⟩ | ⟨e, working⟩ | e <;>
      simp only [hrun] at h
    · rcases haudit : auditMovement run.recorded base (some request.currentUser) movement working with
        ⟨_ | result, db'⟩ <;> simp only [haudit] at h
      · cases h
        obtain rfl := auditMovement_eq_none haudit
        have hmove : ReviewTx.machine.advance (ReviewStore.commit { db } request claimed) []
            ⟨request, .claimed proposal.actionType proposal.payload⟩ (.apply run.env run.commits) =
            some ((ReviewStore.commit { db } request claimed).commit request db',
              some ⟨request, .moved base movement⟩) := by
          simp [ReviewTx.machine, ReviewTx.advance, ReviewStore.commit, hrun]
        have hundo : ReviewTx.machine.advance ((ReviewStore.commit { db } request claimed).commit request db')
            [] ⟨request, .moved base movement⟩ (.audit run.recorded run.commits) =
            some (((ReviewStore.commit { db } request claimed).commit request db').resetProposal request
              run.commits db', none) := by
          simp [ReviewTx.machine, ReviewTx.advance, ReviewStore.commit, haudit]
        have hreached := (hclaimed.tail ⟨_, trivial, Machine.step_alone hmove⟩).tail
          ⟨_, trivial, Machine.step_alone hundo⟩
        exact reached_undo hreached
      · unfold finishApproval at h
        split at h <;> cases h
    · unfold finishApproval at h
      split at h <;> cases h
    · cases h
      have hundo : ReviewTx.machine.advance (ReviewStore.commit { db } request claimed) []
          ⟨request, .claimed proposal.actionType proposal.payload⟩ (.apply run.env run.commits) =
          some ((ReviewStore.commit { db } request claimed).resetProposal request run.commits working,
            none) := by
        simp [ReviewTx.machine, ReviewTx.advance, ReviewStore.commit, hrun]
      exact reached_undo (hclaimed.tail ⟨_, trivial, Machine.step_alone hundo⟩)
    · cases h
      have hdrop : ReviewTx.machine.advance (ReviewStore.commit { db } request claimed) []
          ⟨request, .claimed proposal.actionType proposal.payload⟩ (.apply run.env run.commits) =
          some (ReviewStore.commit { db } request claimed, none) := by
        simp [ReviewTx.machine, ReviewTx.advance, ReviewStore.commit, hrun]
      exact ⟨_, hclaimed.tail ⟨_, trivial, Machine.step_alone hdrop⟩⟩
  | raised e working =>
    rw [hdecide] at h
    cases h
  | aborted e =>
    rw [hdecide] at h
    cases h

end

/-- A settlement of invoice 10, or of the invoice that the proposal names, waits for its review. -/
def matchProposal [Context] [Format] (invoiceId : Uuid) : Db :=
  { issuedInvoice with
    mpesaTransactions := ⟨[⟨5, "TX5", ⟨116000, settled_fits⟩, "254700000001", none, .mpesa, false, 4⟩],
      List.pairwise_singleton _ _⟩
    proposals := ⟨[⟨80, "c_reconciler", actionReconciliationMatch,
      .settlement (Format.identifier 5) (Format.identifier invoiceId) "semantic" (9 / 10) 1160 "PAID"
        "mpesa" (Format.isoformat 4), none, .proposed, none, none, none, none⟩],
      List.pairwise_singleton _ _⟩ }

def approveMatch : ReviewRequest := ⟨80, 8, actionReconciliationMatch, true⟩

/-- The same with a payment that the settlement already backs. -/
def matchPaid [Context] [Format] : Db :=
  { matchProposal 10 with
    payments := ⟨[⟨91, 10, ⟨100, by decide⟩, .mpesa, none, 4, none, some 5, none⟩],
      List.pairwise_singleton _ _⟩ }

/-- The statements that `fails` names raise an error which leaves the session usable. -/
def failingRun (fails : Site → Bool) : ApprovalRun where
  now := 100
  faults := noFaults
  env := ⟨⟨50, 60, 1⟩, 90, fun site => if fails site then some (.raised (.runtime "")) else none⟩
  recorded := true
  commits := true

/-- The status that is left, and the payments before the apply and after it. -/
def Db.leaves (id : Uuid) (claimed after : Db) : Option ProposalStatus × ℕ × ℕ :=
  (after.proposalStatus? id, claimed.payments.rows.length, after.payments.rows.length)

def ApprovalResult.leaves (result : ApprovalResult) (id : Uuid) :
    Option (Option ProposalStatus × ℕ × ℕ) :=
  match result with
  | .failed claimed after => some (Db.leaves id claimed after)
  | _ => none

theorem ApprovalResult.leaves_eq_some {result : ApprovalResult} {id : Uuid}
    {left : Option ProposalStatus × ℕ × ℕ} (h : result.leaves id = some left) :
    ∃ claimed after, result = .failed claimed after ∧ Db.leaves id claimed after = left := by
  cases result with
  | failed claimed after => exact ⟨claimed, after, rfl, Option.some.inj h⟩
  | _ => cases h

end Finguard
