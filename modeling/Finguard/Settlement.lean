import Finguard.ApprovalOnce
import Finguard.BankReview

/-! The M-Pesa transactions and the bank lines that back payments, and the proposals that are open
on them. -/

namespace Finguard
open Decimal Text Transaction Transaction.Tx

inductive Settlement where
  | mpesa (id : Uuid)
  | bankLine (id : Uuid)
deriving DecidableEq

/-- The settlement that a proposal of this type would apply. -/
def settlementOf [Format] (actionType : String) : ProposalPayload → Option Settlement
  | .settlement transactionId _ _ _ _ _ source _ =>
    if actionType = actionReconciliationMatch then
      (Format.ofIdentifier transactionId).map (if source = "bank" then .bankLine else .mpesa)
    else none
  | .stock .. => none

namespace AgentActionProposal

def settlement? [Format] (proposal : AgentActionProposal) : Option Settlement :=
  settlementOf proposal.actionType proposal.payload

def opens [Format] (settlement : Settlement) (proposal : AgentActionProposal) : Bool :=
  proposal.status == .proposed && proposal.settlement? == some settlement

end AgentActionProposal

def ReconciledPayment.settlements (data : ReconciledPayment) : List Settlement :=
  (data.mpesaTransId.map .mpesa).toList ++ (data.bankLineId.map .bankLine).toList

namespace Db

def openFor [Format] (db : Db) (settlement : Settlement) : List AgentActionProposal :=
  db.proposals.filter (·.opens settlement)

def reconciled (db : Db) : Settlement → Bool
  | .mpesa id => db.mpesaTransactions.rows.any (fun t => t.id == id && t.isReconciled)
  | .bankLine id => db.bankStatementLines.rows.any (fun line => line.id == id && line.isReconciled)

def paymentsFor (db : Db) : Settlement → List Payment
  | .mpesa id => db.payments.filter (·.mpesaTransId == some id)
  | .bankLine id => db.payments.filter (·.bankLineId == some id)

theorem length_paymentsFor_le (db : Db) (settlement : Settlement) :
    (db.paymentsFor settlement).length ≤ 1 := by
  cases settlement with
  | mpesa id =>
    refine Table.length_filter_le_one fun a _ b _ ha hb => ?_
    have hsame : sameValue a.mpesaTransId b.mpesaTransId = true := by
      rw [sameValue_eq_true]
      exact ⟨id, by simpa using ha, by simpa using hb⟩
    simp [Row.clash, hsame]
  | bankLine id =>
    refine Table.length_filter_le_one fun a _ b _ ha hb => ?_
    have hsame : sameValue a.bankLineId b.bankLineId = true := by
      rw [sameValue_eq_true]
      exact ⟨id, by simpa using ha, by simpa using hb⟩
    simp [Row.clash, hsame]

/-- At most one proposal is open on a settlement, and none once it is reconciled. -/
structure Exclusive [Format] (db : Db) : Prop where
  one : ∀ settlement, (db.openFor settlement).length ≤ 1
  closed : ∀ settlement, db.reconciled settlement → db.openFor settlement = []

/-- Nothing is open on the settlement, and it is not reconciled. -/
def Clear [Format] (db : Db) (settlement : Settlement) : Prop :=
  (db.openFor settlement).isEmpty ∧ db.reconciled settlement = false

instance [Format] (db : Db) (settlement : Settlement) : Decidable (db.Clear settlement) :=
  inferInstanceAs (Decidable (_ ∧ _))

end Db

/-! What is reconciled by a write. -/

/-- The settlements that come to be reconciled are among those of the list. -/
structure Settles (settlements : List Settlement) (db db' : Db) : Prop where
  proposals : db'.proposals = db.proposals
  reconciled : ∀ settlement, db'.reconciled settlement →
    db.reconciled settlement ∨ settlement ∈ settlements

instance (settlements : List Settlement) : Std.Refl (Settles settlements) :=
  ⟨fun _ => ⟨rfl, fun _ h => .inl h⟩⟩

instance (settlements : List Settlement) : IsTrans Db (Settles settlements) := by
  refine ⟨fun _ _ _ h h' => ⟨h'.proposals.trans h.proposals, fun settlement hafter => ?_⟩⟩
  rcases h'.reconciled settlement hafter with hbetween | hnew
  · exact h.reconciled settlement hbetween
  · exact .inr hnew

theorem Settles.mono {settlements settlements' : List Settlement} {db db' : Db}
    (hsub : ∀ s ∈ settlements, s ∈ settlements') (h : Settles settlements db db') :
    Settles settlements' db db' :=
  ⟨h.proposals, fun settlement hafter => (h.reconciled settlement hafter).imp_right (hsub settlement)⟩

theorem Settles.of_eq {settlements : List Settlement} {db db' : Db}
    (hproposals : db'.proposals = db.proposals)
    (hmpesa : db'.mpesaTransactions = db.mpesaTransactions)
    (hbankLines : db'.bankStatementLines = db.bankStatementLines) : Settles settlements db db' := by
  refine ⟨hproposals, fun settlement h => .inl ?_⟩
  cases settlement with
  | mpesa id => rwa [Db.reconciled, hmpesa] at h
  | bankLine id => rwa [Db.reconciled, hbankLines] at h

theorem BooksOnly.settles {settlements : List Settlement} {db db' : Db} (h : BooksOnly db db') :
    Settles settlements db db' :=
  .of_eq h.proposals h.mpesa h.bankLines

theorem StockGrows.settles {settlements : List Settlement} {db db' : Db} (h : StockGrows db db') :
    Settles settlements db db' := by
  obtain ⟨l, rfl⟩ := h.ledger
  exact .of_eq rfl rfl rfl

theorem settles_markMpesaReconciled {settlements : List Settlement} (db : Db) {id : Uuid}
    (hid : .mpesa id ∈ settlements) : Settles settlements db (db.markMpesaReconciled id) := by
  refine ⟨rfl, fun settlement h => ?_⟩
  cases settlement with
  | bankLine other => exact .inl h
  | mpesa other =>
    obtain ⟨t, ht, hflag⟩ := List.any_eq_true.mp h
    obtain ⟨t₀, ht₀, rfl⟩ := List.mem_map.mp ht
    by_cases hmarked : t₀.id = id
    · have hother : t₀.id = other := by
        simp only [Table.updated, hmarked, beq_self_eq_true, if_true, Bool.and_true, beq_iff_eq] at hflag
        rw [← hflag, hmarked]
      rw [← hother, hmarked]
      exact .inr hid
    · left
      refine List.any_eq_true.mpr ⟨t₀, ht₀, ?_⟩
      simpa [Table.updated, hmarked] using hflag

theorem settles_markBankLineReconciled {settlements : List Settlement} (db : Db) {id : Uuid}
    (hid : .bankLine id ∈ settlements) : Settles settlements db (db.markBankLineReconciled id) := by
  refine ⟨rfl, fun settlement h => ?_⟩
  cases settlement with
  | mpesa other => exact .inl h
  | bankLine other =>
    obtain ⟨line, hline, hflag⟩ := List.any_eq_true.mp h
    obtain ⟨line₀, hline₀, rfl⟩ := List.mem_map.mp hline
    by_cases hmarked : line₀.id = id
    · have hother : line₀.id = other := by
        simp only [Table.updated, hmarked, beq_self_eq_true, if_true, Bool.and_true, beq_iff_eq] at hflag
        rw [← hflag, hmarked]
      rw [← hother, hmarked]
      exact .inr hid
    · left
      refine List.any_eq_true.mpr ⟨line₀, hline₀, ?_⟩
      simpa [Table.updated, hmarked] using hflag

section
variable [Context] [Format]

theorem afterPayment_settles (data : ReconciledPayment) (invoice : Invoice) (applied : ℚ) :
    Keeps (Settles data.settlements) (afterPayment data invoice applied) := by
  have hmpesa : Keeps (Settles data.settlements) (markMpesaReconciled data.mpesaTransId) := by
    cases hid : data.mpesaTransId with
    | none => exact .pure _
    | some id =>
      refine .flush fun db db' h => ?_
      obtain rfl := Option.some.inj h
      exact settles_markMpesaReconciled db (by simp [ReconciledPayment.settlements, hid])
  have hbankLine : Keeps (Settles data.settlements) (markBankLineReconciled data.bankLineId) := by
    cases hid : data.bankLineId with
    | none => exact .pure _
    | some id =>
      refine .flush fun db db' h => ?_
      obtain rfl := Option.some.inj h
      exact settles_markBankLineReconciled db (by simp [ReconciledPayment.settlements, hid])
  refine .bind ((appendAndProject_keeps _ _ _ _ _).mono BooksOnly.settles) fun _ =>
    .bind hmpesa fun _ => .bind hbankLine fun _ => .bind (.read _) fun _ =>
    .bind (.assign fun db => ?_) fun _ => .bind (.read _) fun _ =>
    (enqueuePaymentReceipt_keeps _ _ _ _).mono BooksOnly.settles
  exact .of_eq rfl rfl rfl

theorem applyReconciledPayment_settles (data : ReconciledPayment) :
    Keeps (Settles data.settlements) (applyReconciledPayment data) := by
  refine .bind (.select _ _) fun found => .bind (.getOrRaise _ _) fun invoice => ?_
  simp only
  split
  · exact .pure _
  · refine .bind (.bind (.flush fun db db' h => ?_) fun _ => afterPayment_settles _ _ _) fun _ => .pure _
    obtain ⟨payment, payments, -, -, -, -, rfl⟩ := createPayment_rows h
    exact .of_eq rfl rfl rfl

variable [Python]

omit [Python] in
theorem applyConfirmedMatch_settles {confirmed : ConfirmedMatch} {settlements : List Settlement}
    (hmatch : ∀ id, Format.ofIdentifier confirmed.transactionId = some id →
      (if confirmed.vault = .bank then .bankLine id else .mpesa id) ∈ settlements)
    (paymentId : Uuid) : Keeps (Settles settlements) (applyConfirmedMatch confirmed paymentId) := by
  refine .bind (.getOrRaise _ _) fun invoiceId => ?_
  cases htransaction : Format.ofIdentifier confirmed.transactionId with
  | some transactionId =>
    refine (applyReconciledPayment_settles _).mono (Settles.mono fun s hs => ?_)
    have hmem := hmatch transactionId htransaction
    by_cases hbank : confirmed.vault = .bank
    · rw [if_pos hbank] at hmem
      obtain rfl : s = .bankLine transactionId := by
        simpa [ReconciledPayment.settlements, ConfirmedMatch.payment, hbank] using hs
      exact hmem
    · rw [if_neg hbank] at hmem
      obtain rfl : s = .mpesa transactionId := by
        simpa [ReconciledPayment.settlements, ConfirmedMatch.payment, hbank] using hs
      exact hmem
  | none =>
    refine .bind (.select _ _) fun found => .bind (.getOrRaise _ _) fun invoice => ?_
    split
    · exact .pure _
    · exact .raise _

omit [Python] in
theorem applyMatch_settles {confirmed : ConfirmedMatch} {settlements : List Settlement}
    (hmatch : ∀ id, Format.ofIdentifier confirmed.transactionId = some id →
      (if confirmed.vault = .bank then .bankLine id else .mpesa id) ∈ settlements)
    (paymentId : Uuid) : Keeps (Settles settlements) (applyMatch confirmed paymentId) := by
  refine .bind (applyConfirmedMatch_settles hmatch paymentId) fun payment => ?_
  cases payment with
  | some id => exact .pure _
  | none => exact .raise _

omit [Context] [Python] in
theorem settlementOf_readMatch {payload : ProposalPayload} {confirmed : ConfirmedMatch}
    (h : readMatch payload = .ok confirmed) :
    settlementOf actionReconciliationMatch payload = (Format.ofIdentifier confirmed.transactionId).map
      fun id => if confirmed.vault = .bank then .bankLine id else .mpesa id := by
  cases payload with
  | stock => cases h
  | settlement transactionId _ _ matchScore amount _ source occurredAt =>
    simp only [readMatch] at h
    split at h
    · cases hdate : (Format.fromisoformat occurredAt : Option DateTime) with
      | none =>
        rw [hdate] at h
        cases h
      | some date =>
        rw [hdate] at h
        obtain rfl := Except.ok.inj h
        by_cases hbank : source = "bank"
        · simp [settlementOf, hbank]
        · simp [settlementOf, hbank]
    · cases h

/-- Whichever way the apply of a proposal ends, only its own settlement comes to be reconciled. -/
theorem applyProposal_settles (actionType : String) (payload : ProposalPayload) (reviewerId : Uuid)
    (env : ApplyEnv) : Keeps (Settles (settlementOf actionType payload).toList)
      (applyProposal actionType payload reviewerId env) := by
  unfold applyProposal
  split
  · cases readMovement payload with
    | error e => exact .raise _
    | ok args => exact (applyStock_keeps _ _ _).mono StockGrows.settles
  · split
    · rename_i htype
      cases hconfirmed : readMatch payload with
      | error e => exact .raise _
      | ok confirmed =>
        refine applyMatch_settles (fun id hid => ?_) _
        rw [htype, settlementOf_readMatch hconfirmed, hid]
        simp
    · exact .raise _

end

/-! What the steps of the review and of the reconciler do to the open proposals. -/

section
variable [Format]

theorem Db.openFor_of_eq {db db' : Db} (h : db'.proposals = db.proposals) (settlement : Settlement) :
    db'.openFor settlement = db.openFor settlement := by
  rw [openFor, h, openFor]

namespace Db.Exclusive
variable {db db' : Db}

/-- A write settles what no proposal is open on. -/
theorem settles (h : db.Exclusive) {settlements : List Settlement}
    (hsettles : Settles settlements db db') (hfree : ∀ s ∈ settlements, db.openFor s = []) :
    db'.Exclusive where
  one settlement := by
    rw [openFor_of_eq hsettles.proposals]
    exact h.one settlement
  closed settlement hreconciled := by
    rw [openFor_of_eq hsettles.proposals]
    rcases hsettles.reconciled settlement hreconciled with hbefore | hnew
    · exact h.closed settlement hbefore
    · exact hfree settlement hnew

theorem of_sublist (h : db.Exclusive)
    (hopen : ∀ settlement, (db'.openFor settlement).length ≤ (db.openFor settlement).length)
    (hreconciled : ∀ settlement, db'.reconciled settlement → db.reconciled settlement) :
    db'.Exclusive where
  one settlement := (hopen settlement).trans (h.one settlement)
  closed settlement hafter := by
    have hlength := hopen settlement
    rw [h.closed settlement (hreconciled settlement hafter)] at hlength
    exact List.length_eq_zero_iff.mp (Nat.le_zero.mp hlength)

theorem propose (h : db.Exclusive) {proposal : AgentActionProposal}
    {proposals : Table AgentActionProposal} {emailOutbox : Table EmailMessage}
    (hinsert : db.proposals.insert? proposal = some proposals)
    (hclear : ∀ settlement, proposal.settlement? = some settlement → db.Clear settlement) :
    Db.Exclusive { db with proposals, emailOutbox } := by
  have hopen : ∀ settlement, Db.openFor { db with proposals, emailOutbox } settlement =
      if proposal.opens settlement then db.openFor settlement ++ [proposal]
      else db.openFor settlement := fun settlement => Table.filter_of_insert hinsert
  have hsettlement : ∀ settlement, proposal.opens settlement →
      proposal.settlement? = some settlement := by
    intro settlement hopens
    simp only [AgentActionProposal.opens, Bool.and_eq_true, beq_iff_eq] at hopens
    exact hopens.2
  refine ⟨fun settlement => ?_, fun settlement hreconciled => ?_⟩
  · rw [hopen settlement]
    split
    · rename_i hopens
      obtain ⟨hnone, -⟩ := hclear settlement (hsettlement settlement hopens)
      rw [List.isEmpty_iff.mp hnone]
      exact le_rfl
    · exact h.one settlement
  · rw [hopen settlement]
    split
    · rename_i hopens
      obtain ⟨-, hopenYet⟩ := hclear settlement (hsettlement settlement hopens)
      rw [show db.reconciled settlement = true from hreconciled] at hopenYet
      cases hopenYet
    · exact h.closed settlement hreconciled

/-- A verdict closes its proposal. -/
theorem decided (h : db.Exclusive) (request : ReviewRequest) (now : DateTime) :
    (db.decided request now).Exclusive := by
  refine h.of_sublist (fun settlement => ?_) (fun settlement => id)
  have hclosed : ∀ p, (AgentActionProposal.decided request.verdict request.currentUser now p).opens
      settlement = false := by
    intro p
    unfold AgentActionProposal.opens AgentActionProposal.decided ReviewRequest.verdict
    split <;> rfl
  have hsub := @Table.filter_update_sublist _ _ db.proposals (·.id == request.proposalId)
    (·.opens settlement) (AgentActionProposal.decided request.verdict request.currentUser now)
    (fun _ _ => rfl) hclosed
  exact hsub.length_le

theorem referenced (h : db.Exclusive) (proposalId : Uuid) (appliedRef : String) :
    (db.updateProposal proposalId (AgentActionProposal.referenced appliedRef)
      (fun _ _ => rfl)).Exclusive := by
  refine h.of_sublist (fun settlement => ?_) (fun settlement => id)
  have hfilter := @Table.filter_update _ _ db.proposals (·.id == proposalId) (·.opens settlement)
    (AgentActionProposal.referenced appliedRef) (fun _ _ => rfl) (fun _ => rfl)
  exact (congrArg List.length hfilter).le.trans (by rw [List.length_map]; rfl)

/-- A proposal that is set back is the only one on its settlement. -/
theorem reset (h : db.Exclusive) (id : Uuid)
    (hclear : ∀ p, db.getProposal id = some p → ∀ settlement, p.settlement? = some settlement →
      db.Clear settlement) :
    (db.updateProposal id AgentActionProposal.reset (fun _ _ => rfl)).Exclusive := by
  have hsame : ∀ {a b : AgentActionProposal}, a ∈ db.proposals.rows → b ∈ db.proposals.rows →
      a.id = b.id → a = b := by
    intro a b ha hb hid
    refine Table.eq_of_clash ha hb ?_
    change (a.id == b.id) = true
    rw [hid, beq_self_eq_true]
  have hkept : ∀ settlement, (∀ p, db.getProposal id = some p → p.settlement? ≠ some settlement) →
      ((db.updateProposal id AgentActionProposal.reset (fun _ _ => rfl)).openFor settlement).length =
        (db.openFor settlement).length := by
    intro settlement hother
    have hfilter := @Table.filter_update_of_mem _ _ db.proposals (·.id == id) (·.opens settlement)
      AgentActionProposal.reset (fun _ _ => rfl) ?_
    · exact (congrArg List.length hfilter).trans (by rw [List.length_map]; rfl)
    · intro a ha hid
      obtain ⟨p, hp⟩ := @Table.find?_isSome_of_mem _ _ _ _ (·.id == id) ha hid
      have hpid : p.id = id := by simpa using Table.of_find? hp
      obtain rfl := hsame ha (Table.mem_of_find? hp) ((beq_iff_eq.mp hid).trans hpid.symm)
      have hne : (a.settlement? == some settlement) = false := beq_eq_false_iff_ne.mpr (hother a hp)
      have hreset : a.reset.settlement? = a.settlement? := rfl
      simp [AgentActionProposal.opens, hreset, hne]
  refine ⟨fun settlement => ?_, fun settlement hreconciled => ?_⟩
  · by_cases hother : ∀ p, db.getProposal id = some p → p.settlement? ≠ some settlement
    · rw [hkept settlement hother]
      exact h.one settlement
    · push Not at hother
      obtain ⟨p, hp, hsettlement⟩ := hother
      have hnone := List.isEmpty_iff.mp (hclear p hp settlement hsettlement).1
      -- what is open on the settlement now is the row that was set back
      have hrow : ∀ a ∈ (db.updateProposal id AgentActionProposal.reset
          (fun _ _ => rfl)).proposals.rows, a.opens settlement → a.id = id := by
        intro a ha hopens
        obtain ⟨b, hb, ⟨-, rfl⟩ | ⟨hid, rfl⟩⟩ :=
          @Table.mem_update _ _ _ _ _ AgentActionProposal.reset (fun _ _ => rfl) ha
        · have hmem : a ∈ db.openFor settlement := List.mem_filter.mpr ⟨hb, hopens⟩
          rw [hnone] at hmem
          cases hmem
        · exact beq_iff_eq.mp hid
      refine Table.length_filter_le_one fun a ha b hb hopensA hopensB => ?_
      change (a.id == b.id) = true
      rw [hrow a ha hopensA, hrow b hb hopensB, beq_self_eq_true]
  · have hother : ∀ p, db.getProposal id = some p → p.settlement? ≠ some settlement := by
      intro p hp hsettlement
      have hopenYet := (hclear p hp settlement hsettlement).2
      rw [show db.reconciled settlement = true from hreconciled] at hopenYet
      cases hopenYet
    have hlength := hkept settlement hother
    rw [h.closed settlement hreconciled] at hlength
    exact List.length_eq_zero_iff.mp hlength

end Db.Exclusive

end

end Finguard
