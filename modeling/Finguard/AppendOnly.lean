import Finguard.InvoiceMoves
import Finguard.Lib.FirstWrite
import Finguard.StockTool

/-! What the two writes that proposals ask for keep, also where they fail half way: the
ledgers of movements and payments only grow, and no proposal is touched. -/

namespace Finguard
open Decimal Text Transaction Transaction.Tx

structure Grows (db db' : Db) : Prop where
  proposals : db'.proposals = db.proposals
  movements : db.stockMovements.rows <+: db'.stockMovements.rows
  payments : db.payments.rows <+: db'.payments.rows

instance : Std.Refl Grows := ⟨fun _ => ⟨rfl, List.prefix_rfl, List.prefix_rfl⟩⟩

instance : IsTrans Db Grows := ⟨fun _ _ _ h h' =>
  ⟨h'.proposals.trans h.proposals, h.movements.trans h'.movements, h.payments.trans h'.payments⟩⟩

/-- A movement touches the stock alone. -/
structure StockGrows (db db' : Db) : Prop where
  ledger : ∃ l, db' = { db with toStockLedger := l }
  movements : db.stockMovements.rows <+: db'.stockMovements.rows

instance : Std.Refl StockGrows := ⟨fun db => ⟨⟨db.toStockLedger, rfl⟩, List.prefix_rfl⟩⟩

instance : IsTrans Db StockGrows := ⟨fun db _ _ h h' => by
  obtain ⟨l, rfl⟩ := h.ledger
  obtain ⟨l', rfl⟩ := h'.ledger
  exact ⟨⟨l', rfl⟩, h.movements.trans h'.movements⟩⟩

theorem StockGrows.grows {db db' : Db} (h : StockGrows db db') : Grows db db' := by
  obtain ⟨l, rfl⟩ := h.ledger
  exact ⟨rfl, h.movements, List.prefix_rfl⟩

/-! Movements. -/

section
variable [Context] [Format]

omit [Context] [Format] in
theorem StockGrows.onStock {f : StockLedger → Option StockLedger}
    (hf : ∀ l l', f l = some l' → l.stockMovements.rows <+: l'.stockMovements.rows) (db db' : Db)
    (h : Db.onStock f db = some db') : StockGrows db db' := by
  obtain ⟨l', hl, rfl⟩ := Option.map_eq_some_iff.mp h
  exact ⟨⟨l', rfl⟩, hf _ _ hl⟩

omit [Context] [Format] in
theorem getOrCreateLevel_keeps (productId levelId : Uuid) :
    Keeps StockGrows (getOrCreateLevel productId levelId) := by
  refine .bind (.select _ _) fun levels => ?_
  rcases levels with _ | ⟨level, _ | ⟨other, rest⟩⟩
  · refine .bind (.flush (StockGrows.onStock ?_)) fun _ => .pure _
    intro l l' h
    simp only [StockLedger.createLevel, Option.bind_eq_bind, Option.bind_eq_some_iff] at h
    obtain ⟨_, -, _, -, h⟩ := h
    obtain rfl := Option.some.inj h
    exact List.prefix_rfl
  · exact .pure _
  · exact .raise _

theorem applyMovement_keeps (request : MovementRequest) (stamp : MovementStamp) :
    Keeps StockGrows (applyMovement request stamp) := by
  refine .bind (.select _ _) fun found => .bind (.getOrRaise _ _) fun product =>
    .bind (.raiseIf _ _) fun _ => .bind (getOrCreateLevel_keeps _ _) fun level => ?_
  cases planMovement product level request with
  | error e => exact .raise _
  | ok plan =>
    refine .bind (.select _ _) fun last => .bind (.flush (StockGrows.onStock ?_)) fun _ =>
      .bind (.select _ _) fun movement => .pure _
    intro l l' h
    simp only [StockLedger.writeMovement, Option.bind_eq_bind, Option.bind_eq_some_iff] at h
    obtain ⟨movement, -, movements, hinsert, _, -, h⟩ := h
    obtain rfl := Option.some.inj h
    simp only [Table.rows_of_insert hinsert]
    exact List.prefix_append _ _

theorem recordMovement_keeps (productId : Uuid) (data : InventoryMovementCreate)
    (actorId : Option Uuid) (stamp : MovementStamp) :
    Keeps StockGrows (recordMovement productId data actorId stamp) :=
  .bind (.raiseIf _ _) fun _ => .bind (applyMovement_keeps _ _) fun _ =>
    .bind (.site _) fun _ => .pure _

theorem adjustStock_keeps (productId : Uuid) (data : StockAdjustmentCreate)
    (actorId : Option Uuid) (stamp : MovementStamp) :
    Keeps StockGrows (adjustStock productId data actorId stamp) :=
  .bind (.raiseIf _ _) fun _ => .bind (applyMovement_keeps _ _) fun _ =>
    .bind (.site _) fun _ => .pure _

end

/-! The tool. -/

/-- The statements that write the first row of an apply. -/
def firstWrites : Site → Bool
  | .createPayment => true
  | .createLevel => true
  | .appendMovement => true
  | _ => false

abbrev ReadsOnly {α : Type} (x : AppTx α) : Prop := Silent firstWrites .database x

section
variable [Context] [Format] [Python]

omit [Context] in
theorem resolveProduct_reads (productRef : String) : ReadsOnly (resolveProduct productRef) := by
  have hbyRef : ReadsOnly (getProductByRef productRef) := by
    unfold getProductByRef
    cases Format.ofIdentifier productRef with
    | none => exact .pure _
    | some id => exact .select rfl _
  refine .bind hbyRef fun byId => ?_
  cases byId with
  | none => exact .bind (.select rfl _) fun _ => .getOrRaise _ _
  | some product => exact .pure _

omit [Python] in
theorem checkOnHand_reads (product : Product) (movementType : MovementType) (args : MovementArgs) :
    ReadsOnly (checkOnHand product movementType args) := by
  refine .bind (.select rfl _) fun levels => .bind (.raiseIf _ _) fun _ =>
    .bind (.getOrRaise _ _) fun negative => ?_
  cases negative with
  | true => exact .pure _
  | false =>
    refine .bind (.getOrRaise _ _) fun rounded => ?_
    cases args.quantity with
    | finite quantity => exact .pure _
    | infinite negative => exact .raise _
    | nan => exact .raise _

theorem guardMovement_reads (args : MovementArgs) : ReadsOnly (guardMovement args) := by
  refine .bind (resolveProduct_reads _) fun product => ?_
  cases MovementType.ofValue? args.movementType with
  | none => exact .pure _
  | some movementType =>
    simp only
    cases checkParameters movementType args with
    | error detail => exact .pure _
    | ok u => exact checkOnHand_reads _ _ _

omit [Context] [Format] in
theorem readReason_reads (reason : Json) : ReadsOnly (readReason reason) := by
  cases reason with
  | text s => exact .getOrRaise _ _
  | _ => exact .raise _

omit [Context] [Format] in
theorem readNote_reads (schema : String) (note : Json) : ReadsOnly (readNote schema note) := by
  cases note with
  | null => exact .pure _
  | text s => exact .pure _
  | _ => exact .raise _

omit [Context] [Format] in
theorem readUnitCost_reads (unitCost : Json) : ReadsOnly (readUnitCost unitCost) := by
  unfold readUnitCost
  split
  · exact .pure _
  · exact .bind (.getOrRaise _ _) fun _ => .pure _

omit [Context] [Format] in
theorem readOptionalReason_reads (reason : Json) : ReadsOnly (readOptionalReason reason) := by
  unfold readOptionalReason
  split
  · exact .bind (readReason_reads _) fun _ => .pure _
  · exact .pure _

omit [Context] [Format] in
theorem finiteCost_reads (schema : String) (unitCost : Json) (cost : Option Number) :
    ReadsOnly (finiteCost schema unitCost cost) := by
  rcases cost with _ | _ | _ | _
  · exact .pure _
  · exact .pure _
  · exact .raise _
  · exact .raise _

theorem applyAccepted_keeps (accepted : AcceptedMovement) (args : MovementArgs)
    (actorId : Option Uuid) (stamp : MovementStamp) :
    Keeps StockGrows (applyAccepted accepted args actorId stamp) := by
  unfold applyAccepted
  split
  · refine .bind (readReason_reads _).stays fun reason => .bind (readNote_reads _ _).stays fun note => ?_
    split
    · exact adjustStock_keeps _ _ _ _
    · exact .raise _
  · refine .bind (readUnitCost_reads _).stays fun cost =>
      .bind (readOptionalReason_reads _).stays fun reason =>
      .bind (finiteCost_reads _ _ _).stays fun unitCost => .bind (readNote_reads _ _).stays fun note => ?_
    split
    · exact recordMovement_keeps _ _ _ _
    · exact .raise _

theorem proposeStockMovement_keeps (args : MovementArgs) (apply : Bool) (actorId : Option Uuid)
    (stamp : MovementStamp) : Keeps StockGrows (proposeStockMovement args apply actorId stamp) := by
  refine .bind (guardMovement_reads _).stays fun guarded => ?_
  cases guarded with
  | error rejected => exact .pure _
  | ok accepted =>
    cases apply with
    | false => exact .pure _
    | true =>
      refine .bind (.attempt (applyAccepted_keeps _ _ _ _)) fun applied => ?_
      cases applied with
      | ok movement => exact .pure _
      | error e =>
        cases e with
        | unprocessable message => exact .pure _
        | value message => exact .pure _
        | _ => exact .raise _

end

/-! Settlements. -/

/-- The books of the invoices and the mail are all that changes. -/
structure BooksOnly (db db' : Db) : Prop where
  proposals : db'.proposals = db.proposals
  stock : db'.toStockLedger = db.toStockLedger
  payments : db'.payments = db.payments
  mpesa : db'.mpesaTransactions = db.mpesaTransactions
  bankLines : db'.bankStatementLines = db.bankStatementLines

instance : Std.Refl BooksOnly := ⟨fun _ => ⟨rfl, rfl, rfl, rfl, rfl⟩⟩

instance : IsTrans Db BooksOnly := ⟨fun _ _ _ h h' => ⟨h'.proposals.trans h.proposals,
  h'.stock.trans h.stock, h'.payments.trans h.payments, h'.mpesa.trans h.mpesa,
  h'.bankLines.trans h.bankLines⟩⟩

structure PaymentsGrow (db db' : Db) : Prop where
  proposals : db'.proposals = db.proposals
  movements : db'.stockMovements = db.stockMovements
  payments : db.payments.rows <+: db'.payments.rows

instance : Std.Refl PaymentsGrow := ⟨fun _ => ⟨rfl, rfl, List.prefix_rfl⟩⟩

instance : IsTrans Db PaymentsGrow := ⟨fun _ _ _ h h' =>
  ⟨h'.proposals.trans h.proposals, h'.movements.trans h.movements, h.payments.trans h'.payments⟩⟩

theorem PaymentsGrow.of_eq {db db' : Db} (hproposals : db'.proposals = db.proposals)
    (hmovements : db'.stockMovements = db.stockMovements) (hpayments : db'.payments = db.payments) :
    PaymentsGrow db db' where
  proposals := hproposals
  movements := hmovements
  payments := by rw [hpayments]

theorem BooksOnly.paymentsGrow {db db' : Db} (h : BooksOnly db db') : PaymentsGrow db db' :=
  .of_eq h.proposals (by rw [h.stock]) h.payments

theorem PaymentsGrow.grows {db db' : Db} (h : PaymentsGrow db db') : Grows db db' where
  proposals := h.proposals
  movements := by rw [h.movements]
  payments := h.payments

section
variable [Context] [Format]

omit [Context] [Format] in
theorem enqueueEmail_keeps (toEmail toName : Option String) (subject template : String)
    (context : List (String × Option String)) (key : String) :
    Keeps BooksOnly (enqueueEmail toEmail toName subject template context key) := by
  unfold enqueueEmail
  split
  · exact .pure _
  · split
    · exact .pure _
    · refine .bind (.read _) fun free => .bind (.flush ?_) fun _ => .pure _
      rintro db db' ⟨⟩
      unfold Db.enqueue
      split
      · exact ⟨rfl, rfl, rfl, rfl, rfl⟩
      · exact ⟨rfl, rfl, rfl, rfl, rfl⟩

omit [Context] in
theorem enqueuePaymentReceipt_keeps (invoice : Invoice) (paymentId : Uuid) (amount : ℚ)
    (vault : VaultType) : Keeps BooksOnly (enqueuePaymentReceipt invoice paymentId amount vault) :=
  .bind (.select _ _) fun _ => .bind (enqueueEmail_keeps _ _ _ _ _ _) fun _ => .pure _

theorem deriveState_keeps (invoiceId : Uuid) : Keeps BooksOnly (deriveState invoiceId) := by
  refine .bind (.select _ _) fun snapshot => ?_
  cases snapshot with
  | none => exact .bind (.select _ _) fun _ => .pure _
  | some snapshot =>
    exact .bind (.getOrRaise _ _) fun _ => .bind (.select _ _) fun _ => .pure _

omit [Context] in
theorem maybeSnapshot_keeps (invoiceId : Uuid) (state : InvoiceState) :
    Keeps BooksOnly (maybeSnapshot invoiceId state) := by
  unfold maybeSnapshot
  split
  · exact .pure _
  · refine .bind (.select _ _) fun latest => ?_
    split
    · refine .flush ?_
      intro db db' h
      simp only [Db.createSnapshot, Option.bind_eq_bind, Option.bind_eq_some_iff] at h
      obtain ⟨_, -, _, -, h⟩ := h
      obtain rfl := Option.some.inj h
      exact ⟨rfl, rfl, rfl, rfl, rfl⟩
    · exact .pure _

theorem projectInvoiceFromEvents_keeps (invoiceId : Uuid) :
    Keeps BooksOnly (projectInvoiceFromEvents invoiceId) := by
  refine .bind (deriveState_keeps _) fun state => .bind (.write ?_) fun _ =>
    .bind (maybeSnapshot_keeps _ _) fun _ => .pure _
  intro db db' h
  simp only [Db.projectInvoice, Option.bind_eq_bind, Option.bind_eq_some_iff] at h
  obtain ⟨_, -, h⟩ := h
  obtain rfl := Option.some.inj h
  exact ⟨rfl, rfl, rfl, rfl, rfl⟩

theorem appendAndProject_keeps (invoiceId : Uuid) (eventType : InvoiceEventType) (amount : ℚ)
    (occurredAt : DateTime) (recordedBy : Option Uuid) :
    Keeps BooksOnly (appendAndProject invoiceId eventType amount occurredAt recordedBy) := by
  refine .bind (.select _ _) fun sequence => .bind (.flush ?_) fun _ =>
    .bind (projectInvoiceFromEvents_keeps _) fun _ => .pure _
  intro db db' h
  simp only [Db.appendEvent, Option.bind_eq_bind, Option.bind_eq_some_iff] at h
  obtain ⟨_, -, _, -, _, -, h⟩ := h
  obtain rfl := Option.some.inj h
  exact ⟨rfl, rfl, rfl, rfl, rfl⟩

omit [Context] [Format] in
theorem markMpesaReconciled_keeps (id : Option Uuid) : Keeps PaymentsGrow (markMpesaReconciled id) := by
  cases id with
  | none => exact .pure _
  | some id =>
    refine .flush ?_
    rintro db db' ⟨⟩
    exact .of_eq rfl rfl rfl

omit [Context] [Format] in
theorem markBankLineReconciled_keeps (id : Option Uuid) :
    Keeps PaymentsGrow (markBankLineReconciled id) := by
  cases id with
  | none => exact .pure _
  | some id =>
    refine .flush ?_
    rintro db db' ⟨⟩
    exact .of_eq rfl rfl rfl

/-- All of a settlement that follows the payment row. -/
def afterPayment (data : ReconciledPayment) (invoice : Invoice) (applied : ℚ) : AppTx Unit := do
  appendAndProject data.invoiceId .paymentApplied applied data.occurredAt none
  markMpesaReconciled data.mpesaTransId
  markBankLineReconciled data.bankLineId
  let invoice ← currentInvoice invoice
  assign (Db.addOutboxEvent ⟨"finguard.events", "payments.reconciled",
    .paymentReconciled data.paymentId data.invoiceId applied data.vault invoice.balanceDue.val⟩)
  let amount ← storedAmount data.paymentId applied
  enqueuePaymentReceipt invoice data.paymentId amount data.vault

theorem afterPayment_keeps (data : ReconciledPayment) (invoice : Invoice) (applied : ℚ) :
    Keeps PaymentsGrow (afterPayment data invoice applied) := by
  refine .bind ((appendAndProject_keeps _ _ _ _ _).mono BooksOnly.paymentsGrow) fun _ =>
    .bind (markMpesaReconciled_keeps _) fun _ => .bind (markBankLineReconciled_keeps _) fun _ =>
    .bind (.read _) fun _ => .bind (.assign ?_) fun _ => .bind (.read _) fun _ =>
    (enqueuePaymentReceipt_keeps _ _ _ _).mono BooksOnly.paymentsGrow
  intro db
  exact .of_eq rfl rfl rfl

omit [Context] [Format] in
/-- The payment row of a settlement. -/
theorem createPayment_rows {db db' : Db} {id invoiceId : Uuid} {amount : ℚ} {vault : VaultType}
    {note : Option String} {date : DateTime} {recordedBy mpesaTransId bankLineId : Option Uuid}
    (h : db.createPayment id invoiceId amount vault note date recordedBy mpesaTransId bankLineId =
      some db') : ∃ payment payments, db.payments.insert? payment = some payments ∧
        payment.id = id ∧ payment.mpesaTransId = mpesaTransId ∧
        payment.bankLineId = bankLineId ∧ db' = { db with payments } := by
  obtain ⟨stored, payments, -, hinsert, rfl⟩ := createPayment_eq_some h
  exact ⟨_, payments, hinsert, rfl, rfl, rfl, rfl⟩

theorem recordReconciled_keeps (data : ReconciledPayment) (invoice : Invoice) (applied : ℚ) :
    Keeps PaymentsGrow (recordReconciled data invoice applied) := by
  refine .bind (.flush ?_) fun _ => afterPayment_keeps data invoice applied
  intro db db' h
  obtain ⟨payment, payments, hinsert, -, -, -, rfl⟩ := createPayment_rows h
  exact ⟨rfl, rfl, by simp [Table.rows_of_insert hinsert]⟩

theorem applyReconciledPayment_keeps (data : ReconciledPayment) :
    Keeps PaymentsGrow (applyReconciledPayment data) := by
  refine .bind (.select _ _) fun found => .bind (.getOrRaise _ _) fun invoice => ?_
  simp only
  split
  · exact .pure _
  · exact .bind (recordReconciled_keeps _ _ _) fun _ => .pure _

end

end Finguard
