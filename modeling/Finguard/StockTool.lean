import Finguard.StockReplay

/-! The one tool through which agents move stock. It answers with what would happen, and
moves the stock only where it is told to. -/

namespace Finguard
open Decimal Text Transaction Transaction.Tx

/-- What Python's conversions make of a value. A float is the decimal that it prints as,
and `invalid` is the text of a refused field. -/
class Python where
  str : Json → String
  str_text : ∀ s, str (.text s) = s
  repr : Json → String
  float : Json → Except ServiceError Number
  decimal : String → Option Number
  invalid : String → String → Json → String

attribute [simp] Python.str_text

structure MovementArgs where
  productRef : String
  movementType : String
  quantity : Number
  reason : Json
  unitCost : Json
  note : Json

structure MovementResult where
  status : String
  productId : Uuid
  sku : String
  movementType : String
  quantity : Number
  reason : Json := .null
  resultingOnHand : Option ℚ
  detail : String
  proposalId : Option Uuid := none

/-- A movement that the gates of the tool let through. -/
structure AcceptedMovement where
  product : Product
  movementType : MovementType
  quantity : ℚ
  base : MovementResult

inductive MovementOutcome where
  | answered (result : MovementResult)
  | committed (base : MovementResult) (movement : Option StockMovement)

def rejectMovement (product : Product) (args : MovementArgs) (detail : String) :
    MovementResult where
  status := "rejected"
  productId := product.id
  sku := product.sku
  movementType := args.movementType
  quantity := args.quantity
  resultingOnHand := none
  detail

/-- The gates on the parameters alone. -/
def checkParameters (movementType : MovementType) (args : MovementArgs) : Except String Unit :=
  if movementType = .adjustment then
    if args.quantity.isZero then .error "adjustment quantity must be non-zero"
    else if args.reason.isNull then .error "reason is required for an ADJUSTMENT"
    else .ok ()
  else if args.quantity ≠ .nan ∧ args.quantity.isPositive = false then
    .error "quantity must be positive"
  else if movementType = .receipt ∧ args.unitCost.isNull then
    .error "unit_cost is required for a RECEIPT"
  else .ok ()

section
variable [Context] [Format] [Python]

def Number.str : Number → String
  | finite q => Format.str q
  | infinite negative => if negative then "-Infinity" else "Infinity"
  | nan => "NaN"

def resultingOnHand (onHand : ℚ) (movementType : MovementType) (quantity : Number) : Number :=
  let adds := movementType = .adjustment ∨ movementType.inbound
  match quantity with
  | .finite q => .finite (if adds then add onHand q else sub onHand q)
  | .infinite negative => .infinite (if adds then negative else !negative)
  | .nan => .nan

def getProductByRef (productRef : String) : AppTx (Option Product) :=
  match Format.ofIdentifier productRef with
  | some id => select .getProduct (·.getProduct id)
  | none => pure none

def getProductBySku (sku : String) : AppTx Product := do
  let found ← select .getProductBySku (fun db => db.products.find? (·.sku == sku))
  getOrRaise found (.notFound s!"Product {Python.repr (.text sku)} not found")

/-- A product by its identifier, or by its SKU. -/
def resolveProduct (productRef : String) : AppTx Product := do
  let byId ← getProductByRef productRef
  match byId with
  | some product => return product
  | none => getProductBySku productRef

/-- The gate on what would be left on hand, which is read without a lock. -/
def checkOnHand (product : Product) (movementType : MovementType) (args : MovementArgs) :
    AppTx (Except MovementResult AcceptedMovement) := do
  let levels ← select .getLevel (·.levelsOf product.id)
  raiseIf (1 < levels.length) .multipleResults
  let onHand := (levels.head?.map (fun level => level.quantityOnHand.val)).getD 0
  let resulting := resultingOnHand onHand movementType args.quantity
  let negative ← getOrRaise resulting.isNegative? .invalidOperation
  if negative then
    return .error (rejectMovement product args (s!"insufficient stock: on-hand " ++
      s!"{Format.str onHand}, movement would yield {resulting.str}"))
  else do
    let rounded ← getOrRaise (resulting.quantize? 3) .invalidOperation
    match args.quantity with
    | .finite quantity => return .ok {
        product
        movementType
        quantity
        base := {
          status := "proposed"
          productId := product.id
          sku := product.sku
          movementType := args.movementType
          quantity := args.quantity
          reason := args.reason
          resultingOnHand := some rounded
          detail := "Awaiting operator confirmation." } }
    | _ => raise .invalidOperation

def guardMovement (args : MovementArgs) : AppTx (Except MovementResult AcceptedMovement) := do
  let product ← resolveProduct args.productRef
  match MovementType.ofValue? args.movementType with
  | none =>
    return .error (rejectMovement product args
      s!"unknown movement_type {Python.repr (.text args.movementType)}")
  | some movementType =>
    match checkParameters movementType args with
    | .error detail => return .error (rejectMovement product args detail)
    | .ok () => checkOnHand product movementType args

/-! The parameters as the schemas of the inventory service take them. -/

def readReason (reason : Json) : AppTx MovementReason :=
  match reason with
  | .text s => getOrRaise (MovementReason.ofValue? s)
      (.value s!"{Python.repr reason} is not a valid MovementReason")
  | _ => raise (.value s!"{Python.repr reason} is not a valid MovementReason")

def readOptionalReason (reason : Json) : AppTx (Option MovementReason) :=
  if reason.truthy then do
    let reason ← readReason reason
    return some reason
  else pure none

def readNote (schema : String) (note : Json) : AppTx (Option String) :=
  match note with
  | .null => pure none
  | .text s => pure (some s)
  | _ => raise (.value (Python.invalid schema "note" note))

def readUnitCost (unitCost : Json) : AppTx (Option Number) :=
  if unitCost.isNull then pure none
  else do
    let cost ← getOrRaise (Python.decimal (Python.str unitCost)) .invalidOperation
    return some cost

/-- A schema lets no number pass that is not finite. -/
def finiteCost (schema : String) (unitCost : Json) : Option Number → AppTx (Option ℚ)
  | none => pure none
  | some (.finite q) => pure (some q)
  | some _ => raise (.value (Python.invalid schema "unit_cost" unitCost))

def applyAdjustment (accepted : AcceptedMovement) (args : MovementArgs) (actorId : Option Uuid)
    (stamp : MovementStamp) : AppTx (Option StockMovement) := do
  let reason ← readReason args.reason
  let note ← readNote "StockAdjustmentCreate" args.note
  if h : accepted.quantity ≠ 0 then
    adjustStock accepted.product.id ⟨accepted.quantity, reason, note, h⟩ actorId stamp
  else raise (.value "adjustment quantity must be non-zero")

def applyRoutine (accepted : AcceptedMovement) (args : MovementArgs) (actorId : Option Uuid)
    (stamp : MovementStamp) : AppTx (Option StockMovement) := do
  let cost ← readUnitCost args.unitCost
  let reason ← readOptionalReason args.reason
  let unitCost ← finiteCost "InventoryMovementCreate" args.unitCost cost
  let note ← readNote "InventoryMovementCreate" args.note
  if h : accepted.movementType ≠ .adjustment ∧ 0 < accepted.quantity ∧
      (accepted.movementType = .receipt → unitCost.isSome) then
    recordMovement accepted.product.id
      ⟨accepted.movementType, accepted.quantity, unitCost, reason, note, none, none, h.1, h.2.1,
        h.2.2⟩ actorId stamp
  else raise (.value (Python.invalid "InventoryMovementCreate" "quantity" (.number accepted.quantity)))

def applyAccepted (accepted : AcceptedMovement) (args : MovementArgs) (actorId : Option Uuid)
    (stamp : MovementStamp) : AppTx (Option StockMovement) :=
  if accepted.movementType = .adjustment then applyAdjustment accepted args actorId stamp
  else applyRoutine accepted args actorId stamp

/-- What the service refuses with is an answer too. -/
def proposeStockMovement (args : MovementArgs) (apply : Bool) (actorId : Option Uuid)
    (stamp : MovementStamp) : AppTx MovementOutcome := do
  let guarded ← guardMovement args
  match guarded with
  | .error rejected => return .answered rejected
  | .ok accepted =>
    if apply then do
      let applied ← attempt (applyAccepted accepted args actorId stamp)
      match applied with
      | .ok movement => return .committed accepted.base movement
      | .error (.unprocessable message) =>
        return .answered
          (rejectMovement accepted.product args s!"service rejected movement: {message}")
      | .error (.value message) =>
        return .answered
          (rejectMovement accepted.product args s!"service rejected movement: {message}")
      | .error e => raise e
    else return .answered accepted.base

/-! After the movement is committed. -/

def auditAction : MovementType → String
  | .receipt => "stock.received"
  | .returnIn => "stock.received"
  | .issue => "stock.issued"
  | .sale => "stock.issued"
  | _ => "stock.adjusted"

def auditLog (actorId : Option Uuid) (movement : StockMovement) : AuditLog where
  action := auditAction movement.movementType
  actorLabel := some "k_stockkeeper"
  actorId
  resourceType := "stock_movement"
  resourceId := some (Format.identifier movement.id)

/-- The answer, and the store with the audit row. A failed audit row is rolled back, and the
movement can then not be read for the answer. -/
def auditMovement (audited : Bool) (base : MovementResult) (actorId : Option Uuid)
    (movement : Option StockMovement) (db : Db) : Option MovementResult × Db :=
  match audited, movement with
  | true, some movement =>
    (some { base with
      status := "applied"
      resultingOnHand := some movement.balanceAfter.val
      detail := s!"movement {Format.identifier movement.id}" },
      { db with auditLogs := db.auditLogs ++ [auditLog actorId movement] })
  | _, _ => (none, db)

/-! What the tool reads and writes. -/

omit [Context] [Python] in
theorem getProductByRef_eq_ok {productRef : String} {faults : Faults Site ServiceError}
    {db db' : Db} {found : Option Product}
    (h : getProductByRef productRef faults db = .ok found db') : db' = db := by
  cases hid : Format.ofIdentifier productRef with
  | some id =>
    simp only [getProductByRef, hid, select_eq_ok] at h
    exact h.2.2.symm
  | none =>
    simp only [getProductByRef, hid, pure_apply, Outcome.ok.injEq] at h
    exact h.2.symm

omit [Context] in
theorem resolveProduct_eq_ok {productRef : String} {faults : Faults Site ServiceError}
    {db db' : Db} {product : Product} (h : resolveProduct productRef faults db = .ok product db') :
    db' = db := by
  simp only [resolveProduct, bind_eq_ok] at h
  obtain ⟨byId, db₁, hbyId, h⟩ := h
  obtain rfl := getProductByRef_eq_ok hbyId
  cases byId with
  | some product' =>
    cases h
    rfl
  | none =>
    simp only [getProductBySku, bind_eq_ok, select_eq_ok, getOrRaise_eq_ok] at h
    obtain ⟨_, _, ⟨-, -, rfl⟩, -, rfl⟩ := h
    rfl

/-- What the gates answer with, without a write. -/
structure Guarded (args : MovementArgs) (db db' : Db)
    (guarded : Except MovementResult AcceptedMovement) : Prop where
  unchanged : db' = db
  rejected : ∀ result, guarded = .error result → result.status = "rejected"
  accepted : ∀ accepted, guarded = .ok accepted →
    MovementType.ofValue? args.movementType = some accepted.movementType ∧
      args.quantity = .finite accepted.quantity ∧ accepted.base.status = "proposed"

omit [Python] in
theorem checkOnHand_eq_ok {product : Product} {movementType : MovementType} {args : MovementArgs}
    {faults : Faults Site ServiceError} {db db' : Db}
    {guarded : Except MovementResult AcceptedMovement}
    (htype : MovementType.ofValue? args.movementType = some movementType)
    (h : checkOnHand product movementType args faults db = .ok guarded db') :
    Guarded args db db' guarded := by
  simp only [checkOnHand, bind_eq_ok, select_eq_ok, raiseIf_eq_ok, getOrRaise_eq_ok] at h
  obtain ⟨_, _, ⟨-, rfl, rfl⟩, _, _, ⟨-, rfl⟩, negative, _, ⟨-, rfl⟩, h⟩ := h
  cases negative with
  | true =>
    obtain ⟨rfl, rfl⟩ := h
    exact ⟨rfl, by rintro _ ⟨⟩; rfl, by rintro _ ⟨⟩⟩
  | false =>
    simp only [Bool.false_eq_true, if_false, bind_eq_ok, getOrRaise_eq_ok] at h
    obtain ⟨rounded, _, ⟨-, rfl⟩, h⟩ := h
    cases hquantity : args.quantity with
    | finite quantity =>
      rw [hquantity] at h
      obtain ⟨rfl, rfl⟩ := h
      refine ⟨rfl, by rintro _ ⟨⟩, ?_⟩
      rintro _ ⟨⟩
      exact ⟨htype, hquantity, rfl⟩
    | infinite negative =>
      rw [hquantity] at h
      cases h
    | nan =>
      rw [hquantity] at h
      cases h

theorem guardMovement_eq_ok {args : MovementArgs} {faults : Faults Site ServiceError} {db db' : Db}
    {guarded : Except MovementResult AcceptedMovement}
    (h : guardMovement args faults db = .ok guarded db') : Guarded args db db' guarded := by
  simp only [guardMovement, bind_eq_ok] at h
  obtain ⟨product, db₁, hproduct, h⟩ := h
  obtain rfl := resolveProduct_eq_ok hproduct
  cases htype : MovementType.ofValue? args.movementType with
  | none =>
    rw [htype] at h
    obtain ⟨rfl, rfl⟩ := h
    exact ⟨rfl, by rintro _ ⟨⟩; rfl, by rintro _ ⟨⟩⟩
  | some movementType =>
    simp only [htype] at h
    cases hcheck : checkParameters movementType args with
    | error detail =>
      rw [hcheck] at h
      obtain ⟨rfl, rfl⟩ := h
      exact ⟨rfl, by rintro _ ⟨⟩; rfl, by rintro _ ⟨⟩⟩
    | ok u =>
      rw [hcheck] at h
      exact checkOnHand_eq_ok htype h

/-- A movement of the given type is in the ledger, and nothing outside the stock tables is
written. -/
def Applied (db db' : Db) (movementType : MovementType) : Prop :=
  ∃ l' movement, db.stockMovements.insert? movement = some l'.stockMovements ∧
    movement.movementType = movementType ∧ db' = { db with toStockLedger := l' }

omit [Python] in
theorem recordMovement_applied {productId : Uuid} {data : InventoryMovementCreate}
    {actorId : Option Uuid} {stamp : MovementStamp} {faults : Faults Site ServiceError} {db db' : Db}
    {r : Option StockMovement} (h : recordMovement productId data actorId stamp faults db = .ok r db') :
    Applied db db' data.movementType := by
  simp only [recordMovement, bind_eq_ok, raiseIf_eq_ok, commit, site_eq_ok, pure_apply,
    Outcome.ok.injEq] at h
  obtain ⟨_, _, ⟨-, rfl⟩, _, _, happly, _, _, ⟨-, rfl⟩, -, rfl⟩ := h
  obtain ⟨l', movement, hmoved, rfl⟩ := applyMovement_eq_ok happly
  exact ⟨l', movement, hmoved.appended, hmoved.type, rfl⟩

omit [Python] in
theorem adjustStock_applied {productId : Uuid} {data : StockAdjustmentCreate}
    {actorId : Option Uuid} {stamp : MovementStamp} {faults : Faults Site ServiceError} {db db' : Db}
    {r : Option StockMovement} (h : adjustStock productId data actorId stamp faults db = .ok r db') :
    Applied db db' .adjustment := by
  simp only [adjustStock, bind_eq_ok, raiseIf_eq_ok, commit, site_eq_ok, pure_apply,
    Outcome.ok.injEq] at h
  obtain ⟨_, _, ⟨-, rfl⟩, _, _, happly, _, _, ⟨-, rfl⟩, -, rfl⟩ := h
  obtain ⟨l', movement, hmoved, rfl⟩ := applyMovement_eq_ok happly
  exact ⟨l', movement, hmoved.appended, hmoved.type, rfl⟩

omit [Context] [Format] in
theorem readReason_eq_ok {reason : Json} {faults : Faults Site ServiceError} {db db' : Db}
    {r : MovementReason} (h : readReason reason faults db = .ok r db') : db' = db := by
  cases reason with
  | text s =>
    simp only [readReason, getOrRaise_eq_ok] at h
    exact h.2.symm
  | _ => cases h

omit [Context] [Format] in
theorem readOptionalReason_eq_ok {reason : Json} {faults : Faults Site ServiceError} {db db' : Db}
    {r : Option MovementReason} (h : readOptionalReason reason faults db = .ok r db') :
    db' = db := by
  unfold readOptionalReason at h
  by_cases hgiven : reason.truthy
  · simp only [hgiven, if_true, bind_eq_ok, pure_apply, Outcome.ok.injEq] at h
    obtain ⟨_, _, hreason, -, rfl⟩ := h
    exact readReason_eq_ok hreason
  · simp only [hgiven] at h
    cases h
    rfl

omit [Context] [Format] in
theorem readNote_eq_ok {schema : String} {note : Json} {faults : Faults Site ServiceError}
    {db db' : Db} {r : Option String} (h : readNote schema note faults db = .ok r db') :
    db' = db := by
  cases note <;> cases h <;> rfl

omit [Context] [Format] in
theorem readUnitCost_eq_ok {unitCost : Json} {faults : Faults Site ServiceError} {db db' : Db}
    {r : Option Number} (h : readUnitCost unitCost faults db = .ok r db') : db' = db := by
  unfold readUnitCost at h
  by_cases hgiven : unitCost.isNull
  · simp only [hgiven] at h
    cases h
    rfl
  · simp only [hgiven, Bool.false_eq_true, if_false, bind_eq_ok, getOrRaise_eq_ok, pure_apply,
      Outcome.ok.injEq] at h
    obtain ⟨_, _, ⟨-, rfl⟩, -, rfl⟩ := h
    rfl

omit [Context] [Format] in
theorem finiteCost_eq_ok {schema : String} {unitCost : Json} {cost : Option Number}
    {faults : Faults Site ServiceError} {db db' : Db} {r : Option ℚ}
    (h : finiteCost schema unitCost cost faults db = .ok r db') : db' = db := by
  rcases cost with _ | _ | _ | _ <;> cases h <;> rfl

theorem applyAccepted_cases {accepted : AcceptedMovement} {args : MovementArgs}
    {actorId : Option Uuid} {stamp : MovementStamp} {faults : Faults Site ServiceError} {db db' : Db}
    {r : Option StockMovement}
    (h : applyAccepted accepted args actorId stamp faults db = .ok r db') :
    (accepted.movementType = .adjustment ∧ ∃ reason note, ∃ hquantity : accepted.quantity ≠ 0,
      readReason args.reason faults db = .ok reason db ∧
      readNote "StockAdjustmentCreate" args.note faults db = .ok note db ∧
      adjustStock accepted.product.id ⟨accepted.quantity, reason, note, hquantity⟩ actorId stamp
        faults db = .ok r db') ∨
    (accepted.movementType ≠ .adjustment ∧ ∃ cost reason unitCost note,
      ∃ hdata : accepted.movementType ≠ .adjustment ∧ 0 < accepted.quantity ∧
        (accepted.movementType = .receipt → unitCost.isSome),
      readUnitCost args.unitCost faults db = .ok cost db ∧
      readOptionalReason args.reason faults db = .ok reason db ∧
      finiteCost "InventoryMovementCreate" args.unitCost cost faults db = .ok unitCost db ∧
      readNote "InventoryMovementCreate" args.note faults db = .ok note db ∧
      recordMovement accepted.product.id ⟨accepted.movementType, accepted.quantity, unitCost, reason,
        note, none, none, hdata.1, hdata.2.1, hdata.2.2⟩ actorId stamp faults db = .ok r db') := by
  unfold applyAccepted at h
  by_cases hadjustment : accepted.movementType = .adjustment
  · rw [if_pos hadjustment] at h
    simp only [applyAdjustment, bind_eq_ok] at h
    obtain ⟨reason, db₁, hreason, note, db₂, hnote, h⟩ := h
    obtain rfl := readReason_eq_ok hreason
    obtain rfl := readNote_eq_ok hnote
    by_cases hquantity : accepted.quantity ≠ 0
    · rw [dif_pos hquantity] at h
      exact .inl ⟨hadjustment, reason, note, hquantity, hreason, hnote, h⟩
    · rw [dif_neg hquantity] at h
      cases h
  · rw [if_neg hadjustment] at h
    simp only [applyRoutine, bind_eq_ok] at h
    obtain ⟨cost, db₁, hcost, reason, db₂, hreason, unitCost, db₃, hunit, note, db₄, hnote, h⟩ := h
    obtain rfl := readUnitCost_eq_ok hcost
    obtain rfl := readOptionalReason_eq_ok hreason
    obtain rfl := finiteCost_eq_ok hunit
    obtain rfl := readNote_eq_ok hnote
    split at h
    · rename_i hdata
      exact .inr ⟨hadjustment, cost, reason, unitCost, note, hdata, hcost, hreason, hunit, hnote, h⟩
    · cases h

theorem applyAccepted_eq_ok {accepted : AcceptedMovement} {args : MovementArgs}
    {actorId : Option Uuid} {stamp : MovementStamp} {faults : Faults Site ServiceError} {db db' : Db}
    {r : Option StockMovement}
    (h : applyAccepted accepted args actorId stamp faults db = .ok r db') :
    Applied db db' accepted.movementType := by
  rcases applyAccepted_cases h with ⟨hadjustment, reason, note, hquantity, -, -, h⟩ |
    ⟨-, cost, reason, unitCost, note, hdata, -, -, -, -, h⟩
  · rw [hadjustment]
    exact adjustStock_applied h
  · exact recordMovement_applied h

/-- All that the tool does where it does not fail. -/
inductive ToolEffect (args : MovementArgs) (apply : Bool) (actorId : Option Uuid)
    (stamp : MovementStamp) (faults : Faults Site ServiceError) (db db' : Db) :
    MovementOutcome → Prop
  | refused {result : MovementResult} (hstatus : result.status = "rejected")
    (hdb : apply = false → db' = db) :
    ToolEffect args apply actorId stamp faults db db' (.answered result)
  | proposed {accepted : AcceptedMovement} (happly : apply = false) (hdb : db' = db)
    (htype : MovementType.ofValue? args.movementType = some accepted.movementType)
    (hquantity : args.quantity = .finite accepted.quantity)
    (hstatus : accepted.base.status = "proposed") :
    ToolEffect args apply actorId stamp faults db db' (.answered accepted.base)
  | moved {accepted : AcceptedMovement} {movement : Option StockMovement} (happly : apply = true)
    (htype : MovementType.ofValue? args.movementType = some accepted.movementType)
    (hguard : guardMovement args faults db = .ok (.ok accepted) db)
    (hrun : applyAccepted accepted args actorId stamp faults db = .ok movement db') :
    ToolEffect args apply actorId stamp faults db db' (.committed accepted.base movement)

theorem proposeStockMovement_eq_ok {args : MovementArgs} {apply : Bool} {actorId : Option Uuid}
    {stamp : MovementStamp} {faults : Faults Site ServiceError} {db db' : Db}
    {outcome : MovementOutcome}
    (h : proposeStockMovement args apply actorId stamp faults db = .ok outcome db') :
    ToolEffect args apply actorId stamp faults db db' outcome := by
  simp only [proposeStockMovement, bind_eq_ok] at h
  obtain ⟨guarded, db₁, hguard, h⟩ := h
  have hguarded := guardMovement_eq_ok hguard
  obtain rfl := hguarded.unchanged
  cases guarded with
  | error rejected =>
    cases h
    exact .refused (hguarded.rejected _ rfl) (fun _ => rfl)
  | ok accepted =>
    obtain ⟨htype, hquantity, hstatus⟩ := hguarded.accepted _ rfl
    cases apply with
    | false =>
      cases h
      exact .proposed rfl rfl htype hquantity hstatus
    | true =>
      simp only [if_true, bind_eq_ok] at h
      obtain ⟨applied, db₂, hattempt, h⟩ := h
      cases hrun : applyAccepted accepted args actorId stamp faults db₁ with
      | ok movement db₃ =>
        simp only [attempt, hrun, Outcome.ok.injEq] at hattempt
        obtain ⟨rfl, rfl⟩ := hattempt
        cases h
        exact .moved rfl htype hguard hrun
      | raised e db₃ =>
        simp only [attempt, hrun, Outcome.ok.injEq] at hattempt
        obtain ⟨rfl, rfl⟩ := hattempt
        cases e with
        | unprocessable message =>
          cases h
          exact .refused rfl (fun hfalse => absurd hfalse (by decide))
        | value message =>
          cases h
          exact .refused rfl (fun hfalse => absurd hfalse (by decide))
        | _ => cases h
      | aborted e =>
        simp only [attempt, hrun] at hattempt
        cases hattempt

theorem proposeStockMovement_of_accepted {args : MovementArgs} {accepted : AcceptedMovement}
    {actorId : Option Uuid} {stamp : MovementStamp} {faults : Faults Site ServiceError} {db : Db}
    (h : guardMovement args faults db = .ok (.ok accepted) db) :
    proposeStockMovement args false actorId stamp faults db = .ok (.answered accepted.base) db ∧
    ∀ movement db', applyAccepted accepted args actorId stamp faults db = .ok movement db' →
      proposeStockMovement args true actorId stamp faults db =
        .ok (.committed accepted.base movement) db' := by
  unfold proposeStockMovement
  constructor
  · rw [bind_apply, h]
    rfl
  · intro movement db' happly
    rw [bind_apply, h]
    simp only [if_true]
    rw [bind_apply]
    simp only [attempt, happly]
    rfl

omit [Context] [Python] in
/-- Only the audit trail is written. -/
theorem auditMovement_frame {audited : Bool} {base : MovementResult} {actorId : Option Uuid}
    {movement : Option StockMovement} {db db' : Db} {answer : Option MovementResult}
    (h : auditMovement audited base actorId movement db = (answer, db')) :
    db'.proposals = db.proposals ∧ db'.stockMovements = db.stockMovements ∧
      db'.payments = db.payments := by
  cases audited <;> cases movement <;> cases h <;> exact ⟨rfl, rfl, rfl⟩

end

def plainStr : Json → String
  | .null => "None"
  | .bool b => if b then "True" else "False"
  | .number q => Format.plain.str q
  | .text s => s
  | .array _ => "[...]"
  | .object _ => "{...}"

/-- Conversions that fit the values of the runs below. -/
abbrev Python.plain : Python where
  str := plainStr
  str_text _ := rfl
  repr
    | .text s => "'" ++ s ++ "'"
    | value => plainStr value
  float
    | .number q => .ok (.finite q)
    | value => .error (.value ("could not convert to float: " ++ plainStr value))
  decimal s := (Format.plain.decimal s).map .finite
  invalid schema field _ := s!"1 validation error for {schema}: {field}"

end Finguard
