import Finguard.Invoicing

/-! The inventory service: one movement of stock as one transaction. -/

namespace Finguard
open Decimal Text Transaction Transaction.Tx

/-! Requests, with what their schemas check. -/

structure InventoryMovementCreate where
  movementType : MovementType
  quantity : ℚ
  unitCost : Option ℚ
  reason : Option MovementReason
  note : Option String
  referenceType : Option String
  referenceId : Option Uuid
  not_adjustment : movementType ≠ .adjustment
  quantity_pos : 0 < quantity
  receipt_cost : movementType = .receipt → unitCost.isSome

/-- The quantity of an adjustment carries its sign. -/
structure StockAdjustmentCreate where
  quantity : ℚ
  reason : MovementReason
  note : Option String
  quantity_ne_zero : quantity ≠ 0

/-- What every movement is applied with. -/
structure MovementRequest where
  productId : Uuid
  movementType : MovementType
  quantity : ℚ
  signedDelta : ℚ
  unitCost : Option ℚ
  reason : Option MovementReason
  note : Option String
  referenceType : Option String
  referenceId : Option Uuid
  actorId : Option Uuid

/-- The identifiers that new rows are given and the time of the request. -/
structure MovementStamp where
  levelId : Uuid
  movementId : Uuid
  now : DateTime

structure LowStockSignal where
  productId : Uuid
  sku : String
  name : String
  onHand : ℚ
  reorderLevel : Quantity

/-! Queries. -/

namespace StockLedger

def getProduct (l : StockLedger) (id : Uuid) : Option Product := l.products.find? (·.id == id)

def levelsOf (l : StockLedger) (productId : Uuid) : List StockLevel :=
  l.stockLevels.filter (·.productId == productId)

def movementsOf (l : StockLedger) (productId : Uuid) : List StockMovement :=
  l.stockMovements.filter (·.productId == productId)

def lastSequence (l : StockLedger) (productId : Uuid) : ℤ :=
  (((l.movementsOf productId).map StockMovement.sequence).max?).getD 0

end StockLedger

/-- What the code computes before it writes: the level's new attributes, the cost on
the movement and the alerts that follow. -/
structure MovementPlan where
  onHand : ℚ
  averageCost : ℚ
  unitCost : Option ℚ
  signal : Option LowStockSignal
  recovered : Option Uuid

def StockLevel.fresh (id productId : Uuid) : StockLevel where
  id
  productId
  locationId := none
  quantityOnHand := default
  quantityReserved := default
  averageCost := default
  onHandNonneg := le_refl _
  reservedNonneg := le_refl _

section
variable [Context] [Format]

def weightedAvg (qtyBefore avgBefore qtyIn costIn : ℚ) : Option ℚ :=
  let totalQty := add qtyBefore qtyIn
  if totalQty ≤ 0 then quantize? 2 costIn
  else quantize? 2 (div (add (mul qtyBefore avgBefore) (mul qtyIn costIn)) totalQty)

/-- The cost that an outflow is stamped with when the request names none. -/
def effectiveUnitCost (request : MovementRequest) (averageCost : ℚ) : Option ℚ :=
  if request.unitCost = none ∧ (request.movementType = .sale ∨ request.movementType = .issue) then
    some averageCost
  else request.unitCost

def lowStockSignal (product : Product) (request : MovementRequest) (onHand : ℚ) :
    Option LowStockSignal :=
  if 0 < product.reorderLevel.val ∧ request.signedDelta < 0 ∧ onHand ≤ product.reorderLevel.val then
    some ⟨product.id, product.sku, product.name, onHand, product.reorderLevel⟩
  else none

def recoveredProduct (product : Product) (request : MovementRequest) (before onHand : ℚ) :
    Option Uuid :=
  if 0 < product.reorderLevel.val ∧ 0 < request.signedDelta ∧ before ≤ product.reorderLevel.val ∧
      product.reorderLevel.val < onHand then some product.id
  else none

/-- The average moves only on an inbound movement with a cost. -/
def newAverageCost (level : StockLevel) (request : MovementRequest) : Option ℚ :=
  match request.unitCost with
  | some cost =>
    if request.movementType.inbound then
      weightedAvg level.quantityOnHand.val level.averageCost.val request.quantity cost
    else some level.averageCost.val
  | none => some level.averageCost.val

def planMovement (product : Product) (level : StockLevel) (request : MovementRequest) :
    Except ServiceError MovementPlan :=
  let onHand := add level.quantityOnHand.val request.signedDelta
  if onHand < 0 ∧ request.movementType ≠ .adjustment then
    .error (.unprocessable (s!"Insufficient stock: on-hand " ++
      s!"{Format.str level.quantityOnHand.val}, requested {Format.str request.quantity}"))
  else if onHand < 0 then
    .error (.unprocessable (s!"Adjustment would drive on-hand negative " ++
      s!"({Format.str level.quantityOnHand.val} + {Format.str request.signedDelta})"))
  else
    match newAverageCost level request with
    | none => .error .invalidOperation
    | some averageCost => .ok {
        onHand
        averageCost
        unitCost := effectiveUnitCost request averageCost
        signal := lowStockSignal product request onHand
        recovered := recoveredProduct product request level.quantityOnHand.val onHand }

end

/-! Writes. -/

namespace StockLedger

def createLevel (l : StockLedger) (id productId : Uuid) : Option StockLedger := do
  let _ ← l.getProduct productId
  let stockLevels ← l.stockLevels.insert? (.fresh id productId)
  return { l with stockLevels }

/-- The ledger row as the column types and checks let it in. -/
def movementRow? (request : MovementRequest) (plan : MovementPlan) (stamp : MovementStamp)
    (sequence : ℤ) : Option StockMovement := do
  let quantity ← Numeric.store? 18 3 request.quantity
  let unitCost ← plan.unitCost.mapM (Numeric.store? 18 2)
  let balanceAfter ← Numeric.store? 18 3 plan.onHand
  if h : 0 < quantity.units then
    some {
      id := stamp.movementId
      productId := request.productId
      sequence
      movementType := request.movementType
      movementReason := request.reason
      quantity
      unitCost
      balanceAfter
      referenceType := request.referenceType
      referenceId := request.referenceId
      note := request.note
      occurredAt := stamp.now
      createdBy := request.actorId
      positiveQuantity := h }
  else none

/-- The row after the attributes that differ from the loaded ones are written to it. -/
def levelRow? (plan : MovementPlan) (loaded level : StockLevel) : Option StockLevel := do
  let quantityOnHand ← Numeric.assign? plan.onHand loaded.quantityOnHand level.quantityOnHand
  let averageCost ← Numeric.assign? plan.averageCost loaded.averageCost level.averageCost
  if h : 0 ≤ quantityOnHand.units then
    some { level with quantityOnHand, averageCost, onHandNonneg := h }
  else none

theorem levelRow?_clash {plan : MovementPlan} {loaded a a' : StockLevel}
    (h : levelRow? plan loaded a = some a') (b : StockLevel) : Row.clash a' b = Row.clash a b := by
  simp only [levelRow?, Option.bind_eq_bind, Option.bind_eq_some_iff] at h
  obtain ⟨_, _, _, _, h⟩ := h
  split at h
  · obtain rfl := Option.some.inj h
    rfl
  · cases h

/-- One flush: the new ledger row and the changed level. -/
def writeMovement (l : StockLedger) (loaded : StockLevel) (request : MovementRequest)
    (plan : MovementPlan) (stamp : MovementStamp) (sequence : ℤ) : Option StockLedger := do
  let movement ← movementRow? request plan stamp sequence
  let stockMovements ← l.stockMovements.insert? movement
  let stockLevels ← l.stockLevels.update? (·.id == loaded.id) (levelRow? plan loaded)
    (fun _ _ => levelRow?_clash)
  return { l with stockLevels, stockMovements }

end StockLedger

/-- Lift a write on the stock tables to the whole store. -/
def Db.onStock (f : StockLedger → Option StockLedger) (db : Db) : Option Db :=
  (f db.toStockLedger).map (fun l => { db with toStockLedger := l })

/-! The service. -/

section
variable [Context] [Format]

/-- Lock the level row of the product, or create it. -/
def getOrCreateLevel (productId levelId : Uuid) : AppTx StockLevel := do
  let levels ← select .lockLevel (·.levelsOf productId)
  match levels with
  | [level] => return level
  | [] => do
    flush .createLevel .database (Db.onStock (·.createLevel levelId productId))
    return .fresh levelId productId
  | _ => raise .multipleResults

def applyMovement (request : MovementRequest) (stamp : MovementStamp) :
    AppTx (Option StockMovement × Option LowStockSignal × Option Uuid) := do
  let found ← select .getProduct (·.getProduct request.productId)
  let product ← getOrRaise found (.notFound "Product not found")
  raiseIf (product.isActive = false) (.unprocessable "Product is inactive")
  let level ← getOrCreateLevel request.productId stamp.levelId
  match planMovement product level request with
  | .error e => raise e
  | .ok plan => do
    let last ← select .lastSequence (·.lastSequence request.productId)
    flush .appendMovement .database
      (Db.onStock (·.writeMovement level request plan stamp (last + 1)))
    let movement ← select .saveLevel (fun db => db.stockMovements.find? (·.id == stamp.movementId))
    return (movement, plan.signal, plan.recovered)

/-- An outflow moves the negated quantity, rounded by the context. -/
def InventoryMovementCreate.request (data : InventoryMovementCreate) (productId : Uuid)
    (actorId : Option Uuid) : MovementRequest where
  productId
  movementType := data.movementType
  quantity := data.quantity
  signedDelta := if data.movementType.inbound then data.quantity else neg data.quantity
  unitCost := data.unitCost
  reason := data.reason
  note := data.note
  referenceType := data.referenceType
  referenceId := data.referenceId
  actorId

def StockAdjustmentCreate.request (data : StockAdjustmentCreate) (productId : Uuid)
    (actorId : Option Uuid) : MovementRequest where
  productId
  movementType := .adjustment
  quantity := magnitude data.quantity
  signedDelta := data.quantity
  unitCost := none
  reason := some data.reason
  note := data.note
  referenceType := none
  referenceId := none
  actorId

/-- The alerts that follow the commit are sent on their own and are not part of it. -/
def recordMovement (productId : Uuid) (data : InventoryMovementCreate) (actorId : Option Uuid)
    (stamp : MovementStamp) : AppTx (Option StockMovement) := do
  raiseIf (data.movementType = .adjustment)
    (.unprocessable "Use the adjust endpoint for stock adjustments")
  let applied ← applyMovement (data.request productId actorId) stamp
  commit
  return applied.1

def adjustStock (productId : Uuid) (data : StockAdjustmentCreate) (actorId : Option Uuid)
    (stamp : MovementStamp) : AppTx (Option StockMovement) := do
  raiseIf (data.quantity = 0) (.unprocessable "Adjustment quantity must be non-zero")
  let applied ← applyMovement (data.request productId actorId) stamp
  commit
  return applied.1

def purchaseReceiptRequest (productId : Uuid) (quantity unitCost : ℚ) (referenceId : Uuid)
    (actorId : Option Uuid) : MovementRequest where
  productId
  movementType := .receipt
  quantity
  signedDelta := quantity
  unitCost := some unitCost
  reason := some .purchase
  note := none
  referenceType := some "expense"
  referenceId := some referenceId
  actorId

/-- A receipt that belongs to an expense; the caller commits. -/
def recordPurchaseReceipt (productId : Uuid) (quantity unitCost : ℚ) (referenceId : Uuid)
    (actorId : Option Uuid) (stamp : MovementStamp) : AppTx (Option StockMovement) := do
  let applied ← applyMovement
    (purchaseReceiptRequest productId quantity unitCost referenceId actorId) stamp
  return applied.1

end

end Finguard
