import Finguard.Lib.RunningBalance
import Finguard.Lib.Runs
import Finguard.Treasury

/-! The stock ledger as a running balance: what a movement writes, and the quantities
that the level and the ledger round differently. -/

namespace Finguard
open Decimal Text Transaction Transaction.Tx RunningBalance

namespace StockLedger

/-- The stored quantity on hand, in thousandths; zero before the first movement. -/
def onHand (l : StockLedger) (productId : Uuid) : ℤ :=
  ((l.levelsOf productId).head?.map (fun level => level.quantityOnHand.units)).getD 0

end StockLedger

theorem onHand_bounds (l : StockLedger) (productId : Uuid) :
    0 ≤ l.onHand productId ∧ l.onHand productId < 10 ^ 18 := by
  unfold StockLedger.onHand
  cases (l.levelsOf productId).head? with
  | none => exact ⟨le_rfl, by norm_num⟩
  | some level =>
    have hnonneg := level.onHandNonneg
    have hbounded := level.quantityOnHand.bounded
    constructor
    · exact hnonneg
    · show level.quantityOnHand.units < 10 ^ 18
      omega

/-- The signed quantity of a movement: the type gives the sign, for an adjustment the
change of the balance does. -/
def signedQuantity (before : ℤ) (movement : StockMovement) : ℤ :=
  match movement.movementType with
  | .adjustment =>
    if before ≤ movement.balanceAfter.units then movement.quantity.units
    else -movement.quantity.units
  | movementType =>
    if movementType.inbound then movement.quantity.units else -movement.quantity.units

def balanceAfter (movement : StockMovement) : ℤ := movement.balanceAfter.units

namespace MovementRequest

def outward (request : MovementRequest) : Prop :=
  match request.movementType with
  | .adjustment => request.signedDelta < 0
  | movementType => movementType.inbound = false

/-- No half of a thousandth lies between the exact new on-hand and the computed one. An
outward movement may not meet one either. -/
def RoundsAlike [Context] (request : MovementRequest) (onHand : ℤ) : Prop :=
  (request.outward → ∀ k : ℤ,
    (k : ℚ) + 1 / 2 ≤ add (ofUnits 3 onHand) request.signedDelta * 10 ^ 3 ↔
      (k : ℚ) + 1 / 2 < onHand - request.quantity * 10 ^ 3) ∧
  (¬ request.outward → ∀ k : ℤ,
    (k : ℚ) + 1 / 2 ≤ add (ofUnits 3 onHand) request.signedDelta * 10 ^ 3 ↔
      (k : ℚ) + 1 / 2 ≤ onHand + request.quantity * 10 ^ 3)

instance (request : MovementRequest) : Decidable request.outward := by
  unfold outward
  split <;> infer_instance

instance [Context] (request : MovementRequest) (onHand : ℤ) :
    Decidable (request.RoundsAlike onHand) :=
  decidable_of_iff _ (and_congr (imp_congr_right fun _ => forall_half_lt_iff)
    (imp_congr_right fun _ => forall_half_le_iff)).symm

end MovementRequest

/-! What a movement writes. -/

theorem movementRow?_eq_some {request : MovementRequest} {plan : MovementPlan}
    {stamp : MovementStamp} {sequence : ℤ} {movement : StockMovement}
    (h : StockLedger.movementRow? request plan stamp sequence = some movement) :
    movement.id = stamp.movementId ∧ movement.productId = request.productId ∧
      movement.sequence = sequence ∧ movement.movementType = request.movementType ∧
      Numeric.store? 18 3 request.quantity = some movement.quantity ∧
      Numeric.store? 18 3 plan.onHand = some movement.balanceAfter := by
  simp only [StockLedger.movementRow?, Option.bind_eq_bind, Option.bind_eq_some_iff] at h
  obtain ⟨quantity, hquantity, cost, -, balance, hbalance, h⟩ := h
  split at h
  · obtain rfl := Option.some.inj h
    exact ⟨rfl, rfl, rfl, rfl, hquantity, hbalance⟩
  · cases h

theorem levelRow?_eq_some {plan : MovementPlan} {loaded level level' : StockLevel}
    (h : StockLedger.levelRow? plan loaded level = some level') :
    level'.productId = level.productId ∧ (loaded.quantityOnHand = level.quantityOnHand →
      Numeric.store? 18 3 plan.onHand = some level'.quantityOnHand) := by
  simp only [StockLedger.levelRow?, Option.bind_eq_bind, Option.bind_eq_some_iff] at h
  obtain ⟨onHand, honHand, cost, -, h⟩ := h
  split at h
  · obtain rfl := Option.some.inj h
    refine ⟨rfl, ?_⟩
    intro hloaded
    rwa [hloaded, Numeric.assign?_self] at honHand
  · cases h

section
variable [Context] [Format]

/-- The effect of one movement on the stock tables. -/
structure Moved (l l' : StockLedger) (request : MovementRequest) (movement : StockMovement) :
    Prop where
  single : (l.levelsOf request.productId).length ≤ 1
  appended : l.stockMovements.insert? movement = some l'.stockMovements
  owner : movement.productId = request.productId
  sequence : movement.sequence = l.lastSequence request.productId + 1
  type : movement.movementType = request.movementType
  quantity : Numeric.store? 18 3 request.quantity = some movement.quantity
  nonneg : 0 ≤ add (ofUnits 3 (l.onHand request.productId)) request.signedDelta
  balance : Numeric.store? 18 3 (add (ofUnits 3 (l.onHand request.productId)) request.signedDelta) =
    some movement.balanceAfter
  level : ∃ level, l'.levelsOf request.productId = [level] ∧
    level.quantityOnHand = movement.balanceAfter
  others : ∀ productId ≠ request.productId, l'.levelsOf productId = l.levelsOf productId

theorem exists_averageCost_of_planMovement {product : Product} {level : StockLevel}
    {request : MovementRequest} {plan : MovementPlan}
    (h : planMovement product level request = .ok plan) :
    0 ≤ add level.quantityOnHand.val request.signedDelta ∧
      ∃ averageCost, newAverageCost level request = some averageCost ∧ plan =
        let onHand := add level.quantityOnHand.val request.signedDelta
        { onHand
          averageCost
          unitCost := effectiveUnitCost request averageCost
          signal := lowStockSignal product request onHand
          recovered := recoveredProduct product request level.quantityOnHand.val onHand } := by
  simp only [planMovement] at h
  split at h
  · cases h
  · split at h
    · cases h
    · split at h
      · cases h
      · rename_i hneg _ averageCost haverage
        exact ⟨not_lt.mp hneg, averageCost, haverage, (Except.ok.inj h).symm⟩

theorem planMovement_eq_ok {product : Product} {level : StockLevel} {request : MovementRequest}
    {plan : MovementPlan} (h : planMovement product level request = .ok plan) :
    plan.onHand = add level.quantityOnHand.val request.signedDelta ∧ 0 ≤ plan.onHand := by
  obtain ⟨hnonneg, averageCost, -, rfl⟩ := exists_averageCost_of_planMovement h
  exact ⟨rfl, hnonneg⟩

/-- The level that a movement starts from: the locked row or a fresh one. -/
structure Opened (l l₁ : StockLedger) (productId : Uuid) (level : StockLevel) : Prop where
  before : l.levelsOf productId = [level] ∨
    l.levelsOf productId = [] ∧ level.quantityOnHand.units = 0
  levels : l₁.levelsOf productId = [level]
  others : ∀ other ≠ productId, l₁.levelsOf other = l.levelsOf other
  movements : l₁.stockMovements = l.stockMovements

omit [Context] [Format] in
theorem createLevel_eq_some {l l₁ : StockLedger} {id productId : Uuid}
    (hnone : l.levelsOf productId = []) (h : l.createLevel id productId = some l₁) :
    Opened l l₁ productId (.fresh id productId) := by
  simp only [StockLedger.createLevel, Option.bind_eq_bind, Option.bind_eq_some_iff] at h
  obtain ⟨product, -, stockLevels, hins, hl₁⟩ := h
  obtain rfl := Option.some.inj hl₁
  refine ⟨.inr ⟨hnone, rfl⟩, ?_, ?_, rfl⟩
  · show Table.filter stockLevels _ = _
    rw [Table.filter_of_insert hins]
    have hnil : l.stockLevels.filter (·.productId == productId) = [] := hnone
    simp [StockLevel.fresh, hnil]
  · intro other hother
    show Table.filter stockLevels _ = _
    rw [Table.filter_of_insert hins]
    simp [StockLevel.fresh, Ne.symm hother, StockLedger.levelsOf]

omit [Context] [Format] in
theorem getOrCreateLevel_eq_ok {productId levelId : Uuid} {faults : Faults Site ServiceError}
    {db db' : Db} {level : StockLevel}
    (h : getOrCreateLevel productId levelId faults db = .ok level db') :
    ∃ l₁, Opened db.toStockLedger l₁ productId level ∧ db' = { db with toStockLedger := l₁ } ∧
      l₁.products = db.products ∧
      (db.levelsOf productId = [level] ∨
        db.levelsOf productId = [] ∧ level = .fresh levelId productId) := by
  simp only [getOrCreateLevel, bind_eq_ok, select_eq_ok] at h
  obtain ⟨levels, _, ⟨-, hlevels, rfl⟩, h⟩ := h
  cases levels with
  | nil =>
    simp only [bind_eq_ok, flush_eq_ok, pure_apply, Outcome.ok.injEq, Db.onStock,
      Option.map_eq_some_iff] at h
    obtain ⟨_, _, ⟨-, l₁, hcreate, rfl⟩, rfl, rfl⟩ := h
    have hproducts : l₁.products = db.products := by
      simp only [StockLedger.createLevel, Option.bind_eq_bind, Option.bind_eq_some_iff] at hcreate
      obtain ⟨_, -, _, -, hl₁⟩ := hcreate
      obtain rfl := Option.some.inj hl₁
      rfl
    exact ⟨l₁, createLevel_eq_some hlevels hcreate, rfl, hproducts, .inr ⟨hlevels, rfl⟩⟩
  | cons found rest =>
    cases rest with
    | nil =>
      simp only [pure_apply, Outcome.ok.injEq] at h
      obtain ⟨rfl, rfl⟩ := h
      exact ⟨_, ⟨.inl hlevels, hlevels, fun _ _ => rfl, rfl⟩, rfl, rfl, .inl hlevels⟩
    | cons second rest => cases h

omit [Context] [Format] in
theorem Opened.onHand {l l₁ : StockLedger} {productId : Uuid} {level : StockLevel}
    (h : Opened l l₁ productId level) : l.onHand productId = level.quantityOnHand.units := by
  unfold StockLedger.onHand
  rcases h.before with hbefore | ⟨hbefore, hzero⟩
  · rw [hbefore]
    rfl
  · rw [hbefore, hzero]
    rfl

omit [Context] [Format] in
/-- The write changes the opened level and no other row of the table. -/
theorem writeMovement_eq_some {l l₁ l' : StockLedger} {level loaded : StockLevel}
    {request : MovementRequest} {plan : MovementPlan} {stamp : MovementStamp} {sequence : ℤ}
    (hopened : Opened l l₁ request.productId level) (hid : loaded.id = level.id)
    (h : l₁.writeMovement loaded request plan stamp sequence = some l') :
    ∃ movement, StockLedger.movementRow? request plan stamp sequence = some movement ∧
      l.stockMovements.insert? movement = some l'.stockMovements ∧
      (∃ level', l'.levelsOf request.productId = [level'] ∧
        StockLedger.levelRow? plan loaded level = some level') ∧
      ∀ other ≠ request.productId, l'.levelsOf other = l.levelsOf other := by
  simp only [StockLedger.writeMovement, Option.bind_eq_bind, Option.bind_eq_some_iff] at h
  obtain ⟨movement, hmovement, stockMovements, hins, stockLevels, hupdate, hl'⟩ := h
  obtain rfl := Option.some.inj hl'
  rw [hopened.movements] at hins
  have hmem : level ∈ l₁.levelsOf request.productId := by
    rw [hopened.levels]
    exact List.mem_singleton_self level
  obtain ⟨hrow, hproduct⟩ := List.mem_filter.mp hmem
  rw [beq_iff_eq] at hproduct
  have hkey : ∀ (productId : Uuid) (a a' : StockLevel),
      StockLedger.levelRow? plan loaded a = some a' →
        (a'.productId == productId) = (a.productId == productId) := by
    intro productId a a' ha
    rw [(levelRow?_eq_some ha).1]
  refine ⟨movement, hmovement, hins, ?_, ?_⟩
  · obtain ⟨level', hlevel'⟩ := Table.isSome_of_update? hupdate hrow (by simp [hid])
    refine ⟨level', ?_, hlevel'⟩
    show Table.filter stockLevels _ = _
    rw [Table.filter_of_update? hupdate (hkey request.productId)]
    show (l₁.levelsOf request.productId).map _ = _
    rw [hopened.levels]
    simp [Table.updated, hlevel', hid]
  · intro other hother
    show Table.filter stockLevels _ = _
    rw [Table.filter_of_update? hupdate (hkey other)]
    show (l₁.levelsOf other).map _ = _
    have hkept : ∀ a ∈ l₁.levelsOf other, Table.updated (·.id == loaded.id)
        (fun a => (StockLedger.levelRow? plan loaded a).getD a) a = a := by
      intro a ha
      obtain ⟨harow, haproduct⟩ := List.mem_filter.mp ha
      rw [beq_iff_eq] at haproduct
      -- the rows have distinct identifiers
      have hne : a.id ≠ loaded.id := by
        intro heq
        have hclash : Row.clash a level = true := by
          show (a.id == level.id || _) = true
          simp [heq, hid]
        have hsame := Table.eq_of_clash harow hrow hclash
        exact hother (by rw [← haproduct, hsame, hproduct])
      simp [Table.updated, hne]
    rw [List.map_congr_left hkept, List.map_id', hopened.others other hother]

omit [Format] in
/-- A movement that is planned on the opened level and written with the next sequence. -/
theorem Opened.moved {l l₁ l' : StockLedger} {level loaded : StockLevel}
    {request : MovementRequest} {plan : MovementPlan} {stamp : MovementStamp}
    (hopened : Opened l l₁ request.productId level) (hid : loaded.id = level.id)
    (honHand : loaded.quantityOnHand = level.quantityOnHand)
    (hplan : plan.onHand = add loaded.quantityOnHand.val request.signedDelta ∧ 0 ≤ plan.onHand)
    (h : l₁.writeMovement loaded request plan stamp (l.lastSequence request.productId + 1) =
      some l') :
    ∃ movement, Moved l l' request movement := by
  obtain ⟨movement, hmovement, hins, ⟨level', hlevels', hlevel'⟩, hothers⟩ :=
    writeMovement_eq_some hopened hid h
  have hstored' := (levelRow?_eq_some hlevel').2 honHand
  obtain ⟨-, howner, hsequence, htype, hquantity, hbalance⟩ := movementRow?_eq_some hmovement
  have hplanned : plan.onHand =
      add (ofUnits 3 (l.onHand request.productId)) request.signedDelta := by
    rw [hplan.1, honHand, hopened.onHand]
    rfl
  refine ⟨movement, ?_, hins, howner, hsequence, htype, hquantity, ?_, ?_,
    ⟨level', hlevels', ?_⟩, hothers⟩
  · rcases hopened.before with hbefore | ⟨hbefore, -⟩
    · rw [hbefore]
      exact le_rfl
    · rw [hbefore]
      exact Nat.zero_le 1
  · rw [← hplanned]
    exact hplan.2
  · rw [← hplanned]
    exact hbalance
  · exact Option.some.inj (hstored'.symm.trans hbalance)

/-- All that a movement on an open product does: the level it finds or creates, the plan, and the
write of it. -/
structure Executed (l l₁ l' : StockLedger) (request : MovementRequest) (stamp : MovementStamp)
    (product : Product) (level : StockLevel) (plan : MovementPlan) : Prop where
  found : l.getProduct request.productId = some product
  active : product.isActive = true
  opened : Opened l l₁ request.productId level
  fresh : l.levelsOf request.productId = [level] ∨
    l.levelsOf request.productId = [] ∧ level = .fresh stamp.levelId request.productId
  planned : planMovement product level request = .ok plan
  written : l₁.writeMovement level request plan stamp (l.lastSequence request.productId + 1) = some l'
  products : l'.products = l.products

theorem applyMovement_executed {request : MovementRequest} {stamp : MovementStamp}
    {faults : Faults Site ServiceError} {db db' : Db}
    {r : Option StockMovement × Option LowStockSignal × Option Uuid}
    (h : applyMovement request stamp faults db = .ok r db') :
    ∃ l₁ l' product level plan,
      Executed db.toStockLedger l₁ l' request stamp product level plan ∧
        db' = { db with toStockLedger := l' } ∧
        r = (l'.stockMovements.find? (·.id == stamp.movementId), plan.signal, plan.recovered) := by
  simp only [applyMovement, bind_eq_ok, select_eq_ok, getOrRaise_eq_ok, raiseIf_eq_ok] at h
  obtain ⟨_, _, ⟨-, rfl, rfl⟩, product, _, ⟨hproduct, rfl⟩, _, _, ⟨hactive, rfl⟩, level, db₁,
    hlevel, h⟩ := h
  obtain ⟨l₁, hopened, rfl, hproducts, hfresh⟩ := getOrCreateLevel_eq_ok hlevel
  cases hplan : planMovement product level request with
  | error e =>
    rw [hplan] at h
    cases h
  | ok plan =>
    simp only [hplan, bind_eq_ok, select_eq_ok, flush_eq_ok, pure_apply, Outcome.ok.injEq,
      Db.onStock, Option.map_eq_some_iff] at h
    obtain ⟨last, _, ⟨-, rfl, rfl⟩, _, _, ⟨-, l', hwrite, rfl⟩, _, _, ⟨-, rfl, rfl⟩, rfl, rfl⟩ := h
    have hlast : l₁.lastSequence request.productId = db.lastSequence request.productId := by
      unfold StockLedger.lastSequence StockLedger.movementsOf
      rw [hopened.movements]
    rw [hlast] at hwrite
    have hkept : l'.products = l₁.products := by
      simp only [StockLedger.writeMovement, Option.bind_eq_bind, Option.bind_eq_some_iff] at hwrite
      obtain ⟨_, -, _, -, _, -, hl'⟩ := hwrite
      obtain rfl := Option.some.inj hl'
      rfl
    exact ⟨l₁, l', product, level, plan, ⟨hproduct, by simpa using hactive, hopened, hfresh, hplan,
      hwrite, hkept.trans hproducts⟩, rfl, rfl⟩

theorem Executed.moved {l l₁ l' : StockLedger} {request : MovementRequest} {stamp : MovementStamp}
    {product : Product} {level : StockLevel} {plan : MovementPlan}
    (h : Executed l l₁ l' request stamp product level plan) :
    ∃ movement, Moved l l' request movement :=
  h.opened.moved rfl rfl (planMovement_eq_ok h.planned) h.written

theorem applyMovement_eq_ok {request : MovementRequest} {stamp : MovementStamp}
    {faults : Faults Site ServiceError} {db db' : Db}
    {r : Option StockMovement × Option LowStockSignal × Option Uuid}
    (h : applyMovement request stamp faults db = .ok r db') :
    ∃ l' movement, Moved db.toStockLedger l' request movement ∧
      db' = { db with toStockLedger := l' } := by
  obtain ⟨l₁, l', product, level, plan, hexecuted, rfl, -⟩ := applyMovement_executed h
  obtain ⟨movement, hmoved⟩ := hexecuted.moved
  exact ⟨l', movement, hmoved, rfl⟩

omit [Format] in
theorem MovementRequest.roundsAlike_iff {request : MovementRequest} {onHand : ℤ}
    (hafter : 0 ≤ add (ofUnits 3 onHand) request.signedDelta) (hquantity : 0 ≤ request.quantity) :
    request.RoundsAlike onHand ↔
      (request.outward → roundHalfAway (add (ofUnits 3 onHand) request.signedDelta * 10 ^ 3) =
        onHand - roundHalfAway (request.quantity * 10 ^ 3)) ∧
      (¬ request.outward → roundHalfAway (add (ofUnits 3 onHand) request.signedDelta * 10 ^ 3) =
        onHand + roundHalfAway (request.quantity * 10 ^ 3)) := by
  have hunits := mul_nonneg hquantity (pow_ten_pos 3).le
  have hafterUnits := mul_nonneg hafter (pow_ten_pos 3).le
  rw [roundHalfAway_eq_sub_iff hafterUnits hunits, roundHalfAway_eq_add_iff hafterUnits hunits]
  rfl

omit [Format] in
/-- The guard is what makes the stored balance move by exactly the stored quantity. -/
theorem Moved.roundsAlike_iff {l l' : StockLedger} {request : MovementRequest}
    {movement : StockMovement} (h : Moved l l' request movement) :
    request.RoundsAlike (l.onHand request.productId) ↔
      (request.outward → movement.balanceAfter.units =
        l.onHand request.productId - movement.quantity.units) ∧
      (¬ request.outward → movement.balanceAfter.units =
        l.onHand request.productId + movement.quantity.units) := by
  have hquantity := Numeric.units_of_store h.quantity
  have hbalance := Numeric.units_of_store h.balance
  have hpos : 0 < request.quantity * 10 ^ 3 := by
    apply pos_of_roundHalfAway_pos
    rw [← hquantity]
    exact movement.positiveQuantity
  have hnonneg : 0 ≤ request.quantity := (pos_of_mul_pos_left hpos (pow_ten_pos 3).le).le
  rw [hquantity, hbalance]
  exact MovementRequest.roundsAlike_iff h.nonneg hnonneg

omit [Format] in
theorem Moved.balance_eq {l l' : StockLedger} {request : MovementRequest}
    {movement : StockMovement} (h : Moved l l' request movement)
    (hround : request.RoundsAlike (l.onHand request.productId)) :
    balanceAfter movement =
      l.onHand request.productId + signedQuantity (l.onHand request.productId) movement := by
  obtain ⟨hout, hin⟩ := h.roundsAlike_iff.mp hround
  have hpos := movement.positiveQuantity
  unfold signedQuantity balanceAfter
  rw [h.type]
  cases htype : request.movementType with
  | adjustment =>
    by_cases hneg : request.signedDelta < 0
    · have hbalance := hout (by simpa [MovementRequest.outward, htype] using hneg)
      have hless : ¬ l.onHand request.productId ≤ movement.balanceAfter.units := by omega
      simp only [hless, if_false]
      omega
    · have hbalance := hin (by simpa [MovementRequest.outward, htype] using hneg)
      have hmore : l.onHand request.productId ≤ movement.balanceAfter.units := by omega
      simp only [hmore, if_true]
      omega
  | receipt | returnIn =>
    have hbalance := hin (by simp [MovementRequest.outward, htype, MovementType.inbound])
    simpa [MovementType.inbound] using hbalance
  | issue | sale | transfer =>
    have hbalance := hout (by simp [MovementRequest.outward, htype, MovementType.inbound])
    simpa [MovementType.inbound, sub_eq_add_neg] using hbalance

/-! The invariant of every run. -/

omit [Context] [Format] in
theorem movementsOf_insert {l l' : StockLedger} {movement : StockMovement}
    (h : l.stockMovements.insert? movement = some l'.stockMovements) (productId : Uuid) :
    l'.movementsOf productId = if movement.productId = productId then
      l.movementsOf productId ++ [movement] else l.movementsOf productId := by
  unfold StockLedger.movementsOf
  rw [Table.filter_of_insert h]
  simp only [beq_iff_eq]

/-- The ledger of one product replays to its level. -/
structure Replays (l : StockLedger) (productId : Uuid) : Prop where
  single : (l.levelsOf productId).length ≤ 1
  owned : l.levelsOf productId = [] ↔ l.movementsOf productId = []
  sequences : Counted 1 StockMovement.sequence (l.movementsOf productId)
  chained : Chained signedQuantity balanceAfter 0 (l.movementsOf productId)
  closing : l.onHand productId = closing balanceAfter 0 (l.movementsOf productId)

omit [Context] [Format] in
theorem Replays.levelsOf_eq {l : StockLedger} {productId : Uuid} {row : StockLevel}
    (hreplays : Replays l productId) (hrow : row ∈ l.levelsOf productId) :
    l.levelsOf productId = [row] := by
  have hsingle := hreplays.single
  obtain ⟨before, after, hsplit⟩ := List.append_of_mem hrow
  rw [hsplit, List.length_append, List.length_cons] at hsingle
  have hbefore : before = [] := List.eq_nil_of_length_eq_zero (by omega)
  have hafter : after = [] := List.eq_nil_of_length_eq_zero (by omega)
  rw [hsplit, hbefore, hafter]
  rfl

omit [Context] [Format] in
theorem replays_of_empty {l : StockLedger} (hlevels : l.stockLevels = ∅)
    (hmovements : l.stockMovements = ∅) (productId : Uuid) : Replays l productId := by
  have hnolevel : l.levelsOf productId = [] := by
    unfold StockLedger.levelsOf
    rw [hlevels]
    rfl
  have hnomovement : l.movementsOf productId = [] := by
    unfold StockLedger.movementsOf
    rw [hmovements]
    rfl
  refine ⟨?_, ?_, ?_, ?_, ?_⟩
  · rw [hnolevel]
    exact Nat.zero_le 1
  · simp [hnolevel, hnomovement]
  · rw [hnomovement]
    exact .nil
  · rw [hnomovement]
    trivial
  · unfold StockLedger.onHand
    rw [hnolevel, hnomovement]
    rfl

omit [Format] in
theorem Moved.replays {l l' : StockLedger} {request : MovementRequest} {movement : StockMovement}
    (hm : Moved l l' request movement)
    (hround : request.RoundsAlike (l.onHand request.productId)) (productId : Uuid)
    (h : Replays l productId) : Replays l' productId := by
  have hmovements := movementsOf_insert hm.appended productId
  rw [hm.owner] at hmovements
  by_cases hid : request.productId = productId
  · subst hid
    rw [if_pos rfl] at hmovements
    obtain ⟨level, hlevels, honHand⟩ := hm.level
    have hbalance := hm.balance_eq hround
    refine ⟨?_, ?_, ?_, ?_, ?_⟩
    · rw [hlevels]
      exact le_rfl
    · rw [hlevels, hmovements]
      simp
    · rw [hmovements]
      apply h.sequences.concat
      rw [hm.sequence, StockLedger.lastSequence, h.sequences.next_of_max, one_mul]
    · rw [hmovements]
      apply h.chained.concat
      rw [← h.closing]
      exact hbalance
    · rw [hmovements, closing_concat]
      unfold StockLedger.onHand balanceAfter
      rw [hlevels, ← honHand]
      rfl
  · rw [if_neg hid] at hmovements
    have hlevels := hm.others productId (Ne.symm hid)
    have honHand : l'.onHand productId = l.onHand productId := by
      unfold StockLedger.onHand
      rw [hlevels]
    refine ⟨?_, ?_, ?_, ?_, ?_⟩
    · rw [hlevels]
      exact h.single
    · rw [hlevels, hmovements]
      exact h.owned
    · rw [hmovements]
      exact h.sequences
    · rw [hmovements]
      exact h.chained
    · rw [hmovements, honHand]
      exact h.closing

inductive StockRequest where
  | recordMovement (productId : Uuid) (data : InventoryMovementCreate) (actorId : Option Uuid)
      (stamp : MovementStamp)
  | adjustStock (productId : Uuid) (data : StockAdjustmentCreate) (actorId : Option Uuid)
      (stamp : MovementStamp)
  | createStockPurchase (data : StockPurchaseCreate) (actorId : Option Uuid) (id : Uuid)
      (stamp : MovementStamp)

def StockRequest.run : StockRequest → AppTx Unit
  | .recordMovement productId data actorId stamp => do
    let _ ← Finguard.recordMovement productId data actorId stamp
  | .adjustStock productId data actorId stamp => do
    let _ ← Finguard.adjustStock productId data actorId stamp
  | .createStockPurchase data actorId id stamp => do
    let _ ← Finguard.createStockPurchase data actorId id stamp

/-- The movement that a request applies. -/
def StockRequest.movement : StockRequest → MovementRequest
  | .recordMovement productId data actorId _ => data.request productId actorId
  | .adjustStock productId data actorId _ => data.request productId actorId
  | .createStockPurchase data actorId id _ =>
    purchaseReceiptRequest data.productId data.quantity data.unitCost id actorId

abbrev StockAction := StockRequest × Faults Site ServiceError

def stockStep (db : Db) (action : StockAction) : Option Db :=
  some (action.1.run.committed action.2 db)

def MeetsNoHalf (db : Db) (action : StockAction) : Prop :=
  action.1.movement.RoundsAlike (db.onHand action.1.movement.productId)

instance (db : Db) (action : StockAction) : Decidable (MeetsNoHalf db action) := by
  unfold MeetsNoHalf
  infer_instance

omit [Context] [Format] in
theorem applyExpenseSideEffects_eq_ok {id : Uuid} {now : DateTime} {source : String}
    {faults : Faults Site ServiceError} {db db' : Db} {u : Unit}
    (h : applyExpenseSideEffects id now source faults db = .ok u db') :
    db'.toStockLedger = db.toStockLedger := by
  simp only [applyExpenseSideEffects, bind_eq_ok, read_apply, getOrRaise_eq_ok, flush_eq_ok,
    assign_apply, Outcome.ok.injEq] at h
  obtain ⟨_, _, ⟨-, rfl⟩, expense, _, ⟨-, rfl⟩, _, db₁, ⟨-, hburn⟩, -, rfl⟩ := h
  simp only [Db.burnBudgets, Option.bind_eq_bind, Option.bind_eq_some_iff] at hburn
  obtain ⟨budgets, -, hdb⟩ := hburn
  obtain rfl := Option.some.inj hdb
  rfl

omit [Context] [Format] in
theorem bookExpense_eq_ok {data : ExpenseCreate} {id : Uuid} {now : DateTime} {source : String}
    {faults : Faults Site ServiceError} {db db' : Db} {u : Unit}
    (h : bookExpense data id now source faults db = .ok u db') :
    db'.toStockLedger = db.toStockLedger := by
  simp only [bookExpense, bind_eq_ok, flush_eq_ok] at h
  obtain ⟨_, db₁, ⟨-, hcreate⟩, heffects⟩ := h
  simp only [Db.createExpense, Option.bind_eq_bind, Option.bind_eq_some_iff] at hcreate
  obtain ⟨amount, -, expenses, -, hdb⟩ := hcreate
  obtain rfl := Option.some.inj hdb
  rw [applyExpenseSideEffects_eq_ok heffects]

def StockRequest.stamp : StockRequest → MovementStamp
  | .recordMovement _ _ _ stamp => stamp
  | .adjustStock _ _ _ stamp => stamp
  | .createStockPurchase _ _ _ stamp => stamp

/-- Every request is one movement on the stock tables. -/
theorem StockRequest.run_executed {request : StockRequest} {faults : Faults Site ServiceError}
    {db db' : Db} {u : Unit} (h : request.run faults db = .ok u db') :
    ∃ l₁ product level plan, Executed db.toStockLedger l₁ db'.toStockLedger request.movement
      request.stamp product level plan := by
  cases request with
  | recordMovement productId data actorId stamp =>
    simp only [StockRequest.run, Finguard.recordMovement, bind_eq_ok, raiseIf_eq_ok, commit,
      site_eq_ok, pure_apply, Outcome.ok.injEq] at h
    obtain ⟨_, _, ⟨_, _, ⟨-, rfl⟩, _, _, happly, _, _, ⟨-, rfl⟩, -, rfl⟩, -, rfl⟩ := h
    obtain ⟨l₁, l', product, level, plan, hexecuted, rfl, -⟩ := applyMovement_executed happly
    exact ⟨l₁, product, level, plan, hexecuted⟩
  | adjustStock productId data actorId stamp =>
    simp only [StockRequest.run, Finguard.adjustStock, bind_eq_ok, raiseIf_eq_ok, commit,
      site_eq_ok, pure_apply, Outcome.ok.injEq] at h
    obtain ⟨_, _, ⟨_, _, ⟨-, rfl⟩, _, _, happly, _, _, ⟨-, rfl⟩, -, rfl⟩, -, rfl⟩ := h
    obtain ⟨l₁, l', product, level, plan, hexecuted, rfl, -⟩ := applyMovement_executed happly
    exact ⟨l₁, product, level, plan, hexecuted⟩
  | createStockPurchase data actorId id stamp =>
    simp only [StockRequest.run, Finguard.createStockPurchase, recordPurchaseReceipt, bind_eq_ok,
      commit, site_eq_ok, pure_apply, Outcome.ok.injEq] at h
    obtain ⟨_, _, ⟨_, db₁, hbook, _, _, ⟨_, _, happly, -, rfl⟩, _, _, ⟨-, rfl⟩, -, rfl⟩, -, rfl⟩ := h
    obtain ⟨l₁, l', product, level, plan, hexecuted, rfl, -⟩ := applyMovement_executed happly
    rw [bookExpense_eq_ok hbook] at hexecuted
    exact ⟨l₁, product, level, plan, hexecuted⟩

theorem StockRequest.run_eq_ok {request : StockRequest} {faults : Faults Site ServiceError}
    {db db' : Db} {u : Unit} (h : request.run faults db = .ok u db') :
    ∃ movement, Moved db.toStockLedger db'.toStockLedger request.movement movement := by
  obtain ⟨l₁, product, level, plan, hexecuted⟩ := StockRequest.run_executed h
  exact hexecuted.moved

/-- As long as no movement meets a half of a thousandth, the ledger of every product
replays to its level. -/
theorem guarded_stock_replays {start db : Db} (hlevels : start.stockLevels = ∅)
    (hmovements : start.stockMovements = ∅)
    (hrun : Runs.Reaches stockStep MeetsNoHalf start db) (productId : Uuid) :
    (db.movementsOf productId).map StockMovement.sequence =
      (List.range (db.movementsOf productId).length).map (fun i : ℕ => (i : ℤ) + 1) ∧
    Chained signedQuantity balanceAfter 0 (db.movementsOf productId) ∧
    (db.movementsOf productId ≠ [] → (db.levelsOf productId).length = 1) ∧
    ∀ level ∈ db.levelsOf productId,
      level.quantityOnHand.units = moved signedQuantity balanceAfter 0 (db.movementsOf productId) ∧
        0 ≤ level.quantityOnHand.units := by
  have hstart : ∀ productId, Replays start.toStockLedger productId :=
    fun productId => replays_of_empty hlevels hmovements productId
  have hreplays : ∀ productId, Replays db.toStockLedger productId := by
    refine hrun.invariant (I := fun db => ∀ productId, Replays db.toStockLedger productId) ?_ hstart
    intro db action db' h hround hstep
    obtain rfl := Option.some.inj hstep
    refine committed_keeps (P := fun db : Db => ∀ productId, Replays db.toStockLedger productId) h ?_
    intro _ db' hok productId
    obtain ⟨movement, hmoved⟩ := StockRequest.run_eq_ok hok
    exact hmoved.replays hround productId (h productId)
  have h := hreplays productId
  have hone : db.movementsOf productId ≠ [] → (db.levelsOf productId).length = 1 := by
    intro hne
    have hlength := List.length_pos_iff.mpr (mt h.owned.mp hne)
    have hsingle := h.single
    omega
  refine ⟨?_, h.chained, hone, ?_⟩
  · have hcounted : List.map _ _ = _ := h.sequences
    rw [hcounted]
    simp only [one_mul]
  · intro level hlevel
    have honly := h.levelsOf_eq hlevel
    have hclosing := h.closing
    rw [h.chained.closing_eq, zero_add] at hclosing
    refine ⟨?_, level.onHandNonneg⟩
    rw [← hclosing]
    unfold StockLedger.onHand
    rw [honly]
    rfl

end

/-! A store with one product and nothing on hand. -/

def oneProduct : Db where
  products := ⟨[⟨1, "SKU-1", "Maize flour", default, true⟩], List.pairwise_singleton _ _⟩

def receiptOf (quantity : ℚ) (quantity_pos : 0 < quantity) : InventoryMovementCreate :=
  ⟨.receipt, quantity, some 100, some .purchase, none, none, none, by decide, quantity_pos,
    fun _ => rfl⟩

def saleOf (quantity : ℚ) (quantity_pos : 0 < quantity) : InventoryMovementCreate :=
  ⟨.sale, quantity, none, none, none, none, none, by decide, quantity_pos, by simp⟩

def receiveTen : StockRequest :=
  .recordMovement 1 (receiptOf 10 (by norm_num)) none ⟨50, 60, 1⟩

def sell (quantity : ℚ) (quantity_pos : 0 < quantity) : StockRequest :=
  .recordMovement 1 (saleOf quantity quantity_pos) none ⟨51, 61, 2⟩

theorem tenReceived_replays :
    letI := Context.default
    letI := Format.plain
    ∃ db, Runs.Reaches stockStep MeetsNoHalf oneProduct db ∧
      (db.movementsOf 1).map (·.quantity.units) = [10000, 2500] ∧
      ∀ level ∈ db.levelsOf 1, level.quantityOnHand.units =
        moved signedQuantity balanceAfter 0 (db.movementsOf 1) ∧
          0 ≤ level.quantityOnHand.units := by
  let := Context.default
  let := Format.plain
  have hreplay : (Runs.replay stockStep MeetsNoHalf oneProduct
      [(receiveTen, noFaults), (sell (5 / 2) (by norm_num), noFaults)]).map
      (fun db => (db.movementsOf 1).map (·.quantity.units)) = some [10000, 2500] := by
    decide +kernel
  obtain ⟨db, hrun, hmovements⟩ := Runs.replay_map_reaches hreplay
  exact ⟨db, hrun, hmovements, (guarded_stock_replays rfl rfl hrun 1).2.2.2⟩

/-- A sale of 0.0005 leaves 9.9995, which is stored as ten, under a quantity of 0.001. -/
theorem halfThousandth_drifts :
    letI := Context.default
    letI := Format.plain
    ∃ db, Runs.Reaches stockStep Runs.always oneProduct db ∧
      (db.movementsOf 1).map (fun movement => (movement.quantity.units, balanceAfter movement)) =
        [(10000, 10000), (1, 10000)] ∧
      (db.levelsOf 1).map (·.quantityOnHand.units) = [10000] ∧
      moved signedQuantity balanceAfter 0 (db.movementsOf 1) = 9999 := by
  let := Context.default
  let := Format.plain
  have hrun : Runs.Reaches stockStep Runs.always oneProduct
      ((sell (1 / 2000) (by norm_num)).run.committed noFaults
        (receiveTen.run.committed noFaults oneProduct)) :=
    .head ⟨(receiveTen, noFaults), trivial, rfl⟩ <|
    .single ⟨(sell (1 / 2000) (by norm_num), noFaults), trivial, rfl⟩
  exact ⟨_, hrun, by decide +kernel, by decide +kernel, by decide +kernel⟩

end Finguard
