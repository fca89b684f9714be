import Finguard.StockReplay

/-! What stock costs: the weighted average along a history of movements, and the cost of the goods
that an invoice has sold. -/

namespace Finguard
open Decimal Runs Text Transaction Transaction.Tx

namespace StockLedger

/-- The stored average cost, in cents; zero before the first movement. -/
def averageCost (l : StockLedger) (productId : Uuid) : ℤ :=
  ((l.levelsOf productId).head?.map (fun level => level.averageCost.units)).getD 0

end StockLedger

section
variable [Context]

/-- What a movement does to the costs: the average that it computes from the level, and the two
columns that keep a cost. -/
structure Priced (l l' : StockLedger) (request : MovementRequest) (level : StockLevel)
    (average : ℚ) (movement : StockMovement) : Prop where
  moved : Moved l l' request movement
  onHand : level.quantityOnHand.units = l.onHand request.productId
  before : level.averageCost.units = l.averageCost request.productId
  computed : newAverageCost level request = some average
  stored : ∃ cost, Numeric.store? 18 2 average = some cost ∧
    l'.averageCost request.productId = cost.units
  unitCost : (effectiveUnitCost request average).mapM (Numeric.store? 18 2) = some movement.unitCost
  referenceType : movement.referenceType = request.referenceType
  referenceId : movement.referenceId = request.referenceId

variable [Format]

theorem planMovement_costs {product : Product} {level : StockLevel} {request : MovementRequest}
    {plan : MovementPlan} (h : planMovement product level request = .ok plan) :
    newAverageCost level request = some plan.averageCost ∧
      plan.unitCost = effectiveUnitCost request plan.averageCost := by
  obtain ⟨-, averageCost, haverage, rfl⟩ := exists_averageCost_of_planMovement h
  exact ⟨haverage, rfl⟩

omit [Context] [Format] in
theorem averageCost_of_levelRow? {plan : MovementPlan} {level level' : StockLevel}
    (h : StockLedger.levelRow? plan level level = some level') :
    Numeric.store? 18 2 plan.averageCost = some level'.averageCost := by
  simp only [StockLedger.levelRow?, Option.bind_eq_bind, Option.bind_eq_some_iff,
    Numeric.assign?_self] at h
  obtain ⟨onHand, -, cost, hcost, h⟩ := h
  split at h
  · obtain rfl := Option.some.inj h
    exact hcost
  · cases h

omit [Context] [Format] in
theorem costs_of_movementRow? {request : MovementRequest} {plan : MovementPlan}
    {stamp : MovementStamp} {sequence : ℤ} {movement : StockMovement}
    (h : StockLedger.movementRow? request plan stamp sequence = some movement) :
    plan.unitCost.mapM (Numeric.store? 18 2) = some movement.unitCost ∧
      movement.referenceType = request.referenceType ∧
      movement.referenceId = request.referenceId := by
  simp only [StockLedger.movementRow?, Option.bind_eq_bind, Option.bind_eq_some_iff] at h
  obtain ⟨quantity, -, cost, hcost, balance, -, h⟩ := h
  split at h
  · obtain rfl := Option.some.inj h
    exact ⟨hcost, rfl, rfl⟩
  · cases h

theorem Executed.priced {l l₁ l' : StockLedger} {request : MovementRequest} {stamp : MovementStamp}
    {product : Product} {level : StockLevel} {plan : MovementPlan}
    (h : Executed l l₁ l' request stamp product level plan) :
    ∃ movement, Priced l l' request level plan.averageCost movement := by
  obtain ⟨haverage, hcost⟩ := planMovement_costs h.planned
  obtain ⟨movement, hmovement, hinsert, ⟨level', hlevels', hlevel'⟩, -⟩ :=
    writeMovement_eq_some h.opened rfl h.written
  obtain ⟨movement', hmoved⟩ := h.moved
  -- the ledger gains one row
  have hsame : movement' = movement := by
    have hrows := Table.rows_of_insert hmoved.appended
    rw [Table.rows_of_insert hinsert] at hrows
    simpa using hrows.symm
  subst hsame
  obtain ⟨hunit, htype, hid⟩ := costs_of_movementRow? hmovement
  refine ⟨movement', hmoved, h.opened.onHand.symm, ?_, haverage, ?_, hcost ▸ hunit, htype, hid⟩
  · unfold StockLedger.averageCost
    rcases h.fresh with hfound | ⟨hnone, hfresh⟩
    · rw [hfound]
      rfl
    · rw [hnone, hfresh]
      rfl
  · refine ⟨level'.averageCost, averageCost_of_levelRow? hlevel', ?_⟩
    rw [StockLedger.averageCost, hlevels']
    rfl

/-! The average. -/

omit [Context] [Format] in
theorem averageCost_of_levelsOf {l l' : StockLedger} {productId : Uuid}
    (h : l'.levelsOf productId = l.levelsOf productId) :
    l'.averageCost productId = l.averageCost productId := by
  rw [StockLedger.averageCost, StockLedger.averageCost, h]

omit [Format] in
/-- Without a cost on an inbound movement the average stays. -/
theorem Priced.averageCost_eq {l l' : StockLedger} {request : MovementRequest} {level : StockLevel}
    {average : ℚ} {movement : StockMovement} (h : Priced l l' request level average movement)
    (hcost : ¬ (request.movementType.inbound = true ∧ request.unitCost.isSome)) :
    average = level.averageCost.val ∧
      l'.averageCost request.productId = l.averageCost request.productId := by
  have heq : newAverageCost level request = some level.averageCost.val := by
    unfold newAverageCost
    cases hunit : request.unitCost with
    | none => rfl
    | some cost =>
      have hout : ¬ request.movementType.inbound = true := fun hin => hcost ⟨hin, by simp [hunit]⟩
      simp only [if_neg hout]
  have haverage : average = level.averageCost.val := by
    have hboth := h.computed.symm.trans heq
    exact Option.some.inj hboth
  obtain ⟨cost, hstore, hafter⟩ := h.stored
  rw [haverage, Numeric.store?_val, Option.some.injEq] at hstore
  exact ⟨haverage, by rw [hafter, ← hstore, h.before]⟩

/-- After a receipt of `quantity` at `cost`: the average lies between the two costs, it is the new
one where nothing was on hand, and the value on hand is off by at most half a cent a unit. -/
structure AveragedIn (l l' : StockLedger) (productId : Uuid) (quantity cost : ℚ) : Prop where
  lower : roundHalfEven (min (ofUnits 2 (l.averageCost productId)) cost * 10 ^ 2) ≤
    l'.averageCost productId
  upper : l'.averageCost productId ≤
    roundHalfEven (max (ofUnits 2 (l.averageCost productId)) cost * 10 ^ 2)
  first : l.onHand productId = 0 → l'.averageCost productId = roundHalfEven (cost * 10 ^ 2)
  value : |ofUnits 3 (l'.onHand productId) * ofUnits 2 (l'.averageCost productId) -
      (ofUnits 3 (l.onHand productId) * ofUnits 2 (l.averageCost productId) + quantity * cost)| ≤
    ofUnits 3 (l'.onHand productId) * (1 / 200)

omit [Context] [Format] in
/-- A mean with weights that are not both zero. -/
theorem weighted_between {x y a b : ℚ} (hx : 0 ≤ x) (hy : 0 ≤ y) (hxy : 0 < x + y) :
    min a b ≤ (x * a + y * b) / (x + y) ∧ (x * a + y * b) / (x + y) ≤ max a b := by
  constructor
  · rw [le_div_iff₀ hxy]
    have ha := mul_le_mul_of_nonneg_left (min_le_left a b) hx
    have hb := mul_le_mul_of_nonneg_left (min_le_right a b) hy
    linarith
  · rw [div_le_iff₀ hxy]
    have ha := mul_le_mul_of_nonneg_left (le_max_left a b) hx
    have hb := mul_le_mul_of_nonneg_left (le_max_right a b) hy
    linarith

omit [Context] [Format] in
theorem abs_ofUnits_round_sub_le (scale : ℕ) (x : ℚ) :
    |ofUnits scale (roundHalfEven (x * 10 ^ scale)) - x| ≤ 1 / 2 / 10 ^ scale := by
  have hpos := pow_ten_pos scale
  have heq : ofUnits scale (roundHalfEven (x * 10 ^ scale)) - x =
      (roundHalfEven (x * 10 ^ scale) - x * 10 ^ scale) / 10 ^ scale := by
    rw [ofUnits, sub_div, mul_div_cancel_right₀ _ hpos.ne']
  rw [heq, abs_div, abs_of_pos hpos]
  exact div_le_div_of_nonneg_right (abs_roundHalfEven_sub_le _) hpos.le

omit [Format] in
theorem weightedAvg_exact (hexact : ∀ q : ℚ, Context.round q = q) {qtyBefore avgBefore qtyIn costIn : ℚ}
    (hpos : 0 < qtyBefore + qtyIn) : weightedAvg qtyBefore avgBefore qtyIn costIn =
      quantize? 2 ((qtyBefore * avgBefore + qtyIn * costIn) / (qtyBefore + qtyIn)) := by
  simp only [weightedAvg, add, mul, div, hexact]
  rw [if_neg (not_le.mpr hpos)]

omit [Format] in
theorem Priced.averagedIn (hexact : ∀ q : ℚ, Context.round q = q) {l l' : StockLedger}
    {request : MovementRequest} {level : StockLevel} {average cost : ℚ} {movement : StockMovement}
    (h : Priced l l' request level average movement) (hin : request.movementType.inbound = true)
    (hcost : request.unitCost = some cost) (hdelta : request.signedDelta = request.quantity)
    {units : ℤ} (hquantity : request.quantity = ofUnits 3 units) :
    AveragedIn l l' request.productId request.quantity cost := by
  have honHand : l'.onHand request.productId = l.onHand request.productId + units := by
    obtain ⟨level', hlevels', hafter⟩ := h.moved.level
    have hbalance := h.moved.balance
    rw [hdelta, hquantity, add, hexact, ofUnits_add] at hbalance
    rw [StockLedger.onHand, hlevels', ← Numeric.units_of_store_ofUnits hbalance, ← hafter]
    rfl
  have hunits : 0 < units := by
    have hpos := movement.positiveQuantity
    have hstored := h.moved.quantity
    rw [hquantity] at hstored
    rwa [Numeric.units_of_store_ofUnits hstored] at hpos
  have hbefore : 0 ≤ l.onHand request.productId := by
    rw [← h.onHand]
    exact level.onHandNonneg
  have hlevelVal : level.quantityOnHand.val = ofUnits 3 (l.onHand request.productId) := by
    rw [Numeric.val, h.onHand]
  have hcostVal : level.averageCost.val = ofUnits 2 (l.averageCost request.productId) := by
    rw [Numeric.val, h.before]
  set onHand := ofUnits 3 (l.onHand request.productId) with honHandDef
  set old := ofUnits 2 (l.averageCost request.productId) with holdDef
  set q := request.quantity with hq
  have hx : 0 ≤ onHand := ofUnits_nonneg.mpr hbefore
  have hy : 0 < q := by
    rw [hquantity]
    exact ofUnits_pos.mpr hunits
  have hxy : 0 < onHand + q := by linarith
  have htotal : ofUnits 3 (l'.onHand request.productId) = onHand + q := by
    rw [honHand, hquantity, honHandDef, ofUnits_add]
  -- the stored average is the exact mean, rounded to cents
  have hmean : l'.averageCost request.productId =
      roundHalfEven ((onHand * old + q * cost) / (onHand + q) * 10 ^ 2) := by
    have haverage := h.computed
    rw [newAverageCost, hcost] at haverage
    simp only [if_pos hin, hlevelVal, hcostVal] at haverage
    rw [weightedAvg_exact hexact hxy] at haverage
    obtain ⟨stored, hstored, hafter⟩ := h.stored
    rw [units_of_quantize? haverage] at hstored
    rw [hafter, Numeric.units_of_store_ofUnits hstored]
  obtain ⟨hlow, hhigh⟩ := @weighted_between onHand q old cost hx hy.le hxy
  refine ⟨?_, ?_, ?_, ?_⟩
  · rw [hmean]
    exact roundHalfEven_mono (mul_le_mul_of_nonneg_right hlow (by norm_num))
  · rw [hmean]
    exact roundHalfEven_mono (mul_le_mul_of_nonneg_right hhigh (by norm_num))
  · intro hzero
    have hnone : onHand = 0 := by rw [honHandDef, hzero, ofUnits_zero]
    rw [hmean, hnone]
    congr 2
    field_simp
    ring
  · have hround := abs_ofUnits_round_sub_le 2 ((onHand * old + q * cost) / (onHand + q))
    rw [htotal, hmean]
    have hscaled : (onHand + q) * ofUnits 2 (roundHalfEven ((onHand * old + q * cost) /
          (onHand + q) * 10 ^ 2)) - (onHand * old + q * cost) =
        (onHand + q) * (ofUnits 2 (roundHalfEven ((onHand * old + q * cost) /
          (onHand + q) * 10 ^ 2)) - (onHand * old + q * cost) / (onHand + q)) := by
      field_simp
    rw [hscaled, abs_mul, abs_of_pos hxy]
    refine mul_le_mul_of_nonneg_left (hround.trans ?_) hxy.le
    norm_num

omit [Format] in
theorem StockRequest.signedDelta_of_inbound {request : StockRequest}
    (hin : request.movement.movementType.inbound = true) :
    request.movement.signedDelta = request.movement.quantity := by
  cases request with
  | recordMovement productId data actorId stamp => exact if_pos hin
  | adjustStock productId data actorId stamp => cases hin
  | createStockPurchase data actorId id stamp => rfl

/-- A request moves an average only with a cost on an inbound movement, and then as a mean. -/
structure CostStep (db : Db) (action : StockAction) : Prop where
  changes : ∀ productId,
    (action.1.run.committed action.2 db).averageCost productId ≠ db.averageCost productId →
      productId = action.1.movement.productId ∧ action.1.movement.movementType.inbound = true ∧
        action.1.movement.unitCost.isSome
  averaged : (action.1.run action.2 db).value?.isSome →
    action.1.movement.movementType.inbound = true → ∀ cost ∈ action.1.movement.unitCost,
      AveragedIn db.toStockLedger (action.1.run.committed action.2 db).toStockLedger
        action.1.movement.productId action.1.movement.quantity cost

/-- The store after one request. -/
def stockNext (action : StockAction) (db : Db) : Db := action.1.run.committed action.2 db

theorem StockRequest.costStep (hexact : ∀ q : ℚ, Context.round q = q) {db : Db}
    {action : StockAction} {units : ℤ} (hquantity : action.1.movement.quantity = ofUnits 3 units) :
    CostStep db action := by
  obtain ⟨request, faults⟩ := action
  constructor
  · intro productId hne
    rcases committed_cases request.run faults db with hstay | ⟨u, hok⟩
    · exact absurd (by rw [hstay]) hne
    · obtain ⟨l₁, product, level, plan, hexecuted⟩ := StockRequest.run_executed hok
      obtain ⟨movement, hpriced⟩ := hexecuted.priced
      have hproduct : productId = request.movement.productId := by
        by_contra hother
        exact hne (averageCost_of_levelsOf (hpriced.moved.others productId hother))
      subst hproduct
      refine ⟨rfl, ?_⟩
      by_contra hcost
      exact hne (hpriced.averageCost_eq hcost).2
  · intro hsome hin cost hcost
    obtain ⟨u, hvalue⟩ := Option.isSome_iff_exists.mp hsome
    obtain ⟨l₁, product, level, plan, hexecuted⟩ :=
      StockRequest.run_executed (eq_ok_committed hvalue)
    obtain ⟨movement, hpriced⟩ := hexecuted.priced
    exact hpriced.averagedIn hexact hin hcost (StockRequest.signedDelta_of_inbound hin) hquantity

/-- With exact arithmetic, every history of requests in thousandths keeps to these steps. -/
theorem average_cost_history (hexact : ∀ q : ℚ, Context.round q = q) (start : Db)
    (actions : List StockAction)
    (hquantities : ∀ action ∈ actions, ∃ units : ℤ, action.1.movement.quantity = ofUnits 3 units) :
    Runs.Each stockNext CostStep actions start := by
  refine Runs.each_of_forall ?_
  intro db action haction
  obtain ⟨units, hquantity⟩ := hquantities action haction
  exact StockRequest.costStep hexact hquantity

end

/-- Ten units at 100, two of them sold, and four more at 101.01. -/
def restocked : List StockAction :=
  [(receiveTen, noFaults), (sell 2 (by norm_num), noFaults),
    (.recordMovement 1 ⟨.receipt, 4, some (10101 / 100), none, none, none, none,
      MovementType.receipt_ne_adjustment, four_is_pos, fun _ => rfl⟩ none ⟨52, 62, 3⟩, noFaults)]

theorem restocked_costs :
    letI := Context.exact
    letI := Format.plain
    Runs.Each stockNext CostStep restocked oneProduct ∧
      (Runs.after stockNext restocked oneProduct).averageCost 1 = 10034 := by
  let := Context.exact
  let := Format.plain
  refine ⟨average_cost_history (fun _ => rfl) oneProduct restocked ?_, by decide +kernel⟩
  intro action haction
  simp only [restocked, List.mem_cons, List.not_mem_nil, or_false] at haction
  rcases haction with rfl | rfl | rfl
  · exact ⟨10000, by decide +kernel⟩
  · exact ⟨2000, by decide +kernel⟩
  · exact ⟨4000, by decide +kernel⟩

/-! Cost of goods sold. -/

namespace StockMovement

def soldFor (referenceType : String) (referenceId : Uuid) (movement : StockMovement) : Bool :=
  movement.movementType == .sale && movement.referenceType == some referenceType &&
    movement.referenceId == some referenceId

/-- Quantity times unit cost, in units of the fifth decimal. -/
def cost (movement : StockMovement) : ℤ :=
  movement.quantity.units * (movement.unitCost.map Numeric.units).getD 0

end StockMovement

def StockLedger.soldCost (l : StockLedger) (referenceType : String) (referenceId : Uuid) : ℤ :=
  ((l.stockMovements.filter (·.soldFor referenceType referenceId)).map StockMovement.cost).sum

def MovementRequest.sells (request : MovementRequest) (invoiceId : Uuid) : Prop :=
  request.movementType = .sale ∧ request.referenceType = some "invoice" ∧
    request.referenceId = some invoiceId

instance (request : MovementRequest) (invoiceId : Uuid) : Decidable (request.sells invoiceId) := by
  unfold MovementRequest.sells
  infer_instance

section
variable [Context]

def cogsForReference (referenceType : String) (referenceId : Uuid) : AppTx ℚ := do
  let total ← select .cogsForReference
    (fun db => ofUnits 5 (db.soldCost referenceType referenceId))
  getOrRaise (quantize? 2 total) .invalidOperation

def cogsForInvoice (invoiceId : Uuid) : AppTx ℚ := cogsForReference "invoice" invoiceId

variable [Format]

/-- A request that the store takes and that sells for the invoice. -/
def Sells (invoiceId : Uuid) (db : Db) (action : StockAction) : Prop :=
  (action.1.run action.2 db).value?.isSome ∧ action.1.movement.sells invoiceId

instance (invoiceId : Uuid) (db : Db) (action : StockAction) :
    Decidable (Sells invoiceId db action) := by
  unfold Sells
  infer_instance

/-- The goods that a history sells for the invoice, each at the average cost before its sale. -/
def soldAtAverage (invoiceId : Uuid) : List StockAction → Db → ℤ
  | [], _ => 0
  | action :: actions, db =>
    (if Sells invoiceId db action then
      roundHalfAway (action.1.movement.quantity * 10 ^ 3) *
        db.averageCost action.1.movement.productId
    else 0) + soldAtAverage invoiceId actions (stockNext action db)

/-- A sale for the invoice names no unit cost, or the average cost itself. -/
def NamesAverage (invoiceId : Uuid) (db : Db) (action : StockAction) : Prop :=
  Sells invoiceId db action → ∀ cost ∈ action.1.movement.unitCost,
    roundHalfAway (cost * 10 ^ 2) = db.averageCost action.1.movement.productId

instance (invoiceId : Uuid) (db : Db) (action : StockAction) :
    Decidable (NamesAverage invoiceId db action) := by
  unfold NamesAverage
  infer_instance

omit [Context] [Format] in
theorem soldCost_of_insert {l l' : StockLedger} {movement : StockMovement} {referenceType : String}
    {referenceId : Uuid} (h : l.stockMovements.insert? movement = some l'.stockMovements) :
    l'.soldCost referenceType referenceId = l.soldCost referenceType referenceId +
      if movement.soldFor referenceType referenceId then movement.cost else 0 := by
  unfold StockLedger.soldCost
  rw [Table.filter_of_insert h]
  split
  · simp
  · simp

omit [Format] in
theorem Priced.soldFor_iff {l l' : StockLedger} {request : MovementRequest} {level : StockLevel}
    {average : ℚ} {movement : StockMovement} (h : Priced l l' request level average movement)
    (invoiceId : Uuid) : movement.soldFor "invoice" invoiceId = true ↔ request.sells invoiceId := by
  simp only [StockMovement.soldFor, MovementRequest.sells, Bool.and_eq_true, beq_iff_eq,
    h.moved.type, h.referenceType, h.referenceId, and_assoc]

omit [Format] in
theorem Priced.cost_of_sale {l l' : StockLedger} {request : MovementRequest} {level : StockLevel}
    {average : ℚ} {movement : StockMovement} (h : Priced l l' request level average movement)
    (hsale : request.movementType = .sale) (hnamed : ∀ cost ∈ request.unitCost,
      roundHalfAway (cost * 10 ^ 2) = l.averageCost request.productId) :
    movement.cost =
      roundHalfAway (request.quantity * 10 ^ 3) * l.averageCost request.productId := by
  have hquantity := Numeric.units_of_store h.moved.quantity
  have hstamp := h.unitCost
  rw [StockMovement.cost, hquantity]
  congr 1
  cases hcost : request.unitCost with
  | none =>
    obtain ⟨haverage, -⟩ := h.averageCost_eq (by simp [hcost])
    have hplanned : effectiveUnitCost request average = some average :=
      if_pos ⟨hcost, .inl hsale⟩
    rw [hplanned, haverage, Option.mapM_some, Numeric.store?_val] at hstamp
    rw [← Option.some.inj hstamp]
    exact h.before
  | some cost =>
    have hplanned : effectiveUnitCost request average = some cost := by
      rw [effectiveUnitCost, hcost]
      exact if_neg (by simp)
    rw [hplanned, Option.mapM_some] at hstamp
    obtain ⟨stamped, hstored, hunit⟩ := Option.map_eq_some_iff.mp hstamp
    rw [← hunit, ← hnamed cost hcost]
    exact Numeric.units_of_store hstored

theorem soldCost_next {invoiceId : Uuid} {db : Db} {action : StockAction}
    (hnamed : NamesAverage invoiceId db action) :
    (stockNext action db).soldCost "invoice" invoiceId = db.soldCost "invoice" invoiceId +
      if Sells invoiceId db action then roundHalfAway (action.1.movement.quantity * 10 ^ 3) *
        db.averageCost action.1.movement.productId
      else 0 := by
  obtain ⟨request, faults⟩ := action
  cases hvalue : (request.run faults db).value? with
  | none =>
    have hnot : ¬ Sells invoiceId db (request, faults) := by
      intro hsells
      have hsome := hsells.1
      rw [hvalue] at hsome
      cases hsome
    rw [if_neg hnot, add_zero, stockNext, committed_eq_self hvalue]
  | some u =>
    obtain ⟨l₁, product, level, plan, hexecuted⟩ :=
      StockRequest.run_executed (eq_ok_committed hvalue)
    obtain ⟨movement, hpriced⟩ := hexecuted.priced
    have hsome : (request.run faults db).value?.isSome := by
      rw [hvalue]
      rfl
    have hsold : movement.soldFor "invoice" invoiceId = true ↔
        Sells invoiceId db (request, faults) :=
      (hpriced.soldFor_iff invoiceId).trans ⟨fun h => ⟨hsome, h⟩, And.right⟩
    rw [stockNext, soldCost_of_insert hpriced.moved.appended]
    by_cases hsells : Sells invoiceId db (request, faults)
    · rw [if_pos (hsold.mpr hsells), if_pos hsells,
        hpriced.cost_of_sale hsells.2.1 (hnamed hsells)]
    · rw [if_neg (mt hsold.mp hsells), if_neg hsells]

theorem soldCost_after {invoiceId : Uuid} {db : Db} {actions : List StockAction}
    (hnamed : Runs.Each stockNext (NamesAverage invoiceId) actions db) :
    (Runs.after stockNext actions db).soldCost "invoice" invoiceId =
      db.soldCost "invoice" invoiceId + soldAtAverage invoiceId actions db := by
  induction actions generalizing db with
  | nil => exact (add_zero _).symm
  | cons action actions ih =>
    have hnext := soldCost_next hnamed.1
    have hrest := ih hnamed.2
    rw [hnext, add_assoc] at hrest
    exact hrest

theorem soldCost_of_not_sells {invoiceId : Uuid} {db : Db} {later : List StockAction}
    (hlater : ∀ action ∈ later, ¬ action.1.movement.sells invoiceId) :
    (Runs.after stockNext later db).soldCost "invoice" invoiceId =
      db.soldCost "invoice" invoiceId := by
  induction later generalizing db with
  | nil => rfl
  | cons action later ih =>
    have hnot : ¬ Sells invoiceId db action := fun h => hlater action List.mem_cons_self h.2
    have hnext := soldCost_next (fun h => absurd h hnot)
    rw [if_neg hnot, add_zero] at hnext
    rw [← hnext]
    exact ih (fun action haction => hlater action (List.mem_cons_of_mem _ haction))

omit [Context] [Format] in
theorem cogsForInvoice_value? (invoiceId : Uuid) (db : Db) :
    (cogsForInvoice invoiceId noFaults db).value? =
      quantize? 2 (ofUnits 5 (db.soldCost "invoice" invoiceId)) := by
  show ((getOrRaise (quantize? 2 _) _ : AppTx ℚ) noFaults db).value? = _
  cases quantize? 2 (ofUnits 5 (db.soldCost "invoice" invoiceId)) with
  | none => rfl
  | some total => rfl

/-- While every sale for the invoice is at the average cost, its cost of goods sold is the sum over
those sales, and what sells nothing for it leaves the figure alone. -/
theorem invoice_cogs_point_in_time {start : Db} {invoiceId : Uuid} {actions : List StockAction}
    (hstart : start.stockMovements.filter (·.soldFor "invoice" invoiceId) = [])
    (hnamed : Runs.Each stockNext (NamesAverage invoiceId) actions start)
    (hfits : (roundHalfEven (ofUnits 5 (soldAtAverage invoiceId actions start) * 10 ^ 2)).natAbs <
      10 ^ 28) :
    (cogsForInvoice invoiceId noFaults (Runs.after stockNext actions start)).value? =
        some (ofUnits 2 (roundHalfEven (ofUnits 5 (soldAtAverage invoiceId actions start) * 10 ^ 2))) ∧
      ∀ later : List StockAction, (∀ action ∈ later, ¬ action.1.movement.sells invoiceId) →
        (cogsForInvoice invoiceId noFaults (Runs.after stockNext (actions ++ later) start)).value? =
          (cogsForInvoice invoiceId noFaults (Runs.after stockNext actions start)).value? := by
  have hnone : start.soldCost "invoice" invoiceId = 0 := by
    rw [StockLedger.soldCost, hstart]
    rfl
  have hsold := soldCost_after hnamed
  rw [hnone, zero_add] at hsold
  constructor
  · rw [cogsForInvoice_value?, hsold]
    exact if_pos hfits
  · intro later hlater
    rw [cogsForInvoice_value?, cogsForInvoice_value?, Runs.after, List.foldl_append]
    congr 2
    exact soldCost_of_not_sells hlater

end

/-- A sale for the seventh invoice. -/
def saleForInvoice (quantity : ℚ) (unitCost : Option ℚ) (quantity_pos : 0 < quantity) :
    StockRequest :=
  .recordMovement 1 ⟨.sale, quantity, unitCost, none, none, some "invoice", some 7,
    MovementType.sale_ne_adjustment, quantity_pos, by simp⟩ none ⟨51, 61, 2⟩

def stampedSale : List StockAction :=
  [(receiveTen, noFaults), (saleForInvoice 2 none (by norm_num), noFaults)]

theorem stampedSale_costs_average :
    letI := Context.default
    letI := Format.plain
    (cogsForInvoice 7 noFaults (Runs.after stockNext stampedSale oneProduct)).value? =
      some (ofUnits 2 (roundHalfEven (ofUnits 5 20000000 * 10 ^ 2))) := by
  have hnamed : letI := Context.default; letI := Format.plain;
      Runs.Each stockNext (NamesAverage 7) stampedSale oneProduct := by
    decide +kernel
  let := Context.default
  let := Format.plain
  have hsold : soldAtAverage 7 stampedSale oneProduct = 20000000 := by
    decide +kernel
  have hcogs := (invoice_cogs_point_in_time rfl hnamed (by rw [hsold]; decide +kernel)).1
  rwa [hsold] at hcogs

/-- Two units at an average cost of 100 are sold at a unit cost of one. -/
theorem namedCost_replaces_average :
    letI := Context.default
    letI := Format.plain
    oneProduct.stockMovements.filter (·.soldFor "invoice" 7) = [] ∧
      soldAtAverage 7 [(receiveTen, noFaults),
        (saleForInvoice 2 (some 1) (by norm_num), noFaults)] oneProduct = 20000000 ∧
      ofUnits 2 (roundHalfEven (ofUnits 5 20000000 * 10 ^ 2)) = 200 ∧
      (cogsForInvoice 7 noFaults (Runs.after stockNext [(receiveTen, noFaults),
        (saleForInvoice 2 (some 1) (by norm_num), noFaults)] oneProduct)).value? = some 2 := by
  decide +kernel

end Finguard
