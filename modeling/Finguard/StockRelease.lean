import Finguard.StockConcurrency
import Finguard.StockCosts
import Finguard.StockTool

/-! What the tool's gates let through, and what the service still asks of it. -/

namespace Finguard
open Decimal Text Transaction Transaction.Tx

/-! Short decimals. -/

/-- A decimal of at most twenty-eight digits, as every float prints. -/
def Short (q : ℚ) : Prop :=
  ∃ digits exponent : ℤ, digits.natAbs < 10 ^ 28 ∧ q = digits * 10 ^ exponent

section
variable [Context]

theorem Short.round {q : ℚ} (h : Short q) (hsmall : |q| < 10 ^ 28) : Context.round q = q := by
  obtain ⟨digits, exponent, hdigits, rfl⟩ := h
  rcases le_or_gt exponent 0 with hneg | hpos
  · obtain ⟨scale, hscale⟩ := Int.exists_eq_neg_ofNat hneg
    have heq : (digits : ℚ) * 10 ^ exponent = ofUnits scale digits := by
      rw [hscale, zpow_neg, zpow_natCast, ofUnits, div_eq_mul_inv]
    rw [heq]
    exact Context.round_exact scale digits hdigits
  · obtain ⟨k, hk⟩ := Int.eq_ofNat_of_zero_le hpos.le
    have heq : (digits : ℚ) * 10 ^ exponent = ofUnits 0 (digits * 10 ^ k) := by
      rw [hk, zpow_natCast, ofUnits, pow_zero, div_one]
      push_cast
      rfl
    rw [heq] at hsmall ⊢
    apply Context.round_exact
    rw [ofUnits, pow_zero, div_one, ← Int.cast_abs, Int.abs_eq_natAbs] at hsmall
    exact_mod_cast hsmall

omit [Context] in
theorem Short.neg {q : ℚ} (h : Short q) : Short (-q) := by
  obtain ⟨digits, exponent, hdigits, rfl⟩ := h
  exact ⟨-digits, exponent, by simpa using hdigits, by push_cast; ring⟩

omit [Context] in
theorem Short.abs {q : ℚ} (h : Short q) : Short |q| := by
  rcases abs_choice q with heq | heq
  · rwa [heq]
  · rw [heq]
    exact h.neg

end

/-! What the gates let through. -/

section
variable [Context]

/-- What the tool expects to be left on hand. -/
def AcceptedMovement.resulting (accepted : AcceptedMovement) (db : Db) : ℚ :=
  if accepted.movementType = .adjustment ∨ accepted.movementType.inbound then
    add (ofUnits 3 (db.onHand accepted.product.id)) accepted.quantity
  else sub (ofUnits 3 (db.onHand accepted.product.id)) accepted.quantity

structure Gated (args : MovementArgs) (db : Db) (accepted : AcceptedMovement) : Prop where
  product : accepted.product ∈ db.products.rows
  parameters : checkParameters accepted.movementType args = .ok ()
  quantity : args.quantity = .finite accepted.quantity
  single : (db.levelsOf accepted.product.id).length ≤ 1
  nonneg : 0 ≤ accepted.resulting db
  rounded : quantize? 3 (accepted.resulting db) = accepted.base.resultingOnHand
  shown : accepted.base.resultingOnHand.isSome
  status : accepted.base.status = "proposed"

variable [Format] [Python]

omit [Context] in
theorem mem_of_resolveProduct {productRef : String} {faults : Faults Site ServiceError}
    {db db' : Db} {product : Product} (h : resolveProduct productRef faults db = .ok product db') :
    product ∈ db.products.rows := by
  simp only [resolveProduct, bind_eq_ok] at h
  obtain ⟨byId, db₁, hbyId, h⟩ := h
  obtain rfl := getProductByRef_eq_ok hbyId
  cases byId with
  | some found =>
    cases h
    cases hid : Format.ofIdentifier productRef with
    | some id =>
      simp only [getProductByRef, hid, select_eq_ok] at hbyId
      exact Table.mem_of_find? hbyId.2.1
    | none =>
      simp only [getProductByRef, hid, pure_apply, Outcome.ok.injEq] at hbyId
      cases hbyId.1
  | none =>
    simp only [getProductBySku, bind_eq_ok, select_eq_ok, getOrRaise_eq_ok] at h
    obtain ⟨found, _, ⟨-, hfind, rfl⟩, rfl, -⟩ := h
    exact Table.mem_of_find? hfind

omit [Python] in
theorem checkOnHand_gated {product : Product} {movementType : MovementType} {args : MovementArgs}
    {faults : Faults Site ServiceError} {db db' : Db} {accepted : AcceptedMovement}
    (hproduct : product ∈ db.products.rows) (hparameters : checkParameters movementType args = .ok ())
    (h : checkOnHand product movementType args faults db = .ok (.ok accepted) db') :
    Gated args db accepted := by
  simp only [checkOnHand, bind_eq_ok, select_eq_ok, raiseIf_eq_ok, getOrRaise_eq_ok] at h
  obtain ⟨_, _, ⟨-, rfl, rfl⟩, _, _, ⟨hsingle, rfl⟩, negative, _, ⟨hnegative, rfl⟩, h⟩ := h
  cases negative with
  | true => cases h
  | false =>
    simp only [Bool.false_eq_true, if_false, bind_eq_ok, getOrRaise_eq_ok] at h
    obtain ⟨rounded, _, ⟨hrounded, rfl⟩, h⟩ := h
    cases hquantity : args.quantity with
    | finite quantity =>
      rw [hquantity] at h hnegative hrounded
      cases h
      have honHand : (((db.levelsOf product.id).head?.map
          (fun level => level.quantityOnHand.val)).getD 0) = ofUnits 3 (db.onHand product.id) := by
        unfold StockLedger.onHand
        cases (db.levelsOf product.id).head? with
        | none => exact (ofUnits_zero 3).symm
        | some level => rfl
      rw [honHand] at hnegative hrounded
      have hnonneg := Option.some.inj hnegative
      rw [decide_eq_false_iff_not, not_lt] at hnonneg
      exact ⟨hproduct, hparameters, hquantity, not_lt.mp hsingle, hnonneg, hrounded, rfl, rfl⟩
    | infinite negative =>
      rw [hquantity] at h
      cases h
    | nan =>
      rw [hquantity] at h
      cases h

theorem guardMovement_gated {args : MovementArgs} {faults : Faults Site ServiceError} {db db' : Db}
    {accepted : AcceptedMovement} (h : guardMovement args faults db = .ok (.ok accepted) db') :
    Gated args db accepted := by
  simp only [guardMovement, bind_eq_ok] at h
  obtain ⟨product, db₁, hproduct, h⟩ := h
  obtain rfl := resolveProduct_eq_ok hproduct
  cases htype : MovementType.ofValue? args.movementType with
  | none =>
    rw [htype] at h
    cases h
  | some movementType =>
    simp only [htype] at h
    cases hcheck : checkParameters movementType args with
    | error detail =>
      rw [hcheck] at h
      cases h
    | ok u =>
      rw [hcheck] at h
      exact checkOnHand_gated (mem_of_resolveProduct hproduct) hcheck h

/-! What the quantity is for the service. -/

omit [Format] [Python] in
theorem Gated.positive {args : MovementArgs} {db : Db} {accepted : AcceptedMovement}
    (h : Gated args db accepted) (hroutine : accepted.movementType ≠ .adjustment) :
    0 < accepted.quantity := by
  have hparameters := h.parameters
  rw [checkParameters, if_neg hroutine, h.quantity] at hparameters
  by_contra hnot
  rw [if_pos ⟨by simp, by simpa [Number.isPositive] using hnot⟩] at hparameters
  cases hparameters

omit [Format] [Python] in
theorem Gated.nonzero {args : MovementArgs} {db : Db} {accepted : AcceptedMovement}
    (h : Gated args db accepted) : accepted.quantity ≠ 0 := by
  by_cases hadjustment : accepted.movementType = .adjustment
  · have hparameters := h.parameters
    rw [checkParameters, if_pos hadjustment, h.quantity] at hparameters
    intro hzero
    rw [if_pos (by simp [Number.isZero, hzero])] at hparameters
    cases hparameters
  · exact (h.positive hadjustment).ne'

omit [Format] [Python] in
theorem Gated.receipt {args : MovementArgs} {db : Db} {accepted : AcceptedMovement}
    (h : Gated args db accepted) (hreceipt : accepted.movementType = .receipt) :
    args.unitCost.isNull = false := by
  have hparameters := h.parameters
  have hroutine : accepted.movementType ≠ .adjustment := by
    rw [hreceipt]
    decide
  have hpositive := h.positive hroutine
  rw [checkParameters, if_neg hroutine, h.quantity,
    if_neg (by simp [Number.isPositive, hpositive])] at hparameters
  by_contra hnull
  rw [if_pos ⟨hreceipt, by simpa using hnull⟩] at hparameters
  cases hparameters

omit [Format] [Python] in
theorem round_le_neg_one {q : ℚ} (h : q ≤ -1) : Context.round q ≤ -1 := by
  have hone := Context.round_exact 0 (-1) (by norm_num)
  have hle : q ≤ ofUnits 0 (-1) := by simpa [ofUnits] using h
  have hround := Context.round_mono hle
  rw [hone] at hround
  simpa [ofUnits] using hround

omit [Format] [Python] in
/-- A quantity with more digits either leaves less than nothing or cannot be shown. -/
theorem Gated.small {args : MovementArgs} {db : Db} {accepted : AcceptedMovement}
    (h : Gated args db accepted) : |accepted.quantity| < 10 ^ 28 := by
  obtain ⟨hlow, hhigh⟩ := onHand_bounds db.toStockLedger accepted.product.id
  have hnonneg : 0 ≤ ofUnits 3 (db.onHand accepted.product.id) := ofUnits_nonneg.mpr hlow
  have hbound : ofUnits 3 (db.onHand accepted.product.id) < 10 ^ 15 := by
    rw [ofUnits, div_lt_iff₀ (pow_ten_pos 3)]
    exact_mod_cast hhigh
  by_contra hlarge
  rw [not_lt] at hlarge
  have hresulting := h.nonneg
  by_cases hadds : accepted.movementType = .adjustment ∨ accepted.movementType.inbound
  · rw [AcceptedMovement.resulting, if_pos hadds, add] at hresulting
    rcases le_or_gt 0 accepted.quantity with hpos | hneg
    · rw [abs_of_nonneg hpos] at hlarge
      have hshown := h.shown
      rw [← h.rounded, AcceptedMovement.resulting, if_pos hadds, add, quantize?_eq_none] at hshown
      · cases hshown
      · have hexact := Context.round_exact 0 (10 ^ 27) (by norm_num)
        calc ofUnits 3 (10 ^ 28) ≤ ofUnits 0 (10 ^ 27) := by norm_num [ofUnits]
          _ = Context.round (ofUnits 0 (10 ^ 27)) := hexact.symm
          _ ≤ Context.round (ofUnits 3 (db.onHand accepted.product.id) + accepted.quantity) := by
            apply Context.round_mono
            norm_num [ofUnits] at hlarge ⊢
            norm_num [ofUnits] at hnonneg
            linarith
    · rw [abs_of_neg hneg] at hlarge
      have hround := round_le_neg_one (q := ofUnits 3 (db.onHand accepted.product.id) +
        accepted.quantity) (by linarith)
      linarith
  · have hpos := h.positive (fun hadjustment => hadds (.inl hadjustment))
    rw [abs_of_pos hpos] at hlarge
    rw [AcceptedMovement.resulting, if_neg hadds, sub] at hresulting
    have hround := round_le_neg_one (q := ofUnits 3 (db.onHand accepted.product.id) -
      accepted.quantity) (by linarith)
    linarith

/-! When a movement goes through. -/

/-- The columns can hold a cost that is named, and the average that comes of it. -/
structure CostFits (l : StockLedger) (productId : Uuid) (movementType : MovementType)
    (quantity cost : ℚ) : Prop where
  named : (Numeric.store? 18 2 cost).isSome
  averaged : movementType.inbound = true → ∃ average,
    weightedAvg (ofUnits 3 (l.onHand productId)) (ofUnits 2 (l.averageCost productId)) quantity cost =
      some average ∧ (Numeric.store? 18 2 average).isSome

structure Storable (l : StockLedger) (request : MovementRequest) : Prop where
  quantity : ∃ n : Quantity, Numeric.store? 18 3 request.quantity = some n ∧ 0 < n.units
  onHand : (Numeric.store? 18 3
    (add (ofUnits 3 (l.onHand request.productId)) request.signedDelta)).isSome
  cost : ∀ cost ∈ request.unitCost,
    CostFits l request.productId request.movementType request.quantity cost

omit [Context] [Format] [Python] in
theorem levelFor_onHand (l : StockLedger) (productId levelId : Uuid) :
    (l.levelFor productId levelId).quantityOnHand.val = ofUnits 3 (l.onHand productId) := by
  unfold StockLedger.levelFor StockLedger.onHand
  cases (l.levelsOf productId).head? with
  | none => rfl
  | some level => rfl

omit [Context] [Format] [Python] in
theorem levelFor_averageCost (l : StockLedger) (productId levelId : Uuid) :
    (l.levelFor productId levelId).averageCost.val = ofUnits 2 (l.averageCost productId) := by
  unfold StockLedger.levelFor StockLedger.averageCost
  cases (l.levelsOf productId).head? with
  | none => rfl
  | some level => rfl

omit [Format] [Python] in
theorem costs_store_iff {l : StockLedger} {request : MovementRequest} {levelId : Uuid} :
    (∃ average, newAverageCost (l.levelFor request.productId levelId) request = some average ∧
      ((effectiveUnitCost request average).mapM (Numeric.store? 18 2)).isSome ∧
        (Numeric.store? 18 2 average).isSome) ↔
      ∀ cost ∈ request.unitCost,
        CostFits l request.productId request.movementType request.quantity cost := by
  have hkept : (Numeric.store? 18 2
      (l.levelFor request.productId levelId).averageCost.val).isSome := by
    rw [Numeric.store?_val]
    rfl
  have honHand := levelFor_onHand l request.productId levelId
  have haverage := levelFor_averageCost l request.productId levelId
  cases hcost : request.unitCost with
  | none =>
    -- the average is kept, and a stamp is a copy of it
    refine iff_of_true ⟨_, by rw [newAverageCost, hcost], ?_, hkept⟩ (by simp)
    unfold effectiveUnitCost
    split
    · rw [Option.mapM_some, Numeric.store?_val]
      rfl
    · rw [hcost]
      rfl
  | some cost =>
    have hstamp : ∀ average, effectiveUnitCost request average = some cost := by
      intro average
      rw [effectiveUnitCost, hcost]
      exact if_neg (by simp)
    have hmapM : ∀ average, ((effectiveUnitCost request average).mapM
        (Numeric.store? 18 2)).isSome = (Numeric.store? 18 2 cost).isSome := by
      intro average
      rw [hstamp, Option.mapM_some]
      exact Option.isSome_map
    simp only [hmapM, newAverageCost, hcost, honHand, haverage, Option.mem_some_iff, forall_eq']
    constructor
    · rintro ⟨average, hnew, hnamed, hfits⟩
      refine ⟨hnamed, ?_⟩
      intro hin
      rw [if_pos hin] at hnew
      exact ⟨average, hnew, hfits⟩
    · intro hfits
      by_cases hin : request.movementType.inbound = true
      · obtain ⟨average, hnew, hstored⟩ := hfits.averaged hin
        exact ⟨average, by rw [if_pos hin, hnew], hfits.named, hstored⟩
      · refine ⟨_, if_neg hin, hfits.named, ?_⟩
        rwa [haverage] at hkept

omit [Context] [Format] [Python] in
theorem movementRow?_isSome_iff {request : MovementRequest} {plan : MovementPlan}
    {stamp : MovementStamp} {sequence : ℤ} :
    (StockLedger.movementRow? request plan stamp sequence).isSome ↔
      (∃ n, Numeric.store? 18 3 request.quantity = some n ∧ 0 < n.units) ∧
        (plan.unitCost.mapM (Numeric.store? 18 2)).isSome ∧
          (Numeric.store? 18 3 plan.onHand).isSome := by
  simp only [Option.isSome_iff_exists, StockLedger.movementRow?, Option.bind_eq_bind,
    Option.bind_eq_some_iff]
  constructor
  · rintro ⟨movement, quantity, hquantity, cost, hcost, balance, hbalance, h⟩
    split at h
    · rename_i hpos
      exact ⟨⟨quantity, hquantity, hpos⟩, ⟨cost, hcost⟩, balance, hbalance⟩
    · cases h
  · rintro ⟨⟨quantity, hquantity, hpos⟩, ⟨cost, hcost⟩, balance, hbalance⟩
    exact ⟨_, quantity, hquantity, cost, hcost, balance, hbalance, dif_pos hpos⟩

omit [Context] [Format] [Python] in
theorem levelRow?_isSome_iff {plan : MovementPlan} {level : StockLevel} (hnonneg : 0 ≤ plan.onHand) :
    (StockLedger.levelRow? plan level level).isSome ↔
      (Numeric.store? 18 3 plan.onHand).isSome ∧ (Numeric.store? 18 2 plan.averageCost).isSome := by
  simp only [Option.isSome_iff_exists, StockLedger.levelRow?, Option.bind_eq_bind,
    Option.bind_eq_some_iff, Numeric.assign?_self]
  constructor
  · rintro ⟨level', onHand, honHand, cost, hcost, -⟩
    exact ⟨⟨onHand, honHand⟩, cost, hcost⟩
  · rintro ⟨⟨onHand, honHand⟩, cost, hcost⟩
    exact ⟨_, onHand, honHand, cost, hcost, dif_pos (Numeric.units_nonneg_of_store hnonneg honHand)⟩

omit [Python] in
theorem exists_plan {product : Product} {level : StockLevel} {request : MovementRequest} {average : ℚ}
    (hnonneg : 0 ≤ add level.quantityOnHand.val request.signedDelta)
    (haverage : newAverageCost level request = some average) :
    ∃ plan, planMovement product level request = .ok plan ∧ plan.averageCost = average := by
  unfold planMovement
  rw [if_neg (fun h => absurd h.1 (not_lt.mpr hnonneg)), if_neg (not_lt.mpr hnonneg), haverage]
  exact ⟨_, rfl, rfl⟩

omit [Python] in
theorem applyMovement_ok_iff {db : Db} {request : MovementRequest} {stamp : MovementStamp}
    {product : Product} (hproduct : db.getProduct request.productId = some product)
    (hsingle : (db.levelsOf request.productId).length ≤ 1) (hfresh : db.FreshStamp stamp)
    (hnonneg : 0 ≤ add (ofUnits 3 (db.onHand request.productId)) request.signedDelta) :
    (∃ r db', applyMovement request stamp noFaults db = .ok r db') ↔
      product.isActive = true ∧ Storable db.toStockLedger request := by
  have hval := levelFor_onHand db.toStockLedger request.productId stamp.levelId
  rw [← hval] at hnonneg
  constructor
  · rintro ⟨r, db', h⟩
    obtain ⟨l₁, l', product', level, plan, hexecuted, -, -⟩ := applyMovement_executed h
    obtain rfl := Option.some.inj (hproduct.symm.trans hexecuted.found)
    have hlevel : level = db.levelFor request.productId stamp.levelId := by
      unfold StockLedger.levelFor
      rcases hexecuted.fresh with hfound | ⟨hnone, rfl⟩
      · rw [hfound]
        rfl
      · rw [hnone]
        rfl
    subst hlevel
    obtain ⟨honHand, hplanned⟩ := planMovement_eq_ok hexecuted.planned
    obtain ⟨haverage, hcost⟩ := planMovement_costs hexecuted.planned
    obtain ⟨movement, hmovement, -, ⟨level', -, hlevel'⟩, -⟩ :=
      writeMovement_eq_some hexecuted.opened rfl hexecuted.written
    obtain ⟨hquantity, hunit, hbalance⟩ :=
      movementRow?_isSome_iff.mp (Option.isSome_of_eq_some hmovement)
    obtain ⟨-, hstored⟩ :=
      (levelRow?_isSome_iff hplanned).mp (Option.isSome_of_eq_some hlevel')
    rw [honHand, hval] at hbalance
    rw [hcost] at hunit
    exact ⟨hexecuted.active, hquantity, hbalance,
      costs_store_iff.mp ⟨plan.averageCost, haverage, hunit, hstored⟩⟩
  · rintro ⟨hactive, hstorable⟩
    obtain ⟨average, haverage, hunit, hstored⟩ := costs_store_iff.mpr hstorable.cost
    obtain ⟨plan, hplan, rfl⟩ := @exists_plan _ _ product _ _ _ hnonneg haverage
    obtain ⟨honHand, hplanned⟩ := planMovement_eq_ok hplan
    have hbalance : (Numeric.store? 18 3 plan.onHand).isSome := by
      rw [honHand, hval]
      exact hstorable.onHand
    refine applyMovement_ok hsingle hproduct hactive hfresh hplan ?_ ?_
    · rw [movementRow?_isSome_iff, (planMovement_costs hplan).2]
      exact ⟨hstorable.quantity, hunit, hbalance⟩
    · rw [levelRow?_isSome_iff hplanned]
      exact ⟨hbalance, hstored⟩

omit [Python] in
theorem applyMovement_found {db db' : Db} {request : MovementRequest} {stamp : MovementStamp}
    {r : Option StockMovement × Option LowStockSignal × Option Uuid}
    (h : applyMovement request stamp noFaults db = .ok r db') :
    ∃ movement, r.1 = some movement ∧ movement.balanceAfter.units = roundHalfAway
      (add (ofUnits 3 (db.onHand request.productId)) request.signedDelta * 10 ^ 3) := by
  obtain ⟨l₁, l', product, level, plan, hexecuted, -, rfl⟩ := applyMovement_executed h
  obtain ⟨movement, hmovement, hinsert, -⟩ :=
    writeMovement_eq_some hexecuted.opened rfl hexecuted.written
  obtain ⟨hid, -, -, -, -, hbalance⟩ := movementRow?_eq_some hmovement
  refine ⟨movement, Table.find?_of_insert_pos hinsert (by simp [hid]) ?_, ?_⟩
  · intro row hrow
    have hclash : (row.id == movement.id || (row.productId == movement.productId &&
        row.sequence == movement.sequence)) = true := by
      rw [beq_iff_eq] at hrow
      simp [hrow, hid]
    exact hclash
  · rw [Numeric.units_of_store hbalance, (planMovement_eq_ok hexecuted.planned).1,
      hexecuted.opened.onHand]
    rfl

/-! The movement that the service is asked for. -/

/-- A request for an accepted movement. -/
structure Asks (accepted : AcceptedMovement) (db : Db) (request : MovementRequest) : Prop where
  productId : request.productId = accepted.product.id
  movementType : request.movementType = accepted.movementType
  quantity : request.quantity = |accepted.quantity|
  resulting : add (ofUnits 3 (db.onHand request.productId)) request.signedDelta =
    accepted.resulting db

omit [Format] [Python] in
theorem Gated.adjustment_asks {args : MovementArgs} {db : Db} {accepted : AcceptedMovement}
    (h : Gated args db accepted) (hshort : Short accepted.quantity)
    (hadjustment : accepted.movementType = .adjustment) {data : StockAdjustmentCreate}
    (hquantity : data.quantity = accepted.quantity) (actorId : Option Uuid) :
    Asks accepted db (data.request accepted.product.id actorId) where
  productId := rfl
  movementType := hadjustment.symm
  quantity := by
    show Context.round |data.quantity| = _
    rw [hquantity]
    apply hshort.abs.round
    rw [abs_abs]
    exact h.small
  resulting := by
    rw [AcceptedMovement.resulting, if_pos (.inl hadjustment), ← hquantity]
    rfl

omit [Format] [Python] in
theorem Gated.routine_asks {args : MovementArgs} {db : Db} {accepted : AcceptedMovement}
    (h : Gated args db accepted) (hshort : Short accepted.quantity)
    (hroutine : accepted.movementType ≠ .adjustment) {data : InventoryMovementCreate}
    (htype : data.movementType = accepted.movementType)
    (hquantity : data.quantity = accepted.quantity) (actorId : Option Uuid) :
    Asks accepted db (data.request accepted.product.id actorId) where
  productId := rfl
  movementType := htype
  quantity := by
    rw [abs_of_pos (h.positive hroutine)]
    exact hquantity
  resulting := by
    have hneg : neg accepted.quantity = -accepted.quantity := by
      apply hshort.neg.round
      rw [abs_neg]
      exact h.small
    show add _ (if data.movementType.inbound then data.quantity else neg data.quantity) = _
    rw [AcceptedMovement.resulting, htype, hquantity, hneg]
    by_cases hin : accepted.movementType.inbound = true
    · rw [if_pos hin, if_pos (.inr hin)]
      rfl
    · rw [if_neg hin, if_neg (fun hadds => hadds.elim hroutine hin), sub, add, ← sub_eq_add_neg]
      rfl

/-- What a movement needs besides readable arguments. -/
structure Movable (db : Db) (accepted : AcceptedMovement) (unitCost : Option ℚ) : Prop where
  active : accepted.product.isActive = true
  quantity : ∃ n : Quantity, Numeric.store? 18 3 |accepted.quantity| = some n ∧ 0 < n.units
  onHand : (Numeric.store? 18 3 (accepted.resulting db)).isSome
  cost : ∀ cost ∈ unitCost, CostFits db.toStockLedger accepted.product.id accepted.movementType
    |accepted.quantity| cost

omit [Format] [Python] in
theorem Gated.getProduct {args : MovementArgs} {db : Db} {accepted : AcceptedMovement}
    (h : Gated args db accepted) : db.getProduct accepted.product.id = some accepted.product := by
  have hclash : ∀ a b : Product, (a.id == accepted.product.id) = true →
      (b.id == accepted.product.id) = true → Row.clash a b = true := by
    intro a b ha hb
    rw [beq_iff_eq] at ha hb
    show (a.id == b.id || _) = true
    simp [ha, hb]
  exact (Table.find?_eq_some_iff hclash).mpr ⟨h.product, beq_self_eq_true _⟩

omit [Python] in
theorem Asks.ok_iff {args : MovementArgs} {db : Db} {accepted : AcceptedMovement}
    {request : MovementRequest} {stamp : MovementStamp} (h : Asks accepted db request)
    (hgated : Gated args db accepted) (hfresh : db.FreshStamp stamp) :
    (∃ r db', applyMovement request stamp noFaults db = .ok r db') ↔
      Movable db accepted request.unitCost := by
  obtain ⟨hid, htype, hquantity, hresulting⟩ := h
  have hiff := @applyMovement_ok_iff _ _ db request stamp accepted.product
    (hid ▸ hgated.getProduct) (hid ▸ hgated.single) hfresh (hresulting ▸ hgated.nonneg)
  rw [hiff]
  constructor
  · rintro ⟨hactive, hstorable⟩
    refine ⟨hactive, hquantity ▸ hstorable.quantity, hresulting ▸ hstorable.onHand, ?_⟩
    rw [← hid, ← htype, ← hquantity]
    exact hstorable.cost
  · intro hmovable
    refine ⟨hmovable.active, hquantity ▸ hmovable.quantity, hresulting ▸ hmovable.onHand, ?_⟩
    rw [hid, htype, hquantity]
    exact hmovable.cost

/-! The arguments as they are read. -/

omit [Context] [Format] in
theorem readReason_ok_iff {reason : Json} {db : Db} :
    (∃ r, readReason reason noFaults db = .ok r db) ↔
      ∃ s, reason = .text s ∧ (MovementReason.ofValue? s).isSome := by
  cases reason with
  | text s => simp [readReason, Option.isSome_iff_exists]
  | _ => simp [readReason]

omit [Context] [Format] in
theorem readOptionalReason_ok_iff {reason : Json} {db : Db} :
    (∃ r, readOptionalReason reason noFaults db = .ok r db) ↔
      (reason.truthy = true → ∃ s, reason = .text s ∧ (MovementReason.ofValue? s).isSome) := by
  rw [← @readReason_ok_iff _ reason db]
  unfold readOptionalReason
  by_cases hgiven : reason.truthy = true
  · simp only [hgiven, if_true, forall_const, bind_eq_ok, pure_apply, Outcome.ok.injEq]
    constructor
    · rintro ⟨_, r, db', hread, -, rfl⟩
      exact ⟨r, hread⟩
    · rintro ⟨r, hread⟩
      exact ⟨some r, r, db, hread, rfl, rfl⟩
  · simp [hgiven]

omit [Context] [Format] in
theorem readNote_ok_iff {schema : String} {note : Json} {db : Db} :
    (∃ r, readNote schema note noFaults db = .ok r db) ↔ note = .null ∨ ∃ s, note = .text s := by
  cases note <;> simp [readNote]

omit [Context] [Format] in
theorem readCost_ok_iff {schema : String} {unitCost : Json} {db : Db} {cost : Option ℚ} :
    (∃ read, readUnitCost unitCost noFaults db = .ok read db ∧
      finiteCost schema unitCost read noFaults db = .ok cost db) ↔
    (unitCost.isNull = true ∧ cost = none ∨ unitCost.isNull = false ∧
      ∃ q, Python.decimal (Python.str unitCost) = some (.finite q) ∧ cost = some q) := by
  unfold readUnitCost
  cases hnull : unitCost.isNull with
  | true =>
    simp [finiteCost, eq_comm]
  | false =>
    simp only [Bool.false_eq_true, if_false, bind_eq_ok, getOrRaise_eq_ok, pure_apply,
      Outcome.ok.injEq, false_and, false_or, true_and]
    constructor
    · rintro ⟨_, ⟨read, _, ⟨hread, rfl⟩, rfl, -⟩, hfinite⟩
      cases read with
      | finite q =>
        cases hfinite
        exact ⟨q, hread, rfl⟩
      | infinite negative => cases hfinite
      | nan => cases hfinite
    · rintro ⟨q, hread, rfl⟩
      exact ⟨_, ⟨_, _, ⟨hread, rfl⟩, rfl, rfl⟩, rfl⟩

/-- What lets an accepted movement go through. -/
structure Releasable (db : Db) (args : MovementArgs) (accepted : AcceptedMovement) : Prop where
  active : accepted.product.isActive = true
  reason : accepted.movementType = .adjustment ∨ args.reason.truthy = true →
    ∃ s, args.reason = .text s ∧ (MovementReason.ofValue? s).isSome
  note : args.note = .null ∨ ∃ s, args.note = .text s
  unitCost : accepted.movementType ≠ .adjustment → args.unitCost.isNull = false →
    ∃ cost, Python.decimal (Python.str args.unitCost) = some (.finite cost) ∧
      CostFits db.toStockLedger accepted.product.id accepted.movementType |accepted.quantity| cost
  quantity : ∃ n : Quantity, Numeric.store? 18 3 |accepted.quantity| = some n ∧ 0 < n.units
  onHand : (Numeric.store? 18 3 (accepted.resulting db)).isSome

omit [Python] in
theorem recordMovement_ok_iff {productId : Uuid} {data : InventoryMovementCreate}
    {actorId : Option Uuid} {stamp : MovementStamp} {db db' : Db} {movement : Option StockMovement} :
    recordMovement productId data actorId stamp noFaults db = .ok movement db' ↔
      ∃ r, applyMovement (data.request productId actorId) stamp noFaults db = .ok r db' ∧
        r.1 = movement := by
  simp only [recordMovement, bind_eq_ok, raiseIf_eq_ok, commit, site_eq_ok, pure_apply,
    Outcome.ok.injEq]
  constructor
  · rintro ⟨_, _, ⟨-, rfl⟩, r, _, happly, _, _, ⟨-, rfl⟩, hr, rfl⟩
    exact ⟨r, happly, hr⟩
  · rintro ⟨r, happly, hr⟩
    exact ⟨(), _, ⟨data.not_adjustment, rfl⟩, r, _, happly, (), _, ⟨rfl, rfl⟩, hr, rfl⟩

omit [Python] in
theorem adjustStock_ok_iff {productId : Uuid} {data : StockAdjustmentCreate}
    {actorId : Option Uuid} {stamp : MovementStamp} {db db' : Db} {movement : Option StockMovement} :
    adjustStock productId data actorId stamp noFaults db = .ok movement db' ↔
      ∃ r, applyMovement (data.request productId actorId) stamp noFaults db = .ok r db' ∧
        r.1 = movement := by
  simp only [adjustStock, bind_eq_ok, raiseIf_eq_ok, commit, site_eq_ok, pure_apply,
    Outcome.ok.injEq]
  constructor
  · rintro ⟨_, _, ⟨-, rfl⟩, r, _, happly, _, _, ⟨-, rfl⟩, hr, rfl⟩
    exact ⟨r, happly, hr⟩
  · rintro ⟨r, happly, hr⟩
    exact ⟨(), _, ⟨data.quantity_ne_zero, rfl⟩, r, _, happly, (), _, ⟨rfl, rfl⟩, hr, rfl⟩

/-- An accepted movement that goes through is one request of the service. -/
theorem applyAccepted_asks {args : MovementArgs} {db db' : Db} {accepted : AcceptedMovement}
    {actorId : Option Uuid} {stamp : MovementStamp} {movement : Option StockMovement}
    (hgated : Gated args db accepted) (hshort : Short accepted.quantity)
    (h : applyAccepted accepted args actorId stamp noFaults db = .ok movement db') :
    ∃ request r, Asks accepted db request ∧
      applyMovement request stamp noFaults db = .ok r db' ∧ r.1 = movement ∧
      (accepted.movementType = .adjustment ∨ args.reason.truthy = true →
        ∃ s, args.reason = .text s ∧ (MovementReason.ofValue? s).isSome) ∧
      (args.note = .null ∨ ∃ s, args.note = .text s) ∧
      (accepted.movementType ≠ .adjustment → args.unitCost.isNull = false →
        ∃ cost, Python.decimal (Python.str args.unitCost) = some (.finite cost) ∧
          request.unitCost = some cost) := by
  rcases applyAccepted_cases h with ⟨hadjustment, reason, note, hquantity, hreason, hnote, h⟩ |
    ⟨hadjustment, cost, reason, unitCost, note, hdata, hcost, hreason, hunit, hnote, h⟩
  · rw [adjustStock_ok_iff] at h
    obtain ⟨r, happly, hr⟩ := h
    exact ⟨_, r, hgated.adjustment_asks hshort hadjustment rfl actorId, happly, hr,
      fun _ => readReason_ok_iff.mp ⟨reason, hreason⟩, readNote_ok_iff.mp ⟨note, hnote⟩,
      fun hroutine => absurd hadjustment hroutine⟩
  · rw [recordMovement_ok_iff] at h
    obtain ⟨r, happly, hr⟩ := h
    refine ⟨_, r, hgated.routine_asks hshort hadjustment rfl rfl actorId, happly, hr, ?_,
      readNote_ok_iff.mp ⟨note, hnote⟩, ?_⟩
    · rintro (hadjusts | hgiven)
      · exact absurd hadjusts hadjustment
      · exact readOptionalReason_ok_iff.mp ⟨reason, hreason⟩ hgiven
    · intro _ hnull
      rcases readCost_ok_iff.mp ⟨cost, hcost, hunit⟩ with ⟨hnone, -⟩ | ⟨-, q, hread, hsome⟩
      · rw [hnull] at hnone
        cases hnone
      · exact ⟨q, hread, hsome⟩

omit [Format] in
theorem Releasable.exists_cost {args : MovementArgs} {db : Db} {accepted : AcceptedMovement}
    (h : Releasable db args accepted) (hroutine : accepted.movementType ≠ .adjustment)
    (schema : String) :
    ∃ unitCost : Option ℚ, (∃ read, readUnitCost args.unitCost noFaults db = .ok read db ∧
        finiteCost schema args.unitCost read noFaults db = .ok unitCost db) ∧
      (∀ cost ∈ unitCost, CostFits db.toStockLedger accepted.product.id accepted.movementType
        |accepted.quantity| cost) ∧
      (args.unitCost.isNull = false → unitCost.isSome) := by
  cases hnull : args.unitCost.isNull with
  | true => exact ⟨none, readCost_ok_iff.mpr (.inl ⟨hnull, rfl⟩), by simp, by simp⟩
  | false =>
    obtain ⟨cost, hread, hfits⟩ := h.unitCost hroutine hnull
    refine ⟨some cost, readCost_ok_iff.mpr (.inr ⟨hnull, cost, hread, rfl⟩), ?_, fun _ => rfl⟩
    intro named hnamed
    obtain rfl := Option.some.inj hnamed
    exact hfits

theorem applyAccepted_ok_iff {args : MovementArgs} {db : Db} {accepted : AcceptedMovement}
    {actorId : Option Uuid} {stamp : MovementStamp} (hgated : Gated args db accepted)
    (hshort : Short accepted.quantity) (hfresh : db.FreshStamp stamp) :
    (∃ movement db', applyAccepted accepted args actorId stamp noFaults db = .ok movement db') ↔
      Releasable db args accepted := by
  constructor
  · rintro ⟨movement, db', h⟩
    obtain ⟨request, r, hasks, happly, -, hreason, hnote, hcost⟩ :=
      applyAccepted_asks hgated hshort h
    obtain ⟨hactive, hquantity, honHand, hfits⟩ := (hasks.ok_iff hgated hfresh).mp ⟨r, db', happly⟩
    refine ⟨hactive, hreason, hnote, ?_, hquantity, honHand⟩
    intro hroutine hgiven
    obtain ⟨cost, hread, hunit⟩ := hcost hroutine hgiven
    exact ⟨cost, hread, hfits cost hunit⟩
  · intro h
    unfold applyAccepted
    by_cases hadjustment : accepted.movementType = .adjustment
    · rw [if_pos hadjustment]
      obtain ⟨reason, hreason⟩ := (@readReason_ok_iff _ args.reason db).mpr
        (h.reason (.inl hadjustment))
      obtain ⟨note, hnote⟩ :=
        (@readNote_ok_iff _ "StockAdjustmentCreate" args.note db).mpr h.note
      have hasks : Asks accepted db ((⟨accepted.quantity, reason, note, hgated.nonzero⟩ :
          StockAdjustmentCreate).request accepted.product.id actorId) :=
        hgated.adjustment_asks hshort hadjustment rfl actorId
      obtain ⟨r, db', happly⟩ := (hasks.ok_iff hgated hfresh).mpr
        ⟨h.active, h.quantity, h.onHand, by simp [StockAdjustmentCreate.request]⟩
      refine ⟨r.1, db', ?_⟩
      simp only [applyAdjustment, bind_eq_ok]
      refine ⟨reason, db, hreason, note, db, hnote, ?_⟩
      rw [dif_pos hgated.nonzero, adjustStock_ok_iff]
      exact ⟨r, happly, rfl⟩
    · rw [if_neg hadjustment]
      obtain ⟨reason, hreason⟩ := (@readOptionalReason_ok_iff _ args.reason db).mpr
        (fun hgiven => h.reason (.inr hgiven))
      obtain ⟨note, hnote⟩ :=
        (@readNote_ok_iff _ "InventoryMovementCreate" args.note db).mpr h.note
      obtain ⟨unitCost, ⟨cost, hcost, hunit⟩, hfits, hgiven⟩ :=
        h.exists_cost hadjustment "InventoryMovementCreate"
      have hdata : accepted.movementType ≠ .adjustment ∧ 0 < accepted.quantity ∧
          (accepted.movementType = .receipt → unitCost.isSome) :=
        ⟨hadjustment, hgated.positive hadjustment, fun hreceipt => hgiven (hgated.receipt hreceipt)⟩
      have hasks : Asks accepted db ((⟨accepted.movementType, accepted.quantity, unitCost, reason,
          note, none, none, hdata.1, hdata.2.1, hdata.2.2⟩ :
          InventoryMovementCreate).request accepted.product.id actorId) :=
        hgated.routine_asks hshort hadjustment rfl rfl actorId
      obtain ⟨r, db', happly⟩ := (hasks.ok_iff hgated hfresh).mpr
        ⟨h.active, h.quantity, h.onHand, hfits⟩
      refine ⟨r.1, db', ?_⟩
      simp only [applyRoutine, bind_eq_ok]
      refine ⟨cost, db, hcost, reason, db, hreason, unitCost, db, hunit, note, db, hnote, ?_⟩
      rw [dif_pos hdata, recordMovement_ok_iff]
      exact ⟨r, happly, rfl⟩

end

end Finguard
