import Finguard.AlertCalls
import Finguard.MpesaCallback
import Finguard.StockReplay

/-! The alert on low stock: raised and graded by outflows, resolved by inflows, and left alone by
a change of the reorder level. -/

namespace Finguard
open Decimal Text Transaction Transaction.Tx

/-- The fields of an update that a modelled row has. -/
structure ProductUpdate where
  name : Option String := none
  reorderLevel : Option ℚ := none
  isActive : Option Bool := none

namespace StockLedger

/-- Only the fields that are given are set. -/
def productRow? (data : ProductUpdate) (loaded product : Product) : Option Product := do
  let name ← data.name.elim (some product.name) (varchar? 255)
  let reorderLevel ← data.reorderLevel.elim (some product.reorderLevel)
    (fun q => Numeric.assign? q loaded.reorderLevel product.reorderLevel)
  return { product with name, reorderLevel, isActive := data.isActive.getD product.isActive }

theorem productRow?_eq_some {data : ProductUpdate} {loaded product product' : Product}
    (h : productRow? data loaded product = some product') :
    product'.id = product.id ∧ product'.sku = product.sku ∧
      data.reorderLevel.elim (some product.reorderLevel)
        (fun q => Numeric.assign? q loaded.reorderLevel product.reorderLevel) =
          some product'.reorderLevel := by
  simp only [productRow?, Option.bind_eq_bind, Option.bind_eq_some_iff] at h
  obtain ⟨name, -, reorderLevel, hlevel, h⟩ := h
  obtain rfl := Option.some.inj h
  exact ⟨rfl, rfl, hlevel⟩

theorem productRow?_clash {data : ProductUpdate} {loaded a a' : Product}
    (h : productRow? data loaded a = some a') (b : Product) : Row.clash a' b = Row.clash a b := by
  obtain ⟨hid, hsku, -⟩ := productRow?_eq_some h
  show (a'.id == b.id || a'.sku == b.sku) = (a.id == b.id || a.sku == b.sku)
  rw [hid, hsku]

def writeProduct (l : StockLedger) (loaded : Product) (data : ProductUpdate) :
    Option StockLedger := do
  let products ← l.products.update? (·.id == loaded.id) (productRow? data loaded)
    (fun _ _ => productRow?_clash)
  return { l with products }

theorem id_of_getProduct {l : StockLedger} {productId : Uuid} {product : Product}
    (h : l.getProduct productId = some product) : product.id = productId := by
  have hfound : l.products.find? (·.id == productId) = some product := h
  have hid := Table.of_find? hfound
  rwa [beq_iff_eq] at hid

/-- The reorder level of a product, in thousandths; zero where there is no policy. -/
def reorderLevel (l : StockLedger) (productId : Uuid) : ℤ :=
  ((l.getProduct productId).map (fun product => product.reorderLevel.units)).getD 0

/-- On hand at or below a positive reorder level. -/
def isLow (l : StockLedger) (productId : Uuid) : Bool :=
  0 < l.reorderLevel productId ∧ l.onHand productId ≤ l.reorderLevel productId

theorem isLow_iff {l : StockLedger} {productId : Uuid} : l.isLow productId = true ↔
    0 < l.reorderLevel productId ∧ l.onHand productId ≤ l.reorderLevel productId := by
  simp [isLow]

end StockLedger

def updateProduct (productId : Uuid) (data : ProductUpdate) : AppTx Unit := do
  let found ← select .getProduct (·.getProduct productId)
  let product ← getOrRaise found (.notFound "Product not found")
  flush .saveProduct .database (Db.onStock (·.writeProduct product data))
  commit

/-! The alerts that follow a commit. -/

section
variable [Format]

def lowStockKey (productId : Uuid) : String := s!"low_stock:{Format.identifier productId}"

def lowStockAlertCreate (signal : LowStockSignal) : AlertCreate where
  type := .lowStock
  severity := if signal.onHand ≤ 0 then .critical else .warning
  title := (if signal.onHand ≤ 0 then "Out of stock" else "Low stock") ++ s!": {signal.sku}"
  body := s!"{signal.name} is at {Format.str signal.onHand} " ++
    s!"(reorder level {Format.str signal.reorderLevel.val})."
  sourceAgent := some "inventory"
  vcId := none
  metadataPayload := [("kind", .text "low_stock"),
    ("product_id", .text (Format.identifier signal.productId)), ("sku", .text signal.sku),
    ("on_hand", .text (Format.str signal.onHand)),
    ("reorder_level", .text (Format.str signal.reorderLevel.val))]

def maybeRaiseLowStock (signal : Option LowStockSignal) (id : Uuid) (now : DateTime)
    (alerts : AlertStore) : AlertStore :=
  match signal with
  | none => alerts
  | some signal =>
    alerts.serve (.escalateOrCreate (lowStockAlertCreate signal) (lowStockKey signal.productId)) id now

def maybeResolveLowStock (productId : Option Uuid) (id : Uuid) (now : DateTime)
    (alerts : AlertStore) : AlertStore :=
  match productId with
  | none => alerts
  | some productId => alerts.serve (.resolveByDedup (lowStockKey productId)
      (some "Auto-resolved: stock replenished above reorder level.")) id now

/-- After an inflow that sends no signals itself. -/
def reconcileLowStockAlert (productId : Uuid) (id : Uuid) (now : DateTime) (l : StockLedger)
    (alerts : AlertStore) : AlertStore :=
  match l.getProduct productId, (l.levelsOf productId).head? with
  | some product, some level =>
    if 0 < product.reorderLevel.val ∧ product.reorderLevel.val < level.quantityOnHand.val then
      maybeResolveLowStock (some productId) id now alerts
    else alerts
  | _, _ => alerts

/-! The store and the alerts under requests that are served one after another. -/

/-- `watched` marks a product whose last outflow left it low and that has been low since. -/
structure Stockroom where
  db : Db
  alerts : AlertStore
  watched : Uuid → Bool

inductive StockroomRequest where
  | stock (request : StockRequest)
  | updateProduct (productId : Uuid) (data : ProductUpdate)

structure StockroomAction where
  request : StockroomRequest
  faults : Faults Site ServiceError := noFaults
  alertId : Uuid
  now : DateTime

variable [Context]

def StockroomRequest.run : StockroomRequest → AppTx Unit
  | .stock request => request.run
  | .updateProduct productId data => Finguard.updateProduct productId data

/-- What a movement hands back for the alerts. -/
def alertSignals (request : StockRequest) (faults : Faults Site ServiceError) (db : Db) :
    Option LowStockSignal × Option Uuid :=
  match applyMovement request.movement request.stamp faults db with
  | .ok moved _ => moved.2
  | _ => (none, none)

/-- The alerts after a request that has been committed. -/
def followUp (action : StockroomAction) (db db' : Db) (alerts : AlertStore) : AlertStore :=
  match action.request with
  | .stock (.createStockPurchase data _ _ _) =>
    reconcileLowStockAlert data.productId action.alertId action.now db'.toStockLedger alerts
  | .stock request =>
    let signals := alertSignals request action.faults db
    maybeResolveLowStock signals.2 action.alertId action.now
      (maybeRaiseLowStock signals.1 action.alertId action.now alerts)
  | .updateProduct _ _ => alerts

def StockroomRequest.outflowOf (request : StockroomRequest) (productId : Uuid) : Bool :=
  match request with
  | .stock request =>
    request.movement.productId = productId ∧ request.movement.signedDelta < 0
  | .updateProduct _ _ => false

def stockroomNext (action : StockroomAction) (s : Stockroom) : Stockroom :=
  match action.request.run action.faults s.db with
  | .ok _ db' => {
      db := db'
      alerts := followUp action s.db db' s.alerts
      watched := fun productId => (action.request.outflowOf productId || s.watched productId) &&
        db'.isLow productId }
  | _ => s

/-- The computed on-hand is not above a threshold by less than half a thousandth. -/
def Clear (threshold : ℤ) (x : ℚ) : Prop :=
  ¬ (threshold < x * 10 ^ 3 ∧ x * 10 ^ 3 < threshold + 1 / 2)

/-- A movement whose on-hand is on the same side of its thresholds before and after it is stored. -/
def MovementClear (s : Stockroom) (request : MovementRequest) : Prop :=
  0 < s.db.reorderLevel request.productId →
    (request.signedDelta < 0 ∨
        s.db.onHand request.productId ≤ s.db.reorderLevel request.productId →
      Clear (s.db.reorderLevel request.productId)
        (add (ofUnits 3 (s.db.onHand request.productId)) request.signedDelta)) ∧
    (request.signedDelta < 0 →
      Clear 0 (add (ofUnits 3 (s.db.onHand request.productId)) request.signedDelta) ∨
        ∃ alert ∈ s.alerts.active (lowStockKey request.productId), alert.severity = .critical)

/-- A new level under which the product of an active alert is still low. -/
def LevelClear (s : Stockroom) (productId : Uuid) (data : ProductUpdate) : Prop :=
  s.alerts.active (lowStockKey productId) ≠ [] → ∀ level ∈ data.reorderLevel,
    0 < roundHalfAway (level * 10 ^ 3) ∧
      s.db.onHand productId ≤ roundHalfAway (level * 10 ^ 3)

def RequestClear (s : Stockroom) : StockroomRequest → Prop
  | .stock (.createStockPurchase _ _ _ _) => True
  | .stock request => MovementClear s request.movement
  | .updateProduct productId data => LevelClear s productId data

/-- A new alert gets an identifier of its own, and a request that goes through is clear. -/
structure Steady (s : Stockroom) (action : StockroomAction) : Prop where
  fresh : ∀ alert ∈ s.alerts.alerts.rows, alert.id ≠ action.alertId
  clear : (action.request.run action.faults s.db).value?.isSome → RequestClear s action.request

instance (threshold : ℤ) (x : ℚ) : Decidable (Clear threshold x) := by
  unfold Clear
  infer_instance

instance (s : Stockroom) (request : MovementRequest) : Decidable (MovementClear s request) := by
  unfold MovementClear
  infer_instance

instance (s : Stockroom) (productId : Uuid) (data : ProductUpdate) :
    Decidable (LevelClear s productId data) := by
  unfold LevelClear
  infer_instance

instance (s : Stockroom) (request : StockroomRequest) : Decidable (RequestClear s request) := by
  unfold RequestClear
  split <;> infer_instance

instance (s : Stockroom) (action : StockroomAction) : Decidable (Steady s action) :=
  decidable_of_iff ((∀ alert ∈ s.alerts.alerts.rows, alert.id ≠ action.alertId) ∧
      ((action.request.run action.faults s.db).value?.isSome → RequestClear s action.request))
    ⟨fun h => ⟨h.1, h.2⟩, fun h => ⟨h.fresh, h.clear⟩⟩

/-- The alerts agree with the stock. -/
structure Tracks (s : Stockroom) : Prop where
  only : ∀ productId, ∀ alert ∈ s.alerts.active (lowStockKey productId),
    s.db.isLow productId = true
  raised : ∀ productId, s.watched productId = true →
    ∃ alert, alert ∈ s.alerts.active (lowStockKey productId)
  critical : ∀ productId, s.db.onHand productId = 0 →
    ∀ alert ∈ s.alerts.active (lowStockKey productId), alert.severity = .critical

omit [Format] [Context] in
theorem AlertSeverity.eq_critical {severity : AlertSeverity}
    (h : AlertSeverity.critical.rank ≤ severity.rank) : severity = .critical := by
  cases severity with
  | critical => rfl
  | warning => exact absurd h (by decide)
  | info => exact absurd h (by decide)

/-! One product. -/

/-- The alerts of one product agree with its stock, and there is at most one. -/
structure TracksAt (l : StockLedger) (alerts : List Alert) (watched : Bool) (productId : Uuid) :
    Prop where
  single : alerts.length ≤ 1
  only : ∀ alert ∈ alerts, l.isLow productId = true
  raised : watched = true → alerts ≠ []
  critical : l.onHand productId = 0 → ∀ alert ∈ alerts, alert.severity = .critical

omit [Context] in
theorem lowStockKey_injective : Function.Injective lowStockKey := by
  intro a b h
  apply Format.identifier_injective
  have htexts := congrArg String.toList h
  simp only [lowStockKey, String.toList_append] at htexts
  have htail : (toString (Format.identifier a)).toList = (toString (Format.identifier b)).toList := by
    simpa using htexts
  exact String.toList_injective htail

omit [Context] [Format] in
theorem TracksAt.frame {l l' : StockLedger} {alerts : List Alert} {watched : Bool}
    {productId : Uuid} (h : TracksAt l alerts watched productId)
    (honHand : l'.onHand productId = l.onHand productId)
    (hlevel : l'.reorderLevel productId = l.reorderLevel productId) :
    TracksAt l' alerts (watched && l'.isLow productId) productId where
  single := h.single
  only := by
    intro alert halert
    rw [StockLedger.isLow_iff, honHand, hlevel, ← StockLedger.isLow_iff]
    exact h.only alert halert
  raised := by
    intro hwatched
    rw [Bool.and_eq_true] at hwatched
    exact h.raised hwatched.1
  critical := by
    rw [honHand]
    exact h.critical

/-! A movement on one product. -/

/-- What a movement changes of the quantities: `x` is computed, and stored rounded. -/
structure Shifts (l l' : StockLedger) (request : MovementRequest) (x : ℚ) : Prop where
  levels : ∀ productId, l'.reorderLevel productId = l.reorderLevel productId
  others : ∀ productId ≠ request.productId, l'.onHand productId = l.onHand productId
  computed : x = add (ofUnits 3 (l.onHand request.productId)) request.signedDelta
  nonneg : 0 ≤ x
  stored : l'.onHand request.productId = roundHalfAway (x * 10 ^ 3)
  quantity : 0 < request.quantity

theorem Executed.shifts {l l₁ l' : StockLedger} {request : MovementRequest} {stamp : MovementStamp}
    {product : Product} {level : StockLevel} {plan : MovementPlan}
    (h : Executed l l₁ l' request stamp product level plan) : Shifts l l' request plan.onHand := by
  obtain ⟨movement, hmoved⟩ := h.moved
  obtain ⟨honHand, hnonneg⟩ := planMovement_eq_ok h.planned
  have hcomputed : plan.onHand =
      add (ofUnits 3 (l.onHand request.productId)) request.signedDelta := by
    rw [honHand, h.opened.onHand]
    rfl
  refine ⟨?_, ?_, hcomputed, hnonneg, ?_, ?_⟩
  · intro productId
    unfold StockLedger.reorderLevel StockLedger.getProduct
    rw [h.products]
  · intro productId hother
    unfold StockLedger.onHand
    rw [hmoved.others productId hother]
  · obtain ⟨level', hlevels', hafter⟩ := hmoved.level
    rw [StockLedger.onHand, hlevels', hcomputed, ← Numeric.units_of_store hmoved.balance, ← hafter]
    rfl
  · have hpos := movement.positiveQuantity
    rw [Numeric.units_of_store hmoved.quantity] at hpos
    exact pos_of_mul_pos_left (pos_of_roundHalfAway_pos hpos) (pow_ten_pos 3).le

omit [Context] [Format] in
theorem le_ofUnits_iff {scale : ℕ} {x : ℚ} {a : ℤ} : x ≤ ofUnits scale a ↔ x * 10 ^ scale ≤ a := by
  rw [ofUnits, le_div_iff₀ (pow_ten_pos scale)]

omit [Context] [Format] in
theorem ofUnits_lt_iff {scale : ℕ} {x : ℚ} {a : ℤ} : ofUnits scale a < x ↔ a < x * 10 ^ scale := by
  rw [← not_le, le_ofUnits_iff, not_le]

omit [Format] in
theorem round_onHand (l : StockLedger) (productId : Uuid) :
    Context.round (ofUnits 3 (l.onHand productId)) = ofUnits 3 (l.onHand productId) := by
  apply Context.round_exact
  obtain ⟨hnonneg, hlt⟩ := onHand_bounds l productId
  omega

omit [Format] in
theorem Shifts.le_before {l l' : StockLedger} {request : MovementRequest} {x : ℚ}
    (h : Shifts l l' request x) (hdelta : request.signedDelta ≤ 0) :
    x * 10 ^ 3 ≤ l.onHand request.productId := by
  have hmono := Context.round_mono (show ofUnits 3 (l.onHand request.productId) +
    request.signedDelta ≤ ofUnits 3 (l.onHand request.productId) by linarith)
  rw [round_onHand] at hmono
  rw [← le_ofUnits_iff, h.computed]
  exact hmono

omit [Format] in
theorem Shifts.le_onHand {l l' : StockLedger} {request : MovementRequest} {x : ℚ}
    (h : Shifts l l' request x) (hdelta : 0 ≤ request.signedDelta) :
    l.onHand request.productId ≤ l'.onHand request.productId := by
  have hmono := Context.round_mono (show ofUnits 3 (l.onHand request.productId) ≤
    ofUnits 3 (l.onHand request.productId) + request.signedDelta by linarith)
  rw [round_onHand] at hmono
  have hle : ofUnits 3 (l.onHand request.productId) ≤ x := by
    rw [h.computed]
    exact hmono
  rw [h.stored, ← roundHalfAway_intCast (l.onHand request.productId),
    ← ofUnits_mul_pow 3 (l.onHand request.productId)]
  exact roundHalfAway_mono (mul_le_mul_of_nonneg_right hle (pow_ten_pos 3).le)

omit [Format] in
theorem Shifts.stored_le {l l' : StockLedger} {request : MovementRequest} {x : ℚ}
    (h : Shifts l l' request x) {threshold : ℤ} (hle : x * 10 ^ 3 ≤ threshold) :
    l'.onHand request.productId ≤ threshold := by
  rw [h.stored, ← roundHalfAway_intCast threshold]
  exact roundHalfAway_mono hle

omit [Context] [Format] in
theorem Clear.le_iff {threshold : ℤ} {x : ℚ} (hclear : Clear threshold x) (hnonneg : 0 ≤ x) :
    x * 10 ^ 3 ≤ threshold ↔ roundHalfAway (x * 10 ^ 3) ≤ threshold := by
  have hscaled : 0 ≤ x * 10 ^ 3 := mul_nonneg hnonneg (pow_ten_pos 3).le
  rw [roundHalfAway_of_nonneg hscaled, round_eq, ← Int.lt_add_one_iff, Int.floor_lt]
  push_cast
  constructor
  · intro hle
    linarith
  · intro hlt
    by_contra hgt
    exact hclear ⟨not_le.mp hgt, by linarith⟩

omit [Format] in
theorem Shifts.tracks_raised {l l' : StockLedger} {request : MovementRequest} {x : ℚ}
    {alerts alerts' : List Alert} {severity : AlertSeverity}
    (h : Shifts l l' request x) (hpositive : 0 < l.reorderLevel request.productId)
    (hlow : x * 10 ^ 3 ≤ l.reorderLevel request.productId)
    (hraised : ∃ alert, alerts' = [alert] ∧ severity.rank ≤ alert.severity.rank ∧
      ∀ existing ∈ alerts, existing.severity.rank ≤ alert.severity.rank)
    (hseverity : x ≤ 0 → severity = .critical)
    (hzero : Clear 0 x ∨ ∃ alert ∈ alerts, alert.severity = .critical) :
    TracksAt l' alerts' (l'.isLow request.productId) request.productId := by
  obtain ⟨alert, rfl, hrank, hexisting⟩ := hraised
  have hstored : l'.onHand request.productId ≤ l'.reorderLevel request.productId := by
    rw [h.levels]
    exact h.stored_le hlow
  refine ⟨le_rfl, ?_, fun _ => List.cons_ne_nil _ _, ?_⟩
  · intro _ _
    exact StockLedger.isLow_iff.mpr ⟨by rwa [h.levels], hstored⟩
  · intro honHand other hother
    obtain rfl := List.mem_singleton.mp hother
    have hgrave : AlertSeverity.critical.rank ≤ other.severity.rank := by
      rcases hzero with hclear | ⟨existing, hmem, hcritical⟩
      · have hnone : x ≤ 0 := by
          have hrounded : roundHalfAway (x * 10 ^ 3) ≤ 0 := by rw [← h.stored, honHand]
          have hscaled := (hclear.le_iff h.nonneg).mpr hrounded
          push_cast at hscaled
          linarith
        rw [← hseverity hnone]
        exact hrank
      · rw [← hcritical]
        exact hexisting existing hmem
    exact AlertSeverity.eq_critical hgrave

omit [Format] in
/-- A movement that resolves leaves the product above its level. -/
theorem Shifts.tracks_resolved {l l' : StockLedger} {request : MovementRequest} {x : ℚ}
    (h : Shifts l l' request x)
    (habove : l.reorderLevel request.productId < l'.onHand request.productId) (watched : Bool) :
    TracksAt l' [] (watched && l'.isLow request.productId) request.productId := by
  have hnot : l'.isLow request.productId = false := by
    rw [Bool.eq_false_iff, Ne, StockLedger.isLow_iff, h.levels]
    omega
  refine ⟨Nat.zero_le _, by simp, ?_, by simp⟩
  rw [hnot, Bool.and_false]
  exact fun hfalse => absurd hfalse (by decide)

omit [Format] in
/-- A movement that does neither leaves a low product low, and does not make one low that has no
alert. -/
theorem Shifts.tracks_kept {l l' : StockLedger} {request : MovementRequest} {x : ℚ}
    {alerts : List Alert} {watched : Bool} (h : Shifts l l' request x)
    (htracks : TracksAt l alerts watched request.productId)
    (hstill : l.isLow request.productId = true → 0 ≤ request.signedDelta ∧
      l'.onHand request.productId ≤ l'.reorderLevel request.productId)
    (hnot : request.signedDelta < 0 → l'.isLow request.productId = false) :
    TracksAt l' alerts ((decide (request.signedDelta < 0) || watched) &&
      l'.isLow request.productId) request.productId := by
  refine ⟨htracks.single, ?_, ?_, ?_⟩
  · intro alert halert
    have hlow := htracks.only alert halert
    rw [StockLedger.isLow_iff, h.levels]
    rw [StockLedger.isLow_iff] at hlow
    exact ⟨hlow.1, by simpa [h.levels] using (hstill (StockLedger.isLow_iff.mpr hlow)).2⟩
  · intro hwatched
    rw [Bool.and_eq_true, Bool.or_eq_true] at hwatched
    obtain ⟨houtflow | hbefore, hlow⟩ := hwatched
    · rw [hnot (of_decide_eq_true houtflow)] at hlow
      cases hlow
    · exact htracks.raised hbefore
  · intro hzero alert halert
    have hdelta := (hstill (htracks.only alert halert)).1
    have hrises := h.le_onHand hdelta
    have hnonneg := (onHand_bounds l request.productId).1
    exact htracks.critical (by omega) alert halert

theorem planMovement_signals {product : Product} {level : StockLevel} {request : MovementRequest}
    {plan : MovementPlan} (h : planMovement product level request = .ok plan) :
    plan.signal = lowStockSignal product request plan.onHand ∧
      plan.recovered = recoveredProduct product request level.quantityOnHand.val plan.onHand := by
  obtain ⟨-, averageCost, -, rfl⟩ := exists_averageCost_of_planMovement h
  exact ⟨rfl, rfl⟩

/-- An outflow leaves the computed on-hand at or below a positive reorder level. -/
def Raises (l : StockLedger) (request : MovementRequest) (x : ℚ) : Prop :=
  0 < l.reorderLevel request.productId ∧ request.signedDelta < 0 ∧
    x * 10 ^ 3 ≤ l.reorderLevel request.productId

/-- An inflow lifts it from there to above the level. -/
def Recovers (l : StockLedger) (request : MovementRequest) (x : ℚ) : Prop :=
  0 < l.reorderLevel request.productId ∧ 0 < request.signedDelta ∧
    l.onHand request.productId ≤ l.reorderLevel request.productId ∧
    l.reorderLevel request.productId < x * 10 ^ 3

theorem Executed.signals {l l₁ l' : StockLedger} {request : MovementRequest} {stamp : MovementStamp}
    {product : Product} {level : StockLevel} {plan : MovementPlan}
    (h : Executed l l₁ l' request stamp product level plan) :
    (Raises l request plan.onHand → ∃ signal, plan.signal = some signal ∧
      signal.productId = request.productId ∧ signal.onHand = plan.onHand) ∧
    (¬ Raises l request plan.onHand → plan.signal = none) ∧
    (Recovers l request plan.onHand → plan.recovered = some request.productId) ∧
    (¬ Recovers l request plan.onHand → plan.recovered = none) := by
  obtain ⟨hsignal, hrecovered⟩ := planMovement_signals h.planned
  have hid : product.id = request.productId := StockLedger.id_of_getProduct h.found
  have hlevel : product.reorderLevel.val = ofUnits 3 (l.reorderLevel request.productId) := by
    rw [StockLedger.reorderLevel, h.found]
    rfl
  have hbefore : level.quantityOnHand.val = ofUnits 3 (l.onHand request.productId) := by
    rw [Numeric.val, h.opened.onHand]
  have hraises : (0 < product.reorderLevel.val ∧ request.signedDelta < 0 ∧
      plan.onHand ≤ product.reorderLevel.val) ↔ Raises l request plan.onHand := by
    rw [hlevel, ofUnits_pos, le_ofUnits_iff, Raises]
  have hrecovers : (0 < product.reorderLevel.val ∧ 0 < request.signedDelta ∧
      level.quantityOnHand.val ≤ product.reorderLevel.val ∧
      product.reorderLevel.val < plan.onHand) ↔ Recovers l request plan.onHand := by
    rw [hlevel, hbefore, ofUnits_pos, ofUnits_le, ofUnits_lt_iff, Recovers]
  refine ⟨?_, ?_, ?_, ?_⟩
  · intro hraise
    exact ⟨_, hsignal.trans (if_pos (hraises.mpr hraise)), hid, rfl⟩
  · intro hraise
    exact hsignal.trans (if_neg (mt hraises.mp hraise))
  · intro hrecover
    rw [← hid]
    exact hrecovered.trans (if_pos (hrecovers.mpr hrecover))
  · intro hrecover
    exact hrecovered.trans (if_neg (mt hrecovers.mp hrecover))

omit [Context] [Format] in
theorem Raises.not_recovers {l : StockLedger} {request : MovementRequest} {x : ℚ}
    (h : Raises l request x) : ¬ Recovers l request x :=
  fun hrecovers => absurd h.2.1 (not_lt.mpr hrecovers.2.1.le)

omit [Format] in
theorem Shifts.tracks_quiet {s : Stockroom} {l' : StockLedger} {request : MovementRequest} {x : ℚ}
    {alerts : List Alert} {watched : Bool} (h : Shifts s.db.toStockLedger l' request x)
    (htracks : TracksAt s.db.toStockLedger alerts watched request.productId)
    (hclear : request.signedDelta < 0 → 0 < s.db.reorderLevel request.productId →
      Clear (s.db.reorderLevel request.productId) x)
    (hraises : ¬ Raises s.db.toStockLedger request x)
    (hrecovers : ¬ Recovers s.db.toStockLedger request x) :
    TracksAt l' alerts ((decide (request.signedDelta < 0) || watched) &&
      l'.isLow request.productId) request.productId := by
  apply h.tracks_kept htracks
  · intro hlow
    obtain ⟨hpositive, hbelow⟩ := StockLedger.isLow_iff.mp hlow
    have hunits : (s.db.onHand request.productId : ℚ) ≤ s.db.reorderLevel request.productId :=
      Int.cast_le.mpr hbelow
    have hdelta : 0 ≤ request.signedDelta := by
      by_contra hneg
      have hbefore := h.le_before (not_le.mp hneg).le
      exact hraises ⟨hpositive, not_le.mp hneg, hbefore.trans hunits⟩
    have hle : x * 10 ^ 3 ≤ s.db.reorderLevel request.productId := by
      by_contra habove
      have hgains : 0 < request.signedDelta := by
        by_contra hnone
        exact habove ((h.le_before (not_lt.mp hnone)).trans hunits)
      exact hrecovers ⟨hpositive, hgains, hbelow, not_le.mp habove⟩
    refine ⟨hdelta, ?_⟩
    rw [h.levels]
    exact h.stored_le hle
  · intro hdelta
    rw [Bool.eq_false_iff, Ne, StockLedger.isLow_iff, h.levels]
    rintro ⟨hpositive, hbelow⟩
    rw [h.stored] at hbelow
    exact hraises ⟨hpositive, hdelta, ((hclear hdelta hpositive).le_iff h.nonneg).mpr hbelow⟩

/-- A movement with the alerts that the service sends after it, on its own product. -/
theorem Executed.tracks {s : Stockroom} {l₁ l' : StockLedger} {request : MovementRequest}
    {stamp : MovementStamp} {product : Product} {level : StockLevel} {plan : MovementPlan}
    {id : Uuid} {now : DateTime}
    (h : Executed s.db.toStockLedger l₁ l' request stamp product level plan)
    (hfresh : ∀ alert ∈ s.alerts.alerts.rows, alert.id ≠ id) (hclear : MovementClear s request)
    (htracks : TracksAt s.db.toStockLedger (s.alerts.active (lowStockKey request.productId))
      (s.watched request.productId) request.productId) :
    TracksAt l' ((maybeResolveLowStock plan.recovered id now
        (maybeRaiseLowStock plan.signal id now s.alerts)).active (lowStockKey request.productId))
      ((decide (request.signedDelta < 0) || s.watched request.productId) &&
        l'.isLow request.productId) request.productId := by
  have hshifts := h.shifts
  obtain ⟨hraise, hsilent, hrecover, hquiet⟩ := h.signals
  rw [MovementClear, ← hshifts.computed] at hclear
  by_cases hraises : Raises s.db.toStockLedger request plan.onHand
  · obtain ⟨hpositive, hdelta, hlow⟩ := hraises
    obtain ⟨signal, hsignal, hproduct, honHand⟩ := hraise ⟨hpositive, hdelta, hlow⟩
    have hnone := hquiet (Raises.not_recovers ⟨hpositive, hdelta, hlow⟩)
    rw [hsignal, hnone, decide_eq_true hdelta, Bool.true_or, Bool.true_and]
    simp only [maybeRaiseLowStock, maybeResolveLowStock, hproduct]
    refine hshifts.tracks_raised hpositive hlow
      (AlertStore.active_serve_escalate htracks.single hfresh) ?_ ((hclear hpositive).2 hdelta)
    intro hzero
    rw [lowStockAlertCreate, honHand]
    exact if_pos hzero
  · by_cases hrecovers : Recovers s.db.toStockLedger request plan.onHand
    · obtain ⟨hpositive, hdelta, hbelow, habove⟩ := hrecovers
      rw [hsilent hraises, hrecover ⟨hpositive, hdelta, hbelow, habove⟩]
      simp only [maybeRaiseLowStock, maybeResolveLowStock, AlertStore.active_serve_resolve]
      apply hshifts.tracks_resolved
      rw [hshifts.stored]
      by_contra hnot
      have hstays := ((hclear hpositive).1 (.inr hbelow)).le_iff hshifts.nonneg
      exact absurd (hstays.mpr (not_lt.mp hnot)) (not_le.mpr habove)
    · rw [hsilent hraises, hquiet hrecovers]
      exact hshifts.tracks_quiet htracks (fun hdelta hpositive => (hclear hpositive).1 (.inl hdelta))
        hraises hrecovers

omit [Context] in
theorem active_lowStock_other {product other : Uuid} (hne : other ≠ product)
    {signal : Option LowStockSignal} (hsignal : ∀ sent ∈ signal, sent.productId = product)
    {recovered : Option Uuid} (hrecovered : ∀ id ∈ recovered, id = product) {alerts : AlertStore}
    {id : Uuid} {now : DateTime} (hfresh : ∀ alert ∈ alerts.alerts.rows, alert.id ≠ id) :
    (maybeResolveLowStock recovered id now (maybeRaiseLowStock signal id now alerts)).active
      (lowStockKey other) = alerts.active (lowStockKey other) := by
  have hkey : lowStockKey other ≠ lowStockKey product := lowStockKey_injective.ne hne
  have hraised : (maybeRaiseLowStock signal id now alerts).active (lowStockKey other) =
      alerts.active (lowStockKey other) := by
    cases signal with
    | none => rfl
    | some sent =>
      simp only [maybeRaiseLowStock, hsignal sent rfl]
      exact AlertStore.active_serve_escalate_other hkey hfresh
  cases recovered with
  | none => exact hraised
  | some lifted =>
    simp only [maybeResolveLowStock, hrecovered lifted rfl]
    rw [AlertStore.active_serve_resolve_other hkey, hraised]

omit [Context] in
theorem reconcileLowStockAlert_eq {l : StockLedger} {productId : Uuid} {product : Product}
    {level : StockLevel} {id : Uuid} {now : DateTime} (alerts : AlertStore)
    (hfound : l.getProduct productId = some product) (hlevels : l.levelsOf productId = [level]) :
    reconcileLowStockAlert productId id now l alerts =
      if 0 < l.reorderLevel productId ∧ l.reorderLevel productId < l.onHand productId then
        maybeResolveLowStock (some productId) id now alerts
      else alerts := by
  have hreorder : product.reorderLevel.val = ofUnits 3 (l.reorderLevel productId) := by
    rw [StockLedger.reorderLevel, hfound]
    rfl
  have honHand : level.quantityOnHand.val = ofUnits 3 (l.onHand productId) := by
    rw [StockLedger.onHand, hlevels]
    rfl
  unfold reconcileLowStockAlert
  simp only [hfound, hlevels, List.head?_cons, hreorder, honHand, ofUnits_pos, ofUnits_lt]

theorem Executed.tracks_reconciled {s : Stockroom} {l₁ l' : StockLedger} {request : MovementRequest}
    {stamp : MovementStamp} {product : Product} {level : StockLevel} {plan : MovementPlan}
    {id : Uuid} {now : DateTime}
    (h : Executed s.db.toStockLedger l₁ l' request stamp product level plan)
    (hdelta : 0 ≤ request.signedDelta)
    (htracks : TracksAt s.db.toStockLedger (s.alerts.active (lowStockKey request.productId))
      (s.watched request.productId) request.productId) :
    TracksAt l' ((reconcileLowStockAlert request.productId id now l' s.alerts).active
        (lowStockKey request.productId))
      (s.watched request.productId && l'.isLow request.productId) request.productId := by
  have hshifts := h.shifts
  have hfound : l'.getProduct request.productId = some product := by
    rw [StockLedger.getProduct, h.products]
    exact h.found
  obtain ⟨movement, hmoved⟩ := h.moved
  obtain ⟨level', hlevels', -⟩ := hmoved.level
  rw [reconcileLowStockAlert_eq s.alerts hfound hlevels']
  by_cases habove : 0 < l'.reorderLevel request.productId ∧
      l'.reorderLevel request.productId < l'.onHand request.productId
  · rw [if_pos habove]
    simp only [maybeResolveLowStock, AlertStore.active_serve_resolve]
    exact hshifts.tracks_resolved (by rw [← hshifts.levels]; exact habove.2) _
  · rw [if_neg habove]
    have hinflow : decide (request.signedDelta < 0) = false := decide_eq_false (not_lt.mpr hdelta)
    rw [← Bool.false_or (s.watched request.productId), ← hinflow]
    apply hshifts.tracks_kept htracks
    · intro hlow
      refine ⟨hdelta, not_lt.mp ?_⟩
      intro hlift
      apply habove
      rw [hshifts.levels] at hlift ⊢
      exact ⟨(StockLedger.isLow_iff.mp hlow).1, hlift⟩
    · intro houtflow
      exact absurd houtflow (not_lt.mpr hdelta)

omit [Format] [Context] in
theorem updateProduct_eq_ok {productId : Uuid} {data : ProductUpdate}
    {faults : Faults Site ServiceError} {db db' : Db} {u : Unit}
    (h : updateProduct productId data faults db = .ok u db') :
    (∀ other, db'.onHand other = db.onHand other) ∧
      (∀ other ≠ productId, db'.reorderLevel other = db.reorderLevel other) ∧
      (data.reorderLevel = none → db'.reorderLevel productId = db.reorderLevel productId) ∧
      ∀ level ∈ data.reorderLevel, db'.reorderLevel productId = roundHalfAway (level * 10 ^ 3) := by
  simp only [updateProduct, bind_eq_ok, select_eq_ok, getOrRaise_eq_ok, flush_eq_ok, commit,
    site_eq_ok, Db.onStock, Option.map_eq_some_iff] at h
  obtain ⟨_, _, ⟨-, rfl, rfl⟩, product, _, ⟨hfound, rfl⟩, _, _, ⟨-, l', hwrite, rfl⟩, -, rfl⟩ := h
  simp only [StockLedger.writeProduct, Option.bind_eq_bind, Option.bind_eq_some_iff] at hwrite
  obtain ⟨products, hupdate, hl'⟩ := hwrite
  obtain rfl := Option.some.inj hl'
  obtain rfl := StockLedger.id_of_getProduct hfound
  have hids : ∀ (id : Uuid) (a a' : Product), StockLedger.productRow? data product a = some a' →
      (a'.id == id) = (a.id == id) := by
    intro id a a' ha
    rw [(StockLedger.productRow?_eq_some ha).1]
  have hmem : product ∈ db.products.rows := by
    have hfind : db.products.find? (·.id == product.id) = some product := hfound
    exact Table.mem_of_find? hfind
  obtain ⟨product', hproduct'⟩ := Table.isSome_of_update? hupdate hmem (beq_self_eq_true _)
  have hown : StockLedger.reorderLevel { db.toStockLedger with products } product.id =
      product'.reorderLevel.units := by
    have hfind := Table.find?_of_update? hupdate (hids product.id)
    have hbefore : db.products.find? (·.id == product.id) = some product := hfound
    rw [hbefore] at hfind
    unfold StockLedger.reorderLevel StockLedger.getProduct
    rw [hfind]
    simp [Table.updated, hproduct']
  have hset := (StockLedger.productRow?_eq_some hproduct').2.2
  refine ⟨fun _ => rfl, ?_, ?_, ?_⟩
  · intro other hother
    have hfind := Table.find?_of_update?_neg hupdate (hids other)
      (by intro a ha; rw [beq_iff_eq] at ha; simp [ha, hother])
    show StockLedger.reorderLevel { db.toStockLedger with products } other = _
    unfold StockLedger.reorderLevel StockLedger.getProduct
    rw [hfind]
  · intro hnone
    rw [hnone] at hset
    obtain hsame := Option.some.inj hset
    show StockLedger.reorderLevel { db.toStockLedger with products } product.id = _
    rw [hown, ← hsame, StockLedger.reorderLevel, hfound]
    rfl
  · intro level hlevel
    rw [Option.mem_def.mp hlevel] at hset
    have hstored : Numeric.store? 18 3 level = some product'.reorderLevel := by
      simpa using hset
    show StockLedger.reorderLevel { db.toStockLedger with products } product.id = _
    rw [hown, Numeric.units_of_store hstored]

end

end Finguard
