import Finguard.LowStock

/-! The low-stock alerts over every run of requests. -/

namespace Finguard
open Decimal Text Transaction Transaction.Tx

section
variable [Format] [Context]

/-! One request, and every run of them. -/

/-- Every product's alerts agree with its stock. -/
def Stockroom.Kept (s : Stockroom) : Prop := ∀ productId, TracksAt s.db.toStockLedger
  (s.alerts.active (lowStockKey productId)) (s.watched productId) productId

theorem StockRequest.run_applied {request : StockRequest} {faults : Faults Site ServiceError}
    {db db' : Db} {u : Unit} (h : request.run faults db = .ok u db')
    (hnot : ∀ data actorId id stamp, request ≠ .createStockPurchase data actorId id stamp) :
    ∃ r, applyMovement request.movement request.stamp faults db = .ok r db' := by
  cases request with
  | recordMovement productId data actorId stamp =>
    simp only [StockRequest.run, Finguard.recordMovement, bind_eq_ok, raiseIf_eq_ok, commit,
      site_eq_ok, pure_apply, Outcome.ok.injEq] at h
    obtain ⟨_, _, ⟨_, _, ⟨-, rfl⟩, r, _, happly, _, _, ⟨-, rfl⟩, -, rfl⟩, -, rfl⟩ := h
    exact ⟨r, happly⟩
  | adjustStock productId data actorId stamp =>
    simp only [StockRequest.run, Finguard.adjustStock, bind_eq_ok, raiseIf_eq_ok, commit,
      site_eq_ok, pure_apply, Outcome.ok.injEq] at h
    obtain ⟨_, _, ⟨_, _, ⟨-, rfl⟩, r, _, happly, _, _, ⟨-, rfl⟩, -, rfl⟩, -, rfl⟩ := h
    exact ⟨r, happly⟩
  | createStockPurchase data actorId id stamp => exact absurd rfl (hnot data actorId id stamp)

/-- A movement and the alerts after it, for every product. -/
theorem Stockroom.Kept.moved {s : Stockroom} {request : StockRequest} {db' : Db}
    {faults : Faults Site ServiceError} {id : Uuid} {now : DateTime} {u : Unit} (h : s.Kept)
    (hrun : request.run faults s.db = .ok u db')
    (hnot : ∀ data actorId id stamp, request ≠ .createStockPurchase data actorId id stamp)
    (hfresh : ∀ alert ∈ s.alerts.alerts.rows, alert.id ≠ id)
    (hclear : MovementClear s request.movement) (productId : Uuid) :
    TracksAt db'.toStockLedger ((maybeResolveLowStock (alertSignals request faults s.db).2 id now
        (maybeRaiseLowStock (alertSignals request faults s.db).1 id now s.alerts)).active
          (lowStockKey productId))
      ((decide (request.movement.productId = productId ∧ request.movement.signedDelta < 0) ||
        s.watched productId) && db'.isLow productId) productId := by
  obtain ⟨r, happly⟩ := StockRequest.run_applied hrun hnot
  obtain ⟨l₁, l', product, level, plan, hexecuted, hdb, rfl⟩ := applyMovement_executed happly
  have hsignals : alertSignals request faults s.db = (plan.signal, plan.recovered) := by
    rw [alertSignals, happly]
  rw [hsignals, hdb]
  by_cases hproduct : productId = request.movement.productId
  · subst hproduct
    simpa using hexecuted.tracks hfresh hclear (h request.movement.productId)
  · have hother : decide (request.movement.productId = productId ∧
        request.movement.signedDelta < 0) = false :=
      decide_eq_false (fun hboth => hproduct hboth.1.symm)
    obtain ⟨hraise, hsilent, hrecover, hquiet⟩ := hexecuted.signals
    rw [hother, Bool.false_or, active_lowStock_other hproduct ?_ ?_ hfresh]
    · exact (h productId).frame (hexecuted.shifts.others productId hproduct)
        (hexecuted.shifts.levels productId)
    · intro sent hsent
      by_cases hraises : Raises s.db.toStockLedger request.movement plan.onHand
      · obtain ⟨signal, hsignal, hid, -⟩ := hraise hraises
        rw [hsignal] at hsent
        rwa [← Option.some.inj hsent]
      · rw [hsilent hraises] at hsent
        cases hsent
    · intro lifted hlifted
      by_cases hrecovers : Recovers s.db.toStockLedger request.movement plan.onHand
      · rw [hrecover hrecovers] at hlifted
        exact (Option.some.inj hlifted).symm
      · rw [hquiet hrecovers] at hlifted
        cases hlifted


theorem Stockroom.Kept.purchased {s : Stockroom} {data : StockPurchaseCreate}
    {actorId : Option Uuid} {id alertId : Uuid} {stamp : MovementStamp} {db' : Db}
    {faults : Faults Site ServiceError} {now : DateTime} {u : Unit} (h : s.Kept)
    (hrun : (StockRequest.createStockPurchase data actorId id stamp).run faults s.db = .ok u db')
    (productId : Uuid) :
    TracksAt db'.toStockLedger ((reconcileLowStockAlert data.productId alertId now
        db'.toStockLedger s.alerts).active (lowStockKey productId))
      (s.watched productId && db'.isLow productId) productId := by
  obtain ⟨l₁, product, level, plan, hexecuted⟩ := StockRequest.run_executed hrun
  have hshifts := hexecuted.shifts
  have hdelta : 0 ≤ (StockRequest.createStockPurchase data actorId id stamp).movement.signedDelta :=
    hshifts.quantity.le
  by_cases hproduct : productId = data.productId
  · subst hproduct
    exact hexecuted.tracks_reconciled hdelta (h data.productId)
  · have hkept : (reconcileLowStockAlert data.productId alertId now db'.toStockLedger
        s.alerts).active (lowStockKey productId) = s.alerts.active (lowStockKey productId) := by
      unfold reconcileLowStockAlert
      split
      · split
        · exact AlertStore.active_serve_resolve_other (lowStockKey_injective.ne hproduct) _
        · rfl
      · rfl
    rw [hkept]
    exact (h productId).frame (hshifts.others productId hproduct) (hshifts.levels productId)

omit [Context] in
theorem Stockroom.Kept.updated {s : Stockroom} {productId : Uuid} {data : ProductUpdate} {db' : Db}
    {faults : Faults Site ServiceError} {u : Unit} (h : s.Kept)
    (hrun : updateProduct productId data faults s.db = .ok u db')
    (hclear : LevelClear s productId data) (other : Uuid) :
    TracksAt db'.toStockLedger (s.alerts.active (lowStockKey other))
      (s.watched other && db'.isLow other) other := by
  obtain ⟨honHand, hothers, hkept, hset⟩ := updateProduct_eq_ok hrun
  by_cases hproduct : other = productId
  · subst hproduct
    cases hlevel : data.reorderLevel with
    | none => exact (h other).frame (honHand other) (hkept hlevel)
    | some level =>
      have hafter := hset level hlevel
      refine ⟨(h other).single, ?_, ?_, ?_⟩
      · intro alert halert
        obtain ⟨hpositive, hbelow⟩ := hclear (List.ne_nil_of_mem halert) level hlevel
        rw [StockLedger.isLow_iff, hafter, honHand]
        exact ⟨hpositive, hbelow⟩
      · intro hwatched
        rw [Bool.and_eq_true] at hwatched
        exact (h other).raised hwatched.1
      · rw [honHand]
        exact (h other).critical
  · exact (h other).frame (honHand other) (hothers other hproduct)

theorem Stockroom.Kept.next {s : Stockroom} {action : StockroomAction} (h : s.Kept)
    (hsteady : Steady s action) : (stockroomNext action s).Kept := by
  unfold stockroomNext
  cases hrun : action.request.run action.faults s.db with
  | ok u db' =>
    have hsome : (action.request.run action.faults s.db).value?.isSome := by
      rw [hrun]
      rfl
    have hclear := hsteady.clear hsome
    intro productId
    obtain ⟨request, faults, alertId, now⟩ := action
    cases request with
    | updateProduct updated data =>
      show TracksAt _ _ ((false || _) && _) _
      rw [Bool.false_or]
      exact h.updated hrun hclear productId
    | stock request =>
      have hmoves : request.run faults s.db = .ok u db' := hrun
      cases request with
      | createStockPurchase data actorId id stamp =>
        have hinflow : (StockroomRequest.stock (.createStockPurchase data actorId id stamp)).outflowOf
            productId = false := by
          obtain ⟨l₁, product, level, plan, hexecuted⟩ := StockRequest.run_executed hmoves
          have hdelta : 0 < data.quantity := hexecuted.shifts.quantity
          exact decide_eq_false (fun hboth => absurd hboth.2 (not_lt.mpr hdelta.le))
        show TracksAt _ _ ((_ || _) && _) _
        rw [hinflow, Bool.false_or]
        exact h.purchased hmoves productId
      | recordMovement moved data actorId stamp =>
        exact h.moved hmoves (by simp) hsteady.fresh hclear productId
      | adjustStock moved data actorId stamp =>
        exact h.moved hmoves (by simp) hsteady.fresh hclear productId
  | raised e db' => exact h
  | aborted e => exact h

/-- In a run of steady requests from a stockroom without an active alert, the alerts agree with the
stock. -/
theorem low_stock_alert_tracks {start : Stockroom} {actions : List StockroomAction}
    (hquiet : ∀ productId, start.alerts.active (lowStockKey productId) = [])
    (hunwatched : ∀ productId, start.watched productId = false)
    (hsteady : Runs.Each stockroomNext Steady actions start) :
    Tracks (Runs.after stockroomNext actions start) := by
  have hstart : start.Kept := by
    intro productId
    rw [hquiet]
    refine ⟨Nat.zero_le _, by simp, ?_, by simp⟩
    rw [hunwatched]
    exact fun hfalse => absurd hfalse (by decide)
  have hkept : (Runs.after stockroomNext actions start).Kept :=
    hsteady.invariant (fun _ _ h hstep => h.next hstep) hstart
  refine ⟨fun productId => (hkept productId).only, ?_, fun productId => (hkept productId).critical⟩
  intro productId hwatched
  exact List.exists_mem_of_ne_nil _ ((hkept productId).raised hwatched)

end

/-! A product that is sold down to its reorder level. -/

/-- Ten units are received under a reorder level of five, and some are sold. -/
def soldDown (quantity : ℚ) (quantity_pos : 0 < quantity) : List StockroomAction :=
  [⟨.stock receiveTen, noFaults, 80, 1⟩,
    ⟨.updateProduct 1 { reorderLevel := some 5 }, noFaults, 81, 2⟩,
    ⟨.stock (sell quantity quantity_pos), noFaults, 82, 3⟩]

def stockroom : Stockroom := ⟨oneProduct, {}, fun _ => false⟩

/-- The severities of the active alerts of the product, whether it is low, and whether it is
watched. -/
def Stockroom.view [Format] (s : Stockroom) : List AlertSeverity × Bool × Bool :=
  ((s.alerts.active (lowStockKey 1)).map (·.severity), s.db.isLow 1, s.watched 1)

theorem Tracks.view_low [Format] {s : Stockroom} (h : Tracks s) (hactive : s.view.1 ≠ []) :
    s.view.2.1 = true := by
  obtain ⟨severity, hseverity⟩ := List.exists_mem_of_ne_nil _ hactive
  obtain ⟨alert, halert, -⟩ := List.mem_map.mp hseverity
  exact h.only 1 alert halert

/-- Six of ten are sold under a reorder level of five. -/
theorem soldDown_tracks :
    letI := Context.default
    letI := Format.plain
    (Runs.after stockroomNext (soldDown 6 (by norm_num)) stockroom).view =
        ([.warning], true, true) ∧
      Tracks (Runs.after stockroomNext (soldDown 6 (by norm_num)) stockroom) := by
  have hsteady : letI := Context.default; letI := Format.plain;
      Runs.Each stockroomNext Steady (soldDown 6 (by norm_num)) stockroom := by
    decide +kernel
  let := Context.default
  let := Format.plain
  exact ⟨by decide +kernel, low_stock_alert_tracks (fun _ => rfl) (fun _ => rfl) hsteady⟩

/-- Then the level is lowered below the four on hand. -/
theorem loweredLevel_keeps_alert :
    letI := Context.default
    letI := Format.plain
    (Runs.after stockroomNext (soldDown 6 (by norm_num) ++
        [⟨.updateProduct 1 { reorderLevel := some 3 }, noFaults, 83, 4⟩]) stockroom).view =
        ([.warning], false, false) ∧
      ¬ Tracks (Runs.after stockroomNext (soldDown 6 (by norm_num) ++
        [⟨.updateProduct 1 { reorderLevel := some 3 }, noFaults, 83, 4⟩]) stockroom) := by
  let := Context.default
  let := Format.plain
  have hview : (Runs.after stockroomNext (soldDown 6 (by norm_num) ++
      [⟨.updateProduct 1 { reorderLevel := some 3 }, noFaults, 83, 4⟩]) stockroom).view =
        ([.warning], false, false) := by
    decide +kernel
  refine ⟨hview, ?_⟩
  intro h
  have hlow := h.view_low
  rw [hview] at hlow
  exact absurd (hlow (List.cons_ne_nil _ _)) (by decide)

end Finguard
