import Finguard.StockRelease

/-! A movement that is previewed and the same movement applied. -/

namespace Finguard
open Decimal Text Transaction Transaction.Tx

section
variable [Context] [Format] [Python]

/-! The movements that are refused. -/

/-- What the tool turns into an answer. -/
def ServiceError.answered : ServiceError → Prop
  | .unprocessable _ => True
  | .value _ => True
  | _ => False

/-- Where the transaction fails with an answer, it has written nothing since `start`. -/
def Refuses {α : Type} (start : Db) (x : AppTx α) (db : Db) : Prop :=
  ∀ e db', x noFaults db = .raised e db' → e.answered → db' = start

namespace Refuses
variable {α β : Type} {start db : Db}

omit [Context] [Format] [Python] in
theorem bind {x : AppTx α} {k : α → AppTx β} (hx : Refuses start x db)
    (hk : ∀ a db₁, x noFaults db = .ok a db₁ → Refuses start (k a) db₁) :
    Refuses start (x >>= k) db := by
  intro e db' h hanswered
  rw [bind_apply] at h
  cases hrun : x noFaults db with
  | ok a db₁ =>
    rw [hrun] at h
    exact hk a db₁ hrun e db' h hanswered
  | raised e₁ db₁ =>
    rw [hrun] at h
    cases h
    exact hx e db' hrun hanswered
  | aborted e₁ =>
    rw [hrun] at h
    cases h

omit [Context] [Format] [Python] in
theorem pure (a : α) : Refuses start (Pure.pure a : AppTx α) db := nofun

omit [Context] [Format] [Python] in
theorem raise_here {e : ServiceError} : Refuses start (raise e : AppTx α) start := by
  rintro _ _ ⟨⟩ -
  rfl

omit [Context] [Format] [Python] in
theorem raise {e : ServiceError} (he : ¬ e.answered) : Refuses start (Tx.raise e : AppTx α) db := by
  rintro _ _ ⟨⟩ hanswered
  exact absurd hanswered he

omit [Context] [Format] [Python] in
theorem select (p : Site) (f : Db → α) : Refuses start (Tx.select p f : AppTx α) db := nofun

omit [Context] [Format] [Python] in
theorem getOrRaise (o : Option α) {e : ServiceError} :
    Refuses start (Tx.getOrRaise o e : AppTx α) start := by
  cases o with
  | none => exact raise_here
  | some a => exact pure a

omit [Context] [Format] [Python] in
theorem raiseIf (c : Prop) [Decidable c] {e : ServiceError} :
    Refuses start (Tx.raiseIf c e : AppTx Unit) start := by
  unfold Tx.raiseIf
  by_cases hc : c
  · rw [if_pos hc]
    exact raise_here
  · rw [if_neg hc]
    exact pure ()

omit [Context] [Format] [Python] in
/-- A refused write aborts the transaction. -/
theorem flush (p : Site) (refused : ServiceError) (f : Db → Option Db) :
    Refuses start (Tx.flush p refused f : AppTx Unit) db := by
  intro e db' h _
  change write refused f noFaults db = .raised e db' at h
  unfold write at h
  cases hf : f db with
  | none =>
    rw [hf] at h
    cases h
  | some t =>
    rw [hf] at h
    cases h

end Refuses

omit [Python] in
theorem planMovement_eq_error {product : Product} {level : StockLevel} {request : MovementRequest}
    {e : ServiceError} (hnonneg : 0 ≤ add level.quantityOnHand.val request.signedDelta)
    (h : planMovement product level request = .error e) : ¬ e.answered := by
  unfold planMovement at h
  rw [if_neg (fun hboth => absurd hboth.1 (not_lt.mpr hnonneg)),
    if_neg (not_lt.mpr hnonneg)] at h
  cases haverage : newAverageCost level request with
  | none =>
    rw [haverage] at h
    cases h
    exact id
  | some average =>
    rw [haverage] at h
    cases h

omit [Context] [Format] [Python] in
theorem getOrCreateLevel_refuses (productId levelId : Uuid) (start db : Db) :
    Refuses start (getOrCreateLevel productId levelId) db := by
  refine .bind (.select _ _) ?_
  intro levels db₁ _
  rcases levels with _ | ⟨level, _ | ⟨second, rest⟩⟩
  · exact .bind (.flush _ _ _) fun _ _ _ => .pure _
  · exact .pure _
  · exact .raise id

omit [Python] in
theorem applyMovement_refuses {request : MovementRequest} {stamp : MovementStamp} {db : Db}
    (hnonneg : 0 ≤ add (ofUnits 3 (db.onHand request.productId)) request.signedDelta) :
    Refuses db (applyMovement request stamp) db := by
  refine .bind (.select _ _) ?_
  rintro found db₁ ⟨⟩
  refine .bind (.getOrRaise _) ?_
  intro product db₁ hproduct
  obtain ⟨-, rfl⟩ := getOrRaise_eq_ok.mp hproduct
  refine .bind (.raiseIf _) ?_
  intro _ db₁ hactive
  obtain ⟨-, rfl⟩ := raiseIf_eq_ok.mp hactive
  refine .bind (getOrCreateLevel_refuses _ _ _ _) ?_
  intro level db₁ hlevel
  obtain ⟨l₁, hopened, -, -⟩ := getOrCreateLevel_eq_ok hlevel
  rw [hopened.onHand] at hnonneg
  cases hplan : planMovement product level request with
  | error e => exact .raise (planMovement_eq_error hnonneg hplan)
  | ok plan =>
    exact .bind (.select _ _) fun _ _ _ => .bind (.flush _ _ _) fun _ _ _ =>
      .bind (.select _ _) fun _ _ _ => .pure _

omit [Format] [Context] in
theorem readReason_refuses (reason : Json) (db : Db) : Refuses db (readReason reason) db := by
  cases reason with
  | text s => exact .getOrRaise _
  | _ => exact .raise_here

omit [Format] [Context] in
theorem readOptionalReason_refuses (reason : Json) (db : Db) :
    Refuses db (readOptionalReason reason) db := by
  unfold readOptionalReason
  by_cases hgiven : reason.truthy = true
  · rw [if_pos hgiven]
    exact .bind (readReason_refuses reason db) fun _ _ _ => .pure _
  · rw [if_neg hgiven]
    exact .pure _

omit [Format] [Context] in
theorem readNote_refuses (schema : String) (note : Json) (db : Db) :
    Refuses db (readNote schema note) db := by
  cases note with
  | null => exact .pure _
  | text s => exact .pure _
  | _ => exact .raise_here

omit [Format] [Context] in
theorem readUnitCost_refuses (unitCost : Json) (db : Db) : Refuses db (readUnitCost unitCost) db := by
  unfold readUnitCost
  by_cases hnull : unitCost.isNull = true
  · rw [if_pos hnull]
    exact .pure _
  · rw [if_neg hnull]
    exact .bind (.getOrRaise _) fun _ _ _ => .pure _

omit [Format] [Context] in
theorem finiteCost_refuses (schema : String) (unitCost : Json) (cost : Option Number) (db : Db) :
    Refuses db (finiteCost schema unitCost cost) db := by
  rcases cost with _ | _ | _ | _
  · exact .pure _
  · exact .pure _
  · exact .raise_here
  · exact .raise_here

theorem applyAccepted_refuses {args : MovementArgs} {db : Db} {accepted : AcceptedMovement}
    (actorId : Option Uuid) (stamp : MovementStamp) (hgated : Gated args db accepted)
    (hshort : Short accepted.quantity) :
    Refuses db (applyAccepted accepted args actorId stamp) db := by
  unfold applyAccepted
  by_cases hadjustment : accepted.movementType = .adjustment
  · rw [if_pos hadjustment]
    refine .bind (readReason_refuses _ db) ?_
    intro reason db₁ hreason
    obtain rfl := readReason_eq_ok hreason
    refine .bind (readNote_refuses _ _ db₁) ?_
    intro note db₂ hnote
    obtain rfl := readNote_eq_ok hnote
    rw [dif_pos hgated.nonzero]
    have hasks : Asks accepted db₂ ((⟨accepted.quantity, reason, note, hgated.nonzero⟩ :
        StockAdjustmentCreate).request accepted.product.id actorId) :=
      hgated.adjustment_asks hshort hadjustment rfl actorId
    refine .bind (.raiseIf _) ?_
    intro _ db₃ hraise
    obtain ⟨-, rfl⟩ := raiseIf_eq_ok.mp hraise
    exact .bind (applyMovement_refuses (hasks.resulting ▸ hgated.nonneg)) fun _ _ _ =>
      .bind nofun fun _ _ _ => .pure _
  · rw [if_neg hadjustment]
    refine .bind (readUnitCost_refuses _ db) ?_
    intro cost db₁ hcost
    obtain rfl := readUnitCost_eq_ok hcost
    refine .bind (readOptionalReason_refuses _ db₁) ?_
    intro reason db₂ hreason
    obtain rfl := readOptionalReason_eq_ok hreason
    refine .bind (finiteCost_refuses _ _ _ db₂) ?_
    intro unitCost db₃ hunit
    obtain rfl := finiteCost_eq_ok hunit
    refine .bind (readNote_refuses _ _ db₃) ?_
    intro note db₄ hnote
    obtain rfl := readNote_eq_ok hnote
    split
    · rename_i hdata
      have hasks : Asks accepted db₄ ((⟨accepted.movementType, accepted.quantity, unitCost, reason,
          note, none, none, hdata.1, hdata.2.1, hdata.2.2⟩ :
          InventoryMovementCreate).request accepted.product.id actorId) :=
        hgated.routine_asks hshort hadjustment rfl rfl actorId
      refine .bind (.raiseIf _) ?_
      intro _ db₅ hraise
      obtain ⟨-, rfl⟩ := raiseIf_eq_ok.mp hraise
      exact .bind (applyMovement_refuses (hasks.resulting ▸ hgated.nonneg)) fun _ _ _ =>
        .bind nofun fun _ _ _ => .pure _
    · exact .raise_here

/-! Preview and apply. -/

section agreement
variable {β : Type} (float : ℚ → β)

def Proposes (args : MovementArgs) (actorId : Option Uuid) (stamp : MovementStamp) (db : Db) (r : β) :
    Prop :=
  ∃ result db', proposeStockMovement args false actorId stamp noFaults db =
      .ok (.answered result) db' ∧
    result.status = "proposed" ∧ result.resultingOnHand.map float = some r

def Applies (args : MovementArgs) (actorId : Option Uuid) (stamp : MovementStamp) (db : Db) (r : β) :
    Prop :=
  ∃ base movement db' result, proposeStockMovement args true actorId stamp noFaults db =
      .ok (.committed base movement) db' ∧
    (auditMovement true base actorId movement db').1 = some result ∧
    result.status = "applied" ∧ result.resultingOnHand.map float = some r

/-- The two runs of the tool agree, and a rejected run leaves the stock as it was. -/
structure PreviewAgrees (args : MovementArgs) (actorId : Option Uuid) (stamp : MovementStamp)
    (db : Db) : Prop where
  agrees : ∀ r, Proposes float args actorId stamp db r ↔ Applies float args actorId stamp db r
  rejected : ∀ result db', proposeStockMovement args true actorId stamp noFaults db =
    .ok (.answered result) db' → result.status = "rejected" →
      db'.toStockLedger = db.toStockLedger

/-- The on-hand reads the same rounded half to even and rounded half up. -/
def ShownAlike (accepted : AcceptedMovement) (db : Db) : Prop :=
  float (ofUnits 3 (roundHalfEven (accepted.resulting db * 10 ^ 3))) =
    float (ofUnits 3 (roundHalfAway (accepted.resulting db * 10 ^ 3)))

variable {float} {args : MovementArgs} {actorId : Option Uuid} {stamp : MovementStamp} {db : Db}
  {accepted : AcceptedMovement}

omit [Format] [Python] in
theorem Gated.resultingOnHand_eq (h : Gated args db accepted) : accepted.base.resultingOnHand =
    some (ofUnits 3 (roundHalfEven (accepted.resulting db * 10 ^ 3))) := by
  obtain ⟨shown, hshown⟩ := Option.isSome_iff_exists.mp h.shown
  rw [hshown, units_of_quantize? (h.rounded.trans hshown)]

theorem proposes_iff (hguard : guardMovement args noFaults db = .ok (.ok accepted) db) {r : β} :
    Proposes float args actorId stamp db r ↔
      float (ofUnits 3 (roundHalfEven (accepted.resulting db * 10 ^ 3))) = r := by
  have hgated := guardMovement_gated hguard
  have hrun := (@proposeStockMovement_of_accepted _ _ _ _ _ actorId stamp _ _ hguard).1
  constructor
  · rintro ⟨result, db', h, -, hr⟩
    rw [hrun] at h
    cases h
    rw [hgated.resultingOnHand_eq] at hr
    exact Option.some.inj hr
  · rintro rfl
    refine ⟨accepted.base, db, hrun, hgated.status, ?_⟩
    rw [hgated.resultingOnHand_eq]
    rfl

theorem applies_iff (hguard : guardMovement args noFaults db = .ok (.ok accepted) db)
    (hshort : Short accepted.quantity) (hfresh : db.FreshStamp stamp) {r : β} :
    Applies float args actorId stamp db r ↔ Releasable db args accepted ∧
      float (ofUnits 3 (roundHalfAway (accepted.resulting db * 10 ^ 3))) = r := by
  have hgated := guardMovement_gated hguard
  have hstored : ∀ movement db',
      applyAccepted accepted args actorId stamp noFaults db = .ok movement db' →
      ∃ row, movement = some row ∧
        row.balanceAfter.val = ofUnits 3 (roundHalfAway (accepted.resulting db * 10 ^ 3)) := by
    intro movement db' h
    obtain ⟨request, moved, hasks, happly, rfl, -⟩ := applyAccepted_asks hgated hshort h
    obtain ⟨row, hrow, hbalance⟩ := applyMovement_found happly
    refine ⟨row, hrow, ?_⟩
    rw [Numeric.val, hbalance, hasks.resulting]
  constructor
  · rintro ⟨base, movement, db', result, h, haudit, -, hr⟩
    have heffect := proposeStockMovement_eq_ok h
    cases heffect with
    | moved _ _ hguard' happly =>
      rw [hguard] at hguard'
      cases hguard'
      refine ⟨(applyAccepted_ok_iff hgated hshort hfresh).mp ⟨movement, db', happly⟩, ?_⟩
      obtain ⟨row, rfl, hbalance⟩ := hstored movement db' happly
      cases haudit
      rw [← hbalance]
      exact Option.some.inj hr
  · rintro ⟨hreleasable, rfl⟩
    obtain ⟨movement, db', happly⟩ :=
      (@applyAccepted_ok_iff _ _ _ _ _ _ actorId _ hgated hshort hfresh).mpr hreleasable
    obtain ⟨row, rfl, hbalance⟩ := hstored movement db' happly
    refine ⟨accepted.base, some row, db', _, (proposeStockMovement_of_accepted hguard).2 _ _ happly,
      rfl, rfl, ?_⟩
    rw [← hbalance]
    rfl

theorem guard_of_proposes {r : β} (h : Proposes float args actorId stamp db r) :
    ∃ accepted, guardMovement args noFaults db = .ok (.ok accepted) db := by
  obtain ⟨result, db', hrun, hstatus, -⟩ := h
  simp only [proposeStockMovement, bind_eq_ok] at hrun
  obtain ⟨guarded, db₁, hguard, hrun⟩ := hrun
  have hguarded := guardMovement_eq_ok hguard
  obtain rfl := hguarded.unchanged
  cases guarded with
  | error rejected =>
    cases hrun
    rw [hguarded.rejected result rfl] at hstatus
    exact absurd hstatus (by decide)
  | ok accepted => exact ⟨accepted, hguard⟩

theorem guard_of_applies {r : β} (h : Applies float args actorId stamp db r) :
    ∃ accepted, guardMovement args noFaults db = .ok (.ok accepted) db := by
  obtain ⟨base, movement, db', result, h, -⟩ := h
  have heffect := proposeStockMovement_eq_ok h
  cases heffect with
  | moved _ _ hguard _ => exact ⟨_, hguard⟩

theorem rejected_unchanged {result : MovementResult} {db' : Db}
    (hshort : ∀ q, args.quantity = .finite q → Short q)
    (h : proposeStockMovement args true actorId stamp noFaults db = .ok (.answered result) db') :
    db' = db := by
  simp only [proposeStockMovement, bind_eq_ok] at h
  obtain ⟨guarded, db₁, hguard, h⟩ := h
  obtain rfl := (guardMovement_eq_ok hguard).unchanged
  cases guarded with
  | error rejected =>
    cases h
    rfl
  | ok accepted =>
    have hgated := guardMovement_gated hguard
    simp only [if_true, bind_eq_ok] at h
    obtain ⟨applied, db₂, hattempt, h⟩ := h
    cases hrun : applyAccepted accepted args actorId stamp noFaults db₁ with
    | ok movement db₃ =>
      simp only [attempt, hrun, Outcome.ok.injEq] at hattempt
      obtain ⟨rfl, rfl⟩ := hattempt
      cases h
    | raised e db₃ =>
      simp only [attempt, hrun, Outcome.ok.injEq] at hattempt
      obtain ⟨rfl, rfl⟩ := hattempt
      have hrefused := applyAccepted_refuses actorId stamp hgated (hshort _ hgated.quantity) _ _ hrun
      cases e with
      | unprocessable message =>
        cases h
        exact hrefused trivial
      | value message =>
        cases h
        exact hrefused trivial
      | _ => cases h
    | aborted e =>
      simp only [attempt, hrun] at hattempt
      cases hattempt

end agreement

end

/-! A product with nothing on hand, active and not. -/

def receiveArgs : MovementArgs := ⟨"SKU-1", "receipt", .finite 10, .null, .number 100, .null⟩

def closedProduct : Db where
  products := ⟨[⟨1, "SKU-1", "Maize flour", default, false⟩], List.pairwise_singleton _ _⟩

def MovementOutcome.answer? : MovementOutcome → Option (String × Option ℚ)
  | .answered result => some (result.status, result.resultingOnHand)
  | .committed _ _ => none

end Finguard
