import Finguard.StockSteward

/-! Who may move stock through the steward, and what a role that the caller names changes
about it. -/

namespace Finguard
open Decimal Text Transaction Transaction.Tx Json

/-! What survives of the caller's context. -/

/-- The keys that the write request is read from. -/
def stewardKeys : List String := ["user_role", "stock_action", "require_stock_confirmation"]

theorem GraphNode.not_mem_writeKeys (node : GraphNode) :
    ∀ key ∈ stewardKeys, key ∉ node.writeKeys := by cases node <;> decide

theorem stewardKeys_not_server :
    ∀ key ∈ stewardKeys, key ≠ "current_intent" ∧ key ≠ "audit_trail" := by decide

theorem AgentRequest.get?_graphContext (request : AgentRequest) (auditTrail : String)
    (writes : List ContextWrite) {key : String} (hkey : key ∈ stewardKeys) :
    (request.graphContext auditTrail writes).get? key = request.context.get? key := by
  have hwrites : ∀ update ∈ writes.map ContextWrite.update, ∀ field ∈ update, field.1 ≠ key := by
    intro update hupdate field hfield heq
    obtain ⟨write, -, rfl⟩ := List.mem_map.mp hupdate
    have howned := write.owned field hfield
    rw [heq] at howned
    exact write.node.not_mem_writeKeys key hkey howned
  rw [graphContext, Fields.get?_foldl_merge hwrites]
  cases hroute : request.route with
  | conversation =>
    obtain ⟨hintent, htrail⟩ := stewardKeys_not_server key hkey
    simp only [initialContext, hroute]
    rw [Fields.get?_merge, Fields.get?_cons, if_neg hintent, Fields.get?_cons, if_neg htrail]
    exact Option.or_none
  | aiInsights => simp only [initialContext, hroute]
  | aiActions => simp only [initialContext, hroute]

/-! The authority of a role. -/

def Granted (users : Table User) (user : Uuid) : Prop :=
  ∃ u ∈ users.rows, u.id = user ∧ hasPermission u.role .intelligenceAct = true ∧
    hasPermission u.role .inventoryWrite = true

/-- The authority of the role that is stored for the user, as far as it can be read. -/
def storedAuthority (answered : Bool) (users : Table User) (user : Uuid) : Bool :=
  answered && (users.find? (·.id == user)).any
    (fun u => hasPermission u.role .intelligenceAct && hasPermission u.role .inventoryWrite)

theorem storedAuthority_granted {answered : Bool} {users : Table User} {user : Uuid}
    (h : storedAuthority answered users user = true) : Granted users user := by
  simp only [storedAuthority, Bool.and_eq_true, Option.any_eq_true] at h
  obtain ⟨-, u, hu, hact, hwrite⟩ := h
  exact ⟨u, Table.mem_of_find? hu, by simpa using Table.of_find? hu, hact, hwrite⟩

/-- The authority that the steward goes by; none for a claim that is not a text. -/
def claimedAuthority [Unicode] (stored : Bool) (claim : Json) : Option Bool :=
  if claim.truthy then
    match claim with
    | .text role => some (canAct (Unicode.lower role))
    | _ => none
  else some stored

section
variable [Format] [Unicode]

theorem lookUpRole_canAct [LawfulText] (answered : Bool) (users : Table User) (user : Uuid) :
    canAct (lookUpRole answered users (Format.identifier user)) =
      storedAuthority answered users user := by
  have hsame : (fun u : User => Format.identifier u.id == Format.identifier user) =
      (fun u : User => u.id == user) := by
    funext u
    rw [Bool.eq_iff_iff, beq_iff_eq, beq_iff_eq, Format.identifier_injective.eq_iff]
  unfold lookUpRole storedAuthority
  rw [hsame]
  cases answered with
  | false => rfl
  | true =>
    cases users.find? (·.id == user) with
    | none => rfl
    | some u =>
      simp only [if_true, LawfulText.lower_ascii _ u.role.isAscii_name, UserRole.asciiLower_name]
      simp [canAct]

theorem resolveUserRole_eq [LawfulText] (answered : Bool) (users : Table User) (user : Uuid)
    (claim : Json) :
    (∃ role, resolveUserRole answered users (some (Format.identifier user)) claim = .ok role ∧
      claimedAuthority (storedAuthority answered users user) claim = some (canAct role)) ∨
    (resolveUserRole answered users (some (Format.identifier user)) claim = .error .attribute ∧
      claimedAuthority (storedAuthority answered users user) claim = none) := by
  by_cases hclaim : claim.truthy
  · cases claim with
    | text role =>
      left
      refine ⟨Unicode.lower role, ?_, ?_⟩
      · simp only [resolveUserRole, hclaim, if_true]
      · simp only [claimedAuthority, hclaim, if_true]
    | _ =>
      right
      simp [resolveUserRole, claimedAuthority, hclaim]
  · left
    refine ⟨lookUpRole answered users (Format.identifier user), ?_, ?_⟩
    · simp [resolveUserRole, hclaim, LawfulText.identifier_ne_empty]
    · simp [claimedAuthority, hclaim, lookUpRole_canAct]

end

/-! The turn as its write request sees it. -/

section
variable [Context] [Format] [Unicode] [Python]

/-- What is done about the write request, and what the store holds afterwards. -/
def treatment (answered : Except StewardError StockAnalysis × Db) :
    Except StewardError (Option MovementResult) × Db :=
  (answered.1.map StockAnalysis.movementResult, answered.2)

def treatedAs [PayloadHash] (turn : StewardTurn) (authority : Option Bool) (ctx : Fields)
    (user : Uuid) (db : Db) : Except StewardError (Option MovementResult) × Db :=
  match authority with
  | none => (.error .attribute, db)
  | some granted => requestMovement turn granted ctx (some (Format.identifier user)) db

/-- The movement that a context asks to have applied at once. -/
def inlineMovement (ctx : Fields) : Option MovementArgs :=
  match (requestedAction ctx).map movementArgs with
  | some (.ok args) =>
    if Unicode.lower args.movementType ≠ MovementType.adjustment.value ∧
      (ctx.get "require_stock_confirmation").truthy then some args else none
  | _ => none

omit [Unicode] in
/-- The gates of the tool let the movement through. -/
def Passes (turn : StewardTurn) (args : MovementArgs) (db : Db) : Prop :=
  ∃ accepted, guardMovement args turn.faults db = .ok (.ok accepted) db

omit [Unicode] in
/-- The inventory service takes the movement too. -/
def Lands (turn : StewardTurn) (args : MovementArgs) (actorId : Option Uuid) (db : Db) : Prop :=
  ∃ accepted movement db', guardMovement args turn.faults db = .ok (.ok accepted) db ∧
    applyAccepted accepted args actorId turn.stamp turn.faults db = .ok movement db'

def MovesStock (db db' : Db) : Prop := db'.stockMovements.rows ≠ db.stockMovements.rows

omit [Context] [Format] [Unicode] [Python] in
theorem Applied.movesStock {db db' : Db} {movementType : MovementType}
    (h : Applied db db' movementType) : MovesStock db db' := by
  obtain ⟨l', movement, hinsert, -, rfl⟩ := h
  intro hsame
  have hrows : db.stockMovements.rows ++ [movement] = db.stockMovements.rows :=
    (Table.rows_of_insert hinsert).symm.trans hsame
  simp at hrows

theorem requestMovement_congr [PayloadHash] {turn : StewardTurn} {granted : Bool}
    {ctx ctx' : Fields} {userId : Option String} {db : Db}
    (haction : ctx.get? "stock_action" = ctx'.get? "stock_action")
    (hconfirmed : ctx.get? "require_stock_confirmation" =
      ctx'.get? "require_stock_confirmation") :
    requestMovement turn granted ctx userId db = requestMovement turn granted ctx' userId db := by
  simp only [requestMovement, requestedAction, Fields.get, haction, hconfirmed]

theorem treatment_stockTurn [PayloadHash] [LawfulText] (turn : StewardTurn) (users : Table User)
    (user : Uuid) (request : AgentRequest) (auditTrail : String) (writes : List ContextWrite)
    (db : Db) : treatment (stockTurn turn users user request auditTrail writes db) =
      treatedAs turn (claimedAuthority (storedAuthority turn.roleAnswered users user)
        (request.context.get "user_role")) request.context user db := by
  have hkept : ∀ key ∈ stewardKeys, (request.graphContext auditTrail writes).get? key =
      request.context.get? key := fun key hkey => request.get?_graphContext auditTrail writes hkey
  have hclaim : (request.graphContext auditTrail writes).get "user_role" =
      request.context.get "user_role" := by
    rw [Fields.get, hkept "user_role" (by decide), Fields.get]
  have hrequest : ∀ granted userId, requestMovement turn granted
      (request.graphContext auditTrail writes) userId db =
        requestMovement turn granted request.context userId db := fun granted userId =>
    requestMovement_congr (hkept _ (by decide)) (hkept _ (by decide))
  unfold treatment stockTurn runStockAnalysis
  rw [hclaim]
  rcases resolveUserRole_eq turn.roleAnswered users user (request.context.get "user_role") with
    ⟨role, hrole, hauthority⟩ | ⟨hrole, hauthority⟩
  · simp only [hrole, hauthority, treatedAs, hrequest]
    obtain ⟨answer, db'⟩ :=
      requestMovement turn (canAct role) request.context (some (Format.identifier user)) db
    cases answer with
    | error e => rfl
    | ok result => rfl
  · simp only [hrole, hauthority, treatedAs]
    rfl

/-! A movement that is asked for at once, with and without authority. -/

omit [Unicode] in
theorem proposeStockMovement_of_not_passes {turn : StewardTurn} {args : MovementArgs}
    {actorId : Option Uuid} {db : Db} (h : ¬ Passes turn args db) :
    proposeStockMovement args true actorId turn.stamp turn.faults db =
      proposeStockMovement args false actorId turn.stamp turn.faults db := by
  unfold proposeStockMovement
  rw [bind_apply, bind_apply]
  cases hguard : guardMovement args turn.faults db with
  | ok guarded db' =>
    obtain rfl := (guardMovement_eq_ok hguard).unchanged
    cases guarded with
    | error rejected => rfl
    | ok accepted => exact absurd ⟨accepted, hguard⟩ h
  | raised e db' => rfl
  | aborted e => rfl

omit [Unicode] in
theorem moveInline_false_keeps (turn : StewardTurn) (args : MovementArgs) (actorId : Option Uuid)
    (db : Db) : (moveInline turn args false actorId db).2 = db := by
  unfold moveInline
  cases hrun : proposeStockMovement args false actorId turn.stamp turn.faults db with
  | ok outcome db' =>
    cases proposeStockMovement_eq_ok hrun with
    | refused hstatus hdb => rfl
    | proposed happly hdb htype hquantity hstatus => rfl
    | moved happly htype hguard hrun => cases happly
  | raised e db' => rfl
  | aborted e => rfl

omit [Context] [Unicode] [Python] in
theorem auditMovement_stock (audited : Bool) (base : MovementResult) (actorId : Option Uuid)
    (movement : Option StockMovement) (db : Db) :
    (auditMovement audited base actorId movement db).2.toStockLedger = db.toStockLedger := by
  cases audited <;> cases movement <;> rfl

omit [Context] [Unicode] [Python] in
theorem auditMovement_status {audited : Bool} {base result : MovementResult}
    {actorId : Option Uuid} {movement : Option StockMovement} {db : Db}
    (h : (auditMovement audited base actorId movement db).1 = some result) :
    result.status = "applied" := by
  cases audited <;> cases movement <;> cases h
  rfl

omit [Unicode] in
theorem moveInline_true_moves {turn : StewardTurn} {args : MovementArgs} {actorId : Option Uuid}
    {db : Db} : MovesStock db (moveInline turn args true actorId db).2 ↔
      Lands turn args actorId db := by
  constructor
  · intro hmoves
    unfold moveInline at hmoves
    cases hrun : proposeStockMovement args true actorId turn.stamp turn.faults db with
    | ok outcome db' =>
      cases proposeStockMovement_eq_ok hrun with
      | refused hstatus hdb =>
        simp only [hrun] at hmoves
        exact absurd rfl hmoves
      | proposed happly hdb htype hquantity hstatus => cases happly
      | moved happly htype hguard happlied => exact ⟨_, _, _, hguard, happlied⟩
    | raised e db' =>
      simp only [hrun] at hmoves
      exact absurd rfl hmoves
    | aborted e =>
      simp only [hrun] at hmoves
      exact absurd rfl hmoves
  · rintro ⟨accepted, movement, db', hguard, hrun⟩
    have hcommitted := (proposeStockMovement_of_accepted hguard).2 movement db' hrun
    have hmoves := (applyAccepted_eq_ok hrun).movesStock
    unfold moveInline
    rw [hcommitted]
    have hstock := congrArg StockLedger.stockMovements
      (auditMovement_stock turn.audited accepted.base actorId movement db')
    intro hsame
    exact hmoves ((congrArg Table.rows hstock).symm.trans hsame)

omit [Unicode] in
theorem moveInline_same_iff {turn : StewardTurn} {args : MovementArgs} {actorId : Option Uuid}
    {db : Db} : moveInline turn args true actorId db = moveInline turn args false actorId db ↔
      ¬ Passes turn args db := by
  constructor
  · rintro hsame ⟨accepted, hguard⟩
    have hbase : accepted.base.status = "proposed" :=
      ((guardMovement_eq_ok hguard).accepted _ rfl).2.2
    have hfalse : moveInline turn args false actorId db = (.ok accepted.base, db) := by
      unfold moveInline
      rw [(proposeStockMovement_of_accepted hguard).1]
    rw [hfalse] at hsame
    unfold moveInline at hsame
    cases hrun : proposeStockMovement args true actorId turn.stamp turn.faults db with
    | ok outcome db' =>
      cases proposeStockMovement_eq_ok hrun with
      | refused hstatus hdb =>
        simp only [hrun, Prod.mk.injEq, Except.ok.injEq] at hsame
        rw [hsame.1, hbase] at hstatus
        revert hstatus
        decide
      | proposed happly hdb htype hquantity hstatus => cases happly
      | moved happly htype hguard happlied =>
        simp only [hrun, Prod.mk.injEq] at hsame
        have hanswer := hsame.1
        cases haudit : (auditMovement turn.audited _ actorId _ db').1 with
        | none =>
          rw [haudit] at hanswer
          cases hanswer
        | some result =>
          rw [haudit] at hanswer
          have happlied := auditMovement_status haudit
          rw [Except.ok.inj hanswer, hbase] at happlied
          revert happlied
          decide
    | raised e db' =>
      simp only [hrun] at hsame
      cases hsame
    | aborted e =>
      simp only [hrun] at hsame
      cases hsame
  · intro hnot
    unfold moveInline
    rw [proposeStockMovement_of_not_passes hnot]

/-! The write request with and without authority. -/

variable [PayloadHash]

omit [Unicode] in
theorem queueAdjustmentProposal_keeps (turn : StewardTurn) (args : MovementArgs)
    (actorId : Option Uuid) (db : Db) :
    (settled (queueAdjustmentProposal turn args actorId turn.faults db) db).2.toStockLedger =
      db.toStockLedger := by
  cases hrun : queueAdjustmentProposal turn args actorId turn.faults db with
  | ok result db' =>
    rcases queueAdjustmentProposal_eq_ok hrun with rfl | ⟨_, proposals, emailOutbox, -, -, -, rfl⟩
    · rfl
    · rfl
  | raised e db' => rfl
  | aborted e => rfl

theorem requestMovement_inline {turn : StewardTurn} {ctx : Fields} {userId : Option String}
    {db : Db} {args : MovementArgs} (h : inlineMovement ctx = some args) (granted : Bool) :
    requestMovement turn granted ctx userId db =
      ((moveInline turn args granted (actorOf userId) db).1.map some,
        (moveInline turn args granted (actorOf userId) db).2) := by
  rcases hargs : (requestedAction ctx).map movementArgs with _ | (e | args')
  · simp only [inlineMovement, hargs] at h
    cases h
  · simp only [inlineMovement, hargs] at h
    cases h
  · by_cases hasked : Unicode.lower args'.movementType ≠ MovementType.adjustment.value ∧
        (ctx.get "require_stock_confirmation").truthy
    · simp only [inlineMovement, hargs, if_pos hasked] at h
      obtain rfl := Option.some.inj h
      simp only [requestMovement, hargs, requestedMovement, if_neg hasked.1, hasked.2, Bool.and_true]
    · simp only [inlineMovement, hargs, if_neg hasked] at h
      cases h

theorem requestMovement_not_inline {turn : StewardTurn} {ctx : Fields} {userId : Option String}
    {db : Db} (h : inlineMovement ctx = none) (granted : Bool) :
    requestMovement turn granted ctx userId db = requestMovement turn false ctx userId db := by
  rcases hargs : (requestedAction ctx).map movementArgs with _ | (e | args)
  · simp only [requestMovement, hargs]
  · simp only [requestMovement, hargs]
  · by_cases htype : Unicode.lower args.movementType = MovementType.adjustment.value
    · simp only [requestMovement, hargs, requestedMovement, if_pos htype]
    · have hunconfirmed : (ctx.get "require_stock_confirmation").truthy = false := by
        by_contra hconfirmed
        simp [inlineMovement, hargs, htype, hconfirmed] at h
      simp only [requestMovement, hargs, hunconfirmed, Bool.and_false]

theorem requestMovement_false_keeps (turn : StewardTurn) (ctx : Fields) (userId : Option String)
    (db : Db) : ¬ MovesStock db (requestMovement turn false ctx userId db).2 := by
  unfold requestMovement
  rcases (requestedAction ctx).map movementArgs with _ | (e | args)
  · exact fun h => h rfl
  · exact fun h => h rfl
  · by_cases htype : Unicode.lower args.movementType = MovementType.adjustment.value
    · simp only [requestedMovement, if_pos htype]
      have hstock := queueAdjustmentProposal_keeps turn args (actorOf userId) db
      exact fun h => h (congrArg (fun l => l.stockMovements.rows) hstock)
    · simp only [requestedMovement, if_neg htype, Bool.false_and, moveInline_false_keeps]
      exact fun h => h rfl

theorem requestMovement_true_moves {turn : StewardTurn} {ctx : Fields} {userId : Option String}
    {db : Db} : MovesStock db (requestMovement turn true ctx userId db).2 ↔
      ∃ args, inlineMovement ctx = some args ∧ Lands turn args (actorOf userId) db := by
  cases hinline : inlineMovement ctx with
  | none =>
    rw [requestMovement_not_inline hinline]
    have hkeeps := requestMovement_false_keeps turn ctx userId db
    simp [hkeeps]
  | some args =>
    rw [requestMovement_inline hinline]
    simp [moveInline_true_moves]

theorem requestMovement_same_iff {turn : StewardTurn} {ctx : Fields} {userId : Option String}
    {db : Db} : requestMovement turn true ctx userId db = requestMovement turn false ctx userId db ↔
      ∀ args, inlineMovement ctx = some args → ¬ Passes turn args db := by
  cases hinline : inlineMovement ctx with
  | none => simp [requestMovement_not_inline hinline true]
  | some args =>
    rw [requestMovement_inline hinline, requestMovement_inline hinline]
    have hmap : ∀ r r' : Except StewardError MovementResult × Db,
        (r.1.map some, r.2) = (r'.1.map some, r'.2) ↔ r = r' := by
      rintro ⟨_ | _, _⟩ ⟨_ | _, _⟩ <;> simp [Except.map]
    rw [hmap, moveInline_same_iff]
    simp

omit [Unicode] [PayloadHash] in
theorem moveInline_ne_attribute (turn : StewardTurn) (args : MovementArgs) (apply : Bool)
    (actorId : Option Uuid) (db : Db) :
    (moveInline turn args apply actorId db).1 ≠ .error .attribute := by
  unfold moveInline
  cases proposeStockMovement args apply actorId turn.stamp turn.faults db with
  | ok outcome db' =>
    cases outcome with
    | answered result => nofun
    | committed base movement =>
      simp only
      cases (auditMovement turn.audited base actorId movement db').1 <;> nofun
  | raised e db' => nofun
  | aborted e => nofun

theorem requestMovement_ne_attribute (turn : StewardTurn) (granted : Bool) (ctx : Fields)
    (userId : Option String) (db : Db) :
    (requestMovement turn granted ctx userId db).1 ≠ .error .attribute := by
  have hmap : ∀ r : Except StewardError MovementResult, r ≠ .error .attribute →
      (r.map some : Except StewardError (Option MovementResult)) ≠ .error .attribute := by
    rintro (e | result) hne heq
    · cases heq
      exact hne rfl
    · cases heq
  rcases hargs : (requestedAction ctx).map movementArgs with _ | (e | args)
  · simp only [requestMovement, hargs]
    nofun
  · simp only [requestMovement, hargs]
    nofun
  · simp only [requestMovement, hargs]
    refine hmap _ ?_
    by_cases htype : Unicode.lower args.movementType = MovementType.adjustment.value
    · simp only [requestedMovement, if_pos htype]
      unfold settled
      cases queueAdjustmentProposal turn args (actorOf userId) turn.faults db <;> nofun
    · simp only [requestedMovement, if_neg htype]
      exact moveInline_ne_attribute _ _ _ _ _

/-! Two requests by one user that differ in the role they claim. -/

structure SameButRole (request request' : AgentRequest) : Prop where
  route : request.route = request'.route
  message : request.message = request'.message
  mode : request.mode = request'.mode
  context : ∀ key, key ≠ "user_role" → request.context.get? key = request'.context.get? key

theorem treatedAs_alike_iff {turn : StewardTurn}
    {authority authority' : Option Bool} {ctx : Fields} {user : Uuid} {db : Db} :
    treatedAs turn authority ctx user db = treatedAs turn authority' ctx user db ↔
      authority.isSome = authority'.isSome ∧
        (authority = authority' ∨ ∀ args, inlineMovement ctx = some args → ¬ Passes turn args db) := by
  have hsame := @requestMovement_same_iff _ _ _ _ _ turn ctx (some (Format.identifier user)) db
  have hne := fun granted => requestMovement_ne_attribute turn granted ctx
    (some (Format.identifier user)) db
  rcases authority with _ | granted <;> rcases authority' with _ | granted'
  · simp [treatedAs]
  · simp only [treatedAs, Option.isSome, Bool.false_eq_true, false_and, iff_false]
    exact fun heq => hne granted' (congrArg Prod.fst heq).symm
  · simp only [treatedAs, Option.isSome, Bool.true_eq_false, false_and, iff_false]
    exact fun heq => hne granted (congrArg Prod.fst heq)
  · cases granted <;> cases granted'
    · simp [treatedAs]
    · simpa [treatedAs] using eq_comm.trans hsame
    · simpa [treatedAs] using hsame
    · simp [treatedAs]

omit [Context] [Python] [PayloadHash] in
theorem actorOf_identifier [LawfulText] (user : Uuid) :
    actorOf (some (Format.identifier user)) = some user := by
  simp [actorOf, LawfulText.identifier_ne_empty]

theorem treatedAs_moves_iff {turn : StewardTurn} {authority : Option Bool} {ctx : Fields}
    {user : Uuid} {db : Db} : MovesStock db (treatedAs turn authority ctx user db).2 ↔
      authority = some true ∧ ∃ args, inlineMovement ctx = some args ∧
        Lands turn args (actorOf (some (Format.identifier user))) db := by
  rcases authority with _ | _ | _
  · simp [treatedAs, MovesStock]
  · simp [treatedAs, requestMovement_false_keeps]
  · simp [treatedAs, requestMovement_true_moves]

theorem SameButRole.treatedAs_eq {request request' : AgentRequest} (h : SameButRole request request')
    (turn : StewardTurn) (authority : Option Bool) (user : Uuid) (db : Db) :
    treatedAs turn authority request.context user db =
      treatedAs turn authority request'.context user db := by
  cases authority with
  | none => rfl
  | some granted =>
    exact requestMovement_congr (h.context _ (by decide)) (h.context _ (by decide))

/-- What the steward takes the user's authority for in this request. -/
def AgentRequest.authority (request : AgentRequest) (turn : StewardTurn) (users : Table User)
    (user : Uuid) : Option Bool :=
  claimedAuthority (storedAuthority turn.roleAnswered users user) (request.context.get "user_role")

end

/-! A viewer and a receipt of five bags. -/

instance : @LawfulText Unicode.ascii Format.plain :=
  letI := Unicode.ascii
  letI := Format.plain
  { lower_ascii := fun _ _ => rfl
    identifier_ne_empty := identifier_plain_ne_empty }

abbrev PayloadHash.plain : PayloadHash where
  payloadHash
    | .stock productRef movementType quantity _ _ _ =>
      productRef ++ "/" ++ movementType ++ "/" ++ Format.plain.str quantity
    | .settlement transactionId invoiceId _ _ _ _ _ _ => transactionId ++ "/" ++ invoiceId

def oneViewer : Table User := ⟨[⟨7, .viewer⟩], List.pairwise_singleton _ _⟩

def quietTurn : StewardTurn where
  roleAnswered := true
  faults := noFaults
  audited := true
  stamp := ⟨50, 60, 1⟩
  proposalId := 70
  rationale := none
  notice := ⟨"", []⟩

def receiveFive (claim : Fields) : AgentRequest where
  route := .aiInsights
  message := "stock"
  mode := "insights"
  context := claim ++ [("require_stock_confirmation", .bool true),
    ("stock_action", .object [("product_ref", .text "SKU-1"), ("movement_type", .text "receipt"),
      ("quantity", .number 5), ("unit_cost", .number 10)])]

def claimsOwner : AgentRequest := receiveFive [("user_role", .text "owner")]

theorem receiveFive_sameButRole (role : Json) :
    SameButRole (receiveFive [("user_role", role)]) (receiveFive []) where
  route := rfl
  message := rfl
  mode := rfl
  context key hkey := by
    change Fields.get? (("user_role", role) :: _) key = _
    rw [Fields.get?_cons, if_neg hkey]
    rfl

end Finguard
