import Finguard.ProposalReview
import Finguard.StockAuthority

/-! Requests to the agents and the reviews of what they propose, in any order. An adjustment
that an agent asks for is released by a second person. -/

namespace Finguard
open Decimal Text Transaction Transaction.Tx Sessions

/-! The desk. -/

structure QueuedProposal where
  proposalId : Uuid
  user : Uuid

structure InlineMovement where
  user : Uuid
  row : StockMovement

/-- The store, with the user behind every proposal and every movement of a steward. -/
structure DeskStore where
  reviews : ReviewStore
  queued : List QueuedProposal := []
  inline : List InlineMovement := []

abbrev DeskStore.db (s : DeskStore) : Db := s.reviews.db

def DeskStore.start (db : Db) : DeskStore := { reviews := { db } }

inductive DeskRequest where
  | agent (user : Uuid) (request : AgentRequest)
  | reconciler
  | review (request : ReviewRequest)

inductive DeskSession where
  | agent (user : Uuid) (request : AgentRequest)
  | reconciler
  | review (t : ReviewTx)

/-- The steward may have several turns in a request that is planned again or resumed. -/
inductive DeskAction where
  | turn (turn : StewardTurn) (users : Table User) (auditTrail : String)
    (writes : List ContextWrite)
  | propose (id : Uuid) (payload : ProposalPayload) (rationale : Option String)
    (notice : ReviewNotice) (faults : Faults Site ServiceError)
  | review (action : ReviewAction)
  | crash

def newProposals (db db' : Db) : List AgentActionProposal :=
  db'.proposals.rows.drop db.proposals.rows.length

def DeskStore.afterTurn (s : DeskStore) (user : Uuid) (db' : Db) : DeskStore where
  reviews := { s.reviews with db := db' }
  queued := s.queued ++ (newProposals s.db db').map (⟨·.id, user⟩)
  inline := s.inline ++ (ReviewStore.newMovements s.db db').map (⟨user, ·⟩)

def DeskSession.start : DeskRequest → DeskSession
  | .agent user request => .agent user request
  | .reconciler => .reconciler
  | .review request => .review { request }

section
variable [Context] [Format] [Unicode] [Python] [PayloadHash]

def DeskSession.advance (s : DeskStore) (_ : List DeskSession) :
    DeskSession → DeskAction → Option (DeskStore × Option DeskSession)
  | .agent user request, .turn turn users auditTrail writes =>
    some (s.afterTurn user (stockTurn turn users user request auditTrail writes s.db).2,
      some (.agent user request))
  | .reconciler, .propose id payload rationale notice faults =>
    let db' := (createProposal (matchDraft id payload rationale) notice).committed faults s.db
    some ({ s with reviews := { s.reviews with db := db' } }, some .reconciler)
  | .review t, .review action => do
    let (reviews, ended) ← ReviewTx.advance s.reviews [] t action
    return ({ s with reviews }, ended.map .review)
  | _, .crash => some (s, none)
  | _, _ => none

def desk : Machine DeskStore DeskSession DeskRequest DeskAction where
  start := DeskSession.start
  advance := DeskSession.advance

end

/-! What a turn of the steward does. -/

theorem ofValue?_adjustment_iff [Format] [Unicode] [LawfulText] {s : String} {type : MovementType}
    (h : MovementType.ofValue? s = some type) :
    Unicode.lower s = MovementType.adjustment.value ↔ type = .adjustment := by
  have hvalue : s = type.value := by
    unfold MovementType.ofValue? at h
    split at h <;> cases h <;> rfl
  have hascii : isAscii type.value := by cases type <;> decide
  rw [hvalue, LawfulText.lower_ascii _ hascii]
  cases type <;> decide

/-- All that a turn can write. -/
inductive TurnEffect (user : Uuid) (db db' : Db) : Prop
  | idle (hdb : db' = db)
  | queued {proposal : AgentActionProposal} (htype : proposal.actionType = actionStockAdjustment)
    (hby : proposal.triggeredBy = some user)
    (hinsert : db.proposals.insert? proposal = some db'.proposals)
    (hmovements : db'.stockMovements = db.stockMovements)
  | moved {row : StockMovement} (htype : row.movementType ≠ .adjustment)
    (hproposals : db'.proposals = db.proposals)
    (hrows : db'.stockMovements.rows = db.stockMovements.rows ++ [row])

section
variable [Context] [Format] [Unicode] [Python] [PayloadHash]

omit [PayloadHash] in
theorem moveInline_effect [LawfulText] (turn : StewardTurn) {args : MovementArgs} (apply : Bool)
    (user : Uuid) (db : Db)
    (hdispatch : Unicode.lower args.movementType ≠ MovementType.adjustment.value) :
    TurnEffect user db (moveInline turn args apply (some user) db).2 := by
  unfold moveInline
  cases hrun : proposeStockMovement args apply (some user) turn.stamp turn.faults db with
  | ok outcome db' =>
    cases proposeStockMovement_eq_ok hrun with
    | refused hstatus hdb => exact .idle rfl
    | proposed happly hdb htype hquantity hstatus => exact .idle rfl
    | moved happly htype hguard happlied =>
      obtain ⟨l', row, hinsert, hrow, rfl⟩ := applyAccepted_eq_ok happlied
      obtain ⟨hproposals, hmovements, -⟩ := auditMovement_frame (Prod.eta
        (auditMovement turn.audited _ (some user) _ { db with toStockLedger := l' })).symm
      have hroutine : row.movementType ≠ .adjustment := by
        rw [hrow]
        exact fun hadjustment => hdispatch ((ofValue?_adjustment_iff htype).mpr hadjustment)
      have hrows := (congrArg Table.rows hmovements).trans (Table.rows_of_insert hinsert)
      exact .moved hroutine hproposals hrows
  | raised e db' => exact .idle rfl
  | aborted e => exact .idle rfl

omit [Unicode] in
theorem queueAdjustmentProposal_effect (turn : StewardTurn) (args : MovementArgs) (user : Uuid)
    (db : Db) : TurnEffect user db
      (settled (queueAdjustmentProposal turn args (some user) turn.faults db) db).2 := by
  cases hrun : queueAdjustmentProposal turn args (some user) turn.faults db with
  | ok result db' =>
    rcases queueAdjustmentProposal_eq_ok hrun with
      rfl | ⟨quantity, proposals, emailOutbox, -, -, hinsert, rfl⟩
    · exact .idle rfl
    · exact .queued rfl rfl hinsert rfl
  | raised e db' => exact .idle rfl
  | aborted e => exact .idle rfl

theorem stockTurn_effect [LawfulText] (turn : StewardTurn) (users : Table User) (user : Uuid)
    (request : AgentRequest) (auditTrail : String) (writes : List ContextWrite) (db : Db) :
    TurnEffect user db (stockTurn turn users user request auditTrail writes db).2 := by
  unfold stockTurn runStockAnalysis
  cases resolveUserRole turn.roleAnswered users (some (Format.identifier user))
    ((request.graphContext auditTrail writes).get "user_role") with
  | error e => exact .idle rfl
  | ok userRole =>
    simp only [requestMovement, actorOf_identifier]
    rcases (requestedAction (request.graphContext auditTrail writes)).map movementArgs with
      _ | e | args
    · exact .idle rfl
    · exact .idle rfl
    · simp only [requestedMovement]
      by_cases hdispatch : Unicode.lower args.movementType = MovementType.adjustment.value
      · simp only [if_pos hdispatch]
        exact queueAdjustmentProposal_effect turn args user db
      · simp only [if_neg hdispatch]
        exact moveInline_effect turn _ user db hdispatch

end

/-! Who is behind a proposal. -/

structure Origin where
  id : Uuid
  actionType : String
  triggeredBy : Option Uuid

def AgentActionProposal.origin (proposal : AgentActionProposal) : Origin :=
  ⟨proposal.id, proposal.actionType, proposal.triggeredBy⟩

def Db.origins (db : Db) : List Origin := db.proposals.rows.map AgentActionProposal.origin

theorem Db.origins_updateProposal (db : Db) (id : Uuid)
    {f : AgentActionProposal → AgentActionProposal} (hf : ∀ a b, Row.clash (f a) b = Row.clash a b)
    (horigin : ∀ p, (f p).origin = p.origin) : (db.updateProposal id f hf).origins = db.origins := by
  simp only [origins, updateProposal, Table.rows_update, List.map_map]
  refine List.map_congr_left (fun p _ => ?_)
  simp only [Function.comp_apply, Table.updated]
  split
  · exact horigin p
  · rfl

theorem Db.origins_decided (db : Db) (request : ReviewRequest) (now : DateTime) :
    (db.decided request now).origins = db.origins := by
  refine db.origins_updateProposal request.proposalId _ ?_
  intro p
  rfl

theorem Db.origins_of_insert {db : Db} {proposal : AgentActionProposal}
    {proposals : Table AgentActionProposal} (h : db.proposals.insert? proposal = some proposals) :
    proposals.rows.map AgentActionProposal.origin = db.origins ++ [proposal.origin] := by
  rw [Table.rows_of_insert h, List.map_append]
  rfl

/-- Every adjustment that waits names the user who asked for it, and every user who asked is
named. -/
structure Vouched (queued : List QueuedProposal) (origins : List Origin) : Prop where
  asked : ∀ o ∈ origins, o.actionType = actionStockAdjustment →
    ∃ user, o.triggeredBy = some user ∧ ⟨o.id, user⟩ ∈ queued
  known : ∀ q ∈ queued, ∃ o ∈ origins, o.id = q.proposalId ∧ o.triggeredBy = some q.user

/-- An approval by somebody else than the user who asked. -/
structure SecondPerson (queued : List QueuedProposal) (request : ReviewRequest) : Prop where
  approves : request.approves
  asked : ∃ q ∈ queued, q.proposalId = request.proposalId
  other : ∀ q ∈ queued, q.proposalId = request.proposalId → q.user ≠ request.currentUser

theorem SecondPerson.queue {queued : List QueuedProposal} {request : ReviewRequest}
    (h : SecondPerson queued request) {new : QueuedProposal}
    (hfresh : ∀ q ∈ queued, q.proposalId ≠ new.proposalId) :
    SecondPerson (queued ++ [new]) request where
  approves := h.approves
  asked := by
    obtain ⟨q, hq, hid⟩ := h.asked
    exact ⟨q, List.mem_append_left _ hq, hid⟩
  other := by
    intro q hq hid
    rcases List.mem_append.mp hq with hq | hq
    · exact h.other q hq hid
    · obtain rfl := List.mem_singleton.mp hq
      obtain ⟨asked, hasked, hsame⟩ := h.asked
      exact absurd (hsame.trans hid.symm) (hfresh asked hasked)

theorem Vouched.queue {queued : List QueuedProposal} {origins : List Origin}
    (h : Vouched queued origins) {id user : Uuid} {actionType : String} :
    Vouched (queued ++ [⟨id, user⟩]) (origins ++ [⟨id, actionType, some user⟩]) where
  asked := by
    intro o ho htype
    rcases List.mem_append.mp ho with ho | ho
    · obtain ⟨user', hby, hq⟩ := h.asked o ho htype
      exact ⟨user', hby, List.mem_append_left _ hq⟩
    · obtain rfl := List.mem_singleton.mp ho
      exact ⟨user, rfl, by simp⟩
  known := by
    intro q hq
    rcases List.mem_append.mp hq with hq | hq
    · obtain ⟨o, ho, hid, hby⟩ := h.known q hq
      exact ⟨o, List.mem_append_left _ ho, hid, hby⟩
    · obtain rfl := List.mem_singleton.mp hq
      exact ⟨_, List.mem_append_right _ (List.mem_singleton.mpr rfl), rfl, rfl⟩

theorem Vouched.propose {queued : List QueuedProposal} {origins : List Origin}
    (h : Vouched queued origins) {o : Origin} (htype : o.actionType ≠ actionStockAdjustment) :
    Vouched queued (origins ++ [o]) where
  asked := by
    intro o' ho htype'
    rcases List.mem_append.mp ho with ho | ho
    · exact h.asked o' ho htype'
    · obtain rfl := List.mem_singleton.mp ho
      exact absurd htype' htype
  known := by
    intro q hq
    obtain ⟨o', ho, hid, hby⟩ := h.known q hq
    exact ⟨o', List.mem_append_left _ ho, hid, hby⟩

/-! The steps of the desk. -/

/-- What holds of the store: the proposals are vouched for, the stock that reviews have moved
was released by a second person, and no steward has moved an adjustment. -/
structure DeskStore.Sound (s : DeskStore) : Prop where
  vouched : Vouched s.queued s.db.origins
  released : ∀ write ∈ s.reviews.writes, ∀ row, write.row = .inl row →
    SecondPerson s.queued write.request
  routine : ∀ entry ∈ s.inline, entry.row.movementType ≠ .adjustment

/-- A claim on an adjustment is the claim of a second person. -/
def DeskSession.Vetted (s : DeskStore) : DeskSession → Prop
  | .review t => ∀ payload, t.phase = .claimed actionStockAdjustment payload →
    SecondPerson s.queued t.request
  | _ => True

theorem ReviewStore.newMovements_of_eq {db db' : Db}
    (h : db'.stockMovements = db.stockMovements) : newMovements db db' = [] := by
  simp [newMovements, h]

namespace DeskStore.Sound

theorem commit {s : DeskStore} (h : s.Sound) {request : ReviewRequest} {db' : Db}
    (horigins : db'.origins = s.db.origins)
    (hmoved : db'.stockMovements ≠ s.db.stockMovements → SecondPerson s.queued request) :
    DeskStore.Sound { s with reviews := s.reviews.commit request db' } where
  vouched := by
    change Vouched s.queued db'.origins
    rw [horigins]
    exact h.vouched
  released := by
    intro write hwrite row hrow
    rcases List.mem_append.mp hwrite with hwrite | hwrite
    · exact h.released write hwrite row hrow
    · obtain ⟨new, hnew, rfl⟩ := List.mem_map.mp hwrite
      obtain rfl : new = .inl row := hrow
      refine hmoved fun hsame => ?_
      simp [ReviewStore.rows, ReviewStore.newMovements_of_eq hsame] at hnew
  routine := h.routine

theorem quiet {s : DeskStore} (h : s.Sound) {db' : Db} (horigins : db'.origins = s.db.origins) :
    DeskStore.Sound { s with reviews := { s.reviews with db := db' } } where
  vouched := by
    change Vouched s.queued db'.origins
    rw [horigins]
    exact h.vouched
  released := h.released
  routine := h.routine

theorem reset {s : DeskStore} (h : s.Sound) {request : ReviewRequest} (commits : Bool) {db' : Db}
    (horigins : db'.origins = s.db.origins)
    (hmoved : db'.stockMovements ≠ s.db.stockMovements → SecondPerson s.queued request) :
    DeskStore.Sound { s with reviews := s.reviews.resetProposal request commits db' } := by
  cases commits with
  | false => exact h
  | true =>
    refine h.commit ?_ hmoved
    exact (db'.origins_updateProposal _ _ (by intros; rfl)).trans horigins

theorem finish {s : DeskStore} (h : s.Sound) {request : ReviewRequest} (commits : Bool)
    (appliedRef : String) {db' : Db} (horigins : db'.origins = s.db.origins)
    (hmoved : db'.stockMovements ≠ s.db.stockMovements → SecondPerson s.queued request) :
    DeskStore.Sound
      { s with reviews := s.reviews.finishProposal request commits appliedRef db' } := by
  cases commits with
  | false => exact h
  | true =>
    refine h.commit ?_ hmoved
    exact (db'.origins_updateProposal _ _ (by intros; rfl)).trans horigins

end DeskStore.Sound

theorem Db.origin_mem {db : Db} {proposal : AgentActionProposal} (h : proposal ∈ db.proposals.rows) :
    proposal.origin ∈ db.origins := List.mem_map_of_mem h

/-- The checks of an approval let only a second person through. -/
theorem Vouched.secondPerson [PayloadHash] {queued : List QueuedProposal} {db : Db}
    (h : Vouched queued db.origins) {request : ReviewRequest} {proposal : AgentActionProposal}
    (hfound : db.getProposal request.proposalId = some proposal)
    (hcheck : checkDecision request proposal = .ok ()) (happroves : request.approves)
    (htype : proposal.actionType = actionStockAdjustment) : SecondPerson queued request := by
  have hmem : proposal ∈ db.proposals.rows := Table.mem_of_find? hfound
  have hid : proposal.id = request.proposalId := by simpa using Table.of_find? hfound
  obtain ⟨-, -, hother⟩ := checkDecision_eq_ok hcheck
  refine ⟨happroves, ?_, ?_⟩
  · obtain ⟨user, -, hq⟩ := h.asked _ (Db.origin_mem hmem) htype
    exact ⟨_, hq, hid⟩
  · intro q hq hsame huser
    obtain ⟨o, ho, hoid, hby⟩ := h.known q hq
    obtain ⟨proposal', hmem', rfl⟩ := List.mem_map.mp ho
    -- two proposals with one identifier are the same row
    have hclash : Row.clash proposal' proposal := by
      change (proposal'.id == proposal.id) = true
      rw [beq_iff_eq, hid, ← hsame]
      exact hoid
    obtain rfl := Table.eq_of_clash hmem' hmem hclash
    rw [huser] at hby
    exact hother hby

namespace DeskStore.Sound

theorem afterTurn {s : DeskStore} (h : s.Sound) {user : Uuid} {db' : Db}
    (heffect : TurnEffect user s.db db') : (s.afterTurn user db').Sound ∧
      ∀ t : DeskSession, t.Vetted s → t.Vetted (s.afterTurn user db') := by
  cases heffect with
  | idle hdb =>
    subst hdb
    have hsame : s.afterTurn user s.db = s := by
      simp [DeskStore.afterTurn, newProposals, ReviewStore.newMovements]
    rw [hsame]
    exact ⟨h, fun t ht => ht⟩
  | queued htype hby hinsert hmovements =>
    rename_i proposal
    have hqueued : (s.afterTurn user db').queued = s.queued ++ [⟨proposal.id, user⟩] := by
      simp [DeskStore.afterTurn, newProposals, Table.rows_of_insert hinsert]
    have hinline : (s.afterTurn user db').inline = s.inline := by
      simp [DeskStore.afterTurn, ReviewStore.newMovements_of_eq hmovements]
    have horigins : db'.origins = s.db.origins ++ [⟨proposal.id, actionStockAdjustment, some user⟩] := by
      have horigin := Db.origins_of_insert hinsert
      rw [AgentActionProposal.origin, htype, hby] at horigin
      exact horigin
    have hfresh : ∀ q ∈ s.queued, q.proposalId ≠ proposal.id := by
      intro q hq hsame
      obtain ⟨o, ho, hid, -⟩ := h.vouched.known q hq
      obtain ⟨old, hold, rfl⟩ := List.mem_map.mp ho
      refine Table.not_clash_of_insert hinsert hold ?_
      change (old.id == proposal.id) = true
      rw [beq_iff_eq, ← hsame]
      exact hid
    refine ⟨⟨?_, ?_, ?_⟩, ?_⟩
    · change Vouched (s.afterTurn user db').queued db'.origins
      rw [hqueued, horigins]
      exact h.vouched.queue
    · intro write hwrite row hrow
      rw [hqueued]
      exact (h.released write hwrite row hrow).queue hfresh
    · rw [hinline]
      exact h.routine
    · intro t ht
      cases t with
      | review t =>
        intro payload hphase
        rw [hqueued]
        exact (ht payload hphase).queue hfresh
      | _ => trivial
  | moved htype hproposals hrows =>
    rename_i row
    have hqueued : (s.afterTurn user db').queued = s.queued := by
      simp [DeskStore.afterTurn, newProposals, hproposals]
    have hinline : (s.afterTurn user db').inline = s.inline ++ [⟨user, row⟩] := by
      simp [DeskStore.afterTurn, ReviewStore.newMovements, hrows]
    have horigins : db'.origins = s.db.origins := by rw [Db.origins, hproposals, Db.origins]
    refine ⟨⟨?_, ?_, ?_⟩, ?_⟩
    · change Vouched (s.afterTurn user db').queued db'.origins
      rw [hqueued, horigins]
      exact h.vouched
    · intro write hwrite row' hrow
      rw [hqueued]
      exact h.released write hwrite row' hrow
    · intro entry hentry
      rw [hinline] at hentry
      rcases List.mem_append.mp hentry with hentry | hentry
      · exact h.routine entry hentry
      · obtain rfl := List.mem_singleton.mp hentry
        exact htype
    · intro t ht
      cases t with
      | review t =>
        intro payload hphase
        rw [hqueued]
        exact ht payload hphase
      | _ => trivial

theorem propose [Context] [Format] [PayloadHash] {s : DeskStore} (h : s.Sound) (id : Uuid)
    (payload : ProposalPayload) (rationale : Option String) (notice : ReviewNotice)
    (faults : Faults Site ServiceError) : DeskStore.Sound { s with reviews := { s.reviews with
      db := (createProposal (matchDraft id payload rationale) notice).committed faults s.db } } := by
  rcases committed_cases (createProposal (matchDraft id payload rationale) notice) faults s.db with
    hidle | ⟨proposal, hrun⟩
  · rw [hidle]
    exact h
  · obtain ⟨-, proposals, emailOutbox, hinsert, hdb⟩ := createProposal_eq_ok hrun
    rw [hdb]
    refine ⟨?_, h.released, h.routine⟩
    have horigins := Db.origins_of_insert hinsert
    change Vouched s.queued (proposals.rows.map AgentActionProposal.origin)
    rw [horigins]
    refine h.vouched.propose ?_
    change actionReconciliationMatch ≠ actionStockAdjustment
    decide

end DeskStore.Sound

section
variable [Context] [Format] [Unicode] [Python] [PayloadHash]

omit [Unicode] [PayloadHash] in
/-- A write leaves the proposals alone, and moves stock for an adjustment only. -/
theorem applied_sound {s : DeskStore} {t : ReviewTx} (ht : (DeskSession.review t).Vetted s)
    {actionType : String} {payload : ProposalPayload} {env : ApplyEnv} {working : Db}
    (hphase : t.phase = .claimed actionType payload)
    (hrun : (applyProposal actionType payload t.request.currentUser env env.faults s.db).working? =
      some working) : working.origins = s.db.origins ∧
        (working.stockMovements ≠ s.db.stockMovements → SecondPerson s.queued t.request) := by
  have hgrows : Grows s.db working := applyProposal_keeps _ _ _ _ _ _ _ hrun
  refine ⟨by rw [Db.origins, hgrows.proposals, Db.origins], ?_⟩
  intro hmoved
  by_cases hstock : actionType = actionStockAdjustment
  · subst hstock
    exact ht payload hphase
  · exact absurd (applyProposal_movements hstock _ _ _ _ _ _ hrun).movements hmoved

omit [Unicode] in
theorem review_step {s : DeskStore} {t : ReviewTx} {action : ReviewAction} {reviews : ReviewStore}
    {ended : Option ReviewTx} (h : s.Sound) (ht : (DeskSession.review t).Vetted s)
    (hadvance : ReviewTx.advance s.reviews [] t action = some (reviews, ended)) :
    DeskStore.Sound { s with reviews } ∧ ∀ t' ∈ ended, (DeskSession.review t').Vetted s := by
  cases ReviewTx.advance_effect hadvance with
  | refused hphase => exact ⟨h, by simp⟩
  | decided hphase hfound hcheck =>
    have hquiet := h.quiet (s.db.origins_decided t.request ‹DateTime›)
    refine ⟨hquiet, ?_⟩
    intro t' ht'
    by_cases happroves : t.request.approves
    · rw [if_pos happroves] at ht'
      obtain rfl := Option.some.inj ht'
      intro payload hclaim
      exact h.vouched.secondPerson hfound hcheck happroves (ReviewPhase.claimed.inj hclaim).1
    · rw [if_neg happroves] at ht'
      cases ht'
  | moved hphase hrun =>
    obtain ⟨horigins, hmoved⟩ := applied_sound ht hphase (by rw [hrun]; rfl)
    refine ⟨h.commit horigins hmoved, ?_⟩
    rintro t' ⟨⟩ payload ⟨⟩
  | settled hphase hrun =>
    obtain ⟨horigins, hmoved⟩ := applied_sound ht hphase (by rw [hrun]; rfl)
    exact ⟨h.finish _ _ horigins hmoved, by simp⟩
  | failed hphase hrun =>
    obtain ⟨horigins, hmoved⟩ := applied_sound ht hphase (by rw [hrun]; rfl)
    exact ⟨h.reset _ horigins hmoved, by simp⟩
  | aborted hphase hrun => exact ⟨h, by simp⟩
  | audited hphase haudit =>
    obtain ⟨hproposals, hmovements, -⟩ := auditMovement_frame haudit
    refine ⟨h.commit (by rw [Db.origins, hproposals, Db.origins])
      (fun hmoved => absurd hmovements hmoved), ?_⟩
    rintro t' ⟨⟩ payload ⟨⟩
  | unaudited hphase haudit =>
    obtain ⟨hproposals, hmovements, -⟩ := auditMovement_frame haudit
    exact ⟨h.reset _ (by rw [Db.origins, hproposals, Db.origins])
      (fun hmoved => absurd hmovements hmoved), by simp⟩
  | finished hphase => exact ⟨h.finish _ _ rfl (fun hmoved => absurd rfl hmoved), by simp⟩
  | outside =>
    rename_i work
    refine ⟨h.quiet (by rw [Db.origins, work.proposals, Db.origins]), ?_⟩
    rintro t' ⟨⟩
    exact ht
  | crashed => exact ⟨h, by simp⟩

theorem desk_secure [LawfulText] : Secure desk (fun _ _ _ => True) DeskStore.Sound
    (fun s t => t.Vetted s) (fun _ _ => True) where
  symm := fun _ => trivial
  starts := by
    intro s request hs
    cases request with
    | review request => rintro payload ⟨⟩
    | _ => trivial
  starts_apart := fun _ => trivial
  advances := by
    intro s others t action s' ended hs ht hothers _ hadvance
    have hstay : ∀ u ∈ others, u.Vetted s := fun u hu => (hothers u hu).1
    cases t with
    | agent user request =>
      cases action with
      | turn turn users auditTrail writes =>
        simp only [desk, DeskSession.advance, Option.some.injEq, Prod.mk.injEq] at hadvance
        obtain ⟨rfl, rfl⟩ := hadvance
        obtain ⟨hsound, hvetted⟩ :=
          hs.afterTurn (stockTurn_effect turn users user request auditTrail writes s.db)
        exact ⟨hsound, fun t' ht' => ⟨hvetted _ (by cases ht'; trivial), fun _ _ => trivial⟩,
          fun u hu => hvetted u (hstay u hu)⟩
      | crash =>
        cases hadvance
        exact ⟨hs, by simp, hstay⟩
      | _ => cases hadvance
    | reconciler =>
      cases action with
      | propose id payload rationale notice faults =>
        simp only [desk, DeskSession.advance, Option.some.injEq, Prod.mk.injEq] at hadvance
        obtain ⟨rfl, rfl⟩ := hadvance
        have hsound := hs.propose id payload rationale notice faults
        exact ⟨hsound, fun t' ht' => ⟨by cases ht'; trivial, fun _ _ => trivial⟩, hstay⟩
      | crash =>
        cases hadvance
        exact ⟨hs, by simp, hstay⟩
      | _ => cases hadvance
    | review t =>
      cases action with
      | review action =>
        simp only [desk, DeskSession.advance, Option.bind_eq_bind, Option.bind_eq_some_iff] at hadvance
        obtain ⟨⟨reviews, ended'⟩, hstep, heq⟩ := hadvance
        cases heq
        obtain ⟨hsound, hvetted⟩ := review_step hs ht hstep
        refine ⟨hsound, ?_, hstay⟩
        intro t' ht'
        obtain ⟨t'', ht'', rfl⟩ := Option.map_eq_some_iff.mp ht'
        exact ⟨hvetted t'' ht'', fun _ _ => trivial⟩
      | crash =>
        cases hadvance
        exact ⟨hs, by simp, hstay⟩
      | _ => cases hadvance

theorem desk_sound [LawfulText] {db : Db}
    (hstart : ∀ p ∈ db.proposals.rows, p.actionType ≠ actionStockAdjustment)
    {sys : System DeskStore DeskSession}
    (hrun : Runs.Reaches desk.step Runs.always ⟨DeskStore.start db, []⟩ sys) : sys.store.Sound := by
  have hinit : Holds DeskStore.Sound (fun s t => DeskSession.Vetted s t) (fun _ _ => True)
      ⟨DeskStore.start db, []⟩ := by
    have hnone : ∀ {α : Type} {p : α → Prop}, ∀ a ∈ ([] : List α), p a := by simp
    refine ⟨⟨⟨?_, hnone⟩, hnone, hnone⟩, hnone, .nil⟩
    intro o ho htype
    obtain ⟨p, hp, rfl⟩ := List.mem_map.mp ho
    exact absurd htype (hstart p hp)
  exact (desk_secure.run_always hrun hinit).store

/-- No steward moves an adjustment, and what a review moves was released by an approval of
somebody else than the user who had asked for it. -/
theorem adjustments_take_two [LawfulText] {db : Db}
    (hstart : ∀ p ∈ db.proposals.rows, p.actionType ≠ actionStockAdjustment)
    {sys : System DeskStore DeskSession}
    (hrun : Runs.Reaches desk.step Runs.always ⟨DeskStore.start db, []⟩ sys) :
    (∀ entry ∈ sys.store.inline, entry.row.movementType ≠ .adjustment) ∧
    ∀ write ∈ sys.store.reviews.writes, ∀ row, write.row = .inl row →
      SecondPerson sys.store.queued write.request := by
  have hsound := desk_sound hstart hrun
  exact ⟨hsound.routine, hsound.released⟩

end

def countedSugar : AgentRequest where
  route := .conversation
  message := "we counted five more"
  mode := "actions"
  context := [("stock_action", .object [("product_ref", .text "SKU-1"),
    ("movement_type", .text "adjustment"), ("quantity", .number 5), ("reason", .text "stock_take")])]

/-- User 7 asks, user 8 approves. -/
def countedRun [Context] [Format] [Unicode] [Python] [PayloadHash] :
    List (Action DeskRequest DeskAction) :=
  [.start (.agent 7 countedSugar), .advance 0 (.turn quietTurn oneViewer "" []),
    .start (.review ⟨70, 8, actionStockAdjustment, true⟩),
    .advance 0 (.review (.decide 100 noFaults)),
    .advance 0 (.review (.apply ⟨⟨50, 60, 1⟩, 90, noFaults⟩ true)),
    .advance 0 (.review (.audit true true)), .advance 0 (.review (.finish true))]

theorem countedRun_takes_two :
    letI := Context.default
    letI := Format.plain
    letI := Unicode.ascii
    letI := Python.plain
    letI := PayloadHash.plain
    ∃ sys : System DeskStore DeskSession,
      Runs.Reaches desk.step Runs.always ⟨DeskStore.start oneProduct, []⟩ sys ∧
      (sys.store.queued.map (fun q => (q.proposalId, q.user)),
        sys.store.reviews.writes.map (fun write => (write.request.proposalId,
          write.request.currentUser))) = ([(70, 7)], [(70, 8)]) ∧
      (∀ entry ∈ sys.store.inline, entry.row.movementType ≠ .adjustment) ∧
      ∀ write ∈ sys.store.reviews.writes, ∀ row, write.row = .inl row →
        SecondPerson sys.store.queued write.request := by
  let := Context.default
  let := Format.plain
  let := Unicode.ascii
  let := Python.plain
  let := PayloadHash.plain
  have hreplay : (Runs.replay desk.step Runs.always ⟨DeskStore.start oneProduct, []⟩ countedRun).map
      (fun sys => (sys.store.queued.map (fun q => (q.proposalId, q.user)),
        sys.store.reviews.writes.map (fun write => (write.request.proposalId,
          write.request.currentUser)))) = some ([(70, 7)], [(70, 8)]) := by
    decide +kernel
  obtain ⟨sys, hrun, hlogs⟩ := Runs.replay_map_reaches hreplay
  exact ⟨sys, hrun, hlogs, adjustments_take_two (by decide) hrun⟩

end Finguard
