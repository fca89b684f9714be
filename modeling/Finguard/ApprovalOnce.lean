import Finguard.SeparationOfDuties

/-! How often the write of a proposal is committed. The claim, the write, its audit record and
the reference to it are committed one after the other. -/

namespace Finguard
open Decimal Text Transaction Transaction.Tx Sessions

def Db.proposalStatus? (db : Db) (id : Uuid) : Option ProposalStatus :=
  (db.getProposal id).map (·.status)

theorem Db.proposalStatus?_of_eq {db db' : Db} (h : db'.proposals = db.proposals) (id : Uuid) :
    db'.proposalStatus? id = db.proposalStatus? id := by
  rw [proposalStatus?, getProposal, h, proposalStatus?, getProposal]

theorem Db.proposalStatus?_updateProposal (db : Db) (proposalId id : Uuid)
    (f : AgentActionProposal → AgentActionProposal)
    (hf : ∀ a b, Row.clash (f a) b = Row.clash a b) (hid : ∀ p, (f p).id = p.id) :
    (db.updateProposal proposalId f hf).proposalStatus? id =
      (db.getProposal id).map fun p => if id = proposalId then (f p).status else p.status := by
  have hfind : (db.updateProposal proposalId f hf).getProposal id =
      (db.getProposal id).map (Table.updated (·.id == proposalId) f) :=
    @Table.find?_update _ _ db.proposals _ _ f hf fun p => by rw [hid]
  rw [proposalStatus?, hfind]
  cases hfound : db.getProposal id with
  | none => rfl
  | some p =>
    have hp : p.id = id := by simpa using Table.of_find? hfound
    by_cases hsame : id = proposalId
    · simp [Table.updated, hp, hsame]
    · simp [Table.updated, hp, hsame]

theorem Db.proposalStatus?_decided (db : Db) (request : ReviewRequest) (now : DateTime) (id : Uuid) :
    (db.decided request now).proposalStatus? id = (db.getProposal id).map fun p =>
      if id = request.proposalId then request.verdict else p.status :=
  db.proposalStatus?_updateProposal _ id _ _ fun _ => rfl

theorem Db.proposalStatus?_reset (db : Db) (proposalId id : Uuid) :
    (db.updateProposal proposalId AgentActionProposal.reset (fun _ _ => rfl)).proposalStatus? id =
      (db.getProposal id).map fun p => if id = proposalId then .proposed else p.status :=
  db.proposalStatus?_updateProposal _ id _ _ fun _ => rfl

theorem Db.proposalStatus?_referenced (db : Db) (proposalId id : Uuid) (appliedRef : String) :
    (db.updateProposal proposalId (AgentActionProposal.referenced appliedRef)
      (fun _ _ => rfl)).proposalStatus? id = db.proposalStatus? id := by
  refine (db.proposalStatus?_updateProposal proposalId id (.referenced appliedRef) _
    fun _ => rfl).trans ?_
  rw [proposalStatus?]
  congr 1
  funext p
  by_cases hid : id = proposalId
  · rw [if_pos hid]
    rfl
  · rw [if_neg hid]

theorem Wrote.rows_eq {actionType : String} {db db' : Db} {write : AppliedWrite}
    {row : StockMovement ⊕ Payment} (h : Wrote actionType db db' write row) :
    ReviewStore.rows db db' = [row] := by
  cases h with
  | movement htype hpayments hrows =>
    simp [ReviewStore.rows, ReviewStore.newMovements, ReviewStore.newPayments, hrows, hpayments]
  | payment htype hmovements hrows =>
    simp [ReviewStore.rows, ReviewStore.newMovements, ReviewStore.newPayments, hrows, hmovements]

namespace ReviewStore
variable {s : ReviewStore} {id : Uuid} {request : ReviewRequest} {db' : Db}

theorem writesOf_commit (s : ReviewStore) (request : ReviewRequest) (db' : Db) (id : Uuid) :
    (s.commit request db').writesOf id = s.writesOf id ++
      if request.proposalId = id then (rows s.db db').map (⟨request, ·⟩) else [] := by
  rw [writesOf, commit, List.filter_append, writesOf]
  congr 1
  by_cases hid : request.proposalId = id
  · rw [if_pos hid, List.filter_eq_self]
    intro write hwrite
    obtain ⟨row, -, rfl⟩ := List.mem_map.mp hwrite
    simpa using hid
  · rw [if_neg hid, List.filter_eq_nil_iff]
    intro write hwrite
    obtain ⟨row, -, rfl⟩ := List.mem_map.mp hwrite
    simpa using hid

/-- The write of the proposal was committed at most once, and then the proposal is applied. -/
structure Once (s : ReviewStore) (id : Uuid) : Prop where
  once : (s.writesOf id).length ≤ 1
  applied : s.writesOf id ≠ [] → s.db.proposalStatus? id = some .applied

/-- The proposal is applied, but its write has not been committed. -/
def Pending (s : ReviewStore) (id : Uuid) : Prop :=
  s.db.proposalStatus? id = some .applied ∧ s.writesOf id = []

/-- Neither the status of the proposal nor its writes have changed. -/
structure Same (s s' : ReviewStore) (id : Uuid) : Prop where
  status : s'.db.proposalStatus? id = s.db.proposalStatus? id
  writes : s'.writesOf id = s.writesOf id

theorem Same.refl (s : ReviewStore) (id : Uuid) : Same s s id := ⟨rfl, rfl⟩

theorem Once.same {s' : ReviewStore} (h : s.Once id) (hsame : Same s s' id) : s'.Once id where
  once := by
    rw [hsame.writes]
    exact h.once
  applied := by
    rw [hsame.writes, hsame.status]
    exact h.applied

theorem Same.pending_iff {s' : ReviewStore} (h : Same s s' id) : s'.Pending id ↔ s.Pending id := by
  rw [Pending, Pending, h.status, h.writes]

theorem Same.commit (hrows : rows s.db db' = [])
    (hstatus : db'.proposalStatus? id = s.db.proposalStatus? id) :
    Same s (s.commit request db') id where
  status := hstatus
  writes := by
    rw [writesOf_commit, hrows]
    simp

theorem Same.commit_other (hid : request.proposalId ≠ id)
    (hstatus : db'.proposalStatus? id = s.db.proposalStatus? id) :
    Same s (s.commit request db') id where
  status := hstatus
  writes := by
    rw [writesOf_commit, if_neg hid, List.append_nil]

theorem writesOf_commit_one {row : StockMovement ⊕ Payment} (hid : request.proposalId = id)
    (hrows : rows s.db db' = [row]) :
    (s.commit request db').writesOf id = s.writesOf id ++ [⟨request, row⟩] := by
  rw [writesOf_commit, if_pos hid, hrows]
  rfl

end ReviewStore

namespace ReviewTx

/-- An approval that holds the claim on a proposal and has not written yet. -/
def Claims (t : ReviewTx) (id : Uuid) : Prop :=
  t.request.proposalId = id ∧ ∃ actionType payload, t.phase = .claimed actionType payload

section
variable [Context] [Format] [Python] [PayloadHash]

/-- What has to hold of a step. A claimed request does not crash. Its write comes to its end,
with a commit that goes through, or it is refused before a row is written and the error branch
commits. The audit of a movement that was committed does not fail. -/
def Intact (s : ReviewStore) (_ : List ReviewTx) (t : ReviewTx) : ReviewAction → Prop
  | .apply env commits =>
    match t.phase with
    | .claimed actionType payload =>
      match applyProposal actionType payload t.request.currentUser env env.faults s.db with
      | .ok (.moved _ _) _ => True
      | .ok (.settled _) _ => commits
      | .raised _ working => commits ∧ (ReviewStore.rows s.db working).isEmpty
      | .aborted _ => False
    | _ => True
  | .audit recorded commits =>
    match t.phase with
    | .moved base movement =>
      (auditMovement recorded base (some t.request.currentUser) movement s.db).1.isSome ∨
        commits = false
    | _ => True
  | .crash =>
    match t.phase with
    | .claimed _ _ => False
    | _ => True
  | _ => True

instance (s : ReviewStore) (others : List ReviewTx) (t : ReviewTx) (action : ReviewAction) :
    Decidable (Intact s others t action) := by
  cases action with
  | apply env commits =>
    cases hphase : t.phase with
    | claimed actionType payload =>
      rcases hrun : applyProposal actionType payload t.request.currentUser env env.faults s.db with
        ⟨_ | _, _⟩ | _ | _ <;> simp only [Intact, hphase, hrun] <;> infer_instance
    | _ =>
      simp only [Intact, hphase]
      infer_instance
  | audit recorded commits =>
    cases hphase : t.phase <;> simp only [Intact, hphase] <;> infer_instance
  | crash => cases hphase : t.phase <;> simp only [Intact, hphase] <;> infer_instance
  | _ => exact .isTrue trivial

/-- What a step of a review does to one proposal and its writes. -/
inductive Turn (id : Uuid) (s : ReviewStore) (t : ReviewTx) (s' : ReviewStore)
    (ended : Option ReviewTx) : Prop
  | elsewhere (hsame : ReviewStore.Same s s' id)
    (hclaims : (∃ t' ∈ ended, t'.Claims id) ↔ t.Claims id)
  | decided (hbefore : s.db.proposalStatus? id = some .proposed)
    (hwrites : s'.writesOf id = s.writesOf id)
    (hafter : s'.db.proposalStatus? id = some .applied → ∃ t' ∈ ended, t'.Claims id)
    (hclaims : ∀ t' ∈ ended, t'.Claims id → s'.db.proposalStatus? id = some .applied)
  | written {write : ReviewWrite} (hclaims : t.Claims id)
    (hwrites : s'.writesOf id = s.writesOf id ++ [write])
    (hstatus : s'.db.proposalStatus? id = s.db.proposalStatus? id)
    (hended : ∀ t' ∈ ended, ¬ t'.Claims id)
  | released (hclaims : t.Claims id) (hwrites : s'.writesOf id = s.writesOf id)
    (hstatus : s'.db.proposalStatus? id ≠ some .applied) (hended : ended = none)

theorem turn_of_effect {s s' : ReviewStore} {others : List ReviewTx} {t : ReviewTx}
    {action : ReviewAction} {ended : Option ReviewTx} (id : Uuid)
    (hguard : Intact s others t action) (h : Effect s t action s' ended) : Turn id s t s' ended := by
  cases h with
  | refused hphase =>
    refine .elsewhere (.refl s id) ?_
    simp [Claims, hphase]
  | decided hphase hfound hcheck =>
    rename_i now faults proposal
    have hstatus := s.db.proposalStatus?_decided t.request now id
    by_cases hid : t.request.proposalId = id
    · subst hid
      obtain ⟨-, hproposed, -⟩ := checkDecision_eq_ok hcheck
      have hverdict : (s.db.decided t.request now).proposalStatus? t.request.proposalId =
          some t.request.verdict := by
        rw [hstatus, hfound]
        simp
      refine .decided ?_ rfl ?_ ?_
      · rw [Db.proposalStatus?, hfound, Option.map_some, hproposed]
      · intro happlied
        have happroves : t.request.approves := by
          by_contra hrejects
          rw [hverdict, ReviewRequest.verdict, if_neg hrejects] at happlied
          cases happlied
        rw [if_pos happroves]
        exact ⟨_, rfl, rfl, _, _, rfl⟩
      · intro t' ht' _
        by_cases happroves : t.request.approves
        · exact hverdict.trans (by rw [ReviewRequest.verdict, if_pos happroves])
        · rw [if_neg happroves] at ht'
          cases ht'
    · refine .elsewhere ⟨?_, rfl⟩ ?_
      · rw [hstatus, Db.proposalStatus?]
        simp [Ne.symm hid]
      · split <;> simp [Claims, hid]
  | moved hphase hrun =>
    obtain ⟨row, hwrote⟩ := applyProposal_eq_ok hrun
    have hgrows : Grows s.db _ := applyProposal_keeps _ _ _ _ _ _ _ (by rw [hrun]; rfl)
    have hstatus := Db.proposalStatus?_of_eq hgrows.proposals id
    by_cases hid : t.request.proposalId = id
    · refine .written ⟨hid, _, _, hphase⟩ (ReviewStore.writesOf_commit_one hid hwrote.rows_eq)
        hstatus ?_
      simp [Claims]
    · refine .elsewhere (.commit_other hid hstatus) ?_
      simp [Claims, hid]
  | settled hphase hrun =>
    rename_i env commits actionType payload appliedRef working
    obtain ⟨row, hwrote⟩ := applyProposal_eq_ok hrun
    have hgrows : Grows s.db working := applyProposal_keeps _ _ _ _ _ _ _ (by rw [hrun]; rfl)
    have hstatus := (working.proposalStatus?_referenced t.request.proposalId id appliedRef).trans
      (Db.proposalStatus?_of_eq hgrows.proposals id)
    have hcommits : commits = true := by simpa only [Intact, hphase, hrun] using hguard
    rw [ReviewStore.finishProposal, if_pos hcommits]
    by_cases hid : t.request.proposalId = id
    · exact .written ⟨hid, _, _, hphase⟩ (ReviewStore.writesOf_commit_one hid hwrote.rows_eq)
        hstatus (by simp)
    · refine .elsewhere (.commit_other hid hstatus) ?_
      simp [Claims, hid]
  | failed hphase hrun =>
    rename_i env commits actionType payload e working
    have hgrows : Grows s.db working := applyProposal_keeps _ _ _ _ _ _ _ (by rw [hrun]; rfl)
    obtain ⟨hcommits, hrows⟩ : commits = true ∧ (ReviewStore.rows s.db working).isEmpty = true := by
      simpa only [Intact, hphase, hrun] using hguard
    have hstatus := working.proposalStatus?_reset t.request.proposalId id
    have hempty := List.isEmpty_iff.mp hrows
    rw [ReviewStore.resetProposal, if_pos hcommits]
    by_cases hid : t.request.proposalId = id
    · refine .released ⟨hid, _, _, hphase⟩ ?_ ?_ rfl
      · rw [ReviewStore.writesOf_commit]
        change s.writesOf id ++ (if _ then (ReviewStore.rows s.db working).map _ else []) = _
        rw [hempty]
        simp
      · intro happlied
        obtain ⟨p, -, hp⟩ := Option.map_eq_some_iff.mp (hstatus.symm.trans happlied)
        rw [if_pos hid.symm] at hp
        cases hp
    · refine .elsewhere (.commit_other hid (hstatus.trans ?_)) (by simp [Claims, hid])
      rw [← Db.proposalStatus?_of_eq hgrows.proposals, Db.proposalStatus?]
      simp [Ne.symm hid]
  | aborted hphase hrun => simp only [Intact, hphase, hrun] at hguard
  | audited hphase haudit =>
    obtain ⟨hproposals, hmovements, hpayments⟩ := auditMovement_frame haudit
    refine .elsewhere (.commit (ReviewStore.rows_of_same hmovements hpayments)
      (Db.proposalStatus?_of_eq hproposals id)) ?_
    simp [Claims, hphase]
  | unaudited hphase haudit =>
    rename_i recorded commits base movement db'
    have hcommits : commits = false := by
      simpa [Intact, hphase, haudit] using hguard
    subst hcommits
    refine .elsewhere (.refl s id) ?_
    simp [Claims, hphase]
  | finished hphase =>
    rename_i commits appliedRef
    refine .elsewhere ?_ (by simp [Claims, hphase])
    rw [ReviewStore.finishProposal]
    split
    · exact .commit (ReviewStore.rows_of_same rfl rfl)
        (s.db.proposalStatus?_referenced t.request.proposalId id appliedRef)
    · exact .refl s id
  | outside =>
    rename_i work
    exact .elsewhere ⟨Db.proposalStatus?_of_eq (work.proposals s.db) id, rfl⟩ (by simp)
  | crashed =>
    refine .elsewhere (.refl s id) ?_
    have hidle : ¬ t.Claims id := by
      rintro ⟨-, actionType, payload, hphase⟩
      simp only [Intact, hphase] at hguard
    simp [hidle]

/-- Who claims a proposal has not written yet, nobody else claims it, and a proposal that is
applied without its write is claimed. -/
theorem approval_reliable (id : Uuid) : Reliable machine Intact (ReviewStore.Once · id)
    (fun s t => t.Claims id → s.Pending id) (fun t u => ¬ (t.Claims id ∧ u.Claims id))
    (fun s (_ : Unit) => s.Pending id) (fun t _ => t.Claims id) where
  symm := fun h hboth => h hboth.symm
  starts := by
    rintro s request - ⟨-, actionType, payload, ⟨⟩⟩
  starts_apart := by
    rintro s request u - ⟨⟨-, actionType, payload, ⟨⟩⟩, -⟩
  advances := by
    intro s others t action s' ended honce ht hothers hcovered hguard hadvance
    have hstep : ReviewTx.advance s others t action = some (s', ended) := hadvance
    cases turn_of_effect id hguard (advance_effect hstep) with
    | elsewhere hsame hclaims =>
      have hpending := hsame.pending_iff
      refine ⟨honce.same hsame, ?_, fun u hu hu' => hpending.mpr ((hothers u hu).1 hu'), ?_⟩
      · intro t' ht'
        have hcarried : t'.Claims id → t.Claims id := fun h => hclaims.mp ⟨t', ht', h⟩
        exact ⟨fun h => hpending.mpr (ht (hcarried h)),
          fun u hu hboth => (hothers u hu).2 ⟨hcarried hboth.1, hboth.2⟩⟩
      · intro d hd
        rcases hcovered d (hpending.mp hd) with howes | howes
        · exact .inl (hclaims.mpr howes)
        · exact .inr howes
    | decided hbefore hwrites hafter hclaims =>
      -- an open proposal is not applied: it has no write yet, and nobody claims it
      have hopen : s.db.proposalStatus? id ≠ some .applied := by
        rw [hbefore]
        decide
      have hnone : s.writesOf id = [] := by
        by_contra hsome
        exact hopen (honce.applied hsome)
      have hfree : ∀ u ∈ others, ¬ u.Claims id := fun u hu hu' => hopen ((hothers u hu).1 hu').1
      rw [hnone] at hwrites
      refine ⟨⟨by simp [hwrites], fun h => absurd hwrites h⟩, ?_,
        fun u hu hu' => absurd hu' (hfree u hu), fun d hd => .inl (hafter hd.1)⟩
      intro t' ht'
      exact ⟨fun h => ⟨hclaims t' ht' h, hwrites⟩, fun u hu hboth => hfree u hu hboth.2⟩
    | written hclaims hwrites hstatus hended =>
      obtain ⟨happlied, hnone⟩ := ht hclaims
      have hfree : ∀ u ∈ others, ¬ u.Claims id := fun u hu hu' => (hothers u hu).2 ⟨hclaims, hu'⟩
      rw [hnone, List.nil_append] at hwrites
      refine ⟨⟨by simp [hwrites], fun _ => hstatus.trans happlied⟩, ?_,
        fun u hu hu' => absurd hu' (hfree u hu), ?_⟩
      · intro t' ht'
        exact ⟨fun h => absurd h (hended t' ht'), fun u hu hboth => hfree u hu hboth.2⟩
      · intro d hd
        have hnone' := hd.2
        rw [hwrites] at hnone'
        cases hnone'
    | released hclaims hwrites hstatus hended =>
      obtain ⟨-, hnone⟩ := ht hclaims
      have hfree : ∀ u ∈ others, ¬ u.Claims id := fun u hu hu' => (hothers u hu).2 ⟨hclaims, hu'⟩
      rw [hnone] at hwrites
      subst hended
      exact ⟨⟨by simp [hwrites], fun h => absurd hwrites h⟩, by simp,
        fun u hu hu' => absurd hu' (hfree u hu), fun d hd => absurd hd.1 hstatus⟩

end

end ReviewTx

/-- User 7 has counted five more of the product. -/
def countedProposal : Db :=
  { oneProduct with
    proposals := ⟨[⟨70, "k_stockkeeper", actionStockAdjustment,
      .stock "SKU-1" "adjustment" 5 (.text "stock_take") .null .null, none, .proposed, some 7,
      none, none, none⟩], List.pairwise_singleton _ _⟩ }

/-- User 8 approves while user 9 rejects. -/
def reviewRace : List (Action ReviewRequest ReviewAction) :=
  [.start ⟨70, 8, actionStockAdjustment, true⟩, .start ⟨70, 9, actionStockAdjustment, false⟩,
    .advance 1 (.decide 100 noFaults), .advance 1 (.decide 101 noFaults),
    .advance 0 (.apply ⟨⟨50, 60, 1⟩, 90, noFaults⟩ true), .advance 0 (.audit true true),
    .advance 0 (.finish true)]

/-- User 8 approves, the audit of the movement fails, and user 9 approves once more. -/
def failedAudit : List (Action ReviewRequest ReviewAction) :=
  [.start ⟨70, 8, actionStockAdjustment, true⟩, .advance 0 (.decide 100 noFaults),
    .advance 0 (.apply ⟨⟨50, 60, 1⟩, 90, noFaults⟩ true), .advance 0 (.audit false true),
    .start ⟨70, 9, actionStockAdjustment, true⟩, .advance 0 (.decide 200 noFaults),
    .advance 0 (.apply ⟨⟨51, 61, 2⟩, 91, noFaults⟩ true), .advance 0 (.audit true true),
    .advance 0 (.finish true)]

/-- User 8 approves, and the process dies after the claim. -/
def lostClaim : List (Action ReviewRequest ReviewAction) :=
  [.start ⟨70, 8, actionStockAdjustment, true⟩, .advance 0 (.decide 100 noFaults),
    .advance 0 .crash]

def ReviewStore.summary (s : ReviewStore) (id : Uuid) : Option ProposalStatus × ℕ :=
  (s.db.proposalStatus? id, (s.writesOf id).length)

end Finguard
