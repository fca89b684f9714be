import Finguard.InvoiceRuns
import Finguard.Lib.Sessions

/-! Bank statement lines between their reviewers and the reconciler. A review reads the
line without a lock; a reconciliation run holds the lines it has picked until it commits. -/

namespace Finguard
open Decimal Text Transaction Transaction.Tx Sessions

def bankReviewPending : String := "pending"

inductive BankReviewDecision where
  | approved
  | rejected
deriving DecidableEq

def BankReviewDecision.value : BankReviewDecision → String
  | approved => "approved"
  | rejected => "rejected"

theorem BankReviewDecision.value_ne_pending (decision : BankReviewDecision) :
    decision.value ≠ bankReviewPending := by cases decision <;> decide

namespace Db

def getBankLine (db : Db) (id : Uuid) : Option BankStatementLine :=
  db.bankStatementLines.find? (·.id == id)

def reviewBankLine (db : Db) (id : Uuid) (decision : BankReviewDecision) (currentUser : Uuid)
    (now : DateTime) : Db :=
  { db with
    bankStatementLines := db.bankStatementLines.update (·.id == id)
      (fun line => { line with
        reviewStatus := decision.value
        approvedBy := some currentUser
        approvedAt := some now }) (fun _ _ => rfl) }

/-- The lines that a reconciliation run may pick up, oldest first. -/
def reconcilableLines (db : Db) : List BankStatementLine :=
  (db.bankStatementLines.filter
    (fun line => !line.isReconciled && line.reviewStatus == BankReviewDecision.approved.value)).insertionSort
    (fun a b => a.date ≤ b.date)

end Db

/-- The checks of a review, on the line as it was read. -/
def checkReview (line : BankStatementLine) (currentUser : Uuid) : Except ServiceError Unit :=
  if line.isReconciled then .error (.unprocessable "Line is already reconciled")
  else if line.reviewStatus ≠ bankReviewPending then
    .error (.unprocessable s!"Line is already {line.reviewStatus}")
  else if line.importedBy = some currentUser then
    .error (.forbidden "The importer cannot review their own bank statement line")
  else .ok ()

inductive BankRequest where
  | review (lineId currentUser : Uuid) (decision : BankReviewDecision) (now : DateTime)
  | reconcile

inductive BankPhase where
  | begun
  | checked (line : BankStatementLine)
  | locked (ids : List Uuid)

structure BankTx where
  request : BankRequest
  phase : BankPhase := .begun

inductive BankAction where
  | readLine
  | writeDecision
  | lockLines (limit : ℕ)
  | settle (batch : List ReconciledPayment) (faults : Faults Site ServiceError)
  | abort

/-- The database, and the decisions that were committed on it in their order. -/
structure BankStore where
  db : Db
  decisions : List (Uuid × BankReviewDecision × Uuid) := []

def BankStore.decisionsOf (s : BankStore) (id : Uuid) : List (BankReviewDecision × Uuid) :=
  (s.decisions.filter (·.1 == id)).map Prod.snd

namespace BankTx

def locks (t : BankTx) (id : Uuid) : Bool :=
  match t.phase with
  | .locked ids => ids.contains id
  | _ => false

section
variable [Context] [Format]

/-- The matches of one run, settled and committed together. -/
def settleBatch (batch : List ReconciledPayment) : AppTx Unit := do
  applyReconciledPayments 0 batch
  commit

/-- Which of its lines a run matches to which invoice is left open: any batch that
settles nothing but locked lines. -/
def advance (s : BankStore) (others : List BankTx) (t : BankTx) :
    BankAction → Option (BankStore × Option BankTx)
  | .readLine =>
    match t.request, t.phase with
    | .review lineId currentUser _ _, .begun =>
      match s.db.getBankLine lineId with
      | some line =>
        match checkReview line currentUser with
        | .ok () => some (s, some { t with phase := .checked line })
        | .error _ => some (s, none)
      | none => some (s, none)
    | _, _ => none
  | .writeDecision =>
    match t.request, t.phase with
    | .review lineId currentUser decision now, .checked _ =>
      if others.any (·.locks lineId) then none
      else some (⟨s.db.reviewBankLine lineId decision currentUser now,
        s.decisions ++ [(lineId, decision, currentUser)]⟩, none)
    | _, _ => none
  | .lockLines limit =>
    match t.request, t.phase with
    | .reconcile, .begun =>
      let free := s.db.reconcilableLines.filter (fun line => !others.any (·.locks line.id))
      some (s, some { t with phase := .locked ((free.take limit).map BankStatementLine.id) })
    | _, _ => none
  | .settle batch faults =>
    match t.request, t.phase with
    | .reconcile, .locked ids =>
      if batch.all (fun data => data.bankLineId.any ids.contains) then
        some ({ s with db := (settleBatch batch).committed faults s.db }, none)
      else none
    | _, _ => none
  | .abort => some (s, none)

def machine : Machine BankStore BankTx BankRequest BankAction where
  start request := { request }
  advance := advance

end

/-- The line that is written is still pending and unreconciled. -/
def StillPending (s : BankStore) (t : BankTx) : BankAction → Prop
  | .writeDecision =>
    match t.request with
    | .review lineId _ _ _ => ∀ line ∈ s.db.getBankLine lineId,
        line.reviewStatus = bankReviewPending ∧ line.isReconciled = false
    | .reconcile => True
  | _ => True

instance (s : BankStore) (t : BankTx) (action : BankAction) :
    Decidable (StillPending s t action) := by
  obtain ⟨request, _⟩ := t
  cases action with
  | writeDecision =>
    cases request with
    | review lineId currentUser decision now =>
      exact inferInstanceAs (Decidable (∀ line ∈ s.db.getBankLine lineId,
        line.reviewStatus = bankReviewPending ∧ line.isReconciled = false))
    | reconcile => exact .isTrue trivial
  | _ => exact .isTrue trivial

end BankTx

abbrev BankSystem := System BankStore BankTx

/-! What a batch does to one line. -/

theorem find?_updateLine {t : Table BankStatementLine} {f : BankStatementLine → BankStatementLine}
    (hf : ∀ a b : BankStatementLine, Row.clash (f a) b = Row.clash a b) (hid : ∀ a, (f a).id = a.id)
    (id other : Uuid) : (t.update (·.id == other) f hf).find? (·.id == id) =
      (t.find? (·.id == id)).map (fun line => if other = id then f line else line) := by
  have hkey : ∀ a, ((f a).id == id) = (a.id == id) := fun a => by rw [hid]
  rw [Table.find?_update (q := fun a : BankStatementLine => a.id == id) hkey]
  cases hfind : t.find? (·.id == id) with
  | none => rfl
  | some line =>
    have heq : line.id = id := by simpa using Table.of_find? hfind
    by_cases hother : other = id
    · simp [Table.updated, heq, hother]
    · simp [Table.updated, heq, hother, Ne.symm hother]

theorem getBankLine_markBankLineReconciled (db : Db) (id other : Uuid) :
    (db.markBankLineReconciled other).getBankLine id = (db.getBankLine id).map
      (fun line => if other = id then { line with isReconciled := true } else line) :=
  find?_updateLine (by intros; rfl) (by intros; rfl) id other

theorem getBankLine_reviewBankLine (db : Db) (id other user : Uuid) (now : DateTime)
    (decision : BankReviewDecision) :
    (db.reviewBankLine other decision user now).getBankLine id = (db.getBankLine id).map
      (fun line => if other = id then
        { line with
          reviewStatus := decision.value
          approvedBy := some user
          approvedAt := some now } else line) :=
  find?_updateLine (by intros; rfl) (by intros; rfl) id other

/-- A line outside the batch is left alone, and so are its payments. -/
structure BatchEffect (db db' : Db) (id : Uuid) (batch : List ReconciledPayment) : Prop where
  line : ∀ line, db.getBankLine id = some line →
    ∃ isReconciled, db'.getBankLine id = some { line with isReconciled } ∧
      ((∀ data ∈ batch, data.bankLineId ≠ some id) → isReconciled = line.isReconciled)
  payments : (∀ data ∈ batch, data.bankLineId ≠ some id) →
    ∀ p ∈ db'.payments.rows, p.bankLineId = some id → p ∈ db.payments.rows

section
variable [Context] [Format]

omit [Context] [Format] in
theorem getBankLine_settled (db : Db) (id : Uuid) (mpesa bank : Option Uuid) {line}
    (hline : db.getBankLine id = some line) :
    ∃ isReconciled, ((db.settledMpesa mpesa).settledBankLine bank).getBankLine id =
      some { line with isReconciled } ∧ (bank ≠ some id → isReconciled = line.isReconciled) := by
  have hmpesa : (db.settledMpesa mpesa).getBankLine id = some line := by
    cases mpesa <;> exact hline
  cases bank with
  | none => exact ⟨line.isReconciled, hmpesa, fun _ => rfl⟩
  | some other =>
    have hmark := getBankLine_markBankLineReconciled (db.settledMpesa mpesa) id other
    rw [hmpesa] at hmark
    by_cases hother : other = id
    · refine ⟨true, ?_, fun hne => absurd (congrArg some hother) hne⟩
      simpa [Db.settledBankLine, hother] using hmark
    · refine ⟨line.isReconciled, ?_, fun _ => rfl⟩
      simpa [Db.settledBankLine, hother] using hmark

theorem applyReconciledPayments_effect {batch : List ReconciledPayment} {index : ℕ}
    {faults : Faults Site ServiceError} {db db' : Db} {u : Unit} (id : Uuid)
    (h : applyReconciledPayments index batch faults db = .ok u db') :
    BatchEffect db db' id batch := by
  induction batch generalizing index db with
  | nil =>
    simp only [applyReconciledPayments, pure_apply, Outcome.ok.injEq] at h
    obtain ⟨-, rfl⟩ := h
    exact ⟨fun line hline => ⟨line.isReconciled, hline, fun _ => rfl⟩, fun _ p hp _ => hp⟩
  | cons data rest ih =>
    simp only [applyReconciledPayments, bind_eq_ok] at h
    obtain ⟨r, db₁, hone, hrest⟩ := h
    have hmore := ih hrest
    change applyReconciledPayment data (faults ∘ Site.inBatch index) db = .ok r db₁ at hone
    obtain ⟨invoice, -, ⟨-, rfl⟩ | ⟨-, l', event, payment, outbox, emails, hposts, -, -, -, hbank,
      rfl⟩⟩ := applyReconciledPayment_eq_ok hone
    · refine ⟨?_, ?_⟩
      · intro line hline
        obtain ⟨isReconciled, hfind, hkept⟩ := hmore.line line hline
        exact ⟨isReconciled, hfind, fun hother => hkept (List.forall_mem_cons.mp hother).2⟩
      · intro hother
        exact hmore.payments (List.forall_mem_cons.mp hother).2
    · refine ⟨?_, ?_⟩
      · intro line hline
        obtain ⟨first, hfirst, hfirstKept⟩ := getBankLine_settled
          ({ db with toInvoiceLedger := l' } : Db) id data.mpesaTransId data.bankLineId hline
        obtain ⟨isReconciled, hfind, hkept⟩ := hmore.line { line with isReconciled := first } hfirst
        refine ⟨isReconciled, hfind, ?_⟩
        intro hother
        obtain ⟨hdata, hothers⟩ := List.forall_mem_cons.mp hother
        exact (hkept hothers).trans (hfirstKept hdata)
      · intro hother p hp hpaid
        obtain ⟨hdata, hothers⟩ := List.forall_mem_cons.mp hother
        have hmem := hmore.payments hothers p hp hpaid
        obtain ⟨-, -, -, hposted⟩ := hposts
        have hinserted : db.payments.insert? payment = some l'.payments := hposted.payments
        have hledger : (((({ db with toInvoiceLedger := l' } : Db).settledMpesa
            data.mpesaTransId).settledBankLine data.bankLineId).toInvoiceLedger) = l' := by simp
        have hpayments : p ∈ l'.payments.rows := by
          rw [← hledger]
          exact hmem
        rcases (Table.mem_of_insert hinserted).mp hpayments with hold | rfl
        · exact hold
        · exact absurd (hbank.symm.trans hpaid) hdata

end

/-! What a guarded run keeps of one line. -/

structure LineSound (id : Uuid) (s : BankStore) : Prop where
  line : ∃ line, s.db.getBankLine id = some line ∧
    ((line.reviewStatus = bankReviewPending ∧ line.isReconciled = false ∧ s.decisionsOf id = []) ∨
      ∃ decision user, s.decisionsOf id = [(decision, user)] ∧
        line.reviewStatus = decision.value ∧ line.approvedBy = some user ∧
        (decision = .rejected → line.isReconciled = false))
  unpaid : ∀ line, s.db.getBankLine id = some line →
    line.reviewStatus ≠ BankReviewDecision.approved.value →
      ∀ p ∈ s.db.payments.rows, p.bankLineId ≠ some id

theorem BankStore.decisionsOf_append (s : BankStore) (db : Db) (id lineId user : Uuid)
    (decision : BankReviewDecision) :
    (BankStore.mk db (s.decisions ++ [(lineId, decision, user)])).decisionsOf id =
      s.decisionsOf id ++ if lineId = id then [(decision, user)] else [] := by
  unfold BankStore.decisionsOf
  by_cases hid : lineId = id <;> simp [hid]

/-- A decision on a line that is still pending. -/
theorem LineSound.decided {id lineId user : Uuid} {decision : BankReviewDecision} {now : DateTime}
    {s : BankStore} (h : LineSound id s)
    (hpending : ∀ line ∈ s.db.getBankLine lineId,
      line.reviewStatus = bankReviewPending ∧ line.isReconciled = false) :
    LineSound id ⟨s.db.reviewBankLine lineId decision user now,
      s.decisions ++ [(lineId, decision, user)]⟩ := by
  obtain ⟨line, hline, hcases⟩ := h.line
  have hafter := getBankLine_reviewBankLine s.db id lineId user now decision
  rw [hline, Option.map_some] at hafter
  have hdecisions := s.decisionsOf_append (s.db.reviewBankLine lineId decision user now) id lineId
    user decision
  by_cases hid : lineId = id
  · subst hid
    rw [if_pos rfl] at hafter hdecisions
    obtain ⟨hstatus, hunreconciled⟩ := hpending line hline
    have hnone : s.decisionsOf lineId = [] := by
      rcases hcases with ⟨-, -, hnone⟩ | ⟨old, -, -, hold, -⟩
      · exact hnone
      · exact absurd (hold.symm.trans hstatus) (BankReviewDecision.value_ne_pending old)
    rw [hnone, List.nil_append] at hdecisions
    refine ⟨⟨_, hafter, .inr ⟨decision, user, hdecisions, rfl, rfl, fun _ => hunreconciled⟩⟩, ?_⟩
    intro _ _ _ p hp
    exact h.unpaid line hline (by rw [hstatus]; exact (BankReviewDecision.value_ne_pending _).symm)
      p hp
  · rw [if_neg hid] at hafter hdecisions
    rw [List.append_nil] at hdecisions
    refine ⟨⟨line, hafter, ?_⟩, ?_⟩
    · rw [hdecisions]
      exact hcases
    · intro other hother hstatus p hp
      obtain rfl := Option.some.inj (hafter.symm.trans hother)
      exact h.unpaid line hline hstatus p hp

/-- A run settles nothing but lines that are approved. -/
theorem LineSound.settled {id : Uuid} {s : BankStore} {db' : Db} {batch : List ReconciledPayment}
    (h : LineSound id s) (heffect : BatchEffect s.db db' id batch)
    (happroved : ∀ data ∈ batch, data.bankLineId = some id →
      ∃ line, s.db.getBankLine id = some line ∧
        line.reviewStatus = BankReviewDecision.approved.value) :
    LineSound id { s with db := db' } := by
  obtain ⟨line, hline, hcases⟩ := h.line
  obtain ⟨isReconciled, hafter, hkept⟩ := heffect.line line hline
  have houtside : line.reviewStatus ≠ BankReviewDecision.approved.value →
      ∀ data ∈ batch, data.bankLineId ≠ some id := by
    intro hstatus data hdata hbank
    obtain ⟨other, hother, hvalue⟩ := happroved data hdata hbank
    obtain rfl := Option.some.inj (hline.symm.trans hother)
    exact hstatus hvalue
  refine ⟨⟨_, hafter, ?_⟩, ?_⟩
  · rcases hcases with ⟨hstatus, hunreconciled, hnone⟩ | ⟨decision, user, hone, hstatus, huser, hfinal⟩
    · have hother := houtside (by
        rw [hstatus]
        exact (BankReviewDecision.value_ne_pending _).symm)
      exact .inl ⟨hstatus, (hkept hother).trans hunreconciled, hnone⟩
    · refine .inr ⟨decision, user, hone, hstatus, huser, ?_⟩
      rintro rfl
      have hother := houtside (by
        rw [hstatus]
        decide)
      exact (hkept hother).trans (hfinal rfl)
  · intro other hother hstatus p hp hpaid
    obtain rfl := Option.some.inj (hafter.symm.trans hother)
    exact h.unpaid line hline hstatus p (heffect.payments (houtside hstatus) p hp hpaid) hpaid

namespace BankTx

/-- The lines that a run holds stay approved. -/
def Sound (id : Uuid) (s : BankStore) (t : BankTx) : Prop :=
  t.locks id → ∃ line, s.db.getBankLine id = some line ∧
    line.reviewStatus = BankReviewDecision.approved.value

section
variable [Context] [Format]

theorem secure (id : Uuid) (mid : BankStore) : Secure machine StillPending
    (fun s => LineSound id s ∧ mid.decisions <+: s.decisions) (Sound id) (fun _ _ => True) where
  symm _ := trivial
  starts _ hlocks := by cases hlocks
  starts_apart _ := trivial
  advances := by
    intro s others t action s' ended hs ht hothers hguard hadvance
    have hunchanged : ∀ u ∈ others, Sound id s u := fun u hu => (hothers u hu).1
    change advance s others t action = some (s', ended) at hadvance
    cases action with
    | abort =>
      obtain ⟨rfl, rfl⟩ := Prod.mk.inj (Option.some.inj hadvance)
      exact ⟨hs, by simp, hunchanged⟩
    | readLine =>
      simp only [advance] at hadvance
      split at hadvance
      · split at hadvance
        · split at hadvance
          · obtain ⟨rfl, rfl⟩ := Prod.mk.inj (Option.some.inj hadvance)
            refine ⟨hs, ?_, hunchanged⟩
            intro _ ht'
            obtain rfl := Option.some.inj ht'
            exact ⟨fun hlocks => Bool.noConfusion hlocks, fun _ _ => trivial⟩
          · obtain ⟨rfl, rfl⟩ := Prod.mk.inj (Option.some.inj hadvance)
            exact ⟨hs, by simp, hunchanged⟩
        · obtain ⟨rfl, rfl⟩ := Prod.mk.inj (Option.some.inj hadvance)
          exact ⟨hs, by simp, hunchanged⟩
      · cases hadvance
    | writeDecision =>
      simp only [advance] at hadvance
      split at hadvance
      · rename_i lineId user decision now line hrequest _
        split at hadvance
        · cases hadvance
        · rename_i hfree
          obtain ⟨rfl, rfl⟩ := Prod.mk.inj (Option.some.inj hadvance)
          have hpending : ∀ line ∈ s.db.getBankLine lineId,
              line.reviewStatus = bankReviewPending ∧ line.isReconciled = false := by
            simpa only [StillPending, hrequest] using hguard
          refine ⟨⟨hs.1.decided hpending, hs.2.trans (List.prefix_append _ _)⟩, by simp, ?_⟩
          intro u hu hlocks
          -- the line that is decided is not among those that are held
          have hne : lineId ≠ id := by
            rintro rfl
            exact hfree (List.any_eq_true.mpr ⟨u, hu, hlocks⟩)
          obtain ⟨held, hheld, hstatus⟩ := hunchanged u hu hlocks
          refine ⟨held, ?_, hstatus⟩
          rw [getBankLine_reviewBankLine, hheld, Option.map_some, if_neg hne]
      · cases hadvance
    | lockLines limit =>
      simp only [advance] at hadvance
      split at hadvance
      · obtain ⟨rfl, rfl⟩ := Prod.mk.inj (Option.some.inj hadvance)
        refine ⟨hs, ?_, hunchanged⟩
        intro _ ht'
        obtain rfl := Option.some.inj ht'
        refine ⟨?_, fun _ _ => trivial⟩
        intro hlocks
        obtain ⟨line, hline, rfl⟩ := List.mem_map.mp (List.contains_iff_mem.mp hlocks)
        have hmem := List.mem_of_mem_filter (List.mem_of_mem_take hline)
        rw [Db.reconcilableLines, List.mem_insertionSort] at hmem
        obtain ⟨hrow, hready⟩ := List.mem_filter.mp hmem
        rw [Bool.and_eq_true, beq_iff_eq] at hready
        refine ⟨line, ?_, hready.2⟩
        have hkey : ∀ a b : BankStatementLine, (a.id == line.id) = true →
            (b.id == line.id) = true → Row.clash a b := by
          intro a b ha hb
          show (a.id == b.id || _) = true
          rw [beq_iff_eq.mp ha, beq_iff_eq.mp hb, beq_self_eq_true]
          rfl
        exact (Table.find?_eq_some_iff hkey).mpr ⟨hrow, beq_self_eq_true _⟩
      · cases hadvance
    | settle batch faults =>
      simp only [advance] at hadvance
      split at hadvance
      · rename_i ids _ hphase
        split at hadvance
        · rename_i hheld
          obtain ⟨rfl, rfl⟩ := Prod.mk.inj (Option.some.inj hadvance)
          rcases committed_cases (settleBatch batch) faults s.db with hsame | ⟨r, hok⟩
          · rw [hsame]
            exact ⟨hs, by simp, hunchanged⟩
          · simp only [settleBatch, bind_eq_ok, commit, site_eq_ok] at hok
            obtain ⟨_, _, hbatch, -, heq⟩ := hok
            have heffect := applyReconciledPayments_effect id hbatch
            rw [heq] at heffect
            refine ⟨⟨hs.1.settled heffect ?_, hs.2⟩, by simp, ?_⟩
            · intro data hdata hbank
              apply ht
              have hin := List.all_eq_true.mp hheld data hdata
              rw [hbank] at hin
              simpa [locks, hphase] using hin
            · intro u hu hlocks
              obtain ⟨line, hline, hstatus⟩ := hunchanged u hu hlocks
              obtain ⟨_, hafter, -⟩ := heffect.line line hline
              exact ⟨_, hafter, hstatus⟩
        · cases hadvance
      · cases hadvance

end

end BankTx

section
variable [Context] [Format]

end

/-! One line of 100.00 and an open invoice. -/

def importedLine : BankStatementLine :=
  ⟨70, ⟨10000, by decide⟩, 3, none, "REF-1", some 6, bankReviewPending, none, none, false⟩

def oneBankLine [Context] [Format] : BankSystem where
  store := { db := { issuedInvoice with
    bankStatementLines := ⟨[importedLine], List.pairwise_singleton _ _⟩ } }
  sessions := []

def settleLine : BankAction :=
  .settle [⟨10, 100, .bank, 4, none, some 70, 80⟩] noFaults

def reviewLine (currentUser : Uuid) (decision : BankReviewDecision) :
    Sessions.Action BankRequest BankAction :=
  .start (.review 70 currentUser decision 5)

def approveThenSettle : List (Sessions.Action BankRequest BankAction) :=
  [reviewLine 8 .approved, .advance 0 .readLine, .advance 0 .writeDecision, .start .reconcile,
    .advance 0 (.lockLines 50), .advance 0 settleLine]

/-- The second reviewer read the line while it was pending and writes after it was
approved and settled. -/
def rejectAfterSettling : List (Sessions.Action BankRequest BankAction) :=
  [reviewLine 8 .approved, reviewLine 9 .rejected, .advance 0 .readLine, .advance 1 .readLine,
    .advance 0 .writeDecision, .start .reconcile, .advance 0 (.lockLines 50),
    .advance 0 settleLine, .advance 0 .writeDecision]

end Finguard
