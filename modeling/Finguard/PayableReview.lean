import Finguard.InvoiceMoves
import Finguard.Lib.Sessions
import Finguard.Treasury

/-! Payables under review. A transition locks its row, decides on what it has read and
commits; everything else may happen in between. -/

namespace Finguard
open Decimal Text Transaction Transaction.Tx Sessions

/-- The event of an approval. -/
def createdEvent (expense : Expense) : OutboxEvent :=
  ⟨"finguard.events", "expenses.created", .expenseCreated expense.id expense.amount.val
    expense.category expense.vault expense.createdAt "payable.approved"⟩

def announces (id : Uuid) (event : OutboxEvent) : Bool :=
  match event.payload with
  | .expenseCreated expenseId _ _ _ _ _ => expenseId == id
  | _ => false

def Budget.covers (budget : Budget) (category : String) (at' : DateTime) : Bool :=
  budget.category == category && budget.periodStart ≤ at' && at' ≤ budget.periodEnd

/-- What the signed-off payables have burned of a budget, each at its own instant. -/
def Db.burned (db : Db) (burnedAt : Uuid → DateTime) (budget : Budget) : ℤ :=
  db.expenses.total
    (fun e => Db.signedOff e && budget.covers e.category (burnedAt e.id)) (fun e => e.amount.units)

inductive PayableRequest where
  | createPayable (data : ExpenseCreate) (description reviewUrl : String) (currentUser : Uuid)
      (reviewers : List Reviewer) (id : Uuid) (now : DateTime)
  | transitionPayable (id currentUser : Uuid) (target : ExpenseApprovalStatus)
      (scheduledFor : Option DateTime) (now burnedAt : DateTime)

/-- `locked` holds the row as it was read under the lock. -/
structure PayableTx where
  request : PayableRequest
  locked : Option Expense := none

inductive PayableAction where
  | lock
  | finish (faults : Faults Site ServiceError)
  | abort

namespace PayableTx

def locks (t : PayableTx) (id : Uuid) : Bool := t.locked.any (·.id == id)

section
variable [Format]

def advance (db : Db) (others : List PayableTx) (t : PayableTx) :
    PayableAction → Option (Db × Option PayableTx)
  | .lock =>
    match t.request, t.locked with
    | .transitionPayable id _ _ _ _ _, none =>
      if others.any (·.locks id) then none
      else
        match db.expenses.find? (·.id == id) with
        | some expense => some (db, some { t with locked := some expense })
        | none => some (db, none)
    | _, _ => none
  | .finish faults =>
    match t.request, t.locked with
    | .createPayable data description reviewUrl currentUser reviewers id now, none =>
      some ((createPayable data description reviewUrl currentUser reviewers id now).committed
        faults db, none)
    | .transitionPayable _ currentUser target scheduledFor now burnedAt, some expense =>
      some ((decidePayable expense currentUser target scheduledFor now burnedAt).committed
        faults db, none)
    | _, _ => none
  | .abort => some (db, none)

def machine : Machine Db PayableTx PayableRequest PayableAction where
  start request := { request }
  advance := advance

end

end PayableTx

abbrev PayableSystem := System Db PayableTx

/-! What the requests do. -/

section
variable [Format]

theorem notifyReviewers_eq_ok {subject template keyPrefix : String}
    {context : List (String × Option String)} {resourceId : Uuid} {excluded : Option Uuid}
    {reviewers : List Reviewer} {faults : Faults Site ServiceError} {db db' : Db} {u : Unit}
    (h : notifyReviewers subject template context resourceId keyPrefix excluded reviewers
      faults db = .ok u db') : ∃ emailOutbox, db' = { db with emailOutbox } := by
  induction reviewers generalizing db with
  | nil =>
    simp only [notifyReviewers, pure_apply, Outcome.ok.injEq] at h
    exact ⟨_, h.2.symm⟩
  | cons user users ih =>
    by_cases hexcluded : excluded = some user.id
    · simp only [notifyReviewers, hexcluded, if_true] at h
      rw [← hexcluded] at h
      exact ih h
    · simp only [notifyReviewers, hexcluded, if_false, bind_eq_ok] at h
      obtain ⟨_, db₁, hmail, hrest⟩ := h
      obtain ⟨_, rfl⟩ := enqueueEmail_eq_ok hmail
      obtain ⟨emails, rfl⟩ := ih hrest
      exact ⟨emails, rfl⟩

theorem createPayable_eq_ok {data : ExpenseCreate} {description reviewUrl : String}
    {currentUser id : Uuid} {reviewers : List Reviewer} {now : DateTime}
    {faults : Faults Site ServiceError} {db db' : Db} {r : Uuid}
    (h : createPayable data description reviewUrl currentUser reviewers id now faults db =
      .ok r db') :
    ∃ expense, expense.approvalStatus = .pendingReview ∧ expense.submittedBy = some currentUser ∧
      expense.reviewedBy = none ∧ db.expenses.insert? expense = some db'.expenses ∧
      db'.budgets = db.budgets ∧ db'.outboxEvents = db.outboxEvents := by
  simp only [createPayable, bind_eq_ok, flush_eq_ok, read_apply, Outcome.ok.injEq, commit,
    site_eq_ok, pure_apply] at h
  obtain ⟨_, db₁, ⟨-, hcreate⟩, _, _, ⟨-, rfl⟩, _, db₂, hnotify, _, _, ⟨-, rfl⟩, -, rfl⟩ := h
  obtain ⟨emails, rfl⟩ := notifyReviewers_eq_ok hnotify
  simp only [Db.createExpense, Option.bind_eq_bind, Option.bind_eq_some_iff] at hcreate
  obtain ⟨amount, -, expenses, hinsert, hdb⟩ := hcreate
  obtain rfl := Option.some.inj hdb
  exact ⟨_, rfl, rfl, rfl, hinsert, rfl, rfl⟩

end

/-- The effect of one transition. -/
structure Decided (db db' : Db) (expense : Expense) (currentUser : Uuid)
    (target : ExpenseApprovalStatus) (scheduledFor : Option DateTime) (now burnedAt : DateTime) :
    Prop where
  legal : target ∈ payableTransitions expense.approvalStatus
  separate : isReviewDecision target → expense.submittedBy ≠ some currentUser
  expenses : db'.expenses = db.expenses.update (·.id == expense.id)
    (Expense.transition target currentUser scheduledFor now)
    (Expense.transition_clash target currentUser scheduledFor now)
  approved : target = .approved →
    db.burnBudgets expense.category expense.amount.val burnedAt =
      some { db with budgets := db'.budgets } ∧
    db'.outboxEvents = db.outboxEvents ++ [createdEvent expense]
  other : target ≠ .approved → db'.budgets = db.budgets ∧ db'.outboxEvents = db.outboxEvents

theorem decidePayable_eq_ok {expense : Expense} {currentUser : Uuid}
    {target : ExpenseApprovalStatus} {scheduledFor : Option DateTime} {now burnedAt : DateTime}
    {faults : Faults Site ServiceError} {db db' : Db} {r : Uuid}
    (hfound : db.expenses.find? (·.id == expense.id) = some expense)
    (h : decidePayable expense currentUser target scheduledFor now burnedAt faults db = .ok r db') :
    Decided db db' expense currentUser target scheduledFor now burnedAt := by
  simp only [decidePayable, approvalEffects, bind_eq_ok, raiseIf_eq_ok, assign_apply,
    Outcome.ok.injEq, commit, site_eq_ok, pure_apply] at h
  obtain ⟨_, _, ⟨hlegal, rfl⟩, _, _, ⟨hseparate, rfl⟩, _, _, ⟨-, rfl⟩, _, db₁, heffects, _, _,
    ⟨-, rfl⟩, -, rfl⟩ := h
  have hseparate' : isReviewDecision target → expense.submittedBy ≠ some currentUser :=
    fun hreview hsame => hseparate ⟨hreview, hsame⟩
  by_cases happroved : target = .approved
  · rw [if_pos happroved] at heffects
    simp only [applyExpenseSideEffects, bind_eq_ok, read_apply, getOrRaise_eq_ok, flush_eq_ok,
      assign_apply, Outcome.ok.injEq] at heffects
    obtain ⟨_, _, ⟨rfl, rfl⟩, changed, _, ⟨hchanged, rfl⟩, _, db₂, ⟨-, hburn⟩, -, rfl⟩ := heffects
    have hsame : changed = expense.transition target currentUser scheduledFor now := by
      have hupdated := Expense.find?_transition db.expenses expense.id expense.id currentUser target
        scheduledFor now
      rw [hfound] at hupdated
      have hrow := hchanged.symm.trans hupdated
      simpa [Table.updated] using hrow
    subst hsame
    simp only [Db.burnBudgets, Option.bind_eq_bind, Option.bind_eq_some_iff] at hburn
    obtain ⟨budgets, hbudgets, hdb⟩ := hburn
    obtain rfl := Option.some.inj hdb
    refine ⟨not_not.mp hlegal, hseparate', rfl, fun _ => ⟨?_, rfl⟩, fun hne => absurd happroved hne⟩
    simp only [Db.burnBudgets, Option.bind_eq_bind, Option.bind_eq_some_iff]
    exact ⟨budgets, hbudgets, rfl⟩
  · rw [if_neg happroved] at heffects
    simp only [pure_apply, Outcome.ok.injEq] at heffects
    obtain ⟨-, rfl⟩ := heffects
    exact ⟨not_not.mp hlegal, hseparate', rfl, fun heq => absurd heq happroved,
      fun _ => ⟨rfl, rfl⟩⟩

/-! What every run keeps, from a store without expenses on. -/

def Expense.final (expense : Expense) : Prop :=
  expense.approvalStatus = .rejected ∨ expense.approvalStatus = .scheduled

structure PayablesSound (start db : Db) : Prop where
  reviewed : ∀ e ∈ db.expenses.rows, ∃ submitter, e.submittedBy = some submitter ∧
    e.reviewedBy ≠ some submitter
  announced : ∀ id, db.outboxEvents.filter (announces id) =
    ((db.expenses.find? (·.id == id)).filter Db.signedOff).toList.map createdEvent
  burned : ∃ burnedAt, ∀ b ∈ start.budgets.rows, ∃ spent, { b with spent } ∈ db.budgets.rows ∧
    spent.units = b.spent.units + db.burned burnedAt b

theorem expense_find?_eq {db : Db} {id : Uuid} {expense : Expense} :
    db.expenses.find? (·.id == id) = some expense ↔
      expense ∈ db.expenses.rows ∧ expense.id = id := by
  have hkey : ∀ a b : Expense, (a.id == id) = true → (b.id == id) = true → Row.clash a b := by
    intro a b ha hb
    show (a.id == b.id) = true
    rw [beq_iff_eq.mp ha, beq_iff_eq.mp hb]
    exact beq_self_eq_true id
  rw [Table.find?_eq_some_iff hkey, beq_iff_eq]

theorem PayablesSound.created {start db db' : Db} {expense : Expense} {currentUser : Uuid}
    (h : PayablesSound start db) (hstatus : expense.approvalStatus = .pendingReview)
    (hsubmitted : expense.submittedBy = some currentUser) (hreviewed : expense.reviewedBy = none)
    (hinsert : db.expenses.insert? expense = some db'.expenses)
    (hbudgets : db'.budgets = db.budgets) (hevents : db'.outboxEvents = db.outboxEvents) :
    PayablesSound start db' := by
  have hpending : Db.signedOff expense = false := by simp [Db.signedOff, hstatus]
  refine ⟨?_, ?_, ?_⟩
  · intro e he
    rcases (Table.mem_of_insert hinsert).mp he with he | rfl
    · exact h.reviewed e he
    · exact ⟨currentUser, hsubmitted, by simp [hreviewed]⟩
  · intro id
    rw [hevents, h.announced]
    by_cases hid : expense.id = id
    · have hnew : db'.expenses.find? (·.id == id) = some expense := by
        refine Table.find?_of_insert_pos hinsert (by simpa using hid) ?_
        intro a ha
        show (a.id == expense.id) = true
        rw [hid]
        exact ha
      have hold : db.expenses.find? (·.id == id) = none := by
        cases hfind : db.expenses.find? (·.id == id) with
        | none => rfl
        | some e =>
          obtain ⟨he, heid⟩ := expense_find?_eq.mp hfind
          have hclash : Row.clash e expense = true := by
            show (e.id == expense.id) = true
            simp [heid, hid]
          exact absurd hclash (Table.not_clash_of_insert hinsert he)
      rw [hnew, hold]
      simp [Option.filter, hpending]
    · rw [Table.find?_of_insert_neg hinsert (by simpa using hid)]
  · obtain ⟨burnedAt, hburned⟩ := h.burned
    refine ⟨burnedAt, ?_⟩
    intro b hb
    obtain ⟨spent, hmem, hspent⟩ := hburned b hb
    refine ⟨spent, by rw [hbudgets]; exact hmem, ?_⟩
    rw [hspent, Db.burned, Db.burned, Table.total_of_insert hinsert]
    simp [hpending]

/-- An approval is what makes a row count, and it is the only transition that does. -/
theorem signedOff_transition {expense : Expense} {target : ExpenseApprovalStatus}
    (currentUser : Uuid) (scheduledFor : Option DateTime) (now : DateTime)
    (hlegal : target ∈ payableTransitions expense.approvalStatus) :
    (target = .approved → Db.signedOff expense = false) ∧
      Db.signedOff (expense.transition target currentUser scheduledFor now) =
        (Db.signedOff expense || target = .approved) := by
  cases hstatus : expense.approvalStatus <;> rw [hstatus] at hlegal <;>
    cases target <;> simp_all [payableTransitions, Db.signedOff, Expense.transition]

theorem burn_row {db : Db} {budgets : Table Budget} {category : String} {amount : SettledAmount}
    {at' : DateTime} {budget : Budget} {spent : Money}
    (hburn : db.burnBudgets category amount.val at' = some { db with budgets })
    (hmem : { budget with spent } ∈ db.budgets.rows) :
    ∃ spent' : Money, { budget with spent := spent' } ∈ budgets.rows ∧
      spent'.units = spent.units + if budget.covers category at' then amount.units else 0 := by
  simp only [Db.burnBudgets, Option.bind_eq_bind, Option.bind_eq_some_iff] at hburn
  obtain ⟨budgets', hupdate, hdb⟩ := hburn
  obtain rfl : budgets' = budgets := by
    have hbudgets := congrArg Db.budgets (Option.some.inj hdb)
    exact hbudgets
  cases hcovers : budget.covers category at' with
  | true =>
    obtain ⟨burned, hburned, hrow⟩ := Table.update?_mem_pos hupdate hmem hcovers
    simp only [Db.Budget.burn?, Option.bind_eq_bind, Option.bind_eq_some_iff] at hburned
    obtain ⟨spent', hstore, hburned⟩ := hburned
    obtain rfl := Option.some.inj hburned
    refine ⟨spent', hrow, ?_⟩
    rw [Numeric.val, Numeric.val, ofUnits_add] at hstore
    rw [Numeric.units_of_store_ofUnits hstore, if_pos rfl]
  | false =>
    exact ⟨spent, Table.update?_mem_neg hupdate hmem hcovers, by simp⟩

theorem Decided.burned {start db db' : Db} {expense : Expense} {currentUser : Uuid}
    {target : ExpenseApprovalStatus} {scheduledFor : Option DateTime} {now at' : DateTime}
    (hfound : expense ∈ db.expenses.rows)
    (hd : Decided db db' expense currentUser target scheduledFor now at')
    {burnedAt : Uuid → DateTime}
    (h : ∀ b ∈ start.budgets.rows, ∃ spent, { b with spent } ∈ db.budgets.rows ∧
      spent.units = b.spent.units + db.burned burnedAt b) :
    ∃ burnedAt', ∀ b ∈ start.budgets.rows, ∃ spent, { b with spent } ∈ db'.budgets.rows ∧
      spent.units = b.spent.units + db'.burned burnedAt' b := by
  obtain ⟨hunsigned, hsigned⟩ := signedOff_transition currentUser scheduledFor now hd.legal
  -- only the decided row may change its contribution
  have htotal : ∀ (burnedAt' : Uuid → DateTime), (∀ id ≠ expense.id, burnedAt' id = burnedAt id) →
      ∀ b : Budget, db'.burned burnedAt' b +
        (if Db.signedOff expense && b.covers expense.category (burnedAt expense.id) then
          expense.amount.units else 0) =
        db.burned burnedAt b + if (Db.signedOff expense || target = .approved) &&
          b.covers expense.category (burnedAt' expense.id) then expense.amount.units else 0 := by
    intro burnedAt' hsame b
    have hrow := Table.total_update_row (f := fun e : Expense => e.amount.units)
      (p := fun e => Db.signedOff e && b.covers e.category (burnedAt e.id))
      (r := fun e => Db.signedOff e && b.covers e.category (burnedAt' e.id))
      (q := (·.id == expense.id))
      (Expense.transition_clash target currentUser scheduledFor now) hfound
      (show (expense.id == expense.id) = true by simp) (by simp) (by
        intro e he hne
        have hid : e.id ≠ expense.id := by
          intro hid
          have hclash : Row.clash e expense = true := by
            show (e.id == expense.id) = true
            simp [hid]
          exact hne (Table.eq_of_clash he hfound hclash)
        exact ⟨by simp [hid], by simp only [hsame e.id hid]⟩)
    rw [hsigned] at hrow
    rw [Db.burned, Db.burned, hd.expenses]
    exact hrow
  by_cases happroved : target = .approved
  · refine ⟨Function.update burnedAt expense.id at', ?_⟩
    intro b hb
    obtain ⟨spent, hmem, hspent⟩ := h b hb
    obtain ⟨spent', hmem', hspent'⟩ := burn_row (hd.approved happroved).1 hmem
    refine ⟨spent', hmem', ?_⟩
    have hchange := htotal (Function.update burnedAt expense.id at')
      (fun id hid => Function.update_of_ne hid _ _) b
    simp only [hunsigned happroved, Bool.false_and, Bool.false_eq_true, if_false, add_zero,
      happroved, decide_true, Bool.or_true, Bool.true_and, Function.update_self] at hchange
    omega
  · refine ⟨burnedAt, ?_⟩
    intro b hb
    obtain ⟨spent, hmem, hspent⟩ := h b hb
    refine ⟨spent, by rw [(hd.other happroved).1]; exact hmem, ?_⟩
    have hchange := htotal burnedAt (fun _ _ => rfl) b
    simp only [happroved, decide_false, Bool.or_false] at hchange
    omega

theorem PayablesSound.decided {start db db' : Db} {expense : Expense} {currentUser : Uuid}
    {target : ExpenseApprovalStatus} {scheduledFor : Option DateTime} {now burnedAt : DateTime}
    (hfound : expense ∈ db.expenses.rows)
    (hd : Decided db db' expense currentUser target scheduledFor now burnedAt)
    (h : PayablesSound start db) : PayablesSound start db' := by
  refine ⟨?_, ?_, ?_⟩
  · intro e he
    rw [hd.expenses] at he
    obtain ⟨e₀, he₀, ⟨-, rfl⟩ | ⟨hid, rfl⟩⟩ := Table.mem_update he
    · exact h.reviewed e he₀
    · obtain ⟨submitter, hsubmitted, hreviewed⟩ := h.reviewed e₀ he₀
      refine ⟨submitter, hsubmitted, ?_⟩
      have hclash : Row.clash e₀ expense = true := hid
      obtain rfl := Table.eq_of_clash he₀ hfound hclash
      by_cases hreview : isReviewDecision target
      · have hne := hd.separate hreview
        rw [hsubmitted] at hne
        simp only [Expense.transition, if_pos hreview]
        exact fun heq => hne heq.symm
      · simp only [Expense.transition, if_neg hreview]
        exact hreviewed
  · intro id
    obtain ⟨hunsigned, hsigned⟩ := signedOff_transition currentUser scheduledFor now hd.legal
    have hfind := Expense.find?_transition db.expenses id expense.id currentUser target
      scheduledFor now
    rw [← hd.expenses] at hfind
    rw [hfind]
    by_cases hid : expense.id = id
    · have hold : db.expenses.find? (·.id == id) = some expense :=
        expense_find?_eq.mpr ⟨hfound, hid⟩
      have hbefore := h.announced id
      rw [hold] at hbefore ⊢
      have hnew : Table.updated (fun e : Expense => e.id == expense.id)
          (Expense.transition target currentUser scheduledFor now) expense =
          expense.transition target currentUser scheduledFor now := by simp [Table.updated]
      rw [Option.map_some, hnew]
      by_cases happroved : target = .approved
      · have hannounces : announces id (createdEvent expense) = true := by
          simp [announces, createdEvent, hid]
        rw [(hd.approved happroved).2, List.filter_append, hbefore]
        simp only [Option.filter, hunsigned happroved, happroved, if_true, Bool.false_eq_true,
          if_false, Option.toList, List.map_nil, List.nil_append, List.filter_cons,
          List.filter_nil, hannounces]
        rfl
      · rw [(hd.other happroved).2, hbefore]
        simp only [Option.filter, hsigned, happroved, decide_false, Bool.or_false]
        cases Db.signedOff expense <;> rfl
    · have hkept : (db.expenses.find? (·.id == id)).map (Table.updated
          (fun e : Expense => e.id == expense.id)
          (Expense.transition target currentUser scheduledFor now)) =
            db.expenses.find? (·.id == id) := by
        cases hold : db.expenses.find? (·.id == id) with
        | none => rfl
        | some e =>
          obtain ⟨-, heid⟩ := expense_find?_eq.mp hold
          have hne : e.id ≠ expense.id := by
            rw [heid]
            exact Ne.symm hid
          simp [Table.updated, hne]
      rw [hkept, ← h.announced id]
      by_cases happroved : target = .approved
      · have hannounces : announces id (createdEvent expense) = false := by
          simp [announces, createdEvent, hid]
        rw [(hd.approved happroved).2, List.filter_append]
        simp [hannounces]
      · rw [(hd.other happroved).2]
  · obtain ⟨burnedAt, hburned⟩ := h.burned
    exact hd.burned hfound hburned

theorem Decided.keeps_other {db db' : Db} {expense e : Expense} {currentUser : Uuid}
    {target : ExpenseApprovalStatus} {scheduledFor : Option DateTime} {now burnedAt : DateTime}
    (hd : Decided db db' expense currentUser target scheduledFor now burnedAt)
    (he : e ∈ db.expenses.rows) (hne : e.id ≠ expense.id) : e ∈ db'.expenses.rows := by
  rw [hd.expenses, Table.rows_update]
  exact List.mem_map.mpr ⟨e, he, by simp [Table.updated, hne]⟩

/-- No transition leaves a final row. -/
theorem Decided.keeps_final {db db' : Db} {expense e : Expense} {currentUser : Uuid}
    {target : ExpenseApprovalStatus} {scheduledFor : Option DateTime} {now burnedAt : DateTime}
    (hfound : expense ∈ db.expenses.rows)
    (hd : Decided db db' expense currentUser target scheduledFor now burnedAt)
    (he : e ∈ db.expenses.rows) (hfinal : e.final) : e ∈ db'.expenses.rows := by
  apply hd.keeps_other he
  intro hid
  have hclash : Row.clash e expense = true := by
    show (e.id == expense.id) = true
    simp [hid]
  obtain rfl := Table.eq_of_clash he hfound hclash
  have hlegal := hd.legal
  rcases hfinal with hstatus | hstatus <;> rw [hstatus] at hlegal <;> cases hlegal

namespace PayableTx

/-- A locked row is still the one in the table. -/
def Sound (db : Db) (t : PayableTx) : Prop := ∀ e ∈ t.locked, e ∈ db.expenses.rows

def Apart (t u : PayableTx) : Prop := ∀ e ∈ t.locked, ∀ e' ∈ u.locked, e.id ≠ e'.id

section
variable [Format]

/-- What one step keeps, together with the final rows of an earlier store. -/
theorem secure (start mid : Db) : Secure machine (fun _ _ _ => True)
    (fun db => PayablesSound start db ∧
      ∀ e ∈ mid.expenses.rows, e.final → e ∈ db.expenses.rows) Sound Apart where
  symm h e he e' he' := Ne.symm (h e' he' e he)
  starts _ e he := by cases he
  starts_apart _ e he := by cases he
  advances := by
    intro db others t action db' ended hdb ht hothers _ hadvance
    have hunchanged : ∀ u ∈ others, Sound db u := fun u hu => (hothers u hu).1
    change advance db others t action = some (db', ended) at hadvance
    cases action with
    | abort =>
      obtain ⟨rfl, rfl⟩ := Prod.mk.inj (Option.some.inj hadvance)
      exact ⟨hdb, by simp, hunchanged⟩
    | lock =>
      simp only [advance] at hadvance
      split at hadvance
      · rename_i id _ _ _ _ _ _ hlocked
        split at hadvance
        · cases hadvance
        · rename_i hfree
          split at hadvance
          · rename_i expense hfind
            obtain ⟨rfl, rfl⟩ := Prod.mk.inj (Option.some.inj hadvance)
            obtain ⟨hmem, hid⟩ := expense_find?_eq.mp hfind
            refine ⟨hdb, ?_, hunchanged⟩
            intro _ ht'
            obtain rfl := Option.some.inj ht'
            refine ⟨?_, ?_⟩
            · intro e he
              obtain rfl := Option.some.inj he
              exact hmem
            · intro u hu e he e' he' hsame
              obtain rfl := Option.some.inj he
              apply hfree
              rw [List.any_eq_true]
              refine ⟨u, hu, ?_⟩
              rw [locks, he']
              simp [← hsame, hid]
          · obtain ⟨rfl, rfl⟩ := Prod.mk.inj (Option.some.inj hadvance)
            exact ⟨hdb, by simp, hunchanged⟩
      · cases hadvance
    | finish faults =>
      simp only [advance] at hadvance
      split at hadvance
      · obtain ⟨rfl, rfl⟩ := Prod.mk.inj (Option.some.inj hadvance)
        rcases committed_cases (createPayable _ _ _ _ _ _ _) faults db with hsame | ⟨r, hok⟩
        · rw [hsame]
          exact ⟨hdb, by simp, hunchanged⟩
        · obtain ⟨expense, hstatus, hsubmitted, hreviewed, hinsert, hbudgets, hevents⟩ :=
            createPayable_eq_ok hok
          have hkept : ∀ e ∈ db.expenses.rows, e ∈ (Tx.committed _ faults db).expenses.rows :=
            fun e he => (Table.mem_of_insert hinsert).mpr (.inl he)
          refine ⟨⟨hdb.1.created hstatus hsubmitted hreviewed hinsert hbudgets hevents,
            fun e he hfinal => hkept e (hdb.2 e he hfinal)⟩, by simp, ?_⟩
          intro u hu e he
          exact hkept e (hunchanged u hu e he)
      · rename_i expense _ hlocked
        obtain ⟨rfl, rfl⟩ := Prod.mk.inj (Option.some.inj hadvance)
        have hfound := ht expense hlocked
        rcases committed_cases (decidePayable _ _ _ _ _ _) faults db with hsame | ⟨r, hok⟩
        · rw [hsame]
          exact ⟨hdb, by simp, hunchanged⟩
        · have hd := decidePayable_eq_ok (expense_find?_eq.mpr ⟨hfound, rfl⟩) hok
          refine ⟨⟨hdb.1.decided hfound hd,
            fun e he hfinal => hd.keeps_final hfound (hdb.2 e he hfinal) hfinal⟩, by simp, ?_⟩
          intro u hu e he
          exact hd.keeps_other (hunchanged u hu e he) ((hothers u hu).2 expense hlocked e he).symm
      · cases hadvance

end

end PayableTx

section
variable [Format]

/-- Every payable counts exactly once if it is signed off and not at all otherwise, is
reviewed by somebody else, and stays rejected or scheduled. -/
theorem payables_reviewed_once {start mid sys : PayableSystem}
    (hexpenses : start.store.expenses = ∅)
    (hevents : ∀ event ∈ start.store.outboxEvents, ∀ id, announces id event = false)
    (hsessions : start.sessions = [])
    (hmid : Runs.Reaches PayableTx.machine.step Runs.always start mid)
    (hrun : Runs.Reaches PayableTx.machine.step Runs.always mid sys) :
    (∃ burnedAt, ∀ b ∈ start.store.budgets.rows, ∃ spent,
      { b with spent } ∈ sys.store.budgets.rows ∧
        spent.units = b.spent.units + sys.store.burned burnedAt b) ∧
    (∀ e ∈ sys.store.expenses.rows,
      sys.store.outboxEvents.filter (announces e.id) =
        (if Db.signedOff e then [createdEvent e] else []) ∧
      ∀ reviewer ∈ e.reviewedBy, e.submittedBy ≠ some reviewer) ∧
    ∀ e ∈ mid.store.expenses.rows,
      e.approvalStatus = .rejected ∨ e.approvalStatus = .scheduled →
        e ∈ sys.store.expenses.rows := by
  have hstart : PayablesSound start.store start.store := by
    refine ⟨?_, ?_, ⟨fun _ => 0, ?_⟩⟩
    · rw [hexpenses]
      simp
    · intro id
      have hnone : start.store.expenses.find? (·.id == id) = none := by
        rw [hexpenses]
        rfl
      rw [hnone]
      exact List.filter_eq_nil_iff.mpr (fun event hevent => by simp [hevents event hevent id])
    · intro b hb
      have hzero : start.store.burned (fun _ => 0) b = 0 := by
        unfold Db.burned
        rw [hexpenses]
        rfl
      exact ⟨b.spent, hb, by rw [hzero, add_zero]⟩
  have hfirst := (PayableTx.secure start.store start.store).run_always hmid
    ⟨⟨hstart, fun _ he _ => he⟩, by simp [hsessions], by rw [hsessions]; exact .nil⟩
  have hsound := ((PayableTx.secure start.store mid.store).run_always hrun
    ⟨⟨hfirst.store.1, fun _ he _ => he⟩, hfirst.each, hfirst.apart⟩).store
  refine ⟨hsound.1.burned, ?_, hsound.2⟩
  intro e he
  refine ⟨?_, ?_⟩
  · rw [hsound.1.announced, expense_find?_eq.mpr ⟨he, rfl⟩]
    simp only [Option.filter]
    cases Db.signedOff e <;> rfl
  · intro reviewer hreviewer hsame
    obtain ⟨submitter, hsubmitted, hne⟩ := hsound.1.reviewed e he
    rw [hsubmitted] at hsame
    exact hne (hreviewer.trans hsame.symm)

end

/-! A bill with two reviewers, the second of whom waits for the first. -/

def oneBudget : PayableSystem where
  store := { budgets := ⟨[⟨3, "rent", default, default, 0, 100⟩], List.pairwise_singleton _ _⟩ }
  sessions := []

def approveBill (reviewer : Uuid) : Sessions.Action PayableRequest PayableAction :=
  .start (.transitionPayable 40 reviewer .approved none 20 20)

def submitBill : List (Sessions.Action PayableRequest PayableAction) :=
  [.start (.createPayable ⟨"rent", 250, .bank, by norm_num⟩ "" "" 7 [] 40 10),
    .advance 0 (.finish noFaults)]

def approveTwice : List (Sessions.Action PayableRequest PayableAction) :=
  [approveBill 8, approveBill 9, .advance 1 .lock, .advance 0 (.finish noFaults), .advance 0 .lock,
    .advance 0 (.finish noFaults)]

theorem approvedTwice_counts_once :
    letI := Format.plain
    ∃ mid sys, Runs.Reaches PayableTx.machine.step Runs.always oneBudget mid ∧
      Runs.Reaches PayableTx.machine.step Runs.always mid sys ∧
      sys.store.expenses.rows.map (fun e => (e.approvalStatus, e.reviewedBy)) =
        [(.approved, some 8)] ∧
      ∀ e ∈ sys.store.expenses.rows, sys.store.outboxEvents.filter (announces e.id) =
        if Db.signedOff e then [createdEvent e] else [] := by
  let := Format.plain
  have hreplay : ((Runs.replay PayableTx.machine.step Runs.always oneBudget submitBill).bind
      (fun mid => Runs.replay PayableTx.machine.step Runs.always mid approveTwice)).map
        (fun sys => sys.store.expenses.rows.map (fun e => (e.approvalStatus, e.reviewedBy))) =
      some [(.approved, some 8)] := by
    decide +kernel
  obtain ⟨sys, hsys, hrows⟩ := Option.map_eq_some_iff.mp hreplay
  obtain ⟨mid, hmid, hsys⟩ := Option.bind_eq_some_iff.mp hsys
  have hfirst := Runs.replay_reaches hmid
  have hrest := Runs.replay_reaches hsys
  refine ⟨mid, sys, hfirst, hrest, hrows, ?_⟩
  intro e he
  exact ((payables_reviewed_once rfl (by simp [oneBudget]) rfl hfirst hrest).2.1 e he).1

end Finguard
