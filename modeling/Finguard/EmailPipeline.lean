import Finguard.Model
import Finguard.Lib.Json
import Finguard.Lib.Runs
import Finguard.Lib.Text

/-! The email pipeline: the outbox with its unique key, the dead letters beside it, the daily
reminders and the replay of an operator. -/

namespace Finguard
open Text

class EmailSettings where
  mailEnabled : Bool
  emailMaxRetries : ℤ
  reminderDueSoonDays : ℤ
  reminderOverdueDays : List ℤ

abbrev EmailSettings.default : EmailSettings := ⟨true, 5, 3, [1, 7, 14, 30]⟩

/-- How the texts of a reminder are written. -/
class ReminderText where
  amount : Money → String
  isoDate : ℤ → String
  unsubscribeUrl : String → String

inductive EmailStatus where
  | pending
  | sent
  | failed
deriving DecidableEq

inductive EmailCategory where
  | account
  | receipt
  | invoice
  | approval
  | reminder
deriving DecidableEq

def suppressibleCategories : List EmailCategory := [.approval, .reminder]

structure EmailRequest where
  toEmail : Option String
  toName : Option String := none
  subject : String
  template : String
  context : Json.Fields
  idempotencyKey : String
  category : EmailCategory := .account
  scheduledFor : Option DateTime := none

/-- What both tables carry. The origin is the key that a trigger had given. -/
structure QueuedEmail where
  toEmail : String
  toName : Option String
  subject : String
  template : String
  context : Json.Fields
  idempotencyKey : String
  origin : String

structure EmailOutboxRow extends QueuedEmail where
  id : Uuid
  status : EmailStatus := .pending
  attempts : ℕ := 0
  lastError : Option String := none
  scheduledFor : Option DateTime := none
  sentAt : Option DateTime := none
  createdAt : DateTime

structure EmailDeadLetter extends QueuedEmail where
  id : Uuid
  originalEmailId : Uuid
  attempts : ℕ
  lastError : Option String
  originalCreatedAt : DateTime
  deadLetteredAt : DateTime

instance : Row EmailOutboxRow where
  clash a b := a.id == b.id || a.idempotencyKey == b.idempotencyKey
  clash_symm h := by
    simp only [Bool.or_eq_true, beq_iff_eq] at h ⊢
    exact h.imp Eq.symm Eq.symm

instance : Row EmailDeadLetter where
  clash a b := a.id == b.id
  clash_symm h := by
    rw [beq_iff_eq] at h ⊢
    exact h.symm

structure EmailStore where
  now : DateTime
  outbox : Table EmailOutboxRow := ∅
  deadLetters : Table EmailDeadLetter := ∅
  optOuts : List (String × EmailCategory) := []

inductive SendOutcome where
  | sent
  | failed (error : String) (deadLetterId : Uuid)

inductive EmailAction where
  | enqueue (request : EmailRequest) (id : Uuid)
  | sweep (invoices : Table Invoice) (customers : Table Customer) (ids : Uuid → Uuid)
  | flush (outcome : Uuid → SendOutcome)
  | replay (deadLetterId : Uuid) (id replayId : Uuid)
  | setOptOut (email : String) (category : EmailCategory) (optedOut : Bool)
  | elapse (moment : DateTime)

/-- The day of an instant. -/
def dayOf (moment : DateTime) : ℤ := moment / 86400000000

def reminderTier [EmailSettings] (dueDate now : DateTime) : Option String :=
  let daysUntilDue := dayOf dueDate - dayOf now
  if 0 < daysUntilDue ∧ daysUntilDue ≤ EmailSettings.reminderDueSoonDays then some "due_soon"
  else
    ((EmailSettings.reminderOverdueDays.insertionSort (· ≥ ·)).find? (· ≤ -daysUntilDue)).map
      fun threshold => "overdue_" ++ toString threshold

def reminderRequest [ReminderText] (now : DateTime) (invoice : Invoice) (customer : Customer)
    (dueDate : DateTime) (tier : String) : EmailRequest :=
  let isOverdue := "overdue".isPrefixOf tier
  { toEmail := some customer.email
    toName := some customer.name
    subject := (if isOverdue then "Overdue" else "Reminder") ++ ": invoice " ++ invoice.invoiceNumber
    template := "payment_reminder"
    context := [("customer_name", .text customer.name),
      ("invoice_number", .text invoice.invoiceNumber), ("currency", .text invoice.currency),
      ("balance_due", .text (ReminderText.amount invoice.balanceDue)),
      ("due_date", .text (ReminderText.isoDate (dayOf dueDate))), ("is_overdue", .bool isOverdue),
      ("days_overdue", .number (max 0 (dayOf now - dayOf dueDate) : ℤ)),
      ("unsubscribe_url", .text (ReminderText.unsubscribeUrl customer.email))]
    idempotencyKey := "reminder:" ++ toString invoice.id ++ ":" ++ tier
    category := .reminder }

/-- The reminders of one sweep, each with the invoice it is for. -/
def reminders [EmailSettings] [ReminderText] (now : DateTime) (invoices : Table Invoice)
    (customers : Table Customer) : List (EmailRequest × Uuid) :=
  invoices.rows.filterMap fun invoice => do
    let customer ← customers.find? (·.id == invoice.customerId)
    guard (invoice.status ∈ [.sent, .partiallyPaid, .overdue] ∧ 0 < invoice.balanceDue.units)
    let dueDate ← invoice.dueDate
    let tier ← reminderTier dueDate now
    return (reminderRequest now invoice customer dueDate tier, invoice.id)

namespace EmailOutboxRow

def markSent (sentAt : DateTime) (row : EmailOutboxRow) : EmailOutboxRow :=
  { row with status := .sent, sentAt := some sentAt }

/-- `error` is the exception as it is represented. -/
def recordFailure (error : String) (row : EmailOutboxRow) : EmailOutboxRow :=
  { row with
    status := .failed
    attempts := row.attempts + 1
    lastError := some (String.ofList (error.toList.take 1000)) }

def toDeadLetter (row : EmailOutboxRow) (id : Uuid) (deadLetteredAt : DateTime) : EmailDeadLetter :=
  { row with
    id
    originalEmailId := row.id
    originalCreatedAt := row.createdAt
    deadLetteredAt }

theorem markSent_clash (sentAt : DateTime) (a b : EmailOutboxRow) :
    Row.clash (a.markSent sentAt) b = Row.clash a b := rfl

theorem recordFailure_clash (error : String) (a b : EmailOutboxRow) :
    Row.clash (a.recordFailure error) b = Row.clash a b := rfl

end EmailOutboxRow

namespace EmailStore

def isOptedOut [Unicode] (s : EmailStore) (email : String) (category : EmailCategory) : Bool :=
  s.optOuts.any fun optOut => optOut.1 = Unicode.lower email ∧ optOut.2 = category

/-- Whom a request would be sent to. -/
def recipient? [Unicode] (s : EmailStore) (request : EmailRequest) : Option String := do
  let email ← request.toEmail
  guard (email ≠ "")
  guard (¬ (request.category ∈ suppressibleCategories ∧ s.isOptedOut email request.category))
  return email

def newRow (s : EmailStore) (request : EmailRequest) (email : String) (id : Uuid) :
    EmailOutboxRow :=
  { request with
    toEmail := email
    origin := request.idempotencyKey
    id
    createdAt := s.now }

/-- A conflict on the key is passed over in silence. -/
def enqueueEmail [Unicode] (s : EmailStore) (request : EmailRequest) (id : Uuid) :
    Option (EmailStore × Bool) :=
  match s.recipient? request with
  | none => some (s, false)
  | some email =>
    if s.outbox.rows.any (·.idempotencyKey == request.idempotencyKey) then some (s, false)
    else do
      let outbox ← s.outbox.insert? (s.newRow request email id)
      return ({ s with outbox }, true)

def sweep [Unicode] [EmailSettings] [ReminderText] (s : EmailStore) (invoices : Table Invoice)
    (customers : Table Customer) (ids : Uuid → Uuid) : Option EmailStore :=
  if EmailSettings.mailEnabled then
    (reminders s.now invoices customers).foldlM
      (fun s reminder => (s.enqueueEmail reminder.1 (ids reminder.2)).map Prod.fst) s
  else some s

def dueBatch (s : EmailStore) : List EmailOutboxRow :=
  ((s.outbox.filter fun row => (row.status = .pending ∨ row.status = .failed) ∧
    row.scheduledFor.all (· ≤ s.now)).insertionSort (fun a b => a.createdAt ≤ b.createdAt)).take 25

def markSent (s : EmailStore) (row : EmailOutboxRow) : EmailStore :=
  { s with
    outbox := s.outbox.update (·.id == row.id) (.markSent s.now)
      (EmailOutboxRow.markSent_clash s.now) }

def recordFailure (s : EmailStore) (row : EmailOutboxRow) (error : String) : EmailStore :=
  { s with
    outbox := s.outbox.update (·.id == row.id) (.recordFailure error)
      (EmailOutboxRow.recordFailure_clash error) }

def moveToDeadLetters (s : EmailStore) (row : EmailOutboxRow) (error : String) (id : Uuid) :
    Option EmailStore := do
  let deadLetters ← s.deadLetters.insert? ((row.recordFailure error).toDeadLetter id s.now)
  return { s with outbox := s.outbox.delete (·.id == row.id), deadLetters }

def sendRow [EmailSettings] (s : EmailStore) (row : EmailOutboxRow) : SendOutcome → Option EmailStore
  | .sent => some (s.markSent row)
  | .failed error deadLetterId =>
    if EmailSettings.emailMaxRetries ≤ row.attempts + 1 then
      s.moveToDeadLetters row error deadLetterId
    else some (s.recordFailure row error)

def flush [EmailSettings] (s : EmailStore) (outcome : Uuid → SendOutcome) : Option EmailStore :=
  s.dueBatch.foldlM (fun s row => s.sendRow row (outcome row.id)) s

/-- The row of a replay. Its key is a new one. -/
def replayRow (s : EmailStore) (letter : EmailDeadLetter) (id replayId : Uuid) : EmailOutboxRow :=
  { letter with
    idempotencyKey := letter.idempotencyKey ++ ":replay:" ++ toString replayId
    id
    status := .pending
    attempts := 0
    lastError := none
    createdAt := s.now }

def replayDeadLetter (s : EmailStore) (deadLetterId id replayId : Uuid) : Option EmailStore := do
  let letter ← s.deadLetters.find? (·.id == deadLetterId)
  let outbox ← s.outbox.insert? (s.replayRow letter id replayId)
  return { s with outbox, deadLetters := s.deadLetters.delete (·.id == deadLetterId) }

def setOptOut [Unicode] (s : EmailStore) (email : String) (category : EmailCategory)
    (optedOut : Bool) : EmailStore :=
  if category ∉ suppressibleCategories then s
  else if optedOut then { s with optOuts := (Unicode.lower email, category) :: s.optOuts }
  else { s with optOuts := s.optOuts.filter (· ≠ (Unicode.lower email, category)) }

def step [Unicode] [EmailSettings] [ReminderText] (s : EmailStore) : EmailAction → Option EmailStore
  | .enqueue request id => (s.enqueueEmail request id).map Prod.fst
  | .sweep invoices customers ids => s.sweep invoices customers ids
  | .flush outcome => s.flush outcome
  | .replay deadLetterId id replayId => s.replayDeadLetter deadLetterId id replayId
  | .setOptOut email category optedOut => some (s.setOptOut email category optedOut)
  | .elapse moment => if s.now ≤ moment then some { s with now := moment } else none

/-- How many messages descend from a key, in both tables. -/
def descendants (s : EmailStore) (key : String) : ℕ :=
  (s.outbox.filter (·.origin == key)).length + (s.deadLetters.filter (·.origin == key)).length

def OnePerKey (s : EmailStore) : Prop := ∀ key, s.descendants key ≤ 1

/-- Where the key is not in the outbox, no message that descends from it is anywhere. -/
def Unretired (s : EmailStore) (key : String) : Prop :=
  (∀ row ∈ s.outbox.rows, row.idempotencyKey ≠ key) →
    (∀ row ∈ s.outbox.rows, row.origin ≠ key) ∧ ∀ letter ∈ s.deadLetters.rows, letter.origin ≠ key

instance (s : EmailStore) (key : String) : Decidable (s.Unretired key) := by
  unfold Unretired
  infer_instance

/-- No trigger gives a key whose message has been dead-lettered. -/
def Unrepeated [Unicode] [EmailSettings] [ReminderText] (s : EmailStore) : EmailAction → Prop
  | .enqueue request _ => (s.recipient? request).isSome → s.Unretired request.idempotencyKey
  | .sweep invoices customers _ => ∀ reminder ∈ reminders s.now invoices customers,
      (s.recipient? reminder.1).isSome → s.Unretired reminder.1.idempotencyKey
  | _ => True

instance [Unicode] [EmailSettings] [ReminderText] (s : EmailStore) (action : EmailAction) :
    Decidable (s.Unrepeated action) := by
  cases action <;> unfold Unrepeated <;> infer_instance

section
variable {s s' : EmailStore} {key : String}

theorem Unretired.descendants (h : s.Unretired key)
    (hfree : ∀ row ∈ s.outbox.rows, row.idempotencyKey ≠ key) : s.descendants key = 0 := by
  obtain ⟨houtbox, hletters⟩ := h hfree
  have hrows : s.outbox.filter (·.origin == key) = [] := by
    simpa [Table.filter] using houtbox
  have hdead : s.deadLetters.filter (·.origin == key) = [] := by
    simpa [Table.filter] using hletters
  simp [EmailStore.descendants, hrows, hdead]

theorem descendants_insert {row : EmailOutboxRow} {outbox : Table EmailOutboxRow}
    (h : s.outbox.insert? row = some outbox) (key : String) :
    ({ s with outbox }).descendants key =
      s.descendants key + if row.origin == key then 1 else 0 := by
  simp only [EmailStore.descendants, Table.filter_of_insert h]
  by_cases horigin : (row.origin == key) = true
  · simp only [horigin, if_true, List.length_append, List.length_singleton]
    omega
  · simp only [horigin, if_false, Bool.false_eq_true]
    omega

variable [Unicode]

/-- An enqueue changes nothing, or it inserts a row under a key that is not there. -/
theorem enqueueEmail_eq_some {request : EmailRequest} {id : Uuid} {b : Bool}
    (h : s.enqueueEmail request id = some (s', b)) :
    s' = s ∨ ∃ email outbox, s.recipient? request = some email ∧
      (∀ row ∈ s.outbox.rows, row.idempotencyKey ≠ request.idempotencyKey) ∧
      s.outbox.insert? (s.newRow request email id) = some outbox ∧ s' = { s with outbox } := by
  cases hrecipient : s.recipient? request with
  | none =>
    simp only [enqueueEmail, hrecipient, Option.some.injEq, Prod.mk.injEq] at h
    exact .inl h.1.symm
  | some email =>
    simp only [enqueueEmail, hrecipient] at h
    by_cases hkey : s.outbox.rows.any (·.idempotencyKey == request.idempotencyKey)
    · rw [if_pos hkey] at h
      simp only [Option.some.injEq, Prod.mk.injEq] at h
      exact .inl h.1.symm
    · rw [if_neg hkey] at h
      simp only [Option.bind_eq_bind, Option.bind_eq_some_iff] at h
      obtain ⟨outbox, hinsert, hsome⟩ := h
      simp only [pure, Option.some.injEq, Prod.mk.injEq] at hsome
      have hfree : ∀ row ∈ s.outbox.rows, row.idempotencyKey ≠ request.idempotencyKey := by
        simpa using hkey
      exact .inr ⟨email, outbox, rfl, hfree, hinsert, hsome.1.symm⟩

theorem OnePerKey.enqueue (h : s.OnePerKey) {request : EmailRequest} {id : Uuid} {b : Bool}
    (hguard : (s.recipient? request).isSome → s.Unretired request.idempotencyKey)
    (henqueue : s.enqueueEmail request id = some (s', b)) : s'.OnePerKey := by
  rcases enqueueEmail_eq_some henqueue with rfl | ⟨email, outbox, hrecipient, hfree, hinsert, rfl⟩
  · exact h
  · intro key
    rw [descendants_insert hinsert]
    by_cases horigin : ((s.newRow request email id).origin == key) = true
    · obtain rfl : request.idempotencyKey = key := by simpa [newRow] using horigin
      have hnone := (hguard (by simp [hrecipient])).descendants hfree
      rw [hnone, if_pos horigin]
    · rw [if_neg horigin]
      exact h key

theorem Unretired.enqueue (h : s.Unretired key) {request : EmailRequest} {id : Uuid} {b : Bool}
    (henqueue : s.enqueueEmail request id = some (s', b)) : s'.Unretired key := by
  rcases enqueueEmail_eq_some henqueue with rfl | ⟨email, outbox, -, -, hinsert, rfl⟩
  · exact h
  · intro hfree
    have hrows : outbox.rows = s.outbox.rows ++ [s.newRow request email id] :=
      Table.rows_of_insert hinsert
    simp only [hrows, List.mem_append, List.mem_singleton] at hfree ⊢
    obtain ⟨houtbox, hletters⟩ := h (fun row hrow => hfree row (.inl hrow))
    refine ⟨?_, hletters⟩
    rintro row (hrow | rfl)
    · exact houtbox row hrow
    · exact hfree _ (.inr rfl)

theorem recipient?_enqueue {request other : EmailRequest} {id : Uuid} {b : Bool}
    (henqueue : s.enqueueEmail request id = some (s', b)) :
    s'.recipient? other = s.recipient? other := by
  rcases enqueueEmail_eq_some henqueue with rfl | ⟨email, outbox, -, -, -, rfl⟩
  · rfl
  · rfl

theorem OnePerKey.enqueueAll {batch : List (EmailRequest × Uuid)} {ids : Uuid → Uuid}
    (h : s.OnePerKey)
    (hguard : ∀ reminder ∈ batch, (s.recipient? reminder.1).isSome →
      s.Unretired reminder.1.idempotencyKey)
    (hsweep : batch.foldlM (fun s reminder =>
      (s.enqueueEmail reminder.1 (ids reminder.2)).map Prod.fst) s = some s') : s'.OnePerKey := by
  induction batch generalizing s with
  | nil =>
    obtain rfl := Option.some.inj hsweep
    exact h
  | cons reminder batch ih =>
    simp only [List.foldlM_cons, Option.bind_eq_bind, Option.bind_eq_some_iff,
      Option.map_eq_some_iff] at hsweep
    obtain ⟨s₁, ⟨⟨s₁', b⟩, henqueue, rfl⟩, hrest⟩ := hsweep
    refine ih (h.enqueue (hguard reminder List.mem_cons_self) henqueue) ?_ hrest
    intro other hother hrecipient
    rw [recipient?_enqueue henqueue] at hrecipient
    exact (hguard other (List.mem_cons_of_mem _ hother) hrecipient).enqueue henqueue

end

section flush
variable {s s' : EmailStore} {row other : EmailOutboxRow}

theorem eq_of_id (hrow : row ∈ s.outbox.rows) :
    ∀ b ∈ s.outbox.rows, (b.id == row.id) = true ↔ b = row := by
  intro b hb
  constructor
  · intro hid
    exact Table.eq_of_clash hb hrow (by simp [Row.clash, beq_iff_eq.mp hid])
  · rintro rfl
    exact beq_self_eq_true _

theorem descendants_moveToDeadLetters {error : String} {id : Uuid} (hrow : row ∈ s.outbox.rows)
    (h : s.moveToDeadLetters row error id = some s') (key : String) :
    s'.descendants key = s.descendants key := by
  simp only [moveToDeadLetters, Option.bind_eq_bind, Option.bind_eq_some_iff] at h
  obtain ⟨deadLetters, hinsert, hsome⟩ := h
  obtain rfl := Option.some.inj hsome
  have houtbox := Table.length_filter_delete (q := (·.origin == key)) hrow (by simp [Row.clash])
    (eq_of_id hrow)
  have hsame : ((row.recordFailure error).toDeadLetter id s.now).origin = row.origin := rfl
  simp only [EmailStore.descendants, Table.filter_of_insert hinsert, hsame, houtbox]
  by_cases horigin : (row.origin == key) = true
  · simp only [horigin, if_true, List.length_append, List.length_singleton]
    omega
  · simp only [horigin, if_false, Bool.false_eq_true]
    omega

theorem mem_update_of_ne {f : EmailOutboxRow → EmailOutboxRow}
    (hf : ∀ a b, Row.clash (f a) b = Row.clash a b) (hother : other ∈ s.outbox.rows)
    (hne : other.id ≠ row.id) : other ∈ (s.outbox.update (·.id == row.id) f hf).rows := by
  rw [Table.rows_update]
  exact List.mem_map.mpr ⟨other, hother, by simp [Table.updated, hne]⟩

variable [EmailSettings]

theorem sendRow_eq_some {outcome : SendOutcome} (hrow : row ∈ s.outbox.rows)
    (h : s.sendRow row outcome = some s') :
    (∀ key, s'.descendants key = s.descendants key) ∧
      ∀ other ∈ s.outbox.rows, other.id ≠ row.id → other ∈ s'.outbox.rows := by
  cases outcome with
  | sent =>
    obtain rfl := Option.some.inj h
    constructor
    · intro key
      rw [EmailStore.descendants, markSent, Table.filter_update (by intros; rfl), List.length_map]
      rfl
    · intro other hother hne
      exact mem_update_of_ne (EmailOutboxRow.markSent_clash s.now) hother hne
  | failed error deadLetterId =>
    by_cases hlast : EmailSettings.emailMaxRetries ≤ row.attempts + 1
    · simp only [sendRow, if_pos hlast] at h
      refine ⟨descendants_moveToDeadLetters hrow h, fun other hother hne => ?_⟩
      simp only [moveToDeadLetters, Option.bind_eq_bind, Option.bind_eq_some_iff] at h
      obtain ⟨deadLetters, -, hsome⟩ := h
      obtain rfl := Option.some.inj hsome
      exact List.mem_filter.mpr ⟨hother, by simpa using hne⟩
    · simp only [sendRow, if_neg hlast] at h
      obtain rfl := Option.some.inj h
      constructor
      · intro key
        rw [EmailStore.descendants, recordFailure, Table.filter_update (by intros; rfl),
          List.length_map]
        rfl
      · intro other hother hne
        exact mem_update_of_ne (EmailOutboxRow.recordFailure_clash error) hother hne

theorem descendants_sendAll {batch : List EmailOutboxRow} {outcome : Uuid → SendOutcome}
    (hbatch : ∀ row ∈ batch, row ∈ s.outbox.rows) (hids : batch.Pairwise (·.id ≠ ·.id))
    (h : batch.foldlM (fun s row => s.sendRow row (outcome row.id)) s = some s') (key : String) :
    s'.descendants key = s.descendants key := by
  induction batch generalizing s with
  | nil =>
    obtain rfl := Option.some.inj h
    rfl
  | cons row batch ih =>
    simp only [List.foldlM_cons, Option.bind_eq_bind, Option.bind_eq_some_iff] at h
    obtain ⟨s₁, hsend, hrest⟩ := h
    obtain ⟨hfirst, htail⟩ := List.pairwise_cons.mp hids
    obtain ⟨hcount, hkept⟩ := sendRow_eq_some (hbatch row List.mem_cons_self) hsend
    have hstill : ∀ other ∈ batch, other ∈ s₁.outbox.rows := fun other hother =>
      hkept other (hbatch other (List.mem_cons_of_mem _ hother)) (hfirst other hother).symm
    rw [ih hstill htail hrest, hcount key]

omit [EmailSettings] in
theorem dueBatch_subset (s : EmailStore) : ∀ row ∈ s.dueBatch, row ∈ s.outbox.rows := by
  intro row hrow
  have hsorted := List.mem_of_mem_take hrow
  rw [List.mem_insertionSort] at hsorted
  exact (List.mem_filter.mp hsorted).1

omit [EmailSettings] in
theorem dueBatch_ids (s : EmailStore) : s.dueBatch.Pairwise (·.id ≠ ·.id) := by
  have hrows : s.outbox.rows.Pairwise (·.id ≠ ·.id) := by
    refine s.outbox.unique.imp ?_
    intro a b hclash hid
    exact hclash (by simp [Row.clash, hid])
  refine List.Pairwise.sublist (List.take_sublist _ _) ?_
  refine ((List.perm_insertionSort _ _).pairwise_iff ?_).mpr (hrows.filter _)
  intro a b hne
  exact hne.symm

end flush

theorem descendants_replay {s s' : EmailStore} {deadLetterId id replayId : Uuid}
    (h : s.replayDeadLetter deadLetterId id replayId = some s') (key : String) :
    s'.descendants key = s.descendants key := by
  simp only [replayDeadLetter, Option.bind_eq_bind, Option.bind_eq_some_iff] at h
  obtain ⟨letter, hfind, outbox, hinsert, hsome⟩ := h
  obtain rfl := Option.some.inj hsome
  have hletter : letter ∈ s.deadLetters.rows := Table.mem_of_find? hfind
  have hid : letter.id = deadLetterId := by simpa using Table.of_find? hfind
  have honly : ∀ b ∈ s.deadLetters.rows, (b.id == deadLetterId) = true ↔ b = letter := by
    intro b hb
    constructor
    · intro hb'
      refine Table.eq_of_clash hb hletter ?_
      simp [Row.clash, beq_iff_eq.mp hb', hid]
    · rintro rfl
      simpa using hid
  have hdead := Table.length_filter_delete (q := (·.origin == key)) hletter (by simp [Row.clash])
    honly
  have hsame : (s.replayRow letter id replayId).origin = letter.origin := rfl
  simp only [EmailStore.descendants, Table.filter_of_insert hinsert, hsame, hdead]
  by_cases horigin : (letter.origin == key) = true
  · simp only [horigin, if_true, List.length_append, List.length_singleton]
    omega
  · simp only [horigin, if_false, Bool.false_eq_true]
    omega

theorem descendants_setOptOut [Unicode] (s : EmailStore) (email : String)
    (category : EmailCategory) (optedOut : Bool) (key : String) :
    (s.setOptOut email category optedOut).descendants key = s.descendants key := by
  unfold setOptOut
  split
  · rfl
  · cases optedOut <;> rfl

/-- What one step preserves. -/
theorem OnePerKey.step [Unicode] [EmailSettings] [ReminderText] {s s' : EmailStore}
    {action : EmailAction} (h : s.OnePerKey) (hguard : s.Unrepeated action)
    (hstep : s.step action = some s') : s'.OnePerKey := by
  cases action with
  | enqueue request id =>
    simp only [EmailStore.step, Option.map_eq_some_iff] at hstep
    obtain ⟨⟨s₁, b⟩, henqueue, rfl⟩ := hstep
    exact h.enqueue hguard henqueue
  | sweep invoices customers ids =>
    simp only [EmailStore.step, sweep] at hstep
    by_cases hmail : EmailSettings.mailEnabled
    · rw [if_pos hmail] at hstep
      exact h.enqueueAll hguard hstep
    · rw [if_neg hmail] at hstep
      obtain rfl := Option.some.inj hstep
      exact h
  | flush outcome =>
    intro key
    rw [descendants_sendAll s.dueBatch_subset s.dueBatch_ids hstep key]
    exact h key
  | replay deadLetterId id replayId =>
    intro key
    rw [descendants_replay hstep key]
    exact h key
  | setOptOut email category optedOut =>
    obtain rfl := Option.some.inj hstep
    intro key
    rw [descendants_setOptOut]
    exact h key
  | elapse moment =>
    simp only [EmailStore.step, Option.ite_none_right_eq_some, Option.some.injEq] at hstep
    obtain ⟨-, rfl⟩ := hstep
    exact h

end EmailStore

/-- In a run that repeats no dead-lettered key, each key has led to at most one message. -/
theorem one_message_per_key [Unicode] [EmailSettings] [ReminderText] {now : DateTime}
    {s : EmailStore} (hrun : Runs.Reaches EmailStore.step EmailStore.Unrepeated { now } s) :
    s.OnePerKey :=
  hrun.invariant (fun _ _ _ h hguard hstep => h.step hguard hstep) (fun _ => Nat.zero_le _)

/-! One invoice that is a day overdue, and a server that takes no mail. -/

def overdueInvoice : Invoice where
  id := 1
  customerId := 2
  invoiceNumber := "INV-1"
  status := .overdue
  subtotal := ⟨10000, by decide⟩
  tax := ⟨0, by decide⟩
  total := ⟨10000, by decide⟩
  amountPaid := ⟨0, by decide⟩
  amountCredited := ⟨0, by decide⟩
  balanceDue := ⟨10000, by decide⟩
  currency := "KES"
  dueDate := some 0
  paidAt := none
  notes := none
  createdAt := 0
  balanceConsistent := by decide

def reminderSweep (id : Uuid) : EmailAction :=
  .sweep ⟨[overdueInvoice], List.pairwise_singleton _ _⟩
    ⟨[⟨2, "Ada", "a@b.co"⟩], List.pairwise_singleton _ _⟩ (fun _ => id)

def failingFlushes (deadLetterId : Uuid) : List EmailAction :=
  List.replicate 5 (.flush fun _ => .failed "timeout" deadLetterId)

abbrev plainReminders : ReminderText := ⟨fun _ => "100.00", fun _ => "1970-01-01", id⟩

/-- The operator replays the dead letter, and there is no further sweep in its tier. -/
theorem replayed_reminder :
    let := Unicode.ascii
    let := EmailSettings.default
    let := plainReminders
    ∃ s : EmailStore,
      Runs.Reaches EmailStore.step EmailStore.Unrepeated { now := 86400000000 } s ∧
      s.descendants "reminder:1:overdue_1" = 1 ∧ s.OnePerKey := by
  let := Unicode.ascii
  let := EmailSettings.default
  let := plainReminders
  have hreplay : (Runs.replay EmailStore.step EmailStore.Unrepeated { now := 86400000000 }
      (reminderSweep 10 :: reminderSweep 11 :: failingFlushes 20 ++
        [.replay 20 12 30, .flush fun _ => .sent])).map
      (·.descendants "reminder:1:overdue_1") = some 1 := by
    decide +kernel
  obtain ⟨s, hrun, hcount⟩ := Runs.replay_map_reaches hreplay
  exact ⟨s, hrun, hcount, one_message_per_key hrun⟩

/-- On the next day the same reminder is enqueued again. -/
theorem reminder_repeated :
    let := Unicode.ascii
    let := EmailSettings.default
    let := plainReminders
    ∃ s : EmailStore,
      Runs.Reaches EmailStore.step Runs.always { now := 86400000000 } s ∧
      s.descendants "reminder:1:overdue_1" = 2 ∧ ¬ s.OnePerKey := by
  let := Unicode.ascii
  let := EmailSettings.default
  let := plainReminders
  have hreplay : (Runs.replay EmailStore.step Runs.always { now := 86400000000 }
      (reminderSweep 10 :: failingFlushes 20 ++ [.elapse 172800000000, reminderSweep 11])).map
      (·.descendants "reminder:1:overdue_1") = some 2 := by
    decide +kernel
  obtain ⟨s, hrun, hcount⟩ := Runs.replay_map_reaches hreplay
  refine ⟨s, hrun, hcount, fun h => ?_⟩
  have hle := h "reminder:1:overdue_1"
  omega

end Finguard
