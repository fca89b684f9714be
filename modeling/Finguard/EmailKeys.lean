import Finguard.EmailPipeline
import Finguard.Lib.Dict
import Finguard.Lib.NumberText
import Finguard.MpesaCallback

/-! The email queue in columns of bounded length. Each replay and each resend puts an identifier
behind the key that the message had. -/

namespace Finguard
open Text

def uuidChars (id : Uuid) : List Char :=
  hexChars 8 (id / 16 ^ 24) ++ '-' :: hexChars 4 (id / 16 ^ 20) ++
    '-' :: hexChars 4 (id / 16 ^ 16) ++ '-' :: hexChars 4 (id / 16 ^ 12) ++ '-' :: hexChars 12 id

def uuidStr (id : Uuid) : String := String.ofList (uuidChars id)

section uuid
variable {c : Char} {id : Uuid}

theorem length_uuidStr (id : Uuid) : (uuidStr id).toList.length = 36 := by
  simp [uuidStr, uuidChars, length_hexChars]

theorem mem_uuidStr (h : c ∈ (uuidStr id).toList) : c.isAlphanum ∨ c = '-' := by
  simp only [uuidStr, uuidChars, String.toList_ofList, List.mem_append, List.mem_cons] at h
  rcases h with (((h | rfl | h) | rfl | h) | rfl | h) | rfl | h
  all_goals first | exact .inr rfl | exact .inl (isAlphanum_of_mem_hexChars h)

end uuid

section varchar
variable {limit : ℕ} {s suffix stored : String}

theorem hasNul_append : hasNul (s ++ suffix) = (hasNul s || hasNul suffix) := by
  simp [hasNul]

theorem hasNul_of_varchar? (h : varchar? limit s = some stored) : hasNul stored = false := by
  unfold varchar? at h
  split at h
  · cases h
  · rename_i hnul
    have hs : hasNul s = false := by simpa using hnul
    split at h
    · obtain rfl := Option.some.inj h
      exact hs
    · split at h
      · obtain rfl := Option.some.inj h
        have hnone : Char.ofNat 0 ∉ s.toList := by simpa [hasNul] using hs
        have htake : Char.ofNat 0 ∉ s.toList.take limit := fun hc =>
          hnone (List.mem_of_mem_take hc)
        simpa [hasNul] using htake
      · cases h

theorem varchar?_of_fits (hnul : hasNul s = false) (hs : s.toList.length ≤ limit) :
    varchar? limit s = some s := by
  rw [varchar?, if_neg (by simp [hnul]), if_pos hs]

/-- What a column holds, it can hold again. -/
theorem varchar?_stored (h : varchar? limit s = some stored) : varchar? limit stored = some stored :=
  varchar?_of_fits (hasNul_of_varchar? h) (length_of_varchar? h)

theorem length_stored (h : varchar? limit s = some stored) :
    stored.toList.length = min limit s.toList.length := by
  by_cases hs : s.toList.length ≤ limit
  · rw [varchar?_of_length_le h hs, min_eq_right hs]
  · unfold varchar? at h
    rw [if_neg hs] at h
    split at h
    · cases h
    · split at h
      · obtain rfl := Option.some.inj h
        simp
      · cases h

theorem varchar?_append_isSome (hs : hasNul s = false) (hsuffix : hasNul suffix = false)
    (hblank : ' ' ∉ suffix.toList) (hne : suffix.toList ≠ []) :
    (varchar? limit (s ++ suffix)).isSome ↔ s.toList.length + suffix.toList.length ≤ limit := by
  have hnul : hasNul (s ++ suffix) = false := by rw [hasNul_append, hs, hsuffix, Bool.or_false]
  have hlength : (s ++ suffix).toList.length = s.toList.length + suffix.toList.length := by simp
  by_cases hfits : s.toList.length + suffix.toList.length ≤ limit
  · rw [varchar?_of_fits hnul (by omega)]
    simp [hfits]
  · have hdrop : (s ++ suffix).toList.drop limit ≠ [] := by
      rw [ne_eq, List.drop_eq_nil_iff]
      omega
    have hlast : suffix.toList.getLast hne ∈ (s ++ suffix).toList.drop limit := by
      have hmem := List.getLast_mem hdrop
      rw [List.getLast_drop] at hmem
      simpa [List.getLast_append_of_ne_nil _ hne] using hmem
    have hkept : ¬ ((s ++ suffix).toList.drop limit).all (· = ' ') = true := by
      intro hall
      have hblankLast : suffix.toList.getLast hne = ' ' := by
        simpa using List.all_eq_true.mp hall _ hlast
      exact hblank (hblankLast ▸ List.getLast_mem hne)
    rw [varchar?, if_neg (by simp [hnul]), if_neg (by omega), if_neg hkept]
    simp [hfits]

end varchar

def QueuedEmail.columns? (email : QueuedEmail) : Option QueuedEmail := do
  let toEmail ← varchar? 320 email.toEmail
  let toName ← email.toName.mapM (varchar? 255)
  let subject ← varchar? 255 email.subject
  let template ← varchar? 100 email.template
  let idempotencyKey ← varchar? 120 email.idempotencyKey
  return { email with toEmail, toName, subject, template, idempotencyKey }

class UnsubscribeLinks where
  unsubscribeUrl : String → EmailCategory → String

structure ApprovalRecipient where
  id : Uuid
  email : String
  fullName : String

structure ApprovalNotice where
  subject : String
  template : String
  context : Json.Fields
  resourceId : String
  keyPrefix : String
  excludeUserId : Option Uuid := none

def reviewRequest [UnsubscribeLinks] (notice : ApprovalNotice) (user : ApprovalRecipient) :
    EmailRequest :=
  { toEmail := some user.email
    toName := some user.fullName
    subject := notice.subject
    template := notice.template
    context := Dict.set (Dict.set notice.context "reviewer_name" (.text user.fullName))
      "unsubscribe_url" (.text (UnsubscribeLinks.unsubscribeUrl user.email .approval))
    idempotencyKey := notice.keyPrefix ++ ":" ++ notice.resourceId ++ ":" ++ uuidStr user.id
    category := .approval }

namespace NotificationService

def enqueueEmail [Unicode] (s : EmailStore) (request : EmailRequest) (id : Uuid) :
    Option (EmailStore × Bool) :=
  match s.recipient? request with
  | none => some (s, false)
  | some email => do
    let queued ← (s.newRow request email id).columns?
    if s.outbox.rows.any (·.idempotencyKey == queued.idempotencyKey) then return (s, false)
    let outbox ← s.outbox.insert? { s.newRow request email id with toQueuedEmail := queued }
    return ({ s with outbox }, true)

def notifyReviewers [Unicode] [UnsubscribeLinks] (s : EmailStore) (notice : ApprovalNotice)
    (reviewers : List ApprovalRecipient) (ids : Uuid → Uuid) : Option EmailStore :=
  (reviewers.filter (some ·.id ≠ notice.excludeUserId)).foldlM
    (fun s user => (enqueueEmail s (reviewRequest notice user) (ids user.id)).map Prod.fst) s

def requeuedRow (s : EmailStore) (email : QueuedEmail) (id : Uuid) : EmailOutboxRow :=
  { email with id, createdAt := s.now }

def replayKey (email : QueuedEmail) (replayId : Uuid) : String :=
  email.idempotencyKey ++ ":replay:" ++ uuidStr replayId

def resendKey (email : QueuedEmail) (resendId : Uuid) : String :=
  email.idempotencyKey ++ ":resend:" ++ uuidStr resendId

def requeue (s : EmailStore) (email : QueuedEmail) (key : String) (id : Uuid) :
    Option EmailStore := do
  let queued ← { email with idempotencyKey := key : QueuedEmail }.columns?
  let outbox ← s.outbox.insert? (requeuedRow s queued id)
  return { s with outbox }

def replayDeadLetter (s : EmailStore) (deadLetterId id replayId : Uuid) : Option EmailStore := do
  let letter ← s.deadLetters.find? (·.id == deadLetterId)
  let queued ← requeue s letter.toQueuedEmail (replayKey letter.toQueuedEmail replayId) id
  return { queued with deadLetters := s.deadLetters.delete (·.id == deadLetterId) }

def resend (s : EmailStore) (outboxId id resendId : Uuid) : Option EmailStore := do
  let row ← s.outbox.find? (·.id == outboxId)
  requeue s row.toQueuedEmail (resendKey row.toQueuedEmail resendId) id

end NotificationService

inductive NotificationAction where
  | enqueue (request : EmailRequest) (id : Uuid)
  | notifyReviewers (notice : ApprovalNotice) (reviewers : List ApprovalRecipient) (ids : Uuid → Uuid)
  | flush (outcome : Uuid → SendOutcome)
  | replay (deadLetterId id replayId : Uuid)
  | resend (outboxId id resendId : Uuid)
  | setOptOut (email : String) (category : EmailCategory) (optedOut : Bool)
  | elapse (moment : DateTime)

namespace NotificationService

def step [Unicode] [EmailSettings] [UnsubscribeLinks] (s : EmailStore) :
    NotificationAction → Option EmailStore
  | .enqueue request id => (enqueueEmail s request id).map Prod.fst
  | .notifyReviewers notice reviewers ids => notifyReviewers s notice reviewers ids
  | .flush outcome => s.flush outcome
  | .replay deadLetterId id replayId => replayDeadLetter s deadLetterId id replayId
  | .resend outboxId id resendId => resend s outboxId id resendId
  | .setOptOut email category optedOut => some (s.setOptOut email category optedOut)
  | .elapse moment => if s.now ≤ moment then some { s with now := moment } else none

end NotificationService

def QueuedEmail.InColumns (email : QueuedEmail) : Prop := email.columns? = some email

/-- The key is what the column kept of the first one, with some identifiers behind it. -/
def QueuedEmail.Chained (email : QueuedEmail) (n : ℕ) : Prop :=
  email.idempotencyKey.toList.length = min 120 email.origin.toList.length + 44 * n

section columns
variable {email queued : QueuedEmail} {key : String}

theorem columns?_stored (h : email.columns? = some queued) : queued.InColumns := by
  simp only [QueuedEmail.columns?, Option.bind_eq_bind, Option.bind_eq_some_iff] at h
  obtain ⟨toEmail, htoEmail, toName, htoName, subject, hsubject, template, htemplate, key, hkey,
    h⟩ := h
  obtain rfl := Option.some.inj h
  have hname : toName.mapM (varchar? 255) = some toName := by
    cases hname : email.toName with
    | none =>
      rw [hname] at htoName
      obtain rfl := Option.some.inj htoName
      rfl
    | some name =>
      rw [hname] at htoName
      obtain ⟨name', hname', rfl⟩ : ∃ name', varchar? 255 name = some name' ∧
          some name' = toName := by
        simpa using htoName
      simpa using varchar?_stored hname'
  simp [QueuedEmail.InColumns, QueuedEmail.columns?, varchar?_stored htoEmail, hname,
    varchar?_stored hsubject, varchar?_stored htemplate, varchar?_stored hkey]

theorem key_of_columns? (h : email.columns? = some queued) :
    varchar? 120 email.idempotencyKey = some queued.idempotencyKey ∧
      queued.origin = email.origin := by
  simp only [QueuedEmail.columns?, Option.bind_eq_bind, Option.bind_eq_some_iff] at h
  obtain ⟨_, -, _, -, _, -, _, -, key, hkey, h⟩ := h
  obtain rfl := Option.some.inj h
  exact ⟨hkey, rfl⟩

/-- Of a message in its columns, another key is all that may be refused. -/
theorem QueuedEmail.InColumns.withKey (h : email.InColumns) (key : String) :
    { email with idempotencyKey := key : QueuedEmail }.columns? =
      (varchar? 120 key).map fun stored => { email with idempotencyKey := stored } := by
  simp only [QueuedEmail.InColumns, QueuedEmail.columns?, Option.bind_eq_bind,
    Option.bind_eq_some_iff] at h ⊢
  obtain ⟨toEmail, htoEmail, toName, htoName, subject, hsubject, template, htemplate, _, -, h⟩ := h
  have hself := Option.some.inj h
  obtain rfl : toEmail = email.toEmail := congrArg QueuedEmail.toEmail hself
  obtain rfl : toName = email.toName := congrArg QueuedEmail.toName hself
  obtain rfl : subject = email.subject := congrArg QueuedEmail.subject hself
  obtain rfl : template = email.template := congrArg QueuedEmail.template hself
  simp only [htoEmail, htoName, hsubject, htemplate, Option.bind_some]
  cases varchar? 120 key <;> rfl

theorem QueuedEmail.InColumns.key_length (h : email.InColumns) :
    email.idempotencyKey.toList.length ≤ 120 ∧ hasNul email.idempotencyKey = false := by
  obtain ⟨hkey, -⟩ := key_of_columns? h
  exact ⟨length_of_varchar? hkey, hasNul_of_varchar? hkey⟩

end columns

theorem varchar?_key_isSome {key marker : String} {id : Uuid} (hnul : hasNul key = false)
    (hlength : marker.toList.length = 8) (hmarker : hasNul marker = false) :
    (varchar? 120 (key ++ marker ++ uuidStr id)).isSome ↔ key.toList.length ≤ 76 := by
  have hne : (uuidStr id).toList ≠ [] := by
    have huuid := length_uuidStr id
    intro hnil
    rw [hnil] at huuid
    cases huuid
  have hplain : ∀ c, c.isAlphanum = false → c ≠ '-' → c ∉ (uuidStr id).toList := by
    intro c halphanum hminus hc
    rcases mem_uuidStr hc with h | h
    · simp [halphanum] at h
    · exact hminus h
  have hblank := hplain ' ' (by decide) (by decide)
  have huuid : hasNul (uuidStr id) = false := by
    simpa [hasNul] using hplain (Char.ofNat 0) (by decide) (by decide)
  have hprefix : hasNul (key ++ marker) = false := by rw [hasNul_append, hnul, hmarker]; rfl
  rw [varchar?_append_isSome hprefix huuid hblank hne, length_uuidStr, String.toList_append,
    List.length_append, hlength]
  omega

/-- Every message is in its columns, and its key is one of a chain. -/
structure QueuedEmail.Kept (email : QueuedEmail) : Prop where
  columns : email.InColumns
  chained : ∃ n, email.Chained n

theorem QueuedEmail.Kept.requeued_le {email : QueuedEmail} (h : email.Kept) :
    ∃ n ≤ 2, email.Chained n := by
  obtain ⟨n, hn⟩ := h.chained
  obtain ⟨hlimit, -⟩ := h.columns.key_length
  refine ⟨n, ?_, hn⟩
  rw [QueuedEmail.Chained] at hn
  omega

structure EmailStore.Kept (s : EmailStore) : Prop where
  outbox : ∀ row ∈ s.outbox.rows, row.toQueuedEmail.Kept
  deadLetters : ∀ letter ∈ s.deadLetters.rows, letter.toQueuedEmail.Kept

namespace EmailStore.Kept
variable {s s' : EmailStore}

theorem insert (h : s.Kept) {row : EmailOutboxRow} {outbox : Table EmailOutboxRow}
    (hrow : row.toQueuedEmail.Kept) (hinsert : s.outbox.insert? row = some outbox) :
    ({ s with outbox }).Kept := by
  refine ⟨fun other hother => ?_, h.deadLetters⟩
  rcases (Table.mem_of_insert hinsert).mp hother with hother | rfl
  · exact h.outbox other hother
  · exact hrow

theorem update (h : s.Kept) {p : EmailOutboxRow → Bool} {f : EmailOutboxRow → EmailOutboxRow}
    (hf : ∀ a b, Row.clash (f a) b = Row.clash a b)
    (hsame : ∀ row, (f row).toQueuedEmail = row.toQueuedEmail) :
    ({ s with outbox := s.outbox.update p f hf }).Kept := by
  refine ⟨fun row hrow => ?_, h.deadLetters⟩
  rw [Table.rows_update] at hrow
  obtain ⟨old, hold, rfl⟩ := List.mem_map.mp hrow
  by_cases hp : p old
  · rw [Table.updated, if_pos hp, hsame]
    exact h.outbox old hold
  · rw [Table.updated, if_neg hp]
    exact h.outbox old hold

theorem sendRow [EmailSettings] (h : s.Kept) {row : EmailOutboxRow} {outcome : SendOutcome}
    (hrow : row.toQueuedEmail.Kept) (hsend : s.sendRow row outcome = some s') : s'.Kept := by
  cases outcome with
  | sent =>
    obtain rfl := Option.some.inj hsend
    exact h.update _ (fun _ => rfl)
  | failed error deadLetterId =>
    by_cases hlast : EmailSettings.emailMaxRetries ≤ row.attempts + 1
    · simp only [EmailStore.sendRow, if_pos hlast, moveToDeadLetters, Option.bind_eq_bind,
        Option.bind_eq_some_iff] at hsend
      obtain ⟨deadLetters, hinsert, hsome⟩ := hsend
      obtain rfl := Option.some.inj hsome
      refine ⟨fun other hother => h.outbox other (List.mem_of_mem_filter hother), ?_⟩
      intro letter hletter
      rcases (Table.mem_of_insert hinsert).mp hletter with hletter | rfl
      · exact h.deadLetters letter hletter
      · exact hrow
    · simp only [EmailStore.sendRow, if_neg hlast] at hsend
      obtain rfl := Option.some.inj hsend
      exact h.update _ (fun _ => rfl)

theorem sendAll [EmailSettings] {batch : List EmailOutboxRow} {outcome : Uuid → SendOutcome}
    (h : s.Kept) (hbatch : ∀ row ∈ batch, row.toQueuedEmail.Kept)
    (hsend : batch.foldlM (fun s row => s.sendRow row (outcome row.id)) s = some s') :
    s'.Kept := by
  induction batch generalizing s with
  | nil =>
    obtain rfl := Option.some.inj hsend
    exact h
  | cons row batch ih =>
    simp only [List.foldlM_cons, Option.bind_eq_bind, Option.bind_eq_some_iff] at hsend
    obtain ⟨s₁, hfirst, hrest⟩ := hsend
    have hrow := hbatch row List.mem_cons_self
    exact ih (h.sendRow hrow hfirst) (fun other hother =>
      hbatch other (List.mem_cons_of_mem row hother)) hrest

end EmailStore.Kept

namespace NotificationService
variable {s s' : EmailStore} {email : QueuedEmail} {key marker : String} {id uuid : Uuid}

theorem requeue_eq (hemail : email.InColumns) (key : String) (id : Uuid) :
    requeue s email key id = (varchar? 120 key).bind fun stored =>
      (s.outbox.insert? (requeuedRow s { email with idempotencyKey := stored } id)).map
        fun outbox => { s with outbox } := by
  rw [requeue, hemail.withKey]
  cases varchar? 120 key with
  | none => rfl
  | some stored =>
    simp only [Option.map_some, Option.bind_eq_bind, Option.bind_some]
    rw [Option.map_eq_bind]
    rfl

/-- A message that is put into the queue once more is a link further in its chain. -/
theorem kept_requeue (h : s.Kept) (hemail : email.Kept) (hlength : marker.toList.length = 8)
    (hmarker : hasNul marker = false)
    (hrequeue : requeue s email (email.idempotencyKey ++ marker ++ uuidStr uuid) id = some s') :
    s'.Kept := by
  obtain ⟨hlimit, hnul⟩ := hemail.columns.key_length
  rw [requeue_eq hemail.columns, Option.bind_eq_some_iff] at hrequeue
  obtain ⟨stored, hstored, hrequeue⟩ := hrequeue
  obtain ⟨outbox, hinsert, rfl⟩ := Option.map_eq_some_iff.mp hrequeue
  have hshort : email.idempotencyKey.toList.length ≤ 76 :=
    (varchar?_key_isSome hnul hlength hmarker).mp (by rw [hstored]; rfl)
  have htotal : (email.idempotencyKey ++ marker ++ uuidStr uuid).toList.length =
      email.idempotencyKey.toList.length + 44 := by
    simp only [String.toList_append, List.length_append, hlength, length_uuidStr]
  obtain rfl := varchar?_of_length_le hstored (by omega)
  obtain ⟨n, hn⟩ := hemail.chained
  refine h.insert ⟨?_, n + 1, ?_⟩ hinsert
  · rw [QueuedEmail.InColumns, requeuedRow, hemail.columns.withKey, hstored]
    rfl
  · have hnext : (email.idempotencyKey ++ marker ++ uuidStr uuid).toList.length =
        min 120 email.origin.toList.length + 44 * (n + 1) := by
      rw [QueuedEmail.Chained] at hn
      omega
    exact hnext

variable [Unicode]

/-- Columns that hold the whole message change nothing. -/
theorem enqueueEmail_of_inColumns {request : EmailRequest}
    (h : ∀ email ∈ s.recipient? request, (s.newRow request email id).InColumns) :
    enqueueEmail s request id = s.enqueueEmail request id := by
  cases hrecipient : s.recipient? request with
  | none => simp only [enqueueEmail, EmailStore.enqueueEmail, hrecipient]
  | some email =>
    have hcolumns := h email hrecipient
    simp only [enqueueEmail, EmailStore.enqueueEmail, hrecipient, Option.bind_eq_bind]
    rw [QueuedEmail.InColumns] at hcolumns
    rw [hcolumns, Option.bind_some]
    rfl

theorem kept_enqueue (h : s.Kept) {request : EmailRequest} {b : Bool}
    (henqueue : enqueueEmail s request id = some (s', b)) : s'.Kept := by
  cases hrecipient : s.recipient? request with
  | none =>
    simp only [enqueueEmail, hrecipient, Option.some.injEq, Prod.mk.injEq] at henqueue
    obtain ⟨rfl, -⟩ := henqueue
    exact h
  | some email =>
    simp only [enqueueEmail, hrecipient, Option.bind_eq_bind, Option.bind_eq_some_iff] at henqueue
    obtain ⟨queued, hqueued, henqueue⟩ := henqueue
    obtain ⟨hkey, horigin⟩ := key_of_columns? hqueued
    by_cases hany : s.outbox.rows.any (·.idempotencyKey == queued.idempotencyKey)
    · rw [if_pos hany] at henqueue
      obtain ⟨rfl, -⟩ : s = s' ∧ false = b := by simpa using henqueue
      exact h
    · rw [if_neg hany] at henqueue
      obtain ⟨outbox, hinsert, hsome⟩ := Option.bind_eq_some_iff.mp henqueue
      obtain ⟨rfl, -⟩ : { s with outbox } = s' ∧ true = b := by simpa using hsome
      refine h.insert ⟨columns?_stored hqueued, 0, ?_⟩ hinsert
      rw [QueuedEmail.Chained, horigin]
      exact length_stored hkey

theorem kept_enqueueAll {users : List ApprovalRecipient}
    {request : ApprovalRecipient → EmailRequest} {ids : Uuid → Uuid} (h : s.Kept)
    (henqueue : users.foldlM
      (fun s user => (enqueueEmail s (request user) (ids user.id)).map Prod.fst) s = some s') :
    s'.Kept := by
  induction users generalizing s with
  | nil =>
    obtain rfl := Option.some.inj henqueue
    exact h
  | cons user users ih =>
    simp only [List.foldlM_cons, Option.bind_eq_bind, Option.bind_eq_some_iff,
      Option.map_eq_some_iff] at henqueue
    obtain ⟨s₁, ⟨⟨s₁', b⟩, hfirst, rfl⟩, hrest⟩ := henqueue
    exact ih (kept_enqueue h hfirst) hrest

theorem kept_step [EmailSettings] [UnsubscribeLinks] {action : NotificationAction} (h : s.Kept)
    (hstep : step s action = some s') : s'.Kept := by
  cases action with
  | enqueue request id =>
    simp only [step, Option.map_eq_some_iff] at hstep
    obtain ⟨⟨s₁, b⟩, henqueue, rfl⟩ := hstep
    exact kept_enqueue h henqueue
  | notifyReviewers notice reviewers ids => exact kept_enqueueAll h hstep
  | flush outcome =>
    exact h.sendAll (fun row hrow => h.outbox row (s.dueBatch_subset row hrow)) hstep
  | replay deadLetterId id replayId =>
    simp only [step, replayDeadLetter, Option.bind_eq_bind, Option.bind_eq_some_iff] at hstep
    obtain ⟨letter, hfind, queued, hrequeue, hsome⟩ := hstep
    obtain rfl := Option.some.inj hsome
    have hletter := h.deadLetters letter (Table.mem_of_find? hfind)
    have hqueued : queued.Kept := kept_requeue h hletter (by decide) (by decide) hrequeue
    refine ⟨hqueued.outbox, fun other hother => h.deadLetters other ?_⟩
    exact List.mem_of_mem_filter hother
  | resend outboxId id resendId =>
    simp only [step, resend, Option.bind_eq_bind, Option.bind_eq_some_iff] at hstep
    obtain ⟨row, hfind, hrequeue⟩ := hstep
    have hrow := h.outbox row (Table.mem_of_find? hfind)
    exact kept_requeue h hrow (by decide) (by decide) hrequeue
  | setOptOut email category optedOut =>
    obtain rfl := Option.some.inj hstep
    unfold EmailStore.setOptOut
    split
    · exact h
    · cases optedOut <;> exact ⟨h.outbox, h.deadLetters⟩
  | elapse moment =>
    simp only [step, Option.ite_none_right_eq_some, Option.some.injEq] at hstep
    obtain ⟨-, rfl⟩ := hstep
    exact ⟨h.outbox, h.deadLetters⟩

/-- What puts `email` into the queue once more: one new pending row, which says the same. -/
def Requeued (s s' : EmailStore) (email : QueuedEmail) : Prop :=
  ∃ row : EmailOutboxRow, s'.outbox.rows = s.outbox.rows ++ [row] ∧ row.status = .pending ∧
    row.toEmail = email.toEmail ∧ row.toName = email.toName ∧ row.subject = email.subject ∧
    row.template = email.template ∧ row.context = email.context

/-- The letter is gone from the dead letters, and no other one is. -/
def Replays (s : EmailStore) (letter : EmailDeadLetter) (id replayId : Uuid) : Prop :=
  ∃ s', replayDeadLetter s letter.id id replayId = some s' ∧
    Requeued s s' letter.toQueuedEmail ∧
    ∀ other, other ∈ s'.deadLetters.rows ↔ other ∈ s.deadLetters.rows ∧ other ≠ letter

def Resends (s : EmailStore) (row : EmailOutboxRow) (id resendId : Uuid) : Prop :=
  ∃ s', resend s row.id id resendId = some s' ∧ Requeued s s' row.toQueuedEmail ∧
    s'.deadLetters = s.deadLetters

def Unused (s : EmailStore) (id : Uuid) (key : String) : Prop :=
  ∀ row ∈ s.outbox.rows, row.id ≠ id ∧ row.idempotencyKey ≠ key

omit [Unicode] in
theorem deadLetters_requeue (h : requeue s email key id = some s') :
    s'.deadLetters = s.deadLetters := by
  simp only [requeue, Option.bind_eq_bind, Option.bind_eq_some_iff] at h
  obtain ⟨_, -, _, -, hsome⟩ := h
  obtain rfl := Option.some.inj hsome
  rfl

omit [Unicode] in
theorem requeue_iff (hemail : email.InColumns) (hlength : marker.toList.length = 8)
    (hmarker : hasNul marker = false)
    (hunused : Unused s id (email.idempotencyKey ++ marker ++ uuidStr uuid)) :
    (∃ s', requeue s email (email.idempotencyKey ++ marker ++ uuidStr uuid) id = some s' ∧
      Requeued s s' email) ↔ email.idempotencyKey.toList.length ≤ 76 := by
  obtain ⟨hlimit, hnul⟩ := hemail.key_length
  rw [← varchar?_key_isSome hnul hlength hmarker, Option.isSome_iff_exists,
    requeue_eq hemail]
  constructor
  · rintro ⟨s', hrequeue, -⟩
    obtain ⟨stored, hstored, -⟩ := Option.bind_eq_some_iff.mp hrequeue
    exact ⟨stored, hstored⟩
  · rintro ⟨stored, hstored⟩
    have hshort := (varchar?_key_isSome hnul hlength hmarker).mp (by rw [hstored]; rfl)
    obtain rfl := varchar?_of_length_le hstored (by
      simp only [String.toList_append, List.length_append, hlength, length_uuidStr]
      omega)
    have hfree : ∀ row ∈ s.outbox.rows, ¬ Row.clash row (requeuedRow s { email with
        idempotencyKey := email.idempotencyKey ++ marker ++ uuidStr uuid } id) := by
      intro row hrow
      obtain ⟨hid, hkey⟩ := hunused row hrow
      simp [Row.clash, requeuedRow, hid, hkey]
    obtain ⟨outbox, hinsert⟩ := Option.isSome_iff_exists.mp (Table.insert?_isSome hfree)
    refine ⟨{ s with outbox }, ?_, ?_⟩
    · rw [hstored, Option.bind_some, hinsert]
      rfl
    · exact ⟨_, Table.rows_of_insert hinsert, rfl, rfl, rfl, rfl, rfl, rfl⟩

omit [Unicode] in
theorem replays_iff (h : s.Kept) {letter : EmailDeadLetter} (hletter : letter ∈ s.deadLetters.rows)
    (hunused : Unused s id (replayKey letter.toQueuedEmail uuid)) :
    Replays s letter id uuid ↔ letter.idempotencyKey.toList.length ≤ 76 := by
  have honly : ∀ other ∈ s.deadLetters.rows, (other.id == letter.id) = true ↔ other = letter := by
    intro other hother
    constructor
    · exact fun hid => Table.eq_of_clash hother hletter hid
    · rintro rfl
      exact beq_self_eq_true _
  have hfind : s.deadLetters.find? (·.id == letter.id) = some letter := by
    have hp : ∀ a b : EmailDeadLetter, (a.id == letter.id) = true → (b.id == letter.id) = true →
        Row.clash a b := by
      intro a b ha hb
      rw [beq_iff_eq] at ha hb
      simp [Row.clash, ha, hb]
    exact (Table.find?_eq_some_iff hp).mpr ⟨hletter, beq_self_eq_true _⟩
  rw [← requeue_iff (h.deadLetters letter hletter).columns (by decide) (by decide) hunused]
  simp only [Replays, replayDeadLetter, hfind, Option.bind_eq_bind, Option.bind_some,
    Option.bind_eq_some_iff]
  constructor
  · rintro ⟨s', ⟨queued, hrequeue, hsome⟩, hrow, hothers⟩
    obtain rfl := Option.some.inj hsome
    exact ⟨queued, hrequeue, hrow⟩
  · rintro ⟨queued, hrequeue, hrow⟩
    refine ⟨_, ⟨queued, hrequeue, rfl⟩, hrow, fun other => ?_⟩
    change other ∈ s.deadLetters.rows.filter _ ↔ _
    rw [List.mem_filter]
    constructor
    · rintro ⟨hother, hid⟩
      refine ⟨hother, ?_⟩
      rintro rfl
      simp at hid
    · rintro ⟨hother, hne⟩
      refine ⟨hother, ?_⟩
      have hid : (other.id == letter.id) = false := by
        rw [Bool.eq_false_iff, ne_eq, honly other hother]
        exact hne
      simp [hid]

omit [Unicode] in
theorem resends_iff (h : s.Kept) {row : EmailOutboxRow} (hrow : row ∈ s.outbox.rows)
    (hunused : Unused s id (resendKey row.toQueuedEmail uuid)) :
    Resends s row id uuid ↔ row.idempotencyKey.toList.length ≤ 76 := by
  have hp : ∀ a b : EmailOutboxRow, (a.id == row.id) = true → (b.id == row.id) = true →
      Row.clash a b := by
    intro a b ha hb
    rw [beq_iff_eq] at ha hb
    simp [Row.clash, ha, hb]
  have hfind : s.outbox.find? (·.id == row.id) = some row :=
    (Table.find?_eq_some_iff hp).mpr ⟨hrow, beq_self_eq_true _⟩
  rw [← requeue_iff (h.outbox row hrow).columns (by decide) (by decide) hunused]
  simp only [Resends, resend, hfind, Option.bind_eq_bind, Option.bind_some]
  constructor
  · rintro ⟨s', hrequeue, hnew, -⟩
    exact ⟨s', hrequeue, hnew⟩
  · rintro ⟨s', hrequeue, hnew⟩
    exact ⟨s', hrequeue, hnew, deadLetters_requeue hrequeue⟩

/-- Every message of both tables can be put into the queue once more. -/
def AllRequeue (s : EmailStore) : Prop :=
  (∀ letter ∈ s.deadLetters.rows, ∀ id replayId,
    Unused s id (replayKey letter.toQueuedEmail replayId) → Replays s letter id replayId) ∧
  ∀ row ∈ s.outbox.rows, ∀ id resendId,
    Unused s id (resendKey row.toQueuedEmail resendId) → Resends s row id resendId

theorem kept_of_reaches [EmailSettings] [UnsubscribeLinks] {now : DateTime}
    (hrun : Runs.Reaches step Runs.always { now } s) : s.Kept :=
  hrun.invariant (fun _ _ _ h _ hstep => kept_step h hstep) ⟨nofun, nofun⟩

end NotificationService

section
open NotificationService
variable [Unicode] [EmailSettings] [UnsubscribeLinks] {now : DateTime} {s : EmailStore}

/-- A message can be put into the queue once more as long as its key leaves room for an
identifier behind it. -/
theorem requeues_iff (hrun : Runs.Reaches step Runs.always { now } s) :
    (∀ letter ∈ s.deadLetters.rows, ∀ id replayId,
      Unused s id (replayKey letter.toQueuedEmail replayId) →
        (Replays s letter id replayId ↔ letter.idempotencyKey.toList.length ≤ 76)) ∧
    ∀ row ∈ s.outbox.rows, ∀ id resendId,
      Unused s id (resendKey row.toQueuedEmail resendId) →
        (Resends s row id resendId ↔ row.idempotencyKey.toList.length ≤ 76) :=
  ⟨fun _ hletter _ _ hunused => replays_iff (kept_of_reaches hrun) hletter hunused,
    fun _ hrow _ _ hunused => resends_iff (kept_of_reaches hrun) hrow hunused⟩

/-- No message goes through the queue more than three times. -/
theorem requeued_at_most_twice (hrun : Runs.Reaches step Runs.always { now } s) :
    (∀ row ∈ s.outbox.rows, ∃ n ≤ 2, row.Chained n) ∧
      ∀ letter ∈ s.deadLetters.rows, ∃ n ≤ 2, letter.Chained n := by
  have hkept := kept_of_reaches hrun
  exact ⟨fun row hrow => (hkept.outbox row hrow).requeued_le,
    fun letter hletter => (hkept.deadLetters letter hletter).requeued_le⟩

end

abbrev plainLinks : UnsubscribeLinks := ⟨fun email _ => email⟩

def welcomeEmail (user : Uuid) : EmailRequest where
  toEmail := some "a@b.co"
  subject := "Welcome to Finguard"
  template := "welcome"
  context := []
  idempotencyKey := "welcome:" ++ uuidStr user

def payableNotice (expense : Uuid) : ApprovalNotice where
  subject := "A payable needs your approval"
  template := "approval_needed"
  context := []
  resourceId := uuidStr expense
  keyPrefix := "payable_review"

/-- A welcome that could not be sent is replayed. -/
theorem welcome_replayed :
    letI := Unicode.ascii
    letI := EmailSettings.default
    letI := plainLinks
    ∃ s, Runs.Reaches NotificationService.step Runs.always { now := 0 } s ∧
      ∃ letter ∈ s.deadLetters.rows, NotificationService.Replays s letter 12 30 := by
  let := Unicode.ascii
  let := EmailSettings.default
  let := plainLinks
  have hreplay : (Runs.replay NotificationService.step Runs.always { now := 0 }
      (.enqueue (welcomeEmail 1) 10 ::
        List.replicate 5 (.flush fun _ => .failed "timeout" 20))).map
      (fun s => (s.deadLetters.rows.map (·.idempotencyKey.toList.length),
        s.outbox.rows.length)) = some ([44], 0) := by
    decide +kernel
  obtain ⟨s, hrun, hs⟩ := Runs.replay_map_reaches hreplay
  obtain ⟨hletters, houtbox⟩ := Prod.mk.inj hs
  obtain ⟨letter, hletter, hkey⟩ : ∃ letter ∈ s.deadLetters.rows,
      letter.idempotencyKey.toList.length = 44 :=
    List.mem_map.mp (hletters ▸ List.mem_singleton_self 44)
  refine ⟨s, hrun, letter, hletter, ?_⟩
  refine ((requeues_iff hrun).1 letter hletter 12 30 ?_).mpr (by omega)
  intro row hrow
  rw [List.length_eq_zero_iff.mp houtbox] at hrow
  cases hrow

/-- The notice of a payable to a reviewer has a key of 88 characters. -/
theorem review_not_resent :
    letI := Unicode.ascii
    letI := EmailSettings.default
    letI := plainLinks
    ∃ s, Runs.Reaches NotificationService.step Runs.always { now := 0 } s ∧
      ¬ NotificationService.AllRequeue s := by
  let := Unicode.ascii
  let := EmailSettings.default
  let := plainLinks
  have hreplay : (Runs.replay NotificationService.step Runs.always { now := 0 }
      [.notifyReviewers (payableNotice 1) [⟨2, "a@b.co", "Ada"⟩] (fun _ => 10)]).map
      (fun s => (s.outbox.rows.map fun row => (row.id, row.idempotencyKey.toList.length))) =
        some [(10, 88)] := by
    decide +kernel
  obtain ⟨s, hrun, hs⟩ := Runs.replay_map_reaches hreplay
  have hrows : ∀ row ∈ s.outbox.rows, row.id = 10 ∧ row.idempotencyKey.toList.length = 88 := by
    intro row hrow
    have hmem : (row.id, row.idempotencyKey.toList.length) ∈ [(10, 88)] :=
      hs ▸ List.mem_map_of_mem hrow
    simpa using hmem
  obtain ⟨row, hrow, -⟩ : ∃ row ∈ s.outbox.rows,
      (row.id, row.idempotencyKey.toList.length) = (10, 88) :=
    List.mem_map.mp (hs ▸ List.mem_singleton_self _)
  obtain ⟨-, hlength⟩ := hrows row hrow
  refine ⟨s, hrun, fun hall => ?_⟩
  have hunused : NotificationService.Unused s 11
      (NotificationService.resendKey row.toQueuedEmail 30) := by
    intro other hother
    obtain ⟨hid, hother⟩ := hrows other hother
    refine ⟨by simp [hid], fun hkey => ?_⟩
    rw [hkey, NotificationService.resendKey] at hother
    simp only [String.toList_append, List.length_append, hlength, length_uuidStr] at hother
    omega
  have hresends := hall.2 row hrow 11 30 hunused
  rw [NotificationService.resends_iff (NotificationService.kept_of_reaches hrun) hrow hunused]
    at hresends
  omega

end Finguard
