import Finguard.Model
import Finguard.Lib.Keyed
import Finguard.Lib.Sessions

/-! The outbox projector. What it has published at the broker stays published when its
transaction is rolled back; its marks on the rows do not. -/

namespace Finguard
open Sessions

structure OutboxRow extends OutboxEvent where
  id : Uuid
  published : Bool := false
  retryCount : ℕ := 0
  lastError : Option String := none
  createdAt : DateTime
deriving DecidableEq

structure OutboxDeadLetter extends OutboxEvent where
  originalEventId : Uuid
  retryCount : ℕ
  lastError : Option String
  originalCreatedAt : DateTime
deriving DecidableEq

instance : Row OutboxRow where
  clash a b := a.id == b.id
  clash_symm h := by
    rw [beq_iff_eq] at h ⊢
    exact h.symm

namespace OutboxRow

def markPublished (event : OutboxRow) : OutboxRow := { event with published := true }

/-- `error` is the exception as it is represented. -/
def recordFailure (event : OutboxRow) (error : String) : OutboxRow :=
  { event with
    retryCount := event.retryCount + 1
    lastError := some (String.ofList (error.toList.take 1000)) }

/-- The columns that a flush writes back. -/
def writeBack (event row : OutboxRow) : OutboxRow :=
  { row with
    published := event.published
    retryCount := event.retryCount
    lastError := event.lastError }

def toDeadLetter (event : OutboxRow) : OutboxDeadLetter :=
  { event with
    originalEventId := event.id
    originalCreatedAt := event.createdAt }

end OutboxRow

theorem OutboxRow.writeBack_clash (event a b : OutboxRow) :
    Row.clash (event.writeBack a) b = Row.clash a b := rfl

structure OutboxDb where
  events : Table OutboxRow := ∅
  deadLetters : List OutboxDeadLetter := []

/-- What the transaction holds for one event until it commits. -/
inductive Projected where
  | kept (event : OutboxRow)
  | moved (event : OutboxRow)

/-- One event of the batch. The publish has returned, or it has raised. -/
def projectEvent (maxRetries : ℤ) (event : OutboxRow) : Option String → Projected
  | none => .kept event.markPublished
  | some error =>
    if maxRetries ≤ (event.recordFailure error).retryCount then
      .moved (event.recordFailure error)
    else .kept (event.recordFailure error)

namespace OutboxDb

/-- The rows a projector takes, from those that no other one holds. -/
def pendingBatch (db : OutboxDb) (held : Uuid → Bool) : List OutboxRow :=
  (((db.events.filter (fun event => !event.published)).insertionSort
    (fun a b => a.createdAt ≤ b.createdAt)).filter (fun event => !held event.id)).take 100

def updateEvent (db : OutboxDb) (event : OutboxRow) : OutboxDb :=
  { db with
    events := db.events.update (·.id == event.id) event.writeBack event.writeBack_clash }

def moveToDeadLetters (db : OutboxDb) (event : OutboxRow) : OutboxDb :=
  { events := db.events.delete (·.id == event.id)
    deadLetters := db.deadLetters ++ [event.toDeadLetter] }

def flush (db : OutboxDb) : Projected → OutboxDb
  | .kept event => db.updateEvent event
  | .moved event => db.moveToDeadLetters event

end OutboxDb

/-- The tables, all events that were ever recorded, and what happened at the broker. -/
structure OutboxStore where
  db : OutboxDb := {}
  recorded : List OutboxRow := []
  acks : List Uuid := []
  failures : List Uuid := []

inductive OutboxRequest where
  | record (event : OutboxEvent) (id : Uuid) (createdAt : DateTime)
  | project

inductive OutboxPhase where
  | begun
  | publishing (todo : List OutboxRow) (answered : List (OutboxRow × Option String))

structure OutboxTx where
  request : OutboxRequest
  phase : OutboxPhase := .begun

/-- The answer to a publish is `none` where it returned. -/
inductive OutboxAction where
  | commitRecord
  | lockBatch
  | publish (answer : Option String) (acked : Bool)
  | commit
  | crash

namespace OutboxTx

def batch (t : OutboxTx) : List OutboxRow :=
  match t.phase with
  | .begun => []
  | .publishing todo answered => answered.map Prod.fst ++ todo

def answered (t : OutboxTx) : List (OutboxRow × Option String) :=
  match t.phase with
  | .begun => []
  | .publishing _ answered => answered

def holds (t : OutboxTx) (id : Uuid) : Bool := t.batch.any (·.id == id)

end OutboxTx

def OutboxStore.recordEvent (s : OutboxStore) (row : OutboxRow) : Option OutboxStore := do
  -- ids are drawn at random, never twice
  guard (s.recorded.all (·.id != row.id))
  let events ← s.db.events.insert? row
  return { s with db := { s.db with events }, recorded := s.recorded ++ [row] }

def OutboxStore.answer (s : OutboxStore) (id : Uuid) (answer : Option String) (acked : Bool) :
    OutboxStore :=
  { s with
    acks := if acked then s.acks ++ [id] else s.acks
    failures := if answer.isSome then s.failures ++ [id] else s.failures }

def flushBatch (maxRetries : ℤ) (db : OutboxDb) (answered : List (OutboxRow × Option String)) :
    OutboxDb :=
  answered.foldl (fun db a => db.flush (projectEvent maxRetries a.1 a.2)) db

namespace OutboxTx

def advance (maxRetries : ℤ) (s : OutboxStore) (others : List OutboxTx) (t : OutboxTx) :
    OutboxAction → Option (OutboxStore × Option OutboxTx)
  | .commitRecord =>
    match t.request with
    | .record event id createdAt =>
      (s.recordEvent { event with id, createdAt }).map (fun s' => (s', none))
    | .project => none
  | .lockBatch =>
    match t.request, t.phase with
    | .project, .begun =>
      let todo := s.db.pendingBatch (fun id => others.any (·.holds id))
      some (s, some { t with phase := .publishing todo [] })
    | _, _ => none
  | .publish answer acked =>
    match t.phase with
    | .publishing (event :: todo) answered =>
      -- a publish returns only after the broker has acknowledged it
      if answer.isNone && !acked then none
      else some (s.answer event.id answer acked,
        some { t with phase := .publishing todo (answered ++ [(event, answer)]) })
    | _ => none
  | .commit =>
    match t.phase with
    | .publishing [] answered =>
      some ({ s with db := flushBatch maxRetries s.db answered }, none)
    | _ => none
  | .crash => some (s, none)

def machine (maxRetries : ℤ) : Machine OutboxStore OutboxTx OutboxRequest OutboxAction where
  start request := { request }
  advance := advance maxRetries

end OutboxTx

/-! Where an event stands. -/

inductive Standing where
  | pending (event : OutboxRow)
  | published (event : OutboxRow)
  | deadLettered (letter : OutboxDeadLetter)
deriving DecidableEq

def OutboxRow.standing (event : OutboxRow) : Standing :=
  if event.published then .published event else .pending event

def Standing.content : Standing → OutboxEvent
  | pending event => event.toOutboxEvent
  | published event => event.toOutboxEvent
  | deadLettered letter => letter.toOutboxEvent

def Standing.final : Standing → Bool
  | pending _ => false
  | _ => true

def Projected.standing : Projected → Standing
  | kept event => event.standing
  | moved event => .deadLettered event.toDeadLetter

/-- All the rows that an event has in the two tables. -/
def OutboxDb.standings (db : OutboxDb) (id : Uuid) : List Standing :=
  (db.events.filter (·.id == id)).map OutboxRow.standing ++
    (db.deadLetters.filter (·.originalEventId == id)).map Standing.deadLettered

/-- What must have happened at the broker before. -/
def OutboxStore.Accounts (maxRetries : ℤ) (s : OutboxStore) (id : Uuid) : Standing → Prop
  | .pending event => event.retryCount ≤ s.failures.count id
  | .published _ => id ∈ s.acks
  | .deadLettered _ => maxRetries ≤ s.failures.count id

theorem OutboxRow.clash_iff {a b : OutboxRow} : Row.clash a b = true ↔ a.id = b.id := by
  show (a.id == b.id) = true ↔ _
  rw [beq_iff_eq]

theorem projectEvent_cases (maxRetries : ℤ) (event : OutboxRow) (answer : Option String) :
    (∃ kept, projectEvent maxRetries event answer = .kept kept ∧ kept.id = event.id ∧
      kept.writeBack event = kept) ∨
    ∃ moved, projectEvent maxRetries event answer = .moved moved ∧ moved.id = event.id := by
  cases answer with
  | none => exact .inl ⟨_, rfl, rfl, rfl⟩
  | some error =>
    by_cases hmax : maxRetries ≤ (event.recordFailure error).retryCount
    · exact .inr ⟨_, if_pos hmax, rfl⟩
    · exact .inl ⟨_, if_neg hmax, rfl, rfl⟩

theorem beq_false_of_ne {a b c : Uuid} (h : a ≠ c) (hb : (b == a) = true) : (b == c) = false := by
  rw [beq_iff_eq] at hb
  simpa [hb] using h

namespace OutboxDb
variable {db : OutboxDb} {event : OutboxRow} {id : Uuid}

theorem standings_eq_pending : db.standings id = [.pending event] ↔
    db.events.filter (·.id == id) = [event] ∧ event.published = false ∧
      db.deadLetters.filter (·.originalEventId == id) = [] := by
  unfold standings
  constructor
  · intro h
    rcases List.append_eq_singleton_iff.mp h with ⟨-, hdead⟩ | ⟨hrows, hdead⟩
    · obtain ⟨_, -, hletter⟩ := List.map_eq_singleton_iff.mp hdead
      cases hletter
    · obtain ⟨row, hrow, hstanding⟩ := List.map_eq_singleton_iff.mp hrows
      cases hpublished : row.published with
      | true => simp [OutboxRow.standing, hpublished] at hstanding
      | false =>
        have heq : row = event := by simpa [OutboxRow.standing, hpublished] using hstanding
        subst heq
        exact ⟨hrow, hpublished, List.map_eq_nil_iff.mp hdead⟩
  · rintro ⟨hrow, hpublished, hdead⟩
    simp [hrow, hdead, OutboxRow.standing, hpublished]

theorem standings_flush_of_ne (maxRetries : ℤ) (answer : Option String) (h : id ≠ event.id) :
    (db.flush (projectEvent maxRetries event answer)).standings id = db.standings id := by
  rcases projectEvent_cases maxRetries event answer with
    ⟨kept, hkept, hid, -⟩ | ⟨moved, hmoved, hid⟩
  · have hrows : (db.events.update (·.id == kept.id) kept.writeBack kept.writeBack_clash).filter
        (·.id == id) = db.events.filter (·.id == id) :=
      Table.filter_update_of_disjoint (fun _ => rfl)
        (fun row hrow => beq_false_of_ne (hid ▸ h) hrow)
    rw [hkept, flush, updateEvent, standings, hrows, standings]
  · have hrows : (db.moveToDeadLetters moved).events.filter (·.id == id) =
        db.events.filter (·.id == id) := by
      refine Table.filter_delete_of_imp (fun row hrow => ?_)
      exact beq_false_of_ne (hid ▸ h) hrow
    have hletter : (moved.toDeadLetter.originalEventId == id) = false := by
      rw [OutboxRow.toDeadLetter, hid, beq_eq_false_iff_ne]
      exact h.symm
    rw [hmoved, flush, standings, hrows]
    simp [moveToDeadLetters, hletter, standings]

theorem standings_flush_self (maxRetries : ℤ) (answer : Option String)
    (h : db.standings event.id = [.pending event]) :
    (db.flush (projectEvent maxRetries event answer)).standings event.id =
      [(projectEvent maxRetries event answer).standing] := by
  obtain ⟨hrow, hpublished, hdead⟩ := standings_eq_pending.mp h
  rcases projectEvent_cases maxRetries event answer with
    ⟨kept, hkept, hid, hback⟩ | ⟨moved, hmoved, hid⟩
  · have hrows : (db.events.update (·.id == kept.id) kept.writeBack kept.writeBack_clash).filter
        (·.id == event.id) = [kept] := by
      rw [Table.filter_update (by intros; rfl), hrow]
      simp [Table.updated, hid, hback]
    rw [hkept, flush, updateEvent, standings, hrows]
    simp [hdead, Projected.standing]
  · have hrows : (db.moveToDeadLetters moved).events.filter (·.id == event.id) = [] := by
      rw [moveToDeadLetters, hid]
      exact Table.filter_delete_self
    rw [hmoved, flush, standings, hrows]
    simp [moveToDeadLetters, hdead, Projected.standing, OutboxRow.toDeadLetter, hid]

end OutboxDb

section
variable {maxRetries : ℤ} {db : OutboxDb} {answered : List (OutboxRow × Option String)}

theorem flush_local (maxRetries : ℤ) : Keyed.Local
    (fun (db : OutboxDb) (a : OutboxRow × Option String) =>
      db.flush (projectEvent maxRetries a.1 a.2)) OutboxDb.standings (fun a => a.1.id) :=
  fun _ a _ h => OutboxDb.standings_flush_of_ne maxRetries a.2 h

theorem standings_flushBatch_of_not_mem {id : Uuid} (h : id ∉ answered.map (fun a => a.1.id)) :
    (flushBatch maxRetries db answered).standings id = db.standings id :=
  (flush_local maxRetries).foldl_of_not_mem h

/-- Each event of a batch ends where its own answer puts it. -/
theorem standings_flushBatch (hnodup : (answered.map (fun a => a.1.id)).Nodup)
    (hpending : ∀ a ∈ answered, db.standings a.1.id = [.pending a.1]) :
    ∀ a ∈ answered, (flushBatch maxRetries db answered).standings a.1.id =
      [(projectEvent maxRetries a.1 a.2).standing] :=
  (flush_local maxRetries).foldl_of_mem (fun a => [.pending a.1])
    (fun a => [(projectEvent maxRetries a.1 a.2).standing])
    (fun _ a h => OutboxDb.standings_flush_self maxRetries a.2 h) hnodup hpending

end

/-! What a run keeps. -/

structure OutboxSound (maxRetries : ℤ) (s : OutboxStore) : Prop where
  known : ∀ id, s.db.standings id ≠ [] → ∃ event ∈ s.recorded, event.id = id
  each : ∀ event ∈ s.recorded, ∃ standing, s.db.standings event.id = [standing] ∧
    standing.content = event.toOutboxEvent ∧ s.Accounts maxRetries event.id standing

/-- What was decided in `mid` is still so. -/
structure OutboxKept (mid s : OutboxStore) : Prop where
  recorded : mid.recorded <+: s.recorded
  final : ∀ id standing, mid.db.standings id = [standing] → standing.final →
    s.db.standings id = [standing]

theorem OutboxStore.Accounts.mono {maxRetries : ℤ} {s s' : OutboxStore} {id : Uuid}
    {standing : Standing} (hacks : s.acks ⊆ s'.acks)
    (hfailures : s.failures.count id ≤ s'.failures.count id)
    (h : s.Accounts maxRetries id standing) : s'.Accounts maxRetries id standing := by
  cases standing with
  | pending event => exact Nat.le_trans h hfailures
  | published event => exact hacks h
  | deadLettered letter =>
    have hcount : maxRetries ≤ (s.failures.count id : ℤ) := h
    show maxRetries ≤ (s'.failures.count id : ℤ)
    omega

section recordEvent
variable {s s' : OutboxStore} {row : OutboxRow}

theorem OutboxStore.recordEvent_eq_some (h : s.recordEvent row = some s') :
    (∀ event ∈ s.recorded, event.id ≠ row.id) ∧ ∃ events, s.db.events.insert? row = some events ∧
      s' = { s with db := { s.db with events }, recorded := s.recorded ++ [row] } := by
  simp only [recordEvent, Option.bind_eq_bind, Option.bind_eq_some_iff, Option.guard_eq_some'] at h
  obtain ⟨_, hnew, events, hinsert, hs'⟩ := h
  refine ⟨?_, events, hinsert, (Option.some.inj hs').symm⟩
  simpa using hnew

theorem standings_recordEvent_of_ne (h : s.recordEvent row = some s') {id : Uuid}
    (hid : id ≠ row.id) : s'.db.standings id = s.db.standings id := by
  obtain ⟨-, events, hinsert, rfl⟩ := OutboxStore.recordEvent_eq_some h
  have hrow : (row.id == id) = false := beq_eq_false_iff_ne.mpr hid.symm
  have hfilter : events.filter (·.id == id) = s.db.events.filter (·.id == id) := by
    rw [Table.filter_of_insert hinsert, if_neg (by simp [hrow])]
  rw [OutboxDb.standings, hfilter]
  rfl

theorem standings_recordEvent_self (h : s.recordEvent row = some s')
    (hnone : s.db.standings row.id = []) : s'.db.standings row.id = [row.standing] := by
  obtain ⟨-, events, hinsert, rfl⟩ := OutboxStore.recordEvent_eq_some h
  obtain ⟨hrows, hdead⟩ := List.append_eq_nil_iff.mp hnone
  have hfilter : events.filter (·.id == row.id) = [row] := by
    rw [Table.filter_of_insert hinsert, if_pos (beq_self_eq_true _), List.map_eq_nil_iff.mp hrows,
      List.nil_append]
  rw [OutboxDb.standings, hfilter, hdead]
  rfl

theorem OutboxSound.not_known {maxRetries : ℤ} (hs : OutboxSound maxRetries s)
    (h : s.recordEvent row = some s') : s.db.standings row.id = [] := by
  by_contra hsome
  obtain ⟨event, hevent, hid⟩ := hs.known row.id hsome
  exact (OutboxStore.recordEvent_eq_some h).1 event hevent hid

theorem OutboxSound.recordEvent {maxRetries : ℤ} (hs : OutboxSound maxRetries s)
    (h : s.recordEvent row = some s') (hpublished : row.published = false)
    (hretry : row.retryCount = 0) : OutboxSound maxRetries s' := by
  have hself := standings_recordEvent_self h (hs.not_known h)
  obtain ⟨hnew, events, -, hs'⟩ := OutboxStore.recordEvent_eq_some h
  have hrecorded : s'.recorded = s.recorded ++ [row] := by rw [hs']
  constructor
  · intro id hsome
    rw [hrecorded]
    by_cases hid : id = row.id
    · exact ⟨row, by simp, hid.symm⟩
    · rw [standings_recordEvent_of_ne h hid] at hsome
      obtain ⟨event, hevent, heq⟩ := hs.known id hsome
      exact ⟨event, List.mem_append_left _ hevent, heq⟩
  · intro event hevent
    rw [hrecorded] at hevent
    rcases List.mem_append.mp hevent with hold | hrow
    · obtain ⟨standing, hstanding, hcontent, haccounts⟩ := hs.each event hold
      refine ⟨standing, ?_, hcontent, haccounts.mono ?_ ?_⟩
      · rw [standings_recordEvent_of_ne h (hnew event hold), hstanding]
      · rw [hs']
        exact List.Subset.refl _
      · rw [hs']
    · obtain rfl := List.mem_singleton.mp hrow
      have hpending : event.standing = .pending event := by
        simp [OutboxRow.standing, hpublished]
      refine ⟨.pending event, by rw [hself, hpending], rfl, ?_⟩
      show event.retryCount ≤ _
      rw [hretry]
      exact Nat.zero_le _

theorem OutboxKept.recordEvent {maxRetries : ℤ} {mid : OutboxStore} (hs : OutboxSound maxRetries s)
    (hkept : OutboxKept mid s) (h : s.recordEvent row = some s') : OutboxKept mid s' := by
  have hnone := hs.not_known h
  obtain ⟨-, events, -, hs'⟩ := OutboxStore.recordEvent_eq_some h
  refine ⟨?_, ?_⟩
  · rw [hs']
    exact hkept.recorded.trans (List.prefix_append _ _)
  · intro id standing hmid hfinal
    have hold := hkept.final id standing hmid hfinal
    have hne : id ≠ row.id := by
      rintro rfl
      rw [hnone] at hold
      cases hold
    rw [standings_recordEvent_of_ne h hne, hold]

end recordEvent

section flushBatch
variable {maxRetries : ℤ} {s : OutboxStore} {answered : List (OutboxRow × Option String)}

/-- What an answer says about the broker. -/
def OutboxStore.Answered (s : OutboxStore) (event : OutboxRow) : Option String → Prop
  | none => event.id ∈ s.acks
  | some _ => event.retryCount < s.failures.count event.id

theorem projectEvent_accounts {event : OutboxRow} {answer : Option String}
    (h : s.Answered event answer) (hpending : event.published = false) (db : OutboxDb) :
    (projectEvent maxRetries event answer).standing.content = event.toOutboxEvent ∧
      OutboxStore.Accounts maxRetries { s with db } event.id
        (projectEvent maxRetries event answer).standing := by
  cases answer with
  | none => exact ⟨rfl, h⟩
  | some error =>
    have hcount : event.retryCount < s.failures.count event.id := h
    by_cases hmax : maxRetries ≤ (event.recordFailure error).retryCount
    · have hstanding : projectEvent maxRetries event (some error) =
          .moved (event.recordFailure error) := if_pos hmax
      rw [hstanding]
      refine ⟨rfl, ?_⟩
      have hretried : (event.recordFailure error).retryCount = event.retryCount + 1 := rfl
      show maxRetries ≤ (s.failures.count event.id : ℤ)
      omega
    · have hstanding : projectEvent maxRetries event (some error) =
          .kept (event.recordFailure error) := if_neg hmax
      rw [hstanding]
      have hkept : (event.recordFailure error).standing = .pending (event.recordFailure error) := by
        simp [OutboxRow.standing, OutboxRow.recordFailure, hpending]
      rw [Projected.standing, hkept]
      exact ⟨rfl, hcount⟩

structure Answers (s : OutboxStore) (answered : List (OutboxRow × Option String)) : Prop where
  nodup : (answered.map (fun a => a.1.id)).Nodup
  pending : ∀ a ∈ answered, s.db.standings a.1.id = [.pending a.1]
  answers : ∀ a ∈ answered, s.Answered a.1 a.2

theorem OutboxSound.flushBatch (hs : OutboxSound maxRetries s) (h : Answers s answered) :
    OutboxSound maxRetries { s with db := flushBatch maxRetries s.db answered } := by
  have hflushed : ∀ a ∈ answered, (Finguard.flushBatch maxRetries s.db answered).standings a.1.id =
      [(projectEvent maxRetries a.1 a.2).standing] := standings_flushBatch h.nodup h.pending
  constructor
  · intro id hsome
    by_cases hid : id ∈ answered.map (fun a => a.1.id)
    · obtain ⟨a, ha, rfl⟩ := List.mem_map.mp hid
      exact hs.known a.1.id (by rw [h.pending a ha]; exact List.cons_ne_nil _ _)
    · rw [standings_flushBatch_of_not_mem hid] at hsome
      exact hs.known id hsome
  · intro event hevent
    obtain ⟨standing, hstanding, hcontent, haccounts⟩ := hs.each event hevent
    by_cases hid : event.id ∈ answered.map (fun a => a.1.id)
    · obtain ⟨a, ha, haid⟩ := List.mem_map.mp hid
      have hbefore := h.pending a ha
      have hpublished := (OutboxDb.standings_eq_pending.mp hbefore).2.1
      have haccounted : (projectEvent maxRetries a.1 a.2).standing.content = a.1.toOutboxEvent ∧
          OutboxStore.Accounts maxRetries
            { s with db := Finguard.flushBatch maxRetries s.db answered } a.1.id
            (projectEvent maxRetries a.1 a.2).standing :=
        projectEvent_accounts (h.answers a ha) hpublished _
      obtain ⟨hkept, hnow⟩ := haccounted
      have hold : standing = .pending a.1 := by
        rw [haid, hstanding] at hbefore
        exact List.singleton_inj.mp hbefore
      refine ⟨_, haid ▸ hflushed a ha, ?_, haid ▸ hnow⟩
      rw [hkept, ← hcontent, hold]
      rfl
    · exact ⟨standing, (standings_flushBatch_of_not_mem hid).trans hstanding, hcontent, haccounts⟩

theorem OutboxKept.flushBatch {mid : OutboxStore} (hkept : OutboxKept mid s)
    (h : Answers s answered) :
    OutboxKept mid { s with db := flushBatch maxRetries s.db answered } := by
  refine ⟨hkept.recorded, ?_⟩
  intro id standing hmid hfinal
  have hold := hkept.final id standing hmid hfinal
  -- the batch holds nothing that was decided before
  have hid : id ∉ answered.map (fun a => a.1.id) := by
    intro hid
    obtain ⟨a, ha, rfl⟩ := List.mem_map.mp hid
    rw [h.pending a ha] at hold
    obtain rfl := List.singleton_inj.mp hold
    cases hfinal
  exact (standings_flushBatch_of_not_mem hid).trans hold

end flushBatch

/-! The sessions. -/

theorem OutboxDb.pendingBatch_nodup (db : OutboxDb) (held : Uuid → Bool) :
    ((db.pendingBatch held).map OutboxRow.id).Nodup := by
  have hne : ∀ {a b : OutboxRow}, ¬ Row.clash a b → a.id ≠ b.id := by
    intro a b hclash hid
    exact hclash (OutboxRow.clash_iff.mpr hid)
  have hrows : (db.events.filter (fun event => !event.published)).Pairwise
      (fun a b => a.id ≠ b.id) := (db.events.unique.filter _).imp hne
  have hsorted := (List.perm_insertionSort (fun a b : OutboxRow => a.createdAt ≤ b.createdAt)
    (db.events.filter (fun event => !event.published))).symm.pairwise hrows Ne.symm
  rw [List.Nodup, List.pairwise_map]
  exact (hsorted.filter _).sublist (List.take_sublist _ _)

theorem OutboxDb.mem_pendingBatch {db : OutboxDb} {held : Uuid → Bool} {event : OutboxRow}
    (h : event ∈ db.pendingBatch held) :
    event ∈ db.events.rows ∧ event.published = false ∧ held event.id = false := by
  obtain ⟨hsorted, hfree⟩ := List.mem_filter.mp (List.mem_of_mem_take h)
  rw [List.mem_insertionSort] at hsorted
  obtain ⟨hrow, hpending⟩ := List.mem_filter.mp hsorted
  exact ⟨hrow, by simpa using hpending, by simpa using hfree⟩

theorem OutboxSound.pending {maxRetries : ℤ} {s : OutboxStore} {event : OutboxRow}
    (hs : OutboxSound maxRetries s) (hrow : event ∈ s.db.events.rows)
    (hpublished : event.published = false) : s.db.standings event.id = [.pending event] := by
  have hmem : Standing.pending event ∈ s.db.standings event.id := by
    refine List.mem_append_left _ (List.mem_map.mpr ⟨event, ?_, ?_⟩)
    · exact List.mem_filter.mpr ⟨hrow, beq_self_eq_true _⟩
    · simp [OutboxRow.standing, hpublished]
  obtain ⟨known, hknown, hid⟩ := hs.known event.id (List.ne_nil_of_mem hmem)
  obtain ⟨standing, hstanding, -⟩ := hs.each known hknown
  rw [hid] at hstanding
  rw [hstanding, List.mem_singleton] at hmem
  rw [hstanding, hmem]

section answer
variable {maxRetries : ℤ} {s mid : OutboxStore} {id : Uuid} {answer : Option String}
  {acked : Bool}

theorem answer_acks (s : OutboxStore) (id : Uuid) (answer : Option String) (acked : Bool) :
    s.acks ⊆ (s.answer id answer acked).acks := by
  intro other hother
  cases acked with
  | false => exact hother
  | true => exact List.mem_append_left _ hother

theorem answer_failures (s : OutboxStore) (id other : Uuid) (answer : Option String)
    (acked : Bool) : s.failures.count other ≤ (s.answer id answer acked).failures.count other := by
  cases answer with
  | none => exact Nat.le_refl _
  | some error =>
    show _ ≤ (s.failures ++ [id]).count other
    rw [List.count_append]
    omega

theorem OutboxSound.record_answer (hs : OutboxSound maxRetries s) :
    OutboxSound maxRetries (s.answer id answer acked) := by
  refine ⟨hs.known, ?_⟩
  intro event hevent
  obtain ⟨standing, hstanding, hcontent, haccounts⟩ := hs.each event hevent
  exact ⟨standing, hstanding, hcontent,
    haccounts.mono (answer_acks s id answer acked) (answer_failures s id event.id answer acked)⟩

theorem OutboxKept.record_answer (hkept : OutboxKept mid s) : OutboxKept mid (s.answer id answer acked) :=
  ⟨hkept.recorded, hkept.final⟩

/-- The answer to the publish that was just made. -/
theorem OutboxSound.answered {event : OutboxRow} (hs : OutboxSound maxRetries s)
    (hpending : s.db.standings event.id = [.pending event]) (hvalid : answer = none → acked = true) :
    (s.answer event.id answer acked).Answered event answer := by
  cases answer with
  | none =>
    show event.id ∈ (if acked then s.acks ++ [event.id] else s.acks)
    simp [hvalid rfl]
  | some error =>
    obtain ⟨known, hknown, hid⟩ := hs.known event.id (by rw [hpending]; exact List.cons_ne_nil _ _)
    obtain ⟨standing, hstanding, -, haccounts⟩ := hs.each known hknown
    rw [hid, hpending] at hstanding
    obtain rfl := List.singleton_inj.mp hstanding
    have hcount : event.retryCount ≤ s.failures.count event.id := hid ▸ haccounts
    show event.retryCount < (s.failures ++ [event.id]).count event.id
    rw [List.count_append, List.count_singleton_self]
    omega

end answer

namespace OutboxTx

structure Sound (s : OutboxStore) (t : OutboxTx) : Prop where
  nodup : (t.batch.map OutboxRow.id).Nodup
  pending : ∀ event ∈ t.batch, s.db.standings event.id = [.pending event]
  answers : ∀ a ∈ t.answered, s.Answered a.1 a.2

def Apart (t u : OutboxTx) : Prop := ∀ a ∈ t.batch, ∀ b ∈ u.batch, a.id ≠ b.id

theorem answered_mono {s s' : OutboxStore} {event : OutboxRow} {answer : Option String}
    (hacks : s.acks ⊆ s'.acks) (hfailures : s.failures.count event.id ≤ s'.failures.count event.id)
    (h : s.Answered event answer) : s'.Answered event answer := by
  cases answer with
  | none => exact hacks h
  | some error =>
    have hcount : event.retryCount < s.failures.count event.id := h
    exact Nat.lt_of_lt_of_le hcount hfailures

theorem Sound.mono {s s' : OutboxStore} {t : OutboxTx} (h : Sound s t)
    (hsame : ∀ event ∈ t.batch, s'.db.standings event.id = s.db.standings event.id)
    (hacks : s.acks ⊆ s'.acks) (hfailures : ∀ id, s.failures.count id ≤ s'.failures.count id) :
    Sound s' t := by
  refine ⟨h.nodup, ?_, ?_⟩
  · intro event hevent
    rw [hsame event hevent]
    exact h.pending event hevent
  · intro a ha
    exact answered_mono hacks (hfailures a.1.id) (h.answers a ha)

theorem Sound.commits {s : OutboxStore} {t : OutboxTx} {answered : List (OutboxRow × Option String)}
    (h : Sound s t) (hphase : t.phase = .publishing [] answered) : Answers s answered := by
  have hbatch : t.batch = answered.map Prod.fst := by simp [batch, hphase]
  have hlisted : t.answered = answered := by simp [OutboxTx.answered, hphase]
  refine ⟨?_, ?_, hlisted ▸ h.answers⟩
  · simpa [hbatch, Function.comp_def] using h.nodup
  · intro a ha
    exact h.pending a.1 (hbatch ▸ List.mem_map_of_mem ha)

theorem secure (maxRetries : ℤ) (mid : OutboxStore) : Secure (machine maxRetries)
    (fun _ _ _ => True) (fun s => OutboxSound maxRetries s ∧ OutboxKept mid s) Sound Apart where
  symm h a ha b hb := (h b hb a ha).symm
  starts _ := ⟨List.nodup_nil, by simp [batch, machine], by simp [answered, machine]⟩
  starts_apart _ := by simp [Apart, batch, machine]
  advances := by
    intro s others t action s' ended hs ht hothers _ hadvance
    have hunchanged : ∀ u ∈ others, Sound s u := fun u hu => (hothers u hu).1
    change advance maxRetries s others t action = some (s', ended) at hadvance
    cases action with
    | crash =>
      obtain ⟨rfl, rfl⟩ := Prod.mk.inj (Option.some.inj hadvance)
      exact ⟨hs, by simp, hunchanged⟩
    | commitRecord =>
      simp only [advance] at hadvance
      split at hadvance
      · rename_i event id createdAt _
        obtain ⟨_, hrecord, heq⟩ := Option.map_eq_some_iff.mp hadvance
        obtain ⟨rfl, rfl⟩ := Prod.mk.inj heq
        refine ⟨⟨hs.1.recordEvent hrecord rfl rfl, hs.2.recordEvent hs.1 hrecord⟩, by simp, ?_⟩
        intro u hu
        have hnone := hs.1.not_known hrecord
        obtain ⟨-, events, -, hs'⟩ := OutboxStore.recordEvent_eq_some hrecord
        refine (hunchanged u hu).mono ?_ ?_ ?_
        · intro row hrow
          refine standings_recordEvent_of_ne hrecord ?_
          intro hid
          have hpending := (hunchanged u hu).pending row hrow
          rw [hid, hnone] at hpending
          cases hpending
        · rw [hs']
          exact List.Subset.refl _
        · rw [hs']
          exact fun _ => Nat.le_refl _
      · cases hadvance
    | lockBatch =>
      simp only [advance] at hadvance
      split at hadvance
      · obtain ⟨rfl, rfl⟩ := Prod.mk.inj (Option.some.inj hadvance)
        refine ⟨hs, ?_, hunchanged⟩
        intro _ ht'
        obtain rfl := Option.some.inj ht'
        refine ⟨⟨?_, ?_, ?_⟩, ?_⟩
        · simpa [batch] using OutboxDb.pendingBatch_nodup s.db _
        · intro event hevent
          obtain ⟨hrow, hpublished, -⟩ := OutboxDb.mem_pendingBatch (by simpa [batch] using hevent)
          exact hs.1.pending hrow hpublished
        · simp [answered]
        · intro u hu event hevent other hother hid
          obtain ⟨-, -, hfree⟩ := OutboxDb.mem_pendingBatch (by simpa [batch] using hevent)
          have hheld : u.holds event.id = true :=
            List.any_eq_true.mpr ⟨other, hother, beq_iff_eq.mpr hid.symm⟩
          exact absurd hheld (by simpa using List.any_eq_false.mp hfree u hu)
      · cases hadvance
    | publish answer acked =>
      simp only [advance] at hadvance
      split at hadvance
      · rename_i event todo answered hphase
        split at hadvance
        · cases hadvance
        · rename_i hvalid
          obtain ⟨rfl, rfl⟩ := Prod.mk.inj (Option.some.inj hadvance)
          have hacks := answer_acks s event.id answer acked
          have hfailures := fun id => answer_failures s event.id id answer acked
          have hframe : ∀ u ∈ others, Sound (s.answer event.id answer acked) u :=
            fun u hu => (hunchanged u hu).mono (fun _ _ => rfl) hacks hfailures
          refine ⟨⟨hs.1.record_answer, hs.2.record_answer⟩, ?_, hframe⟩
          intro t' ht'
          obtain rfl := Option.some.inj ht'
          have hbatch : batch { t with phase := .publishing todo (answered ++ [(event, answer)]) } =
              t.batch := by
            simp [batch, hphase]
          have hlisted : t.answered = answered := by simp [OutboxTx.answered, hphase]
          refine ⟨⟨hbatch ▸ ht.nodup, hbatch ▸ ht.pending, ?_⟩, ?_⟩
          · intro a ha
            rcases List.mem_append.mp ha with hold | hnew
            · exact answered_mono hacks (hfailures a.1.id) (ht.answers a (hlisted ▸ hold))
            · obtain rfl := List.mem_singleton.mp hnew
              have hin : event ∈ t.batch := by simp [batch, hphase]
              refine hs.1.answered (ht.pending event hin) ?_
              simpa using hvalid
          · intro u hu
            have hapart := (hothers u hu).2
            simpa only [Apart, hbatch] using hapart
      · cases hadvance
    | commit =>
      simp only [advance] at hadvance
      split at hadvance
      · rename_i answered hphase
        obtain ⟨rfl, rfl⟩ := Prod.mk.inj (Option.some.inj hadvance)
        have hbatch : t.batch = answered.map Prod.fst := by simp [batch, hphase]
        have hanswers := ht.commits hphase
        refine ⟨⟨hs.1.flushBatch hanswers, hs.2.flushBatch hanswers⟩, by simp, ?_⟩
        intro u hu
        refine (hunchanged u hu).mono ?_ (List.Subset.refl _) (fun _ => Nat.le_refl _)
        intro row hrow
        refine standings_flushBatch_of_not_mem ?_
        intro hid
        obtain ⟨a, ha, heq⟩ := List.mem_map.mp hid
        exact (hothers u hu).2 a.1 (hbatch ▸ List.mem_map_of_mem ha) row hrow heq
      · cases hadvance

end OutboxTx

abbrev OutboxSystem := System OutboxStore OutboxTx

/-- An event that was recorded stands in one place, with what it says unchanged, and that
place is earned at the broker. A projector that commits puts each event of its batch where
the event's own answer does. -/
theorem outbox_conserves_events (maxRetries : ℤ) {mid sys : OutboxSystem}
    (hmid : Runs.Reaches (OutboxTx.machine maxRetries).step Runs.always ⟨{}, []⟩ mid)
    (hrun : Runs.Reaches (OutboxTx.machine maxRetries).step Runs.always mid sys) :
    mid.store.recorded <+: sys.store.recorded ∧
    (∀ event ∈ sys.store.recorded, ∃ standing,
      sys.store.db.standings event.id = [standing] ∧
      standing.content = event.toOutboxEvent ∧
      sys.store.Accounts maxRetries event.id standing ∧
      ∀ before, mid.store.db.standings event.id = [before] → before.final → standing = before) ∧
    ∀ t ∈ sys.sessions, ∀ answered, t.phase = .publishing [] answered → ∀ others,
      ∃ s', OutboxTx.advance maxRetries sys.store others t .commit = some (s', none) ∧
        ∀ event answer, (event, answer) ∈ answered →
          s'.db.standings event.id = [(projectEvent maxRetries event answer).standing] := by
  have hempty : Holds (fun s => OutboxSound maxRetries s ∧ OutboxKept {} s) OutboxTx.Sound
      OutboxTx.Apart (⟨{}, []⟩ : OutboxSystem) := by
    refine ⟨⟨⟨?_, by simp⟩, ⟨List.prefix_rfl, fun _ _ h _ => h⟩⟩, by simp, .nil⟩
    intro id hsome
    exact absurd rfl hsome
  have hfirst := (OutboxTx.secure maxRetries {}).run_always hmid hempty
  have hlast := (OutboxTx.secure maxRetries mid.store).run_always hrun
    ⟨⟨hfirst.store.1, ⟨List.prefix_rfl, fun _ _ h _ => h⟩⟩, hfirst.each, hfirst.apart⟩
  obtain ⟨hsound, hkept⟩ := hlast.store
  refine ⟨hkept.recorded, ?_, ?_⟩
  · intro event hevent
    obtain ⟨standing, hstanding, hcontent, haccounts⟩ := hsound.each event hevent
    refine ⟨standing, hstanding, hcontent, haccounts, ?_⟩
    intro before hbefore hfinal
    have hstill := hkept.final event.id before hbefore hfinal
    exact List.singleton_inj.mp (hstanding.symm.trans hstill)
  · intro t ht answered hphase others
    have hanswers := (hlast.each t ht).commits hphase
    refine ⟨_, by rw [OutboxTx.advance, hphase], ?_⟩
    intro event answer hmem
    exact standings_flushBatch hanswers.nodup hanswers.pending (event, answer) hmem

/-! Two events, the first of which the broker refuses. -/

def recordedEvent (id : Uuid) : OutboxRequest :=
  .record ⟨"finguard.events", "finance.payment.cash_recorded", .invoiceCreated id 1⟩ id id

def refuseFirst : List (Sessions.Action OutboxRequest OutboxAction) :=
  [.start (recordedEvent 1), .advance 0 .commitRecord, .start (recordedEvent 2),
    .advance 0 .commitRecord, .start .project, .start .project, .advance 0 .lockBatch,
    .advance 1 .lockBatch, .advance 1 (.publish (some "ConnectionClosed") false),
    .advance 0 (.publish none true), .advance 0 .commit]

theorem refusedEvent_is_deadLettered :
    ∃ sys, Runs.Reaches (OutboxTx.machine 1).step Runs.always ⟨{}, []⟩ sys ∧
      sys.store.db.deadLetters.map (fun letter => (letter.originalEventId, letter.retryCount)) =
        [(1, 1)] ∧
      (∃ standing, sys.store.db.standings 2 = [standing] ∧ sys.store.Accounts 1 2 standing) := by
  have hreplay : (Runs.replay (OutboxTx.machine 1).step Runs.always (⟨{}, []⟩ : OutboxSystem)
      refuseFirst).map (fun sys => (sys.store.db.deadLetters.map (fun letter =>
        (letter.originalEventId, letter.retryCount)), sys.store.recorded.map OutboxRow.id)) =
          some ([(1, 1)], [1, 2]) := by
    decide +kernel
  obtain ⟨sys, hrun, hrows⟩ := Runs.replay_map_reaches hreplay
  obtain ⟨hletters, hrecorded⟩ := Prod.mk.inj hrows
  obtain ⟨-, hevents, -⟩ := outbox_conserves_events 1 .refl hrun
  have hmem : 2 ∈ sys.store.recorded.map OutboxRow.id := by
    rw [hrecorded]
    simp
  obtain ⟨event, hevent, hid⟩ := List.mem_map.mp hmem
  obtain ⟨standing, hstanding, -, haccounts, -⟩ := hevents event hevent
  rw [hid] at hstanding haccounts
  exact ⟨sys, hrun, hletters, standing, hstanding, haccounts⟩

end Finguard
