import Finguard.Identity
import Finguard.Lib.Json
import Finguard.Lib.Sessions

/-! Conversations. A graph runs in the background of the request that dispatched it, and what
is known of it stands under two keys: its status and its owner. -/

namespace Finguard
open Expiring Sessions

class CheckpointSettings where
  langgraphCheckpointingEnabled : Bool

/-- Seconds. -/
def taskStatusTtl : ℕ := 3600

inductive TaskStatus where
  | pending
  | running (activeNode : Option String)
  | completed (artifactId : Option String) (genuiArtifactIds : Option (List String))
    (genUiPayloads : List Json)
  | failed (detail : String) (resumable : Bool)

def TaskStatus.resumable : TaskStatus → Bool
  | failed _ resumable => resumable
  | _ => false

/-- Writes are numbered. -/
structure StoredStatus where
  payload : TaskStatus
  writeNo : ℕ

inductive ConversationEvent where
  | started (sessionId : String) (userId : Uuid)
  | served (sessionId : String) (userId : Uuid) (status : TaskStatus)
  | resumed (sessionId : String) (userId : Uuid) (writeNo : ℕ)

structure ConversationStore where
  now : Instant
  status : Cells String StoredStatus Instant := {}
  owner : Cells String Uuid Instant := {}
  writes : ℕ := 0
  log : List ConversationEvent := []

inductive ConversationKind where
  | converse
  | status
  | resume
deriving DecidableEq

inductive ConversationPhase where
  | begun
  | statusStored
  | ownerRead (owner : Option Uuid)
  | resumable (writeNo : ℕ)
  | running (prevActive : String)
deriving DecidableEq

structure ConversationRequest where
  kind : ConversationKind
  sessionId : String
  userId : Uuid

structure ConversationTx extends ConversationRequest where
  phase : ConversationPhase := .begun

inductive ConversationAction where
  | storeStatus
  | storeOwner
  | readOwner
  | readStatus
  | redispatch
  | snapshot (next : Option String)
  | complete (artifactId : Option String) (genuiArtifactIds : Option (List String))
    (genUiPayloads : List Json)
  | fail (error : String)
  | elapse (moment : Instant)
  | crash

def ConversationEvent.startedBy? (sessionId : String) : ConversationEvent → Option Uuid
  | started session userId => if session = sessionId then some userId else none
  | _ => none

namespace ConversationStore

/-- Who started a conversation. -/
def startedBy (s : ConversationStore) (sessionId : String) : Option Uuid :=
  s.log.findSome? (·.startedBy? sessionId)

def record (s : ConversationStore) (event : ConversationEvent) : ConversationStore :=
  { s with log := s.log ++ [event] }

def setStatus (s : ConversationStore) (sessionId : String) (payload : TaskStatus) :
    ConversationStore :=
  { s with
    status := s.status.set sessionId ⟨payload, s.writes⟩ (s.now + taskStatusTtl)
    writes := s.writes + 1 }

def setOwner (s : ConversationStore) (sessionId : String) (userId : Uuid) : ConversationStore :=
  { s with owner := s.owner.set sessionId userId (s.now + taskStatusTtl) }

end ConversationStore

/-- The node that runs, as the status names it. -/
def activeLabel (next : Option String) : String :=
  if next = none ∨ next = some "" ∨ next = some "FINISH" then "" else "running:" ++ next.getD ""

def failedStatus [CheckpointSettings] (error : String) : TaskStatus :=
  .failed (.ofList (error.toList.take 500)) CheckpointSettings.langgraphCheckpointingEnabled

namespace ConversationTx
variable [CheckpointSettings]

/-- The new session has a fresh name. -/
def advance (s : ConversationStore) (_ : List ConversationTx) (t : ConversationTx) :
    ConversationAction → Option (ConversationStore × Option ConversationTx)
  | .storeStatus =>
    if t.kind = .converse ∧ t.phase = .begun ∧ s.startedBy t.sessionId = none then
      some ((s.setStatus t.sessionId .pending).record (.started t.sessionId t.userId),
        some { t with phase := .statusStored })
    else none
  | .storeOwner =>
    match t.phase with
    | .statusStored =>
      some (s.setOwner t.sessionId t.userId, some { t with phase := .running "" })
    | _ => none
  | .readOwner =>
    if t.kind ≠ .converse ∧ t.phase = .begun then
      let owner := s.owner.get? s.now t.sessionId
      some (s, if owner.all (· = t.userId) then some { t with phase := .ownerRead owner } else none)
    else none
  | .readStatus =>
    match t.phase with
    | .ownerRead _ =>
      match s.status.get? s.now t.sessionId with
      | none => some (s, none)
      | some stored =>
        if t.kind = .status then
          some (s.record (.served t.sessionId t.userId stored.payload), none)
        else if stored.payload.resumable then
          some (s, some { t with phase := .resumable stored.writeNo })
        else some (s, none)
    | _ => none
  | .redispatch =>
    match t.phase with
    | .resumable writeNo =>
      some ((s.setStatus t.sessionId .pending).record (.resumed t.sessionId t.userId writeNo),
        some { t with phase := .running "" })
    | _ => none
  | .snapshot next =>
    match t.phase with
    | .running prevActive =>
      let label := activeLabel next
      if label = prevActive then some (s, some t)
      else some (s.setStatus t.sessionId (.running (if label = "" then none else some label)),
        some { t with phase := .running label })
    | _ => none
  | .complete artifactId genuiArtifactIds genUiPayloads =>
    match t.phase with
    | .running _ =>
      some (s.setStatus t.sessionId (.completed artifactId genuiArtifactIds genUiPayloads), none)
    | _ => none
  | .fail error =>
    match t.phase with
    | .running _ => some (s.setStatus t.sessionId (failedStatus error), none)
    | _ => none
  | .elapse moment => if s.now ≤ moment then some ({ s with now := moment }, some t) else none
  | .crash => some (s, none)

def machine : Machine ConversationStore ConversationTx ConversationRequest ConversationAction where
  start request := { request with }
  advance := advance

omit [CheckpointSettings] in
/-- Every step that a request can take. -/
inductive Effect (s : ConversationStore) (t : ConversationTx) :
    ConversationAction → ConversationStore → Option ConversationTx → Prop
  | ended {action : ConversationAction} : Effect s t action s none
  | started (hnew : s.startedBy t.sessionId = none) : Effect s t .storeStatus
      ((s.setStatus t.sessionId .pending).record (.started t.sessionId t.userId))
      (some { t with phase := .statusStored })
  | owned (hphase : t.phase = .statusStored) : Effect s t .storeOwner
      (s.setOwner t.sessionId t.userId) (some { t with phase := .running "" })
  | passed (howner : (s.owner.get? s.now t.sessionId).all (· = t.userId)) : Effect s t .readOwner s
      (some { t with phase := .ownerRead (s.owner.get? s.now t.sessionId) })
  | served {owner : Option Uuid} {stored : StoredStatus} (hphase : t.phase = .ownerRead owner)
    (hkind : t.kind = .status) (hstatus : s.status.get? s.now t.sessionId = some stored) :
    Effect s t .readStatus (s.record (.served t.sessionId t.userId stored.payload)) none
  | resumable {owner : Option Uuid} {stored : StoredStatus} (hphase : t.phase = .ownerRead owner)
    (hkind : t.kind ≠ .status) (hstatus : s.status.get? s.now t.sessionId = some stored)
    (hresumable : stored.payload.resumable) :
    Effect s t .readStatus s (some { t with phase := .resumable stored.writeNo })
  | resumed {writeNo : ℕ} (hphase : t.phase = .resumable writeNo) : Effect s t .redispatch
      ((s.setStatus t.sessionId .pending).record (.resumed t.sessionId t.userId writeNo))
      (some { t with phase := .running "" })
  | unchanged {action : ConversationAction} {prevActive : String}
    (hphase : t.phase = .running prevActive) : Effect s t action s (some t)
  | reported {next : Option String} {status : TaskStatus} {label : String} :
    Effect s t (.snapshot next) (s.setStatus t.sessionId status)
      (some { t with phase := .running label })
  | finished {action : ConversationAction} {status : TaskStatus} :
    Effect s t action (s.setStatus t.sessionId status) none
  | elapsed {moment : Instant} : Effect s t (.elapse moment) { s with now := moment } (some t)

theorem advance_effect {s s' : ConversationStore} {others : List ConversationTx}
    {t : ConversationTx} {action : ConversationAction} {ended : Option ConversationTx}
    (h : advance s others t action = some (s', ended)) : Effect s t action s' ended := by
  cases action with
  | storeStatus =>
    simp only [advance, Option.ite_none_right_eq_some, Option.some.injEq, Prod.mk.injEq] at h
    obtain ⟨⟨-, -, hnew⟩, rfl, rfl⟩ := h
    exact .started hnew
  | storeOwner =>
    cases hphase : t.phase with
    | statusStored =>
      simp only [advance, hphase, Option.some.injEq, Prod.mk.injEq] at h
      obtain ⟨rfl, rfl⟩ := h
      exact .owned hphase
    | _ => simp [advance, hphase] at h
  | readOwner =>
    simp only [advance, Option.ite_none_right_eq_some, Option.some.injEq, Prod.mk.injEq] at h
    obtain ⟨-, rfl, rfl⟩ := h
    by_cases howner : (s.owner.get? s.now t.sessionId).all (· = t.userId)
    · rw [if_pos howner]
      exact .passed howner
    · rw [if_neg howner]
      exact .ended
  | readStatus =>
    cases hphase : t.phase with
    | ownerRead owner =>
      cases hstatus : s.status.get? s.now t.sessionId with
      | none =>
        simp only [advance, hphase, hstatus, Option.some.injEq, Prod.mk.injEq] at h
        obtain ⟨rfl, rfl⟩ := h
        exact .ended
      | some stored =>
        simp only [advance, hphase, hstatus] at h
        by_cases hkind : t.kind = .status
        · rw [if_pos hkind, Option.some.injEq, Prod.mk.injEq] at h
          obtain ⟨rfl, rfl⟩ := h
          exact .served hphase hkind hstatus
        · rw [if_neg hkind] at h
          by_cases hresumable : stored.payload.resumable
          · rw [if_pos hresumable, Option.some.injEq, Prod.mk.injEq] at h
            obtain ⟨rfl, rfl⟩ := h
            exact .resumable hphase hkind hstatus hresumable
          · rw [if_neg hresumable, Option.some.injEq, Prod.mk.injEq] at h
            obtain ⟨rfl, rfl⟩ := h
            exact .ended
    | _ => simp [advance, hphase] at h
  | redispatch =>
    cases hphase : t.phase with
    | resumable writeNo =>
      simp only [advance, hphase, Option.some.injEq, Prod.mk.injEq] at h
      obtain ⟨rfl, rfl⟩ := h
      exact .resumed hphase
    | _ => simp [advance, hphase] at h
  | snapshot next =>
    cases hphase : t.phase with
    | running prevActive =>
      simp only [advance, hphase] at h
      by_cases hlabel : activeLabel next = prevActive
      · rw [if_pos hlabel, Option.some.injEq, Prod.mk.injEq] at h
        obtain ⟨rfl, rfl⟩ := h
        exact .unchanged hphase
      · rw [if_neg hlabel, Option.some.injEq, Prod.mk.injEq] at h
        obtain ⟨rfl, rfl⟩ := h
        exact .reported
    | _ => simp [advance, hphase] at h
  | complete artifactId genuiArtifactIds genUiPayloads =>
    cases hphase : t.phase with
    | running prevActive =>
      simp only [advance, hphase, Option.some.injEq, Prod.mk.injEq] at h
      obtain ⟨rfl, rfl⟩ := h
      exact .finished
    | _ => simp [advance, hphase] at h
  | fail error =>
    cases hphase : t.phase with
    | running prevActive =>
      simp only [advance, hphase, Option.some.injEq, Prod.mk.injEq] at h
      obtain ⟨rfl, rfl⟩ := h
      exact .finished
    | _ => simp [advance, hphase] at h
  | elapse moment =>
    simp only [advance, Option.ite_none_right_eq_some, Option.some.injEq, Prod.mk.injEq] at h
    obtain ⟨-, rfl, rfl⟩ := h
    exact .elapsed
  | crash =>
    cases h
    exact .ended

end ConversationTx

end Finguard
