import Finguard.Types
import Finguard.Lib.Json
import Finguard.Lib.Sessions
import Finguard.Lib.Table

/-! Alerts that carry a de-duplication key. Whether one is active is read at one step, and the
new alert, or the new severity, is written at another. -/

namespace Finguard
open Sessions

inductive AlertType where
  | duplicateInvoice
  | anomaly
  | vendorActivity
  | budgetOverspend
  | lowStock
deriving DecidableEq

inductive AlertSeverity where
  | critical
  | warning
  | info
deriving DecidableEq

inductive AlertStatus where
  | active
  | resolved
deriving DecidableEq

def AlertSeverity.rank : AlertSeverity → ℕ
  | info => 0
  | warning => 1
  | critical => 2

structure AlertCreate where
  type : AlertType
  severity : AlertSeverity
  title : String
  body : String
  sourceAgent : Option String
  vcId : Option String
  metadataPayload : Json.Fields

structure Alert extends AlertCreate where
  id : Uuid
  status : AlertStatus := .active
  resolvedBy : Option Uuid := none
  resolvedAt : Option DateTime := none
  resolutionNote : Option String := none
  createdAt : DateTime

instance : Row Alert where
  clash a b := a.id == b.id
  clash_symm h := by
    rw [beq_iff_eq] at h ⊢
    exact h.symm

def dedupKey : String := "dedup_key"

/-- A payload under its key. -/
def withKey (payload : Json.Fields) (key : String) : Json.Fields :=
  payload.merge [(dedupKey, .text key)]

def Alert.key? (alert : Alert) : Option String :=
  match alert.metadataPayload.get? dedupKey with
  | some (.text key) => some key
  | _ => none

/-- An active alert with a key. -/
def Alert.carries (alert : Alert) (key : String) : Bool :=
  alert.status = .active ∧ alert.key? = some key

/-- Creations, and the calls to escalate that have returned. -/
inductive AlertEvent where
  | created (id : Uuid)
  | returned (key : String) (severity : AlertSeverity)

/-- The latest event comes first. -/
structure AlertStore where
  alerts : Table Alert := ∅
  log : List AlertEvent := []

inductive AlertRequest where
  | createIdempotent (data : AlertCreate) (key : String)
  | escalateOrCreate (data : AlertCreate) (key : String)
  | resolveByDedup (key : String) (note : Option String)
  | resolve (alertId resolvedBy : Uuid) (note : Option String)

inductive AlertPhase where
  | begun
  | rechecking (data : AlertCreate) (key : String)
  | absent (data : AlertCreate) (key : String) (escalates : Bool)
  | found (id : Uuid) (payload : Json.Fields) (data : AlertCreate) (key : String)
  | resolving (ids : List Uuid) (resolvedBy : Option Uuid) (note : Option String)

structure AlertTx where
  request : AlertRequest
  phase : AlertPhase := .begun

inductive AlertAction where
  | select
  | commit (id : Uuid) (now : DateTime)
  | crash

namespace Alert

def ofCreate (data : AlertCreate) (key : String) (id : Uuid) (now : DateTime) : Alert :=
  { data with
    metadataPayload := withKey data.metadataPayload key
    id
    createdAt := now }

/-- `payload` is that of the alert when it was read. -/
def escalate (payload : Json.Fields) (data : AlertCreate) (key : String) (alert : Alert) : Alert :=
  { alert with
    severity := data.severity
    title := data.title
    body := data.body
    metadataPayload := withKey (payload.merge data.metadataPayload) key }

def close (resolvedBy : Option Uuid) (note : Option String) (now : DateTime) (alert : Alert) :
    Alert :=
  { alert with
    status := .resolved
    resolvedBy := resolvedBy.or alert.resolvedBy
    resolvedAt := some now
    resolutionNote := note }

theorem escalate_clash (payload : Json.Fields) (data : AlertCreate) (key : String) (a b : Alert) :
    Row.clash (escalate payload data key a) b = Row.clash a b := rfl

theorem close_clash (resolvedBy : Option Uuid) (note : Option String) (now : DateTime)
    (a b : Alert) : Row.clash (close resolvedBy note now a) b = Row.clash a b := rfl

end Alert

namespace AlertStore

def active (s : AlertStore) (key : String) : List Alert := s.alerts.filter (·.carries key)

def returned (s : AlertStore) (key : String) (severity : AlertSeverity) : AlertStore :=
  { s with log := .returned key severity :: s.log }

def escalate (s : AlertStore) (id : Uuid) (payload : Json.Fields) (data : AlertCreate)
    (key : String) : AlertStore :=
  { s with
    alerts := s.alerts.update (·.id == id) (.escalate payload data key)
      (Alert.escalate_clash payload data key) }

def close (s : AlertStore) (ids : List Uuid) (resolvedBy : Option Uuid) (note : Option String)
    (now : DateTime) : AlertStore :=
  { s with
    alerts := s.alerts.update (fun alert => ids.contains alert.id) (.close resolvedBy note now)
      (Alert.close_clash resolvedBy note now) }

end AlertStore

namespace AlertTx

/-- The check of `create_alert_idempotent`. -/
def recheck (s : AlertStore) (t : AlertTx) (data : AlertCreate) (key : String) (escalates : Bool) :
    AlertStore × Option AlertTx :=
  match s.active key with
  | [] => (s, some { t with phase := .absent data key escalates })
  | _ :: _ => (if escalates then s.returned key data.severity else s, none)

def advance (s : AlertStore) (_ : List AlertTx) (t : AlertTx) :
    AlertAction → Option (AlertStore × Option AlertTx)
  | .select =>
    match t.phase with
    | .begun =>
      match t.request with
      | .createIdempotent data key => some (t.recheck s data key false)
      | .escalateOrCreate data key =>
        match s.active key with
        | [] => some (s, some { t with phase := .rechecking data key })
        | existing :: _ =>
          if existing.severity.rank < data.severity.rank then
            some (s, some { t with phase := .found existing.id existing.metadataPayload data key })
          else some (s.returned key data.severity, none)
      | .resolveByDedup key note =>
        match s.active key with
        | [] => some (s, none)
        | alerts => some (s, some { t with phase := .resolving (alerts.map (·.id)) none note })
      | .resolve alertId resolvedBy note =>
        match s.alerts.find? (·.id == alertId) with
        | none => some (s, none)
        | some _ => some (s, some { t with phase := .resolving [alertId] (some resolvedBy) note })
    | .rechecking data key => some (t.recheck s data key true)
    | _ => none
  | .commit id now =>
    match t.phase with
    | .absent data key escalates =>
      match s.alerts.insert? (.ofCreate data key id now) with
      | none => some (s, none)
      | some alerts =>
        let created : AlertStore := { alerts, log := .created id :: s.log }
        some (if escalates then created.returned key data.severity else created, none)
    | .found existing payload data key =>
      some ((s.escalate existing payload data key).returned key data.severity, none)
    | .resolving ids resolvedBy note => some (s.close ids resolvedBy note now, none)
    | _ => none
  | .crash => some (s, none)

def machine : Machine AlertStore AlertTx AlertRequest AlertAction where
  start request := { request }
  advance := advance

end AlertTx

/-- The severities of the calls for a key that have returned since an alert was created. -/
def returnedSince (id : Uuid) (key : String) : List AlertEvent → List AlertSeverity
  | [] => []
  | .created other :: log => if other = id then [] else returnedSince id key log
  | .returned other severity :: log =>
    if other = key then severity :: returnedSince id key log else returnedSince id key log

namespace AlertStore

def OnePerKey (s : AlertStore) : Prop := ∀ key, (s.active key).length ≤ 1

/-- An active alert is as severe as every call that has returned since it was created. -/
def AsSevere (s : AlertStore) : Prop :=
  ∀ key, ∀ alert ∈ s.active key, ∀ severity ∈ returnedSince alert.id key s.log,
    severity.rank ≤ alert.severity.rank

/-- From a state to a later one, an alert that is still active has not become less severe. -/
def Rises (s s' : AlertStore) : Prop :=
  ∀ alert ∈ s.alerts.rows, ∀ alert' ∈ s'.alerts.rows, alert'.id = alert.id →
    alert'.status = .active → alert.severity.rank ≤ alert'.severity.rank

structure Sound (s : AlertStore) : Prop where
  onePerKey : s.OnePerKey
  asSevere : s.AsSevere

/-- Every alert is still there, and is as severe if it is still active. -/
def Later (s s' : AlertStore) : Prop :=
  ∀ alert ∈ s.alerts.rows, ∃ alert' ∈ s'.alerts.rows, alert'.id = alert.id ∧
    (alert'.status = .active →
      alert.status = .active ∧ alert.severity.rank ≤ alert'.severity.rank)

/-- The alert that a call has found is there, under the key of the call. -/
def Knows (s : AlertStore) (id : Uuid) (key : String) : Prop :=
  ∃ alert ∈ s.alerts.rows, alert.id = id ∧ alert.key? = some key

end AlertStore

@[simp] theorem get?_withKey (payload : Json.Fields) (key : String) :
    (withKey payload key).get? dedupKey = some (.text key) := by
  rw [withKey, Json.Fields.get?_merge]
  simp [Json.Fields.get?]

namespace Alert
variable {data : AlertCreate} {key : String} {alert : Alert}

theorem carries_iff : alert.carries key ↔ alert.status = .active ∧ alert.key? = some key := by
  simp [carries]

@[simp] theorem key?_ofCreate (data : AlertCreate) (key : String) (id : Uuid) (now : DateTime) :
    (ofCreate data key id now).key? = some key := by
  simp [key?, ofCreate]

@[simp] theorem key?_escalate (payload : Json.Fields) (data : AlertCreate) (key : String)
    (alert : Alert) : (escalate payload data key alert).key? = some key := by
  simp [key?, escalate]

theorem carries_escalate (payload : Json.Fields) (data : AlertCreate) (h : alert.key? = some key)
    (key' : String) : (escalate payload data key alert).carries key' = alert.carries key' := by
  simp [carries, h]
  rfl

theorem not_carries_close (resolvedBy : Option Uuid) (note : Option String) (now : DateTime)
    (alert : Alert) (key : String) : (close resolvedBy note now alert).carries key = false := by
  simp [carries, close]

end Alert

namespace AlertStore
variable {s s' : AlertStore} {key : String} {severity : AlertSeverity} {alert : Alert}

theorem mem_active : alert ∈ s.active key ↔
    alert ∈ s.alerts.rows ∧ alert.status = .active ∧ alert.key? = some key := by
  rw [active, Table.filter, List.mem_filter, Alert.carries_iff]

theorem eq_of_id {other : Alert} (halert : alert ∈ s.alerts.rows) (hother : other ∈ s.alerts.rows)
    (hid : other.id = alert.id) : other = alert :=
  Table.eq_of_clash hother halert (by simp [Row.clash, hid])

theorem Later.refl (s : AlertStore) : s.Later s :=
  fun alert halert => ⟨alert, halert, rfl, fun hactive => ⟨hactive, le_rfl⟩⟩

theorem Later.trans {s'' : AlertStore} (h : s.Later s') (h' : s'.Later s'') : s.Later s'' := by
  intro alert halert
  obtain ⟨alert', halert', hid, hactive⟩ := h alert halert
  obtain ⟨alert'', halert'', hid', hactive'⟩ := h' alert' halert'
  refine ⟨alert'', halert'', hid'.trans hid, fun hstill => ?_⟩
  obtain ⟨hbefore, hle'⟩ := hactive' hstill
  obtain ⟨hfirst, hle⟩ := hactive hbefore
  exact ⟨hfirst, hle.trans hle'⟩

theorem Later.rises (h : s.Later s') : s.Rises s' := by
  intro alert halert alert' halert' hid hactive
  obtain ⟨other, hother, hsame, hkept⟩ := h alert halert
  obtain rfl : alert' = other := eq_of_id hother halert' (hid.trans hsame.symm)
  exact (hkept hactive).2

theorem Knows.later {id : Uuid} (h : s.Knows id key) (hkeys : ∀ alert ∈ s.alerts.rows,
    ∃ alert' ∈ s'.alerts.rows, alert'.id = alert.id ∧ alert'.key? = alert.key?) :
    s'.Knows id key := by
  obtain ⟨alert, halert, rfl, hkey⟩ := h
  obtain ⟨alert', halert', hid, hsame⟩ := hkeys alert halert
  exact ⟨alert', halert', hid, hsame.trans hkey⟩

theorem Sound.returned (h : s.Sound)
    (hsevere : ∀ alert ∈ s.active key, severity.rank ≤ alert.severity.rank) :
    (s.returned key severity).Sound where
  onePerKey := h.onePerKey
  asSevere := by
    intro key' alert halert severity' hseverity
    simp only [AlertStore.returned, returnedSince] at hseverity
    by_cases hkey : key = key'
    · subst hkey
      rw [if_pos rfl, List.mem_cons] at hseverity
      rcases hseverity with rfl | hseverity
      · exact hsevere alert halert
      · exact h.asSevere key alert halert severity' hseverity
    · rw [if_neg hkey] at hseverity
      exact h.asSevere key' alert halert severity' hseverity

section insert
variable {data : AlertCreate} {id : Uuid} {now : DateTime} {alerts : Table Alert}

theorem active_insert (hinsert : s.alerts.insert? (.ofCreate data key id now) = some alerts)
    (log : List AlertEvent) (key' : String) : active ⟨alerts, log⟩ key' =
      if key = key' then s.active key' ++ [.ofCreate data key id now] else s.active key' := by
  rw [active, Table.filter_of_insert hinsert]
  have hactive : (Alert.ofCreate data key id now).status = .active := rfl
  have hcarries : (Alert.ofCreate data key id now).carries key' = decide (key = key') := by
    simp [Alert.carries, hactive]
  rw [hcarries]
  by_cases hkey : key = key' <;> simp [hkey, active]

theorem Sound.insert (h : s.Sound) (hfree : s.active key = [])
    (hinsert : s.alerts.insert? (.ofCreate data key id now) = some alerts) :
    Sound ⟨alerts, .created id :: s.log⟩ where
  onePerKey := by
    intro key'
    rw [active_insert hinsert]
    by_cases hkey : key = key'
    · subst hkey
      rw [if_pos rfl, hfree]
      exact le_rfl
    · rw [if_neg hkey]
      exact h.onePerKey key'
  asSevere := by
    intro key' alert halert severity hseverity
    simp only [returnedSince] at hseverity
    by_cases hid : id = alert.id
    · rw [if_pos hid] at hseverity
      cases hseverity
    · rw [if_neg hid] at hseverity
      have hold : alert ∈ s.active key' := by
        rw [active_insert hinsert] at halert
        by_cases hkey : key = key'
        · rw [if_pos hkey, List.mem_append, List.mem_singleton] at halert
          rcases halert with halert | rfl
          · exact halert
          · exact absurd rfl hid
        · rwa [if_neg hkey] at halert
      exact h.asSevere key' alert hold severity hseverity

theorem Later.insert {alert : Alert} {log : List AlertEvent}
    (hinsert : s.alerts.insert? alert = some alerts) : s.Later ⟨alerts, log⟩ := by
  intro other hother
  exact ⟨other, (Table.mem_of_insert hinsert).mpr (.inl hother), rfl, fun hactive => ⟨hactive, le_rfl⟩⟩

end insert

section escalate
variable {id : Uuid} {payload : Json.Fields} {data : AlertCreate}

theorem Knows.key?_eq (h : s.Knows id key) (halert : alert ∈ s.alerts.rows)
    (hid : alert.id = id) : alert.key? = some key := by
  obtain ⟨known, hknown, hsame, hkey⟩ := h
  rw [eq_of_id hknown halert (hid.trans hsame.symm)]
  exact hkey

theorem active_escalate (hknows : s.Knows id key) (key' : String) :
    (s.escalate id payload data key).active key' =
      (s.active key').map (Table.updated (·.id == id) (Alert.escalate payload data key)) := by
  have hcarries : ∀ alert ∈ s.alerts.rows, (alert.id == id) = true →
      (alert.escalate payload data key).carries key' = alert.carries key' := fun alert halert hid =>
    Alert.carries_escalate payload data (hknows.key?_eq halert (beq_iff_eq.mp hid)) key'
  rw [active, AlertStore.escalate, Table.filter_update_of_mem hcarries]
  rfl

/-- The alert before an escalation, and what has become of it. -/
theorem mem_active_escalate (hknows : s.Knows id key) {key' : String} {alert' : Alert}
    (h : alert' ∈ (s.escalate id payload data key).active key') :
    ∃ alert ∈ s.active key', (alert.id = id ∧ key' = key ∧
        alert' = alert.escalate payload data key) ∨ alert.id ≠ id ∧ alert' = alert := by
  rw [active_escalate hknows] at h
  obtain ⟨alert, halert, rfl⟩ := List.mem_map.mp h
  refine ⟨alert, halert, ?_⟩
  by_cases hid : alert.id = id
  · obtain ⟨hrows, -, hkey'⟩ := mem_active.mp halert
    have hkey := hknows.key?_eq hrows hid
    rw [hkey, Option.some.injEq] at hkey'
    exact .inl ⟨hid, hkey'.symm, by simp [Table.updated, hid]⟩
  · exact .inr ⟨hid, by simp [Table.updated, hid]⟩

theorem Sound.escalate (h : s.Sound) (hknows : s.Knows id key)
    (hguard : ∀ alert ∈ s.active key, alert.id = id → alert.severity.rank ≤ data.severity.rank) :
    (s.escalate id payload data key).Sound where
  onePerKey := by
    intro key'
    rw [active_escalate hknows, List.length_map]
    exact h.onePerKey key'
  asSevere := by
    intro key' alert' halert' severity hseverity
    obtain ⟨alert, halert, ⟨hid, rfl, rfl⟩ | ⟨-, rfl⟩⟩ := mem_active_escalate hknows halert'
    · have hbefore := h.asSevere key' alert halert severity hseverity
      exact hbefore.trans (hguard alert halert hid)
    · exact h.asSevere key' alert' halert severity hseverity

theorem Later.escalate (hknows : s.Knows id key)
    (hguard : ∀ alert ∈ s.active key, alert.id = id → alert.severity.rank ≤ data.severity.rank) :
    s.Later (s.escalate id payload data key) := by
  intro alert halert
  refine ⟨_, List.mem_map_of_mem halert, ?_⟩
  by_cases hid : alert.id = id
  · have hupdated : Table.updated (·.id == id) (Alert.escalate payload data key) alert =
        alert.escalate payload data key := by simp [Table.updated, hid]
    rw [hupdated]
    refine ⟨rfl, fun hactive => ⟨hactive, hguard alert ?_ hid⟩⟩
    exact mem_active.mpr ⟨halert, hactive, hknows.key?_eq halert hid⟩
  · have hupdated : Table.updated (·.id == id) (Alert.escalate payload data key) alert = alert := by
      simp [Table.updated, hid]
    rw [hupdated]
    exact ⟨rfl, fun hactive => ⟨hactive, le_rfl⟩⟩

theorem keys_escalate (hknows : s.Knows id key) : ∀ alert ∈ s.alerts.rows,
    ∃ alert' ∈ (s.escalate id payload data key).alerts.rows,
      alert'.id = alert.id ∧ alert'.key? = alert.key? := by
  intro alert halert
  refine ⟨_, List.mem_map_of_mem halert, ?_⟩
  by_cases hid : alert.id = id
  · simp [Table.updated, hid, hknows.key?_eq halert hid]
    exact hid
  · simp [Table.updated, hid]

end escalate

section close
variable {ids : List Uuid} {resolvedBy : Option Uuid} {note : Option String} {now : DateTime}

theorem Sound.close (h : s.Sound) : (s.close ids resolvedBy note now).Sound := by
  have hsub : ∀ key, ((s.close ids resolvedBy note now).active key).Sublist (s.active key) := by
    intro key
    rw [active, AlertStore.close]
    exact @Table.filter_update_sublist _ _ s.alerts _ _ _ (Alert.close_clash resolvedBy note now)
      (fun alert => Alert.not_carries_close resolvedBy note now alert key)
  constructor
  · exact fun key => (hsub key).length_le.trans (h.onePerKey key)
  · exact fun key alert halert => h.asSevere key alert ((hsub key).subset halert)

theorem Later.close (s : AlertStore) : s.Later (s.close ids resolvedBy note now) := by
  intro alert halert
  refine ⟨_, List.mem_map_of_mem halert, ?_⟩
  have hresolved : AlertStatus.resolved ≠ .active := by decide
  by_cases hid : ids.contains alert.id
  · rw [Table.updated, if_pos hid]
    exact ⟨rfl, fun hactive => absurd hactive hresolved⟩
  · rw [Table.updated, if_neg hid]
    exact ⟨rfl, fun hactive => ⟨hactive, le_rfl⟩⟩

theorem keys_close (s : AlertStore) : ∀ alert ∈ s.alerts.rows,
    ∃ alert' ∈ (s.close ids resolvedBy note now).alerts.rows,
      alert'.id = alert.id ∧ alert'.key? = alert.key? := by
  intro alert halert
  refine ⟨_, List.mem_map_of_mem halert, ?_⟩
  by_cases hid : ids.contains alert.id
  · rw [Table.updated, if_pos hid]
    exact ⟨rfl, rfl⟩
  · rw [Table.updated, if_neg hid]
    exact ⟨rfl, rfl⟩

end close

end AlertStore

namespace AlertTx

/-- What has to hold when the second of two steps is taken. An insert finds no active alert
with its key. A call that has found none at first finds one later that is severe enough. An
escalation rewrites the active alert that it has read, which is not more severe by now, or there
is another one that is severe enough. -/
def Undisturbed (s : AlertStore) (_ : List AlertTx) (t : AlertTx) : AlertAction → Prop
  | .select =>
    match t.phase with
    | .rechecking data key =>
      ∀ alert ∈ s.active key, data.severity.rank ≤ alert.severity.rank
    | _ => True
  | .commit _ _ =>
    match t.phase with
    | .absent _ key _ => (s.active key).length = 0
    | .found id _ data key => ∀ alert ∈ s.active key,
        if alert.id = id then alert.severity.rank ≤ data.severity.rank
        else data.severity.rank ≤ alert.severity.rank
    | _ => True
  | .crash => True

instance (s : AlertStore) (others : List AlertTx) (t : AlertTx) (action : AlertAction) :
    Decidable (Undisturbed s others t action) := by
  cases action with
  | select => cases hphase : t.phase <;> simp only [Undisturbed, hphase] <;> infer_instance
  | commit id now => cases hphase : t.phase <;> simp only [Undisturbed, hphase] <;> infer_instance
  | crash => exact .isTrue trivial

/-- Every step that a call can take. -/
inductive Effect (s : AlertStore) (t : AlertTx) :
    AlertAction → AlertStore → Option AlertTx → Prop
  | ended {action : AlertAction} : Effect s t action s none
  | rechecking {data : AlertCreate} {key : String} : Effect s t .select s
      (some { t with phase := .rechecking data key })
  | absent {data : AlertCreate} {key : String} {escalates : Bool} : Effect s t .select s
      (some { t with phase := .absent data key escalates })
  | found {existing : Alert} {data : AlertCreate} {key : String}
    (hexisting : existing ∈ s.active key) : Effect s t .select s
      (some { t with phase := .found existing.id existing.metadataPayload data key })
  | resolving {ids : List Uuid} {resolvedBy : Option Uuid} {note : Option String} :
    Effect s t .select s (some { t with phase := .resolving ids resolvedBy note })
  | severe {existing : Alert} {rest : List Alert} {severity : AlertSeverity} {key : String}
    (hactive : s.active key = existing :: rest)
    (hsevere : severity.rank ≤ existing.severity.rank) :
    Effect s t .select (s.returned key severity) none
  | answered {data : AlertCreate} {key : String} (hphase : t.phase = .rechecking data key) :
    Effect s t .select (s.returned key data.severity) none
  | created {data : AlertCreate} {key : String} {escalates : Bool} {id : Uuid} {now : DateTime}
    {alerts : Table Alert} (hphase : t.phase = .absent data key escalates)
    (hinsert : s.alerts.insert? (.ofCreate data key id now) = some alerts) :
    Effect s t (.commit id now) (if escalates then
      (⟨alerts, .created id :: s.log⟩ : AlertStore).returned key data.severity
      else ⟨alerts, .created id :: s.log⟩) none
  | escalated {id newId : Uuid} {now : DateTime} {payload : Json.Fields} {data : AlertCreate}
    {key : String} (hphase : t.phase = .found id payload data key) : Effect s t (.commit newId now)
      ((s.escalate id payload data key).returned key data.severity) none
  | closed {ids : List Uuid} {resolvedBy : Option Uuid} {note : Option String} {id : Uuid}
    {now : DateTime} : Effect s t (.commit id now) (s.close ids resolvedBy note now) none

theorem recheck_effect {s : AlertStore} {t : AlertTx} {data : AlertCreate} {key : String}
    {escalates : Bool} {out : AlertStore × Option AlertTx}
    (hphase : escalates → t.phase = .rechecking data key)
    (h : t.recheck s data key escalates = out) : Effect s t .select out.1 out.2 := by
  subst h
  rw [recheck]
  cases hactive : s.active key with
  | nil => exact .absent
  | cons existing rest =>
    cases escalates with
    | false => exact .ended
    | true => exact .answered (hphase rfl)

theorem advance_effect {s s' : AlertStore} {others : List AlertTx} {t : AlertTx}
    {action : AlertAction} {ended : Option AlertTx}
    (h : advance s others t action = some (s', ended)) : Effect s t action s' ended := by
  cases action with
  | crash =>
    simp only [advance, Option.some.injEq, Prod.mk.injEq] at h
    obtain ⟨rfl, rfl⟩ := h
    exact .ended
  | select =>
    cases hphase : t.phase with
    | begun =>
      cases hrequest : t.request with
      | createIdempotent data key =>
        simp only [advance, hphase, hrequest, Option.some.injEq] at h
        exact recheck_effect (by simp) h
      | escalateOrCreate data key =>
        cases hactive : s.active key with
        | nil =>
          simp only [advance, hphase, hrequest, hactive, Option.some.injEq, Prod.mk.injEq] at h
          obtain ⟨rfl, rfl⟩ := h
          rw [← hrequest]
          exact .rechecking
        | cons existing rest =>
          have hexisting : existing ∈ s.active key := by simp [hactive]
          simp only [advance, hphase, hrequest, hactive] at h
          by_cases hlt : existing.severity.rank < data.severity.rank
          · simp only [if_pos hlt, Option.some.injEq, Prod.mk.injEq] at h
            obtain ⟨rfl, rfl⟩ := h
            rw [← hrequest]
            exact .found hexisting
          · simp only [if_neg hlt, Option.some.injEq, Prod.mk.injEq] at h
            obtain ⟨rfl, rfl⟩ := h
            exact .severe hactive (not_lt.mp hlt)
      | resolveByDedup key note =>
        cases hactive : s.active key with
        | nil =>
          simp only [advance, hphase, hrequest, hactive, Option.some.injEq, Prod.mk.injEq] at h
          obtain ⟨rfl, rfl⟩ := h
          exact .ended
        | cons existing rest =>
          simp only [advance, hphase, hrequest, hactive, Option.some.injEq, Prod.mk.injEq] at h
          obtain ⟨rfl, rfl⟩ := h
          rw [← hrequest]
          exact .resolving
      | resolve alertId resolvedBy note =>
        cases hfind : s.alerts.find? (·.id == alertId) with
        | none =>
          simp only [advance, hphase, hrequest, hfind, Option.some.injEq, Prod.mk.injEq] at h
          obtain ⟨rfl, rfl⟩ := h
          exact .ended
        | some alert =>
          simp only [advance, hphase, hrequest, hfind, Option.some.injEq, Prod.mk.injEq] at h
          obtain ⟨rfl, rfl⟩ := h
          rw [← hrequest]
          exact .resolving
    | rechecking data key =>
      simp only [advance, hphase, Option.some.injEq] at h
      exact recheck_effect (fun _ => hphase) h
    | absent data key escalates => simp [advance, hphase] at h
    | found id payload data key => simp [advance, hphase] at h
    | resolving ids resolvedBy note => simp [advance, hphase] at h
  | commit id now =>
    cases hphase : t.phase with
    | begun => simp [advance, hphase] at h
    | rechecking data key => simp [advance, hphase] at h
    | absent data key escalates =>
      cases hinsert : s.alerts.insert? (.ofCreate data key id now) with
      | none =>
        simp only [advance, hphase, hinsert, Option.some.injEq, Prod.mk.injEq] at h
        obtain ⟨rfl, rfl⟩ := h
        exact .ended
      | some alerts =>
        simp only [advance, hphase, hinsert, Option.some.injEq, Prod.mk.injEq] at h
        obtain ⟨rfl, rfl⟩ := h
        exact .created hphase hinsert
    | found existing payload data key =>
      simp only [advance, hphase, Option.some.injEq, Prod.mk.injEq] at h
      obtain ⟨rfl, rfl⟩ := h
      exact .escalated hphase
    | resolving ids resolvedBy note =>
      simp only [advance, hphase, Option.some.injEq, Prod.mk.injEq] at h
      obtain ⟨rfl, rfl⟩ := h
      exact .closed

/-- An alert that the call is about to escalate. -/
def Knows (s : AlertStore) (t : AlertTx) : Prop :=
  ∀ id payload data key, t.phase = .found id payload data key → s.Knows id key

theorem Knows.later {s s' : AlertStore} {t : AlertTx} (h : t.Knows s)
    (hkeys : ∀ alert ∈ s.alerts.rows,
      ∃ alert' ∈ s'.alerts.rows, alert'.id = alert.id ∧ alert'.key? = alert.key?) : t.Knows s' :=
  fun id payload data key hphase => (h id payload data key hphase).later hkeys

/-- What a step leaves behind. -/
structure Kept (s s' : AlertStore) (ended : Option AlertTx) : Prop where
  sound : s'.Sound
  later : s.Later s'
  keys : ∀ alert ∈ s.alerts.rows,
    ∃ alert' ∈ s'.alerts.rows, alert'.id = alert.id ∧ alert'.key? = alert.key?
  knows : ∀ t' ∈ ended, t'.Knows s'

theorem Kept.same {s : AlertStore} {ended : Option AlertTx} (hsound : s.Sound)
    (hknows : ∀ t' ∈ ended, t'.Knows s) : Kept s s ended where
  sound := hsound
  later := .refl s
  keys alert halert := ⟨alert, halert, rfl, rfl⟩
  knows := hknows

theorem Kept.returned {s s' : AlertStore} {key : String} {severity : AlertSeverity}
    (h : Kept s s' none) (hsevere : ∀ alert ∈ s'.active key, severity.rank ≤ alert.severity.rank) :
    Kept s (s'.returned key severity) none where
  sound := h.sound.returned hsevere
  later := h.later
  keys := h.keys
  knows := by simp

theorem Kept.insert {s : AlertStore} {data : AlertCreate} {key : String} {id : Uuid}
    {now : DateTime} {alerts : Table Alert} (hsound : s.Sound) (hfree : s.active key = [])
    (hinsert : s.alerts.insert? (.ofCreate data key id now) = some alerts) :
    Kept s ⟨alerts, .created id :: s.log⟩ none where
  sound := hsound.insert hfree hinsert
  later := .insert hinsert
  keys alert halert := ⟨alert, (Table.mem_of_insert hinsert).mpr (.inl halert), rfl, rfl⟩
  knows := by simp

theorem Kept.escalate {s : AlertStore} {id : Uuid} {payload : Json.Fields} {data : AlertCreate}
    {key : String} (hsound : s.Sound) (hknows : s.Knows id key)
    (hguard : ∀ alert ∈ s.active key, if alert.id = id
      then alert.severity.rank ≤ data.severity.rank
      else data.severity.rank ≤ alert.severity.rank) :
    Kept s ((s.escalate id payload data key).returned key data.severity) none := by
  have hlower : ∀ alert ∈ s.active key, alert.id = id →
      alert.severity.rank ≤ data.severity.rank := by
    intro alert halert hid
    have hranks := hguard alert halert
    rwa [if_pos hid] at hranks
  have hescalated : Kept s (s.escalate id payload data key) none :=
    ⟨hsound.escalate hknows hlower, .escalate hknows hlower, AlertStore.keys_escalate hknows,
      by simp⟩
  refine hescalated.returned ?_
  intro alert' halert'
  obtain ⟨alert, halert, ⟨-, -, rfl⟩ | ⟨hid, rfl⟩⟩ :=
    AlertStore.mem_active_escalate hknows halert'
  · exact le_rfl
  · have hranks := hguard alert' halert
    rwa [if_neg hid] at hranks

theorem Effect.kept {s s' : AlertStore} {others : List AlertTx} {t : AlertTx}
    {action : AlertAction} {ended : Option AlertTx} (h : Effect s t action s' ended)
    (hsound : s.Sound) (hknows : t.Knows s) (hguard : Undisturbed s others t action) :
    Kept s s' ended := by
  cases h with
  | ended => exact .same hsound (by simp)
  | rechecking =>
    refine .same hsound ?_
    rintro t' ⟨⟩ id payload data key ⟨⟩
  | absent =>
    refine .same hsound ?_
    rintro t' ⟨⟩ id payload data key ⟨⟩
  | found hexisting =>
    refine .same hsound ?_
    rintro t' ⟨⟩ id payload data key ⟨⟩
    obtain ⟨hrows, -, hkey⟩ := AlertStore.mem_active.mp hexisting
    exact ⟨_, hrows, rfl, hkey⟩
  | resolving =>
    refine .same hsound ?_
    rintro t' ⟨⟩ id payload data key ⟨⟩
  | @severe existing rest severity key hactive hsevere =>
    refine (Kept.same hsound (by simp)).returned ?_
    intro alert halert
    have hlength := hsound.onePerKey key
    rw [hactive, List.length_cons] at hlength
    obtain rfl : rest = [] := List.length_eq_zero_iff.mp (by omega)
    rw [hactive, List.mem_singleton] at halert
    rwa [halert]
  | answered hphase =>
    simp only [Undisturbed, hphase] at hguard
    exact (Kept.same hsound (by simp)).returned hguard
  | @created data key escalates id now alerts hphase hinsert =>
    simp only [Undisturbed, hphase] at hguard
    have hfree : s.active key = [] := List.length_eq_zero_iff.mp hguard
    have hinserted : Kept s ⟨alerts, .created id :: s.log⟩ none := .insert hsound hfree hinsert
    cases escalates with
    | false => exact hinserted
    | true =>
      refine hinserted.returned ?_
      intro alert halert
      rw [AlertStore.active_insert hinsert, if_pos rfl, hfree, List.nil_append,
        List.mem_singleton] at halert
      rw [halert]
      exact le_rfl
  | escalated hphase =>
    simp only [Undisturbed, hphase] at hguard
    exact .escalate hsound (hknows _ _ _ _ hphase) hguard
  | closed => exact ⟨hsound.close, .close s, AlertStore.keys_close s, by simp⟩

theorem reliable : Reliable machine Undisturbed AlertStore.Sound (fun s t => t.Knows s)
    (fun _ _ => True) (fun _ (_ : Empty) => False) (fun _ _ => False) where
  symm _ := trivial
  starts := by
    rintro s request - id payload data key ⟨⟩
  starts_apart _ := trivial
  advances := by
    intro s others t action s' ended hsound hknows hothers _ hguard hadvance
    have hstep : advance s others t action = some (s', ended) := hadvance
    have hkept := (advance_effect hstep).kept hsound hknows hguard
    refine ⟨hkept.sound, fun t' ht' => ⟨hkept.knows t' ht', fun _ _ => trivial⟩, ?_,
      fun d => d.elim⟩
    exact fun u hu => (hothers u hu).1.later hkept.keys

end AlertTx

open AlertTx Runs

theorem AlertStore.Sound.empty : AlertStore.Sound {} where
  onePerKey _ := Nat.zero_le _
  asSevere := by
    rintro key alert ⟨⟩

def lowStockAlert (severity : AlertSeverity) : AlertCreate where
  type := .lowStock
  severity := severity
  title := "Low stock"
  body := ""
  sourceAgent := some "Inventory"
  vcId := none
  metadataPayload := []

def lowStockCall (severity : AlertSeverity) : Action AlertRequest AlertAction :=
  .start (.escalateOrCreate (lowStockAlert severity) "lowstock:1")

def lowStockCreated : List (Action AlertRequest AlertAction) :=
  [.start (.createIdempotent (lowStockAlert .info) "lowstock:1"), .advance 0 .select,
    .advance 0 (.commit 1 0)]

theorem two_active_alerts : ∃ sys : System AlertStore AlertTx,
    Reaches machine.step always ⟨{}, []⟩ sys ∧ ¬ sys.store.OnePerKey := by
  have hreplay : (replay machine.step always ⟨{}, []⟩
      [.start (.createIdempotent (lowStockAlert .warning) "lowstock:1"), .advance 0 .select,
        .start (.createIdempotent (lowStockAlert .warning) "lowstock:1"), .advance 0 .select,
        .advance 0 (.commit 1 0), .advance 0 (.commit 2 0)]).map
      (fun sys => (sys.store.active "lowstock:1").length) = some 2 := by
    rfl
  obtain ⟨sys, hrun, hactive⟩ := replay_map_reaches hreplay
  refine ⟨sys, hrun, fun h => ?_⟩
  have hle := h "lowstock:1"
  omega

instance (s s' : AlertStore) : Decidable (s.Rises s') := by
  unfold AlertStore.Rises
  infer_instance

theorem severity_lowered : ∃ sys : System AlertStore AlertTx,
    Reaches machine.step always ⟨{}, []⟩ sys ∧ ∃ sys',
      Reaches machine.step always sys sys' ∧ ¬ sys.store.Rises sys'.store := by
  have hreplay : ((replay machine.step always ⟨{}, []⟩
      (lowStockCreated ++ [lowStockCall .warning, .advance 0 .select, lowStockCall .critical,
        .advance 0 .select, .advance 0 (.commit 2 1)])).bind
      fun sys => (replay machine.step always sys [.advance 0 (.commit 3 2)]).map
        fun sys' => decide (sys.store.Rises sys'.store)) = some false := by
    rfl
  obtain ⟨sys, hrun, hlater⟩ := Option.bind_eq_some_iff.mp hreplay
  obtain ⟨sys', hrun', hrises⟩ := replay_map_reaches hlater
  exact ⟨sys, replay_reaches hrun, sys', hrun', of_decide_eq_false hrises⟩

theorem severity_missed : ∃ sys : System AlertStore AlertTx,
    Reaches machine.step always ⟨{}, []⟩ sys ∧ ¬ sys.store.AsSevere := by
  have hreplay : (replay machine.step always ⟨{}, []⟩
      ([lowStockCall .critical, .advance 0 .select] ++
        [.start (.createIdempotent (lowStockAlert .info) "lowstock:1"), .advance 0 .select,
          .advance 0 (.commit 1 0)] ++ [.advance 0 .select])).map
      (fun sys => (sys.store.active "lowstock:1").map
        fun alert => (alert.severity, returnedSince alert.id "lowstock:1" sys.store.log)) =
        some [(.info, [.critical])] := by
    rfl
  obtain ⟨sys, hrun, hactive⟩ := replay_map_reaches hreplay
  refine ⟨sys, hrun, fun h => ?_⟩
  obtain ⟨alert, halert, hpair⟩ := List.mem_map.mp (hactive ▸ List.mem_singleton_self _)
  rw [Prod.mk.injEq] at hpair
  have hle := h "lowstock:1" alert halert .critical (by simp [hpair.2])
  rw [hpair.1] at hle
  exact absurd hle (by decide)

end Finguard
