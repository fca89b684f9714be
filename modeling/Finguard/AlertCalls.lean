import Finguard.Alerts

/-! A call of the alert service that no other call meets. -/

namespace Finguard
open Sessions

namespace AlertTx

def nextAction (t : AlertTx) (id : Uuid) (now : DateTime) : AlertAction :=
  match t.phase with
  | .begun => .select
  | .rechecking _ _ => .select
  | _ => .commit id now

/-- At most so many steps of a call on its own. -/
def alone (id : Uuid) (now : DateTime) : ℕ → AlertTx → AlertStore → AlertStore
  | 0, _, s => s
  | n + 1, t, s =>
    match t.advance s [] (t.nextAction id now) with
    | some (s', some t') => alone id now n t' s'
    | some (s', none) => s'
    | none => s

end AlertTx

namespace AlertStore
variable {s : AlertStore} {data : AlertCreate} {key : String} {id : Uuid} {now : DateTime}

/-- No call takes more than two reads and a write. -/
def serve (s : AlertStore) (request : AlertRequest) (id : Uuid) (now : DateTime) : AlertStore :=
  AlertTx.alone id now 3 { request } s

theorem serve_escalate_nil {alerts : Table Alert} (hnone : s.active key = [])
    (hinsert : s.alerts.insert? (.ofCreate data key id now) = some alerts) :
    s.serve (.escalateOrCreate data key) id now =
      returned ⟨alerts, .created id :: s.log⟩ key data.severity := by
  simp [serve, AlertTx.alone, AlertTx.nextAction, AlertTx.advance, AlertTx.recheck, hnone, hinsert]

theorem serve_escalate_cons {existing : Alert} {rest : List Alert}
    (hfound : s.active key = existing :: rest) :
    s.serve (.escalateOrCreate data key) id now =
      if existing.severity.rank < data.severity.rank then
        (s.escalate existing.id existing.metadataPayload data key).returned key data.severity
      else s.returned key data.severity := by
  by_cases hmore : existing.severity.rank < data.severity.rank
  · simp [serve, AlertTx.alone, AlertTx.nextAction, AlertTx.advance, hfound, hmore]
  · simp [serve, AlertTx.alone, AlertTx.nextAction, AlertTx.advance, hfound, hmore]

theorem close_nil (note : Option String) : s.close [] none note now = s := by
  have hrows : s.alerts.rows.map (Table.updated (fun _ => false) (.close none note now)) =
      s.alerts.rows := List.map_id' _
  obtain ⟨⟨rows, hunique⟩, log⟩ := s
  simp only [close, Table.update, List.contains_nil, hrows]

/-- Where no alert is active, none is closed. -/
theorem serve_resolve (note : Option String) : s.serve (.resolveByDedup key note) id now =
    s.close ((s.active key).map (·.id)) none note now := by
  cases hactive : s.active key with
  | nil =>
    rw [List.map_nil, close_nil]
    simp [serve, AlertTx.alone, AlertTx.nextAction, AlertTx.advance, hactive]
  | cons existing rest =>
    simp [serve, AlertTx.alone, AlertTx.nextAction, AlertTx.advance, hactive]

@[simp] theorem active_returned (s : AlertStore) (key key' : String) (severity : AlertSeverity) :
    (s.returned key severity).active key' = s.active key' := rfl

/-! The active alerts after a call. -/

theorem knows_of_active {existing : Alert} (h : existing ∈ s.active key) :
    s.Knows existing.id key := by
  obtain ⟨hrow, -, hkey⟩ := mem_active.mp h
  exact ⟨existing, hrow, rfl, hkey⟩

theorem exists_insert (data : AlertCreate) (key : String) (now : DateTime)
    (hfresh : ∀ alert ∈ s.alerts.rows, alert.id ≠ id) :
    ∃ alerts, s.alerts.insert? (.ofCreate data key id now) = some alerts := by
  refine Option.isSome_iff_exists.mp (Table.insert?_isSome ?_)
  intro alert halert hclash
  exact hfresh alert halert (beq_iff_eq.mp hclash)

/-- Afterwards there is one active alert with the key, as severe as the call and as the alert that
was active before. -/
theorem active_serve_escalate (hone : (s.active key).length ≤ 1)
    (hfresh : ∀ alert ∈ s.alerts.rows, alert.id ≠ id) :
    ∃ alert, (s.serve (.escalateOrCreate data key) id now).active key = [alert] ∧
      data.severity.rank ≤ alert.severity.rank ∧
      ∀ existing ∈ s.active key, existing.severity.rank ≤ alert.severity.rank := by
  cases hactive : s.active key with
  | nil =>
    obtain ⟨alerts, hins⟩ := exists_insert data key now hfresh
    refine ⟨.ofCreate data key id now, ?_, le_rfl, by simp⟩
    rw [serve_escalate_nil hactive hins, active_returned, active_insert hins, if_pos rfl, hactive]
    rfl
  | cons existing rest =>
    rw [hactive] at hone
    obtain rfl : rest = [] := by simpa using hone
    rw [serve_escalate_cons hactive]
    by_cases hmore : existing.severity.rank < data.severity.rank
    · have hknows := knows_of_active (hactive ▸ List.mem_singleton_self existing)
      refine ⟨existing.escalate existing.metadataPayload data key, ?_, le_rfl, ?_⟩
      · rw [if_pos hmore, active_returned, active_escalate hknows, hactive]
        simp [Table.updated]
      · intro other hother
        rw [List.mem_singleton.mp hother]
        exact hmore.le
    · refine ⟨existing, ?_, not_lt.mp hmore, ?_⟩
      · rw [if_neg hmore, active_returned, hactive]
      · intro other hother
        rw [List.mem_singleton.mp hother]

theorem active_serve_escalate_other {key' : String} (hkey : key' ≠ key)
    (hfresh : ∀ alert ∈ s.alerts.rows, alert.id ≠ id) :
    (s.serve (.escalateOrCreate data key) id now).active key' = s.active key' := by
  cases hactive : s.active key with
  | nil =>
    obtain ⟨alerts, hins⟩ := exists_insert data key now hfresh
    rw [serve_escalate_nil hactive hins, active_returned, active_insert hins,
      if_neg (Ne.symm hkey)]
  | cons existing rest =>
    have hknows : s.Knows existing.id key :=
      knows_of_active (hactive ▸ List.mem_cons_self)
    have hkept : ∀ alert ∈ s.active key', Table.updated (·.id == existing.id)
        (Alert.escalate existing.metadataPayload data key) alert = alert := by
      intro alert halert
      obtain ⟨hrow, -, hother⟩ := mem_active.mp halert
      have hne : alert.id ≠ existing.id := by
        intro hid
        rw [hknows.key?_eq hrow hid, Option.some.injEq] at hother
        exact hkey hother.symm
      simp [Table.updated, hne]
    rw [serve_escalate_cons hactive]
    by_cases hmore : existing.severity.rank < data.severity.rank
    · rw [if_pos hmore, active_returned, active_escalate hknows, List.map_congr_left hkept,
        List.map_id']
    · rw [if_neg hmore, active_returned]

theorem active_serve_resolve (note : Option String) :
    (s.serve (.resolveByDedup key note) id now).active key = [] := by
  rw [serve_resolve, List.eq_nil_iff_forall_not_mem]
  intro alert halert
  obtain ⟨hrow, hstatus, hkey⟩ := mem_active.mp halert
  obtain ⟨before, hbefore, rfl⟩ := List.mem_map.mp hrow
  by_cases hid : ((s.active key).map (·.id)).contains before.id = true
  · rw [Table.updated, if_pos hid] at hstatus
    cases hstatus
  · rw [Table.updated, if_neg hid] at hstatus hkey
    apply hid
    rw [List.contains_iff_mem]
    exact List.mem_map_of_mem (mem_active.mpr ⟨hbefore, hstatus, hkey⟩)

theorem active_serve_resolve_other {key' : String} (hkey : key' ≠ key) (note : Option String) :
    (s.serve (.resolveByDedup key note) id now).active key' = s.active key' := by
  rw [serve_resolve]
  have hclosed : ∀ alert ∈ s.alerts.rows,
      ((s.active key).map (·.id)).contains alert.id = true → alert.carries key' = false := by
    intro alert halert hid
    obtain ⟨found, hfound, hsame⟩ := List.mem_map.mp (List.contains_iff_mem.mp hid)
    obtain ⟨hrow, -, hcarried⟩ := mem_active.mp hfound
    obtain rfl := eq_of_id hrow halert hsame.symm
    simp [Alert.carries, hcarried, Ne.symm hkey]
  have hkept : ∀ alert ∈ s.alerts.rows,
      ((s.active key).map (·.id)).contains alert.id = true →
        (alert.close none note now).carries key' = alert.carries key' := by
    intro alert halert hid
    rw [Alert.not_carries_close, hclosed alert halert hid]
  rw [active, close, Table.filter_update_of_mem hkept]
  refine (List.map_congr_left ?_).trans (List.map_id' _)
  intro alert halert
  obtain ⟨hrow, hcarries⟩ := List.mem_filter.mp halert
  rw [Table.updated, if_neg]
  intro hid
  rw [hclosed alert hrow hid] at hcarries
  cases hcarries

end AlertStore

end Finguard
