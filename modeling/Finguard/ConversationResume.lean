import Finguard.Conversation

/-! How often a failed run is resumed. The status is read at one step and replaced at another. -/

namespace Finguard
open Expiring Sessions

/-- The stored status that a continuation was dispatched from. -/
def ConversationEvent.resumedFrom? : ConversationEvent → Option (String × ℕ)
  | resumed sessionId _ writeNo => some (sessionId, writeNo)
  | _ => none

def ConversationStore.resumedFrom (s : ConversationStore) : List (String × ℕ) :=
  s.log.filterMap (·.resumedFrom?)

namespace ConversationTx

/-- The stored status that the request is about to replace. -/
def held? (t : ConversationTx) : Option (String × ℕ) :=
  match t.phase with
  | .resumable writeNo => some (t.sessionId, writeNo)
  | _ => none

/-- Nobody takes a status that another request has taken and not yet replaced. -/
def Unshared (s : ConversationStore) (others : List ConversationTx) (t : ConversationTx) :
    ConversationAction → Prop
  | .readStatus => t.kind ≠ .status → ∀ stored ∈ s.status.get? s.now t.sessionId,
      ∀ u ∈ others, u.held? ≠ some (t.sessionId, stored.writeNo)
  | _ => True

instance (s : ConversationStore) (others : List ConversationTx) (t : ConversationTx)
    (action : ConversationAction) : Decidable (Unshared s others t action) :=
  match action with
  | .readStatus => inferInstanceAs (Decidable (t.kind ≠ .status →
      ∀ stored ∈ s.status.get? s.now t.sessionId,
        ∀ u ∈ others, u.held? ≠ some (t.sessionId, stored.writeNo)))
  | .storeStatus | .storeOwner | .readOwner | .redispatch | .snapshot _ | .complete .. | .fail _
  | .elapse _ | .crash => .isTrue trivial

def Apart (t u : ConversationTx) : Prop := ∀ taken ∈ t.held?, u.held? ≠ some taken

end ConversationTx

namespace ConversationStore
variable {s : ConversationStore}

theorem resumedFrom_record (s : ConversationStore) (event : ConversationEvent) :
    (s.record event).resumedFrom = s.resumedFrom ++ event.resumedFrom?.toList := by
  cases hevent : event.resumedFrom? <;> simp [resumedFrom, record, hevent]

/-- A status that can still be taken: it was written, and no run was resumed from it. -/
def Fresh (s : ConversationStore) (taken : String × ℕ) : Prop :=
  taken.2 < s.writes ∧ taken ∉ s.resumedFrom

structure ResumesOnce (s : ConversationStore) : Prop where
  once : s.resumedFrom.Nodup
  written : ∀ taken ∈ s.resumedFrom, taken.2 < s.writes
  stored : ∀ {sessionId stored expiry}, s.status.latest? sessionId = some (stored, expiry) →
    s.Fresh (sessionId, stored.writeNo)

theorem Fresh.setStatus {taken : String × ℕ} (h : s.Fresh taken) (sessionId : String)
    (payload : TaskStatus) : (s.setStatus sessionId payload).Fresh taken :=
  ⟨h.1.trans (Nat.lt_succ_self _), h.2⟩

theorem Fresh.record {taken : String × ℕ} (h : s.Fresh taken) {event : ConversationEvent}
    (hevent : event.resumedFrom? ≠ some taken) : (s.record event).Fresh taken := by
  refine ⟨h.1, ?_⟩
  rw [resumedFrom_record, List.mem_append, Option.mem_toList]
  rintro (hmem | hsame)
  · exact h.2 hmem
  · exact hevent hsame

theorem writeNo_setStatus {sessionId : String} {payload : TaskStatus} {stored : StoredStatus}
    {expiry : Instant}
    (h : (s.setStatus sessionId payload).status.latest? sessionId = some (stored, expiry)) :
    stored.writeNo = s.writes := by
  have hset : some ((⟨payload, s.writes⟩ : StoredStatus), s.now + taskStatusTtl) =
      some (stored, expiry) := Cells.latest?_set.symm.trans h
  simp only [Option.some.injEq, Prod.mk.injEq] at hset
  rw [← hset.1]

theorem ResumesOnce.setStatus (h : s.ResumesOnce) (sessionId : String) (payload : TaskStatus) :
    (s.setStatus sessionId payload).ResumesOnce where
  once := h.once
  written taken htaken := (h.written taken htaken).trans (Nat.lt_succ_self _)
  stored := by
    intro other stored expiry hlatest
    by_cases hother : other = sessionId
    · subst hother
      have hnew : stored.writeNo = s.writes := writeNo_setStatus hlatest
      rw [hnew]
      refine ⟨Nat.lt_succ_self _, fun hmem => ?_⟩
      have hlt := h.written _ hmem
      exact absurd hlt (lt_irrefl _)
    · have hkept : s.status.latest? other = some (stored, expiry) :=
        (Cells.latest?_set_of_ne hother).symm.trans hlatest
      exact (h.stored hkept).setStatus sessionId payload

theorem ResumesOnce.record (h : s.ResumesOnce) {event : ConversationEvent}
    (hevent : event.resumedFrom? = none) : (s.record event).ResumesOnce := by
  have hsame : (s.record event).resumedFrom = s.resumedFrom := by
    rw [resumedFrom_record, hevent, Option.toList_none, List.append_nil]
  constructor
  · rw [hsame]
    exact h.once
  · rw [hsame]
    exact h.written
  · intro sessionId stored expiry hlatest
    rw [Fresh, hsame]
    exact h.stored hlatest

/-- The status that is replaced, with the continuation that is dispatched for it. -/
theorem ResumesOnce.resume (h : s.ResumesOnce) {sessionId : String} {writeNo : ℕ}
    (hfresh : s.Fresh (sessionId, writeNo)) (userId : Uuid) :
    ((s.setStatus sessionId .pending).record (.resumed sessionId userId writeNo)).ResumesOnce := by
  have hset := h.setStatus sessionId .pending
  have hresumed : ((s.setStatus sessionId .pending).record
      (.resumed sessionId userId writeNo)).resumedFrom = s.resumedFrom ++ [(sessionId, writeNo)] :=
    resumedFrom_record _ _
  constructor
  · rw [hresumed, List.nodup_append]
    refine ⟨h.once, List.nodup_singleton _, ?_⟩
    intro taken htaken other hother hsame
    rw [List.mem_singleton.mp hother] at hsame
    exact hfresh.2 (hsame ▸ htaken)
  · intro taken htaken
    rw [hresumed, List.mem_append, List.mem_singleton] at htaken
    rcases htaken with htaken | rfl
    · exact hset.written taken htaken
    · exact (hfresh.setStatus sessionId .pending).1
  · intro other stored expiry hlatest
    have hother := hset.stored hlatest
    refine ⟨hother.1, ?_⟩
    rw [hresumed, List.mem_append, List.mem_singleton]
    rintro (hmem | hsame)
    · exact hother.2 hmem
    · obtain ⟨rfl, hno⟩ := Prod.mk.inj hsame
      have hnew : stored.writeNo = s.writes := writeNo_setStatus hlatest
      have hlt : writeNo < s.writes := hfresh.1
      omega

end ConversationStore

namespace ConversationTx

/-- What a request has taken is there for it alone. -/
structure Holding (s : ConversationStore) (others : List ConversationTx) (t : ConversationTx) :
    Prop where
  fresh : ∀ taken ∈ t.held?, s.Fresh taken
  alone : ∀ u ∈ others, Apart t u

theorem Holding.of_none {s : ConversationStore} {others : List ConversationTx} {t : ConversationTx}
    (h : t.held? = none) : Holding s others t := by
  constructor
  · simp [h]
  · intro u _ taken htaken
    rw [h] at htaken
    cases htaken

theorem reliable [CheckpointSettings] : Reliable machine Unshared ConversationStore.ResumesOnce
    (fun s t => ∀ taken ∈ t.held?, s.Fresh taken) Apart (fun _ (_ : Empty) => False)
    (fun _ _ => False) where
  symm h := by
    intro taken hu ht
    exact h taken ht hu
  starts _ := by
    intro taken htaken
    cases htaken
  starts_apart _ := by
    intro taken htaken
    cases htaken
  advances := by
    intro s others t action s' ended hs ht hothers _ hguard hadvance
    have hstay : ∀ u ∈ others, ∀ taken ∈ u.held?, s.Fresh taken := fun u hu => (hothers u hu).1
    have hapart : ∀ u ∈ others, Apart t u := fun u hu => (hothers u hu).2
    have hstep : advance s others t action = some (s', ended) := hadvance
    have hset : ∀ payload, ∀ u ∈ others, ∀ taken ∈ u.held?,
        (s.setStatus t.sessionId payload).Fresh taken :=
      fun payload u hu taken htaken => (hstay u hu taken htaken).setStatus _ _
    suffices h : s'.ResumesOnce ∧ (∀ t' ∈ ended, Holding s' others t') ∧
        ∀ u ∈ others, ∀ taken ∈ u.held?, s'.Fresh taken from
      ⟨h.1, fun t' ht' => ⟨(h.2.1 t' ht').fresh, (h.2.1 t' ht').alone⟩, h.2.2, fun d => d.elim⟩
    cases advance_effect hstep with
    | ended => exact ⟨hs, by simp, hstay⟩
    | started hnew =>
      refine ⟨(hs.setStatus _ _).record rfl, ?_, ?_⟩
      · rintro t' ⟨⟩
        exact .of_none rfl
      · exact fun u hu taken htaken => (hset _ u hu taken htaken).record nofun
    | owned hphase =>
      refine ⟨⟨hs.once, hs.written, hs.stored⟩, ?_, hstay⟩
      rintro t' ⟨⟩
      exact .of_none rfl
    | passed howner =>
      refine ⟨hs, ?_, hstay⟩
      rintro t' ⟨⟩
      exact .of_none rfl
    | served hphase hkind hstatus =>
      exact ⟨hs.record rfl, by simp, fun u hu taken htaken => (hstay u hu taken htaken).record nofun⟩
    | resumable hphase hkind hstatus hresumable =>
      rename_i owner stored
      obtain ⟨expiry, hlatest, -⟩ := Cells.latest?_of_get? hstatus
      refine ⟨hs, ?_, hstay⟩
      rintro t' ⟨⟩
      constructor
      · rintro taken ⟨⟩
        exact hs.stored hlatest
      · rintro u hu taken ⟨⟩
        exact hguard hkind stored hstatus u hu
    | resumed hphase =>
      rename_i writeNo
      have hheld : t.held? = some (t.sessionId, writeNo) := by simp [held?, hphase]
      refine ⟨hs.resume (ht _ hheld) t.userId, ?_, ?_⟩
      · rintro t' ⟨⟩
        exact .of_none rfl
      · intro u hu taken htaken
        refine (hset .pending u hu taken htaken).record ?_
        rintro ⟨⟩
        exact hapart u hu _ hheld htaken
    | unchanged _ =>
      refine ⟨hs, ?_, hstay⟩
      rintro t' ⟨⟩
      exact ⟨ht, hapart⟩
    | reported =>
      refine ⟨hs.setStatus _ _, ?_, hset _⟩
      rintro t' ⟨⟩
      exact .of_none rfl
    | finished => exact ⟨hs.setStatus _ _, by simp, hset _⟩
    | elapsed =>
      refine ⟨⟨hs.once, hs.written, hs.stored⟩, ?_, hstay⟩
      rintro t' ⟨⟩
      exact ⟨ht, hapart⟩

end ConversationTx

/-- In a run in which no status is shared, none is resumed from twice. -/
theorem resumes_once [CheckpointSettings] {now : Instant}
    {sys : System ConversationStore ConversationTx}
    (hrun : Runs.Reaches ConversationTx.machine.step (OnStep ConversationTx.Unshared)
      ⟨{ now }, []⟩ sys) : sys.store.resumedFrom.Nodup := by
  have hstart : ConversationStore.ResumesOnce { now } :=
    ⟨.nil, by simp [ConversationStore.resumedFrom], by simp [Cells.latest?]⟩
  exact (ConversationTx.reliable.run hrun ⟨⟨hstart, by simp, .nil⟩, fun d => d.elim⟩).store.once

/-! A run that fails, and its owner who asks twice for its continuation. -/

def failedRun : List (Action ConversationRequest ConversationAction) :=
  [.start ⟨.converse, "s", 1⟩, .advance 0 .storeStatus, .advance 0 .storeOwner,
    .advance 0 (.fail "timeout")]

def resumption (index : ℕ) : List (Action ConversationRequest ConversationAction) :=
  [.advance index .readOwner, .advance index .readStatus, .advance index .redispatch]

/-- The second one comes when the continuation has failed in turn. -/
theorem resumptions_in_turn :
    let : CheckpointSettings := ⟨true⟩
    ∃ sys : System ConversationStore ConversationTx,
      Runs.Reaches ConversationTx.machine.step (OnStep ConversationTx.Unshared)
        ⟨{ now := 0 }, []⟩ sys ∧
      sys.store.resumedFrom = [("s", 1), ("s", 3)] ∧ sys.store.resumedFrom.Nodup := by
  let : CheckpointSettings := ⟨true⟩
  have hreplay : (Runs.replay ConversationTx.machine.step (OnStep ConversationTx.Unshared)
      ⟨{ now := 0 }, []⟩
      (failedRun ++ .start ⟨.resume, "s", 1⟩ :: resumption 0 ++ .advance 0 (.fail "timeout") ::
        .start ⟨.resume, "s", 1⟩ :: resumption 0)).map (·.store.resumedFrom) =
        some [("s", 1), ("s", 3)] := by
    decide +kernel
  obtain ⟨sys, hrun, hresumed⟩ := Runs.replay_map_reaches hreplay
  exact ⟨sys, hrun, hresumed, resumes_once hrun⟩

/-- Both find the failed status before one of them replaces it. -/
theorem doubled_resumption :
    let : CheckpointSettings := ⟨true⟩
    ∃ sys : System ConversationStore ConversationTx,
      Runs.Reaches ConversationTx.machine.step Runs.always ⟨{ now := 0 }, []⟩ sys ∧
      sys.store.resumedFrom = [("s", 1), ("s", 1)] ∧ ¬ sys.store.resumedFrom.Nodup := by
  let : CheckpointSettings := ⟨true⟩
  have hreplay : (Runs.replay ConversationTx.machine.step Runs.always ⟨{ now := 0 }, []⟩
      (failedRun ++ [.start ⟨.resume, "s", 1⟩, .start ⟨.resume, "s", 1⟩] ++
        (resumption 1).flatMap fun step => [step, step])).map (·.store.resumedFrom) =
        some [("s", 1), ("s", 1)] := by
    decide +kernel
  obtain ⟨sys, hrun, hresumed⟩ := Runs.replay_map_reaches hreplay
  refine ⟨sys, hrun, hresumed, ?_⟩
  rw [hresumed]
  decide

end Finguard
