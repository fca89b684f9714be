import Finguard.Conversation

/-! Whose status is served and whose run is resumed. A request that finds no owner is let
through. -/

namespace Finguard
open Expiring Sessions

def ConversationEvent.answered? : ConversationEvent → Option (String × Uuid)
  | started _ _ => none
  | served sessionId userId _ => some (sessionId, userId)
  | resumed sessionId userId _ => some (sessionId, userId)

/-- Whatever was served or resumed was so for the user who started it. -/
def ConversationStore.AnswersOwners (s : ConversationStore) : Prop :=
  ∀ event ∈ s.log, ∀ answer ∈ event.answered?, s.startedBy answer.1 = some answer.2

instance (s : ConversationStore) : Decidable s.AnswersOwners := by
  unfold ConversationStore.AnswersOwners
  infer_instance

namespace ConversationTx

/-- Whether a status is stored that the request would answer with, or resume. -/
def Finds (s : ConversationStore) (t : ConversationTx) : Bool :=
  (s.status.get? s.now t.sessionId).any fun stored =>
    t.kind = .status || stored.payload.resumable

/-- A request that found no owner finds no status either, or is that of the owner. -/
def Authorised (s : ConversationStore) (t : ConversationTx) : ConversationAction → Prop
  | .readStatus => t.phase = .ownerRead none → t.Finds s → s.startedBy t.sessionId = some t.userId
  | _ => True

instance (s : ConversationStore) (t : ConversationTx) (action : ConversationAction) :
    Decidable (Authorised s t action) := by
  cases action <;> unfold Authorised <;> infer_instance

/-- Past the point at which the owner is settled. -/
def Settled (t : ConversationTx) : Bool :=
  match t.phase with
  | .statusStored | .ownerRead (some _) | .resumable _ => true
  | _ => false

def Entitled (s : ConversationStore) (t : ConversationTx) : Prop :=
  t.Settled → s.startedBy t.sessionId = some t.userId

end ConversationTx

namespace ConversationStore
variable {s : ConversationStore} {sessionId : String} {userId : Uuid}

theorem startedBy_record (s : ConversationStore) (event : ConversationEvent) (sessionId : String) :
    (s.record event).startedBy sessionId =
      (s.startedBy sessionId).or (event.startedBy? sessionId) := by
  simp [startedBy, record, List.findSome?_append]

theorem startedBy_record_of_some (h : s.startedBy sessionId = some userId)
    (event : ConversationEvent) : (s.record event).startedBy sessionId = some userId := by
  rw [startedBy_record, h]
  rfl

/-- The owner that is stored is the one who started. -/
structure Owned (s : ConversationStore) : Prop where
  owners : ∀ {sessionId userId expiry}, s.owner.latest? sessionId = some (userId, expiry) →
    s.startedBy sessionId = some userId
  answers : s.AnswersOwners

theorem Owned.setStatus (h : s.Owned) (sessionId : String) (payload : TaskStatus) :
    (s.setStatus sessionId payload).Owned := ⟨h.owners, h.answers⟩

theorem Owned.setOwner (h : s.Owned) (hstarted : s.startedBy sessionId = some userId) :
    (s.setOwner sessionId userId).Owned where
  owners := by
    intro other user expiry hlatest
    by_cases hother : other = sessionId
    · subst hother
      have hset : some (userId, s.now + taskStatusTtl) = some (user, expiry) :=
        Cells.latest?_set.symm.trans hlatest
      simp only [Option.some.injEq, Prod.mk.injEq] at hset
      rw [← hset.1]
      exact hstarted
    · have hkept : s.owner.latest? other = some (user, expiry) :=
        (Cells.latest?_set_of_ne hother).symm.trans hlatest
      exact h.owners hkept
  answers := h.answers

theorem Owned.record (h : s.Owned) {event : ConversationEvent}
    (hevent : ∀ answer ∈ event.answered?, s.startedBy answer.1 = some answer.2) :
    (s.record event).Owned where
  owners hlatest := startedBy_record_of_some (h.owners hlatest) event
  answers := by
    intro other hother answer hanswer
    refine startedBy_record_of_some ?_ event
    rcases List.mem_append.mp hother with hother | hother
    · exact h.answers other hother answer hanswer
    · obtain rfl := List.mem_singleton.mp hother
      exact hevent answer hanswer

end ConversationStore

namespace ConversationTx

theorem Entitled.record {s : ConversationStore} {t : ConversationTx} (h : Entitled s t)
    (event : ConversationEvent) : Entitled (s.record event) t :=
  fun hsettled => ConversationStore.startedBy_record_of_some (h hsettled) event

theorem Entitled.answers {s : ConversationStore} {t : ConversationTx} {owner : Option Uuid}
    (h : Entitled s t) (hphase : t.phase = .ownerRead owner) (hguard : Authorised s t .readStatus)
    (hfinds : t.Finds s) : s.startedBy t.sessionId = some t.userId := by
  cases owner with
  | none => exact hguard hphase hfinds
  | some owner => exact h (by simp [Settled, hphase])

theorem secure [CheckpointSettings] : Secure machine Authorised ConversationStore.Owned Entitled (fun _ _ => True) where
  symm _ := trivial
  starts _ := by
    intro hsettled
    cases hsettled
  starts_apart _ := trivial
  advances := by
    intro s others t action s' ended hs ht hothers hguard hadvance
    have hstay : ∀ u ∈ others, Entitled s u := fun u hu => (hothers u hu).1
    have hstep : advance s others t action = some (s', ended) := hadvance
    cases advance_effect hstep with
    | ended => exact ⟨hs, by simp, hstay⟩
    | started hnew =>
      have hstarted : ((s.setStatus t.sessionId .pending).record
          (.started t.sessionId t.userId)).startedBy t.sessionId = some t.userId := by
        rw [ConversationStore.startedBy_record]
        have hnone : (s.setStatus t.sessionId .pending).startedBy t.sessionId = none := hnew
        simp [hnone, ConversationEvent.startedBy?]
      refine ⟨(hs.setStatus _ _).record (by simp [ConversationEvent.answered?]), ?_, ?_⟩
      · rintro t' ⟨⟩
        exact ⟨fun _ => hstarted, fun _ _ => trivial⟩
      · exact fun u hu => Entitled.record (s := s.setStatus _ _) (hstay u hu) _
    | owned hphase =>
      have hstarted : s.startedBy t.sessionId = some t.userId := ht (by simp [Settled, hphase])
      refine ⟨hs.setOwner hstarted, ?_, hstay⟩
      rintro t' ⟨⟩
      exact ⟨fun _ => hstarted, fun _ _ => trivial⟩
    | passed howner =>
      refine ⟨hs, ?_, hstay⟩
      rintro t' ⟨⟩
      refine ⟨?_, fun _ _ => trivial⟩
      cases hget : s.owner.get? s.now t.sessionId with
      | none =>
        intro hsettled
        cases hsettled
      | some owner =>
        obtain rfl : owner = t.userId := by simpa [hget] using howner
        obtain ⟨expiry, hlatest, -⟩ := Cells.latest?_of_get? hget
        exact fun _ => hs.owners hlatest
    | served hphase hkind hstatus =>
      have hstarted := ht.answers hphase hguard (by simp [Finds, hstatus, hkind])
      refine ⟨hs.record ?_, by simp, fun u hu => (hstay u hu).record _⟩
      rintro answer ⟨⟩
      exact hstarted
    | resumable hphase hkind hstatus hresumable =>
      have hstarted := ht.answers hphase hguard (by simp [Finds, hstatus, hresumable])
      refine ⟨hs, ?_, hstay⟩
      rintro t' ⟨⟩
      exact ⟨fun _ => hstarted, fun _ _ => trivial⟩
    | resumed hphase =>
      have hstarted : s.startedBy t.sessionId = some t.userId := ht (by simp [Settled, hphase])
      refine ⟨(hs.setStatus _ _).record ?_, ?_, ?_⟩
      · rintro answer ⟨⟩
        exact hstarted
      · rintro t' ⟨⟩
        refine ⟨?_, fun _ _ => trivial⟩
        intro hsettled
        cases hsettled
      · exact fun u hu => Entitled.record (s := s.setStatus _ _) (hstay u hu) _
    | unchanged _ =>
      refine ⟨hs, ?_, hstay⟩
      rintro t' ⟨⟩
      exact ⟨ht, fun _ _ => trivial⟩
    | reported =>
      refine ⟨hs.setStatus _ _, ?_, hstay⟩
      rintro t' ⟨⟩
      refine ⟨?_, fun _ _ => trivial⟩
      intro hsettled
      cases hsettled
    | finished => exact ⟨hs.setStatus _ _, by simp, hstay⟩
    | elapsed =>
      refine ⟨⟨hs.owners, hs.answers⟩, ?_, hstay⟩
      rintro t' ⟨⟩
      exact ⟨ht, fun _ _ => trivial⟩

end ConversationTx

def failedConversation : List (Action ConversationRequest ConversationAction) :=
  [.start ⟨.converse, "s", 1⟩, .advance 0 .storeStatus, .advance 0 .storeOwner,
    .advance 0 (.elapse 3599), .advance 0 (.fail "timeout")]

def lookAndResume (userId : Uuid) : List (Action ConversationRequest ConversationAction) :=
  [.start ⟨.status, "s", userId⟩, .advance 0 .readOwner, .advance 0 .readStatus,
    .start ⟨.resume, "s", userId⟩, .advance 0 .readOwner, .advance 0 .readStatus,
    .advance 0 .redispatch]

end Finguard
