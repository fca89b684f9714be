import Finguard.Identity
import Finguard.Lib.Json
import Finguard.Lib.Sessions

/-! Executions of the orchestrator under an idempotency key. One key in Redis is the lock of an
execution first, and then its cached response. -/

namespace Finguard
open Expiring Sessions

/-- Seconds. -/
def idemLockTtl : ℕ := 300

def idemResultTtl : ℕ := 86400

inductive Endpoint where
  | aiInsights
  | aiActions
deriving DecidableEq

structure OrchestrationCall where
  userId : Uuid
  endpoint : Endpoint
  idempotencyKey : String
deriving DecidableEq

structure OrchestrationResponse where
  sessionId : String
  mode : String
  answer : String
  agentsInvoked : List String
  context : Json.Fields
  handoffs : List Json.Fields

/-- The sentinel, or a response. It is noted whose response it is. -/
inductive SlotValue where
  | processing
  | response (response : OrchestrationResponse) (producer : OrchestrationCall)

inductive ExecutionEvent where
  | started (call : OrchestrationCall) (moment : Instant)
  | stored (call : OrchestrationCall) (moment : Instant)
  | served (call producer : OrchestrationCall)

structure SlotStore where
  now : Instant
  slots : Cells String SlotValue Instant := {}
  log : List ExecutionEvent := []

inductive ExecutionPhase where
  | begun
  | missed
  | claimed
  | running
  | finished (response : OrchestrationResponse)

structure ExecutionTx where
  call : OrchestrationCall
  phase : ExecutionPhase := .begun

inductive ExecutionAction where
  | checkCache
  | claimSlot
  | startRun
  | finishRun (response : OrchestrationResponse)
  | failRun
  | storeResult
  | elapse (moment : Instant)
  | crash

namespace SlotStore

def record (s : SlotStore) (event : ExecutionEvent) : SlotStore := { s with log := s.log ++ [event] }

def claim (s : SlotStore) (key : String) : SlotStore :=
  { s with slots := s.slots.set key .processing (s.now + idemLockTtl) }

def storeResult (s : SlotStore) (call : OrchestrationCall) (response : OrchestrationResponse) :
    SlotStore :=
  { s with
    slots := s.slots.set call.idempotencyKey (.response response call) (s.now + idemResultTtl)
    log := s.log ++ [.stored call s.now] }

end SlotStore

namespace ExecutionTx

def advance (s : SlotStore) (_ : List ExecutionTx) (t : ExecutionTx) :
    ExecutionAction → Option (SlotStore × Option ExecutionTx)
  | .checkCache =>
    match t.phase with
    | .begun =>
      match s.slots.get? s.now t.call.idempotencyKey with
      | none => some (s, some { t with phase := .missed })
      | some .processing => some (s, none)
      | some (.response _ producer) => some (s.record (.served t.call producer), none)
    | _ => none
  | .claimSlot =>
    match t.phase with
    | .missed =>
      match s.slots.get? s.now t.call.idempotencyKey with
      | none => some (s.claim t.call.idempotencyKey, some { t with phase := .claimed })
      | some _ => some (s, none)
    | _ => none
  | .startRun =>
    match t.phase with
    | .claimed => some (s.record (.started t.call s.now), some { t with phase := .running })
    | _ => none
  | .finishRun response =>
    match t.phase with
    | .running => some (s, some { t with phase := .finished response })
    | _ => none
  | .failRun =>
    match t.phase with
    | .running => some (s, none)
    | _ => none
  | .storeResult =>
    match t.phase with
    | .finished response => some (s.storeResult t.call response, none)
    | _ => none
  | .elapse moment => if s.now ≤ moment then some ({ s with now := moment }, some t) else none
  | .crash => some (s, none)

def machine : Machine SlotStore ExecutionTx OrchestrationCall ExecutionAction where
  start call := { call }
  advance := advance

def Running (t : ExecutionTx) : Bool :=
  match t.phase with
  | .running => true
  | _ => false

/-- From the claim of its slot until its result is stored. -/
def InFlight (t : ExecutionTx) : Bool :=
  match t.phase with
  | .begun | .missed => false
  | _ => true

end ExecutionTx

def ExecutionEvent.storedUnder? (key : String) : ExecutionEvent → Option (OrchestrationCall × Instant)
  | stored call moment => if call.idempotencyKey = key then some (call, moment) else none
  | _ => none

namespace SlotStore

/-- The call whose response was stored last under a key, and when. -/
def lastStored (s : SlotStore) (key : String) : Option (OrchestrationCall × Instant) :=
  s.log.reverse.findSome? (·.storedUnder? key)

end SlotStore

namespace ExecutionTx

/-- The response under the key is the caller's own, and a slot falls free only after the calls
that had claimed it before. -/
def Exclusive (s : SlotStore) (others : List ExecutionTx) (t : ExecutionTx) :
    ExecutionAction → Prop
  | .checkCache => ∀ last ∈ s.lastStored t.call.idempotencyKey, s.now ≤ last.2 + idemResultTtl →
      last.1 = t.call
  | .claimSlot => s.slots.get? s.now t.call.idempotencyKey = none →
      ∀ u ∈ others, u.call = t.call → u.InFlight = false
  | _ => True

instance (s : SlotStore) (others : List ExecutionTx) (t : ExecutionTx) (action : ExecutionAction) :
    Decidable (Exclusive s others t action) := by
  cases action <;> unfold Exclusive <;> infer_instance

/-- Every step that a call can take. -/
inductive Effect (s : SlotStore) (t : ExecutionTx) :
    ExecutionAction → SlotStore → Option ExecutionTx → Prop
  | ended {action : ExecutionAction} : Effect s t action s none
  | missed : Effect s t .checkCache s (some { t with phase := .missed })
  | served {response : OrchestrationResponse} {producer : OrchestrationCall}
    (hslot : s.slots.get? s.now t.call.idempotencyKey = some (.response response producer)) :
    Effect s t .checkCache (s.record (.served t.call producer)) none
  | claimed (hslot : s.slots.get? s.now t.call.idempotencyKey = none) :
    Effect s t .claimSlot (s.claim t.call.idempotencyKey) (some { t with phase := .claimed })
  | started (hphase : t.phase = .claimed) : Effect s t .startRun
      (s.record (.started t.call s.now)) (some { t with phase := .running })
  | finished {response : OrchestrationResponse} (hphase : t.phase = .running) :
    Effect s t (.finishRun response) s (some { t with phase := .finished response })
  | stored {response : OrchestrationResponse} (hphase : t.phase = .finished response) :
    Effect s t .storeResult (s.storeResult t.call response) none
  | elapsed {moment : Instant} (hmoment : s.now ≤ moment) :
    Effect s t (.elapse moment) { s with now := moment } (some t)

theorem advance_effect {s s' : SlotStore} {others : List ExecutionTx} {t : ExecutionTx}
    {action : ExecutionAction} {ended : Option ExecutionTx}
    (h : advance s others t action = some (s', ended)) : Effect s t action s' ended := by
  cases action with
  | checkCache =>
    cases hphase : t.phase with
    | begun =>
      cases hslot : s.slots.get? s.now t.call.idempotencyKey with
      | none =>
        simp only [advance, hphase, hslot, Option.some.injEq, Prod.mk.injEq] at h
        obtain ⟨rfl, rfl⟩ := h
        exact .missed
      | some value =>
        cases value with
        | processing =>
          simp only [advance, hphase, hslot, Option.some.injEq, Prod.mk.injEq] at h
          obtain ⟨rfl, rfl⟩ := h
          exact .ended
        | response response producer =>
          simp only [advance, hphase, hslot, Option.some.injEq, Prod.mk.injEq] at h
          obtain ⟨rfl, rfl⟩ := h
          exact .served hslot
    | _ => simp [advance, hphase] at h
  | claimSlot =>
    cases hphase : t.phase with
    | missed =>
      cases hslot : s.slots.get? s.now t.call.idempotencyKey with
      | none =>
        simp only [advance, hphase, hslot, Option.some.injEq, Prod.mk.injEq] at h
        obtain ⟨rfl, rfl⟩ := h
        exact .claimed hslot
      | some value =>
        simp only [advance, hphase, hslot, Option.some.injEq, Prod.mk.injEq] at h
        obtain ⟨rfl, rfl⟩ := h
        exact .ended
    | _ => simp [advance, hphase] at h
  | startRun =>
    cases hphase : t.phase with
    | claimed =>
      simp only [advance, hphase, Option.some.injEq, Prod.mk.injEq] at h
      obtain ⟨rfl, rfl⟩ := h
      exact .started hphase
    | _ => simp [advance, hphase] at h
  | finishRun response =>
    cases hphase : t.phase with
    | running =>
      simp only [advance, hphase, Option.some.injEq, Prod.mk.injEq] at h
      obtain ⟨rfl, rfl⟩ := h
      exact .finished hphase
    | _ => simp [advance, hphase] at h
  | failRun =>
    cases hphase : t.phase with
    | running =>
      simp only [advance, hphase, Option.some.injEq, Prod.mk.injEq] at h
      obtain ⟨rfl, rfl⟩ := h
      exact .ended
    | _ => simp [advance, hphase] at h
  | storeResult =>
    cases hphase : t.phase with
    | finished response =>
      simp only [advance, hphase, Option.some.injEq, Prod.mk.injEq] at h
      obtain ⟨rfl, rfl⟩ := h
      exact .stored hphase
    | _ => simp [advance, hphase] at h
  | elapse moment =>
    simp only [advance, Option.ite_none_right_eq_some, Option.some.injEq, Prod.mk.injEq] at h
    obtain ⟨hmoment, rfl, rfl⟩ := h
    exact .elapsed hmoment
  | crash =>
    cases h
    exact .ended

end ExecutionTx

/-- No execution starts within a day after a success of the same call. -/
def Spaced : ExecutionEvent → ExecutionEvent → Prop
  | .stored call moment, .started call' moment' =>
    call = call' → moment + idemResultTtl < moment'
  | _, _ => True

structure Idempotent (sys : System SlotStore ExecutionTx) : Prop where
  alone : sys.sessions.Pairwise fun t u => t.Running → u.Running → t.call ≠ u.call
  spaced : sys.store.log.Pairwise Spaced
  own : ∀ {call producer}, .served call producer ∈ sys.store.log → producer = call

namespace SlotStore
variable {s : SlotStore}

/-- What the slots say of the results that were stored. -/
structure Sound (s : SlotStore) : Prop where
  past : ∀ {call moment}, .stored call moment ∈ s.log → moment ≤ s.now
  kept : ∀ {call moment}, .stored call moment ∈ s.log → s.now ≤ moment + idemResultTtl →
    ∃ value expiry, s.slots.latest? call.idempotencyKey = some (value, expiry) ∧
      moment + idemResultTtl ≤ expiry
  cached : ∀ {key response producer expiry},
    s.slots.latest? key = some (.response response producer, expiry) →
    ∃ moment, s.lastStored key = some (producer, moment) ∧ expiry = moment + idemResultTtl
  spaced : s.log.Pairwise Spaced
  own : ∀ {call producer}, .served call producer ∈ s.log → producer = call

theorem lastStored_append {s' : SlotStore} {event : ExecutionEvent}
    (hlog : s'.log = s.log ++ [event]) (key : String) :
    s'.lastStored key = (event.storedUnder? key).or (s.lastStored key) := by
  cases hevent : event.storedUnder? key <;> simp [lastStored, hlog, hevent]

/-- A key that has come free has outlived every result that was stored under it. -/
theorem Sound.outlived (h : s.Sound) {call : OrchestrationCall} {moment : Instant}
    (hslot : s.slots.get? s.now call.idempotencyKey = none) (hstored : .stored call moment ∈ s.log) :
    moment + idemResultTtl < s.now := by
  by_contra hnot
  obtain ⟨value, expiry, hlatest, hexpiry⟩ := h.kept hstored (not_lt.mp hnot)
  have hexpired : expiry < s.now := Cells.expired_of_get? hslot hlatest
  exact hnot (hexpiry.trans_lt hexpired)

theorem Sound.elapse (h : s.Sound) {moment : Instant} (hmoment : s.now ≤ moment) :
    Sound { s with now := moment } where
  past hstored := (h.past hstored).trans hmoment
  kept hstored hnow := h.kept hstored (hmoment.trans hnow)
  cached := h.cached
  spaced := h.spaced
  own := h.own

theorem Sound.serve (h : s.Sound) (call : OrchestrationCall) :
    (s.record (.served call call)).Sound where
  past hstored := h.past (by simpa [record] using hstored)
  kept hstored := h.kept (by simpa [record] using hstored)
  cached hlatest := by
    rw [lastStored_append rfl]
    exact h.cached hlatest
  spaced := by
    rw [record, List.pairwise_append]
    refine ⟨h.spaced, List.pairwise_singleton _ _, ?_⟩
    intro event _ other hother
    obtain rfl := List.mem_singleton.mp hother
    cases event <;> trivial
  own hserved := by
    rcases List.mem_append.mp hserved with hserved | hserved
    · exact h.own hserved
    · simp only [List.mem_singleton, ExecutionEvent.served.injEq] at hserved
      exact hserved.2.trans hserved.1.symm

theorem Sound.start (h : s.Sound) {call : OrchestrationCall}
    (hready : ∀ {moment}, .stored call moment ∈ s.log → moment + idemResultTtl < s.now) :
    (s.record (.started call s.now)).Sound where
  past hstored := h.past (by simpa [record] using hstored)
  kept hstored := h.kept (by simpa [record] using hstored)
  cached hlatest := by
    rw [lastStored_append rfl]
    exact h.cached hlatest
  spaced := by
    rw [record, List.pairwise_append]
    refine ⟨h.spaced, List.pairwise_singleton _ _, ?_⟩
    intro event hevent other hother
    obtain rfl := List.mem_singleton.mp hother
    cases event with
    | stored call' moment =>
      rintro rfl
      exact hready hevent
    | _ => trivial
  own hserved := h.own (by simpa [record] using hserved)

theorem Sound.claim (h : s.Sound) {key : String} (hslot : s.slots.get? s.now key = none) :
    (s.claim key).Sound where
  past := h.past
  kept := by
    intro call moment hstored hnow
    have hother : call.idempotencyKey ≠ key := by
      rintro rfl
      exact absurd (h.outlived hslot hstored) (not_lt.mpr hnow)
    obtain ⟨value, expiry, hlatest, hexpiry⟩ := h.kept hstored hnow
    exact ⟨value, expiry, (Cells.latest?_set_of_ne hother).trans hlatest, hexpiry⟩
  cached := by
    intro other response producer expiry hlatest
    by_cases hother : other = key
    · subst hother
      have hset := Cells.latest?_set.symm.trans hlatest
      simp at hset
    · exact h.cached ((Cells.latest?_set_of_ne hother).symm.trans hlatest)
  spaced := h.spaced
  own := h.own

theorem Sound.storeResult (h : s.Sound) (call : OrchestrationCall)
    (response : OrchestrationResponse) : (s.storeResult call response).Sound where
  past hstored := by
    rcases List.mem_append.mp hstored with hstored | hstored
    · exact h.past hstored
    · simp only [List.mem_singleton, ExecutionEvent.stored.injEq] at hstored
      exact hstored.2.le
  kept := by
    intro other moment hstored hnow
    rcases List.mem_append.mp hstored with hstored | hstored
    · by_cases hkey : other.idempotencyKey = call.idempotencyKey
      · refine ⟨.response response call, s.now + idemResultTtl, ?_, ?_⟩
        · rw [hkey]
          exact Cells.latest?_set
        · have hpast := h.past hstored
          gcongr
      · obtain ⟨value, expiry, hlatest, hexpiry⟩ := h.kept hstored hnow
        exact ⟨value, expiry, (Cells.latest?_set_of_ne hkey).trans hlatest, hexpiry⟩
    · obtain ⟨rfl, rfl⟩ := ExecutionEvent.stored.inj (List.mem_singleton.mp hstored)
      exact ⟨.response response other, s.now + idemResultTtl, Cells.latest?_set, le_rfl⟩
  cached := by
    intro key response' producer expiry hlatest
    rw [lastStored_append rfl]
    by_cases hkey : key = call.idempotencyKey
    · subst hkey
      have hset := Cells.latest?_set.symm.trans hlatest
      simp only [Option.some.injEq, Prod.mk.injEq, SlotValue.response.injEq] at hset
      obtain ⟨⟨-, rfl⟩, rfl⟩ := hset
      exact ⟨s.now, by simp [ExecutionEvent.storedUnder?], rfl⟩
    · have hnone : (ExecutionEvent.stored call s.now).storedUnder? key = none := by
        simp [ExecutionEvent.storedUnder?, Ne.symm hkey]
      rw [hnone, Option.none_or]
      exact h.cached ((Cells.latest?_set_of_ne hkey).symm.trans hlatest)
  spaced := by
    rw [SlotStore.storeResult, List.pairwise_append]
    refine ⟨h.spaced, List.pairwise_singleton _ _, ?_⟩
    intro event _ other hother
    obtain rfl := List.mem_singleton.mp hother
    cases event <;> trivial
  own hserved := h.own (by simpa [SlotStore.storeResult] using hserved)

end SlotStore

namespace ExecutionTx

/-- A call that has claimed its slot is past the day of every earlier success. -/
def Ready (s : SlotStore) (t : ExecutionTx) : Prop :=
  t.phase = .claimed → ∀ {moment}, .stored t.call moment ∈ s.log → moment + idemResultTtl < s.now

def Apart (t u : ExecutionTx) : Prop := t.InFlight → u.InFlight → t.call ≠ u.call

theorem Ready.record {s : SlotStore} {t : ExecutionTx} (h : Ready s t) {event : ExecutionEvent}
    (hevent : ∀ moment, event ≠ .stored t.call moment) : Ready (s.record event) t := by
  intro hclaimed moment hstored
  rcases List.mem_append.mp hstored with hstored | hstored
  · exact h hclaimed hstored
  · exact absurd (List.mem_singleton.mp hstored).symm (hevent moment)

theorem Ready.elapse {s : SlotStore} {t : ExecutionTx} (h : Ready s t) {moment : Instant}
    (hmoment : s.now ≤ moment) : Ready { s with now := moment } t :=
  fun hclaimed _ hstored => (h hclaimed hstored).trans_le hmoment

theorem reliable : Reliable machine Exclusive SlotStore.Sound Ready Apart
    (fun _ (_ : Empty) => False) (fun _ _ => False) where
  symm h := by
    intro hu ht hsame
    exact h ht hu hsame.symm
  starts _ := by
    intro hclaimed
    cases hclaimed
  starts_apart _ := by
    intro hflight
    cases hflight
  advances := by
    intro s others t action s' ended hs ht hothers _ hguard hadvance
    have hstay : ∀ u ∈ others, Ready s u := fun u hu => (hothers u hu).1
    have hapart : ∀ u ∈ others, Apart t u := fun u hu => (hothers u hu).2
    have hstep : advance s others t action = some (s', ended) := hadvance
    cases advance_effect hstep with
    | ended => exact ⟨hs, by simp, hstay, fun d => d.elim⟩
    | missed =>
      refine ⟨hs, ?_, hstay, fun d => d.elim⟩
      rintro t' ⟨⟩
      refine ⟨?_, fun u _ => ?_⟩
      · intro hclaimed
        cases hclaimed
      · intro hflight
        cases hflight
    | served hslot =>
      rename_i response producer
      obtain ⟨expiry, hlatest, hstands⟩ := Cells.latest?_of_get? hslot
      obtain ⟨moment, hlast, rfl⟩ := hs.cached hlatest
      obtain rfl : producer = t.call := hguard _ hlast hstands
      exact ⟨hs.serve _, by simp, fun u hu => (hstay u hu).record (by simp), fun d => d.elim⟩
    | claimed hslot =>
      refine ⟨hs.claim hslot, ?_, hstay, fun d => d.elim⟩
      rintro t' ⟨⟩
      refine ⟨fun _ _ hstored => hs.outlived hslot hstored, fun u hu _ huflight hsame => ?_⟩
      rw [hguard hslot u hu hsame.symm] at huflight
      cases huflight
    | started hphase =>
      refine ⟨hs.start (ht hphase), ?_, fun u hu => (hstay u hu).record (by simp), fun d => d.elim⟩
      rintro t' ⟨⟩
      refine ⟨?_, fun u hu _ => hapart u hu (by simp [InFlight, hphase])⟩
      intro hclaimed
      cases hclaimed
    | finished hphase =>
      refine ⟨hs, ?_, hstay, fun d => d.elim⟩
      rintro t' ⟨⟩
      refine ⟨?_, fun u hu _ => hapart u hu (by simp [InFlight, hphase])⟩
      intro hclaimed
      cases hclaimed
    | stored hphase =>
      refine ⟨hs.storeResult _ _, by simp, ?_, fun d => d.elim⟩
      intro u hu hclaimed moment hstored
      rcases List.mem_append.mp hstored with hstored | hstored
      · exact hstay u hu hclaimed hstored
      · obtain ⟨hsame, -⟩ := ExecutionEvent.stored.inj (List.mem_singleton.mp hstored)
        have hne : t.call ≠ u.call :=
          hapart u hu (by simp [InFlight, hphase]) (by simp [InFlight, hclaimed])
        exact absurd hsame.symm hne
    | elapsed hmoment =>
      refine ⟨hs.elapse hmoment, ?_, fun u hu => (hstay u hu).elapse hmoment, fun d => d.elim⟩
      rintro t' ⟨⟩
      exact ⟨ht.elapse hmoment, hapart⟩

end ExecutionTx

def execution (index : ℕ) : List (Action OrchestrationCall ExecutionAction) :=
  [.advance index .checkCache, .advance index .claimSlot, .advance index .startRun]

def storing (index : ℕ) : List (Action OrchestrationCall ExecutionAction) :=
  [.advance index (.finishRun ⟨"s", "insights", "42", [], [], []⟩), .advance index .storeResult]

def insightCall : OrchestrationCall := ⟨1, .aiInsights, "k"⟩

def ExecutionEvent.served? : ExecutionEvent → Option (OrchestrationCall × OrchestrationCall)
  | served call producer => some (call, producer)
  | _ => none

end Finguard
