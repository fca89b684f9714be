import Finguard.Lib.MessageQueue
import Finguard.Lib.Sessions
import Finguard.Lib.Text

/-! The watchdog consumer, its dead-letter queue and the sweep that replays it. -/

namespace Finguard
open Sessions

def maxDeathCount : ℤ := 3

inductive HeaderLeaf where
  | long (n : ℤ)
  | text (s : String)
  | other
deriving DecidableEq

/-- An array holds tables, and items that are none. -/
inductive HeaderValue where
  | leaf (value : HeaderLeaf)
  | array (items : List (Option (List (String × HeaderLeaf))))
deriving DecidableEq

abbrev Headers := List (String × HeaderValue)

/-- The digits of a number, with single underscores between them. -/
def pyDigits (cs : List Char) : Option ℤ :=
  let parts := cs.splitOn '_'
  if parts.all (fun part => !part.isEmpty && part.all Char.isDigit) then
    some (Text.natOfChars parts.flatten)
  else none

def pyInt (s : String) : Option ℤ :=
  match (Text.strip s).toList with
  | '-' :: digits => (pyDigits digits).map (-·)
  | '+' :: digits => pyDigits digits
  | digits => pyDigits digits

def HeaderLeaf.int : HeaderLeaf → Option ℤ
  | long n => some n
  | text s => pyInt s
  | other => none

def entryCount (entry : List (String × HeaderLeaf)) : Option ℤ :=
  ((entry.lookup "count").getD (.long 1)).int

/-- `none` where a count is not a number. -/
def getDeathCount (headers : Headers) : Option ℤ :=
  match headers.lookup "x-death" with
  | none => some 0
  | some (.leaf _) => some 0
  | some (.array items) =>
    (items.reduceOption.mapM entryCount).map List.sum

def cleanHeaders (headers : Headers) : Headers := headers.filter (·.1 ≠ "x-death")

theorem getDeathCount_cleanHeaders (headers : Headers) :
    getDeathCount (cleanHeaders headers) = some 0 := by
  have hnone : (cleanHeaders headers).lookup "x-death" = none := by
    rw [List.lookup_eq_none_iff]
    intro header hheader
    have hne : header.1 ≠ "x-death" := of_decide_eq_true (List.mem_filter.mp hheader).2
    exact bne_iff_ne.mpr hne.symm
  rw [getDeathCount, hnone]

/-- What the broker writes into the headers of a message that dies in a queue. -/
class Broker where
  deadLettered : (queue reason : String) → Headers → Headers
  deathCount_deadLettered : ∀ {queue reason headers count}, getDeathCount headers = some count →
    getDeathCount (deadLettered queue reason headers) = some (count + 1)

/-- A body as `json.loads` and `get` find it. -/
inductive Body where
  | undecodable
  | malformed
  | notAnObject
  | payload (expenseId : String)
deriving DecidableEq

/-- The tag stands for the message through all its copies. -/
structure Message where
  tag : ℕ
  body : Body
  headers : Headers
  contentType : Option String := some "application/json"
deriving DecidableEq

/-- The serial number counts the arrivals in the dead-letter queue. -/
structure DeadMessage extends Message where
  serial : ℕ
deriving DecidableEq

def DeadMessage.outbound (message : DeadMessage) : Message where
  tag := message.tag
  body := message.body
  headers := cleanHeaders message.headers
  contentType := some (match message.contentType with
    | none => "application/json"
    | some contentType => if contentType = "" then "application/json" else contentType)

/-! The consumer. -/

inductive Handling where
  | done
  | failed
  | cancelled
deriving DecidableEq

/-- What Redis and the watchdog answer. `none` where Redis raises. -/
structure Attempt where
  isProcessed : Option Bool
  handling : Handling
deriving DecidableEq

inductive Verdict where
  | ack
  | nack
  | raised
deriving DecidableEq

def processMessage : Body → Attempt → Verdict
  | .undecodable, _ => .raised
  | .malformed, _ => .nack
  | .notAnObject, _ => .raised
  | .payload expenseId, attempt =>
    if expenseId = "" then .nack
    else
      match attempt.isProcessed, attempt.handling with
      | none, _ => .raised
      | some true, _ => .ack
      | some false, .done => .ack
      | some false, .failed => .nack
      | some false, .cancelled => .raised

/-! The broker, with what happened to the messages that died. -/

structure BrokerStore where
  primary : MessageQueue Message := {}
  deadLetters : MessageQueue DeadMessage := {}
  deaths : ℕ := 0
  replays : List ℕ := []
  republished : List ℕ := []
  discarded : List DeadMessage := []

inductive BrokerRequest where
  | publish (message : Message)
  | expiry
  | consumer
  | drain (batchSize : ℕ)

inductive BrokerPhase where
  | idle
  | consuming (message : Message)
  | sweeping (left : ℕ)
  | got (left : ℕ) (message : DeadMessage)
  | republished (left : ℕ) (message : DeadMessage)

structure BrokerTx where
  request : BrokerRequest
  phase : BrokerPhase

/-- The answer to a publish is `none` where it returned. -/
inductive BrokerAction where
  | publish
  | expire
  | consume
  | process (attempt : Attempt)
  | get
  | discard
  | replay (answer : Option String) (accepted : Bool)
  | ackReplayed
  | crash

namespace BrokerStore

def die [Broker] (s : BrokerStore) (message : Message) (reason : String) : BrokerStore :=
  { s with
    deadLetters := s.deadLetters.publish { message with
      headers := Broker.deadLettered "finguard.agent_e.events" reason message.headers
      serial := s.deaths }
    deaths := s.deaths + 1 }

def replay (s : BrokerStore) (message : DeadMessage) : BrokerStore :=
  { s with
    primary := s.primary.publish message.outbound
    replays := s.replays ++ [message.tag] }

end BrokerStore

namespace BrokerTx

/-- What the broker does with the message of a channel that closes. -/
def release (s : BrokerStore) (t : BrokerTx) : BrokerStore :=
  match t.phase with
  | .consuming message => { s with primary := s.primary.requeue message }
  | .got _ message => { s with deadLetters := s.deadLetters.requeue message }
  | .republished _ message => { s with deadLetters := s.deadLetters.requeue message }
  | _ => s

def advance [Broker] (s : BrokerStore) (t : BrokerTx) :
    BrokerAction → Option (BrokerStore × Option BrokerTx)
  | .publish =>
    match t.request with
    | .publish message => some ({ s with primary := s.primary.publish message }, none)
    | _ => none
  | .expire =>
    match t.request with
    | .expiry => s.primary.expire.map (fun (message, primary) =>
        (BrokerStore.die { s with primary } message "expired", none))
    | _ => none
  | .consume =>
    match t.request, t.phase with
    | .consumer, .idle => s.primary.deliver.map (fun (message, primary) =>
        ({ s with primary }, some { t with phase := .consuming message }))
    | _, _ => none
  | .process attempt =>
    match t.phase with
    | .consuming message =>
      match processMessage message.body attempt with
      | .ack => some ({ s with primary := s.primary.ack message }, some { t with phase := .idle })
      | .nack => some (BrokerStore.die { s with primary := s.primary.ack message } message "rejected",
          some { t with phase := .idle })
      | .raised => some (release s t, none)
    | _ => none
  | .get =>
    match t.phase with
    | .sweeping 0 => some (s, none)
    | .sweeping (left + 1) =>
      match s.deadLetters.deliver with
      | none => some (s, none)
      | some (message, deadLetters) =>
        some ({ s with deadLetters }, some { t with phase := .got left message })
    | _ => none
  | .discard =>
    match t.phase with
    | .got left message =>
      match getDeathCount message.headers with
      | some count =>
        if maxDeathCount < count then
          some ({ s with
            deadLetters := s.deadLetters.ack message
            discarded := s.discarded ++ [message] }, some { t with phase := .sweeping left })
        else none
      | none => none
    | _ => none
  | .replay answer accepted =>
    match t.phase with
    | .got left message =>
      match getDeathCount message.headers with
      -- the sweep ends where a count is no number
      | none => some (release s t, none)
      | some count =>
        -- a publish returns only after the broker has accepted the message
        if maxDeathCount < count ∨ (answer = none ∧ accepted = false) then none
        else
          let published := if accepted then s.replay message else s
          match answer with
          | none => some ({ published with republished := s.republished ++ [message.serial] },
              some { t with phase := .republished left message })
          | some _ => some ({ published with deadLetters := s.deadLetters.requeue message },
              some { t with phase := .sweeping left })
    | _ => none
  | .ackReplayed =>
    match t.phase with
    | .republished left message =>
      some ({ s with deadLetters := s.deadLetters.ack message }, some { t with phase := .sweeping left })
    | _ => none
  | .crash => some (release s t, none)

def machine [Broker] : Machine BrokerStore BrokerTx BrokerRequest BrokerAction where
  start request :=
    { request
      phase := match request with
        | .drain batchSize => .sweeping batchSize
        | _ => .idle }
  advance s _ t action := advance s t action

end BrokerTx

/-! What one step can do. -/

inductive BrokerEffect [Broker] (s : BrokerStore) (t : BrokerTx) :
    BrokerAction → BrokerStore → Option BrokerTx → Prop
  | published {message} (h : t.request = .publish message) :
    BrokerEffect s t .publish { s with primary := s.primary.publish message } none
  | expired {action message primary} (h : s.primary.expire = some (message, primary)) :
    BrokerEffect s t action (BrokerStore.die { s with primary } message "expired") none
  | consumed {action message primary} (h : s.primary.deliver = some (message, primary)) :
    BrokerEffect s t action { s with primary } (some { t with phase := .consuming message })
  | acked {action message} (h : t.phase = .consuming message) :
    BrokerEffect s t action { s with primary := s.primary.ack message }
      (some { t with phase := .idle })
  | nacked {action message} (h : t.phase = .consuming message) :
    BrokerEffect s t action
      (BrokerStore.die { s with primary := s.primary.ack message } message "rejected")
      (some { t with phase := .idle })
  | got {action left message deadLetters}
    (h : s.deadLetters.deliver = some (message, deadLetters)) :
    BrokerEffect s t action { s with deadLetters } (some { t with phase := .got left message })
  | discarded {action left message count} (h : t.phase = .got left message)
    (hcount : getDeathCount message.headers = some count) (hmax : maxDeathCount < count) :
    BrokerEffect s t action { s with
      deadLetters := s.deadLetters.ack message
      discarded := s.discarded ++ [message] } (some { t with phase := .sweeping left })
  | replayed {action left message count} (h : t.phase = .got left message)
    (hcount : getDeathCount message.headers = some count) (hmax : count ≤ maxDeathCount) :
    BrokerEffect s t action { s.replay message with republished := s.republished ++ [message.serial] }
      (some { t with phase := .republished left message })
  | refused {action left message count} (accepted : Bool) (h : t.phase = .got left message)
    (hcount : getDeathCount message.headers = some count) (hmax : count ≤ maxDeathCount) :
    BrokerEffect s t action { (if accepted then s.replay message else s) with
      deadLetters := s.deadLetters.requeue message } (some { t with phase := .sweeping left })
  | ackedReplay {action left message} (h : t.phase = .republished left message) :
    BrokerEffect s t action { s with deadLetters := s.deadLetters.ack message }
      (some { t with phase := .sweeping left })
  | finished {action} : BrokerEffect s t action s none
  | released {action} : BrokerEffect s t action (t.release s) none

namespace BrokerTx

theorem advance_effect [Broker] {s s' : BrokerStore} {t : BrokerTx} {action : BrokerAction}
    {ended : Option BrokerTx} (h : advance s t action = some (s', ended)) :
    BrokerEffect s t action s' ended := by
  cases action with
  | publish =>
    simp only [advance] at h
    split at h
    · rename_i message hrequest
      obtain ⟨rfl, rfl⟩ := Prod.mk.inj (Option.some.inj h)
      exact .published hrequest
    · cases h
  | expire =>
    simp only [advance] at h
    split at h
    · obtain ⟨⟨message, primary⟩, hexpire, heq⟩ := Option.map_eq_some_iff.mp h
      obtain ⟨rfl, rfl⟩ := Prod.mk.inj heq
      exact .expired hexpire
    · cases h
  | consume =>
    simp only [advance] at h
    split at h
    · obtain ⟨⟨message, primary⟩, hdeliver, heq⟩ := Option.map_eq_some_iff.mp h
      obtain ⟨rfl, rfl⟩ := Prod.mk.inj heq
      exact .consumed hdeliver
    · cases h
  | process attempt =>
    simp only [advance] at h
    split at h
    · rename_i message hphase
      split at h
      · obtain ⟨rfl, rfl⟩ := Prod.mk.inj (Option.some.inj h)
        exact .acked hphase
      · obtain ⟨rfl, rfl⟩ := Prod.mk.inj (Option.some.inj h)
        exact .nacked hphase
      · obtain ⟨rfl, rfl⟩ := Prod.mk.inj (Option.some.inj h)
        exact .released
    · cases h
  | get =>
    simp only [advance] at h
    split at h
    · obtain ⟨rfl, rfl⟩ := Prod.mk.inj (Option.some.inj h)
      exact .finished
    · split at h
      · obtain ⟨rfl, rfl⟩ := Prod.mk.inj (Option.some.inj h)
        exact .finished
      · rename_i message deadLetters hdeliver
        obtain ⟨rfl, rfl⟩ := Prod.mk.inj (Option.some.inj h)
        exact .got hdeliver
    · cases h
  | discard =>
    simp only [advance] at h
    split at h
    · rename_i left message hphase
      split at h
      · rename_i count hcount
        split at h
        · rename_i hmax
          obtain ⟨rfl, rfl⟩ := Prod.mk.inj (Option.some.inj h)
          exact .discarded hphase hcount hmax
        · cases h
      · cases h
    · cases h
  | replay answer accepted =>
    simp only [advance] at h
    split at h
    · rename_i left message hphase
      split at h
      · obtain ⟨rfl, rfl⟩ := Prod.mk.inj (Option.some.inj h)
        exact .released
      · rename_i count hcount
        split at h
        · cases h
        · rename_i hvalid
          rw [not_or] at hvalid
          have hmax : count ≤ maxDeathCount := by omega
          split at h
          · obtain ⟨rfl, rfl⟩ := Prod.mk.inj (Option.some.inj h)
            have haccepted : accepted = true := by simpa using hvalid.2
            subst haccepted
            exact .replayed hphase hcount hmax
          · obtain ⟨rfl, rfl⟩ := Prod.mk.inj (Option.some.inj h)
            exact .refused accepted hphase hcount hmax
    · cases h
  | ackReplayed =>
    simp only [advance] at h
    split at h
    · rename_i left message hphase
      obtain ⟨rfl, rfl⟩ := Prod.mk.inj (Option.some.inj h)
      exact .ackedReplay hphase
    · cases h
  | crash =>
    obtain ⟨rfl, rfl⟩ := Prod.mk.inj (Option.some.inj h)
    exact .released

end BrokerTx

/-! Nothing leaves the dead-letter queue but by a replay or a discard. -/

structure Accounted (s : BrokerStore) : Prop where
  arrived : ∀ serial < s.deaths, (∃ d ∈ s.deadLetters, d.serial = serial) ∨
    serial ∈ s.republished ∨ ∃ d ∈ s.discarded, d.serial = serial
  deliberate : ∀ d ∈ s.discarded, ∃ count,
    getDeathCount d.headers = some count ∧ maxDeathCount < count

section Accounted
variable {s : BrokerStore}

theorem Accounted.die [Broker] (h : Accounted s) (message : Message) (reason : String) :
    Accounted (s.die message reason) := by
  refine ⟨?_, h.deliberate⟩
  intro serial hserial
  by_cases hnew : serial = s.deaths
  · exact .inl ⟨_, MessageQueue.mem_publish.mpr (.inr rfl), hnew.symm⟩
  · have hlt : serial < s.deaths + 1 := hserial
    rcases h.arrived serial (by omega) with ⟨d, hd, heq⟩ | hsettled
    · exact .inl ⟨d, MessageQueue.mem_publish.mpr (.inl hd), heq⟩
    · exact .inr hsettled

theorem Accounted.withPrimary (h : Accounted s) (primary : MessageQueue Message) :
    Accounted { s with primary } := ⟨h.arrived, h.deliberate⟩

/-- A change of the queue that drops only what has been settled. -/
theorem Accounted.withDeadLetters (h : Accounted s) {deadLetters : MessageQueue DeadMessage}
    (hkept : ∀ d ∈ s.deadLetters, d ∈ deadLetters ∨ d.serial ∈ s.republished ∨
      ∃ e ∈ s.discarded, e.serial = d.serial) : Accounted { s with deadLetters } := by
  refine ⟨?_, h.deliberate⟩
  intro serial hserial
  rcases h.arrived serial hserial with ⟨d, hd, rfl⟩ | hsettled
  · rcases hkept d hd with hin | hsettled
    · exact .inl ⟨d, hin, rfl⟩
    · exact .inr hsettled
  · exact .inr hsettled

theorem Accounted.requeue (h : Accounted s) (message : DeadMessage) :
    Accounted { s with deadLetters := s.deadLetters.requeue message } :=
  h.withDeadLetters (fun _ hd => .inl (MessageQueue.mem_requeue_of_mem hd))

theorem Accounted.replay (h : Accounted s) (message : DeadMessage) :
    Accounted (s.replay message) := ⟨h.arrived, h.deliberate⟩

theorem Accounted.settle (h : Accounted s) {republished : List ℕ} {discarded : List DeadMessage}
    (hrepublished : s.republished ⊆ republished) (hdiscarded : s.discarded ⊆ discarded)
    (hdeliberate : ∀ d ∈ discarded, ∃ count,
      getDeathCount d.headers = some count ∧ maxDeathCount < count) :
    Accounted { s with republished, discarded } := by
  refine ⟨?_, hdeliberate⟩
  intro serial hserial
  rcases h.arrived serial hserial with hin | hdone | ⟨d, hd, heq⟩
  · exact .inl hin
  · exact .inr (.inl (hrepublished hdone))
  · exact .inr (.inr ⟨d, hdiscarded hd, heq⟩)

end Accounted

namespace BrokerTx

/-- A sweep acknowledges only what it has republished. -/
def Republished (s : BrokerStore) (t : BrokerTx) : Prop :=
  ∀ left d, t.phase = .republished left d → d.serial ∈ s.republished

theorem release_republished (s : BrokerStore) (t : BrokerTx) :
    (t.release s).republished = s.republished := by
  unfold release
  split <;> rfl

theorem release_accounted {s : BrokerStore} {t : BrokerTx} (h : Accounted s) :
    Accounted (t.release s) := by
  unfold release
  split
  · exact h.withPrimary _
  · exact h.requeue _
  · exact h.requeue _
  · exact h

theorem secure_accounted [Broker] : Secure machine (fun _ _ _ => True) Accounted Republished
    (fun _ _ => True) where
  symm _ := trivial
  starts _ left d hphase := by
    simp only [machine] at hphase
    split at hphase <;> cases hphase
  starts_apart _ := trivial
  advances := by
    intro s others t action s' ended hs ht hothers _ hadvance
    have hframe : ∀ {s' : BrokerStore}, s.republished ⊆ s'.republished →
        ∀ u ∈ others, Republished s' u :=
      fun hsub u hu left d hphase => hsub ((hothers u hu).1 left d hphase)
    have hsame : ∀ u ∈ others, Republished s u := hframe (List.Subset.refl _)
    have hnext : ∀ {s' : BrokerStore} {phase},
        (∀ left d, phase = .republished left d → d.serial ∈ s'.republished) →
        ∀ u ∈ some (⟨t.request, phase⟩ : BrokerTx), Republished s' u ∧ ∀ v ∈ others, True := by
      intro s' phase hphase u hu
      obtain rfl := Option.some.inj hu
      exact ⟨hphase, fun _ _ => trivial⟩
    cases advance_effect hadvance with
    | published h => exact ⟨hs.withPrimary _, by simp, hsame⟩
    | expired h => exact ⟨(hs.withPrimary _).die _ _, by simp, hsame⟩
    | consumed h => exact ⟨hs.withPrimary _, hnext (by simp), hsame⟩
    | acked h => exact ⟨hs.withPrimary _, hnext (by simp), hsame⟩
    | nacked h => exact ⟨(hs.withPrimary _).die _ _, hnext (by simp), hsame⟩
    | got h =>
      refine ⟨hs.withDeadLetters ?_, hnext (by simp), hsame⟩
      exact fun d hd => .inl ((MessageQueue.mem_deliver h).2.mpr hd)
    | @discarded _ _ message count h hcount hmax =>
      have hsettled : Accounted { s with discarded := s.discarded ++ [message] } := by
        refine hs.settle (List.Subset.refl _) (List.subset_append_left _ _) ?_
        intro d hd
        rcases List.mem_append.mp hd with hold | hnew
        · exact hs.deliberate d hold
        · obtain rfl := List.mem_singleton.mp hnew
          exact ⟨count, hcount, hmax⟩
      refine ⟨hsettled.withDeadLetters ?_, hnext (by simp), hsame⟩
      intro d hd
      by_cases hd' : d = message
      · exact .inr (.inr ⟨message, by simp, hd' ▸ rfl⟩)
      · exact .inl (MessageQueue.mem_ack_of_ne hd' hd)
    | @replayed _ _ message count h hcount hmax =>
      have hgrown : s.republished ⊆ s.republished ++ [message.serial] :=
        List.subset_append_left _ _
      refine ⟨(hs.replay message).settle hgrown (List.Subset.refl _) hs.deliberate, ?_,
        hframe hgrown⟩
      refine hnext ?_
      rintro left d ⟨⟩
      simp
    | @refused _ _ message count accepted h hcount hmax =>
      cases accepted with
      | true => exact ⟨(hs.replay message).requeue message, hnext (by simp), hsame⟩
      | false => exact ⟨hs.requeue message, hnext (by simp), hsame⟩
    | @ackedReplay _ left message h =>
      refine ⟨hs.withDeadLetters ?_, hnext (by simp), hsame⟩
      intro d hd
      by_cases hd' : d = message
      · exact .inr (.inl (hd' ▸ ht left message h))
      · exact .inl (MessageQueue.mem_ack_of_ne hd' hd)
    | finished => exact ⟨hs, by simp, hsame⟩
    | released =>
      refine ⟨release_accounted hs, by simp, hframe ?_⟩
      rw [release_republished]
      exact List.Subset.refl _

end BrokerTx

/-! A message whose processing always fails. -/

/-- The message is always published as it is here, and it is never acknowledged. -/
def Poison (message : Message) (_ : BrokerStore) (t : BrokerTx) : BrokerAction → Prop
  | .publish => ∀ other, t.request = .publish other → other.tag = message.tag → other = message
  | .process attempt => ∀ held, t.phase = .consuming held → held.tag = message.tag →
      processMessage held.body attempt ≠ .ack
  | _ => True

def Died (tag : ℕ) (bound : ℤ) (message : Message) : Prop :=
  message.tag = tag → ∃ count, getDeathCount message.headers = some count ∧ bound ≤ count

structure Unreplayed (tag : ℕ) (s : BrokerStore) : Prop where
  primary : ∀ m ∈ s.primary, Died tag maxDeathCount m
  dead : ∀ d ∈ s.deadLetters, Died tag (maxDeathCount + 1) d.toMessage
  replays : tag ∉ s.replays

namespace BrokerTx

structure HoldsDied (tag : ℕ) (t : BrokerTx) : Prop where
  consuming : ∀ m, t.phase = .consuming m → Died tag maxDeathCount m
  got : ∀ left d, t.phase = .got left d → Died tag (maxDeathCount + 1) d.toMessage
  republished : ∀ left d, t.phase = .republished left d → Died tag (maxDeathCount + 1) d.toMessage

end BrokerTx

section Unreplayed
variable {tag : ℕ} {s : BrokerStore}

theorem Unreplayed.withPrimary (h : Unreplayed tag s) {primary : MessageQueue Message}
    (hprimary : ∀ m ∈ primary, m ∈ s.primary ∨ Died tag maxDeathCount m) :
    Unreplayed tag { s with primary } :=
  ⟨fun m hm => (hprimary m hm).elim (h.primary m) id, h.dead, h.replays⟩

theorem Unreplayed.withDeadLetters (h : Unreplayed tag s)
    {deadLetters : MessageQueue DeadMessage}
    (hdead : ∀ d ∈ deadLetters, d ∈ s.deadLetters ∨ Died tag (maxDeathCount + 1) d.toMessage) :
    Unreplayed tag { s with deadLetters } :=
  ⟨h.primary, fun d hd => (hdead d hd).elim (h.dead d) id, h.replays⟩

theorem Unreplayed.die [Broker] (h : Unreplayed tag s) {message : Message} (reason : String)
    (hmessage : Died tag maxDeathCount message) : Unreplayed tag (s.die message reason) := by
  refine ⟨h.primary, ?_, h.replays⟩
  intro d hd htag
  rcases MessageQueue.mem_publish.mp hd with hold | rfl
  · exact h.dead d hold htag
  · obtain ⟨count, hcount, hbound⟩ := hmessage htag
    exact ⟨count + 1, Broker.deathCount_deadLettered hcount, by omega⟩

/-- A message that has died often enough is not replayed. -/
theorem Died.ne_tag {d : DeadMessage} {count : ℤ} (h : Died tag (maxDeathCount + 1) d.toMessage)
    (hcount : getDeathCount d.headers = some count) (hmax : count ≤ maxDeathCount) :
    d.tag ≠ tag := by
  intro htag
  obtain ⟨other, hother, hbound⟩ := h htag
  obtain rfl := Option.some.inj (hcount.symm.trans hother)
  omega

theorem Unreplayed.replay (h : Unreplayed tag s) {message : DeadMessage}
    (htag : message.tag ≠ tag) : Unreplayed tag (s.replay message) := by
  refine ⟨?_, h.dead, ?_⟩
  · intro m hm hm'
    rcases MessageQueue.mem_publish.mp hm with hold | rfl
    · exact h.primary m hold hm'
    · exact absurd hm' htag
  · intro hin
    rcases List.mem_append.mp hin with hold | hnew
    · exact h.replays hold
    · exact htag (List.mem_singleton.mp hnew).symm

end Unreplayed

namespace BrokerTx

theorem release_unreplayed {tag : ℕ} {s : BrokerStore} {t : BrokerTx} (h : Unreplayed tag s)
    (ht : HoldsDied tag t) : Unreplayed tag (t.release s) := by
  unfold release
  split
  · rename_i message hphase
    refine h.withPrimary (fun m hm => ?_)
    rcases MessageQueue.of_mem_requeue hm with rfl | hold
    · exact .inr (ht.consuming m hphase)
    · exact .inl hold
  · rename_i left message hphase
    refine h.withDeadLetters (fun d hd => ?_)
    rcases MessageQueue.of_mem_requeue hd with rfl | hold
    · exact .inr (ht.got left d hphase)
    · exact .inl hold
  · rename_i left message hphase
    refine h.withDeadLetters (fun d hd => ?_)
    rcases MessageQueue.of_mem_requeue hd with rfl | hold
    · exact .inr (ht.republished left d hphase)
    · exact .inl hold
  · exact h

theorem secure_unreplayed [Broker] {message : Message} {count : ℤ}
    (hcount : getDeathCount message.headers = some count) (hmax : maxDeathCount ≤ count) :
    Secure machine (Poison message) (Unreplayed message.tag)
      (fun _ t => HoldsDied message.tag t) (fun _ _ => True) where
  symm _ := trivial
  starts {s request} _ := by
    refine ⟨?_, ?_, ?_⟩ <;> cases request <;> simp [machine]
  starts_apart _ := trivial
  advances := by
    intro s others t action s' ended hs ht hothers hguard hadvance
    have hsame : ∀ u ∈ others, HoldsDied message.tag u := fun u hu => (hothers u hu).1
    have hnext : ∀ {phase}, HoldsDied message.tag ⟨t.request, phase⟩ →
        ∀ u ∈ some (⟨t.request, phase⟩ : BrokerTx),
          HoldsDied message.tag u ∧ ∀ v ∈ others, True := by
      intro phase hphase u hu
      obtain rfl := Option.some.inj hu
      exact ⟨hphase, fun _ _ => trivial⟩
    cases advance_effect hadvance with
    | @published other h =>
      refine ⟨hs.withPrimary ?_, by simp, hsame⟩
      intro m hm
      rcases MessageQueue.mem_publish.mp hm with hold | rfl
      · exact .inl hold
      · refine .inr (fun htag => ⟨count, ?_, hmax⟩)
        rw [hguard m h htag]
        exact hcount
    | @expired _ other primary h =>
      have hmem := fun {a : Message} => MessageQueue.mem_expire (a := a) h
      refine ⟨?_, by simp, hsame⟩
      refine (hs.withPrimary (fun m hm => .inl (hmem.mpr (.inr hm)))).die _ ?_
      exact hs.primary other (hmem.mpr (.inl rfl))
    | @consumed _ other primary h =>
      have hmem := fun {a : Message} => MessageQueue.mem_deliver (a := a) h
      refine ⟨hs.withPrimary (fun m hm => .inl (hmem.2.mp hm)), hnext ⟨?_, by simp, by simp⟩, hsame⟩
      rintro m ⟨⟩
      exact hs.primary other (hmem (a := other)).1
    | acked h =>
      refine ⟨hs.withPrimary ?_, hnext ⟨by simp, by simp, by simp⟩, hsame⟩
      exact fun m hm => .inl (MessageQueue.mem_of_mem_ack hm)
    | @nacked _ other h =>
      refine ⟨?_, hnext ⟨by simp, by simp, by simp⟩, hsame⟩
      refine Unreplayed.die ?_ _ (ht.consuming other h)
      exact hs.withPrimary (fun m hm => .inl (MessageQueue.mem_of_mem_ack hm))
    | @got _ left other deadLetters h =>
      have hmem := fun {a : DeadMessage} => MessageQueue.mem_deliver (a := a) h
      refine ⟨hs.withDeadLetters (fun d hd => .inl (hmem.2.mp hd)),
        hnext ⟨by simp, ?_, by simp⟩, hsame⟩
      rintro _ d ⟨⟩
      exact hs.dead other (hmem (a := other)).1
    | @discarded _ left other _ h hcount hmax =>
      have hkept : Unreplayed message.tag { s with discarded := s.discarded ++ [other] } :=
        ⟨hs.primary, hs.dead, hs.replays⟩
      refine ⟨hkept.withDeadLetters ?_, hnext ⟨by simp, by simp, by simp⟩, hsame⟩
      exact fun d hd => .inl (MessageQueue.mem_of_mem_ack hd)
    | @replayed _ left other _ h hcount hmax =>
      have hdied := ht.got left other h
      have hreplay := hs.replay (hdied.ne_tag hcount hmax)
      refine ⟨⟨hreplay.primary, hreplay.dead, hreplay.replays⟩, hnext ⟨by simp, by simp, ?_⟩, hsame⟩
      rintro _ d ⟨⟩
      exact hdied
    | @refused _ left other _ accepted h hcount hmax =>
      have hdied := ht.got left other h
      have hreplay : Unreplayed message.tag (if accepted then s.replay other else s) := by
        cases accepted with
        | true => exact hs.replay (hdied.ne_tag hcount hmax)
        | false => exact hs
      have hdead : (if accepted then s.replay other else s).deadLetters = s.deadLetters := by
        cases accepted <;> rfl
      refine ⟨hreplay.withDeadLetters ?_, hnext ⟨by simp, by simp, by simp⟩, hsame⟩
      intro d hd
      rw [hdead]
      rcases MessageQueue.of_mem_requeue hd with rfl | hold
      · exact .inr hdied
      · exact .inl hold
    | ackedReplay h =>
      refine ⟨hs.withDeadLetters ?_, hnext ⟨by simp, by simp, by simp⟩, hsame⟩
      exact fun d hd => .inl (MessageQueue.mem_of_mem_ack hd)
    | finished => exact ⟨hs, by simp, hsame⟩
    | released => exact ⟨release_unreplayed hs ht, by simp, hsame⟩

end BrokerTx

abbrev BrokerSystem := System BrokerStore BrokerTx

section
variable [Broker]

/-- The message has died and waits for the next sweep. -/
def BrokerStore.died (s : BrokerStore) (m : Message) (reason : String) : BrokerStore :=
  BrokerStore.die { s with primary := {}, deadLetters := {} } m reason

theorem message_dies {message m : Message} (s : BrokerStore) (hdlq : s.deadLetters = {})
    (hprimary : s.primary = ⟨[m], []⟩) : ∃ reason,
    Runs.Reaches BrokerTx.machine.step (OnSession (Poison message)) ⟨s, []⟩
      ⟨s.died m reason, []⟩ := by
  obtain ⟨primary, deadLetters, deaths, replays, republished, discarded⟩ := s
  obtain rfl : deadLetters = {} := hdlq
  obtain rfl : primary = ⟨[m], []⟩ := hprimary
  by_cases hnack : ∃ attempt, processMessage m.body attempt = .nack
  · obtain ⟨attempt, hnack⟩ := hnack
    have hrejected : (BrokerTx.machine.step ⟨⟨⟨[], [m]⟩, {}, deaths, replays, republished,
        discarded⟩, [⟨.consumer, .consuming m⟩]⟩ (.advance 0 (.process attempt))) =
          some ⟨BrokerStore.died ⟨⟨[m], []⟩, {}, deaths, replays, republished, discarded⟩ m
            "rejected", [⟨.consumer, .idle⟩]⟩ := by
      simp [Machine.step, BrokerTx.machine, BrokerTx.advance, hnack, BrokerStore.died,
        MessageQueue.ack, BrokerStore.die]
    refine ⟨"rejected", .head ⟨.start .consumer, trivial, rfl⟩ ?_⟩
    refine .head ⟨.advance 0 .consume, fun _ _ => trivial, rfl⟩ ?_
    refine .head ⟨.advance 0 (.process attempt), ?_, hrejected⟩ ?_
    · rintro t ⟨⟩ held ⟨⟩ _ hack
      rw [hnack] at hack
      cases hack
    · exact .single ⟨.advance 0 .crash, fun _ _ => trivial, rfl⟩
  · -- the consumer never gets so far as to refuse it
    refine ⟨"expired", .head ⟨.start .expiry, trivial, rfl⟩ ?_⟩
    exact .single ⟨.advance 0 .expire, fun _ _ => trivial, rfl⟩

theorem dead_message_replayed {message : Message} {d : DeadMessage} {count : ℤ} (s : BrokerStore)
    (hdlq : s.deadLetters = ⟨[d], []⟩) (hprimary : s.primary = {})
    (hcount : getDeathCount d.headers = some count) (hmax : count ≤ maxDeathCount) :
    ∃ s', Runs.Reaches BrokerTx.machine.step (OnSession (Poison message)) ⟨s, []⟩ ⟨s', []⟩ ∧
      s'.primary = ⟨[d.outbound], []⟩ ∧ s'.deadLetters = {} ∧ s'.replays = s.replays ++ [d.tag] := by
  obtain ⟨primary, deadLetters, deaths, replays, republished, discarded⟩ := s
  obtain rfl : deadLetters = ⟨[d], []⟩ := hdlq
  obtain rfl : primary = {} := hprimary
  let published : BrokerStore := ⟨⟨[d.outbound], []⟩, ⟨[], [d]⟩, deaths, replays ++ [d.tag],
    republished ++ [d.serial], discarded⟩
  have hreplay : BrokerTx.machine.step ⟨⟨{}, ⟨[], [d]⟩, deaths, replays, republished, discarded⟩,
      [⟨.drain 1, .got 0 d⟩]⟩ (.advance 0 (.replay none true)) =
        some ⟨published, [⟨.drain 1, .republished 0 d⟩]⟩ := by
    simp [Machine.step, BrokerTx.machine, BrokerTx.advance, hcount, not_lt.mpr hmax, published,
      BrokerStore.replay, MessageQueue.publish]
  have hack : BrokerTx.machine.step ⟨published, [⟨.drain 1, .republished 0 d⟩]⟩
      (.advance 0 .ackReplayed) =
        some ⟨{ published with deadLetters := {} }, [⟨.drain 1, .sweeping 0⟩]⟩ := by
    simp [Machine.step, BrokerTx.machine, BrokerTx.advance, published, MessageQueue.ack]
  refine ⟨{ published with deadLetters := {} }, ?_, rfl, rfl, rfl⟩
  refine .head ⟨.start (.drain 1), trivial, rfl⟩ ?_
  refine .head ⟨.advance 0 .get, fun _ _ => trivial, rfl⟩ ?_
  refine .head ⟨.advance 0 (.replay none true), fun _ _ => trivial, hreplay⟩ ?_
  refine .head ⟨.advance 0 .ackReplayed, fun _ _ => trivial, hack⟩ ?_
  exact .single ⟨.advance 0 .get, fun _ _ => trivial, rfl⟩

/-- A sweep replays the message with its deaths wiped out, so it can die again. -/
theorem poison_message_cycles {message m : Message} {count : ℤ} (s : BrokerStore)
    (hdlq : s.deadLetters = {}) (hprimary : s.primary = ⟨[m], []⟩) (htag : m.tag = message.tag)
    (hcount : getDeathCount m.headers = some count) (hmax : count < maxDeathCount) (n : ℕ) :
    ∃ s', Runs.Reaches BrokerTx.machine.step (OnSession (Poison message)) ⟨s, []⟩ ⟨s', []⟩ ∧
      s'.replays = s.replays ++ List.replicate n message.tag := by
  induction n generalizing s m count with
  | zero => exact ⟨s, .refl, by simp⟩
  | succ n ih =>
    obtain ⟨reason, hdies⟩ := @message_dies _ message m s hdlq hprimary
    obtain ⟨s₁, hreplayed, hprimary₁, hdlq₁, hreplays⟩ := @dead_message_replayed _
      message _ _ (s.died m reason) rfl rfl (Broker.deathCount_deadLettered hcount) (by omega)
    obtain ⟨s₂, hmore, hreplays₂⟩ := ih s₁ hdlq₁ hprimary₁ htag
      (getDeathCount_cleanHeaders _) (by decide)
    refine ⟨s₂, hdies.trans (hreplayed.trans hmore), ?_⟩
    have hfirst : s₁.replays = s.replays ++ [message.tag] := htag ▸ hreplays
    rw [hreplays₂, hfirst, List.append_assoc, List.replicate_succ, List.singleton_append]

/-- The sweep bounds the replays of a message that always fails exactly where the message
comes with enough deaths already. Whatever arrives in the dead-letter queue leaves it only
republished or discarded. -/
theorem poison_message_bounded_iff {message : Message} {count : ℤ}
    (hcount : getDeathCount message.headers = some count) :
    ((∀ sys, Runs.Reaches BrokerTx.machine.step (OnSession (Poison message)) ⟨{}, []⟩ sys →
        (sys.store.replays.count message.tag : ℤ) ≤ maxDeathCount) ↔ maxDeathCount ≤ count) ∧
    (count < maxDeathCount → ∀ n, ∃ sys,
      Runs.Reaches BrokerTx.machine.step (OnSession (Poison message)) ⟨{}, []⟩ sys ∧
        sys.store.replays.count message.tag = n) ∧
    ∀ sys, Runs.Reaches BrokerTx.machine.step Runs.always ⟨{}, []⟩ sys →
      ∀ serial < sys.store.deaths,
        (∃ d ∈ sys.store.deadLetters, d.serial = serial) ∨ serial ∈ sys.store.republished ∨
          ∃ d ∈ sys.store.discarded, d.serial = serial ∧
            ∃ died, getDeathCount d.headers = some died ∧ maxDeathCount < died := by
  have hunbounded : count < maxDeathCount → ∀ n, ∃ sys,
      Runs.Reaches BrokerTx.machine.step (OnSession (Poison message)) ⟨{}, []⟩ sys ∧
        sys.store.replays.count message.tag = n := by
    intro hmax n
    have hpublish : Runs.Reaches BrokerTx.machine.step (OnSession (Poison message)) ⟨{}, []⟩
        ⟨{ primary := ⟨[message], []⟩ }, []⟩ := by
      refine .head ⟨.start (.publish message), trivial, rfl⟩ ?_
      refine .single ⟨.advance 0 .publish, ?_, rfl⟩
      rintro t ⟨⟩ other ⟨⟩ _
      rfl
    obtain ⟨s, hcycles, hreplays⟩ := poison_message_cycles
      ({ primary := ⟨[message], []⟩ } : BrokerStore) rfl rfl rfl hcount hmax n
    refine ⟨⟨s, []⟩, hpublish.trans hcycles, ?_⟩
    show s.replays.count message.tag = n
    rw [hreplays, List.nil_append, List.count_replicate_self]
  refine ⟨⟨?_, ?_⟩, hunbounded, ?_⟩
  · intro hbounded
    by_contra hmax
    obtain ⟨sys, hrun, hreplays⟩ := hunbounded (by omega) 4
    have hfour := hbounded sys hrun
    rw [hreplays] at hfour
    exact absurd hfour (by decide)
  · intro hmax sys hrun
    have hempty : Holds (Unreplayed message.tag) (fun _ t => BrokerTx.HoldsDied message.tag t)
        (fun _ _ => True) (⟨{}, []⟩ : BrokerSystem) := by
      refine ⟨⟨?_, ?_, by simp⟩, by simp, .nil⟩
      · exact fun m hm => absurd hm MessageQueue.not_mem_empty
      · exact fun d hd => absurd hd MessageQueue.not_mem_empty
    have hlast := (BrokerTx.secure_unreplayed hcount hmax).run hrun hempty
    rw [List.count_eq_zero_of_not_mem hlast.store.replays]
    decide
  · intro sys hrun serial hserial
    have hempty : Holds Accounted BrokerTx.Republished (fun _ _ => True)
        (⟨{}, []⟩ : BrokerSystem) := by
      refine ⟨⟨?_, by simp⟩, by simp, .nil⟩
      intro serial hlt
      exact absurd hlt (Nat.not_lt_zero serial)
    have hlast := BrokerTx.secure_accounted.run_always hrun hempty
    rcases hlast.store.arrived serial hserial with hin | hdone | ⟨d, hd, heq⟩
    · exact .inl hin
    · exact .inr (.inl hdone)
    · exact .inr (.inr ⟨d, hd, heq, hlast.store.deliberate d hd⟩)

end

/-! A body that is no JSON. -/

def recordedDeaths (headers : Headers) : List (Option (List (String × HeaderLeaf))) :=
  match headers.lookup "x-death" with
  | some (.array items) => items
  | _ => []

theorem getDeathCount_eq (headers : Headers) : getDeathCount headers =
    ((recordedDeaths headers).reduceOption.mapM entryCount).map List.sum := by
  unfold getDeathCount recordedDeaths
  split <;> rename_i heq <;> simp [heq]

/-- A broker that writes an entry of its own for each death. -/
@[reducible] def Broker.plain : Broker where
  deadLettered queue reason headers :=
    ("x-death", .array (some [("queue", .text queue), ("reason", .text reason), ("count", .long 1)] ::
      recordedDeaths headers)) :: cleanHeaders headers
  deathCount_deadLettered := by
    intro queue reason headers count hcount
    rw [getDeathCount_eq, Option.map_eq_some_iff] at hcount
    obtain ⟨counts, hcounts, rfl⟩ := hcount
    have hentry : entryCount [("queue", .text queue), ("reason", .text reason),
        ("count", .long 1)] = some 1 := rfl
    simp [getDeathCount, List.reduceOption_cons_of_some, hcounts, hentry, add_comm]

def malformedMessage : Message where
  tag := 1
  body := .malformed
  headers := []

theorem malformedMessage_replayed_hundred_times :
    letI := Broker.plain
    ∃ sys,
      Runs.Reaches BrokerTx.machine.step (OnSession (Poison malformedMessage)) ⟨{}, []⟩ sys ∧
        sys.store.replays.count 1 = 100 := by
  let := Broker.plain
  have hcount : getDeathCount malformedMessage.headers = some 0 := rfl
  exact (poison_message_bounded_iff hcount).2.1 (by decide) 100

def refuseAndSweep : List (Sessions.Action BrokerRequest BrokerAction) :=
  [.start .consumer, .advance 0 .consume, .advance 0 (.process ⟨some false, .failed⟩),
    .advance 0 .crash, .start (.drain 100), .advance 0 .get, .advance 0 (.replay none true),
    .advance 0 .ackReplayed, .advance 0 .get]

theorem malformedMessage_replayed_five_times :
    letI := Broker.plain
    (∀ attempt, processMessage malformedMessage.body attempt = .nack) ∧
      ∃ sys, Runs.Reaches BrokerTx.machine.step Runs.always ⟨{}, []⟩ sys ∧
        (sys.store.replays, sys.store.discarded) = ([1, 1, 1, 1, 1], []) := by
  let := Broker.plain
  have hreplay : (Runs.replay BrokerTx.machine.step Runs.always (⟨{}, []⟩ : BrokerSystem)
      ([.start (.publish malformedMessage), .advance 0 .publish] ++
        (List.replicate 5 refuseAndSweep).flatten)).map
          (fun sys => (sys.store.replays, sys.store.discarded)) = some ([1, 1, 1, 1, 1], []) := by
    decide +kernel
  exact ⟨fun _ => rfl, Runs.replay_map_reaches hreplay⟩

end Finguard
