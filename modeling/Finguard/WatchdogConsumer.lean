import Finguard.DeadLetterSweep
import Finguard.Lib.Scan
import Finguard.PythonValues

/-! The watchdog consumer and the bodies that it is delivered. -/

namespace Finguard
namespace WatchdogConsumer

inductive Reply where
  | ack
  | nack
deriving DecidableEq

/-- What Redis and the watchdog do while a message is processed. -/
structure Circumstances where
  check : Option PyException
  analyse : String → String → Number → Except PyException Unit
  mark : Option PyException

/-- `processed` are the expenses that are marked in Redis. -/
structure Delivery where
  replies : List Reply := []
  escaped : Option PyException := none
  completed : Bool := false
  processed : List String

section
variable [PythonJson] (c : Circumstances) (processed : List String)

def isProcessed (expenseId : String) : Except PyException Bool :=
  match c.check with
  | some exc => .error exc
  | none => .ok (decide (expenseId ∈ processed))

def markProcessed (expenseId : String) : Except PyException (List String) :=
  match c.mark with
  | some exc => .error exc
  | none => .ok (expenseId :: processed)

/-- The fields of a body, and the expense that it is about. -/
def readBody (value : PyValue) : Except PyException (PyFields × String) := do
  let body ← value.asDict
  let payload ← (dictGet body "payload" (.object [])).asDict
  let expenseId ← PythonJson.str (dictGet payload "expense_id" (.text ""))
  return (body, expenseId)

def handleExpenseCreated (body : PyFields) : Except PyException Unit := do
  let payload ← (dictGet body "payload" (.object [])).asDict
  let expenseId ← PythonJson.str (dictGet payload "expense_id" (.text "unknown"))
  let smeId ← PythonJson.str (dictGet payload "sme_id" (.text ""))
  let amount ← PythonJson.float (dictGet payload "amount" (.float (.finite 0)))
  c.analyse expenseId smeId amount

/-- What the handlers around the analysis make of an exception. -/
def recover (delivery : Delivery) (exc : PyException) : Delivery :=
  if exc.isException then { delivery with replies := [.nack] }
  else { delivery with escaped := some exc }

def process (body : PyFields) (expenseId : String) : Delivery :=
  match handleExpenseCreated c body with
  | .error exc => recover { processed } exc
  | .ok () =>
    match markProcessed c processed expenseId with
    | .error exc => recover { processed, completed := true } exc
    | .ok marked => { replies := [.ack], completed := true, processed := marked }

def processMessage (body : List UInt8) : Delivery :=
  match PythonJson.loads body with
  | .error .jsonDecodeError => { replies := [.nack], processed }
  | .error exc => { escaped := some exc, processed }
  | .ok value =>
    match readBody value with
    | .error exc => { escaped := some exc, processed }
    | .ok (fields, expenseId) =>
      if expenseId = "" then { replies := [.nack], processed }
      else
        match isProcessed c processed expenseId with
        | .error exc => { escaped := some exc, processed }
        | .ok true => { replies := [.ack], processed }
        | .ok false => process c processed fields expenseId

end

/-- The loop over the queue. It ends where an exception escapes. -/
def runConsumer [PythonJson] : List String → List (Circumstances × List UInt8) → List Delivery
  | _, [] => []
  | processed, (c, body) :: messages =>
    let delivery := processMessage c processed body
    delivery ::
      if delivery.escaped.isNone then runConsumer delivery.processed messages else []

section
variable [PythonJson] {c : Circumstances} {processed : List String} {body : List UInt8}
  {value : PyValue} {fields : PyFields} {expenseId : String}
  {messages : List (Circumstances × List UInt8)}

/-- Nothing is cancelled. -/
structure Circumstances.Uncancelled (c : Circumstances) : Prop where
  check : ∀ exc ∈ c.check, exc.isException
  analyse : ∀ {expenseId smeId amount exc}, c.analyse expenseId smeId amount = .error exc →
    exc.isException
  mark : ∀ exc ∈ c.mark, exc.isException

def IsFor (body : List UInt8) (expenseId : String) : Prop :=
  ∃ value fields, PythonJson.loads body = .ok value ∧ readBody value = .ok (fields, expenseId)

/-- The message has one reply and leaves the loop alone, and an acknowledgement is due. -/
structure Survived (c : Circumstances) (processed : List String) (body : List UInt8) : Prop where
  settled : (processMessage c processed body).replies.length = 1
  quiet : (processMessage c processed body).escaped = none
  due : .ack ∈ (processMessage c processed body).replies → ∃ expenseId, IsFor body expenseId ∧
    (expenseId ∈ processed ∨ (processMessage c processed body).completed = true ∧
      expenseId ∈ (processMessage c processed body).processed)

/-- Where the body is decoded, it is an object with an object for its payload, and the check
answers for the expense. -/
def Guarded (c : Circumstances) (body : List UInt8) : Prop :=
  PythonJson.loads body = .error .jsonDecodeError ∨
    ∃ fields payload expenseId, PythonJson.loads body = .ok (.object fields) ∧
      dictGet fields "payload" (.object []) = .object payload ∧
      PythonJson.str (dictGet payload "expense_id" (.text "")) = .ok expenseId ∧
      (expenseId = "" ∨ c.check = none)

theorem readBody_eq_ok : readBody value = .ok (fields, expenseId) ↔
    value = .object fields ∧ ∃ payload, dictGet fields "payload" (.object []) = .object payload ∧
      PythonJson.str (dictGet payload "expense_id" (.text "")) = .ok expenseId := by
  simp only [readBody, Scan.bind_eq_ok, PyValue.asDict_eq_ok]
  constructor
  · rintro ⟨body, rfl, payload, hpayload, id, hid, h⟩
    cases h
    exact ⟨rfl, payload, hpayload, hid⟩
  · rintro ⟨rfl, payload, hpayload, hid⟩
    exact ⟨fields, rfl, payload, hpayload, expenseId, hid, rfl⟩

omit [PythonJson] in
theorem isException_of_asDict {exc : PyException} (h : value.asDict = .error exc) :
    exc.isException := by
  cases value <;> cases h <;> rfl

theorem handleExpenseCreated_isException (hc : c.Uncancelled) {exc : PyException}
    (h : handleExpenseCreated c fields = .error exc) : exc.isException := by
  simp only [handleExpenseCreated, Scan.bind_eq_error] at h
  rcases h with h | ⟨payload, -, h | ⟨expenseId, -, h | ⟨smeId, -, h | ⟨amount, -, h⟩⟩⟩⟩
  · exact isException_of_asDict h
  · exact PythonJson.str_isException h
  · exact PythonJson.str_isException h
  · exact PythonJson.float_isException h
  · exact hc.analyse h

theorem process_replies (hc : c.Uncancelled) (processed : List String) (fields : PyFields)
    (expenseId : String) :
    (process c processed fields expenseId).escaped = none ∧
      ((process c processed fields expenseId).replies = [.nack] ∨
        (process c processed fields expenseId).replies = [.ack] ∧
        (process c processed fields expenseId).completed = true ∧
        expenseId ∈ (process c processed fields expenseId).processed) := by
  unfold process
  cases hhandle : handleExpenseCreated c fields with
  | error exc =>
    simp [recover, handleExpenseCreated_isException hc hhandle]
  | ok _ =>
    cases hmark : c.mark with
    | some exc => simp [markProcessed, hmark, recover, hc.mark exc hmark]
    | none => simp [markProcessed, hmark]

omit [PythonJson] in
theorem isProcessed_eq (h : c.check = none) :
    isProcessed c processed expenseId = .ok (decide (expenseId ∈ processed)) := by
  rw [isProcessed, h]

theorem survived_of_read (hc : c.Uncancelled) (hloads : PythonJson.loads body = .ok value)
    (hread : readBody value = .ok (fields, expenseId)) :
    Survived c processed body ↔ expenseId = "" ∨ c.check = none := by
  have hmessage : processMessage c processed body =
      if expenseId = "" then { replies := [.nack], processed }
      else
        match isProcessed c processed expenseId with
        | .error exc => { escaped := some exc, processed }
        | .ok true => { replies := [.ack], processed }
        | .ok false => process c processed fields expenseId := by
    simp only [processMessage, hloads, hread]
  have hfor : IsFor body expenseId := ⟨value, fields, hloads, hread⟩
  by_cases hid : expenseId = ""
  · rw [if_pos hid] at hmessage
    refine iff_of_true ⟨?_, ?_, ?_⟩ (.inl hid) <;> simp [hmessage]
  · rw [if_neg hid] at hmessage
    simp only [hid, false_or]
    cases hcheck : c.check with
    | some exc =>
      have hraised : processMessage c processed body = { escaped := some exc, processed } := by
        rw [hmessage, isProcessed, hcheck]
      refine iff_of_false (fun h => ?_) (by simp)
      have hsettled := h.settled
      rw [hraised] at hsettled
      cases hsettled
    | none =>
      rw [isProcessed_eq hcheck] at hmessage
      refine iff_of_true ?_ rfl
      by_cases hdone : expenseId ∈ processed
      · simp only [decide_eq_true hdone] at hmessage
        refine ⟨by simp [hmessage], by simp [hmessage], fun _ => ⟨expenseId, hfor, .inl hdone⟩⟩
      · simp only [decide_eq_false hdone] at hmessage
        obtain ⟨hquiet, hreplies⟩ := process_replies hc processed fields expenseId
        rw [← hmessage] at hquiet hreplies
        rcases hreplies with hnack | ⟨hack, hcompleted, hmarked⟩
        · exact ⟨by simp [hnack], hquiet, by simp [hnack]⟩
        · exact ⟨by simp [hack], hquiet, fun _ => ⟨expenseId, hfor, .inr ⟨hcompleted, hmarked⟩⟩⟩

theorem not_survived_of_escaped {exc : PyException}
    (h : (processMessage c processed body).escaped = some exc) : ¬ Survived c processed body := by
  intro hsurvived
  have hquiet := hsurvived.quiet
  rw [h] at hquiet
  cases hquiet

theorem survived_iff (hc : c.Uncancelled) : Survived c processed body ↔ Guarded c body := by
  cases hloads : PythonJson.loads body with
  | error exc =>
    by_cases hmalformed : exc = .jsonDecodeError
    · subst hmalformed
      have hmessage : processMessage c processed body = { replies := [.nack], processed } := by
        simp only [processMessage, hloads]
      refine iff_of_true ⟨?_, ?_, ?_⟩ (.inl hloads) <;> simp [hmessage]
    · have hmessage : (processMessage c processed body).escaped = some exc := by
        cases exc with
        | jsonDecodeError => exact absurd rfl hmalformed
        | _ => simp only [processMessage, hloads]
      refine iff_of_false (not_survived_of_escaped hmessage) ?_
      rintro (h | ⟨fields, _, _, h, -⟩)
      · rw [hloads] at h
        exact hmalformed (Except.error.inj h)
      · rw [hloads] at h
        cases h
  | ok value =>
    cases hread : readBody value with
    | error exc =>
      have hmessage : (processMessage c processed body).escaped = some exc := by
        simp only [processMessage, hloads, hread]
      refine iff_of_false (not_survived_of_escaped hmessage) ?_
      rintro (h | ⟨fields, payload, expenseId, h, hpayload, hid, -⟩)
      · rw [hloads] at h
        cases h
      · rw [hloads] at h
        have hok := readBody_eq_ok.mpr ⟨Except.ok.inj h, payload, hpayload, hid⟩
        rw [hread] at hok
        cases hok
    | ok found =>
      obtain ⟨fields, expenseId⟩ := found
      rw [survived_of_read hc hloads hread]
      obtain ⟨rfl, payload, hpayload, hid⟩ := readBody_eq_ok.mp hread
      constructor
      · intro h
        exact .inr ⟨fields, payload, expenseId, hloads, hpayload, hid, h⟩
      · rintro (h | ⟨fields', payload', expenseId', h, hpayload', hid', hcheck⟩)
        · rw [hloads] at h
          cases h
        · rw [hloads] at h
          cases h
          rw [hpayload] at hpayload'
          cases hpayload'
          rw [hid] at hid'
          cases hid'
          exact hcheck

/-- What the next message finds in Redis. -/
def next (message : Circumstances × List UInt8) (processed : List String) : List String :=
  (processMessage message.1 processed message.2).processed

/-- The loop comes to the end of its messages. -/
def GoesOn (messages : List (Circumstances × List UInt8)) (processed : List String) : Prop :=
  (runConsumer processed messages).length = messages.length ∧
    Runs.Each next (fun processed message => Survived message.1 processed message.2) messages
      processed

theorem goesOn_cons {message : Circumstances × List UInt8} :
    GoesOn (message :: messages) processed ↔
      Survived message.1 processed message.2 ∧ GoesOn messages (next message processed) := by
  obtain ⟨c, body⟩ := message
  simp only [GoesOn, runConsumer, Runs.Each, List.length_cons]
  constructor
  · rintro ⟨hlength, hsurvived, heach⟩
    rw [hsurvived.quiet] at hlength
    exact ⟨hsurvived, Nat.succ.inj hlength, heach⟩
  · rintro ⟨hsurvived, hlength, heach⟩
    refine ⟨?_, hsurvived, heach⟩
    rw [hsurvived.quiet]
    exact congrArg Nat.succ hlength

theorem goesOn_iff (hc : ∀ message ∈ messages, message.1.Uncancelled) :
    GoesOn messages processed ↔ ∀ message ∈ messages, Guarded message.1 message.2 := by
  induction messages generalizing processed with
  | nil => exact iff_of_true ⟨rfl, trivial⟩ nofun
  | cons message messages ih =>
    rw [List.forall_mem_cons] at hc ⊢
    rw [goesOn_cons, survived_iff hc.1, ih hc.2]

/-! The bodies as the sweep of the dead letters tells them apart. -/

def Delivery.verdict (delivery : Delivery) : Verdict :=
  if delivery.escaped.isSome then .raised
  else if .ack ∈ delivery.replies then .ack else .nack

def bodyOf (body : List UInt8) : Body :=
  match PythonJson.loads body with
  | .error .jsonDecodeError => .malformed
  | .error _ => .undecodable
  | .ok value =>
    match readBody value with
    | .error _ => .notAnObject
    | .ok (_, expenseId) => .payload expenseId

def handlingOf (c : Circumstances) (processed : List String) (body : PyFields)
    (expenseId : String) : Handling :=
  match handleExpenseCreated c body >>= fun _ => markProcessed c processed expenseId with
  | .error exc => if exc.isException then .failed else .cancelled
  | .ok _ => .done

def attemptOf (c : Circumstances) (processed : List String) (body : List UInt8) : Attempt :=
  match PythonJson.loads body >>= readBody with
  | .error _ => ⟨none, .failed⟩
  | .ok (fields, expenseId) =>
    ⟨(isProcessed c processed expenseId).toOption, handlingOf c processed fields expenseId⟩

theorem verdict_process (hid : expenseId ≠ "") :
    (process c processed fields expenseId).verdict =
      Finguard.processMessage (.payload expenseId)
        ⟨some false, handlingOf c processed fields expenseId⟩ := by
  have hrecover : ∀ (delivery : Delivery) (exc : PyException), delivery.escaped = none →
      (recover delivery exc).verdict = if exc.isException then .nack else .raised := by
    intro delivery exc hquiet
    cases hcaught : exc.isException <;> simp [recover, Delivery.verdict, hcaught, hquiet]
  simp only [Finguard.processMessage, if_neg hid, process, handlingOf]
  cases hhandle : handleExpenseCreated c fields with
  | error exc =>
    rw [hrecover _ _ rfl]
    cases hcaught : exc.isException <;> simp [bind, Except.bind, hcaught]
  | ok _ =>
    cases hmark : markProcessed c processed expenseId with
    | error exc =>
      rw [hrecover _ _ rfl]
      cases hcaught : exc.isException <;> simp [bind, Except.bind, hcaught]
    | ok marked => simp [bind, Except.bind, Delivery.verdict]

/-- The sweep's consumer is this one, seen from outside. -/
theorem verdict_processMessage (c : Circumstances) (processed : List String) (body : List UInt8) :
    (processMessage c processed body).verdict =
      Finguard.processMessage (bodyOf body) (attemptOf c processed body) := by
  cases hloads : PythonJson.loads body with
  | error exc =>
    simp only [processMessage, bodyOf, hloads]
    cases exc <;> rfl
  | ok value =>
    cases hread : readBody value with
    | error exc =>
      simp only [processMessage, bodyOf, hloads, hread]
      rfl
    | ok found =>
      obtain ⟨fields, expenseId⟩ := found
      have hattempt : attemptOf c processed body =
          ⟨(isProcessed c processed expenseId).toOption,
            handlingOf c processed fields expenseId⟩ := by
        simp only [attemptOf, hloads, bind, Except.bind, hread]
      simp only [hattempt, processMessage, bodyOf, hloads, hread]
      by_cases hid : expenseId = ""
      · rw [if_pos hid, hid]
        rfl
      · rw [if_neg hid]
        cases hcheck : c.check with
        | some exc =>
          simp only [isProcessed, hcheck, Finguard.processMessage, if_neg hid]
          rfl
        | none =>
          rw [isProcessed_eq hcheck]
          by_cases hdone : expenseId ∈ processed
          · simp only [decide_eq_true hdone, Finguard.processMessage, if_neg hid]
            rfl
          · simp only [decide_eq_false hdone]
            exact verdict_process hid

end

end WatchdogConsumer

open WatchdogConsumer in
/-- The consumer comes to the end of its messages, each with one reply, if and only if each of
them can be read as far as its expense and the check answers for it. -/
theorem consumer_survives_iff [PythonJson] {processed : List String}
    {messages : List (Circumstances × List UInt8)}
    (hc : ∀ message ∈ messages, message.1.Uncancelled) :
    GoesOn messages processed ↔
      ∀ message ∈ messages, WatchdogConsumer.Guarded message.1 message.2 :=
  goesOn_iff hc

/-! An expense of a message, and a message that is no object. -/

namespace WatchdogConsumer

def calm : Circumstances := ⟨none, fun _ _ _ => .ok (), none⟩

theorem calm_uncancelled : calm.Uncancelled := ⟨nofun, nofun, nofun⟩

def expenseText : String := "\x7b\"payload\": \x7b\"expense_id\": \"e1\", \"amount\": 5\x7d\x7d"

def expenseValue : PyValue :=
  .object [("payload", .object [("expense_id", .text "e1"), ("amount", .int 5)])]

end WatchdogConsumer

open WatchdogConsumer

theorem expense_survives :
    letI := PythonJson.knowing [(expenseText, expenseValue)]
    GoesOn [(calm, asciiBytes "payload"), (calm, asciiBytes expenseText)] [] := by
  let := PythonJson.knowing [(expenseText, expenseValue)]
  have hcalm : ∀ message ∈ [(calm, asciiBytes "payload"), (calm, asciiBytes expenseText)],
      message.1.Uncancelled := by
    simp [calm_uncancelled]
  refine (consumer_survives_iff hcalm).mpr ?_
  rw [List.forall_mem_cons, List.forall_mem_cons]
  refine ⟨.inl ?_, .inr ?_, nofun⟩
  · rfl
  · exact ⟨_, _, "e1", rfl, rfl, rfl, .inr rfl⟩

/-- The array is neither acknowledged nor rejected, and the expense behind it is not read. -/
theorem array_ends_consumer :
    letI := PythonJson.knowing [("[]", .array []), (expenseText, expenseValue)]
    (WatchdogConsumer.processMessage calm [] (asciiBytes "[]")).replies = [] ∧
      (WatchdogConsumer.processMessage calm [] (asciiBytes "[]")).escaped =
        some .attributeError ∧
      ¬ GoesOn [(calm, asciiBytes "[]"), (calm, asciiBytes expenseText)] [] := by
  let := PythonJson.knowing [("[]", .array []), (expenseText, expenseValue)]
  have hescaped : (WatchdogConsumer.processMessage calm [] (asciiBytes "[]")).escaped =
      some .attributeError := rfl
  refine ⟨rfl, hescaped, fun h => ?_⟩
  exact not_survived_of_escaped hescaped (goesOn_cons.mp h).1

end Finguard
