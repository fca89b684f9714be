import Finguard.Invoicing
import Finguard.Lib.Lookup
import Finguard.Lib.Runs

/-! Payment callbacks: how one is read, and what it leaves behind however often it is sent. -/

namespace Finguard
open Decimal Lookup Runs Text Transaction Transaction.Tx

def Number.isFinite : Number → Bool
  | .finite _ => true
  | _ => false

def Number.isNonPositive? : Number → Option Bool
  | .finite q => some (q ≤ 0)
  | .infinite negative => some negative
  | .nan => none

/-- A JSON value as Python reads it: whole numbers are kept apart from floats, which need not be
finite. -/
inductive PyValue where
  | null
  | bool (b : Bool)
  | int (n : ℤ)
  | float (x : Number)
  | text (s : String)
  | array (items : List PyValue)
  | object (fields : List (String × PyValue))

abbrev PyFields := List (String × PyValue)

mutual

/-- What a JSON column takes: no float in it may be infinite or no number. -/
def PyValue.storable : PyValue → Bool
  | .float x => x.isFinite
  | .array items => itemsStorable items
  | .object fields => fieldsStorable fields
  | _ => true

def itemsStorable : List PyValue → Bool
  | [] => true
  | item :: items => item.storable && itemsStorable items

def fieldsStorable : List (String × PyValue) → Bool
  | [] => true
  | (_, value) :: fields => value.storable && fieldsStorable fields

end

inductive MetadataValue where
  | text (s : String)
  | int (n : ℤ)
  | float (x : Number)
deriving DecidableEq

structure MpesaCallbackItem where
  name : String
  value : Option MetadataValue

structure MpesaStkCallback where
  merchantRequestId : String
  checkoutRequestId : String
  resultCode : ℤ
  resultDesc : String
  items : List MpesaCallbackItem

/-- What the validation library and Python's conversions make of values. A float is the decimal
that it prints as. -/
class CallbackText where
  intOfText : String → Option ℤ
  intOfFloat : Number → Option ℤ
  errorCount : PyFields → ℕ
  strFloat : Number → String
  repr : MetadataValue → String
  decimal : String → Option Number
  strDecimal : Number → String

def MetadataValue.truthy : MetadataValue → Bool
  | .text s => s ≠ ""
  | .int n => n ≠ 0
  | .float x => !x.isZero

def metadataValue? : PyValue → Option (Option MetadataValue)
  | .null => some none
  | .bool b => some (some (.int (if b then 1 else 0)))
  | .int n => some (some (.int n))
  | .float x => some (some (.float x))
  | .text s => some (some (.text s))
  | _ => none

def textField? (fields : PyFields) (name : String) : Option String :=
  match fields.lookup name with
  | some (.text s) => some s
  | _ => none

def callbackItem? : PyValue → Option MpesaCallbackItem
  | .object fields => do
    let name ← textField? fields "Name"
    let value ← metadataValue? ((fields.lookup "Value").getD .null)
    return ⟨name, value⟩
  | _ => none

/-- Missing metadata reads as metadata without items. -/
def callbackItems? : PyValue → Option (List MpesaCallbackItem)
  | .null => some []
  | .object fields =>
    match fields.lookup "Item" with
    | none => some []
    | some (.array items) => items.mapM callbackItem?
    | some _ => none
  | _ => none

/-- The last item of a name counts. -/
def MpesaStkCallback.item? (stk : MpesaStkCallback) (name : String) : Option MetadataValue :=
  (stk.items.reverse.find? (·.name = name)).bind (·.value)

/-- A text column of bounded length. Blanks beyond the bound are cut off, and no text may hold a
NUL. -/
def hasNul (s : String) : Bool := s.toList.contains (Char.ofNat 0)

def varchar? (limit : ℕ) (s : String) : Option String :=
  if hasNul s then none
  else if s.toList.length ≤ limit then some s
  else if (s.toList.drop limit).all (· = ' ') then some (String.ofList (s.toList.take limit))
  else none

theorem length_of_varchar? {limit : ℕ} {s stored : String} (h : varchar? limit s = some stored) :
    stored.toList.length ≤ limit := by
  unfold varchar? at h
  split at h
  · cases h
  · split at h
    · obtain rfl := Option.some.inj h
      assumption
    · split at h
      · obtain rfl := Option.some.inj h
        simp
      · cases h

theorem varchar?_of_length_le {limit : ℕ} {s stored : String} (h : varchar? limit s = some stored)
    (hs : s.toList.length ≤ limit) : stored = s := by
  unfold varchar? at h
  split at h
  · cases h
  · exact (Option.some.inj h).symm

/-- An amount column overflows where it is given an infinite number. -/
def settledAmount? : Number → Option SettledAmount
  | .finite q => Numeric.store? 15 2 q
  | _ => none

/-- The metadata that a payment always carries. -/
structure PaymentMetadata where
  receipt : MetadataValue
  amount : MetadataValue
  phone : MetadataValue
  checkoutRequestId : String
deriving DecidableEq

section
variable [CallbackText]

def MetadataValue.str : MetadataValue → String
  | .text s => s
  | .int n => toString n
  | .float x => CallbackText.strFloat x

def intField? (fields : PyFields) (name : String) : Option ℤ :=
  match fields.lookup name with
  | some (.int n) => some n
  | some (.bool b) => some (if b then 1 else 0)
  | some (.float x) => CallbackText.intOfFloat x
  | some (.text s) => CallbackText.intOfText s
  | _ => none

def MpesaStkCallback.validate? (fields : PyFields) : Option MpesaStkCallback := do
  let merchantRequestId ← textField? fields "MerchantRequestID"
  let checkoutRequestId ← textField? fields "CheckoutRequestID"
  let resultCode ← intField? fields "ResultCode"
  let resultDesc ← textField? fields "ResultDesc"
  let items ← callbackItems? ((fields.lookup "CallbackMetadata").getD .null)
  return ⟨merchantRequestId, checkoutRequestId, resultCode, resultDesc, items⟩

/-- The envelope of a callback. -/
def stkCallback (body : PyFields) : Except ServiceError MpesaStkCallback :=
  match body.lookup "stkCallback" with
  | some (.object fields) =>
    match MpesaStkCallback.validate? fields with
    | some stk => .ok stk
    | none => .error (.unprocessable ("Malformed M-Pesa stkCallback: " ++
        toString (CallbackText.errorCount fields) ++ " validation error(s)"))
  | _ => .error (.unprocessable "Malformed M-Pesa callback: missing 'stkCallback' object")

/-- What a successful callback carries, or nothing for one of a payment that failed. -/
def paymentMetadata (body : PyFields) : Except ServiceError (Option PaymentMetadata) := do
  let stk ← stkCallback body
  if stk.resultCode ≠ 0 then return none
  match (stk.item? "MpesaReceiptNumber").filter (·.truthy), stk.item? "Amount",
    (stk.item? "PhoneNumber").filter (·.truthy) with
  | some receipt, some amount, some phone =>
    return some ⟨receipt, amount, phone, stk.checkoutRequestId⟩
  | _, _, _ => .error (.unprocessable ("Successful M-Pesa callback missing required metadata " ++
      "(MpesaReceiptNumber, Amount, or PhoneNumber)"))

/-- A new row, and the time at which it is made. -/
structure CallbackStamp where
  id : Uuid
  now : DateTime

def createMpesaTransaction (body : PyFields) (data : PaymentMetadata) (amount : Number)
    (stamp : CallbackStamp) (db : Db) : Option Db := do
  let transId ← varchar? 50 data.receipt.str
  let stored ← settledAmount? amount
  let phone ← varchar? 20 data.phone.str
  let billRef ← varchar? 100 data.checkoutRequestId
  guard (PyValue.object body).storable
  let mpesaTransactions ← db.mpesaTransactions.insert?
    ⟨stamp.id, transId, stored, phone, some billRef, .mpesa, false, stamp.now⟩
  return { db with mpesaTransactions }

def MpesaTransaction.reconciledEvent (txn : MpesaTransaction) : OutboxEvent where
  exchange := "finguard.events"
  routingKey := "mpesa.reconciled"
  payload := .mpesaReconciled txn.transId txn.amount.val txn.phone txn.billRef txn.vault

/-- The row with the receipt, an old one if there is one. -/
def recordMpesaTransaction (body : PyFields) (data : PaymentMetadata) (amount : Number)
    (stamp : CallbackStamp) : AppTx (Option MpesaTransaction) := do
  site .getMpesaByTransId
  write .database fun db => if hasNul data.receipt.str then none else some db
  let existing ← read (·.mpesaTransactions.find? (·.transId = data.receipt.str))
  match existing with
  | some txn => return some txn
  | none => do
    flush .createMpesaTransaction .database (createMpesaTransaction body data amount stamp)
    let txn ← read (·.mpesaTransactions.find? (·.id = stamp.id))
    assign fun db => { db with outboxEvents := db.outboxEvents ++ (txn.map (·.reconciledEvent)).toList }
    commit
    return txn

/-- The payment that a callback reports, or nothing for one that failed. -/
def callbackPayment (body : PyFields) : Except ServiceError (Option (PaymentMetadata × Number)) := do
  match ← paymentMetadata body with
  | none => return none
  | some data =>
    match CallbackText.decimal data.amount.str with
    | none => .error (.unprocessable
        ("M-Pesa callback has non-numeric Amount: " ++ CallbackText.repr data.amount))
    | some amount =>
      match amount.isNonPositive? with
      | none => .error .invalidOperation
      | some true => .error (.unprocessable
          ("M-Pesa callback Amount must be positive, got " ++ CallbackText.strDecimal amount))
      | some false => return some (data, amount)

def processMpesaCallback (body : PyFields) (stamp : CallbackStamp) :
    AppTx (Option MpesaTransaction) :=
  match callbackPayment body with
  | .error e => raise e
  | .ok none => pure none
  | .ok (some (data, amount)) => recordMpesaTransaction body data amount stamp

/-- A comparison of no number with zero is an invalid operation, and nothing else goes wrong while a
callback is read. -/
def NoNumber (body : PyFields) : Prop :=
  ∃ data, paymentMetadata body = .ok (some data) ∧ CallbackText.decimal data.amount.str = some .nan

section read
variable {body : PyFields} {data : PaymentMetadata} {amount : Number} {e : ServiceError}

omit [CallbackText] in
theorem isNonPositive?_eq_none {x : Number} : x.isNonPositive? = none ↔ x = .nan := by
  cases x <;> simp [Number.isNonPositive?]

theorem unprocessable_of_stkCallback (h : stkCallback body = .error e) :
    ∃ message, e = .unprocessable message := by
  unfold stkCallback at h
  split at h
  · split at h
    · cases h
    · exact ⟨_, (Except.error.inj h).symm⟩
  · exact ⟨_, (Except.error.inj h).symm⟩

theorem unprocessable_of_paymentMetadata (h : paymentMetadata body = .error e) :
    ∃ message, e = .unprocessable message := by
  unfold paymentMetadata at h
  cases hstk : stkCallback body with
  | error e' =>
    rw [hstk] at h
    obtain rfl := Except.error.inj h
    exact unprocessable_of_stkCallback hstk
  | ok stk =>
    rw [hstk] at h
    by_cases hcode : stk.resultCode ≠ 0
    · simp [hcode, bind, Except.bind, pure, Except.pure] at h
    · simp only [bind, Except.bind, if_neg hcode] at h
      split at h
      · cases h
      · exact ⟨_, (Except.error.inj h).symm⟩

theorem ignored_of_paymentMetadata (h : paymentMetadata body = .ok none) :
    ∃ stk, stkCallback body = .ok stk ∧ stk.resultCode ≠ 0 := by
  unfold paymentMetadata at h
  cases hstk : stkCallback body with
  | error e' =>
    rw [hstk] at h
    cases h
  | ok stk =>
    rw [hstk] at h
    by_cases hcode : stk.resultCode ≠ 0
    · exact ⟨stk, rfl, hcode⟩
    · simp only [bind, Except.bind, if_neg hcode] at h
      split at h <;> cases h

theorem callbackPayment_of_noNumber (h : NoNumber body) :
    callbackPayment body = .error .invalidOperation := by
  obtain ⟨data, hmeta, hamount⟩ := h
  simp [callbackPayment, hmeta, hamount, bind, Except.bind, Number.isNonPositive?]

theorem callbackPayment_cases (body : PyFields) :
    (∃ message, callbackPayment body = .error (.unprocessable message)) ∨
      NoNumber body ∨
      (callbackPayment body = .ok none ∧ ∃ stk, stkCallback body = .ok stk ∧ stk.resultCode ≠ 0) ∨
      ∃ data amount, callbackPayment body = .ok (some (data, amount)) ∧
        amount.isNonPositive? = some false := by
  cases hmeta : paymentMetadata body with
  | error e =>
    obtain ⟨message, rfl⟩ := unprocessable_of_paymentMetadata hmeta
    exact .inl ⟨message, by rw [callbackPayment, hmeta]; rfl⟩
  | ok data? =>
    cases data? with
    | none =>
      exact .inr (.inr (.inl ⟨by rw [callbackPayment, hmeta]; rfl, ignored_of_paymentMetadata hmeta⟩))
    | some data =>
      cases hamount : CallbackText.decimal data.amount.str with
      | none => exact .inl ⟨_, by simp [callbackPayment, hmeta, hamount, bind, Except.bind]; rfl⟩
      | some amount =>
        rcases hsign : amount.isNonPositive? with _ | _ | _
        · obtain rfl := isNonPositive?_eq_none.mp hsign
          exact .inr (.inl ⟨data, hmeta, hamount⟩)
        · refine .inr (.inr (.inr ⟨data, amount, ?_, hsign⟩))
          simp [callbackPayment, hmeta, hamount, hsign, bind, Except.bind]
          rfl
        · exact .inl ⟨_, by simp [callbackPayment, hmeta, hamount, hsign, bind, Except.bind]; rfl⟩

end read

/-- A transaction with a receipt and a positive amount. -/
def MpesaTransaction.Sound (txn : MpesaTransaction) : Prop :=
  strip txn.transId ≠ "" ∧ 0 < txn.amount.val

/-- The store gains the transaction and its event, and nothing else about it changes. -/
def Records (db db' : Db) (txn : MpesaTransaction) : Prop :=
  db'.mpesaTransactions.rows = db.mpesaTransactions.rows ++ [txn] ∧
    db' = { db with
      mpesaTransactions := db'.mpesaTransactions
      outboxEvents := db.outboxEvents ++ [txn.reconciledEvent] }

/-- What handling a callback may come to. -/
inductive Handled (body : PyFields) (db : Db) :
    Outcome Db ServiceError (Option MpesaTransaction) → Prop
  | ignored {stk : MpesaStkCallback} (hstk : stkCallback body = .ok stk)
      (hcode : stk.resultCode ≠ 0) : Handled body db (.ok none db)
  | rejected (message : String) : Handled body db (.raised (.unprocessable message) db)
  | known {data : PaymentMetadata} {amount : Number} {txn : MpesaTransaction}
      (hpayment : callbackPayment body = .ok (some (data, amount)))
      (hmem : txn ∈ db.mpesaTransactions.rows) (hid : txn.transId = data.receipt.str)
      (hsound : txn.Sound) : Handled body db (.ok (some txn) db)
  | recorded {data : PaymentMetadata} {amount : Number} {txn : MpesaTransaction} {db' : Db}
      (hpayment : callbackPayment body = .ok (some (data, amount)))
      (hrecords : Records db db' txn) (hid : txn.transId = data.receipt.str)
      (hsound : txn.Sound) : Handled body db (.ok (some txn) db')

/-- A payment that the table holds as it was sent, but for the rounding of an amount that it does not
round to zero. -/
structure Fits (body : PyFields) (data : PaymentMetadata) (amount : Number) : Prop where
  receipt : data.receipt.str.toList.length ≤ 50
  named : strip data.receipt.str ≠ ""
  stored : ∃ q, amount = .finite q ∧ 1 / 200 ≤ q ∧ q < 10 ^ 13 - 1 / 200
  phone : (varchar? 20 data.phone.str).isSome
  billRef : (varchar? 100 data.checkoutRequestId).isSome
  payload : (PyValue.object body).storable

/-- The amount is a number, and the receipt is that of a sound transaction, or of none while the
payment fits. -/
def Acceptable (body : PyFields) (db : Db) : Prop :=
  ¬ NoNumber body ∧ ∀ data amount, callbackPayment body = .ok (some (data, amount)) →
    hasNul data.receipt.str = false ∧
      ((∃ txn ∈ db.mpesaTransactions.rows, txn.transId = data.receipt.str ∧ txn.Sound) ∨
        (∀ txn ∈ db.mpesaTransactions.rows, txn.transId ≠ data.receipt.str) ∧ Fits body data amount)

/-- The store after each of a number of deliveries of one body. -/
def delivered (body : PyFields) (stamps : ℕ → CallbackStamp) (db : Db) : ℕ → Db :=
  along (fun stamp => (processMpesaCallback body stamp).committed noFaults) stamps db

section record
variable {body : PyFields} {data : PaymentMetadata} {amount : Number} {stamp : CallbackStamp}
  {db db' : Db} {txn : MpesaTransaction}

omit [CallbackText] in
theorem find?_transId_eq_some {transId : String} :
    db.mpesaTransactions.find? (·.transId = transId) = some txn ↔
      txn ∈ db.mpesaTransactions.rows ∧ txn.transId = transId := by
  rw [Table.find?_eq_some_iff]
  · rw [decide_eq_true_iff]
  · intro a b ha hb
    rw [decide_eq_true_iff] at ha hb
    simp [Row.clash, ha, hb]

theorem recordMpesaTransaction_known (hnul : hasNul data.receipt.str = false)
    (hmem : txn ∈ db.mpesaTransactions.rows) (hid : txn.transId = data.receipt.str) :
    recordMpesaTransaction body data amount stamp noFaults db = .ok (some txn) db := by
  have hfind := find?_transId_eq_some.mpr ⟨hmem, hid⟩
  simp [recordMpesaTransaction, bind_apply, site, write, noFaults, hnul, hfind]

theorem recordMpesaTransaction_refused (hnul : hasNul data.receipt.str = true) :
    recordMpesaTransaction body data amount stamp noFaults db = .aborted .database := by
  simp [recordMpesaTransaction, bind_apply, site, write, noFaults, hnul]

theorem recordMpesaTransaction_new (hnul : hasNul data.receipt.str = false)
    (hnew : ∀ txn ∈ db.mpesaTransactions.rows, txn.transId ≠ data.receipt.str) :
    recordMpesaTransaction body data amount stamp noFaults db =
      match createMpesaTransaction body data amount stamp db with
      | none => .aborted .database
      | some db' =>
        let txn := db'.mpesaTransactions.find? (·.id = stamp.id)
        .ok txn { db' with
          outboxEvents := db'.outboxEvents ++ (txn.map (·.reconciledEvent)).toList } := by
  have hfind : db.mpesaTransactions.find? (·.transId = data.receipt.str) = none := by
    rw [Table.find?, List.find?_eq_none]
    simpa using hnew
  cases hcreate : createMpesaTransaction body data amount stamp db <;>
    simp [recordMpesaTransaction, bind_apply, site, write, flush, commit, noFaults, hnul, hfind,
      hcreate]

/-- What of a payment reaches the table. -/
structure Stored (body : PyFields) (data : PaymentMetadata) (amount : Number)
    (txn : MpesaTransaction) : Prop where
  transId : varchar? 50 data.receipt.str = some txn.transId
  amount : settledAmount? amount = some txn.amount
  phone : varchar? 20 data.phone.str = some txn.phone
  billRef : (varchar? 100 data.checkoutRequestId).isSome
  payload : (PyValue.object body).storable

theorem createMpesaTransaction_eq_some
    (h : createMpesaTransaction body data amount stamp db = some db') :
    ∃ txn table, Stored body data amount txn ∧ txn.id = stamp.id ∧
      db.mpesaTransactions.insert? txn = some table ∧
      db' = { db with mpesaTransactions := table } := by
  unfold createMpesaTransaction at h
  simp only [Option.bind_eq_bind, Option.bind_eq_some_iff] at h
  obtain ⟨transId, htransId, stored, hstored, phone, hphone, billRef, hbillRef, _, hpayload, table,
    hinsert, hdb⟩ := h
  have hstorable : (PyValue.object body).storable := by
    by_contra hrefused
    simp [guard, hrefused] at hpayload
  exact ⟨_, table, ⟨htransId, hstored, hphone, by rw [hbillRef]; rfl, hstorable⟩, rfl, hinsert,
    (Option.some.inj hdb).symm⟩

theorem createMpesaTransaction_of_fits (hnul : hasNul data.receipt.str = false)
    (hfits : Fits body data amount)
    (hfresh : ∀ row ∈ db.mpesaTransactions.rows, row.id ≠ stamp.id)
    (hnew : ∀ row ∈ db.mpesaTransactions.rows, row.transId ≠ data.receipt.str) :
    ∃ db', createMpesaTransaction body data amount stamp db = some db' := by
  have htransId : varchar? 50 data.receipt.str = some data.receipt.str := by
    rw [varchar?, if_neg (by simp [hnul]), if_pos hfits.receipt]
  obtain ⟨q, rfl, hlow, hhigh⟩ := hfits.stored
  obtain ⟨stored, hstored, -⟩ := (@Numeric.exists_store_pos_iff 15 2 q (by linarith)).mpr ⟨by linarith, by linarith⟩
  obtain ⟨phone, hphone⟩ := Option.isSome_iff_exists.mp hfits.phone
  obtain ⟨billRef, hbillRef⟩ := Option.isSome_iff_exists.mp hfits.billRef
  obtain ⟨table, hinsert⟩ := Option.isSome_iff_exists.mp (Table.insert?_isSome
    (t := db.mpesaTransactions) (r := ⟨stamp.id, data.receipt.str, stored, phone, some billRef,
      .mpesa, false, stamp.now⟩) (fun row hrow => by
        simp [Row.clash, hfresh row hrow, hnew row hrow]))
  refine ⟨{ db with mpesaTransactions := table }, ?_⟩
  simp [createMpesaTransaction, settledAmount?, htransId, hstored, hphone, hbillRef, guard,
    hfits.payload, hinsert]

/-- A payment is recorded as it was sent where it fits, and only there. -/
theorem Stored.sound_iff (h : Stored body data amount txn)
    (hsign : amount.isNonPositive? = some false) :
    txn.transId = data.receipt.str ∧ txn.Sound ↔ Fits body data amount := by
  obtain ⟨q, rfl⟩ : ∃ q, amount = .finite q := by
    cases amount with
    | finite q => exact ⟨q, rfl⟩
    | infinite negative => cases h.amount
    | nan => cases h.amount
  have hstore : Numeric.store? 15 2 q = some txn.amount := h.amount
  have hq : 0 < q := by simpa [Number.isNonPositive?] using hsign
  have hpositive : 0 < txn.amount.val ↔ 0 < txn.amount.units := by
    rw [Numeric.val, ofUnits, div_pos_iff_of_pos_right (by positivity), Int.cast_pos]
  have hrange := @Numeric.exists_store_pos_iff 15 2 q hq.le
  constructor
  · rintro ⟨hid, hnamed, hamount⟩
    have hlength : data.receipt.str.toList.length ≤ 50 := by
      rw [← hid]
      exact length_of_varchar? h.transId
    obtain ⟨hlow, hhigh⟩ := hrange.mp ⟨_, hstore, hpositive.mp hamount⟩
    exact ⟨hlength, hid ▸ hnamed, ⟨q, rfl, by linarith, by linarith⟩, by rw [h.phone]; rfl,
      h.billRef, h.payload⟩
  · intro hfits
    have hid : txn.transId = data.receipt.str := varchar?_of_length_le h.transId hfits.receipt
    obtain ⟨q', hsame, hlow, hhigh⟩ := hfits.stored
    obtain rfl := Number.finite.inj hsame
    obtain ⟨stored, hstored, hamount⟩ := hrange.mpr ⟨by linarith, by linarith⟩
    obtain rfl : stored = txn.amount := by
      rw [hstore, Option.some.injEq] at hstored
      exact hstored.symm
    exact ⟨hid, by rw [hid]; exact hfits.named, hpositive.mpr hamount⟩

theorem recordMpesaTransaction_recorded (hnul : hasNul data.receipt.str = false)
    (hnew : ∀ row ∈ db.mpesaTransactions.rows, row.transId ≠ data.receipt.str)
    (hcreate : createMpesaTransaction body data amount stamp db = some db') :
    ∃ txn after, recordMpesaTransaction body data amount stamp noFaults db = .ok (some txn) after ∧
      Records db after txn ∧ Stored body data amount txn := by
  obtain ⟨txn, table, hstored, hid, hinsert, hdb⟩ := createMpesaTransaction_eq_some hcreate
  have hfind : table.find? (·.id = stamp.id) = some txn := by
    refine Table.find?_of_insert_pos hinsert (decide_eq_true hid) fun row hrow => ?_
    rw [decide_eq_true_iff] at hrow
    simp [Row.clash, hrow, hid]
  subst hdb
  refine ⟨txn, { db with
    mpesaTransactions := table
    outboxEvents := db.outboxEvents ++ [txn.reconciledEvent] }, ?_,
    ⟨Table.rows_of_insert hinsert, rfl⟩, hstored⟩
  rw [recordMpesaTransaction_new hnul hnew, hcreate]
  simp [hfind]

end record

section deliver
variable {body : PyFields} {stamp : CallbackStamp} {stamps : ℕ → CallbackStamp} {db after : Db}

theorem processMpesaCallback_error {e : ServiceError} (h : callbackPayment body = .error e) :
    processMpesaCallback body stamp noFaults db = .raised e db := by
  rw [processMpesaCallback, h]
  rfl

theorem processMpesaCallback_none (h : callbackPayment body = .ok none) :
    processMpesaCallback body stamp noFaults db = .ok none db := by
  rw [processMpesaCallback, h]
  rfl

theorem processMpesaCallback_some {data : PaymentMetadata} {amount : Number}
    (h : callbackPayment body = .ok (some (data, amount))) :
    processMpesaCallback body stamp noFaults db =
      recordMpesaTransaction body data amount stamp noFaults db := by
  rw [processMpesaCallback, h]

/-- Only an acceptable callback comes to what it should. -/
theorem acceptable_of_handled
    (h : Handled body db (processMpesaCallback body stamp noFaults db)) : Acceptable body db := by
  refine ⟨fun hnan => ?_, fun data amount hpayment => ?_⟩
  · rw [processMpesaCallback_error (callbackPayment_of_noNumber hnan)] at h
    cases h
  · have hsign : amount.isNonPositive? = some false := by
      rcases callbackPayment_cases body with ⟨message, he⟩ | hnan | ⟨hnone, -⟩ | ⟨_, _, hsome, hs⟩
      · cases hpayment.symm.trans he
      · cases hpayment.symm.trans (callbackPayment_of_noNumber hnan)
      · cases hpayment.symm.trans hnone
      · cases hpayment.symm.trans hsome
        exact hs
    rw [processMpesaCallback_some hpayment] at h
    cases hnul : hasNul data.receipt.str with
    | true =>
      rw [recordMpesaTransaction_refused hnul] at h
      cases h
    | false =>
      refine ⟨rfl, ?_⟩
      by_cases hknown : ∃ txn ∈ db.mpesaTransactions.rows, txn.transId = data.receipt.str
      · obtain ⟨txn, hmem, hid⟩ := hknown
        rw [recordMpesaTransaction_known hnul hmem hid] at h
        left
        refine ⟨txn, hmem, hid, ?_⟩
        cases h with
        | known _ _ _ hsound => exact hsound
        | recorded _ _ _ hsound => exact hsound
      · push Not at hknown
        right
        refine ⟨hknown, ?_⟩
        cases hcreate : createMpesaTransaction body data amount stamp db with
        | none =>
          rw [recordMpesaTransaction_new hnul hknown, hcreate] at h
          cases h
        | some db' =>
          obtain ⟨txn, after, hrun, hrecords, hstored⟩ :=
            recordMpesaTransaction_recorded hnul hknown hcreate
          rw [hrun] at h
          refine (hstored.sound_iff hsign).mp ?_
          have hpayment' : ∀ {data' amount'}, callbackPayment body = .ok (some (data', amount')) →
              data'.receipt.str = data.receipt.str := by
            intro data' amount' hsome
            cases hpayment.symm.trans hsome
            rfl
          cases h with
          | known hsome _ hid hsound => exact ⟨hid.trans (hpayment' hsome), hsound⟩
          | recorded hsome _ hid hsound => exact ⟨hid.trans (hpayment' hsome), hsound⟩

theorem delivered_eq_self (h : ∀ stamp, (processMpesaCallback body stamp).committed noFaults db = db)
    (n : ℕ) : delivered body stamps db n = db := by
  induction n with
  | zero => rfl
  | succ n ih =>
    show (processMpesaCallback body (stamps n)).committed noFaults (delivered body stamps db n) = db
    rw [ih, h]

theorem delivered_succ_eq
    (hfirst : (processMpesaCallback body (stamps 0)).committed noFaults db = after)
    (h : ∀ stamp, (processMpesaCallback body stamp).committed noFaults after = after) (n : ℕ) :
    delivered body stamps db (n + 1) = after := by
  induction n with
  | zero => exact hfirst
  | succ n ih =>
    show (processMpesaCallback body (stamps (n + 1))).committed noFaults
      (delivered body stamps db (n + 1)) = after
    rw [ih, h]

/-- Deliveries that all come to the same, with the store as it was. -/
theorem handled_of_unchanged {outcome : Outcome Db ServiceError (Option MpesaTransaction)}
    (hrun : ∀ stamp, processMpesaCallback body stamp noFaults db = outcome)
    (hsame : outcome.working? = some db) (hhandled : Handled body db outcome) (n : ℕ) :
    Handled body (delivered body stamps db n)
        (processMpesaCallback body (stamps n) noFaults (delivered body stamps db n)) ∧
      delivered body stamps db (n + 1) = delivered body stamps db 1 := by
  have hkept : ∀ m, delivered body stamps db m = db := delivered_eq_self fun stamp => by
    rcases committed_cases (processMpesaCallback body stamp) noFaults db with he | ⟨a, he⟩
    · exact he
    · rw [hrun] at he
      rw [he] at hsame
      exact Option.some.inj hsame
  rw [hkept, hkept, hkept, hrun]
  exact ⟨hhandled, rfl⟩

end deliver

/-- However often a callback is delivered, each delivery ignores it, rejects it or finds or records
its payment, and the deliveries after the first change nothing, exactly when it is acceptable. -/
theorem callbacks_handled_iff (body : PyFields) (stamps : ℕ → CallbackStamp) (db : Db)
    (hfresh : ∀ row ∈ db.mpesaTransactions.rows, row.id ≠ (stamps 0).id) :
    (∀ n, Handled body (delivered body stamps db n)
        (processMpesaCallback body (stamps n) noFaults (delivered body stamps db n)) ∧
      delivered body stamps db (n + 1) = delivered body stamps db 1) ↔ Acceptable body db := by
  constructor
  · intro h
    exact acceptable_of_handled (h 0).1
  · rintro ⟨hnumber, hfits⟩
    rcases callbackPayment_cases body with ⟨message, herror⟩ | hnan | ⟨hnone, stk, hstk, hcode⟩ |
      ⟨data, amount, hpayment, hsign⟩
    · refine handled_of_unchanged (fun stamp => processMpesaCallback_error herror) rfl ?_
      exact .rejected message
    · exact absurd hnan hnumber
    · refine handled_of_unchanged (fun stamp => processMpesaCallback_none hnone) rfl ?_
      exact .ignored hstk hcode
    · obtain ⟨hnul, ⟨txn, hmem, hid, hsound⟩ | ⟨hnew, hfits⟩⟩ := hfits data amount hpayment
      · refine handled_of_unchanged (fun stamp => (processMpesaCallback_some hpayment).trans
          (recordMpesaTransaction_known hnul hmem hid)) rfl ?_
        exact .known hpayment hmem hid hsound
      · obtain ⟨db', hcreate⟩ := createMpesaTransaction_of_fits hnul hfits hfresh hnew
        obtain ⟨txn, after, hfirst, hrecords, hstored⟩ :=
          recordMpesaTransaction_recorded hnul hnew hcreate
        obtain ⟨hid, hsound⟩ := (hstored.sound_iff hsign).mpr hfits
        rw [← processMpesaCallback_some hpayment] at hfirst
        have hmem : txn ∈ after.mpesaTransactions.rows := by
          rw [hrecords.1]
          exact List.mem_concat_self
        have hrun : ∀ stamp, processMpesaCallback body stamp noFaults after = .ok (some txn) after :=
          fun stamp => (processMpesaCallback_some hpayment).trans
            (recordMpesaTransaction_known hnul hmem hid)
        have hsame : ∀ m, delivered body stamps db (m + 1) = after :=
          delivered_succ_eq (by rw [committed, hfirst]) fun stamp => by rw [committed, hrun]
        intro n
        rw [hsame, hsame]
        refine ⟨?_, rfl⟩
        cases n with
        | zero =>
          show Handled body db (processMpesaCallback body (stamps 0) noFaults db)
          rw [hfirst]
          exact .recorded hpayment hrecords hid hsound
        | succ n =>
          rw [hsame, hrun]
          exact .known hpayment hmem hid hsound

end

/-- Conversions of the few texts that the examples hold. -/
abbrev CallbackText.plain : CallbackText where
  intOfText _ := none
  intOfFloat _ := none
  errorCount _ := 1
  strFloat _ := "0.5"
  repr _ := ""
  decimal s :=
    if s = "1500" then some (.finite 1500) else if s = "0.001" then some (.finite (1 / 1000))
    else if s = "NaN" then some .nan else none
  strDecimal _ := ""

/-- The callback of a payment of some amount. -/
def paidCallback (amount : PyValue) : PyFields :=
  [("stkCallback", .object [("MerchantRequestID", .text "29115-34620561-1"),
    ("CheckoutRequestID", .text "ws_CO_191220191020363925"), ("ResultCode", .int 0),
    ("ResultDesc", .text "The service request is processed successfully."),
    ("CallbackMetadata", .object [("Item", .array
      [.object [("Name", .text "Amount"), ("Value", amount)],
        .object [("Name", .text "MpesaReceiptNumber"), ("Value", .text "NLJ7RT61SV")],
        .object [("Name", .text "PhoneNumber"), ("Value", .int 254708374149)]])])])]

theorem acceptable_paidCallback :
    letI := CallbackText.plain
    Acceptable (paidCallback (.int 1500)) {} := by
  let := CallbackText.plain
  have hmeta : paymentMetadata (paidCallback (.int 1500)) =
      .ok (some ⟨.text "NLJ7RT61SV", .int 1500, .int 254708374149, "ws_CO_191220191020363925"⟩) := by
    rfl
  have hpayment : callbackPayment (paidCallback (.int 1500)) = .ok (some
      (⟨.text "NLJ7RT61SV", .int 1500, .int 254708374149, "ws_CO_191220191020363925"⟩,
        .finite 1500)) := by
    rfl
  refine ⟨?_, fun data amount hsome => ?_⟩
  · rintro ⟨data, hsome, hnan⟩
    cases hmeta.symm.trans hsome
    revert hnan
    decide
  · cases hpayment.symm.trans hsome
    refine ⟨rfl, .inr ⟨by simp, ?_⟩⟩
    exact {
      receipt := by decide
      named := by decide
      stored := ⟨1500, rfl, by norm_num, by norm_num⟩
      phone := rfl
      billRef := rfl
      payload := rfl }

theorem paid_callback_handled :
    letI := CallbackText.plain
    let stamps : ℕ → CallbackStamp := fun n => ⟨7 + n, 20 + n⟩
    let body := paidCallback (.int 1500)
    ∀ n, Handled body (delivered body stamps {} n)
        (processMpesaCallback body (stamps n) noFaults (delivered body stamps {} n)) ∧
      delivered body stamps {} (n + 1) = delivered body stamps {} 1 := by
  let := CallbackText.plain
  exact (callbacks_handled_iff (paidCallback (.int 1500)) (fun n => ⟨7 + n, 20 + n⟩) {}
    (by simp)).mpr acceptable_paidCallback

/-- An amount that is no number escapes as an exception, and a tenth of a cent is recorded as
nothing. -/
theorem callback_not_handled :
    letI := CallbackText.plain
    let handle := fun amount => processMpesaCallback (paidCallback (.text amount)) ⟨7, 20⟩ noFaults {}
    handle "NaN" = .raised .invalidOperation {} ∧
      ¬ Handled (paidCallback (.text "NaN")) {} (handle "NaN") ∧
      (handle "0.001").working?.map (·.mpesaTransactions.rows.map (·.amount.units)) = some [0] ∧
      ¬ Handled (paidCallback (.text "0.001")) {} (handle "0.001") := by
  let := CallbackText.plain
  have hnan : processMpesaCallback (paidCallback (.text "NaN")) ⟨7, 20⟩ noFaults {} =
      .raised .invalidOperation {} :=
    processMpesaCallback_error rfl
  refine ⟨hnan, ?_, by decide +kernel, ?_⟩
  · show ¬ Handled _ _ (processMpesaCallback (paidCallback (.text "NaN")) ⟨7, 20⟩ noFaults {})
    rw [hnan]
    intro h
    cases h
  · intro h
    have hpayment : callbackPayment (paidCallback (.text "0.001")) = .ok (some
        (⟨.text "NLJ7RT61SV", .text "0.001", .int 254708374149, "ws_CO_191220191020363925"⟩,
          .finite (1 / 1000))) := by
      decide +kernel
    obtain ⟨-, ⟨txn, hmem, -⟩ | ⟨-, hfits⟩⟩ := (acceptable_of_handled h).2 _ _ hpayment
    · cases hmem
    · obtain ⟨q, hq, hlow, -⟩ := hfits.stored
      obtain rfl := Number.finite.inj hq
      norm_num at hlow

end Finguard
