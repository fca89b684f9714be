import Finguard.Types
import Finguard.Lib.Text

/-! The fold that derives an invoice's monetary state from its event log, and the
snapshots that let it resume. -/

namespace Finguard
open Decimal Text

/-- `amount` is a column value in the stored log and a plain decimal in the fold. -/
structure InvoiceEvent (α : Type) where
  invoiceId : Uuid
  sequence : ℤ
  eventType : InvoiceEventType
  amount : α
  occurredAt : DateTime
  recordedBy : Option Uuid
deriving DecidableEq

def snapshotInterval : ℤ := 50

structure InvoiceState where
  total : ℚ
  amountPaid : ℚ
  credited : ℚ
  balanceDue : ℚ
  paymentStatus : Option InvoiceStatus
  paidAt : Option DateTime
  issued : Bool
  cancelled : Bool
  eventCount : ℤ
  lastPaymentAt : Option DateTime
  sequence : ℤ
deriving DecidableEq

/-- The serialised state kept in the snapshot cache. -/
structure SnapshotData where
  total : String
  amountPaid : String
  credited : String
  balanceDue : String
  paymentStatus : Option String
  paidAt : Option String
  issued : Bool
  cancelled : Bool
  eventCount : ℤ
  lastPaymentAt : Option String
  sequence : ℤ
deriving DecidableEq

section
variable [Format]

def InvoiceState.toSnapshot (state : InvoiceState) : SnapshotData where
  total := Format.str state.total
  amountPaid := Format.str state.amountPaid
  credited := Format.str state.credited
  balanceDue := Format.str state.balanceDue
  paymentStatus := state.paymentStatus.map InvoiceStatus.value
  paidAt := state.paidAt.map Format.isoformat
  issued := state.issued
  cancelled := state.cancelled
  eventCount := state.eventCount
  lastPaymentAt := state.lastPaymentAt.map Format.isoformat
  sequence := state.sequence

/-- An absent or empty text stands for no instant. -/
def parseDt (value : Option String) : Option (Option DateTime) :=
  match value with
  | none => some none
  | some text => if text = "" then some none else (Format.fromisoformat text).map some

def parseStatus (value : Option String) : Option (Option InvoiceStatus) :=
  match value with
  | none => some none
  | some text => if text = "" then some none else (InvoiceStatus.ofValue? text).map some

def InvoiceState.fromSnapshot (data : SnapshotData) : Option InvoiceState := do
  let total ← Format.decimal data.total
  let amountPaid ← Format.decimal data.amountPaid
  let credited ← Format.decimal data.credited
  let balanceDue ← Format.decimal data.balanceDue
  let paymentStatus ← parseStatus data.paymentStatus
  let paidAt ← parseDt data.paidAt
  let lastPaymentAt ← parseDt data.lastPaymentAt
  return {
    total, amountPaid, credited, balanceDue, paymentStatus, paidAt
    issued := data.issued
    cancelled := data.cancelled
    eventCount := data.eventCount
    lastPaymentAt
    sequence := data.sequence }

@[simp] theorem parseDt_isoformat (value : Option DateTime) :
    parseDt (value.map Format.isoformat) = some value := by
  cases value with
  | none => rfl
  | some t => simp [parseDt, Format.isoformat_ne_empty]

omit [Format] in
@[simp] theorem parseStatus_value (value : Option InvoiceStatus) :
    parseStatus (value.map InvoiceStatus.value) = some value := by
  cases value with
  | none => rfl
  | some status => simp [parseStatus, InvoiceStatus.value_ne_empty]

@[simp] theorem InvoiceState.fromSnapshot_toSnapshot (state : InvoiceState) :
    fromSnapshot state.toSnapshot = some state := by
  simp [fromSnapshot, toSnapshot]

end

/-- The running accumulator of the fold. -/
structure Acc where
  total : ℚ := 0
  amountPaid : ℚ := 0
  credited : ℚ := 0
  lastPaymentAt : Option DateTime := none
  issued : Bool := false
  cancelled : Bool := false
  count : ℤ := 0
  sequence : ℤ := 0
deriving DecidableEq

def accFromState (state : InvoiceState) : Acc where
  total := state.total
  amountPaid := state.amountPaid
  credited := state.credited
  lastPaymentAt := state.lastPaymentAt
  issued := state.issued
  cancelled := state.cancelled
  count := state.eventCount
  sequence := state.sequence

section
variable [Context]

def Acc.apply (acc : Acc) (event : InvoiceEvent ℚ) : Acc :=
  let acc := { acc with count := acc.count + 1, sequence := max acc.sequence event.sequence }
  -- cancellation is terminal: later events leave the money state untouched
  if acc.cancelled then acc
  else match event.eventType with
    | .invoiceIssued => { acc with total := event.amount, issued := true }
    | .paymentApplied =>
      { acc with
        amountPaid := add acc.amountPaid event.amount
        lastPaymentAt := some event.occurredAt }
    | .creditNoteApplied => { acc with credited := add acc.credited event.amount }
    | .invoiceCancelled => { acc with cancelled := true }

def Acc.balanceDue (acc : Acc) : ℚ := sub (sub acc.total acc.credited) acc.amountPaid

def Acc.paymentStatus (acc : Acc) : Option InvoiceStatus :=
  if acc.cancelled then some .cancelled
  else if acc.amountPaid ≤ 0 then none
  else if acc.balanceDue ≤ 0 then some .paid
  else some .partiallyPaid

def Acc.paidAt (acc : Acc) : Option DateTime :=
  if acc.cancelled then none
  else if acc.amountPaid ≤ 0 then none
  else if acc.balanceDue ≤ 0 then acc.lastPaymentAt
  else none

def Acc.finalize (acc : Acc) : InvoiceState where
  total := acc.total
  amountPaid := acc.amountPaid
  credited := acc.credited
  balanceDue := acc.balanceDue
  paymentStatus := acc.paymentStatus
  paidAt := acc.paidAt
  issued := acc.issued
  cancelled := acc.cancelled
  eventCount := acc.count
  lastPaymentAt := acc.lastPaymentAt
  sequence := acc.sequence

def Acc.run (acc : Acc) (events : List (InvoiceEvent ℚ)) : Acc := events.foldl Acc.apply acc

def sortBySequence (events : List (InvoiceEvent ℚ)) : List (InvoiceEvent ℚ) :=
  events.insertionSort (fun a b => a.sequence ≤ b.sequence)

def foldEvents (base : Option InvoiceState) (events : List (InvoiceEvent ℚ)) : InvoiceState :=
  let acc := match base with
    | some state => accFromState state
    | none => {}
  (acc.run (sortBySequence events)).finalize

def foldInvoiceEvents (events : List (InvoiceEvent ℚ)) : InvoiceState := foldEvents none events

def foldFromSnapshot (snapshot : InvoiceState) (tail : List (InvoiceEvent ℚ)) : InvoiceState :=
  foldEvents (some snapshot) tail

/-! What survives finalisation is the whole accumulator. -/

@[simp] theorem accFromState_finalize (acc : Acc) : accFromState acc.finalize = acc := rfl

@[simp] theorem Acc.run_nil (acc : Acc) : acc.run [] = acc := rfl

@[simp] theorem Acc.run_append (acc : Acc) (xs ys : List (InvoiceEvent ℚ)) :
    acc.run (xs ++ ys) = (acc.run xs).run ys := List.foldl_append

@[simp] theorem Acc.run_singleton (acc : Acc) (event : InvoiceEvent ℚ) :
    acc.run [event] = acc.apply event := rfl

end

/-! Sorting a log whose sequences are distinct. -/

abbrev InSequence (events : List (InvoiceEvent ℚ)) : Prop :=
  events.Pairwise (fun a b => a.sequence < b.sequence)

theorem sortBySequence_perm (events : List (InvoiceEvent ℚ)) :
    (sortBySequence events).Perm events := List.perm_insertionSort _ _

theorem sortBySequence_inSequence {events : List (InvoiceEvent ℚ)}
    (h : (events.map InvoiceEvent.sequence).Nodup) : InSequence (sortBySequence events) := by
  have htotal : Std.Total (fun a b : InvoiceEvent ℚ => a.sequence ≤ b.sequence) :=
    ⟨fun a b => le_total a.sequence b.sequence⟩
  have htrans : IsTrans (InvoiceEvent ℚ) (fun a b => a.sequence ≤ b.sequence) :=
    ⟨fun _ _ _ hab hbc => le_trans hab hbc⟩
  have hle : (sortBySequence events).Pairwise (fun a b => a.sequence ≤ b.sequence) :=
    List.pairwise_insertionSort _ _
  have hne : (sortBySequence events).Pairwise (fun a b => a.sequence ≠ b.sequence) := by
    rw [← List.pairwise_map]
    exact ((sortBySequence_perm events).map _).nodup_iff.mpr h
  exact (hle.and hne).imp (fun hab => lt_of_le_of_ne hab.1 hab.2)

theorem InSequence.eq_of_perm {xs ys : List (InvoiceEvent ℚ)} (hx : InSequence xs)
    (hy : InSequence ys) (h : xs.Perm ys) : xs = ys := by
  refine List.Perm.eq_of_pairwise ?_ hx hy h
  intro a b _ _ hab hba
  exact absurd (hab.trans hba) (lt_irrefl _)

theorem InSequence.nodup {xs : List (InvoiceEvent ℚ)} (h : InSequence xs) :
    (xs.map InvoiceEvent.sequence).Nodup := by
  rw [List.Nodup, List.pairwise_map]
  exact h.imp (fun hab => hab.ne)

theorem InSequence.sort_eq {xs : List (InvoiceEvent ℚ)} (h : InSequence xs) :
    sortBySequence xs = xs :=
  (sortBySequence_inSequence h.nodup).eq_of_perm h (sortBySequence_perm xs)

theorem sortBySequence_cut {events : List (InvoiceEvent ℚ)} (k : ℤ)
    (h : (events.map InvoiceEvent.sequence).Nodup) :
    sortBySequence events =
      sortBySequence (events.filter (·.sequence ≤ k)) ++
        sortBySequence (events.filter (k < ·.sequence)) := by
  have hpre : ((events.filter (·.sequence ≤ k)).map InvoiceEvent.sequence).Nodup :=
    h.sublist (List.filter_sublist.map _)
  have hpost : ((events.filter (k < ·.sequence)).map InvoiceEvent.sequence).Nodup :=
    h.sublist (List.filter_sublist.map _)
  refine (sortBySequence_inSequence h).eq_of_perm ?_ ?_
  · refine List.pairwise_append.mpr
      ⟨sortBySequence_inSequence hpre, sortBySequence_inSequence hpost, ?_⟩
    intro a ha b hb
    have ha' := (sortBySequence_perm _).mem_iff.mp ha
    have hb' := (sortBySequence_perm _).mem_iff.mp hb
    simp only [List.mem_filter, decide_eq_true_eq] at ha' hb'
    omega
  · have hnot : events.filter (k < ·.sequence) =
        events.filter (fun e => !decide (e.sequence ≤ k)) := by
      refine List.filter_congr ?_
      intro e _
      simp only [← not_le, decide_not]
    have hsplit : (events.filter (·.sequence ≤ k) ++ events.filter (k < ·.sequence)).Perm events := by
      rw [hnot]
      exact List.filter_append_perm _ _
    exact (sortBySequence_perm _).trans
      (hsplit.symm.trans ((sortBySequence_perm _).append (sortBySequence_perm _)).symm)

section
variable [Context]

theorem foldInvoiceEvents_eq (events : List (InvoiceEvent ℚ)) :
    foldInvoiceEvents events = (Acc.run {} (sortBySequence events)).finalize := rfl

theorem foldFromSnapshot_finalize (acc : Acc) (tail : List (InvoiceEvent ℚ)) :
    foldFromSnapshot acc.finalize tail = (acc.run (sortBySequence tail)).finalize := rfl

theorem foldFromSnapshot_cut {events : List (InvoiceEvent ℚ)} (k : ℤ)
    (h : (events.map InvoiceEvent.sequence).Nodup) :
    foldFromSnapshot (foldInvoiceEvents (events.filter (·.sequence ≤ k)))
      (events.filter (k < ·.sequence)) = foldInvoiceEvents events := by
  rw [foldInvoiceEvents_eq, foldFromSnapshot_finalize, foldInvoiceEvents_eq events,
    sortBySequence_cut k h, Acc.run_append]

theorem foldInvoiceEvents_perm {events events' : List (InvoiceEvent ℚ)}
    (h : (events.map InvoiceEvent.sequence).Nodup) (hp : events'.Perm events) :
    foldInvoiceEvents events' = foldInvoiceEvents events := by
  have h' : (events'.map InvoiceEvent.sequence).Nodup := (hp.map _).nodup_iff.mpr h
  have hsort : sortBySequence events' = sortBySequence events :=
    (sortBySequence_inSequence h').eq_of_perm (sortBySequence_inSequence h)
      ((sortBySequence_perm _).trans (hp.trans (sortBySequence_perm _).symm))
  rw [foldInvoiceEvents_eq, foldInvoiceEvents_eq, hsort]

theorem foldInvoiceEvents_of_inSequence {events : List (InvoiceEvent ℚ)} (h : InSequence events) :
    foldInvoiceEvents events = (Acc.run {} events).finalize := by
  rw [foldInvoiceEvents_eq, h.sort_eq]

variable [Format]

/-- The snapshot law: saving the fold of a prefix and resuming on the rest gives
the fold of the whole log, in whatever order the log is supplied. -/
theorem fold_resumes_from_snapshot (events : List (InvoiceEvent ℚ))
    (hdistinct : (events.map InvoiceEvent.sequence).Nodup) (k : ℤ) :
    (∃ snapshot, InvoiceState.fromSnapshot
          (foldInvoiceEvents (events.filter (·.sequence ≤ k))).toSnapshot = some snapshot ∧
        foldFromSnapshot snapshot (events.filter (k < ·.sequence)) = foldInvoiceEvents events) ∧
      ∀ supplied, supplied.Perm events → foldInvoiceEvents supplied = foldInvoiceEvents events := by
  constructor
  · exact ⟨_, InvoiceState.fromSnapshot_toSnapshot _, foldFromSnapshot_cut k hdistinct⟩
  · intro supplied hp
    exact foldInvoiceEvents_perm hdistinct hp

end

/-- An invoice of 100 paid in part, cancelled and paid again, listed out of order. -/
def cancelledLog : List (InvoiceEvent ℚ) :=
  [⟨7, 3, .invoiceCancelled, 0, 0, none⟩, ⟨7, 1, .invoiceIssued, 100, 0, none⟩,
    ⟨7, 4, .paymentApplied, 30, 0, none⟩, ⟨7, 2, .paymentApplied, 40, 0, some 9⟩]

/-- A cut after the cancellation, before the payment that the fold drops. -/
theorem cancelledLog_resumes :
    letI := Context.default
    letI := Format.plain
    (∃ snapshot, InvoiceState.fromSnapshot
          (foldInvoiceEvents (cancelledLog.filter (·.sequence ≤ 3))).toSnapshot = some snapshot ∧
        foldFromSnapshot snapshot (cancelledLog.filter (3 < ·.sequence)) =
          foldInvoiceEvents cancelledLog) ∧
      ∀ supplied, supplied.Perm cancelledLog →
        foldInvoiceEvents supplied = foldInvoiceEvents cancelledLog :=
  letI := Context.default
  letI := Format.plain
  fold_resumes_from_snapshot cancelledLog (by decide) 3

example :
    letI := Context.default
    foldInvoiceEvents cancelledLog =
    { total := 100, amountPaid := 40, credited := 0, balanceDue := 60,
      paymentStatus := some .cancelled, paidAt := none, issued := true, cancelled := true,
      eventCount := 4, lastPaymentAt := some 0, sequence := 4 } := by decide +kernel

end Finguard
