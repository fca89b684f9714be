import Finguard.InvoiceRuns

/-! What one event does to the row and the accumulator, and when the log of one
invoice and its snapshots are in order. -/

namespace Finguard
open Decimal Text InvoiceLedger

/-! What one event does to an accumulator that agrees with a row. -/

structure Acc.Agrees (acc : Acc) (invoice : Invoice) : Prop where
  total : acc.total = invoice.total.val
  amountPaid : acc.amountPaid = invoice.amountPaid.val
  credited : acc.credited = invoice.amountCredited.val

/-- A cancelled invoice takes no more payments. -/
def Acc.paidBy (acc : Acc) (event : InvoiceEvent Money) : ℤ :=
  if acc.cancelled = false ∧ event.eventType = .paymentApplied then event.amount.units else 0

def Acc.creditedBy (acc : Acc) (event : InvoiceEvent Money) : ℤ :=
  if acc.cancelled = false ∧ event.eventType = .creditNoteApplied then event.amount.units else 0

theorem Invoice.project?_eq_some {invoice invoice' : Invoice} {state : InvoiceState}
    (h : invoice.project? state = some invoice') :
    Numeric.store? 18 2 state.amountPaid = some invoice'.amountPaid ∧
      Numeric.store? 18 2 state.credited = some invoice'.amountCredited ∧
      Numeric.store? 18 2 state.balanceDue = some invoice'.balanceDue ∧
      invoice'.id = invoice.id ∧ invoice'.total = invoice.total ∧
      invoice'.status = state.paymentStatus.getD invoice.status := by
  simp only [Invoice.project?, Option.bind_eq_bind, Option.bind_eq_some_iff] at h
  obtain ⟨paid, hpaid, credited, hcredited, balance, hbalance, h⟩ := h
  split at h
  · obtain rfl := Option.some.inj h
    exact ⟨hpaid, hcredited, hbalance, rfl, rfl, rfl⟩
  · cases h

section
variable [Context]

theorem Acc.Agrees.balanceDue {acc : Acc} {invoice : Invoice} (h : acc.Agrees invoice) :
    acc.balanceDue = invoice.balanceDue.val := by
  have ht := invoice.total.bounded
  have hp := invoice.amountPaid.bounded
  have hc := invoice.amountCredited.bounded
  simp only [Acc.balanceDue, h.total, h.amountPaid, h.credited, Numeric.val]
  rw [sub_ofUnits (by omega), sub_ofUnits (by omega), invoice.balanceConsistent]

/-- Sums of two column values are far below what the context can hold. -/
theorem add_val (a b : Money) : add a.val b.val = ofUnits 2 (a.units + b.units) := by
  have ha := a.bounded
  have hb := b.bounded
  exact add_ofUnits (by omega)

namespace Acc.Agrees
variable {acc : Acc} {invoice invoice' : Invoice} {event : InvoiceEvent Money}

theorem apply_amountPaid (h : acc.Agrees invoice) :
    (acc.apply event.load).amountPaid = ofUnits 2 (invoice.amountPaid.units + acc.paidBy event) := by
  by_cases hc : acc.cancelled = true
  · simp [Acc.apply, Acc.paidBy, hc, h.amountPaid, Numeric.val]
  · cases ht : event.eventType with
    | paymentApplied => simp [Acc.apply, Acc.paidBy, InvoiceEvent.load, hc, ht, h.amountPaid, add_val]
    | invoiceIssued | creditNoteApplied | invoiceCancelled =>
      simp [Acc.apply, Acc.paidBy, InvoiceEvent.load, hc, ht, h.amountPaid, Numeric.val]

theorem apply_credited (h : acc.Agrees invoice) :
    (acc.apply event.load).credited =
      ofUnits 2 (invoice.amountCredited.units + acc.creditedBy event) := by
  by_cases hc : acc.cancelled = true
  · simp [Acc.apply, Acc.creditedBy, hc, h.credited, Numeric.val]
  · cases ht : event.eventType with
    | creditNoteApplied =>
      simp [Acc.apply, Acc.creditedBy, InvoiceEvent.load, hc, ht, h.credited, add_val]
    | invoiceIssued | paymentApplied | invoiceCancelled =>
      simp [Acc.apply, Acc.creditedBy, InvoiceEvent.load, hc, ht, h.credited, Numeric.val]

theorem apply_total (h : acc.Agrees invoice) (hissued : event.eventType ≠ .invoiceIssued) :
    (acc.apply event.load).total = invoice.total.val := by
  by_cases hc : acc.cancelled = true
  · simp [Acc.apply, hc, h.total]
  · cases ht : event.eventType with
    | invoiceIssued => exact absurd ht hissued
    | paymentApplied | creditNoteApplied | invoiceCancelled =>
      simp [Acc.apply, InvoiceEvent.load, hc, ht, h.total]

/-- The projected row agrees with the accumulator after the event. -/
theorem project (h : acc.Agrees invoice) (hissued : event.eventType ≠ .invoiceIssued)
    (hp : invoice.project? (acc.apply event.load).finalize = some invoice') :
    (acc.apply event.load).Agrees invoice' ∧
      invoice'.amountPaid.units = invoice.amountPaid.units + acc.paidBy event ∧
      invoice'.amountCredited.units = invoice.amountCredited.units + acc.creditedBy event := by
  obtain ⟨hpaid, hcredited, -, -, htotal, -⟩ := Invoice.project?_eq_some hp
  have hpaid' : Numeric.store? 18 2 (acc.apply event.load).amountPaid = some invoice'.amountPaid :=
    hpaid
  have hcredited' : Numeric.store? 18 2 (acc.apply event.load).credited =
      some invoice'.amountCredited := hcredited
  rw [h.apply_amountPaid] at hpaid'
  rw [h.apply_credited] at hcredited'
  refine ⟨⟨?_, ?_, ?_⟩, Numeric.units_of_store_ofUnits hpaid',
    Numeric.units_of_store_ofUnits hcredited'⟩
  · rw [h.apply_total hissued, htotal]
  · rw [h.apply_amountPaid, Numeric.val_of_store_ofUnits hpaid']
  · rw [h.apply_credited, Numeric.val_of_store_ofUnits hcredited']

end Acc.Agrees

theorem balance_nonneg {acc : Acc} {invoice invoice' : Invoice} {event : InvoiceEvent Money}
    (h : acc.Agrees invoice) (hwithin : Within invoice event)
    (hp : invoice.project? (acc.apply event.load).finalize = some invoice')
    (hnonneg : 0 ≤ invoice.balanceDue.units) : 0 ≤ invoice'.balanceDue.units := by
  obtain ⟨-, hpaid, hcredited⟩ := h.project hwithin.1 hp
  obtain ⟨-, -, -, -, htotal, -⟩ := Invoice.project?_eq_some hp
  have hbalance := invoice.balanceConsistent
  rw [invoice'.balanceConsistent, hpaid, hcredited, htotal]
  by_cases hpay : acc.cancelled = false ∧ event.eventType = .paymentApplied
  · have hcredit : ¬ (acc.cancelled = false ∧ event.eventType = .creditNoteApplied) := by
      rintro ⟨-, hc⟩
      rw [hpay.2] at hc
      cases hc
    rcases hwithin.2 with hc | ⟨-, hle⟩
    · rw [hpay.2] at hc
      cases hc
    · rw [Acc.paidBy, if_pos hpay, Acc.creditedBy, if_neg hcredit]
      omega
  · rw [Acc.paidBy, if_neg hpay]
    by_cases hcredit : acc.cancelled = false ∧ event.eventType = .creditNoteApplied
    · rcases hwithin.2 with hc | ⟨-, hle⟩
      · rw [hcredit.2] at hc
        cases hc
      · rw [Acc.creditedBy, if_pos hcredit]
        omega
    · rw [Acc.creditedBy, if_neg hcredit]
      omega

/-! The log of one invoice. -/

namespace InvoiceLedger

def log (l : InvoiceLedger) (id : Uuid) : List (InvoiceEvent ℚ) :=
  (l.eventsOf id).map InvoiceEvent.load

def acc (l : InvoiceLedger) (id : Uuid) : Acc := Acc.run {} (l.log id)

end InvoiceLedger

theorem Acc.apply_count (acc : Acc) (event : InvoiceEvent ℚ) :
    (acc.apply event).count = acc.count + 1 := by
  by_cases hc : acc.cancelled = true
  · simp [Acc.apply, hc]
  · cases ht : event.eventType <;> simp [Acc.apply, hc, ht]

theorem Acc.apply_sequence (acc : Acc) (event : InvoiceEvent ℚ) :
    (acc.apply event).sequence = max acc.sequence event.sequence := by
  by_cases hc : acc.cancelled = true
  · simp [Acc.apply, hc]
  · cases ht : event.eventType <;> simp [Acc.apply, hc, ht]

theorem Acc.run_count (acc : Acc) (events : List (InvoiceEvent ℚ)) :
    (acc.run events).count = acc.count + events.length := by
  induction events using List.reverseRecOn with
  | nil => simp
  | append_singleton events event ih =>
    rw [Acc.run_append, Acc.run_singleton, Acc.apply_count, ih, List.length_append,
      List.length_singleton]
    push_cast
    ring

omit [Context] in
theorem counted_load {events : List (InvoiceEvent Money)} :
    Counted 1 InvoiceEvent.sequence (events.map InvoiceEvent.load) ↔
      Counted 1 InvoiceEvent.sequence events := by
  unfold Counted
  rw [List.map_map, List.length_map]
  rfl

theorem Acc.run_sequence {events : List (InvoiceEvent ℚ)}
    (h : Counted 1 InvoiceEvent.sequence events) : (Acc.run {} events).sequence = events.length := by
  induction events using List.reverseRecOn with
  | nil => rfl
  | append_singleton events event ih =>
    have hevent : event.sequence = events.length + 1 := by
      simpa using h.getElem (i := events.length) (by simp)
    rw [Acc.run_append, Acc.run_singleton, Acc.apply_sequence, ih h.of_concat, hevent,
      List.length_append, List.length_singleton]
    push_cast
    omega

variable [Format]

/-- The log is numbered from one, and a snapshot was taken of every full interval. -/
structure LogSound (l : InvoiceLedger) (id : Uuid) : Prop where
  sequences : Counted 1 InvoiceEvent.sequence (l.eventsOf id)
  cadence : Counted snapshotInterval InvoiceSnapshot.sequence (l.snapshotsOf id)
  taken : ((l.snapshotsOf id).length : ℤ) = (l.eventsOf id).length / snapshotInterval
  states : ∀ snapshot ∈ l.snapshotsOf id, snapshot.state =
    (Acc.run {} ((l.log id).filter (·.sequence ≤ snapshot.sequence))).finalize.toSnapshot

omit [Context] [Format] in
theorem inSequence_log {l : InvoiceLedger} {id : Uuid}
    (h : Counted 1 InvoiceEvent.sequence (l.eventsOf id)) : InSequence (l.log id) :=
  (counted_load.mpr h).pairwise one_pos

omit [Context] [Format] in
theorem listByInvoice_eq {l : InvoiceLedger} {id : Uuid}
    (h : Counted 1 InvoiceEvent.sequence (l.eventsOf id)) : l.listByInvoice id = l.log id :=
  (inSequence_log h).sort_eq

omit [Format] in
theorem fold_eq_acc {l : InvoiceLedger} {id : Uuid}
    (h : Counted 1 InvoiceEvent.sequence (l.eventsOf id)) :
    foldInvoiceEvents (l.listByInvoice id) = (l.acc id).finalize := by
  rw [listByInvoice_eq h, foldInvoiceEvents_of_inSequence (inSequence_log h)]
  rfl

/-- Resuming from the latest snapshot gives the fold of the whole log. -/
theorem derived?_eq {l : InvoiceLedger} {id : Uuid}
    (hseq : Counted 1 InvoiceEvent.sequence (l.eventsOf id))
    (hstates : ∀ snapshot ∈ l.snapshotsOf id, snapshot.state =
      (Acc.run {} ((l.log id).filter (·.sequence ≤ snapshot.sequence))).finalize.toSnapshot) :
    l.derived? id = some (l.acc id).finalize := by
  have hlog := inSequence_log hseq
  unfold InvoiceLedger.derived?
  cases hlatest : l.latestSnapshot id with
  | none =>
    show some (foldInvoiceEvents (l.listByInvoice id)) = some (l.acc id).finalize
    rw [fold_eq_acc hseq]
  | some snapshot =>
    have hprefix : InSequence ((l.log id).filter (·.sequence ≤ snapshot.sequence)) :=
      List.Pairwise.sublist List.filter_sublist hlog
    have htail : InSequence ((l.log id).filter (snapshot.sequence < ·.sequence)) :=
      List.Pairwise.sublist List.filter_sublist hlog
    have hlist : l.listAfterSequence id snapshot.sequence =
        (l.log id).filter (snapshot.sequence < ·.sequence) := htail.sort_eq
    show Option.map _ (InvoiceState.fromSnapshot snapshot.state) = _
    rw [hstates snapshot (latestBy_mem hlatest), InvoiceState.fromSnapshot_toSnapshot,
      Option.map_some, hlist, ← foldInvoiceEvents_of_inSequence hprefix,
      foldFromSnapshot_cut _ hlog.nodup, foldInvoiceEvents_of_inSequence hlog]
    rfl

end

end Finguard
