import Finguard.InvoiceLog

/-! The joint invariant of every invoice's row, event log and snapshots, kept by
every run of requests. -/

namespace Finguard
open Decimal Text InvoiceLedger

section
variable [Context] [Format]

structure RowSound (l : InvoiceLedger) (invoice : Invoice) : Prop where
  agrees : (l.acc invoice.id).Agrees invoice
  nonneg : 0 ≤ invoice.balanceDue.units

/-- Rows of the log and the cache belong to an invoice. -/
structure LedgerSound (l : InvoiceLedger) : Prop where
  eventOwner : ∀ event ∈ l.invoiceEvents.rows, ∃ i ∈ l.invoices.rows, i.id = event.invoiceId
  snapshotOwner : ∀ s ∈ l.invoiceSnapshots.rows, ∃ i ∈ l.invoices.rows, i.id = s.invoiceId
  log : ∀ id, LogSound l id
  row : ∀ invoice ∈ l.invoices.rows, RowSound l invoice

/-! Posting an event. -/

omit [Context] [Format] in
theorem eventsOf_insert {l l' : InvoiceLedger} {event : InvoiceEvent Money}
    (h : l.invoiceEvents.insert? event = some l'.invoiceEvents) (id : Uuid) :
    l'.eventsOf id = if event.invoiceId = id then l.eventsOf id ++ [event] else l.eventsOf id := by
  unfold InvoiceLedger.eventsOf
  rw [Table.filter_of_insert h]
  simp only [beq_iff_eq]

omit [Context] [Format] in
theorem snapshotsOf_insert {l l' : InvoiceLedger} {snapshot : InvoiceSnapshot}
    (h : l.invoiceSnapshots.insert? snapshot = some l'.invoiceSnapshots) (id : Uuid) :
    l'.snapshotsOf id =
      if snapshot.invoiceId = id then l.snapshotsOf id ++ [snapshot] else l.snapshotsOf id := by
  unfold InvoiceLedger.snapshotsOf
  rw [Table.filter_of_insert h]
  simp only [beq_iff_eq]

theorem LogSound.snapshot_le {l : InvoiceLedger} {id : Uuid} (h : LogSound l id)
    {snapshot : InvoiceSnapshot} (hs : snapshot ∈ l.snapshotsOf id) :
    snapshot.sequence ≤ (l.eventsOf id).length := by
  have hlast := h.cadence.le_last (by decide) hs
  have htaken := h.taken
  have hdiv := Int.mul_ediv_self_le (x := ((l.eventsOf id).length : ℤ)) (k := snapshotInterval)
    (by decide)
  rw [htaken] at hlast
  exact hlast.trans hdiv

theorem LogSound.congr {l l' : InvoiceLedger} {id : Uuid} (h : LogSound l id)
    (he : l'.eventsOf id = l.eventsOf id) (hs : l'.snapshotsOf id = l.snapshotsOf id) :
    LogSound l' id := by
  have hlog : l'.log id = l.log id := congrArg (List.map InvoiceEvent.load) he
  refine ⟨?_, ?_, ?_, ?_⟩
  · rw [he]
    exact h.sequences
  · rw [hs]
    exact h.cadence
  · rw [he, hs]
    exact h.taken
  · rw [hs, hlog]
    exact h.states

namespace InvoiceLedger.Posted
variable {l l' : InvoiceLedger} {event : InvoiceEvent Money} {payment : Option Payment}

theorem events (hp : Posted l l' event payment) :
    l.invoiceEvents.insert? event = some l'.invoiceEvents := by
  obtain ⟨log, state, hlog, hproj⟩ := hp.appended
  rw [hlog, hproj.events]

theorem sequence_eq (hp : Posted l l' event payment) (h : LogSound l event.invoiceId) :
    event.sequence = (l.eventsOf event.invoiceId).length + 1 := by
  rw [hp.sequence, nextSequence, h.sequences.next_of_max]

theorem eventsOf_self (hp : Posted l l' event payment) :
    l'.eventsOf event.invoiceId = l.eventsOf event.invoiceId ++ [event] := by
  rw [eventsOf_insert hp.events, if_pos rfl]

theorem log_self (hp : Posted l l' event payment) :
    l'.log event.invoiceId = l.log event.invoiceId ++ [event.load] := by
  simp [InvoiceLedger.log, hp.eventsOf_self]

theorem acc_self (hp : Posted l l' event payment) :
    l'.acc event.invoiceId = (l.acc event.invoiceId).apply event.load := by
  unfold InvoiceLedger.acc
  rw [hp.log_self, Acc.run_append, Acc.run_singleton]

theorem sequences (hp : Posted l l' event payment) (h : LogSound l event.invoiceId) :
    Counted 1 InvoiceEvent.sequence (l'.eventsOf event.invoiceId) := by
  rw [hp.eventsOf_self]
  apply h.sequences.concat
  rw [hp.sequence_eq h, one_mul]

/-- A snapshot taken earlier folds a prefix that the new event does not reach. -/
theorem prefix_eq (hp : Posted l l' event payment) (h : LogSound l event.invoiceId)
    {snapshot : InvoiceSnapshot} (hs : snapshot ∈ l.snapshotsOf event.invoiceId) :
    (l'.log event.invoiceId).filter (·.sequence ≤ snapshot.sequence) =
      (l.log event.invoiceId).filter (·.sequence ≤ snapshot.sequence) := by
  have hle := h.snapshot_le hs
  have hseq := hp.sequence_eq h
  have hlt : snapshot.sequence < event.sequence := by omega
  rw [hp.log_self, List.filter_append]
  simp [hlt]

/-- The row is projected from the fold of the whole new log. -/
theorem projected (hp : Posted l l' event payment) (h : LogSound l event.invoiceId) :
    Projected { l with invoiceEvents := l'.invoiceEvents, payments := l'.payments } l'
      event.invoiceId (l'.acc event.invoiceId).finalize := by
  obtain ⟨log, state, hlog, hproj⟩ := hp.appended
  obtain rfl : l'.invoiceEvents = log := hproj.events
  have hderived : some state = some (l'.acc event.invoiceId).finalize := by
    rw [← hproj.derived]
    exact derived?_eq (l := { l with invoiceEvents := l'.invoiceEvents, payments := l'.payments })
      (hp.sequences h) (fun snapshot hs => (h.states snapshot hs).trans
        (by rw [← hp.prefix_eq h hs]; rfl))
  obtain rfl := Option.some.inj hderived
  exact hproj

theorem length_self (hp : Posted l l' event payment) :
    ((l'.eventsOf event.invoiceId).length : ℤ) = (l.eventsOf event.invoiceId).length + 1 := by
  rw [hp.eventsOf_self, List.length_append, List.length_singleton]
  push_cast
  rfl

theorem acc_sequence (hp : Posted l l' event payment) (h : LogSound l event.invoiceId) :
    (l'.acc event.invoiceId).finalize.sequence = (l.eventsOf event.invoiceId).length + 1 := by
  have hcounted : Counted 1 InvoiceEvent.sequence (l'.log event.invoiceId) :=
    counted_load.mpr (hp.sequences h)
  show (Acc.run {} (l'.log event.invoiceId)).sequence = _
  rw [Acc.run_sequence hcounted, InvoiceLedger.log, List.length_map, hp.length_self]

theorem due_iff (hp : Posted l l' event payment) (h : LogSound l event.invoiceId) :
    SnapshotDue { l with invoiceEvents := l'.invoiceEvents, payments := l'.payments }
        event.invoiceId (l'.acc event.invoiceId).finalize ↔
      (((l.eventsOf event.invoiceId).length : ℤ) + 1) % snapshotInterval = 0 := by
  have hcount : (l'.acc event.invoiceId).finalize.eventCount =
      (l.eventsOf event.invoiceId).length + 1 := by
    show (Acc.run {} (l'.log event.invoiceId)).count = _
    rw [Acc.run_count, InvoiceLedger.log, List.length_map, hp.length_self]
    exact zero_add _
  unfold SnapshotDue
  rw [hcount, hp.acc_sequence h]
  constructor
  · intro hdue
    exact hdue.1.2
  · intro hmod
    refine ⟨⟨by omega, hmod⟩, ?_⟩
    rw [Option.all_eq_true]
    intro snapshot hlatest
    have hle := h.snapshot_le (latestBy_mem hlatest)
    simp only [decide_eq_true_eq]
    omega

theorem logSound_self (hp : Posted l l' event payment) (h : LogSound l event.invoiceId) :
    LogSound l' event.invoiceId := by
  have hproj := hp.projected h
  have htaken := h.taken
  have hlength := hp.length_self
  have hinterval : snapshotInterval = 50 := rfl
  by_cases hmod : (((l.eventsOf event.invoiceId).length : ℤ) + 1) % snapshotInterval = 0
  · have hins := hproj.taken ((hp.due_iff h).mpr hmod)
    have hsequence := hp.acc_sequence h
    rw [hinterval] at hmod htaken
    have hsnaps : l'.snapshotsOf event.invoiceId = l.snapshotsOf event.invoiceId ++
        [⟨event.invoiceId, (l'.acc event.invoiceId).finalize.sequence,
          (l'.acc event.invoiceId).finalize.toSnapshot⟩] := by
      have hsnaps := snapshotsOf_insert hins event.invoiceId
      rwa [if_pos rfl] at hsnaps
    refine ⟨hp.sequences h, ?_, ?_, ?_⟩
    · rw [hsnaps]
      apply h.cadence.concat
      show (l'.acc event.invoiceId).finalize.sequence = _
      rw [hsequence, htaken, hinterval]
      omega
    · rw [hsnaps, hlength, List.length_append, List.length_singleton, hinterval]
      push_cast
      rw [htaken]
      omega
    · intro snapshot hs
      rw [hsnaps] at hs
      rcases List.mem_append.mp hs with hs | hs
      · rw [hp.prefix_eq h hs]
        exact h.states snapshot hs
      · obtain rfl := List.mem_singleton.mp hs
        have hall : (l'.log event.invoiceId).filter
            (·.sequence ≤ (l'.acc event.invoiceId).finalize.sequence) = l'.log event.invoiceId := by
          rw [List.filter_eq_self, hsequence]
          intro e he
          have hle := (counted_load.mpr (hp.sequences h)).le_last one_pos he
          rw [List.length_map, hlength, one_mul] at hle
          simpa using hle
        rw [hall]
        rfl
  · have hkept := hproj.kept (fun hdue => hmod ((hp.due_iff h).mp hdue))
    have hsnaps : l'.snapshotsOf event.invoiceId = l.snapshotsOf event.invoiceId := by
      unfold snapshotsOf
      rw [hkept]
    refine ⟨hp.sequences h, ?_, ?_, ?_⟩
    · rw [hsnaps]
      exact h.cadence
    · rw [hsnaps, hlength, htaken, hinterval]
      rw [hinterval] at hmod
      omega
    · intro snapshot hs
      rw [hsnaps] at hs
      rw [hp.prefix_eq h hs]
      exact h.states snapshot hs

/-- Nothing changes for the other invoices. -/
theorem frame (hp : Posted l l' event payment) {id : Uuid} (hid : event.invoiceId ≠ id) :
    l'.eventsOf id = l.eventsOf id ∧ l'.snapshotsOf id = l.snapshotsOf id := by
  obtain ⟨log, state, hlog, hproj⟩ := hp.appended
  constructor
  · rw [eventsOf_insert hp.events, if_neg hid]
  · by_cases hdue : SnapshotDue { l with invoiceEvents := log, payments := l'.payments }
        event.invoiceId state
    · have hsnaps := snapshotsOf_insert (hproj.taken hdue) id
      rwa [if_neg hid] at hsnaps
    · unfold snapshotsOf
      rw [hproj.kept hdue]

end InvoiceLedger.Posted

/-! The three moves keep the ledger sound. -/

theorem LedgerSound.fresh {l : InvoiceLedger} (h : LedgerSound l) {id : Uuid}
    (hfresh : ∀ invoice ∈ l.invoices.rows, invoice.id ≠ id) :
    l.eventsOf id = [] ∧ l.snapshotsOf id = [] := by
  constructor
  · refine List.filter_eq_nil_iff.mpr ?_
    intro event hevent
    obtain ⟨invoice, hinvoice, hid⟩ := h.eventOwner event hevent
    simpa [← hid] using hfresh invoice hinvoice
  · refine List.filter_eq_nil_iff.mpr ?_
    intro snapshot hsnapshot
    obtain ⟨invoice, hinvoice, hid⟩ := h.snapshotOwner snapshot hsnapshot
    simpa [← hid] using hfresh invoice hinvoice

omit [Format] in
theorem RowSound.congr {l l' : InvoiceLedger} {invoice : Invoice} (h : RowSound l invoice)
    (he : l'.eventsOf invoice.id = l.eventsOf invoice.id) : RowSound l' invoice := by
  have hacc : l'.acc invoice.id = l.acc invoice.id := by
    unfold InvoiceLedger.acc InvoiceLedger.log
    rw [he]
  exact ⟨hacc ▸ h.agrees, h.nonneg⟩

omit [Context] [Format] in
theorem ne_of_not_clash {a b : Invoice} (h : ¬ Row.clash a b) : a.id ≠ b.id := by
  intro hid
  apply h
  show (a.id == b.id || _) = true
  simp [hid]

omit [Context] [Format] in
theorem InvoiceLedger.Created.owner_kept {l l' : InvoiceLedger} {invoice : Invoice}
    (hc : Created l l' invoice) {id : Uuid} (h : ∃ i ∈ l.invoices.rows, i.id = id) :
    ∃ i ∈ l'.invoices.rows, i.id = id := by
  obtain ⟨i, hi, hid⟩ := h
  exact ⟨i, (Table.mem_of_insert hc.row).mpr (.inl hi), hid⟩

omit [Context] [Format] in
theorem InvoiceLedger.Patched.owner_kept {l l' : InvoiceLedger} {id id' : Uuid} {data : InvoiceUpdate}
    (hp : Patched l l' id data) (h : ∃ i ∈ l.invoices.rows, i.id = id') :
    ∃ i ∈ l'.invoices.rows, i.id = id' := by
  obtain ⟨i, hi, rfl⟩ := h
  refine ⟨Table.updated (·.id == id) (Invoice.patch data) i, ?_, ?_⟩
  · rw [hp.row]
    exact List.mem_map_of_mem hi
  · unfold Table.updated
    split <;> rfl

omit [Context] [Format] in
theorem InvoiceLedger.Created.fresh {l l' : InvoiceLedger} {invoice : Invoice}
    (hc : Created l l' invoice) : ∀ a ∈ l.invoices.rows, a.id ≠ invoice.id :=
  fun _ ha => ne_of_not_clash (Table.not_clash_of_insert hc.row ha)

theorem LedgerSound.created_events {l l' : InvoiceLedger} {invoice : Invoice}
    (h : LedgerSound l) (hc : Created l l' invoice) (id : Uuid) :
    l'.eventsOf id =
      if invoice.id = id then
        [⟨invoice.id, 1, .invoiceIssued, invoice.total, invoice.createdAt, none⟩]
      else l.eventsOf id := by
  rw [eventsOf_insert hc.events]
  by_cases hid : invoice.id = id
  · rw [if_pos hid, if_pos hid, ← hid, (h.fresh hc.fresh).1]
    rfl
  · rw [if_neg hid, if_neg hid]

/-- A new log holds nothing but the issue of the invoice. -/
theorem LedgerSound.created_acc {l l' : InvoiceLedger} {invoice : Invoice} (h : LedgerSound l)
    (hc : Created l l' invoice) : l'.acc invoice.id =
      { total := invoice.total.val, issued := true, count := 1, sequence := 1 } := by
  unfold InvoiceLedger.acc InvoiceLedger.log
  rw [h.created_events hc, if_pos rfl]
  rfl

theorem LedgerSound.created {l l' : InvoiceLedger} {invoice : Invoice} (h : LedgerSound l)
    (hc : Created l l' invoice) : LedgerSound l' := by
  have hne := hc.fresh
  have hother : ∀ id, id ≠ invoice.id → l'.eventsOf id = l.eventsOf id := by
    intro id hid
    rw [h.created_events hc, if_neg (Ne.symm hid)]
  have hsnaps : ∀ id, l'.snapshotsOf id = l.snapshotsOf id := by
    intro id
    unfold snapshotsOf
    rw [hc.snapshots]
  refine ⟨?_, ?_, ?_, ?_⟩
  · intro event hevent
    rcases (Table.mem_of_insert hc.events).mp hevent with hevent | rfl
    · exact hc.owner_kept (h.eventOwner event hevent)
    · exact ⟨invoice, (Table.mem_of_insert hc.row).mpr (.inr rfl), rfl⟩
  · intro snapshot hsnapshot
    rw [hc.snapshots] at hsnapshot
    exact hc.owner_kept (h.snapshotOwner snapshot hsnapshot)
  · intro id
    by_cases hid : id = invoice.id
    · subst hid
      have hself := h.created_events hc invoice.id
      rw [if_pos rfl] at hself
      have hnil : l'.snapshotsOf invoice.id = [] := by rw [hsnaps, (h.fresh hne).2]
      refine ⟨?_, ?_, ?_, ?_⟩
      · rw [hself]
        exact Counted.nil.concat (by simp)
      · rw [hnil]
        exact .nil
      · rw [hnil, hself]
        show ((0 : ℕ) : ℤ) = ((1 : ℕ) : ℤ) / 50
        decide
      · intro snapshot hs
        rw [hnil] at hs
        cases hs
    · exact (h.log id).congr (hother id hid) (hsnaps id)
  · intro a ha
    rcases (Table.mem_of_insert hc.row).mp ha with ha | rfl
    · exact (h.row a ha).congr (hother a.id (hne a ha))
    · have hacc := h.created_acc hc
      refine ⟨⟨?_, ?_, ?_⟩, ?_⟩
      · rw [hacc]
      · simp [hacc, Numeric.val, hc.unpaid]
      · simp [hacc, Numeric.val, hc.uncredited]
      · rw [hc.owed]
        exact hc.total_nonneg

theorem LedgerSound.patched {l l' : InvoiceLedger} {id : Uuid} {data : InvoiceUpdate}
    (h : LedgerSound l) (hp : Patched l l' id data) : LedgerSound l' := by
  have hevents : ∀ id, l'.eventsOf id = l.eventsOf id := by
    intro id
    unfold eventsOf
    rw [hp.events]
  have hsnaps : ∀ id, l'.snapshotsOf id = l.snapshotsOf id := by
    intro id
    unfold snapshotsOf
    rw [hp.snapshots]
  refine ⟨?_, ?_, fun id => (h.log id).congr (hevents id) (hsnaps id), ?_⟩
  · intro event hevent
    rw [hp.events] at hevent
    exact hp.owner_kept (h.eventOwner event hevent)
  · intro snapshot hsnapshot
    rw [hp.snapshots] at hsnapshot
    exact hp.owner_kept (h.snapshotOwner snapshot hsnapshot)
  · intro b hb
    rw [hp.row] at hb
    obtain ⟨a, ha, ⟨-, rfl⟩ | ⟨-, rfl⟩⟩ := Table.mem_update hb
    · exact (h.row b ha).congr (hevents _)
    · have hrow : RowSound l' a := (h.row a ha).congr (hevents _)
      exact ⟨⟨hrow.agrees.total, hrow.agrees.amountPaid, hrow.agrees.credited⟩, hrow.nonneg⟩

omit [Context] [Format] in
theorem getInvoice_eq_some {l : InvoiceLedger} {id : Uuid} {invoice : Invoice} :
    l.getInvoice id = some invoice ↔ invoice ∈ l.invoices.rows ∧ invoice.id = id := by
  unfold getInvoice
  rw [Table.find?_eq_some_iff]
  · simp
  · intro a b ha hb
    simp only [beq_iff_eq] at ha hb
    show (a.id == b.id || _) = true
    simp [ha, hb]

/-- A row after a posting is another invoice's, unchanged, or the projection of the
one that was locked. -/
theorem LedgerSound.posted_row {l l' : InvoiceLedger} {invoice row : Invoice}
    {event : InvoiceEvent Money} {payment : Option Payment} (h : LedgerSound l)
    (hp : Posts l l' invoice event payment) (hrow : row ∈ l'.invoices.rows) :
    (event.invoiceId ≠ row.id ∧ row ∈ l.invoices.rows) ∨
      (event.invoiceId = row.id ∧ event.invoiceId = invoice.id ∧ invoice ∈ l.invoices.rows ∧
        invoice.project? ((l.acc event.invoiceId).apply event.load).finalize = some row) := by
  obtain ⟨hget, -, -, hp⟩ := hp
  have hproj := hp.projected (h.log _)
  have hupdate : l.invoices.update? (·.id == event.invoiceId) _ _ = some l'.invoices := hproj.row
  obtain ⟨a, ha, ⟨hsel, rfl⟩ | ⟨hsel, hproject⟩⟩ := Table.mem_of_update? hupdate hrow
  · have hne : event.invoiceId ≠ row.id := by
      intro he
      simp [he] at hsel
    exact .inl ⟨hne, ha⟩
  · have hsel : a.id = event.invoiceId := by simpa using hsel
    obtain rfl : a = invoice := by
      have hget' := getInvoice_eq_some.mpr ⟨ha, hsel⟩
      exact Option.some.inj (hget'.symm.trans hget)
    have hid : row.id = a.id := (Invoice.project?_eq_some hproject).2.2.2.1
    rw [hp.acc_self] at hproject
    exact .inr ⟨by rw [hid, hsel], hsel.symm, ha, hproject⟩

theorem LedgerSound.posted_kept {l l' : InvoiceLedger} {invoice : Invoice}
    {event : InvoiceEvent Money} {payment : Option Payment} (h : LedgerSound l)
    (hp : Posts l l' invoice event payment) {id : Uuid} (hid : ∃ i ∈ l.invoices.rows, i.id = id) :
    ∃ i ∈ l'.invoices.rows, i.id = id := by
  have hproj := hp.2.2.2.projected (h.log _)
  have hupdate : l.invoices.update? (·.id == event.invoiceId) _ _ = some l'.invoices := hproj.row
  obtain ⟨a, ha, rfl⟩ := hid
  rw [Table.rows_of_update? hupdate]
  refine ⟨_, List.mem_map_of_mem ha, ?_⟩
  unfold Table.updated
  split
  · rename_i hsel
    obtain ⟨a', ha'⟩ := Table.isSome_of_update? hupdate ha hsel
    simp only [ha', Option.getD_some]
    exact (Invoice.project?_eq_some ha').2.2.2.1
  · rfl

theorem LedgerSound.posted {l l' : InvoiceLedger} {invoice : Invoice} {event : InvoiceEvent Money}
    {payment : Option Payment} (h : LedgerSound l) (hposts : Posts l l' invoice event payment) :
    LedgerSound l' := by
  obtain ⟨hget, hwithin, -, hp⟩ := id hposts
  obtain ⟨hmem, hid⟩ := getInvoice_eq_some.mp hget
  have hproj := hp.projected (h.log _)
  refine ⟨?_, ?_, ?_, ?_⟩
  · intro e he
    rcases (Table.mem_of_insert hp.events).mp he with he | rfl
    · exact h.posted_kept hposts (h.eventOwner e he)
    · exact h.posted_kept hposts ⟨invoice, hmem, hid⟩
  · intro snapshot hs
    by_cases hdue : SnapshotDue { l with invoiceEvents := l'.invoiceEvents, payments := l'.payments }
        event.invoiceId (l'.acc event.invoiceId).finalize
    · rcases (Table.mem_of_insert (hproj.taken hdue)).mp hs with hs | rfl
      · exact h.posted_kept hposts (h.snapshotOwner snapshot hs)
      · exact h.posted_kept hposts ⟨invoice, hmem, hid⟩
    · rw [hproj.kept hdue] at hs
      exact h.posted_kept hposts (h.snapshotOwner snapshot hs)
  · intro id
    by_cases hsame : event.invoiceId = id
    · subst hsame
      exact hp.logSound_self (h.log _)
    · obtain ⟨hevents, hsnaps⟩ := hp.frame hsame
      exact (h.log id).congr hevents hsnaps
  · intro row hrow
    rcases h.posted_row hposts hrow with ⟨hne, hold⟩ | ⟨hrowid, hinvoice, hold, hproject⟩
    · exact (h.row row hold).congr (hp.frame hne).1
    · have hagrees := (h.row invoice hold).agrees
      rw [← hinvoice] at hagrees
      refine ⟨?_, balance_nonneg hagrees hwithin hproject (h.row invoice hold).nonneg⟩
      rw [← hrowid, hp.acc_self]
      exact (hagrees.project hwithin.1 hproject).1

theorem ledgerSound_kept : Kept Policy.any LedgerSound where
  created h hc := h.created hc
  sent h _ _ hp := h.patched hp
  patched h _ _ hp := h.patched hp
  posted h hp := h.posted hp
  paid h _ hp := h.posted hp

theorem ledgerSound_empty : LedgerSound {} where
  eventOwner _ h := by cases h
  snapshotOwner _ h := by cases h
  log _ := by
    refine ⟨.nil, .nil, ?_, fun _ h => by cases h⟩
    show ((0 : ℕ) : ℤ) = ((0 : ℕ) : ℤ) / 50
    decide
  row _ h := by cases h

/-! The read model in the program's own terms. -/

/-- The events that the next projection replays. -/
def InvoiceLedger.replayed (l : InvoiceLedger) (id : Uuid) : List (InvoiceEvent ℚ) :=
  match l.latestSnapshot id with
  | none => l.listByInvoice id
  | some snapshot => l.listAfterSequence id snapshot.sequence

structure ReadModel (l : InvoiceLedger) (invoice : Invoice) : Prop where
  sequences : (l.listByInvoice invoice.id).map InvoiceEvent.sequence =
    (List.range (l.listByInvoice invoice.id).length).map (fun i : ℕ => (i : ℤ) + 1)
  snapshots : ∀ snapshot ∈ l.snapshotsOf invoice.id,
    InvoiceState.fromSnapshot snapshot.state = some (foldInvoiceEvents
      ((l.listByInvoice invoice.id).filter (·.sequence ≤ snapshot.sequence)))
  resumed : l.derived? invoice.id = some (foldInvoiceEvents (l.listByInvoice invoice.id))
  tail : ((l.replayed invoice.id).length : ℤ) < snapshotInterval
  amountPaid : invoice.amountPaid.val = (foldInvoiceEvents (l.listByInvoice invoice.id)).amountPaid
  amountCredited :
    invoice.amountCredited.val = (foldInvoiceEvents (l.listByInvoice invoice.id)).credited
  balanceDue : invoice.balanceDue.val = (foldInvoiceEvents (l.listByInvoice invoice.id)).balanceDue
  balance : invoice.balanceDue.val =
    invoice.total.val - invoice.amountCredited.val - invoice.amountPaid.val
  nonneg : 0 ≤ invoice.balanceDue.val

theorem replayed_length {l : InvoiceLedger} {id : Uuid} (h : LogSound l id) :
    ((l.replayed id).length : ℤ) < snapshotInterval := by
  have hinterval : snapshotInterval = 50 := rfl
  have htaken := h.taken
  have hlog := inSequence_log h.sequences
  unfold InvoiceLedger.replayed
  cases hlatest : l.latestSnapshot id with
  | none =>
    have hnil : l.snapshotsOf id = [] := latestBy_eq_none.mp hlatest
    have hlength : (l.listByInvoice id).length = (l.eventsOf id).length := by
      rw [listByInvoice_eq h.sequences, InvoiceLedger.log, List.length_map]
    rw [hnil, List.length_nil, hinterval] at htaken
    simp only [hlength]
    omega
  | some snapshot =>
    have hnumber := h.cadence.number_latestBy (by decide) hlatest
    have htail : InSequence ((l.log id).filter (snapshot.sequence < ·.sequence)) :=
      List.Pairwise.sublist List.filter_sublist hlog
    have hlist : l.listAfterSequence id snapshot.sequence =
        (l.log id).filter (snapshot.sequence < ·.sequence) := htail.sort_eq
    have hlength := (counted_load.mpr h.sequences).length_filter_lt (k := snapshot.sequence)
      (by rw [hnumber, hinterval]; positivity)
    rw [List.length_map] at hlength
    show ((l.listAfterSequence id snapshot.sequence).length : ℤ) < snapshotInterval
    rw [hlist, InvoiceLedger.log, hlength, hnumber, htaken, hinterval]
    omega

theorem LedgerSound.readModel {l : InvoiceLedger} (h : LedgerSound l) {invoice : Invoice}
    (hmem : invoice ∈ l.invoices.rows) : ReadModel l invoice := by
  have hlog := h.log invoice.id
  have hrow := h.row invoice hmem
  have hfold := fold_eq_acc hlog.sequences
  have hlist := listByInvoice_eq hlog.sequences
  refine ⟨?_, ?_, ?_, replayed_length hlog, ?_, ?_, ?_, ?_, ?_⟩
  · have hcounted : Counted 1 InvoiceEvent.sequence (l.log invoice.id) :=
      counted_load.mpr hlog.sequences
    rw [hlist, hcounted]
    simp only [one_mul]
  · intro snapshot hs
    have hprefix : InSequence ((l.log invoice.id).filter (·.sequence ≤ snapshot.sequence)) :=
      List.Pairwise.sublist List.filter_sublist (inSequence_log hlog.sequences)
    rw [hlog.states snapshot hs, InvoiceState.fromSnapshot_toSnapshot, hlist,
      foldInvoiceEvents_of_inSequence hprefix]
  · rw [hfold]
    exact derived?_eq hlog.sequences hlog.states
  · rw [hfold]
    exact hrow.agrees.amountPaid.symm
  · rw [hfold]
    exact hrow.agrees.credited.symm
  · rw [hfold]
    exact hrow.agrees.balanceDue.symm
  · simp only [Numeric.val, ofUnits_sub]
    rw [invoice.balanceConsistent]
  · simpa [Numeric.val] using hrow.nonneg

/-- In every state that requests can reach from an empty ledger, failing anywhere,
each invoice's row and snapshots are the fold of its log. -/
theorem reachable_readModel {start db : Db} (hstart : start.toInvoiceLedger = {})
    (hrun : Runs.Reaches invoiceStep Runs.always start db) :
    ∀ invoice ∈ db.invoices.rows, ReadModel db.toInvoiceLedger invoice := by
  have hobeys : Runs.Reaches invoiceStep (Obeys Policy.any) start db := by
    refine hrun.weaken ?_
    intro db action _
    exact obeys_any db action
  have hsound : LedgerSound db.toInvoiceLedger :=
    ledgerSound_kept.run (by rw [hstart]; exact ledgerSound_empty) hobeys
  intro invoice hmem
  exact hsound.readModel hmem

end

/-- Issued, sent, half paid in cash, then settled. -/
def settledRun : List InvoiceAction :=
  [(.createInvoice sampleInvoice 10 1, noFaults), (.sendInvoice 10, noFaults),
    (.recordCashPayment (samplePayment 580 (by norm_num)) 7 20, noFaults),
    (.markInvoicePaid 10 none .bank none 21 9, noFaults)]

theorem settledRun_readModel :
    letI := Context.default
    letI := Format.plain
    ∃ db, Runs.replay invoiceStep Runs.always oneCustomer settledRun = some db ∧
      db.invoices.rows.map (fun invoice => (invoice.status, invoice.amountPaid.units)) =
        [(.paid, 116000)] ∧
      ∀ invoice ∈ db.invoices.rows, ReadModel db.toInvoiceLedger invoice := by
  let := Context.default
  let := Format.plain
  have hrun : Runs.replay invoiceStep Runs.always oneCustomer settledRun = some _ := rfl
  refine ⟨_, hrun, by decide +kernel, ?_⟩
  exact reachable_readModel rfl (Runs.replay_reaches hrun)

end Finguard
