import Finguard.Lib.Table
import Finguard.Lib.Text
import Finguard.Types

/-! The sweep that has the model classify ledger entries, and what it does to the ledger. -/

namespace Finguard
open Text

inductive TransactionType where
  | debit
  | credit

def TransactionType.value : TransactionType → String
  | debit => "debit"
  | credit => "credit"

structure LedgerEntry where
  id : Uuid
  transactionType : TransactionType
  amount : Money
  description : Option String := none
  category : Option String := none
  createdAt : DateTime

instance : Row LedgerEntry where
  clash a b := a.id == b.id
  clash_symm h := by
    rw [beq_iff_eq] at h ⊢
    exact h.symm

/-- A ledger entry as the model sees it. -/
structure ClassifierEntry where
  entryId : String
  narrative : String
  amount : ℚ
  transactionType : String

structure TransactionClassification where
  entryId : String
  category : String
  confidence : ℚ := 0

def transactionTaxonomy : List String :=
  ["payroll", "utilities", "travel_and_accommodation", "office_supplies", "vendor_payment",
    "bank_charges", "tax_and_levies", "professional_services", "marketing_and_advertising",
    "equipment_and_maintenance", "loan_repayment", "insurance", "rent_and_premises",
    "revenue_income", "refund", "inter_account_transfer", "other"]

def batchSize : ℕ := 50

/-- The rows that the sweep locks. Those that someone else has locked are skipped. -/
def fetchUnclassified (lockedElsewhere : Uuid → Bool) (ledger : Table LedgerEntry) :
    List LedgerEntry :=
  ((ledger.filter fun row => row.category.isNone && !lockedElsewhere row.id).insertionSort
    fun a b => a.createdAt ≤ b.createdAt).take batchSize

/-- Entries that the model has left out are added as "other". -/
def padded (entries : List ClassifierEntry) (returned : List TransactionClassification) :
    List TransactionClassification :=
  returned ++ (entries.filter fun entry => entry.entryId ∉ returned.map (·.entryId)).map
    fun entry => { entryId := entry.entryId, category := "other" }

/-- Categories that do not exist become "other". -/
def withinTaxonomy (c : TransactionClassification) : TransactionClassification :=
  if c.category ∈ transactionTaxonomy then c else { c with category := "other", confidence := 0 }

/-- An answer of the model, made fit for the ledger. -/
def completed (entries : List ClassifierEntry) (returned : List TransactionClassification) :
    List TransactionClassification :=
  (padded entries returned).map withinTaxonomy

def classifyBatch
    (ask : List ClassifierEntry → Except String (List TransactionClassification))
    (entries : List ClassifierEntry) : Except String (List TransactionClassification) :=
  if entries.isEmpty then .ok []
  else (ask entries).map (completed entries)

section batch
variable {ledger : Table LedgerEntry} {row : LedgerEntry} {entries : List ClassifierEntry}
  {returned : List TransactionClassification}

theorem mem_fetchUnclassified {lockedElsewhere : Uuid → Bool}
    (h : row ∈ fetchUnclassified lockedElsewhere ledger) :
    row ∈ ledger.rows ∧ row.category = none ∧ lockedElsewhere row.id = false := by
  have hsorted := List.mem_of_mem_take h
  rw [List.mem_insertionSort] at hsorted
  obtain ⟨hmem, hfree⟩ := List.mem_filter.mp hsorted
  simp only [Bool.and_eq_true, Option.isNone_iff_eq_none, Bool.not_eq_true'] at hfree
  exact ⟨hmem, hfree⟩

theorem mem_padded {c : TransactionClassification} :
    c ∈ completed entries returned → c.category ∈ transactionTaxonomy ∧
      ((∃ c' ∈ returned, c'.entryId = c.entryId) ∨ ∃ entry ∈ entries, entry.entryId = c.entryId) := by
  intro h
  obtain ⟨c', hc', rfl⟩ := List.mem_map.mp h
  have hid : (withinTaxonomy c').entryId = c'.entryId := by
    rw [withinTaxonomy]
    split <;> rfl
  refine ⟨?_, ?_⟩
  · rw [withinTaxonomy]
    split
    · assumption
    · show "other" ∈ transactionTaxonomy
      decide
  · rw [hid]
    rcases List.mem_append.mp hc' with hin | hin
    · exact .inl ⟨c', hin, rfl⟩
    · obtain ⟨entry, hentry, rfl⟩ := List.mem_map.mp hin
      exact .inr ⟨entry, (List.mem_filter.mp hentry).1, rfl⟩

/-- Every id that the model has returned, and every entry, is among the classifications. -/
theorem entryIds_padded (entries : List ClassifierEntry)
    (returned : List TransactionClassification) {entryId : String}
    (h : (∃ c ∈ returned, c.entryId = entryId) ∨ ∃ entry ∈ entries, entry.entryId = entryId) :
    ∃ c ∈ completed entries returned, c.entryId = entryId := by
  have hid : ∀ c : TransactionClassification, (withinTaxonomy c).entryId = c.entryId := by
    intro c
    rw [withinTaxonomy]
    split <;> rfl
  by_cases hreturned : ∃ c ∈ returned, c.entryId = entryId
  · obtain ⟨c, hc, rfl⟩ := hreturned
    exact ⟨_, List.mem_map_of_mem (List.mem_append_left _ hc), hid c⟩
  · obtain ⟨entry, hentry, rfl⟩ := h.resolve_left hreturned
    have hleft : entry.entryId ∉ returned.map (·.entryId) := by
      intro hin
      obtain ⟨c, hc, hsame⟩ := List.mem_map.mp hin
      exact hreturned ⟨c, hc, hsame⟩
    refine ⟨_, List.mem_map_of_mem (List.mem_append_right _ (List.mem_map_of_mem
      (List.mem_filter.mpr ⟨hentry, decide_eq_true hleft⟩))), hid _⟩

end batch

section
variable [Format]

def LedgerEntry.toClassifier (row : LedgerEntry) : ClassifierEntry where
  entryId := Format.identifier row.id
  narrative := row.description.getD ""
  amount := row.amount.val
  transactionType := row.transactionType.value

inductive BatchFailure where
  | malformedId (entryId : String)
  | hub (error : String)
deriving DecidableEq

def LedgerEntry.classified (category : String) (row : LedgerEntry) : LedgerEntry :=
  { row with category := some category }

/-- One statement: the entry id is cast to an identifier. -/
def setCategory (ledger : Table LedgerEntry) (c : TransactionClassification) :
    Except BatchFailure (Table LedgerEntry) :=
  match Format.ofIdentifier c.entryId with
  | none => .error (.malformedId c.entryId)
  | some id =>
    .ok (ledger.update (·.id = id) (LedgerEntry.classified c.category) fun _ _ => rfl)

def persist (ledger : Table LedgerEntry) (classifications : List TransactionClassification) :
    Except BatchFailure (Table LedgerEntry) :=
  classifications.foldlM setCategory ledger

structure ClassificationEnv where
  lockedElsewhere : Uuid → Bool := fun _ => false
  ask : List ClassifierEntry → Except String (List TransactionClassification)
  requireTaskVc : List String → Except String Unit := fun _ => .ok ()
  writeToHub : List TransactionClassification → Except String (Option String) := fun _ => .ok none

inductive BatchReport where
  | noWork
  | llmError (error : String)
  | vcFailed
  | ok (classified : ℕ) (entryIds : List String) (hubArtifactId : Option String)
deriving DecidableEq

/-- The ledger after a run, the entry ids of the event, and what the run returns. -/
structure BatchOutcome where
  ledger : Table LedgerEntry
  event : Option (List String) := none
  result : Except BatchFailure BatchReport

def runBatchClassification (env : ClassificationEnv) (ledger : Table LedgerEntry) :
    BatchOutcome :=
  let rows := fetchUnclassified env.lockedElsewhere ledger
  if rows.isEmpty then ⟨ledger, none, .ok .noWork⟩
  else
    let entries := rows.map LedgerEntry.toClassifier
    match classifyBatch env.ask entries with
    | .error e => ⟨ledger, none, .ok (.llmError e)⟩
    | .ok classifications =>
      match env.requireTaskVc (entries.map (·.entryId)) with
      | .error _ => ⟨ledger, none, .ok .vcFailed⟩
      | .ok () =>
        match persist ledger classifications with
        | .error e => ⟨ledger, none, .error e⟩
        | .ok ledger =>
          let ids := classifications.map (·.entryId)
          ⟨ledger, some ids, match env.writeToHub classifications with
            | .error e => .error (.hub e)
            | .ok artifactId => .ok (.ok ids.length ids artifactId)⟩

/-- What a run says that it has classified, in its event and in its report. -/
def BatchOutcome.reported (outcome : BatchOutcome) : List String :=
  outcome.event.getD [] ++ match outcome.result with
    | .ok (.ok _ ids _) => ids
    | _ => []

/-- One statement after the other, as it meets a row. -/
def classifiedBy (classifications : List TransactionClassification) (row : LedgerEntry) :
    LedgerEntry :=
  classifications.foldl (fun row c =>
    Table.updated (fun row => Format.ofIdentifier c.entryId = some row.id)
      (LedgerEntry.classified c.category) row) row

section persist
variable {ledger ledger' : Table LedgerEntry} {classifications : List TransactionClassification}
  {row : LedgerEntry}

theorem setCategory_eq_ok {c : TransactionClassification} (h : setCategory ledger c = .ok ledger') :
    (Format.ofIdentifier c.entryId).isSome ∧
      ledger'.rows = ledger.rows.map (classifiedBy [c]) := by
  rw [setCategory] at h
  cases hid : Format.ofIdentifier c.entryId with
  | none =>
    rw [hid] at h
    cases h
  | some id =>
    rw [hid] at h
    obtain rfl := Except.ok.inj h
    refine ⟨rfl, List.map_congr_left fun row _ => ?_⟩
    simp [classifiedBy, Table.updated, hid, eq_comm]

theorem persist_eq_ok (h : persist ledger classifications = .ok ledger') :
    (∀ c ∈ classifications, (Format.ofIdentifier c.entryId).isSome) ∧
      ledger'.rows = ledger.rows.map (classifiedBy classifications) := by
  induction classifications generalizing ledger with
  | nil =>
    obtain rfl := Except.ok.inj h
    exact ⟨by simp, (List.map_id _).symm⟩
  | cons c rest ih =>
    rw [persist, List.foldlM_cons] at h
    cases hfirst : setCategory ledger c with
    | error e =>
      rw [hfirst] at h
      cases h
    | ok next =>
      rw [hfirst] at h
      obtain ⟨hid, hrows⟩ := setCategory_eq_ok hfirst
      obtain ⟨hids, hrest⟩ := ih h
      refine ⟨List.forall_mem_cons.mpr ⟨hid, hids⟩, ?_⟩
      rw [hrest, hrows, List.map_map]
      rfl

theorem persist_total (h : ∀ c ∈ classifications, (Format.ofIdentifier c.entryId).isSome) :
    ∃ ledger', persist ledger classifications = .ok ledger' := by
  induction classifications generalizing ledger with
  | nil => exact ⟨ledger, rfl⟩
  | cons c rest ih =>
    obtain ⟨hfirst, hrest⟩ := List.forall_mem_cons.mp h
    obtain ⟨id, hid⟩ := Option.isSome_iff_exists.mp hfirst
    obtain ⟨ledger', hledger'⟩ := @ih (ledger.update (·.id = id)
      (LedgerEntry.classified c.category) fun _ _ => rfl) hrest
    refine ⟨ledger', ?_⟩
    rw [persist, List.foldlM_cons, setCategory, hid]
    exact hledger'

theorem classifiedBy_eq_self
    (h : ∀ c ∈ classifications, Format.ofIdentifier c.entryId ≠ some row.id) :
    classifiedBy classifications row = row := by
  induction classifications with
  | nil => rfl
  | cons c rest ih =>
    obtain ⟨hfirst, hrest⟩ := List.forall_mem_cons.mp h
    have hkept : Table.updated (fun row => Format.ofIdentifier c.entryId = some row.id)
        (LedgerEntry.classified c.category) row = row := by
      simp [Table.updated, hfirst]
    rw [classifiedBy, List.foldl_cons, hkept]
    exact ih hrest

/-- A row has been given a category of the taxonomy, and nothing else about it has changed. -/
def Classified (row row' : LedgerEntry) : Prop :=
  ∃ category ∈ transactionTaxonomy, row' = row.classified category

/-- The statements only touch the category. -/
theorem classified_classifiedBy (category : String) :
    (classifiedBy classifications row).classified category = row.classified category := by
  induction classifications generalizing row with
  | nil => rfl
  | cons c rest ih =>
    rw [classifiedBy, List.foldl_cons]
    refine ih.trans ?_
    rw [Table.updated]
    split <;> rfl

theorem id_classifiedBy : (classifiedBy classifications row).id = row.id := by
  have hsame : (classifiedBy classifications row).classified "other" = row.classified "other" :=
    classified_classifiedBy "other"
  exact congrArg (·.id) hsame

/-- A row that some statement names ends up with the category of the last one that does. -/
theorem classified_of_named (htaxonomy : ∀ c ∈ classifications, c.category ∈ transactionTaxonomy)
    (hnamed : ∃ c ∈ classifications, Format.ofIdentifier c.entryId = some row.id) :
    Classified row (classifiedBy classifications row) := by
  induction classifications using List.reverseRecOn with
  | nil =>
    obtain ⟨c, hc, -⟩ := hnamed
    cases hc
  | append_singleton earlier c ih =>
    have hlast : classifiedBy (earlier ++ [c]) row = Table.updated
        (fun row => Format.ofIdentifier c.entryId = some row.id)
        (LedgerEntry.classified c.category) (classifiedBy earlier row) := List.foldl_append
    by_cases hc : Format.ofIdentifier c.entryId = some row.id
    · refine ⟨c.category, htaxonomy c (by simp), ?_⟩
      rw [hlast, Table.updated, if_pos (by rw [id_classifiedBy]; exact decide_eq_true hc),
        classified_classifiedBy]
    · have hkept : classifiedBy (earlier ++ [c]) row = classifiedBy earlier row := by
        rw [hlast, Table.updated, if_neg (by rw [id_classifiedBy]; simpa using hc)]
      rw [hkept]
      refine ih (fun c' hc' => htaxonomy c' (List.mem_append_left _ hc')) ?_
      obtain ⟨c', hc', hrow⟩ := hnamed
      rcases List.mem_append.mp hc' with hin | hin
      · exact ⟨c', hin, hrow⟩
      · rw [List.mem_singleton.mp hin] at hrow
        exact absurd hrow hc

end persist

/-- An entry id that names a row of the batch. -/
def Names (batch : List LedgerEntry) (entryId : String) : Prop :=
  ∃ row ∈ batch, Format.ofIdentifier entryId = some row.id

/-- What a sweep may do: it gives rows of its batch a category of the taxonomy, all of them where
the model has answered and the check was passed, and reports rows of its batch only. -/
structure BatchOutcome.Framed (outcome : BatchOutcome) (env : ClassificationEnv)
    (ledger : Table LedgerEntry) (batch : List LedgerEntry) : Prop where
  frame : List.Forall₂ (fun row row' => row' = row ∨ row ∈ batch ∧ Classified row row')
    ledger.rows outcome.ledger.rows
  classified : (∃ returned, env.ask (batch.map LedgerEntry.toClassifier) = .ok returned) →
    env.requireTaskVc (batch.map (Format.identifier ·.id)) = .ok () →
    ∀ row ∈ batch, ∃ row' ∈ outcome.ledger.rows, Classified row row'
  reported : ∀ entryId ∈ outcome.reported, Names batch entryId

section run
variable {env : ClassificationEnv} {ledger ledger' : Table LedgerEntry}
  {returned : List TransactionClassification} {batch : List LedgerEntry}

theorem names_identifier {row : LedgerEntry} (h : row ∈ batch) :
    Names batch (Format.identifier row.id) :=
  ⟨row, h, Format.ofIdentifier_identifier row.id⟩

theorem names_of_padded (hreturned : ∀ c ∈ returned, Names batch c.entryId) :
    ∀ c ∈ completed (batch.map LedgerEntry.toClassifier) returned,
      Names batch c.entryId := by
  intro c hc
  obtain ⟨-, ⟨c', hc', hsame⟩ | ⟨entry, hentry, hsame⟩⟩ := mem_padded hc
  · rw [← hsame]
    exact hreturned c' hc'
  · obtain ⟨row, hrow, rfl⟩ := List.mem_map.mp hentry
    rw [← hsame]
    exact names_identifier hrow

omit [Format] in
theorem not_classified_of_fetched {row : LedgerEntry}
    (h : row ∈ fetchUnclassified env.lockedElsewhere ledger) :
    ¬ ∃ row' ∈ ledger.rows, Classified row row' := by
  rintro ⟨row', hrow', category, -, rfl⟩
  obtain ⟨hmem, hnone, -⟩ := mem_fetchUnclassified h
  have hclash : Row.clash row (row.classified category) := beq_self_eq_true row.id
  have hsame : row = row.classified category := Table.eq_of_clash hmem hrow' hclash
  rw [hsame] at hnone
  cases hnone

theorem forall₂_of_names {classifications : List TransactionClassification}
    (hbatch : batch ⊆ ledger.rows)
    (htaxonomy : ∀ c ∈ classifications, c.category ∈ transactionTaxonomy)
    (hnames : ∀ c ∈ classifications, Names batch c.entryId) :
    List.Forall₂ (fun row row' => row' = row ∨ row ∈ batch ∧ Classified row row')
      ledger.rows (ledger.rows.map (classifiedBy classifications)) := by
  rw [List.forall₂_map_right_iff, List.forall₂_same]
  intro row hrow
  by_cases hnamed : ∃ c ∈ classifications, Format.ofIdentifier c.entryId = some row.id
  · have hclassified := classified_of_named htaxonomy hnamed
    obtain ⟨c, hc, hid⟩ := hnamed
    obtain ⟨other, hother, hid'⟩ := hnames c hc
    have hclash : Row.clash other row := by
      rw [hid, Option.some.injEq] at hid'
      exact beq_iff_eq.mpr hid'.symm
    obtain rfl : other = row := Table.eq_of_clash (hbatch hother) hrow hclash
    exact .inr ⟨hother, hclassified⟩
  · refine .inl (classifiedBy_eq_self fun c hc hid => hnamed ⟨c, hc, hid⟩)

theorem BatchOutcome.Framed.unchanged {result : Except BatchFailure BatchReport}
    (hanswered : ¬ ((∃ returned, env.ask (batch.map LedgerEntry.toClassifier) = .ok returned) ∧
      env.requireTaskVc (batch.map (Format.identifier ·.id)) = .ok () ∧ batch ≠ []))
    (hresult : ∀ count ids artifactId, result ≠ .ok (.ok count ids artifactId)) :
    (⟨ledger, none, result⟩ : BatchOutcome).Framed env ledger batch where
  frame := List.forall₂_same.mpr fun _ _ => .inl rfl
  classified hasked hvc row hrow :=
    absurd ⟨hasked, hvc, List.ne_nil_of_mem hrow⟩ hanswered
  reported := by
    intro entryId hentry
    rw [BatchOutcome.reported] at hentry
    split at hentry
    · next count ids artifactId hok => exact absurd hok (hresult count ids artifactId)
    · cases hentry

omit [Format] in
theorem mem_reported {ids : List String} {hub : Except String (Option String)} {entryId : String}
    (h : entryId ∈ (⟨ledger, some ids, match hub with
      | .error e => .error (.hub e)
      | .ok artifactId => .ok (.ok ids.length ids artifactId)⟩ : BatchOutcome).reported) :
    entryId ∈ ids := by
  cases hub with
  | error e => simpa [BatchOutcome.reported] using h
  | ok artifactId => simpa [BatchOutcome.reported] using h

theorem framed_persist_iff (hbatch : batch = fetchUnclassified env.lockedElsewhere ledger)
    (hne : batch ≠ []) (hasked : env.ask (batch.map LedgerEntry.toClassifier) = .ok returned)
    (hvc : env.requireTaskVc (batch.map (Format.identifier ·.id)) = .ok ()) :
    (runBatchClassification env ledger).Framed env ledger batch ↔
      ∀ c ∈ returned, Names batch c.entryId := by
  have hsub : batch ⊆ ledger.rows := by
    intro row hrow
    rw [hbatch] at hrow
    exact (mem_fetchUnclassified hrow).1
  have hclassify : classifyBatch env.ask (batch.map LedgerEntry.toClassifier) =
      .ok (completed (batch.map LedgerEntry.toClassifier) returned) := by
    rw [classifyBatch, if_neg (by simpa using hne), hasked]
    rfl
  have hids : (batch.map LedgerEntry.toClassifier).map (·.entryId) =
      batch.map (Format.identifier ·.id) := by
    rw [List.map_map]
    rfl
  rw [runBatchClassification, ← hbatch, if_neg (by simpa using hne)]
  dsimp only
  rw [hclassify, hids, hvc]
  dsimp only
  cases hpersist : persist ledger
      (completed (batch.map LedgerEntry.toClassifier) returned) with
  | error e =>
    constructor
    · intro h
      obtain ⟨row, hrow⟩ := List.exists_mem_of_ne_nil batch hne
      refine absurd (h.classified ⟨returned, hasked⟩ hvc row hrow) ?_
      rw [hbatch] at hrow
      exact not_classified_of_fetched hrow
    · intro hnames
      obtain ⟨ledger', hledger'⟩ := @persist_total _ ledger _ fun c hc => by
        obtain ⟨row, -, hid⟩ := names_of_padded hnames c hc
        rw [hid]
        rfl
      rw [hpersist] at hledger'
      cases hledger'
  | ok ledger' =>
    obtain ⟨-, hrows⟩ := persist_eq_ok hpersist
    constructor
    · intro h c hc
      obtain ⟨c', hc', hsame⟩ := entryIds_padded (batch.map LedgerEntry.toClassifier) returned
        (.inl ⟨c, hc, rfl⟩)
      rw [← hsame]
      exact h.reported _ (List.mem_append_left _ (List.mem_map_of_mem hc'))
    · intro hnames
      have hall := names_of_padded hnames
      have htaxonomy : ∀ c ∈ completed (batch.map LedgerEntry.toClassifier) returned,
          c.category ∈ transactionTaxonomy := fun c hc => (mem_padded hc).1
      refine ⟨?_, fun _ _ row hrow => ?_, fun entryId hentry => ?_⟩
      · rw [hrows]
        exact forall₂_of_names hsub htaxonomy hall
      · obtain ⟨c, hc, hid⟩ := entryIds_padded (batch.map LedgerEntry.toClassifier) returned
          (.inr ⟨_, List.mem_map_of_mem hrow, rfl⟩)
        refine ⟨_, ?_, classified_of_named htaxonomy ⟨c, hc, ?_⟩⟩
        · rw [hrows]
          exact List.mem_map_of_mem (hsub hrow)
        · rw [hid]
          exact Format.ofIdentifier_identifier row.id
      · have hin : entryId ∈ (completed (batch.map LedgerEntry.toClassifier) returned).map
            (·.entryId) := mem_reported hentry
        obtain ⟨c, hc, rfl⟩ := List.mem_map.mp hin
        exact hall c hc

end run

/-- Whatever the ledger holds: a sweep keeps to its batch just where every entry id that the model
returns names a row of the batch. -/
theorem batch_framed_iff (env : ClassificationEnv) (ledger : Table LedgerEntry) :
    let batch := fetchUnclassified env.lockedElsewhere ledger
    (runBatchClassification env ledger).Framed env ledger batch ↔
      (batch ≠ [] → env.requireTaskVc (batch.map (Format.identifier ·.id)) = .ok () →
        ∀ returned, env.ask (batch.map LedgerEntry.toClassifier) = .ok returned →
          ∀ c ∈ returned, Names batch c.entryId) := by
  intro batch
  by_cases hne : batch = []
  · refine iff_of_true ?_ fun h => absurd hne h
    have hrun : runBatchClassification env ledger = ⟨ledger, none, .ok .noWork⟩ := by
      rw [runBatchClassification, if_pos (List.isEmpty_iff.mpr hne)]
    rw [hrun]
    exact .unchanged (fun h => h.2.2 hne) (by simp)
  have hcalls : (batch.map LedgerEntry.toClassifier).isEmpty = false := by simpa using hne
  have hids : (batch.map LedgerEntry.toClassifier).map (·.entryId) =
      batch.map (Format.identifier ·.id) := by
    rw [List.map_map]
    rfl
  cases hasked : env.ask (batch.map LedgerEntry.toClassifier) with
  | error e =>
    have hrun : runBatchClassification env ledger = ⟨ledger, none, .ok (.llmError e)⟩ := by
      rw [runBatchClassification, if_neg (by simpa using hne)]
      dsimp only
      rw [classifyBatch, hcalls, hasked]
      rfl
    have hsilent : ¬ ∃ returned, env.ask (batch.map LedgerEntry.toClassifier) = .ok returned := by
      rintro ⟨returned, hreturned⟩
      rw [hasked] at hreturned
      cases hreturned
    rw [hrun]
    refine iff_of_true (.unchanged (fun h => hsilent h.1) (by simp)) fun _ _ returned hreturned => ?_
    cases hreturned
  | ok returned =>
    cases hvc : env.requireTaskVc (batch.map (Format.identifier ·.id)) with
    | error e =>
      have hrun : runBatchClassification env ledger = ⟨ledger, none, .ok .vcFailed⟩ := by
        rw [runBatchClassification, if_neg (by simpa using hne)]
        dsimp only
        rw [classifyBatch, hcalls, hasked, hids, hvc]
        rfl
      have hrefused : ¬ env.requireTaskVc (batch.map (Format.identifier ·.id)) = .ok () := by
        rw [hvc]
        rintro ⟨⟩
      rw [hrun]
      refine iff_of_true (.unchanged (fun h => hrefused h.2.1) (by simp)) fun _ hpassed => ?_
      cases hpassed
    | ok passed =>
      rw [framed_persist_iff rfl hne hasked hvc]
      constructor
      · rintro hnames - - other hother
        obtain rfl := Except.ok.inj hother
        exact hnames
      · exact fun hnames => hnames hne rfl returned rfl

end

/-- A row that has been classified as payroll, and one that has not been classified. -/
def halfClassified : Table LedgerEntry where
  rows := [
    { id := 1, transactionType := .debit, amount := ⟨5000, by decide⟩, category := some "payroll",
      createdAt := 0 },
    { id := 2, transactionType := .debit, amount := ⟨3000, by decide⟩, createdAt := 0 }]
  unique := by decide

/-- The model returns the id of the first row as well. -/
def strayAnswer : ClassificationEnv where
  ask _ := .ok [⟨"2", "utilities", 1⟩, ⟨"1", "insurance", 1⟩]

theorem classified_row_overwritten :
    letI := Format.plain
    let outcome := runBatchClassification strayAnswer halfClassified
    outcome.ledger.rows.map (·.category) = [some "insurance", some "utilities"] ∧
      ¬ outcome.Framed strayAnswer halfClassified
        (fetchUnclassified strayAnswer.lockedElsewhere halfClassified) := by
  let := Format.plain
  have hforeign : ∀ row ∈ fetchUnclassified strayAnswer.lockedElsewhere halfClassified,
      Format.ofIdentifier "1" ≠ some row.id := by decide +kernel
  have hreported : "1" ∈ (runBatchClassification strayAnswer halfClassified).reported := by
    decide +kernel
  refine ⟨by decide +kernel, fun h => ?_⟩
  obtain ⟨row, hrow, hid⟩ := h.reported "1" hreported
  exact hforeign row hrow hid

end Finguard
