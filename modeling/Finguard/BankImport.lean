import Finguard.BankReview
import Finguard.Lib.Distinct
import Finguard.MpesaCallback

/-! Imports of bank statement lines: the same lines in one request or in several, and again. -/

namespace Finguard
open Decimal Distinct Transaction Transaction.Tx

/-- A line of a statement, with what its schema checks. -/
structure BankStatementLineImport where
  amount : ℚ
  date : DateTime
  referenceText : Option String
  externalRef : String
  amount_pos : 0 < amount
  ref_ne_empty : externalRef ≠ ""
  ref_length : externalRef.toList.length ≤ 255

def textColumn? (s : String) : Option String := if hasNul s then none else some s

/-- A new line awaits its review. -/
def bankLineRow? (importedBy : Option Uuid) (id : Uuid) (line : BankStatementLineImport) :
    Option BankStatementLine := do
  let amount ← Numeric.store? 15 2 line.amount
  let referenceText ← line.referenceText.mapM textColumn?
  let externalRef ← varchar? 255 line.externalRef
  return {
    id, amount, referenceText, externalRef, importedBy
    date := line.date
    reviewStatus := bankReviewPending
    approvedBy := none
    approvedAt := none
    isReconciled := false }

def existingExternalRefs (refs : List String) : AppTx (List String) :=
  if refs = [] then return []
  else do
    site .existingExternalRefs
    write .database fun db => if refs.any hasNul then none else some db
    read fun db => (db.bankStatementLines.filter (·.externalRef ∈ refs)).map (·.externalRef)

/-- The lines whose reference is not stored and did not occur earlier in the request. -/
def newLines (alreadyPersisted : List String) :
    List String → List BankStatementLineImport → List BankStatementLineImport
  | _, [] => []
  | seenInRequest, line :: lines =>
    if line.externalRef ∈ alreadyPersisted ∨ line.externalRef ∈ seenInRequest then
      newLines alreadyPersisted seenInRequest lines
    else line :: newLines alreadyPersisted (line.externalRef :: seenInRequest) lines

def bulkCreateLines (importedBy : Option Uuid) (ids : ℕ → Uuid)
    (lines : List BankStatementLineImport) (db : Db) : Option Db := do
  let rows ← lines.zipIdx.mapM (fun line => bankLineRow? importedBy (ids line.2) line.1)
  let bankStatementLines ← db.bankStatementLines.insertAll? rows
  return { db with bankStatementLines }

section
variable [Context]

def bankStatementImported (importedBy : Option Uuid) (rows : List BankStatementLine) :
    OutboxEvent where
  exchange := "finguard.events"
  routingKey := "finance.bank_statement.imported"
  payload := .bankStatementImported importedBy rows.length (rows.map (·.externalRef))
    (rows.foldl (fun total row => add total row.amount.val) 0)

/-- `ids` are the identifiers that the new rows are given. -/
def importBankStatementLines (lines : List BankStatementLineImport) (currentUser : Option Uuid)
    (ids : ℕ → Uuid) : AppTx (List BankStatementLine) := do
  let alreadyPersisted ← existingExternalRefs (lines.map (·.externalRef))
  let fresh := newLines alreadyPersisted [] lines
  if fresh.isEmpty then return []
  else do
    flush .bulkCreateLines .database (bulkCreateLines currentUser ids fresh)
    let rows ← read fun db => (List.range fresh.length).filterMap fun i =>
      db.bankStatementLines.find? (·.id = ids i)
    assign fun db =>
      { db with outboxEvents := db.outboxEvents ++ [bankStatementImported currentUser rows] }
    commit
    return rows

end

/-! What an import adds. -/

def storedRefs (db : Db) : List String := db.bankStatementLines.rows.map (·.externalRef)

def additions (db : Db) (lines : List BankStatementLineImport) : List BankStatementLineImport :=
  distinct (·.externalRef) (storedRefs db) lines

/-- The columns hold the line, its amount rounded to cents. -/
def BankStatementLineImport.Storable (line : BankStatementLineImport) : Prop :=
  line.amount + 1 / 200 < 10 ^ 13 ∧ ∀ text ∈ line.referenceText, hasNul text = false

def Importable (db : Db) (lines : List BankStatementLineImport) : Prop :=
  (∀ line ∈ lines, hasNul line.externalRef = false) ∧ ∀ line ∈ additions db lines, line.Storable

def FreshIds (ids : ℕ → Uuid) (db : Db) : Prop :=
  Function.Injective ids ∧ ∀ row ∈ db.bankStatementLines.rows, ∀ i, row.id ≠ ids i

/-- The rows are those of the lines, each under an identifier of its own. -/
def RowsOf (importedBy : Option Uuid) :
    List BankStatementLineImport → List BankStatementLine → Prop :=
  List.Forall₂ (fun line row => bankLineRow? importedBy row.id line = some row)

/-- A row without its identifier. -/
def BankStatementLine.content (row : BankStatementLine) : BankStatementLine := { row with id := 0 }

def contents (db : Db) : List BankStatementLine := db.bankStatementLines.rows.map (·.content)

section rows
variable {importedBy : Option Uuid} {id : Uuid} {ids : ℕ → Uuid} {line : BankStatementLineImport}
  {lines : List BankStatementLineImport} {row : BankStatementLine} {rows rows' : List BankStatementLine}

theorem bankLineRow?_eq_some (h : bankLineRow? importedBy id line = some row) :
    row.id = id ∧ row.externalRef = line.externalRef := by
  simp only [bankLineRow?, Option.bind_eq_bind, Option.bind_eq_some_iff] at h
  obtain ⟨amount, -, text, -, ref, href, h⟩ := h
  obtain rfl := Option.some.inj h
  exact ⟨rfl, varchar?_of_length_le href line.ref_length⟩

theorem content_of_bankLineRow? (h : bankLineRow? importedBy id line = some row) :
    bankLineRow? importedBy 0 line = some row.content := by
  simp only [bankLineRow?, Option.bind_eq_bind, Option.bind_eq_some_iff] at h ⊢
  obtain ⟨amount, hamount, text, htext, ref, href, h⟩ := h
  obtain rfl := Option.some.inj h
  exact ⟨amount, hamount, text, htext, ref, href, rfl⟩

theorem mapM_textColumn? {text : Option String} :
    (text.mapM textColumn?).isSome ↔ ∀ s ∈ text, hasNul s = false := by
  cases text with
  | none => simp
  | some s => cases hs : hasNul s <;> simp [textColumn?, hs]

theorem settled_isSome {q : ℚ} (hq : 0 ≤ q) :
    (Numeric.store? 15 2 q).isSome ↔ q + 1 / 200 < 10 ^ 13 := by
  have hscaled : 0 ≤ q * 10 ^ 2 := by positivity
  have hround : roundHalfAway (q * 10 ^ 2) = ⌊q * 10 ^ 2 + 1 / 2⌋ := by
    rw [roundHalfAway_of_nonneg hscaled, round_eq]
  have hnonneg := roundHalfAway_nonneg hscaled
  have hfits : ⌊q * 10 ^ 2 + 1 / 2⌋ < 10 ^ 15 ↔ q + 1 / 200 < 10 ^ 13 := by
    rw [Int.floor_lt]
    push_cast
    constructor <;> intro h <;> linarith
  rw [← hfits, ← hround]
  simp only [Numeric.store?]
  split
  · rename_i hlt
    simp only [Option.isSome_some, true_iff]
    omega
  · rename_i hlt
    simp only [Option.isSome_none, Bool.false_eq_true, false_iff]
    omega

theorem bankLineRow?_isSome_iff (href : hasNul line.externalRef = false) :
    (bankLineRow? importedBy id line).isSome ↔ line.Storable := by
  have hvarchar : varchar? 255 line.externalRef = some line.externalRef := by
    simp [varchar?, href, line.ref_length]
  rw [BankStatementLineImport.Storable, ← settled_isSome line.amount_pos.le, ← mapM_textColumn?]
  simp only [bankLineRow?, Option.bind_eq_bind]
  cases Numeric.store? 15 2 line.amount with
  | none => simp
  | some amount =>
    cases line.referenceText.mapM textColumn? with
    | none => simp
    | some text => simp [hvarchar]

theorem RowsOf.content_eq (h : RowsOf importedBy lines rows) (h' : RowsOf importedBy lines rows') :
    rows.map (·.content) = rows'.map (·.content) := by
  induction h generalizing rows' with
  | nil =>
    cases h'
    rfl
  | cons hrow _ ih =>
    cases h' with
    | cons hrow' hrows' =>
      have hcontent := (content_of_bankLineRow? hrow).symm.trans (content_of_bankLineRow? hrow')
      rw [List.map_cons, List.map_cons, ih hrows', Option.some.inj hcontent]

theorem RowsOf.refs_eq (h : RowsOf importedBy lines rows) :
    rows.map (·.externalRef) = lines.map (·.externalRef) := by
  induction h with
  | nil => rfl
  | cons hrow _ ih => rw [List.map_cons, List.map_cons, ih, (bankLineRow?_eq_some hrow).2]

theorem RowsOf.row_of_line (h : RowsOf importedBy lines rows) (hline : line ∈ lines) :
    ∃ row ∈ rows, bankLineRow? importedBy row.id line = some row := by
  induction h with
  | nil => cases hline
  | @cons _ row _ _ hrow _ ih =>
    rcases List.mem_cons.mp hline with rfl | hline
    · exact ⟨row, List.mem_cons_self, hrow⟩
    · obtain ⟨other, hother, hstored⟩ := ih hline
      exact ⟨other, List.mem_cons_of_mem row hother, hstored⟩

theorem RowsOf.line_of_row (h : RowsOf importedBy lines rows) (hrow : row ∈ rows) :
    ∃ line ∈ lines, bankLineRow? importedBy row.id line = some row := by
  induction h with
  | nil => cases hrow
  | @cons line _ _ _ hstored _ ih =>
    rcases List.mem_cons.mp hrow with rfl | hrow
    · exact ⟨line, List.mem_cons_self, hstored⟩
    · obtain ⟨other, hother, hstored'⟩ := ih hrow
      exact ⟨other, List.mem_cons_of_mem line hother, hstored'⟩

theorem rowsOf_of_mapM {n : ℕ} (h : (lines.zipIdx n).mapM
      (fun line => bankLineRow? importedBy (ids line.2) line.1) = some rows) :
    RowsOf importedBy lines rows ∧ rows.map (·.id) = (List.range' n lines.length).map ids := by
  induction lines generalizing n rows with
  | nil =>
    obtain rfl : [] = rows := by simpa using h
    exact ⟨.nil, rfl⟩
  | cons line lines ih =>
    rw [List.zipIdx_cons, List.mapM_cons] at h
    simp only [Option.bind_eq_bind, Option.bind_eq_some_iff] at h
    obtain ⟨row, hrow, rest, hrest, h⟩ := h
    obtain rfl := Option.some.inj h
    obtain ⟨hrows, hids⟩ := ih hrest
    have hid := (bankLineRow?_eq_some hrow).1
    refine ⟨.cons (by rwa [hid]) hrows, ?_⟩
    rw [List.map_cons, hids, hid, List.length_cons, List.range'_succ, List.map_cons]

theorem mapM_isSome {n : ℕ} (h : ∀ line ∈ lines, ∀ id, (bankLineRow? importedBy id line).isSome) :
    ∃ rows, (lines.zipIdx n).mapM
      (fun line => bankLineRow? importedBy (ids line.2) line.1) = some rows := by
  induction lines generalizing n with
  | nil => exact ⟨[], rfl⟩
  | cons line lines ih =>
    obtain ⟨row, hrow⟩ := Option.isSome_iff_exists.mp (h line List.mem_cons_self (ids n))
    obtain ⟨rows, hrows⟩ := @ih (n + 1) (fun other ho => h other (List.mem_cons_of_mem line ho))
    refine ⟨row :: rows, ?_⟩
    rw [List.zipIdx_cons, List.mapM_cons]
    simp [hrow, hrows]

theorem newLines_eq {persisted seen : List String} :
    newLines persisted seen lines = distinct (·.externalRef) (seen ++ persisted) lines := by
  induction lines generalizing seen with
  | nil => rfl
  | cons line lines ih =>
    have hmem : line.externalRef ∈ persisted ∨ line.externalRef ∈ seen ↔
        line.externalRef ∈ seen ++ persisted := by
      rw [List.mem_append, or_comm]
    rw [newLines, distinct, ih, ih]
    simp only [hmem, List.cons_append]

/-- A query for the references of a request finds all that the scan asks for. -/
theorem newLines_eq_additions {db : Db} : newLines ((db.bankStatementLines.filter
      (·.externalRef ∈ lines.map (·.externalRef))).map (·.externalRef)) [] lines =
    additions db lines := by
  rw [newLines_eq, List.nil_append]
  apply distinct_congr
  intro line hline
  have hmem : line.externalRef ∈ lines.map (·.externalRef) := List.mem_map_of_mem hline
  simp only [storedRefs, Table.filter, List.mem_map, List.mem_filter, decide_eq_true_eq]
  constructor
  · rintro ⟨row, ⟨hrow, -⟩, href⟩
    exact ⟨row, hrow, href⟩
  · rintro ⟨row, hrow, href⟩
    refine ⟨row, ⟨hrow, ?_⟩, href⟩
    rw [href]
    exact List.mem_map.mp hmem

end rows

/-- What a successful import leaves: the rows of the lines it adds behind those that were there,
and its event. -/
structure Imported [Context] (importedBy : Option Uuid) (lines : List BankStatementLineImport)
    (db db' : Db) (rows : List BankStatementLine) : Prop where
  table : db'.bankStatementLines.rows = db.bankStatementLines.rows ++ rows
  added : RowsOf importedBy (additions db lines) rows
  rest : db' = { db with
    bankStatementLines := db'.bankStatementLines
    outboxEvents := db.outboxEvents ++
      if rows = [] then [] else [bankStatementImported importedBy rows] }

section imports
variable {user : Option Uuid} {ids : ℕ → Uuid} {lines : List BankStatementLineImport} {db db' : Db}
  {rows : List BankStatementLine} {faults : Faults Site ServiceError}

theorem existingExternalRefs_eq_ok {refs found : List String}
    (h : existingExternalRefs refs faults db = .ok found db') :
    db' = db ∧ (∀ ref ∈ refs, hasNul ref = false) ∧
      found = (db.bankStatementLines.filter (·.externalRef ∈ refs)).map (·.externalRef) := by
  unfold existingExternalRefs at h
  by_cases hrefs : refs = []
  · subst hrefs
    simp only [if_true, pure_apply, Outcome.ok.injEq] at h
    obtain ⟨rfl, rfl⟩ := h
    simp [Table.filter]
  · rw [if_neg hrefs] at h
    simp only [bind_eq_ok, site_eq_ok, write_eq_ok, read_apply, Outcome.ok.injEq] at h
    obtain ⟨_, _, ⟨-, rfl⟩, _, _, hwrite, rfl, rfl⟩ := h
    by_cases hnul : refs.any hasNul = true
    · simp [hnul] at hwrite
    · rw [if_neg hnul, Option.some.injEq] at hwrite
      subst hwrite
      refine ⟨rfl, ?_, rfl⟩
      simpa using hnul

theorem existingExternalRefs_ok {refs : List String} (h : ∀ ref ∈ refs, hasNul ref = false) :
    existingExternalRefs refs noFaults db =
      .ok ((db.bankStatementLines.filter (·.externalRef ∈ refs)).map (·.externalRef)) db := by
  unfold existingExternalRefs
  by_cases hrefs : refs = []
  · subst hrefs
    simp [Table.filter]
  · have hnul : refs.any hasNul = false := by simpa using h
    rw [if_neg hrefs]
    simp [bind_apply, site, write, noFaults, hnul]

theorem bulkCreateLines_eq_some (h : bulkCreateLines user ids lines db = some db') :
    ∃ rows, RowsOf user lines rows ∧ rows.map (·.id) = (List.range lines.length).map ids ∧
      db.bankStatementLines.insertAll? rows = some db'.bankStatementLines ∧
      db' = { db with bankStatementLines := db'.bankStatementLines } := by
  simp only [bulkCreateLines, Option.bind_eq_bind, Option.bind_eq_some_iff] at h
  obtain ⟨rows, hrows, table, htable, h⟩ := h
  obtain rfl := Option.some.inj h
  obtain ⟨hof, hids⟩ := rowsOf_of_mapM hrows
  rw [← List.range_eq_range'] at hids
  exact ⟨rows, hof, hids, htable, rfl⟩

theorem find?_id_eq_some {id : Uuid} {row : BankStatementLine} :
    db.bankStatementLines.find? (·.id = id) = some row ↔
      row ∈ db.bankStatementLines.rows ∧ row.id = id := by
  rw [Table.find?_eq_some_iff]
  · rw [decide_eq_true_iff]
  · intro a b ha hb
    rw [decide_eq_true_iff] at ha hb
    simp [Row.clash, ha, hb]

theorem refresh_eq {n : ℕ} (hids : rows.map (·.id) = (List.range n).map ids)
    (hmem : ∀ row ∈ rows, row ∈ db.bankStatementLines.rows) :
    (List.range n).filterMap (fun i => db.bankStatementLines.find? (·.id = ids i)) = rows := by
  have hmap : (List.range n).filterMap (fun i => db.bankStatementLines.find? (·.id = ids i)) =
      ((List.range n).map ids).filterMap (fun id => db.bankStatementLines.find? (·.id = id)) := by
    rw [List.filterMap_map]
    rfl
  rw [hmap, ← hids, List.filterMap_map]
  have hfound : ∀ row ∈ rows, ((fun id => db.bankStatementLines.find? (·.id = id)) ∘
      BankStatementLine.id) row = some row := by
    intro row hrow
    exact find?_id_eq_some.mpr ⟨hmem row hrow, rfl⟩
  rw [List.filterMap_congr hfound, List.filterMap_some]

theorem storedRefs_of_rows (h : db'.bankStatementLines.rows = db.bankStatementLines.rows ++ rows)
    (hrows : RowsOf user lines rows) :
    storedRefs db' = storedRefs db ++ lines.map (·.externalRef) := by
  rw [storedRefs, h, List.map_append, hrows.refs_eq]
  rfl

theorem insertAll?_rowsOf (hfresh : FreshIds ids db) (hrows : RowsOf user (additions db lines) rows)
    (hids : rows.map (·.id) = (List.range (additions db lines).length).map ids) :
    (db.bankStatementLines.insertAll? rows).isSome := by
  have hrefs := hrows.refs_eq
  apply Table.insertAll?_isSome
  · intro old hold row hrow hclash
    have hid : row.id ∈ (List.range (additions db lines).length).map ids := by
      rw [← hids]
      exact List.mem_map_of_mem hrow
    obtain ⟨i, -, hi⟩ := List.mem_map.mp hid
    have href : row.externalRef ∈ (additions db lines).map (·.externalRef) := by
      rw [← hrefs]
      exact List.mem_map_of_mem hrow
    simp only [Row.clash, Bool.or_eq_true, beq_iff_eq] at hclash
    rcases hclash with hclash | hclash
    · exact hfresh.2 old hold i (hclash.trans hi.symm)
    · exact (mem_map_distinct.mp href).2 (hclash ▸ List.mem_map_of_mem hold)
  · have hnodupIds : (rows.map (·.id)).Nodup := by
      rw [hids]
      exact List.nodup_range.map hfresh.1
    have hnodupRefs : (rows.map (·.externalRef)).Nodup := by
      rw [hrefs]
      exact nodup_distinct
    refine (List.pairwise_map.mp hnodupIds).imp₂ ?_ (List.pairwise_map.mp hnodupRefs)
    intro a b hid href hclash
    simp only [Row.clash, Bool.or_eq_true, beq_iff_eq] at hclash
    exact hclash.elim hid href

variable [Context]

theorem imported_of_ok
    (h : importBankStatementLines lines user ids faults db = .ok rows db') :
    Imported user lines db db' rows ∧ Importable db lines := by
  unfold importBankStatementLines at h
  rw [bind_eq_ok] at h
  obtain ⟨persisted, db₀, hpersisted, h⟩ := h
  obtain ⟨rfl, hnul, rfl⟩ := existingExternalRefs_eq_ok hpersisted
  have href : ∀ line ∈ lines, hasNul line.externalRef = false :=
    fun line hline => hnul _ (List.mem_map_of_mem hline)
  rw [newLines_eq_additions] at h
  cases hadd : additions db₀ lines with
  | nil =>
    rw [hadd] at h
    simp only [List.isEmpty_nil, if_true, pure_apply, Outcome.ok.injEq] at h
    obtain ⟨rfl, rfl⟩ := h
    refine ⟨⟨(List.append_nil _).symm, ?_, by simp⟩, href, ?_⟩
    · rw [hadd]
      exact .nil
    · simp [hadd]
  | cons line rest =>
    rw [hadd] at h
    simp only [List.isEmpty_cons, Bool.false_eq_true, if_false, bind_eq_ok, flush_eq_ok, read_apply,
      assign_apply, Outcome.ok.injEq, commit, site_eq_ok, pure_apply] at h
    obtain ⟨_, db₁, ⟨-, hbulk⟩, found, _, ⟨hfound, rfl⟩, _, _, ⟨-, rfl⟩, _, _, ⟨-, rfl⟩, rfl, rfl⟩ := h
    obtain ⟨rows, hrows, hids, hinsert, hrest⟩ := bulkCreateLines_eq_some hbulk
    have htable := Table.rows_of_insertAll hinsert
    have hread : found = rows := by
      rw [← hfound]
      apply refresh_eq hids
      intro row hrow
      rw [htable]
      exact List.mem_append_right _ hrow
    subst hread
    have hne : found ≠ [] := by
      rintro rfl
      cases hrows
    refine ⟨⟨htable, by rwa [hadd], ?_⟩, href, ?_⟩
    · rw [if_neg hne, hrest]
    · intro other hother
      rw [hadd] at hother
      obtain ⟨row, -, hrow⟩ := hrows.row_of_line hother
      have hmem : other ∈ additions db₀ lines := hadd ▸ hother
      rw [← bankLineRow?_isSome_iff (href other (mem_of_mem_distinct hmem)), hrow]
      rfl

theorem imported_of_importable (hfresh : FreshIds ids db) (h : Importable db lines) :
    ∃ rows db', importBankStatementLines lines user ids noFaults db = .ok rows db' := by
  obtain ⟨hnul, hstorable⟩ := h
  have hpersisted : ∀ ref ∈ lines.map (·.externalRef), hasNul ref = false := by
    intro ref href
    obtain ⟨line, hline, rfl⟩ := List.mem_map.mp href
    exact hnul line hline
  have hsome : ∀ line ∈ additions db lines, ∀ id, (bankLineRow? user id line).isSome := by
    intro line hline id
    exact (bankLineRow?_isSome_iff (hnul line (mem_of_mem_distinct hline))).mpr (hstorable line hline)
  unfold importBankStatementLines
  rw [bind_apply, existingExternalRefs_ok hpersisted]
  simp only [newLines_eq_additions]
  by_cases hadd : (additions db lines).isEmpty = true
  · rw [if_pos hadd]
    exact ⟨[], db, rfl⟩
  · obtain ⟨rows, hmap⟩ := @mapM_isSome user ids _ 0 hsome
    obtain ⟨hrows, hids⟩ := rowsOf_of_mapM hmap
    rw [← List.range_eq_range'] at hids
    obtain ⟨table, htable⟩ := Option.isSome_iff_exists.mp (insertAll?_rowsOf hfresh hrows hids)
    have hbulk : bulkCreateLines user ids (additions db lines) db =
        some { db with bankStatementLines := table } := by
      simp [bulkCreateLines, hmap, htable]
    rw [if_neg hadd]
    simp [bind_apply, flush, site, write, noFaults, hbulk, commit]

def imported (lines : List BankStatementLineImport) (user : Option Uuid) (ids : ℕ → Uuid) : Db → Db :=
  (importBankStatementLines lines user ids).committed noFaults

/-- The request succeeds. -/
def Accepts (db : Db) (lines : List BankStatementLineImport) (user : Option Uuid) (ids : ℕ → Uuid) :
    Prop := (importBankStatementLines lines user ids noFaults db).value?.isSome

theorem imported_of_accepts (h : Accepts db lines user ids) :
    ∃ rows, Imported user lines db (imported lines user ids db) rows := by
  obtain ⟨rows, hrows⟩ := Option.isSome_iff_exists.mp h
  exact ⟨rows, (imported_of_ok (eq_ok_committed hrows)).1⟩

theorem accepts_iff (hfresh : FreshIds ids db) : Accepts db lines user ids ↔ Importable db lines := by
  constructor
  · intro h
    obtain ⟨rows, hrows⟩ := Option.isSome_iff_exists.mp h
    exact (imported_of_ok (eq_ok_committed hrows)).2
  · intro h
    obtain ⟨rows, db', hrun⟩ :
        ∃ rows db', importBankStatementLines lines user ids noFaults db = .ok rows db' :=
      imported_of_importable hfresh h
    rw [Accepts, hrun]
    rfl

/-- After an import the references of its lines are stored, and no others have come. -/
theorem Imported.stored (h : Imported user lines db db' rows) (ref : String) :
    ref ∈ storedRefs db' ↔ ref ∈ lines.map (·.externalRef) ∨ ref ∈ storedRefs db := by
  rw [storedRefs_of_rows h.table h.added, List.mem_append, additions, mem_map_distinct]
  by_cases hdb : ref ∈ storedRefs db <;> simp [hdb]

theorem Imported.additions_append {later : List BankStatementLineImport}
    (h : Imported user lines db db' rows) :
    additions db (lines ++ later) = additions db lines ++ additions db' later := by
  have hlater : distinct (·.externalRef) (lines.map (·.externalRef) ++ storedRefs db) later =
      additions db' later := by
    apply distinct_congr
    intro line _
    rw [h.stored, List.mem_append]
  rw [additions, distinct_append, hlater]
  rfl

omit [Context] in
theorem Importable.left {later : List BankStatementLineImport} (h : Importable db (lines ++ later)) :
    Importable db lines := by
  obtain ⟨hnul, hstorable⟩ := h
  rw [additions, distinct_append] at hstorable
  exact ⟨fun line hline => hnul line (List.mem_append_left _ hline),
    fun line hline => hstorable line (List.mem_append_left _ hline)⟩

theorem Imported.importable_append {later : List BankStatementLineImport}
    (h : Imported user lines db db' rows) :
    Importable db (lines ++ later) ↔ Importable db lines ∧ Importable db' later := by
  unfold Importable
  rw [h.additions_append]
  simp only [List.forall_mem_append]
  tauto

/-- Every line of the request has its one row: an old one, or that of the first line with its
reference. -/
theorem Imported.stored_once (h : Imported user lines db db' rows) {line : BankStatementLineImport}
    (hline : line ∈ lines) : ∃ row,
      db'.bankStatementLines.filter (·.externalRef = line.externalRef) = [row] ∧
        (row ∈ db.bankStatementLines.rows ∨
          ∃ first, lines.find? (·.externalRef = line.externalRef) = some first ∧
            bankLineRow? user row.id first = some row) := by
  have href : line.externalRef ∈ storedRefs db' :=
    (h.stored _).mpr (.inl (List.mem_map_of_mem hline))
  obtain ⟨row, hrow, hrowRef⟩ := List.mem_map.mp href
  refine ⟨row, ?_, ?_⟩
  · apply Table.filter_eq_singleton hrow
    · simp [Row.clash]
    · intro other hother
      rw [decide_eq_true_iff]
      constructor
      · intro h'
        refine Table.eq_of_clash hother hrow ?_
        simp [Row.clash, h', hrowRef]
      · rintro rfl
        exact hrowRef
  · rw [h.table, List.mem_append] at hrow
    rcases hrow with hold | hnew
    · exact .inl hold
    · obtain ⟨first, hfirst, hstored⟩ := h.added.line_of_row hnew
      have hfirstRef := (bankLineRow?_eq_some hstored).2
      refine .inr ⟨first, ?_, hstored⟩
      rw [← hrowRef, hfirstRef]
      exact (mem_distinct.mp hfirst).1

theorem imported_extends :
    db.bankStatementLines.rows <+:
      ((importBankStatementLines lines user ids).committed faults db).bankStatementLines.rows := by
  rcases committed_cases (importBankStatementLines lines user ids) faults db with h | ⟨rows, h⟩
  · rw [h]
  · rw [(imported_of_ok h).1.table]
    exact List.prefix_append _ _

/-- A second import finds nothing new. -/
theorem Imported.again (h : Imported user lines db db' rows) (himportable : Importable db lines)
    (user' : Option Uuid) : importBankStatementLines lines user' ids noFaults db' = .ok [] db' := by
  have hnone : additions db' lines = [] := by
    apply distinct_eq_nil
    intro line hline
    exact (h.stored _).mpr (.inl (List.mem_map_of_mem hline))
  have hpersisted : ∀ ref ∈ lines.map (·.externalRef), hasNul ref = false := by
    intro ref href
    obtain ⟨line, hline, rfl⟩ := List.mem_map.mp href
    exact himportable.1 line hline
  unfold importBankStatementLines
  rw [bind_apply, existingExternalRefs_ok hpersisted]
  simp only [newLines_eq_additions, hnone, List.isEmpty_nil, if_true]
  rfl

/-- Lines come to the same rows in one request or in two, and a request again adds none. -/
theorem bankImport_splits {A B : List BankStatementLineImport} {idsA idsB idsAB : ℕ → Uuid}
    (hA : FreshIds idsA db) (hB : FreshIds idsB (imported A user idsA db))
    (hAB : FreshIds idsAB db) :
    (Accepts db A user idsA ↔ Importable db A) ∧
    (Accepts db (A ++ B) user idsAB ↔
      Accepts db A user idsA ∧ Accepts (imported A user idsA db) B user idsB) ∧
    (Accepts db (A ++ B) user idsAB →
      contents (imported B user idsB (imported A user idsA db)) =
        contents (imported (A ++ B) user idsAB db)) ∧
    (Accepts db A user idsA →
      (∀ user' ids, importBankStatementLines A user' ids noFaults (imported A user idsA db) =
        .ok [] (imported A user idsA db)) ∧
      ∀ line ∈ A, ∃ row,
        (imported A user idsA db).bankStatementLines.filter (·.externalRef = line.externalRef) =
            [row] ∧
          (row ∈ db.bankStatementLines.rows ∨
            ∃ first, A.find? (·.externalRef = line.externalRef) = some first ∧
              bankLineRow? user row.id first = some row)) ∧
    ∀ lines user' ids faults, db.bankStatementLines.rows <+:
      ((importBankStatementLines lines user' ids).committed faults db).bankStatementLines.rows := by
  have hboth : Accepts db (A ++ B) user idsAB ↔
      Accepts db A user idsA ∧ Accepts (imported A user idsA db) B user idsB := by
    rw [accepts_iff hAB, accepts_iff hB]
    constructor
    · intro h
      have hAccepts : Accepts db A user idsA := (accepts_iff hA).mpr h.left
      obtain ⟨rows, himported⟩ := imported_of_accepts hAccepts
      exact ⟨hAccepts, (himported.importable_append.mp h).2⟩
    · rintro ⟨hAccepts, hlater⟩
      obtain ⟨rows, himported⟩ := imported_of_accepts hAccepts
      exact himported.importable_append.mpr ⟨(accepts_iff hA).mp hAccepts, hlater⟩
  refine ⟨accepts_iff hA, hboth, ?_, ?_, fun _ _ _ _ => imported_extends⟩
  · intro h
    obtain ⟨hAccepts, hlater⟩ := hboth.mp h
    obtain ⟨rowsA, hfirst⟩ := imported_of_accepts hAccepts
    obtain ⟨rowsB, hsecond⟩ := imported_of_accepts hlater
    obtain ⟨rows, hjoint⟩ := imported_of_accepts h
    have hadded := hjoint.added
    rw [hfirst.additions_append] at hadded
    have hsplit : RowsOf user (additions db A ++ additions (imported A user idsA db) B)
        (rowsA ++ rowsB) := List.rel_append hfirst.added hsecond.added
    have hcontent := hsplit.content_eq hadded
    rw [contents, contents, hsecond.table, hfirst.table, hjoint.table, List.append_assoc,
      List.map_append, hcontent, List.map_append]
  · intro h
    obtain ⟨rows, himported⟩ := imported_of_accepts h
    exact ⟨fun user' ids => himported.again ((accepts_iff hA).mp h) user',
      fun line hline => himported.stored_once hline⟩

end imports

def statementLine (amount : ℚ) (externalRef : String) (hpos : 0 < amount)
    (hne : externalRef ≠ "") (hlength : externalRef.toList.length ≤ 255) :
    BankStatementLineImport :=
  ⟨amount, 0, some "INV-1", externalRef, hpos, hne, hlength⟩

def smallLine : BankStatementLineImport :=
  statementLine 500 "TRF-1" (by norm_num) (by decide) (by decide)

def correctedLine : BankStatementLineImport :=
  statementLine 750 "TRF-1" (by norm_num) (by decide) (by decide)

def otherLine : BankStatementLineImport :=
  statementLine (1 / 2) "TRF-2" (by norm_num) (by decide) (by decide)

/-- More than the amount column holds. -/
def hugeLine : BankStatementLineImport :=
  statementLine (10 ^ 13) "TRF-2" (by norm_num) (by decide) (by decide)

theorem freshIds_add {db : Db} (n : ℕ) (h : ∀ row ∈ db.bankStatementLines.rows, row.id < n) :
    FreshIds (n + ·) db := by
  refine ⟨fun i j hij => Nat.add_left_cancel hij, ?_⟩
  intro row hrow i hid
  have hlt := h row hrow
  rw [hid] at hlt
  exact absurd hlt (Nat.not_lt.mpr (Nat.le_add_right n i))

theorem overlapping_statements_split :
    letI : Context := .default
    contents (imported [correctedLine, otherLine] none (10 + ·) (imported [smallLine] none (0 + ·) {})) =
      contents (imported ([smallLine] ++ [correctedLine, otherLine]) none (0 + ·) {}) := by
  let : Context := .default
  have hempty : FreshIds (0 + ·) ({} : Db) := freshIds_add 0 (by simp)
  have hlater : FreshIds (10 + ·) (imported [smallLine] none (0 + ·) {}) :=
    freshIds_add 10 (by decide +kernel)
  exact (bankImport_splits hempty hlater hempty).2.2.1 (by unfold Accepts; decide +kernel)

/-- The request with the line that does not fit leaves nothing, the smaller one leaves its line. -/
theorem split_import_differs :
    letI : Context := .default
    FreshIds (0 + ·) ({} : Db) ∧ FreshIds (10 + ·) (imported [smallLine] none (0 + ·) {}) ∧
      contents (imported [hugeLine] none (10 + ·) (imported [smallLine] none (0 + ·) {})) ≠
        contents (imported ([smallLine] ++ [hugeLine]) none (0 + ·) {}) := by
  let : Context := .default
  refine ⟨freshIds_add 0 (by simp), freshIds_add 10 (by decide +kernel), ?_⟩
  decide +kernel

end Finguard
