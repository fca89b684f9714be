import Finguard.Lib.Json
import Finguard.Lib.Paging
import Finguard.MpesaCallback

/-! The audit trail: what a request leaves in it, and what a reader of the activity log is shown
while others write to it. -/

namespace Finguard.Audit
open Text Paging

inductive AuditActorType where
  | user
  | agent
  | system
deriving DecidableEq

inductive AuditOutcome where
  | success
  | failure
  | denied
deriving DecidableEq

structure AuditLogRow where
  id : Uuid
  actorType : AuditActorType
  actorId : Option Uuid
  actorLabel : Option String
  action : String
  resourceType : String
  resourceId : Option String
  outcome : AuditOutcome
  ipAddress : Option String
  requestId : Option String
  metadataPayload : Json.Fields
  createdAt : DateTime

instance : Row AuditLogRow where
  clash a b := a.id == b.id
  clash_symm h := by
    rw [beq_iff_eq] at h ⊢
    exact h.symm

/-! The context of a request. -/

structure HttpHeaders where
  xRequestId : Option String := none
  xForwardedFor : Option String := none
  clientHost : Option String := none

structure RequestContext where
  requestId : Option String := none
  clientIp : Option String := none

def firstForwarded (forwarded : String) : String :=
  strip (String.ofList (forwarded.toList.takeWhile (· ≠ ',')))

def resolveClientIp (headers : HttpHeaders) : Option String :=
  match headers.xForwardedFor with
  | some forwarded =>
    if firstForwarded forwarded = "" then headers.clientHost else some (firstForwarded forwarded)
  | none => headers.clientHost

/-- `RequestContextMiddleware.dispatch`, with the hex digits of a fresh identifier. -/
def requestContext (headers : HttpHeaders) (fresh : String) : RequestContext where
  requestId := some ((headers.xRequestId.filter (· ≠ "")).getD fresh)
  clientIp := resolveClientIp headers

/-! Writing. -/

structure AuditEntry where
  action : String
  actorType : AuditActorType
  resourceType : String
  actorId : Option Uuid := none
  actorLabel : Option String := none
  resourceId : Option String := none
  outcome : AuditOutcome := .success
  metadata : Option Json.Fields := none

/-- What the database adds to a row. It may refuse the insert for reasons of its own, and the row
may be stored and still not be read back. -/
structure AuditStamp where
  id : Uuid
  now : DateTime
  refused : Bool := false
  unread : Bool := false

def optionalVarchar? (limit : ℕ) : Option String → Option (Option String)
  | none => some none
  | some s => (varchar? limit s).map some

/-- The row as its columns take it, or nothing where a text does not fit. -/
def stored? (context : RequestContext) (entry : AuditEntry) (stamp : AuditStamp) :
    Option AuditLogRow := do
  return {
    id := stamp.id
    actorType := entry.actorType
    actorId := entry.actorId
    actorLabel := ← optionalVarchar? 255 entry.actorLabel
    action := ← varchar? 100 entry.action
    resourceType := ← varchar? 50 entry.resourceType
    resourceId := ← optionalVarchar? 100 entry.resourceId
    outcome := entry.outcome
    ipAddress := ← optionalVarchar? 45 context.clientIp
    requestId := ← optionalVarchar? 64 context.requestId
    metadataPayload := entry.metadata.getD []
    createdAt := stamp.now }

inductive RecordFailure where
  | unfit
  | refused
  | unread

def record (context : RequestContext) (entry : AuditEntry) (stamp : AuditStamp)
    (logs : Table AuditLogRow) : Except RecordFailure AuditLogRow × Table AuditLogRow :=
  match stored? context entry stamp with
  | none => (.error .unfit, logs)
  | some row =>
    match if stamp.refused then none else logs.insert? row with
    | none => (.error .refused, logs)
    | some logs' => (if stamp.unread then .error .unread else .ok row, logs')

/-- The rollback after a failure leaves what `record` has committed. -/
def recordSafe (context : RequestContext) (entry : AuditEntry) (stamp : AuditStamp)
    (logs : Table AuditLogRow) : Option AuditLogRow × Table AuditLogRow :=
  match record context entry stamp logs with
  | (.ok row, logs') => (some row, logs')
  | (.error _, logs') => (none, logs')

def recordUserActionSafe (context : RequestContext) (userId : Uuid) (email action : String)
    (resourceType : String) (resourceId : Option String) (outcome : AuditOutcome)
    (metadata : Option Json.Fields) (stamp : AuditStamp) (logs : Table AuditLogRow) :
    Option AuditLogRow × Table AuditLogRow :=
  recordSafe context {
    action, actorType := .user, resourceType, actorId := some userId, actorLabel := some email,
    resourceId, outcome, metadata } stamp logs

/-! Reading. -/

structure AuditFilter where
  actorId : Option Uuid := none
  action : Option String := none
  resourceType : Option String := none
  resourceId : Option String := none
  outcome : Option AuditOutcome := none
  since : Option DateTime := none
  until? : Option DateTime := none

def AuditFilter.takes (filter : AuditFilter) (row : AuditLogRow) : Bool :=
  filter.actorId.all (row.actorId == some ·) && filter.action.all (row.action == ·) &&
    filter.resourceType.all (row.resourceType == ·) &&
    filter.resourceId.all (row.resourceId == some ·) &&
    filter.outcome.all (row.outcome == ·) && filter.since.all (· ≤ row.createdAt) &&
    filter.until?.all (row.createdAt ≤ ·)

structure AuditLogPage where
  items : List AuditLogRow
  total : ℕ
  limit : ℕ
  offset : ℕ

/-- `AuditService.query` behind `list_audit_logs`: the rows are counted first and read later, and
those of one instant come in any order. -/
structure Answers (filter : AuditFilter) (limit offset : ℕ) (counted read : Table AuditLogRow)
    (page : AuditLogPage) : Prop where
  total : page.total = (counted.filter filter.takes).length
  items : Page AuditLogRow.createdAt (read.filter filter.takes) limit offset page.items
  limit : page.limit = limit
  offset : page.offset = offset

/-! What is recorded. -/

/-- The texts that the code supplies fit their columns. -/
def AuditEntry.Fits (entry : AuditEntry) : Prop :=
  (varchar? 100 entry.action).isSome ∧ (varchar? 50 entry.resourceType).isSome ∧
    (optionalVarchar? 255 entry.actorLabel).isSome ∧
    (optionalVarchar? 100 entry.resourceId).isSome

/-- The identifier that the client brings fits its column, or it brings none. -/
def BringsFitting (headers : HttpHeaders) : Prop :=
  ∀ id ∈ headers.xRequestId, (varchar? 64 id).isSome

instance (headers : HttpHeaders) : Decidable (BringsFitting headers) :=
  inferInstanceAs (Decidable (∀ id ∈ headers.xRequestId, _))

/-- A request, the action that it has done, and what the database does with its row. -/
structure Audited where
  headers : HttpHeaders
  fresh : String
  entry : AuditEntry
  stamp : AuditStamp

def Audited.context (request : Audited) : RequestContext :=
  requestContext request.headers request.fresh

/-- The row of a request, with the request's own context. -/
def Audited.row? (request : Audited) : Option AuditLogRow :=
  stored? request.context request.entry request.stamp

def Audited.run (logs : Table AuditLogRow) (request : Audited) : Table AuditLogRow :=
  (recordSafe request.context request.entry request.stamp logs).2

/-- Whatever the client sends, everything else about the request can be stored. -/
structure Audited.Sound (request : Audited) : Prop where
  entry : request.entry.Fits
  fresh : (varchar? 64 request.fresh).isSome
  address : (optionalVarchar? 45 (resolveClientIp request.headers)).isSome
  accepted : request.stamp.refused = false

theorem optionalVarchar?_some {limit : ℕ} {s : String} :
    (optionalVarchar? limit (some s)).isSome = (varchar? limit s).isSome := by
  simp [optionalVarchar?]

theorem row?_isSome_iff {request : Audited} (h : request.Sound) :
    request.row?.isSome ↔ BringsFitting request.headers := by
  obtain ⟨⟨haction, hresource, hlabel, hid⟩, hfresh, haddress, -⟩ := h
  have hrow : request.row?.isSome =
      (optionalVarchar? 64 (requestContext request.headers request.fresh).requestId).isSome := by
    obtain ⟨action, haction⟩ := Option.isSome_iff_exists.mp haction
    obtain ⟨resource, hresource⟩ := Option.isSome_iff_exists.mp hresource
    obtain ⟨label, hlabel⟩ := Option.isSome_iff_exists.mp hlabel
    obtain ⟨id, hid⟩ := Option.isSome_iff_exists.mp hid
    obtain ⟨address, haddress⟩ := Option.isSome_iff_exists.mp haddress
    simp only [Audited.row?, Audited.context, stored?, haction, hresource, hlabel, hid,
      requestContext, haddress, Option.bind_eq_bind, Option.bind_some, Option.pure_def]
    cases optionalVarchar? 64 _ <;> rfl
  rw [hrow, requestContext, optionalVarchar?_some, BringsFitting]
  cases hbrought : request.headers.xRequestId with
  | none => simpa using hfresh
  | some brought =>
    by_cases hempty : brought = ""
    · have hblank : (varchar? 64 "").isSome = true := by decide
      simpa [Option.filter, hempty, hblank] using hfresh
    · simp [Option.filter, hempty]

theorem id_of_row {request : Audited} {row : AuditLogRow} (h : request.row? = some row) :
    row.id = request.stamp.id := by
  simp only [Audited.row?, stored?, Option.bind_eq_bind, Option.bind_eq_some_iff,
    Option.pure_def, Option.some.injEq] at h
  obtain ⟨_, _, _, _, _, _, _, _, _, _, _, _, rfl⟩ := h
  rfl

theorem Audited.run_rows {logs : Table AuditLogRow} {request : Audited}
    (hnew : ∀ row ∈ logs.rows, row.id ≠ request.stamp.id)
    (haccepted : request.stamp.refused = false) :
    (request.run logs).rows = logs.rows ++ request.row?.toList := by
  unfold run recordSafe record
  cases hrow : stored? request.context request.entry request.stamp with
  | none => simp [row?, hrow]
  | some row =>
    have hid : row.id = request.stamp.id := id_of_row hrow
    have hinsert : (logs.insert? row).isSome := Table.insert?_isSome fun old hold => by
      have hne := hnew old hold
      simpa [Row.clash, hid] using hne
    obtain ⟨logs', hlogs⟩ := Option.isSome_iff_exists.mp hinsert
    have hrows := Table.rows_of_insert hlogs
    cases hunread : request.stamp.unread <;> simp [row?, hrow, haccepted, hlogs, hrows]

theorem trail_rows {requests : List Audited} {logs : Table AuditLogRow}
    (hsound : ∀ request ∈ requests, request.Sound)
    (hids : (requests.map (·.stamp.id)).Nodup)
    (hnew : ∀ row ∈ logs.rows, ∀ request ∈ requests, row.id ≠ request.stamp.id) :
    (requests.foldl (fun logs request => request.run logs) logs).rows =
      logs.rows ++ requests.filterMap Audited.row? := by
  induction requests generalizing logs with
  | nil => simp
  | cons request requests ih =>
    obtain ⟨hfirst, hids⟩ := List.nodup_cons.mp hids
    have hrows := Audited.run_rows (fun row hrow => hnew row hrow request List.mem_cons_self)
      (hsound request List.mem_cons_self).accepted
    have hlater : ∀ row ∈ (request.run logs).rows, ∀ other ∈ requests,
        row.id ≠ other.stamp.id := by
      intro row hrow other hother
      rw [hrows, List.mem_append] at hrow
      rcases hrow with hold | hadded
      · exact hnew row hold other (List.mem_cons_of_mem _ hother)
      · rw [id_of_row (Option.mem_toList.mp hadded)]
        exact fun hsame => hfirst (List.mem_map.mpr ⟨other, hother, hsame.symm⟩)
    rw [List.foldl_cons, ih (fun other hother => hsound other (List.mem_cons_of_mem _ hother))
      hids hlater, hrows, List.append_assoc]
    cases hrow : request.row? <;> simp [hrow]

def exported (headers : HttpHeaders) (id : Uuid) : Audited where
  headers
  fresh := "0a"
  entry := { action := "report.export", actorType := .user, resourceType := "report" }
  stamp := { id, now := id }

/-- One more entry is recorded, by anyone. -/
def Recorded (logs logs' : Table AuditLogRow) : Prop :=
  ∃ context entry stamp, logs' = (recordSafe context entry stamp logs).2

abbrev Commits := Relation.ReflTransGen Recorded

/-- The answers to a reader that asks for one page after the other while entries are recorded,
between two questions as well as within one. The reader starts on the first table and the last page
is read from the second. -/
inductive Reads (filter : AuditFilter) (limit : ℕ) :
    ℕ → Table AuditLogRow → Table AuditLogRow → List AuditLogPage → Prop
  | last {offset : ℕ} {logs counted read : Table AuditLogRow} {page : AuditLogPage}
    (hcount : Commits logs counted) (hread : Commits counted read)
    (hanswer : Answers filter limit offset counted read page) :
    Reads filter limit offset logs read [page]
  | next {offset : ℕ} {logs counted read final : Table AuditLogRow} {page : AuditLogPage}
    {pages : List AuditLogPage} (hcount : Commits logs counted) (hread : Commits counted read)
    (hanswer : Answers filter limit offset counted read page)
    (hrest : Reads filter limit (offset + limit) read final pages) :
    Reads filter limit offset logs final (page :: pages)

section
variable {filter : AuditFilter} {limit offset : ℕ} {logs logs' final : Table AuditLogRow}
  {pages : List AuditLogPage}

theorem Recorded.grows (h : Recorded logs logs') : logs.rows <+: logs'.rows := by
  obtain ⟨context, entry, stamp, rfl⟩ := h
  unfold recordSafe record
  cases hrow : stored? context entry stamp with
  | none => exact List.prefix_rfl
  | some row =>
    cases hrefused : stamp.refused with
    | true => exact List.prefix_rfl
    | false =>
      cases hinsert : logs.insert? row with
      | none => simp [hinsert]
      | some logs₁ =>
        have hrows := Table.rows_of_insert hinsert
        cases stamp.unread <;> simp [hinsert, hrows]

theorem Commits.matching (h : Commits logs logs') :
    (logs.filter filter.takes).Sublist (logs'.filter filter.takes) := by
  have hgrows : logs.rows <+: logs'.rows := by
    induction h with
    | refl => exact List.prefix_rfl
    | tail _ hstep ih => exact ih.trans hstep.grows
  exact hgrows.sublist.filter _

/-- The first page is read from a table that has grown already. -/
theorem Reads.browse (h : Reads filter limit offset logs final pages) :
    ∃ first, Commits logs first ∧ Browse AuditLogRow.createdAt limit offset
      (first.filter filter.takes) (final.filter filter.takes) (pages.map (·.items)) := by
  induction h with
  | last hcount hread hanswer => exact ⟨_, hcount.trans hread, .last hanswer.items⟩
  | next hcount hread hanswer hrest ih =>
    obtain ⟨first, hcommits, hbrowse⟩ := ih
    exact ⟨_, hcount.trans hread, .next hanswer.items hcommits.matching.subperm hbrowse⟩

/-- The reader has come to the end: the last page is not full, or no page is left by the count that
came with it, and nothing was recorded between that count and the page. -/
def AtEnd (filter : AuditFilter) (limit : ℕ) (final : Table AuditLogRow)
    (pages : List AuditLogPage) : Prop :=
  ∃ page, pages.getLast? = some page ∧ (page.items.length < limit ∨
    page.total = (final.filter filter.takes).length ∧ page.total ≤ limit * pages.length)

theorem Reads.reaches (h : Reads filter limit offset logs final pages) {page : AuditLogPage}
    (hlast : pages.getLast? = some page) (hshort : page.items.length < limit) :
    (final.filter filter.takes).length ≤ offset + limit * pages.length := by
  induction h with
  | last hcount hread hanswer =>
    obtain rfl := Option.some.inj hlast
    simpa using hanswer.items.reaches_of_short hshort
  | @next offset _ _ _ _ first pages hcount hread hanswer hrest ih =>
    cases pages with
    | nil => cases hrest
    | cons second pages =>
      have hreached := ih (by simpa using hlast)
      rw [List.length_cons, Nat.mul_succ]
      omega

/-- However much is recorded while someone goes through the pages: an entry that was there and
matched at the start, and shares its time with no other that matches, has been shown when the reader
comes to the end, and all that is shown is in the trail and matches. -/
theorem pages_miss_nothing (h : Reads filter limit 0 logs final pages)
    (hend : AtEnd filter limit final pages) :
    (∀ row ∈ logs.rows, filter.takes row = true →
      (∀ other ∈ final.rows, filter.takes other = true → other.createdAt = row.createdAt →
        other = row) → ∃ page ∈ pages, row ∈ page.items) ∧
      ∀ page ∈ pages, ∀ row ∈ page.items, row ∈ final.rows ∧ filter.takes row = true := by
  obtain ⟨first, hcommits, hbrowse⟩ := h.browse
  constructor
  · intro row hrow htakes halone
    have hfirst : row ∈ first.filter filter.takes :=
      hcommits.matching.subset (List.mem_filter.mpr ⟨hrow, htakes⟩)
    have hreach : (final.filter filter.takes).length ≤
        0 + limit * (pages.map (·.items)).length := by
      obtain ⟨page, hlast, hshort | ⟨hcount, hcovered⟩⟩ := hend
      · simpa using h.reaches hlast hshort
      · simpa [← hcount] using hcovered
    have hnodup : (final.filter filter.takes).Nodup := by
      refine (final.unique.imp ?_).filter _
      rintro a b hclash rfl
      simp [Row.clash] at hclash
    have honly : (final.filter filter.takes).filter (·.createdAt = row.createdAt) ⊆ [row] := by
      intro other hother
      obtain ⟨hother, hsame⟩ := List.mem_filter.mp hother
      obtain ⟨hother, hmatch⟩ := List.mem_filter.mp hother
      exact List.mem_singleton.mpr (halone other hother hmatch (by simpa using hsame))
    have hone : Alone AuditLogRow.createdAt row (final.filter filter.takes) := by
      rw [Alone, List.countP_eq_length_filter]
      exact ((hnodup.filter _).subperm honly).length_le
    obtain ⟨items, hitems, hshown⟩ := hbrowse.shows hfirst hone (Nat.zero_le _) hreach
    obtain ⟨page, hpage, rfl⟩ := List.mem_map.mp hitems
    exact ⟨page, hpage, hshown⟩
  · intro page hpage row hrow
    exact List.mem_filter.mp (hbrowse.genuine _ (List.mem_map_of_mem hpage) hrow)

end

/-- The row of an export. -/
def exportRow (n : ℕ) : AuditLogRow where
  id := n
  actorType := .user
  actorId := none
  actorLabel := none
  action := "report.export"
  resourceType := "report"
  resourceId := none
  outcome := .success
  ipAddress := none
  requestId := some "0a"
  metadataPayload := []
  createdAt := n

def twoExports : Table AuditLogRow := ⟨[exportRow 1, exportRow 2], by simp [Row.clash, exportRow]⟩

def threeExports : Table AuditLogRow := (exported {} 3).run twoExports

theorem rows_threeExports : threeExports.rows = [exportRow 1, exportRow 2, exportRow 3] := by
  have hrow : (exported {} 3).row? = some (exportRow 3) := rfl
  have hrows : ((exported {} 3).run twoExports).rows =
      twoExports.rows ++ (exported {} 3).row?.toList :=
    Audited.run_rows (by simp [twoExports, exportRow, exported]) rfl
  rw [threeExports, hrows, hrow]
  rfl

def exportsPage (offset total n : ℕ) : AuditLogPage := ⟨[exportRow n], total, 1, offset⟩

/-- One row a page, and a third export is recorded once the first page is read. -/
theorem exports_shown : ∃ page ∈ [exportsPage 0 2 2, exportsPage 1 3 2, exportsPage 2 3 1],
    exportRow 1 ∈ page.items := by
  have hrecorded : Recorded twoExports threeExports :=
    ⟨(exported {} 3).context, (exported {} 3).entry, (exported {} 3).stamp, rfl⟩
  have hfilter : ∀ logs : Table AuditLogRow, logs.filter (AuditFilter.takes {}) = logs.rows :=
    fun logs => by simp [Table.filter, AuditFilter.takes]
  have htwo : Listing AuditLogRow.createdAt twoExports.rows [exportRow 2, exportRow 1] :=
    ⟨.swap _ _ _, by simp [exportRow]⟩
  have hthree : Listing AuditLogRow.createdAt threeExports.rows
      [exportRow 3, exportRow 2, exportRow 1] := by
    rw [rows_threeExports]
    exact ⟨List.reverse_perm [exportRow 1, exportRow 2, exportRow 3], by simp [exportRow]⟩
  have hreads : Reads {} 1 0 twoExports threeExports
      [exportsPage 0 2 2, exportsPage 1 3 2, exportsPage 2 3 1] := by
    refine .next .refl .refl ⟨?_, ⟨_, hfilter _ ▸ htwo, rfl⟩, rfl, rfl⟩
      (.next (.single hrecorded) .refl ⟨?_, ⟨_, hfilter _ ▸ hthree, rfl⟩, rfl, rfl⟩
        (.last .refl .refl ⟨?_, ⟨_, hfilter _ ▸ hthree, rfl⟩, rfl, rfl⟩))
    · rw [hfilter]
      rfl
    · rw [hfilter, rows_threeExports]
      rfl
    · rw [hfilter, rows_threeExports]
      rfl
  have hend : AtEnd {} 1 threeExports
      [exportsPage 0 2 2, exportsPage 1 3 2, exportsPage 2 3 1] := by
    refine ⟨_, rfl, .inr ⟨?_, by decide⟩⟩
    rw [hfilter, rows_threeExports]
    rfl
  exact (pages_miss_nothing hreads hend).1 (exportRow 1) (by simp [twoExports]) rfl
    (by simp [rows_threeExports, exportRow])

end Finguard.Audit
