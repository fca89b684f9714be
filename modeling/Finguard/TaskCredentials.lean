import Finguard.VcCodec

/-! Task credentials: an agent proves who it is before a write, and the trust log keeps what it
has shown. -/

namespace Finguard.Trust
open Text

/-! Cards. -/

structure AgentCard where
  agentId : String
  name : String
  version : String
  capabilities : List String
  did : String
  model : String
  issuer : String := "finguard-system"
  cardSignature : List UInt8 := []

/-- Instants as text, the hash of a payload, and the model that is configured. -/
class TrustEnv where
  isoformat : DateTime → String
  payloadHash : PyValue → String
  activeModelId : String

def unsignedCard [TrustEnv] (agentId name version slug : String) (capabilities : List String) :
    AgentCard where
  agentId
  name
  version
  capabilities
  did := "did:web:finguard.internal:agent:" ++ slug
  model := TrustEnv.activeModelId

def unsignedCards [TrustEnv] : List AgentCard :=
  [unsignedCard "A" "Invoice Generator" "v1.0" "a_generator"
      ["invoice_extraction", "structured_output"],
    unsignedCard "B" "Receipt Scanner" "v1.0" "b_classifier"
      ["receipt_ocr", "transaction_classification"],
    unsignedCard "C" "Reconciliation Engine" "v1.0" "c_reconciler"
      ["exact_match", "fuzzy_match", "llm_fallback"],
    unsignedCard "D" "Cash-Flow Forecaster" "v1.0" "d_forecaster"
      ["time_series_forecast", "ledger_analysis"],
    unsignedCard "E" "Budget Watchdog" "v4.2" "e_watchdog"
      ["hmm_state_detection", "forward_algorithm", "isolation_forest", "duplicate_detection",
        "vc_issuance", "rabbitmq_consumer"],
    unsignedCard "F" "Compliance Auditor" "v1.0" "f_auditor"
      ["rule_based_audit", "aml_screening", "duplicate_detection"],
    unsignedCard "G" "Report Generator" "v1.0" "g_reporter"
      ["pdf_generation", "excel_export", "narrative_summary"],
    unsignedCard "H" "Financial Advisor" "v1.0" "h_advisor"
      ["personalised_advice", "risk_assessment"],
    unsignedCard "I" "External Integrator" "v1.0" "i_integrator"
      ["mpesa_api", "fx_rates", "kyc_lookup"],
    unsignedCard "J" "Executive Summarizer" "v1.0" "j_summarizer"
      ["executive_summary", "locale_translation"],
    unsignedCard "K" "Stock Steward" "v1.0" "k_stockkeeper"
      ["inventory_analysis", "stock_adjustment_proposal", "vc_issuance"]]

/-- What a check before a write may raise. -/
inductive TaskVcException where
  | vc (exc : VcException)
  | value (message : String)
  | permission (message : String)
  | unknownAgent (agentId : String)
  | store

def lifted {α : Type} (x : Except PyException α) : Except TaskVcException α :=
  x.mapError fun exc => .vc (.raised exc)

def shown [PythonJson] (value : PyValue) : Except TaskVcException String :=
  lifted (PythonJson.repr value)

def cardCanonical [PythonDumps] (card : AgentCard) : Except PyException (List UInt8) :=
  PythonDumps.dumps (.object [("agent_id", .text card.agentId),
    ("capabilities", .array ((card.capabilities.insertionSort (· ≤ ·)).map .text)),
    ("did", .text card.did), ("issuer", .text card.issuer), ("model", .text card.model),
    ("name", .text card.name), ("version", .text card.version)])

section
variable [PythonDumps] [CaSigner]

def signCard (card : AgentCard) : Except PyException AgentCard := do
  return { card with cardSignature := signData (← cardCanonical card) }

def verifyCard (card : AgentCard) : Except PyException Bool :=
  if card.cardSignature = [] then return false
  else do
    return verifySignature (← cardCanonical card) card.cardSignature

abbrev SignedCards := List (String × AgentCard)

variable [TrustEnv]

/-- The card with its signature, which is made on the first access. -/
def getCard (signed : SignedCards) (agentId : String) :
    Except TaskVcException (AgentCard × SignedCards) :=
  match signed.lookup agentId with
  | some card => .ok (card, signed)
  | none =>
    match unsignedCards.find? (·.agentId = agentId) with
    | none => .error (.unknownAgent agentId)
    | some unsigned => do
      let card ← lifted (signCard unsigned)
      return (card, (agentId, card) :: signed)

def verifyOwnCard (signed : SignedCards) (agentId : String) :
    Except TaskVcException SignedCards := do
  let (card, signed) ← getCard signed agentId
  if ← lifted (verifyCard card) then return signed
  else .error (.permission
    s!"Agent card verification failed for {card.did} (agent_id={← shown (.text agentId)})")

end

/-! The trust log. -/

/-- What is read of a document. -/
structure TrustDoc where
  vcToken : String
  claims : PyValue
  vcType : String
  transactionId : Option String := none
  expiresAt : Option String := none
  createdAt : DateTime
  retainUntil : Option DateTime := none

inductive DateField where
  | createdAt
  | retainUntil
deriving DecidableEq

structure TtlIndex where
  name : String
  key : DateField
  expireAfterSeconds : ℕ
  partialFilter : Option String
deriving DecidableEq

structure TrustLog where
  docs : List TrustDoc := []
  indexes : List TtlIndex := []

/-- `create_index`, which fails where the name stands for another definition. -/
def TrustLog.createIndex (log : TrustLog) (index : TtlIndex) : Option TrustLog :=
  if log.indexes.any (fun old => old.name = index.name ∧ old ≠ index) then none
  else if index ∈ log.indexes then some log
  else some { log with indexes := log.indexes ++ [index] }

def TrustLog.dropIndex (log : TrustLog) (name : String) : TrustLog :=
  { log with indexes := log.indexes.filter (·.name ≠ name) }

def TrustLog.createOrReplaceIndex (log : TrustLog) (index : TtlIndex) : TrustLog :=
  match log.createIndex index with
  | some log => log
  | none => ((log.dropIndex index.name).createIndex index).getD (log.dropIndex index.name)

def auditIndex : TtlIndex := ⟨"trust_log_ttl_90d", .createdAt, 7776000, some "audit"⟩

def taskIndex : TtlIndex :=
  ⟨"trust_log_task_vc_retain_until", .retainUntil, 0, some "task_scoped"⟩

def TrustLog.ensureTtlIndex (log : TrustLog) : TrustLog :=
  (log.createOrReplaceIndex auditIndex).createOrReplaceIndex taskIndex

def TrustDoc.date (doc : TrustDoc) : DateField → Option DateTime
  | .createdAt => some doc.createdAt
  | .retainUntil => doc.retainUntil

def seconds (n : ℕ) : DateTime := n * 1000000

def TtlIndex.expires (index : TtlIndex) (now : DateTime) (doc : TrustDoc) : Bool :=
  index.partialFilter.all (doc.vcType == ·) &&
    (doc.date index.key).any fun date => date + seconds index.expireAfterSeconds ≤ now

/-- The sweep of the database itself. -/
def TrustLog.sweep (log : TrustLog) (now : DateTime) : TrustLog :=
  { log with docs := log.docs.filter fun doc => !log.indexes.any (·.expires now doc) }

/-! Credentials. -/

def taskVcTtlSeconds : ℕ := 300
def vcTtlDays : ℕ := 365

def days (n : ℕ) : DateTime := seconds (n * 86400)

/-- `int(moment.timestamp())` -/
def timestamp (moment : DateTime) : ℤ := moment.tdiv 1000000

section
variable [TrustEnv]

def taskClaims (card : AgentCard) (agentId transactionId operation : String) (payload : PyValue)
    (now : DateTime) : PyFields :=
  [("iss", .text card.issuer), ("sub", .text agentId), ("jti", .text transactionId),
    ("iat", .int (timestamp now)), ("exp", .int (timestamp (now + seconds taskVcTtlSeconds))),
    ("vc_type", .text "task_scoped"), ("agent_id", .text agentId), ("agent_name", .text card.name),
    ("agent_version", .text card.version), ("agent_did", .text card.did),
    ("operation", .text operation), ("transaction_id", .text transactionId),
    ("timestamp", .text (TrustEnv.isoformat now)),
    ("payload_hash", .text (TrustEnv.payloadHash payload))]

def auditClaims (card : AgentCard) (agentId operation operationSummary : String)
    (payload : PyValue) (now : DateTime) : PyFields :=
  [("iss", .text card.issuer), ("sub", .text agentId), ("iat", .int (timestamp now)),
    ("exp", .int (timestamp (now + days vcTtlDays))), ("vc_type", .text "audit"),
    ("agent_id", .text agentId), ("agent_name", .text card.name),
    ("agent_version", .text card.version), ("agent_did", .text card.did),
    ("operation", .text operation), ("operation_summary", .text operationSummary),
    ("timestamp", .text (TrustEnv.isoformat now)),
    ("payload_hash", .text (TrustEnv.payloadHash payload))]

end

section
variable [DecimalDigits] [PythonJson] [CaKey]

def validateTaskVc (token transactionId agentId : String) (now : DateTime) :
    Except TaskVcException PyFields := do
  let claims ← (decodeVc token (timestamp now)).mapError .vc
  let fields ← lifted claims.asDict
  let vcType := dictGet fields "vc_type" .null
  let jti := dictGet fields "jti" .null
  let sub := dictGet fields "sub" .null
  if vcType.isText "task_scoped" = false then
    .error (.value s!"VC type mismatch: expected 'task_scoped', got {← shown vcType}")
  else if jti.isText transactionId = false then do
    let expected ← shown (.text transactionId)
    .error (.value s!"VC transaction scope mismatch: expected {expected}, got {← shown jti}")
  else if sub.isText agentId = false then do
    let expected ← shown (.text agentId)
    .error (.value s!"VC agent mismatch: expected {expected}, got {← shown sub}")
  else return fields

end

/-! What the platform does over time. -/

/-- A write that an agent went on to make. -/
structure GatedWrite where
  agentId : String
  transactionId : String
  operation : String
  payload : PyValue
  madeAt : DateTime

/-- `issued` and `writes` are not stored anywhere: they say what happened. -/
structure TrustState where
  now : DateTime
  log : TrustLog := {}
  signed : SignedCards := []
  issuedMetric : List (String × String) := []
  failedMetric : List (String × String) := []
  issued : List TrustDoc := []
  writes : List GatedWrite := []

class TrustSettings where
  enforcement : Bool
  retentionDays : ℕ

def TrustState.insert (s : TrustState) (doc : TrustDoc) : TrustState :=
  { s with log := { s.log with docs := s.log.docs ++ [doc] }, issued := s.issued ++ [doc] }

section
variable [DecimalDigits] [PythonDumps] [CaSigner] [TrustEnv] [TrustSettings]

/-- A task-scoped credential, unless the insert fails. -/
def issueTaskScopedVc (s : TrustState) (agentId transactionId operation : String)
    (payload : PyValue) (insertFails : Bool) : Except TaskVcException (String × TrustState) := do
  let (card, signed) ← getCard s.signed agentId
  let claims := taskClaims card agentId transactionId operation payload s.now
  let token ← lifted (encodeVc (.object claims))
  if insertFails then .error .store
  else return (token, { s with signed }.insert {
    vcToken := token
    claims := .object claims
    vcType := "task_scoped"
    transactionId := some transactionId
    expiresAt := some (TrustEnv.isoformat (s.now + seconds taskVcTtlSeconds))
    createdAt := s.now
    retainUntil := some (s.now + days TrustSettings.retentionDays) })

def issueVc (s : TrustState) (agentId operation operationSummary : String) (payload : PyValue)
    (insertFails : Bool) : Except TaskVcException TrustState := do
  let (card, signed) ← getCard s.signed agentId
  let claims := auditClaims card agentId operation operationSummary payload s.now
  let token ← lifted (encodeVc (.object claims))
  if insertFails then .error .store
  else return { s with signed }.insert {
    vcToken := token
    claims := .object claims
    vcType := "audit"
    createdAt := s.now }

def TrustState.failed (s : TrustState) (agentId operation : String) (exc : TaskVcException) :
    Except TaskVcException Unit × TrustState :=
  (if TrustSettings.enforcement then .error exc else .ok (),
    { s with failedMetric := s.failedMetric ++ [(agentId, operation)] })

/-- A card that a failure has left unsigned is signed at the next access. -/
def requireTaskVc (s : TrustState) (agentId transactionId operation : String) (payload : PyValue)
    (insertFails : Bool) (elapsed : ℕ) : Except TaskVcException Unit × TrustState :=
  match verifyOwnCard s.signed agentId with
  | .error exc => s.failed agentId operation exc
  | .ok signed =>
    let s := { s with signed }
    match issueTaskScopedVc s agentId transactionId operation payload insertFails with
    | .error exc => s.failed agentId operation exc
    | .ok (token, s') =>
      let s' := { s' with now := s'.now + elapsed }
      match validateTaskVc token transactionId agentId s'.now with
      | .error exc => s'.failed agentId operation exc
      | .ok _ => (.ok (), { s' with issuedMetric := s'.issuedMetric ++ [(agentId, operation)] })

/-- The write follows where the check returns. -/
def gatedWrite (s : TrustState) (agentId transactionId operation : String) (payload : PyValue)
    (insertFails : Bool) (elapsed : ℕ) : TrustState :=
  match requireTaskVc s agentId transactionId operation payload insertFails elapsed with
  | (.ok (), s') =>
    { s' with writes := s'.writes ++ [⟨agentId, transactionId, operation, payload, s'.now⟩] }
  | (.error _, s') => s'

inductive TrustStep : TrustState → TrustState → Prop
  | tick (s : TrustState) (later : DateTime) (hlater : s.now ≤ later) :
    TrustStep s { s with now := later }
  | startup (s : TrustState) : TrustStep s { s with log := s.log.ensureTtlIndex }
  | sweep (s : TrustState) : TrustStep s { s with log := s.log.sweep s.now }
  | audit {s s' : TrustState} {agentId operation operationSummary : String} {payload : PyValue}
    {insertFails : Bool} (h : issueVc s agentId operation operationSummary payload insertFails =
      .ok s') : TrustStep s s'
  | write (s : TrustState) (agentId transactionId operation : String) (payload : PyValue)
    (insertFails : Bool) (elapsed : ℕ) :
    TrustStep s (gatedWrite s agentId transactionId operation payload insertFails elapsed)

end

/-! What a token proves. -/

section
variable [DecimalDigits] [PythonDumps] [CaSigner] {fields : PyFields} {token : String}
  {now : DateTime}

theorem decoded_same (htoken : encodeVc (.object fields) = .ok token) {claims : PyValue}
    {moment : ℤ} (h : decodeVc token moment = .ok claims) :
    claims.Same (.object fields) ∧ Unexpired claims moment := by
  obtain ⟨header, payload, -, hpayload, rfl⟩ := encodeVc_eq_ok.mp htoken
  obtain ⟨headerSeg, payloadSeg, sigSeg, headerFields, hpresents⟩ := verifyVc_sound h
  have hsegments := hpresents.segments
  rw [splitDots_b64urlEncode] at hsegments
  have hseg : payloadSeg = b64urlEncode payload := by
    have htail := List.tail_eq_of_cons_eq hsegments
    exact (List.head_eq_of_cons_eq htail).symm
  obtain ⟨value, hread, hsame⟩ := readSegment_payload hpayload
  have hclaims := hpresents.payload
  rw [hseg, hread] at hclaims
  cases hclaims
  exact ⟨hsame, hpresents.unexpired⟩

theorem decodeVc_isOk_iff (hsigns : ∀ data, verifySignature data (signData data) = true)
    (htoken : encodeVc (.object fields) = .ok token) {exp : ℤ}
    (hexp : dictGet fields "exp" .null = .int exp) {moment : ℤ} :
    (∃ claims, decodeVc token moment = .ok claims) ↔ moment ≤ exp := by
  constructor
  · rintro ⟨claims, h⟩
    obtain ⟨hsame, claimFields, rfl, hunexpired⟩ := decoded_same htoken h
    have hlookup := hsame.lookup "exp"
    rw [hexp] at hlookup
    rcases hunexpired with hnull | ⟨n, hint, hle⟩
    · rw [hnull] at hlookup
      cases hlookup
    · rw [hlookup.intOfValue_eq] at hint
      cases hint
      exact hle
  · intro hle
    have hunexpired : Unexpired (.object fields) moment :=
      ⟨fields, rfl, .inr ⟨exp, by rw [hexp]; rfl, hle⟩⟩
    obtain ⟨claims, hdecode, -⟩ := decodeVc_encodeVc hsigns htoken hunexpired
    exact ⟨claims, hdecode⟩

omit [DecimalDigits] [PythonDumps] [CaSigner] in
theorem isText_eq_true {value : PyValue} {s : String} : value.isText s = true ↔
    value = .text s := by
  cases value <;> simp [PyValue.isText]

omit [DecimalDigits] [PythonDumps] [CaSigner] in
theorem mapError_eq_ok {α ε ε' : Type} {x : Except ε α} {f : ε → ε'} {a : α} :
    x.mapError f = .ok a ↔ x = .ok a := by
  cases x <;> simp [Except.mapError]

omit [DecimalDigits] [PythonDumps] [CaSigner] in
theorem lifted_eq_ok {α : Type} {x : Except PyException α} {a : α} :
    lifted x = .ok a ↔ x = .ok a := mapError_eq_ok

omit [PythonDumps] [CaSigner] in
theorem validateTaskVc_eq_ok [PythonJson] [CaKey] {claims : PyFields}
    {transactionId agentId : String} {moment : DateTime} :
    validateTaskVc token transactionId agentId moment = .ok claims ↔
      decodeVc token (timestamp moment) = .ok (.object claims) ∧
        dictGet claims "vc_type" .null = .text "task_scoped" ∧
        dictGet claims "jti" .null = .text transactionId ∧
        dictGet claims "sub" .null = .text agentId := by
  simp only [validateTaskVc, Scan.bind_eq_ok, mapError_eq_ok, lifted_eq_ok, PyValue.asDict_eq_ok,
    ← isText_eq_true]
  constructor
  · rintro ⟨value, hdecode, fields, rfl, h⟩
    split at h
    · simp [Scan.bind_eq_ok] at h
    · split at h
      · simp [Scan.bind_eq_ok] at h
      · split at h
        · simp [Scan.bind_eq_ok] at h
        · cases h
          simp_all
  · rintro ⟨hdecode, htype, hjti, hsub⟩
    exact ⟨_, hdecode, claims, rfl, by simp [htype, hjti, hsub]; rfl⟩

variable [TrustEnv] {card : AgentCard} {agentId transactionId operation : String}
  {payload : PyValue}

/-- It holds for one transaction and one agent, for five minutes. -/
theorem validateTaskVc_iff (hsigns : ∀ data, verifySignature data (signData data) = true)
    (htoken : encodeVc (.object (taskClaims card agentId transactionId operation payload now)) =
      .ok token) {transactionId' agentId' : String} {moment : DateTime} :
    (∃ claims, validateTaskVc token transactionId' agentId' moment = .ok claims) ↔
      transactionId' = transactionId ∧ agentId' = agentId ∧
        timestamp moment ≤ timestamp (now + seconds taskVcTtlSeconds) := by
  have hexp : (∃ claims, decodeVc token (timestamp moment) = .ok claims) ↔
      timestamp moment ≤ timestamp (now + seconds taskVcTtlSeconds) :=
    decodeVc_isOk_iff hsigns htoken rfl
  simp only [validateTaskVc_eq_ok]
  constructor
  · rintro ⟨claims, hdecode, -, hjti, hsub⟩
    have hsame := (decoded_same htoken hdecode).1
    have hjti' := (hsame.lookup "jti").eq_text
    have hsub' := (hsame.lookup "sub").eq_text
    rw [hjti] at hjti'
    rw [hsub] at hsub'
    exact ⟨PyValue.text.inj hjti', PyValue.text.inj hsub', hexp.mp ⟨_, hdecode⟩⟩
  · rintro ⟨rfl, rfl, hle⟩
    obtain ⟨value, hdecode⟩ := hexp.mpr hle
    obtain ⟨hsame, claims, rfl, -⟩ := decoded_same htoken hdecode
    exact ⟨claims, hdecode, (hsame.lookup "vc_type").eq_text, (hsame.lookup "jti").eq_text,
      (hsame.lookup "sub").eq_text⟩

end

/-! What the log keeps. -/

section
variable {log log' : TrustLog} {index : TtlIndex} {doc : TrustDoc} {now : DateTime}

/-- Every index is one of the two that are set up. -/
def TrustLog.Indexed (log : TrustLog) : Prop :=
  ∀ index ∈ log.indexes, index = auditIndex ∨ index = taskIndex

theorem TrustLog.createIndex_eq_some : log.createIndex index = some log' →
    log'.docs = log.docs ∧ (∀ old ∈ log'.indexes, old = index ∨ old ∈ log.indexes) ∧
      ∀ old ∈ log'.indexes, old.name = index.name → old = index := by
  intro h
  unfold createIndex at h
  split at h
  · cases h
  · rename_i hconflict
    have hsame : ∀ old ∈ log.indexes, old.name = index.name → old = index := by
      simpa using hconflict
    split at h
    · cases h
      exact ⟨rfl, fun old hold => .inr hold, hsame⟩
    · cases h
      refine ⟨rfl, fun old hold => ?_, fun old hold hname => ?_⟩
      · exact (List.mem_append.mp hold).symm.imp_left List.mem_singleton.mp
      · rcases List.mem_append.mp hold with hold | hold
        · exact hsame old hold hname
        · exact List.mem_singleton.mp hold

theorem TrustLog.createIndex_dropIndex : (log.dropIndex index.name).createIndex index =
    some { log.dropIndex index.name with
      indexes := (log.dropIndex index.name).indexes ++ [index] } := by
  have hnone : ∀ old ∈ (log.dropIndex index.name).indexes, old.name ≠ index.name := by
    intro old hold
    simpa using (List.mem_filter.mp hold).2
  have hconflict : (log.dropIndex index.name).indexes.any
      (fun old => old.name = index.name ∧ old ≠ index) = false := by
    rw [List.any_eq_false]
    intro old hold
    simp [hnone old hold]
  have hmem : index ∉ (log.dropIndex index.name).indexes := fun h => hnone index h rfl
  rw [createIndex, hconflict, if_neg (by simp), if_neg hmem]

/-- No other index goes by its name afterwards. -/
theorem TrustLog.createOrReplaceIndex_spec (log : TrustLog) (index : TtlIndex) :
    (log.createOrReplaceIndex index).docs = log.docs ∧
      (∀ old ∈ (log.createOrReplaceIndex index).indexes, old = index ∨ old ∈ log.indexes) ∧
      ∀ old ∈ (log.createOrReplaceIndex index).indexes, old.name = index.name → old = index := by
  unfold createOrReplaceIndex
  cases hcreate : log.createIndex index with
  | some created => exact createIndex_eq_some hcreate
  | none =>
    have hdropped : (log.dropIndex index.name).createIndex index = some _ := createIndex_dropIndex
    obtain ⟨hdocs, hold, hname⟩ := createIndex_eq_some hdropped
    rw [hdropped]
    exact ⟨hdocs, fun old h => (hold old h).imp_right List.mem_of_mem_filter, hname⟩

theorem TrustLog.indexed_ensureTtlIndex (hnames : ∀ index ∈ log.indexes,
    index.name = auditIndex.name ∨ index.name = taskIndex.name) : log.ensureTtlIndex.Indexed := by
  obtain ⟨-, hmem, haudit⟩ := log.createOrReplaceIndex_spec auditIndex
  obtain ⟨-, hmem', htask⟩ :=
    (log.createOrReplaceIndex auditIndex).createOrReplaceIndex_spec taskIndex
  intro index hindex
  rcases hmem' index hindex with rfl | hold
  · exact .inr rfl
  · rcases hmem index hold with rfl | hold'
    · exact .inl rfl
    · exact (hnames index hold').imp (haudit index hold) (htask index hindex)

@[simp]
theorem TrustLog.docs_ensureTtlIndex : log.ensureTtlIndex.docs = log.docs := by
  unfold ensureTtlIndex
  rw [(createOrReplaceIndex_spec _ taskIndex).1, (createOrReplaceIndex_spec _ auditIndex).1]

theorem TrustLog.Indexed.ensureTtlIndex (h : log.Indexed) : log.ensureTtlIndex.Indexed := by
  refine indexed_ensureTtlIndex fun index hindex => ?_
  exact (h index hindex).imp (congrArg TtlIndex.name) (congrArg TtlIndex.name)

/-- The term of an audit credential is ninety days, that of a task its own. -/
def TrustDoc.Over (doc : TrustDoc) (now : DateTime) : Prop :=
  doc.vcType = "audit" ∧ doc.createdAt + days 90 ≤ now ∨
    doc.vcType = "task_scoped" ∧ ∃ date, doc.retainUntil = some date ∧ date ≤ now

theorem TrustDoc.over_of_expires (hindex : index = auditIndex ∨ index = taskIndex)
    (h : index.expires now doc = true) : doc.Over now := by
  rcases hindex with rfl | rfl
  · simp only [TtlIndex.expires, auditIndex, TrustDoc.date, Option.all_some, Option.any_some,
      Bool.and_eq_true, beq_iff_eq] at h
    exact .inl ⟨h.1, of_decide_eq_true h.2⟩
  · simp only [TtlIndex.expires, taskIndex, TrustDoc.date, Option.all_some, Option.any_eq_true,
      Bool.and_eq_true, beq_iff_eq] at h
    obtain ⟨htype, date, hdate, hle⟩ := h
    have hseconds : date + seconds 0 = date := by simp [seconds]
    exact .inr ⟨htype, date, hdate, hseconds ▸ of_decide_eq_true hle⟩

theorem TrustDoc.Over.mono {later : DateTime} (hlater : now ≤ later) (h : doc.Over now) :
    doc.Over later := by
  rcases h with ⟨htype, hle⟩ | ⟨htype, date, hdate, hle⟩
  · exact .inl ⟨htype, hle.trans hlater⟩
  · exact .inr ⟨htype, date, hdate, hle.trans hlater⟩

theorem TrustLog.mem_sweep (hindexed : log.Indexed) (hdoc : doc ∈ log.docs)
    (hover : ¬ doc.Over now) : doc ∈ (log.sweep now).docs := by
  refine List.mem_filter.mpr ⟨hdoc, ?_⟩
  have hnone : log.indexes.any (·.expires now doc) = false := by
    rw [List.any_eq_false]
    intro index hindex hexpires
    exact hover (TrustDoc.over_of_expires (hindexed index hindex) hexpires)
  simp [hnone]

end

/-! Runs. -/

section
variable [DecimalDigits] [PythonDumps] [CaSigner] [TrustEnv] [TrustSettings]
  {s s' : TrustState} {agentId transactionId operation token : String} {payload : PyValue}
  {insertFails : Bool} {doc : TrustDoc} {write : GatedWrite}

/-- What a document shows about a write. -/
structure Credential (doc : TrustDoc) (write : GatedWrite) : Prop where
  vcType : doc.vcType = "task_scoped"
  scope : ∀ transactionId agentId moment,
    (∃ claims, validateTaskVc doc.vcToken transactionId agentId moment = .ok claims) ↔
      transactionId = write.transactionId ∧ agentId = write.agentId ∧
        timestamp moment ≤ timestamp (doc.createdAt + seconds taskVcTtlSeconds)
  contents : ∀ moment claims,
    validateTaskVc doc.vcToken write.transactionId write.agentId moment = .ok claims →
      dictGet claims "operation" .null = .text write.operation ∧
        dictGet claims "payload_hash" .null = .text (TrustEnv.payloadHash write.payload)
  before : doc.createdAt ≤ write.madeAt
  fresh : timestamp write.madeAt ≤ timestamp (doc.createdAt + seconds taskVcTtlSeconds)
  retainUntil : doc.retainUntil = some (doc.createdAt + days TrustSettings.retentionDays)

/-- The document of a task credential and its token. -/
structure Minted (now : DateTime) (agentId transactionId operation : String) (payload : PyValue)
    (token : String) (doc : TrustDoc) : Prop where
  vcToken : doc.vcToken = token
  encoded : ∃ card, encodeVc
    (.object (taskClaims card agentId transactionId operation payload now)) = .ok token
  vcType : doc.vcType = "task_scoped"
  createdAt : doc.createdAt = now
  retainUntil : doc.retainUntil = some (now + days TrustSettings.retentionDays)

theorem Minted.credential {now moment : DateTime}
    (h : Minted now agentId transactionId operation payload token doc)
    (hsigns : ∀ data, verifySignature data (signData data) = true) (hlater : now ≤ moment)
    {claims : PyFields}
    (hvalid : validateTaskVc token transactionId agentId moment = .ok claims) :
    Credential doc ⟨agentId, transactionId, operation, payload, moment⟩ := by
  obtain ⟨card, hencoded⟩ := h.encoded
  refine ⟨h.vcType, ?_, ?_, ?_, ?_, ?_⟩
  · intro transactionId' agentId' moment'
    rw [h.vcToken, h.createdAt]
    exact validateTaskVc_iff hsigns hencoded
  · intro moment' claims' hclaims
    rw [h.vcToken] at hclaims
    have hsame := (decoded_same hencoded (validateTaskVc_eq_ok.mp hclaims).1).1
    exact ⟨(hsame.lookup "operation").eq_text, (hsame.lookup "payload_hash").eq_text⟩
  · rw [h.createdAt]
    exact hlater
  · rw [h.createdAt]
    exact ((validateTaskVc_iff hsigns hencoded).mp ⟨claims, hvalid⟩).2.2
  · rw [h.createdAt]
    exact h.retainUntil

omit [DecimalDigits] in
theorem issueTaskScopedVc_eq_ok
    (h : issueTaskScopedVc s agentId transactionId operation payload insertFails =
      .ok (token, s')) :
    ∃ signed doc, s' = { s with signed }.insert doc ∧
      Minted s.now agentId transactionId operation payload token doc := by
  simp only [issueTaskScopedVc, Scan.bind_eq_ok, lifted_eq_ok] at h
  obtain ⟨⟨card, signed⟩, -, token', htoken, h⟩ := h
  cases insertFails with
  | true => cases h
  | false =>
    cases h
    exact ⟨signed, _, rfl, rfl, ⟨card, htoken⟩, rfl, rfl, rfl⟩

omit [DecimalDigits] [TrustSettings] in
theorem issueVc_eq_ok {operationSummary : String}
    (h : issueVc s agentId operation operationSummary payload insertFails = .ok s') :
    ∃ signed doc, s' = { s with signed }.insert doc := by
  simp only [issueVc, Scan.bind_eq_ok] at h
  obtain ⟨⟨card, signed⟩, -, token', -, h⟩ := h
  cases insertFails with
  | true => cases h
  | false =>
    cases h
    exact ⟨signed, _, rfl⟩

/-- The log, the clock and what has been issued go the same way; there may be new metrics. -/
structure TrustState.Grown (s s' : TrustState) : Prop where
  now : s.now ≤ s'.now
  indexes : s'.log.indexes = s.log.indexes
  writes : s'.writes = s.writes
  issued : ∃ docs, s'.issued = s.issued ++ docs ∧ s'.log.docs = s.log.docs ++ docs

omit [DecimalDigits] [PythonDumps] [CaSigner] [TrustEnv] in
theorem TrustState.grown_failed {exc : TaskVcException} (h : s.Grown s') :
    s.Grown (s'.failed agentId operation exc).2 := ⟨h.now, h.indexes, h.writes, h.issued⟩

omit [DecimalDigits] [PythonDumps] [CaSigner] [TrustEnv] [TrustSettings] in
theorem TrustState.grown_insert {signed : SignedCards} :
    s.Grown ({ s with signed }.insert doc) := ⟨le_rfl, rfl, rfl, [doc], rfl, rfl⟩

/-- The check fails, or it leaves a credential that is valid as it returns. -/
theorem requireTaskVc_cases {elapsed : ℕ} :
    (∃ mid exc, s.Grown mid ∧ requireTaskVc s agentId transactionId operation payload insertFails
      elapsed = mid.failed agentId operation exc) ∨
    ∃ mid doc token claims, s.Grown mid ∧ doc ∈ mid.issued ∧
      Minted s.now agentId transactionId operation payload token doc ∧
      validateTaskVc token transactionId agentId mid.now = .ok claims ∧
      requireTaskVc s agentId transactionId operation payload insertFails elapsed =
        (.ok (), { mid with issuedMetric := mid.issuedMetric ++ [(agentId, operation)] }) := by
  have hsame : ∀ signed, s.Grown { s with signed } := fun signed => ⟨le_rfl, rfl, rfl, [], by simp⟩
  unfold requireTaskVc
  split
  · exact .inl ⟨_, _, hsame s.signed, rfl⟩
  · rename_i signed hverify
    dsimp only
    split
    · exact .inl ⟨_, _, hsame signed, rfl⟩
    · rename_i token s' hissue
      obtain ⟨signed', doc, rfl, hminted⟩ := issueTaskScopedVc_eq_ok hissue
      have hinsert : s.Grown ({ s with signed := signed' }.insert doc) := TrustState.grown_insert
      have hlater : s.now ≤ s.now + elapsed := le_add_of_nonneg_right (Int.natCast_nonneg elapsed)
      have hgrown : s.Grown { ({ s with signed := signed' }.insert doc) with
          now := s.now + elapsed } := ⟨hlater, hinsert.indexes, hinsert.writes, hinsert.issued⟩
      split
      · exact .inl ⟨_, _, hgrown, rfl⟩
      · rename_i claims hvalid
        have hdoc : doc ∈ ({ s with signed := signed' }.insert doc).issued :=
          List.mem_append_right _ (List.mem_singleton_self doc)
        exact .inr ⟨_, doc, token, claims, hgrown, hdoc, hminted, hvalid, rfl⟩

theorem requireTaskVc_grown {elapsed : ℕ} : s.Grown
    (requireTaskVc s agentId transactionId operation payload insertFails elapsed).2 := by
  rcases requireTaskVc_cases with ⟨mid, exc, hgrown, hfailed⟩ | ⟨mid, _, _, _, hgrown, _, _, _, hok⟩
  · rw [hfailed]
    exact TrustState.grown_failed hgrown
  · rw [hok]
    exact ⟨hgrown.now, hgrown.indexes, hgrown.writes, hgrown.issued⟩

/-- Where the checks are enforced, whoever passes has left a credential. -/
theorem requireTaskVc_credential (henforce : TrustSettings.enforcement = true)
    (hsigns : ∀ data, verifySignature data (signData data) = true) {elapsed : ℕ}
    (h : requireTaskVc s agentId transactionId operation payload insertFails elapsed =
      (.ok (), s')) :
    ∃ doc ∈ s'.issued, Credential doc ⟨agentId, transactionId, operation, payload, s'.now⟩ := by
  rcases requireTaskVc_cases with
    ⟨mid, exc, -, hfailed⟩ | ⟨mid, doc, token, claims, hgrown, hdoc, hminted, hvalid, hok⟩
  · rw [h] at hfailed
    simp [TrustState.failed, henforce] at hfailed
  · rw [h] at hok
    cases hok
    exact ⟨doc, hdoc, hminted.credential hsigns hgrown.now hvalid⟩

/-- Whoever has a card passes in time, unless the log refuses the document. -/
theorem requireTaskVc_passes (hsigns : ∀ data, verifySignature data (signData data) = true)
    {card : AgentCard} {bytes : List UInt8} (hsigned : s.signed = [])
    (hcard : unsignedCards.find? (·.agentId = agentId) = some card)
    (hbytes : cardCanonical card = .ok bytes) (hne : signData bytes ≠ [])
    (htoken : encodeVc (.object (taskClaims card agentId transactionId operation payload s.now)) =
      .ok token) {elapsed : ℕ}
    (hsoon : timestamp (s.now + elapsed) ≤ timestamp (s.now + seconds taskVcTtlSeconds)) :
    (requireTaskVc s agentId transactionId operation payload false elapsed).1 = .ok () := by
  let signed : AgentCard := { card with cardSignature := signData bytes }
  have hsign : signCard card = .ok signed := by
    rw [signCard, hbytes]
    rfl
  have hget : getCard s.signed agentId = .ok (signed, [(agentId, signed)]) := by
    simp only [getCard, hsigned, List.lookup_nil, hcard, hsign]
    rfl
  have hagain : getCard [(agentId, signed)] agentId = .ok (signed, [(agentId, signed)]) := by
    simp only [getCard, List.lookup_cons_self]
  have hbytes' : cardCanonical signed = .ok bytes := hbytes
  have hverify : verifyCard signed = .ok true := by
    rw [verifyCard, if_neg hne, hbytes']
    exact congrArg Except.ok (hsigns bytes)
  have hown : verifyOwnCard s.signed agentId = .ok [(agentId, signed)] := by
    rw [verifyOwnCard, hget]
    change (lifted (verifyCard signed) >>= _) = _
    rw [hverify]
    rfl
  have hclaims : encodeVc (.object (taskClaims signed agentId transactionId operation payload
      s.now)) = .ok token := htoken
  obtain ⟨claims, hvalid⟩ := (validateTaskVc_iff hsigns htoken).mpr ⟨rfl, rfl, hsoon⟩
  have hissue : ∃ s', issueTaskScopedVc { s with signed := [(agentId, signed)] } agentId
      transactionId operation payload false = .ok (token, s') ∧ s'.now = s.now := by
    rw [issueTaskScopedVc, hagain]
    change ∃ s', (lifted (encodeVc (.object (taskClaims signed agentId transactionId operation
      payload s.now))) >>= _) = _ ∧ _
    rw [hclaims]
    exact ⟨_, rfl, rfl⟩
  obtain ⟨s', hissued, hnow⟩ := hissue
  simp only [requireTaskVc, hown, hissued, hnow, hvalid]

theorem gatedWrite_made {elapsed : ℕ}
    (h : (requireTaskVc s agentId transactionId operation payload insertFails elapsed).1 = .ok ()) :
    let s' := gatedWrite s agentId transactionId operation payload insertFails elapsed
    ∃ write ∈ s'.writes, write.madeAt = s'.now := by
  cases hcheck : requireTaskVc s agentId transactionId operation payload insertFails elapsed with
  | mk outcome s' =>
    rw [hcheck] at h
    have houtcome : outcome = .ok () := h
    simp only [gatedWrite, hcheck, houtcome]
    exact ⟨_, List.mem_append_right _ (List.mem_singleton_self _), rfl⟩

/-- A credential is on record until its term is over, and no write is without one. -/
structure TrustState.Kept (s : TrustState) : Prop where
  indexed : s.log.Indexed
  kept : ∀ doc ∈ s.issued, ¬ doc.Over s.now → doc ∈ s.log.docs
  credentialed : TrustSettings.enforcement = true →
    ∀ write ∈ s.writes, ∃ doc ∈ s.issued, Credential doc write

theorem TrustState.Kept.grown (h : s.Kept) (hgrown : s.Grown s') : s'.Kept := by
  obtain ⟨docs, hissued, hdocs⟩ := hgrown.issued
  refine ⟨?_, ?_, ?_⟩
  · have hindexed := h.indexed
    rwa [TrustLog.Indexed, ← hgrown.indexes] at hindexed
  · intro doc hdoc hover
    rw [hissued] at hdoc
    rw [hdocs]
    refine List.mem_append.mpr ((List.mem_append.mp hdoc).imp_left fun hold => ?_)
    exact h.kept doc hold fun hover' => hover (hover'.mono hgrown.now)
  · intro henforce write hwrite
    rw [hgrown.writes] at hwrite
    obtain ⟨doc, hdoc, hcredential⟩ := h.credentialed henforce write hwrite
    exact ⟨doc, hissued ▸ List.mem_append_left docs hdoc, hcredential⟩

theorem TrustState.Kept.gatedWrite (hsigns : ∀ data, verifySignature data (signData data) = true)
    {elapsed : ℕ} (h : s.Kept) :
    (gatedWrite s agentId transactionId operation payload insertFails elapsed).Kept := by
  have hgrown : s.Grown
      (requireTaskVc s agentId transactionId operation payload insertFails elapsed).2 :=
    requireTaskVc_grown
  unfold Trust.gatedWrite
  split
  · rename_i t hcheck
    rw [hcheck] at hgrown
    have ht := h.grown hgrown
    refine ⟨ht.indexed, ht.kept, fun henforce write hwrite => ?_⟩
    rcases List.mem_append.mp hwrite with hold | hnew
    · exact ht.credentialed henforce write hold
    · rw [List.mem_singleton.mp hnew]
      obtain ⟨doc, hdoc, hcredential⟩ := requireTaskVc_credential henforce hsigns hcheck
      exact ⟨doc, hdoc, hcredential⟩
  · rename_i exc t hcheck
    rw [hcheck] at hgrown
    exact h.grown hgrown

theorem TrustState.Kept.step (hsigns : ∀ data, verifySignature data (signData data) = true)
    (h : s.Kept) (hstep : TrustStep s s') : s'.Kept := by
  cases hstep with
  | tick later hlater => exact h.grown ⟨hlater, rfl, rfl, [], by simp⟩
  | startup =>
    refine ⟨h.indexed.ensureTtlIndex, fun doc hdoc hover => ?_, h.credentialed⟩
    rw [TrustLog.docs_ensureTtlIndex]
    exact h.kept doc hdoc hover
  | sweep =>
    refine ⟨h.indexed, fun doc hdoc hover => ?_, h.credentialed⟩
    exact TrustLog.mem_sweep h.indexed (h.kept doc hdoc hover) hover
  | audit hissue =>
    obtain ⟨signed, doc, rfl⟩ := issueVc_eq_ok hissue
    exact h.grown TrustState.grown_insert
  | write => exact h.gatedWrite hsigns

theorem TrustState.Kept.run (hsigns : ∀ data, verifySignature data (signData data) = true)
    (h : s.Kept) (hrun : Relation.ReflTransGen TrustStep s s') : s'.Kept := by
  induction hrun with
  | refl => exact h
  | tail _ hstep ih => exact ih.step hsigns hstep

end

/-- Every write is backed by a credential for it alone, which was fresh when it was made; this and
every other credential is on record until its term is over, whatever indexes stood before. -/
theorem gated_writes_credentialed [DecimalDigits] [PythonDumps] [CaSigner] [TrustEnv]
    [TrustSettings] (hsigns : ∀ data, verifySignature data (signData data) = true)
    {old : List TtlIndex} (hnames : ∀ index ∈ old,
      index.name = auditIndex.name ∨ index.name = taskIndex.name) {start : DateTime}
    {s : TrustState} (hrun : Relation.ReflTransGen TrustStep
      { now := start, log := TrustLog.ensureTtlIndex { indexes := old } } s) :
    (∀ doc ∈ s.issued, ¬ doc.Over s.now → doc ∈ s.log.docs) ∧
      (TrustSettings.enforcement = true → ∀ write ∈ s.writes, ∃ doc ∈ s.issued,
        Credential doc write ∧ (s.now < doc.createdAt + days TrustSettings.retentionDays →
          doc ∈ s.log.docs)) := by
  have hstart : TrustState.Kept
      { now := start, log := TrustLog.ensureTtlIndex { indexes := old } } :=
    ⟨TrustLog.indexed_ensureTtlIndex hnames, nofun, nofun⟩
  have hkept := hstart.run hsigns hrun
  refine ⟨hkept.kept, fun henforce write hwrite => ?_⟩
  obtain ⟨doc, hdoc, hcredential⟩ := hkept.credentialed henforce write hwrite
  refine ⟨doc, hdoc, hcredential, fun hbefore => hkept.kept doc hdoc ?_⟩
  rintro (⟨haudit, -⟩ | ⟨-, date, hdate, hle⟩)
  · rw [hcredential.vcType] at haudit
    simp at haudit
  · rw [hcredential.retainUntil] at hdate
    cases hdate
    exact absurd hle (not_le.mpr hbefore)

/-! The reconciler applies a match. -/

theorem same_refl : ∀ value : PyValue, value.Same value
  | .null => .null
  | .bool b => .bool b
  | .int n => .int n
  | .float x => .float x
  | .text s => .text s
  | .array items => .array (List.forall₂_same.mpr fun item _ => same_refl item)
  | .object fields => .object fun name => by
    cases hlookup : fields.lookup name with
    | none => exact .none
    | some value =>
      obtain ⟨before, after, heq, -⟩ := List.lookup_eq_some_iff.mp hlookup
      have hmem : (name, value) ∈ fields := by simp [heq]
      have hsize := List.sizeOf_lt_of_mem hmem
      have hpair : sizeOf (name, value) = 1 + sizeOf name + sizeOf value := rfl
      exact .some (same_refl value)

@[reducible] def epochEnv : TrustEnv where
  isoformat _ := "1970-01-01T00:00:00+00:00"
  payloadHash _ := "44136fa355b3678a1146ad16f7e8649e94fb4fc21fe77e8310c060f61caaff8a"
  activeModelId := "accounts/fireworks/models/gemma-4-31b-it"

def reconcilerCard : AgentCard :=
  letI := epochEnv
  unsignedCard "C" "Reconciliation Engine" "v1.0" "c_reconciler"
    ["exact_match", "fuzzy_match", "llm_fallback"]

def reconcilerValue : PyValue :=
  .object [("agent_id", .text "C"), ("capabilities", .array
      ((["exact_match", "fuzzy_match", "llm_fallback"].insertionSort (· ≤ ·)).map .text)),
    ("did", .text "did:web:finguard.internal:agent:c_reconciler"),
    ("issuer", .text "finguard-system"),
    ("model", .text "accounts/fireworks/models/gemma-4-31b-it"),
    ("name", .text "Reconciliation Engine"), ("version", .text "v1.0")]

def reconcilerText : String :=
  "\x7b\"agent_id\":" ++ ("\"C\",\"capabilities\":[\"exact_match\",\"fuzzy_match\"," ++
    "\"llm_fallback\"],\"did\":\"did:web:finguard.internal:agent:c_reconciler\"," ++
    "\"issuer\":\"finguard-system\",\"model\":\"accounts/fireworks/models/gemma-4-31b-it\"," ++
    "\"name\":\"Reconciliation Engine\",\"version\":\"v1.0\"\x7d")

def matchValue : PyValue :=
  letI := epochEnv
  .object (taskClaims reconcilerCard "C" "tx-1" "reconciliation.apply" (.object []) 0)

def matchText : String :=
  "\x7b\"agent_did\":" ++ ("\"did:web:finguard.internal:agent:c_reconciler\",\"agent_id\":\"C\"," ++
    "\"agent_name\":\"Reconciliation Engine\",\"agent_version\":\"v1.0\",\"exp\":300," ++
    "\"iat\":0,\"iss\":\"finguard-system\",\"jti\":\"tx-1\"," ++
    "\"operation\":\"reconciliation.apply\"," ++
    "\"payload_hash\":\"44136fa355b3678a1146ad16f7e8649e94fb4fc21fe77e8310c060f61caaff8a\"," ++
    "\"sub\":\"C\",\"timestamp\":\"1970-01-01T00:00:00+00:00\",\"transaction_id\":\"tx-1\"," ++
    "\"vc_type\":\"task_scoped\"\x7d")

theorem asciiBytes_append (s t : String) : asciiBytes (s ++ t) = asciiBytes s ++ asciiBytes t := by
  rw [asciiBytes, String.toList_append, List.map_append]
  rfl

/-- They are told apart in their first key. -/
theorem texts_ne : asciiBytes headerText ≠ asciiBytes reconcilerText ∧
    asciiBytes headerText ≠ asciiBytes matchText ∧
    asciiBytes reconcilerText ≠ asciiBytes matchText := by
  have hheader : (asciiBytes headerText).take 9 = [123, 34, 97, 108, 103, 34, 58, 34, 69] := by
    decide +kernel
  have hreconciler : (asciiBytes reconcilerText).take 9 =
      [123, 34, 97, 103, 101, 110, 116, 95, 105] := by
    rw [reconcilerText, asciiBytes_append]
    rfl
  have hmatch : (asciiBytes matchText).take 9 = [123, 34, 97, 103, 101, 110, 116, 95, 100] := by
    rw [matchText, asciiBytes_append]
    rfl
  refine ⟨fun h => ?_, fun h => ?_, fun h => ?_⟩
  · rw [h, hreconciler] at hheader
    cases hheader
  · rw [h, hmatch] at hheader
    cases hheader
  · rw [h, hmatch] at hreconciler
    cases hreconciler

theorem loads_knowing {texts : List (String × PyValue)} {text : String × PyValue}
    {body : List UInt8} (h : texts.find? (asciiBytes ·.1 = body) = some text) :
    (PythonJson.knowing texts).loads body = .ok text.2 := by
  unfold PythonJson.loads
  dsimp only
  rw [h]

def matchTexts : List (String × PyValue) :=
  [(headerText, vcHeader), (reconcilerText, reconcilerValue), (matchText, matchValue)]

@[reducible] def matchJson : PythonJson := .knowing matchTexts

theorem matchJson_loads : matchJson.loads (asciiBytes headerText) = .ok vcHeader ∧
    matchJson.loads (asciiBytes reconcilerText) = .ok reconcilerValue ∧
    matchJson.loads (asciiBytes matchText) = .ok matchValue := by
  obtain ⟨hreconciler, hmatch, hmatch'⟩ := texts_ne
  have hfind : matchTexts.find? (asciiBytes ·.1 = asciiBytes headerText) =
      some (headerText, vcHeader) := by simp [matchTexts]
  have hfind' : matchTexts.find? (asciiBytes ·.1 = asciiBytes reconcilerText) =
      some (reconcilerText, reconcilerValue) := by simp [matchTexts, hreconciler]
  have hfind'' : matchTexts.find? (asciiBytes ·.1 = asciiBytes matchText) =
      some (matchText, matchValue) := by simp [matchTexts, hmatch, hmatch']
  exact ⟨loads_knowing hfind, loads_knowing hfind', loads_knowing hfind''⟩

open Classical in
/-- It writes what it reads. -/
@[reducible] noncomputable def matchDumps : PythonDumps where
  toPythonJson := matchJson
  dumps value :=
    if value = vcHeader then .ok (asciiBytes headerText)
    else if value = reconcilerValue then .ok (asciiBytes reconcilerText)
    else if value = matchValue then .ok (asciiBytes matchText)
    else .error .recursionError
  loads_dumps {value text} h := by
    obtain ⟨hheader, hreconciler, hmatch⟩ := matchJson_loads
    split at h
    · rename_i hvalue
      rw [← Except.ok.inj h, hvalue]
      exact ⟨vcHeader, hheader, same_refl _⟩
    · split at h
      · rename_i hvalue
        rw [← Except.ok.inj h, hvalue]
        exact ⟨reconcilerValue, hreconciler, same_refl _⟩
      · split at h
        · rename_i hvalue
          rw [← Except.ok.inj h, hvalue]
          exact ⟨matchValue, hmatch, same_refl _⟩
        · cases h
  dumps_header := ⟨asciiBytes headerText, if_pos rfl⟩

theorem matchDumps_dumps :
    letI := matchDumps
    PythonDumps.dumps vcHeader = .ok (asciiBytes headerText) ∧
      PythonDumps.dumps reconcilerValue = .ok (asciiBytes reconcilerText) ∧
      PythonDumps.dumps matchValue = .ok (asciiBytes matchText) := by
  let := matchDumps
  have hreconciler : reconcilerValue ≠ vcHeader := by
    simp [reconcilerValue, vcHeader, PyValue.ofTexts]
  have hmatch : matchValue ≠ vcHeader := by
    simp [matchValue, taskClaims, vcHeader, PyValue.ofTexts]
  have hmatch' : matchValue ≠ reconcilerValue := by
    simp [matchValue, taskClaims, reconcilerValue]
  exact ⟨if_pos rfl, (if_neg hreconciler).trans (if_pos rfl),
    (if_neg hmatch).trans ((if_neg hmatch').trans (if_pos rfl))⟩

@[reducible] def enforced : TrustSettings := ⟨true, 365⟩

theorem length_repeating (data : List UInt8) :
    letI := CaSigner.repeating
    (signData data).length = 64 := by
  let := CaSigner.repeating
  have hsign : signData data = (data ++ List.replicate 64 0).take 64 := rfl
  rw [hsign, List.length_take, List.length_append, List.length_replicate]
  omega

theorem lt_of_fresh {made created : ℤ}
    (h : made.tdiv 1000000 ≤ (created + 300 * 1000000).tdiv 1000000) :
    made < created + 365 * 86400 * 1000000 := by
  have hmade := Int.lt_tdiv_add_one_mul_self made (by decide : (0 : ℤ) < 1000000)
  have hcreated := Int.tdiv_mul_le (created + 300 * 1000000) (by decide : (1000000 : ℤ) ≠ 0)
  by_cases hpositive : 0 ≤ created + 300 * 1000000
  · rw [if_pos hpositive] at hcreated
    omega
  · rw [if_neg hpositive] at hcreated
    omega

/-- The match is applied, and its credential is in the log. -/
theorem match_credentialed :
    letI := DecimalDigits.ascii
    letI := matchDumps
    letI := CaSigner.repeating
    letI := epochEnv
    letI := enforced
    ∃ s, Relation.ReflTransGen TrustStep { now := 0, log := TrustLog.ensureTtlIndex {} } s ∧
      ∃ write ∈ s.writes, ∃ doc ∈ s.log.docs, Credential doc write := by
  let := DecimalDigits.ascii
  let := matchDumps
  let := CaSigner.repeating
  let := epochEnv
  let := enforced
  obtain ⟨hheader, hreconciler, hmatch⟩ := matchDumps_dumps
  have hsigns := CaSigner.repeating_signs
  let start : TrustState := { now := 0, log := TrustLog.ensureTtlIndex {} }
  have hcard : unsignedCards.find? (·.agentId = "C") = some reconcilerCard := rfl
  have hbytes : cardCanonical reconcilerCard = .ok (asciiBytes reconcilerText) := hreconciler
  have htoken : encodeVc (.object (taskClaims reconcilerCard "C" "tx-1" "reconciliation.apply"
      (.object []) start.now)) = .ok _ := encodeVc_eq_ok.mpr ⟨_, _, hheader, hmatch, rfl⟩
  have hne : signData (asciiBytes reconcilerText) ≠ [] :=
    List.ne_nil_of_length_pos (by rw [length_repeating]; omega)
  have hsoon : timestamp (start.now + (0 : ℕ)) ≤ timestamp (start.now + seconds taskVcTtlSeconds) :=
    by decide
  have hpasses : (requireTaskVc start "C" "tx-1" "reconciliation.apply" (.object []) false 0).1 =
      .ok () := requireTaskVc_passes hsigns rfl hcard hbytes hne htoken hsoon
  have hnames : ∀ index ∈ ([] : List TtlIndex),
      index.name = auditIndex.name ∨ index.name = taskIndex.name := by simp
  have hrun : Relation.ReflTransGen TrustStep start
      (gatedWrite start "C" "tx-1" "reconciliation.apply" (.object []) false 0) :=
    .single (.write start _ _ _ _ _ _)
  obtain ⟨write, hwrite, hmade⟩ := gatedWrite_made hpasses
  obtain ⟨doc, -, hcredential, hkept⟩ :=
    (gated_writes_credentialed hsigns hnames hrun).2 rfl write hwrite
  refine ⟨_, hrun, write, hwrite, doc, hkept ?_, hcredential⟩
  have hfresh := hcredential.fresh
  rw [hmade] at hfresh
  exact lt_of_fresh hfresh

end Finguard.Trust
