import Finguard.HttpCaller
import Finguard.Lib.Base64

/-! The external sources of the integrator, each with a status that says where its values come
from. -/

namespace Finguard.Integrator
open Http Text

abbrev live : String := "live"
abbrev manual : String := "manual"
abbrev mock : String := "mock"
abbrev unavailable : String := "unavailable"

def mpesaAuthUrl : String := "https://sandbox.safaricom.co.ke/oauth/v1/generate"
def mpesaBalanceUrl : String := "https://sandbox.safaricom.co.ke/mpesa/accountbalance/v1/query"
def metropolScoreUrl : String := "https://api.metropol.co.ke/v2/report/credit_score"
def kraStatusUrl : String := "https://itax.kra.go.ke/KRA-Portal/api/vat/status"

structure IntegratorSettings where
  environment : String
  fxApiUrl : String
  mpesaConsumerKey : String
  mpesaConsumerSecret : String
  mpesaShortcode : String
  metropolApiKey : String
  kraEcitizenApiKey : String

def IntegratorSettings.isProd (s : IntegratorSettings) : Bool := s.environment == "production"

/-- What Python's numbers and texts make of a value that a provider sent. -/
class FeedValues where
  str : Json → String
  int : Json → Except String Json
  usdKes : Json → Except String Json
  crossKes : Json → Json → Except String Json
  converted : ℚ → ℚ → ℚ
  total : List ℚ → Json

/-- A row of the feed's query, newest first. -/
structure LedgerRow where
  transId : String
  amount : ℚ
  phone : Option String
  billRef : Option String
  createdAt : Option String

abbrev get (fields : Json.Fields) (key : String) : Json := fields.get key

def optionalText (s : Option String) : Json := (s.map Json.text).getD .null

def dataFields : Data → Option Json.Fields
  | .json (.object fields) => some fields
  | .error message => some [("error", .text message)]
  | .json _ | .text _ => none

def dataJson : Data → Json
  | .json value => value
  | .text s => .text s
  | .error message => .object [("error", .text message)]

/-- A good answer whose data is a dictionary. -/
def okFields (result : HttpResult) : Option Json.Fields :=
  if result.statusCode = 200 then dataFields result.data else none

/-- `{**left, **right}` -/
def spread (left right : Json.Fields) : Json.Fields :=
  right.foldl (fun d p => Dict.set d p.1 p.2) left

def getOr (fields : Json.Fields) (key : String) (default : Json) : Json :=
  (fields.lookup key).getD default

def mpesaDegraded (s : IntegratorSettings) : Json.Fields :=
  if s.isProd then
    [("status", .text unavailable), ("source", .text "mpesa"),
      ("reason", .text "M-Pesa not configured")]
  else
    [("status", .text mock), ("source", .text "mpesa"), ("balance_kes", .number 125000),
      ("recent_transactions", .array [
        .object [("type", .text "credit"), ("amount", .number 45000), ("ref", .text "NLJ7RT61SV")],
        .object [("type", .text "debit"), ("amount", .number 12500), ("ref", .text "PLK8RT71AS")]])]

def credentials (s : IntegratorSettings) : String :=
  String.ofList (Base64.encode
    (s.mpesaConsumerKey ++ ":" ++ s.mpesaConsumerSecret).toUTF8.toList)

def fxDegraded (s : IntegratorSettings) : Json.Fields :=
  if s.isProd then
    [("status", .text unavailable), ("source", .text "fx"),
      ("reason", .text "FX provider unreachable")]
  else
    [("status", .text mock), ("source", .text "fx"), ("USD_KES", .number 129.5),
      ("EUR_KES", .number 140.2), ("GBP_KES", .number 164.8)]

def fetchMpesaLedger [FeedValues] (rows : Option (List LedgerRow)) : Option Json.Fields :=
  match rows with
  | none | some [] => none
  | some rows => some [
      ("status", .text live), ("source", .text "mpesa"), ("feed", .text "callback"),
      ("recent_transactions", .array (rows.map fun r => .object [
        ("trans_id", .text r.transId), ("amount_kes", .number r.amount),
        ("phone", optionalText r.phone), ("bill_ref", optionalText r.billRef),
        ("timestamp", optionalText r.createdAt)])),
      ("recent_credit_kes", FeedValues.total (rows.map (·.amount))),
      ("transaction_count", .number rows.length)]

def crossRate [FeedValues] (kes : Json) (rates out : Json.Fields) (sym key : String) :
    Except String Json.Fields :=
  let rate := get rates sym
  if rate.truthy then (FeedValues.crossKes kes rate).map fun value => out ++ [(key, value)]
  else .ok out

/-- The rates of a good answer, or `none` where it has no rate for the shilling. -/
def readRates [FeedValues] (data : Json.Fields) : Except String (Option Json.Fields) :=
  let rates := if (get data "rates").truthy then get data "rates" else .object []
  match rates with
  | .object rates =>
    let kes := get rates "KES"
    if kes.truthy then do
      let usd ← FeedValues.usdKes kes
      let out ← crossRate kes rates
        [("status", .text live), ("source", .text "fx"), ("USD_KES", usd)] "EUR" "EUR_KES"
      let out ← crossRate kes rates out "GBP" "GBP_KES"
      return some out
    else .ok none
  | _ => .error "no attribute 'get'"

def readBalance (s : IntegratorSettings) (result : HttpResult) : Json.Fields :=
  if result.statusCode = 200 then
    [("status", .text live), ("source", .text "mpesa"), ("raw", dataJson result.data)]
  else mpesaDegraded s

def readFx [FeedValues] (s : IntegratorSettings) (result : HttpResult) :
    Except String Json.Fields :=
  match okFields result with
  | none => .ok (fxDegraded s)
  | some data => (readRates data).map (·.getD (fxDegraded s))

def readScore [FeedValues] (result : HttpResult) : Except String Json.Fields :=
  match okFields result with
  | some data =>
    (FeedValues.int (getOr data "score" (.number 0))).map fun score =>
      [("status", .text live), ("source", .text "metropol"), ("score", score),
        ("grade", getOr data "grade" (.text "N/A")),
        ("delinquencies", getOr data "delinquencies" (.number 0))]
  | none =>
    .ok [("status", .text unavailable), ("source", .text "metropol"),
      ("reason", .text "Metropol API unreachable")]

def readKra (pinNumber : String) (result : HttpResult) : Json.Fields :=
  match okFields result with
  | some data =>
    [("status", .text live), ("source", .text "kra"), ("pin", .text pinNumber),
      ("vat_registered", getOr data "vat_registered" (.bool false)),
      ("last_return_filed", get data "last_return_filed"),
      ("compliance_status", getOr data "compliance_status" (.text "UNKNOWN"))]
  | none =>
    [("status", .text unavailable), ("source", .text "kra"),
      ("reason", .text "KRA API unreachable")]

/-! The requests. -/

def tokenArgs (s : IntegratorSettings) : HttpArgs where
  method := "GET"
  url := mpesaAuthUrl
  headers := some [("Authorization", "Basic " ++ credentials s)]
  params := some [("grant_type", "client_credentials")]

def balanceArgs [FeedValues] (s : IntegratorSettings) (token : Json) : HttpArgs where
  method := "POST"
  url := mpesaBalanceUrl
  headers := some [("Authorization", "Bearer " ++ FeedValues.str token)]
  body := some (.object [
    ("Initiator", .text "testapi"), ("SecurityCredential", .text ""),
    ("CommandID", .text "AccountBalance"),
    ("PartyA", .text (if s.mpesaShortcode = "" then "174379" else s.mpesaShortcode)),
    ("IdentifierType", .text "4"), ("Remarks", .text "Finguard balance check"),
    ("QueueTimeOutURL", .text ""), ("ResultURL", .text "")])

def fxArgs (s : IntegratorSettings) : HttpArgs where
  method := "GET"
  url := s.fxApiUrl

def scoreArgs (s : IntegratorSettings) (customerId : String) : HttpArgs where
  method := "POST"
  url := metropolScoreUrl
  headers := some [("Authorization", "Bearer " ++ s.metropolApiKey)]
  body := some (.object [("customer_id", .text customerId)])

def kraArgs (s : IntegratorSettings) (pinNumber : String) : HttpArgs where
  method := "GET"
  url := kraStatusUrl
  headers := some [("X-API-Key", s.kraEcitizenApiKey)]
  params := some [("pin", pinNumber)]

def fxHost [NetText] (s : IntegratorSettings) : String :=
  match NetText.urlparse s.fxApiUrl with
  | .ok parsed => parsed.hostname.getD ""
  | .error _ => ""

def caller [NetText] [Unicode] [Internet] (s : IntegratorSettings) (args : HttpArgs)
    (log : List Event) : HttpResult × List Event :=
  httpCall (fxHost s) "I" args log

def getMpesaToken [NetText] [Unicode] [Internet] (s : IntegratorSettings) (log : List Event) :
    Json × List Event :=
  if s.mpesaConsumerKey = "" ∨ s.mpesaConsumerSecret = "" then (.null, log)
  else
    let (result, log) := caller s (tokenArgs s) log
    match okFields result with
    | some fields => (get fields "access_token", log)
    | none => (.null, log)

section
variable [NetText] [Unicode] [Internet] [FeedValues] (s : IntegratorSettings)

def fetchMpesaData (rows : Option (List LedgerRow)) (log : List Event) :
    Json.Fields × List Event :=
  match fetchMpesaLedger rows with
  | some ledger => (ledger, log)
  | none =>
    let (token, log) := getMpesaToken s log
    if token.truthy = false then (mpesaDegraded s, log)
    else
      let (result, log) := caller s (balanceArgs s token) log
      (readBalance s result, log)

def fetchFx (log : List Event) : Except String Json.Fields × List Event :=
  if s.fxApiUrl = "" then (.ok (fxDegraded s), log)
  else
    let (result, log) := caller s (fxArgs s) log
    (readFx s result, log)

/-! The credit bureau and the tax authority: entered by hand, or answered, or unavailable. -/

def fetchMetropolScore (customerId : String) (entered : Json) (log : List Event) :
    Except String Json.Fields × List Event :=
  if entered.truthy then
    match entered with
    | .object fields =>
      (.ok (spread [("status", .text manual), ("source", .text "metropol")] fields), log)
    | _ => (.error "argument after ** must be a mapping", log)
  else if s.metropolApiKey = "" ∨ customerId = "" then
    (.ok [("status", .text unavailable), ("source", .text "metropol"),
      ("reason", .text
        "Metropol not connected — supply context['manual_credit_score'] to override")], log)
  else
    let (result, log) := caller s (scoreArgs s customerId) log
    (readScore result, log)

def fetchKraStatus (pinNumber : String) (entered : Json) (log : List Event) :
    Except String Json.Fields × List Event :=
  if entered.truthy then
    match entered with
    | .object fields =>
      let pin := if pinNumber = "" then get fields "pin" else .text pinNumber
      (.ok (spread [("status", .text manual), ("source", .text "kra"), ("pin", pin)] fields), log)
    | _ => (.error "no attribute 'get'", log)
  else if s.kraEcitizenApiKey = "" ∨ pinNumber = "" then
    (.ok [("status", .text unavailable), ("source", .text "kra"),
      ("reason", .text
        "KRA not connected — supply context['manual_kra_status'] to override")], log)
  else
    let (result, log) := caller s (kraArgs s pinNumber) log
    (.ok (readKra pinNumber result), log)

end

structure ExternalData where
  fxRates : Json.Fields
  mpesa : Json.Fields
  creditBureau : Json.Fields
  kraStatus : Json.Fields
  simulated : Bool
  dataSource : String

def ExternalData.sources (data : ExternalData) : List (String × Json.Fields) :=
  [("fx_rates", data.fxRates), ("mpesa", data.mpesa), ("credit_bureau", data.creditBureau),
    ("kra_status", data.kraStatus)]

def hasStatus (status : String) (source : Json.Fields) : Bool :=
  match source.lookup "status" with
  | some (.text s) => s == status
  | _ => false

/-- The status of each source. -/
def ExternalData.sourcesStatus (data : ExternalData) : Json.Fields :=
  data.sources.map fun (name, source) => (name, get source "status")

/-- The amount itself, where it is in shillings or there is no rate. -/
def normaliseToKes [Unicode] [FeedValues] (amount : ℚ) (currency : String) (fx : Json.Fields) : ℚ :=
  match fx.lookup (Unicode.upper currency ++ "_KES") with
  | some (.number rate) =>
    if Unicode.upper currency = "KES" then amount else FeedValues.converted amount rate
  | _ => amount

def normalisedBalance [Unicode] [FeedValues] (mpesa fx : Json.Fields) : Json.Fields :=
  match mpesa.lookup "balance_kes" with
  | some (.number balance) =>
    Dict.set mpesa "balance_kes" (.number (normaliseToKes balance "KES" fx))
  | _ => mpesa

def summarise (fxRates mpesa creditBureau kraStatus : Json.Fields) : ExternalData :=
  let sources := [fxRates, mpesa, creditBureau, kraStatus]
  let simulated := sources.any (hasStatus mock)
  let degraded := sources.any fun source => hasStatus mock source || hasStatus unavailable source
  { fxRates, mpesa, creditBureau, kraStatus, simulated
    dataSource :=
      if degraded = false then "live" else if simulated then "mock_sandbox" else "degraded" }

def fetchError (source : String) : Json.Fields :=
  [("status", .text unavailable), ("source", .text source), ("reason", .text "fetch error")]

/-- A fetch that raises degrades its own source only. -/
def settled (fallback : Json.Fields) : Except String Json.Fields → Json.Fields
  | .ok source => source
  | .error _ => fallback

def fetchExternalData [NetText] [Unicode] [Internet] [FeedValues] (s : IntegratorSettings)
    (rows : Option (List LedgerRow)) (customerId kraPin : String) (manualCredit manualKra : Json)
    (log : List Event) : ExternalData × List Event :=
  let (fx, log) := fetchFx s log
  let fx := settled (fxDegraded s) fx
  let (mpesa, log) := fetchMpesaData s rows log
  let (credit, log) := fetchMetropolScore s customerId manualCredit log
  let credit := settled (fetchError "metropol") credit
  let (kra, log) := fetchKraStatus s kraPin manualKra log
  let kra := settled (fetchError "kra") kra
  (summarise fx (normalisedBalance mpesa fx) credit kra, log)

/-! Where a status comes from. -/

/-- The provider answered a request of this very call with 200. -/
def Answered (url : String) (sent : List Event) : Prop :=
  ∃ dials request response, .exchanged dials request (.ok response) ∈ sent ∧ request.url = url ∧
    response.statusCode = 200

/-- No socket went to an internal address. -/
def Outward (sent : List Event) : Prop :=
  ∀ dials request answer, .exchanged dials request answer ∈ sent →
    ∀ made ∈ dials, ¬ Internal made.address

/-- A source is `live` only on the strength of `real` or of the provider's answer, and simulated
only outside production; an entry made by hand may carry a status of its own. -/
inductive Origin (s : IntegratorSettings) (real : Prop) (url : String) (entered : Json)
    (sent : List Event) : Json → Prop where
  | real (h : real) : Origin s real url entered sent (.text live)
  | answered (h : Answered url sent) : Origin s real url entered sent (.text live)
  | entered (h : entered.truthy = true) : Origin s real url entered sent (.text manual)
  | simulated (h : s.isProd = false) : Origin s real url entered sent (.text mock)
  | unavailable : Origin s real url entered sent (.text unavailable)
  | carried {given : Json.Fields} {status : Json} (h : entered = .object given)
      (hmem : ("status", status) ∈ given) : Origin s real url entered sent status

def Honest (s : IntegratorSettings) (real : Prop) (url : String) (entered : Json)
    (sent : List Event) (source : Json.Fields) : Prop :=
  ∃ status, source.lookup "status" = some status ∧ Origin s real url entered sent status

section
variable {s : IntegratorSettings} {real : Prop} {url : String} {entered : Json}
  {sent more : List Event}

theorem Answered.append (h : Answered url sent) : Answered url (more ++ sent) := by
  obtain ⟨dials, request, response, hmem, hurl, hstatus⟩ := h
  exact ⟨dials, request, response, List.mem_append_right _ hmem, hurl, hstatus⟩

theorem Outward.append (h : Outward sent) (hmore : Outward more) : Outward (sent ++ more) := by
  intro dials request answer hmem
  rcases List.mem_append.mp hmem with hmem | hmem
  · exact h dials request answer hmem
  · exact hmore dials request answer hmem

theorem outward_nil : Outward [] := by simp [Outward]

theorem honest_mpesaDegraded : Honest s real url entered sent (mpesaDegraded s) := by
  by_cases h : s.isProd = true
  · exact ⟨_, by rw [mpesaDegraded, if_pos h]; rfl, .unavailable⟩
  · exact ⟨_, by rw [mpesaDegraded, if_neg h]; rfl, .simulated (by simpa using h)⟩

theorem honest_fxDegraded : Honest s real url entered sent (fxDegraded s) := by
  by_cases h : s.isProd = true
  · exact ⟨_, by rw [fxDegraded, if_pos h]; rfl, .unavailable⟩
  · exact ⟨_, by rw [fxDegraded, if_neg h]; rfl, .simulated (by simpa using h)⟩

/-- A key of the right operand that reads as `value` was given so there. -/
theorem lookup_spread (left right : Json.Fields) (key : String) :
    (spread left right).lookup key = left.lookup key ∨
      ∃ value, (key, value) ∈ right ∧ (spread left right).lookup key = some value := by
  induction right using List.reverseRecOn with
  | nil => exact .inl rfl
  | append_singleton right field ih =>
    have hlast : spread left (right ++ [field]) = Dict.set (spread left right) field.1 field.2 := by
      simp [spread]
    rw [hlast]
    by_cases hkey : key = field.1
    · refine .inr ⟨field.2, ?_, ?_⟩
      · simp [hkey]
      · rw [hkey, Dict.lookup_set_self]
    · rw [Dict.lookup_set_of_ne hkey]
      rcases ih with ih | ⟨value, hmem, ih⟩
      · exact .inl ih
      · exact .inr ⟨value, List.mem_append_left _ hmem, ih⟩

/-- An entry made by hand reads as manual, or as it says itself. -/
theorem honest_spread {left given : Json.Fields}
    (hleft : left.lookup "status" = some (.text manual))
    (hentered : (Json.object given).truthy = true) :
    Honest s real url (.object given) sent (spread left given) := by
  rcases lookup_spread left given "status" with h | ⟨value, hmem, h⟩
  · exact ⟨_, h.trans hleft, .entered hentered⟩
  · exact ⟨value, h, .carried rfl hmem⟩

end

theorem okFields_ok {result : HttpResult} {data : Json.Fields} (h : okFields result = some data) :
    result.statusCode = 200 := by
  by_cases hok : result.statusCode = 200
  · exact hok
  · rw [okFields, if_neg hok] at h
    cases h

section
variable [FeedValues]

theorem crossRate_status {kes : Json} {rates out out' : Json.Fields} {sym key : String}
    (h : crossRate kes rates out sym key = .ok out') {status : Json}
    (hout : out.lookup "status" = some status) : out'.lookup "status" = some status := by
  rw [crossRate] at h
  by_cases hrate : (get rates sym).truthy = true
  · simp only [hrate, if_true] at h
    cases hvalue : FeedValues.crossKes kes (get rates sym) with
    | error message =>
      rw [hvalue] at h
      cases h
    | ok value =>
      rw [hvalue] at h
      cases h
      rw [List.lookup_append, hout]
      rfl
  · simp only [hrate] at h
    cases h
    exact hout

theorem readRates_status {data out : Json.Fields} (h : readRates data = .ok (some out)) :
    out.lookup "status" = some (.text live) := by
  simp only [readRates] at h
  split at h
  · rename_i rates _
    by_cases hkes : (get rates "KES").truthy = true
    · rw [if_pos hkes] at h
      cases husd : FeedValues.usdKes (get rates "KES") with
      | error message => simp [husd, bind, Except.bind] at h
      | ok usd =>
        simp only [husd, bind, Except.bind] at h
        cases heur : crossRate (get rates "KES") rates
            [("status", .text live), ("source", .text "fx"), ("USD_KES", usd)] "EUR" "EUR_KES" with
        | error message => simp [heur] at h
        | ok eur =>
          simp only [heur] at h
          cases hgbp : crossRate (get rates "KES") rates eur "GBP" "GBP_KES" with
          | error message => simp [hgbp] at h
          | ok gbp =>
            obtain rfl : gbp = out := by simpa [hgbp, pure, Except.pure] using h
            exact crossRate_status hgbp (crossRate_status heur rfl)
    · rw [if_neg hkes] at h
      cases h
  · cases h

end

section
variable [NetText] [Unicode] [Internet] (s : IntegratorSettings)

theorem caller_sent (args : HttpArgs) (log : List Event) :
    ∃ sent, (caller s args log).2 = log ++ sent ∧ Outward sent ∧
      ((caller s args log).1.statusCode = 200 → Answered args.url sent) := by
  obtain ⟨sent, hlog, hsent⟩ := httpCall_cases (fxHost s) "I" args log
  refine ⟨sent, hlog, ?_⟩
  rcases hsent with ⟨hzero, hquiet⟩ |
    ⟨host, port, ip, ips, events, answer, rfl, hpublic, -, -, hexchanges, hresult⟩
  · constructor
    · rcases hquiet with rfl | ⟨host, port, given, rfl⟩ <;> simp [Outward]
    · intro hok
      rw [caller, hzero] at hok
      cases hok
  · constructor
    · intro dials request given hmem
      have hmem : .exchanged dials request given ∈ events := by simpa using hmem
      obtain ⟨_, _, hevent, hdials, -⟩ := hexchanges.mem.2 _ hmem
      cases hevent
      intro made hmade
      rw [hdials made hmade]
      exact hpublic ip List.mem_cons_self
    · intro hok
      obtain ⟨errors, passed, final, rfl, -, ⟨dials, rfl, -, hgood⟩, -⟩ := hexchanges
      rw [caller, hresult] at hok
      cases answer with
      | error exc =>
        cases exc with
        | status response =>
          have hstatus : response.statusCode = 200 := hok
          simp [Consistent, hstatus] at hgood
        | net failure => cases hok
        | blocked message => cases hok
      | ok response =>
        refine ⟨dials, args.request, response, by simp, rfl, ?_⟩
        cases hjson : response.json <;> simp [result, hjson] at hok
        · exact hok
        · exact hok

variable [FeedValues]

/-- A fetch from `log`: what it sent, and where the status of its outcome comes from. -/
def Fetches (s : IntegratorSettings) (real : Prop) (url : String) (entered : Json)
    (log : List Event) (out : Except String Json.Fields × List Event) : Prop :=
  ∃ sent, out.2 = log ++ sent ∧ Outward sent ∧
    ∀ source, out.1 = .ok source → Honest s real url entered sent source

variable {s} {real : Prop} {url : String} {entered : Json} {log : List Event}

omit [NetText] [Unicode] [Internet] [FeedValues] in
theorem Fetches.quiet {source : Json.Fields} (h : Honest s real url entered [] source) :
    Fetches s real url entered log (.ok source, log) := by
  refine ⟨[], by simp, outward_nil, ?_⟩
  rintro _ ⟨⟩
  exact h

omit [NetText] [Unicode] [Internet] [FeedValues] in
theorem Fetches.settled {out : Except String Json.Fields × List Event}
    (h : Fetches s real url entered log out) (fallback : Json.Fields)
    (hfallback : ∀ sent, Honest s real url entered sent fallback) :
    ∃ sent, out.2 = log ++ sent ∧ Outward sent ∧
      Honest s real url entered sent (settled fallback out.1) := by
  obtain ⟨sent, hlog, houtward, hhonest⟩ := h
  refine ⟨sent, hlog, houtward, ?_⟩
  cases hout : out.1 with
  | error message => exact hfallback sent
  | ok source => exact hhonest source hout

omit [FeedValues] in
/-- A fetch that makes one request and reads its result. -/
theorem Fetches.call (args : HttpArgs) (read : HttpResult → Except String Json.Fields)
    (hread : ∀ result sent source, (result.statusCode = 200 → Answered args.url sent) →
      read result = .ok source → Honest s real args.url entered sent source) :
    Fetches s real args.url entered log
      (read (caller s args log).1, (caller s args log).2) := by
  obtain ⟨sent, hlog, houtward, hanswered⟩ := caller_sent s args log
  exact ⟨sent, hlog, houtward, fun source => hread _ sent source hanswered⟩

theorem fetchFx_fetches : Fetches s real s.fxApiUrl entered log (fetchFx s log) := by
  by_cases hurl : s.fxApiUrl = ""
  · rw [fetchFx, if_pos hurl]
    exact .quiet honest_fxDegraded
  · rw [fetchFx, if_neg hurl]
    refine .call (fxArgs s) (readFx s) ?_
    intro result sent source hanswered h
    rw [readFx] at h
    cases hfields : okFields result with
    | none =>
      rw [hfields] at h
      cases h
      exact honest_fxDegraded
    | some data =>
      simp only [hfields] at h
      cases hrates : readRates data with
      | error message =>
        rw [hrates] at h
        cases h
      | ok out =>
        rw [hrates] at h
        cases h
        cases out with
        | none => exact honest_fxDegraded
        | some out =>
          exact ⟨_, readRates_status hrates, .answered (hanswered (okFields_ok hfields))⟩

theorem fetchMetropolScore_fetches (customerId : String) :
    Fetches s real metropolScoreUrl entered log
      (fetchMetropolScore s customerId entered log) := by
  unfold fetchMetropolScore
  by_cases hentered : entered.truthy = true
  · rw [if_pos hentered]
    cases entered with
    | object given => exact .quiet (honest_spread rfl hentered)
    | _ => exact ⟨[], by simp, outward_nil, fun source h => by cases h⟩
  · rw [if_neg hentered]
    by_cases hready : s.metropolApiKey = "" ∨ customerId = ""
    · rw [if_pos hready]
      exact .quiet ⟨_, rfl, .unavailable⟩
    · rw [if_neg hready]
      refine .call (scoreArgs s customerId) readScore ?_
      intro result sent source hanswered h
      rw [readScore] at h
      cases hfields : okFields result with
      | none =>
        rw [hfields] at h
        cases h
        exact ⟨_, rfl, .unavailable⟩
      | some data =>
        simp only [hfields] at h
        cases hscore : FeedValues.int (getOr data "score" (.number 0)) with
        | error message =>
          rw [hscore] at h
          cases h
        | ok score =>
          rw [hscore] at h
          cases h
          exact ⟨_, rfl, .answered (hanswered (okFields_ok hfields))⟩

omit [FeedValues] in
theorem fetchKraStatus_fetches (pinNumber : String) :
    Fetches s real kraStatusUrl entered log (fetchKraStatus s pinNumber entered log) := by
  unfold fetchKraStatus
  by_cases hentered : entered.truthy = true
  · rw [if_pos hentered]
    cases entered with
    | object given => exact .quiet (honest_spread rfl hentered)
    | _ => exact ⟨[], by simp, outward_nil, fun source h => by cases h⟩
  · rw [if_neg hentered]
    by_cases hready : s.kraEcitizenApiKey = "" ∨ pinNumber = ""
    · rw [if_pos hready]
      exact .quiet ⟨_, rfl, .unavailable⟩
    · rw [if_neg hready]
      refine .call (kraArgs s pinNumber) (fun result => .ok (readKra pinNumber result)) ?_
      intro result sent source hanswered h
      cases h
      rw [readKra]
      cases hfields : okFields result with
      | none => exact ⟨_, rfl, .unavailable⟩
      | some data => exact ⟨_, rfl, .answered (hanswered (okFields_ok hfields))⟩

omit [FeedValues] in
theorem getMpesaToken_sent (s : IntegratorSettings) (log : List Event) :
    ∃ sent, (getMpesaToken s log).2 = log ++ sent ∧ Outward sent := by
  by_cases hkey : s.mpesaConsumerKey = "" ∨ s.mpesaConsumerSecret = ""
  · exact ⟨[], by simp [getMpesaToken, hkey], outward_nil⟩
  · obtain ⟨sent, hlog, houtward, -⟩ := caller_sent s (tokenArgs s) log
    refine ⟨sent, ?_, houtward⟩
    rw [getMpesaToken, if_neg hkey, ← hlog]
    cases hfields : okFields (caller s (tokenArgs s) log).1 <;> simp [hfields]

theorem fetchMpesaData_fetches (rows : Option (List LedgerRow)) :
    Fetches s (∃ row given, rows = some (row :: given)) mpesaBalanceUrl entered log
      (.ok (fetchMpesaData s rows log).1, (fetchMpesaData s rows log).2) := by
  have hrows : fetchMpesaLedger rows = none ∨ ∃ row given, rows = some (row :: given) := by
    cases rows with
    | none => exact .inl rfl
    | some rows =>
      cases rows with
      | nil => exact .inl rfl
      | cons row given => exact .inr ⟨row, given, rfl⟩
  rcases hrows with hledger | ⟨row, given, rfl⟩
  · obtain ⟨first, hfirst, houtward⟩ := getMpesaToken_sent s log
    rcases htoken : getMpesaToken s log with ⟨token, mid⟩
    rw [htoken] at hfirst
    by_cases hmissing : token.truthy = false
    · refine ⟨first, ?_, houtward, ?_⟩
      · simpa [fetchMpesaData, hledger, htoken, hmissing] using hfirst
      · rintro source h
        obtain rfl : mpesaDegraded s = source := by
          simpa [fetchMpesaData, hledger, htoken, hmissing] using h
        exact honest_mpesaDegraded
    · obtain ⟨second, hsecond, houtward', hanswered⟩ := caller_sent s (balanceArgs s token) mid
      refine ⟨first ++ second, ?_, houtward.append houtward', ?_⟩
      · have hfirst : mid = log ++ first := hfirst
        have hlog : (fetchMpesaData s rows log).2 = mid ++ second := by
          simpa [fetchMpesaData, hledger, htoken, hmissing] using hsecond
        rw [hlog, hfirst, List.append_assoc]
      · rintro source h
        obtain rfl : readBalance s (caller s (balanceArgs s token) mid).1 = source := by
          simpa [fetchMpesaData, hledger, htoken, hmissing] using h
        rw [readBalance]
        by_cases hok : (caller s (balanceArgs s token) mid).1.statusCode = 200
        · rw [if_pos hok]
          exact ⟨_, rfl, .answered (hanswered hok).append⟩
        · rw [if_neg hok]
          exact honest_mpesaDegraded
  · exact .quiet ⟨_, rfl, .real ⟨row, given, rfl⟩⟩

end

/-! The whole enrichment. -/

theorem Origin.mono {s : IntegratorSettings} {real : Prop} {url : String} {entered status : Json}
    {sent all : List Event} (h : Origin s real url entered sent status) (hall : sent ⊆ all) :
    Origin s real url entered all status := by
  cases h with
  | real h => exact .real h
  | answered h =>
    obtain ⟨dials, request, response, hmem, hurl, hstatus⟩ := h
    exact .answered ⟨dials, request, response, hall hmem, hurl, hstatus⟩
  | entered h => exact .entered h
  | simulated h => exact .simulated h
  | unavailable => exact .unavailable
  | carried h hmem => exact .carried h hmem

theorem Honest.mono {s : IntegratorSettings} {real : Prop} {url : String} {entered : Json}
    {sent all : List Event} {source : Json.Fields} (h : Honest s real url entered sent source)
    (hall : sent ⊆ all) : Honest s real url entered all source := by
  obtain ⟨status, hstatus, horigin⟩ := h
  exact ⟨status, hstatus, horigin.mono hall⟩

theorem Honest.normalised [Unicode] [FeedValues] {s : IntegratorSettings} {real : Prop}
    {url : String} {entered : Json} {sent : List Event} {source : Json.Fields}
    (h : Honest s real url entered sent source) (fx : Json.Fields) :
    Honest s real url entered sent (normalisedBalance source fx) := by
  obtain ⟨status, hstatus, horigin⟩ := h
  refine ⟨status, ?_, horigin⟩
  unfold normalisedBalance
  split
  · rwa [Dict.lookup_set_of_ne (by decide)]
  · exact hstatus

/-- An entry made by hand that leaves the status to the integrator. -/
def LeavesStatus (entered : Json) : Prop :=
  ∀ given, entered = .object given → ∀ status, ("status", status) ∉ given

theorem leavesStatus_null : LeavesStatus .null := by
  intro given h
  cases h

section
variable {s : IntegratorSettings} {real : Prop} {url : String} {entered : Json}
  {sent : List Event} {source : Json.Fields}

theorem Honest.not_mock (h : Honest s real url entered sent source) (hprod : s.isProd = true)
    (hleaves : LeavesStatus entered) : hasStatus mock source = false := by
  obtain ⟨status, hstatus, horigin⟩ := h
  cases horigin with
  | carried hgiven hmem => exact absurd hmem (hleaves _ hgiven _)
  | simulated hdev =>
    rw [hprod] at hdev
    cases hdev
  | _ =>
    rw [hasStatus, hstatus]
    rfl

/-- What is neither simulated nor unavailable rests on data or on an entry made by hand. -/
theorem Honest.backed (h : Honest s real url entered sent source) (hleaves : LeavesStatus entered)
    (hmock : hasStatus mock source = false) (hthere : hasStatus unavailable source = false) :
    real ∨ Answered url sent ∨ entered.truthy = true := by
  obtain ⟨status, hstatus, horigin⟩ := h
  cases horigin with
  | real h => exact .inl h
  | answered h => exact .inr (.inl h)
  | entered h => exact .inr (.inr h)
  | simulated h =>
    rw [hasStatus, hstatus] at hmock
    cases hmock
  | unavailable =>
    rw [hasStatus, hstatus] at hthere
    cases hthere
  | carried hgiven hmem => exact absurd hmem (hleaves _ hgiven _)

end

theorem summarise_live {fx mpesa credit kra : Json.Fields}
    (h : (summarise fx mpesa credit kra).dataSource = "live") :
    (hasStatus mock fx = false ∧ hasStatus unavailable fx = false) ∧
      (hasStatus mock mpesa = false ∧ hasStatus unavailable mpesa = false) ∧
      (hasStatus mock credit = false ∧ hasStatus unavailable credit = false) ∧
      hasStatus mock kra = false ∧ hasStatus unavailable kra = false := by
  have hgood : [fx, mpesa, credit, kra].any
      (fun source => hasStatus mock source || hasStatus unavailable source) = false := by
    rw [← Bool.not_eq_true]
    intro hbad
    simp only [summarise, hbad] at h
    revert h
    cases [fx, mpesa, credit, kra].any (hasStatus mock) <;> decide
  simpa [and_assoc] using hgood

section
variable [NetText] [Unicode] [Internet] [FeedValues] (s : IntegratorSettings)
  (rows : Option (List LedgerRow)) (customerId kraPin : String) (manualCredit manualKra : Json)

theorem fetchExternalData_sources (log : List Event) :
    ∃ sent fx mpesa credit kra,
      fetchExternalData s rows customerId kraPin manualCredit manualKra log =
        (summarise fx mpesa credit kra, log ++ sent) ∧ Outward sent ∧
      Honest s False s.fxApiUrl .null sent fx ∧
      Honest s (∃ row given, rows = some (row :: given)) mpesaBalanceUrl .null sent mpesa ∧
      Honest s False metropolScoreUrl manualCredit sent credit ∧
      Honest s False kraStatusUrl manualKra sent kra := by
  have hfx : Fetches s False s.fxApiUrl .null log (fetchFx s log) := fetchFx_fetches
  obtain ⟨sent₁, hlog₁, hout₁, hfx⟩ := hfx.settled (fxDegraded s) fun _ => honest_fxDegraded
  rcases h₁ : fetchFx s log with ⟨fx, log₁⟩
  rw [h₁] at hlog₁ hfx
  have hmpesa : Fetches s (∃ row given, rows = some (row :: given)) mpesaBalanceUrl .null log₁ _ :=
    fetchMpesaData_fetches rows
  obtain ⟨sent₂, hlog₂, hout₂, hmpesa⟩ := hmpesa
  rcases h₂ : fetchMpesaData s rows log₁ with ⟨mpesa, log₂⟩
  rw [h₂] at hlog₂ hmpesa
  have hcredit : Fetches s False metropolScoreUrl manualCredit log₂ _ :=
    fetchMetropolScore_fetches customerId
  obtain ⟨sent₃, hlog₃, hout₃, hcredit⟩ :=
    hcredit.settled (fetchError "metropol") fun _ => ⟨_, rfl, .unavailable⟩
  rcases h₃ : fetchMetropolScore s customerId manualCredit log₂ with ⟨credit, log₃⟩
  rw [h₃] at hlog₃ hcredit
  have hkra : Fetches s False kraStatusUrl manualKra log₃ _ := fetchKraStatus_fetches kraPin
  obtain ⟨sent₄, hlog₄, hout₄, hkra⟩ :=
    hkra.settled (fetchError "kra") fun _ => ⟨_, rfl, .unavailable⟩
  rcases h₄ : fetchKraStatus s kraPin manualKra log₃ with ⟨kra, log₄⟩
  rw [h₄] at hlog₄ hkra
  refine ⟨sent₁ ++ sent₂ ++ sent₃ ++ sent₄, settled (fxDegraded s) fx,
    normalisedBalance mpesa (settled (fxDegraded s) fx), settled (fetchError "metropol") credit,
    settled (fetchError "kra") kra, ?_, ((hout₁.append hout₂).append hout₃).append hout₄,
    hfx.mono ?_, ((hmpesa mpesa rfl).mono ?_).normalised _, hcredit.mono ?_, hkra.mono ?_⟩
  · have hlog₁ : log₁ = log ++ sent₁ := hlog₁
    have hlog₂ : log₂ = log₁ ++ sent₂ := hlog₂
    have hlog₃ : log₃ = log₂ ++ sent₃ := hlog₃
    have hlog₄ : log₄ = log₃ ++ sent₄ := hlog₄
    have hout : fetchExternalData s rows customerId kraPin manualCredit manualKra log =
        (summarise (settled (fxDegraded s) fx)
          (normalisedBalance mpesa (settled (fxDegraded s) fx))
          (settled (fetchError "metropol") credit) (settled (fetchError "kra") kra), log₄) := by
      simp [fetchExternalData, h₁, h₂, h₃, h₄]
    rw [hout, hlog₄, hlog₃, hlog₂, hlog₁]
    simp
  all_goals
    intro event hmem
    simp [hmem]

/-- With anything on the network and any entries made by hand: no socket of the enrichment goes to
an internal address, every status comes from where it says, and unless an entry brings a status of
its own, production never simulates and data declared live rests on an answer of the provider in
this call, on the ledger, or on such an entry, source by source. -/
theorem external_data_honest (log : List Event) :
    ∃ sent data, fetchExternalData s rows customerId kraPin manualCredit manualKra log =
        (data, log ++ sent) ∧ Outward sent ∧
      Honest s False s.fxApiUrl .null sent data.fxRates ∧
      Honest s (∃ row given, rows = some (row :: given)) mpesaBalanceUrl .null sent data.mpesa ∧
      Honest s False metropolScoreUrl manualCredit sent data.creditBureau ∧
      Honest s False kraStatusUrl manualKra sent data.kraStatus ∧
      (LeavesStatus manualCredit → LeavesStatus manualKra →
        (s.isProd = true → data.simulated = false) ∧
        (data.dataSource = "live" → Answered s.fxApiUrl sent ∧
          ((∃ row given, rows = some (row :: given)) ∨ Answered mpesaBalanceUrl sent) ∧
          (Answered metropolScoreUrl sent ∨ manualCredit.truthy = true) ∧
          (Answered kraStatusUrl sent ∨ manualKra.truthy = true))) := by
  obtain ⟨sent, fx, mpesa, credit, kra, hout, houtward, hfx, hmpesa, hcredit, hkra⟩ :=
    fetchExternalData_sources s rows customerId kraPin manualCredit manualKra log
  refine ⟨sent, _, hout, houtward, hfx, hmpesa, hcredit, hkra, ?_⟩
  intro hleft hright
  constructor
  · intro hprod
    simp [summarise, hfx.not_mock hprod leavesStatus_null, hmpesa.not_mock hprod leavesStatus_null,
      hcredit.not_mock hprod hleft, hkra.not_mock hprod hright]
  · intro hlive
    obtain ⟨⟨hfx₁, hfx₂⟩, ⟨hmpesa₁, hmpesa₂⟩, ⟨hcredit₁, hcredit₂⟩, hkra₁, hkra₂⟩ :=
      summarise_live hlive
    have hnone : ¬ Json.null.truthy = true := by simp [Json.truthy]
    refine ⟨?_, ?_, ?_, ?_⟩
    · simpa [hnone] using hfx.backed leavesStatus_null hfx₁ hfx₂
    · simpa [hnone] using hmpesa.backed leavesStatus_null hmpesa₁ hmpesa₂
    · exact (hcredit.backed hleft hcredit₁ hcredit₂).resolve_left id
    · exact (hkra.backed hright hkra₁ hkra₂).resolve_left id

end

end Finguard.Integrator
