import Finguard.Lib.Attempts
import Finguard.Lib.Fragments
import Finguard.Lib.Runs
import Finguard.Lib.Text

/-! Calls of a language model: the attempts at one provider, the backup provider, and what is
counted on the way. -/

namespace Finguard.Llm
open Text Attempts Runs

inductive LlmError where
  | apiTimeout
  | apiConnection
  | apiStatus (statusCode : ℤ) (message : String)
  | api (message : String)
  | timeout
  | validation
  | other (message : String)
deriving DecidableEq

/-- An `openai.APIError`, which the provider's time limit and an unreadable reply are not. -/
def LlmError.isSdkApiError : LlmError → Bool
  | .apiTimeout | .apiConnection | .apiStatus .. | .api _ => true
  | .timeout | .validation | .other _ => false

def retryableHttpCodes : List ℤ := [429, 500, 502, 504]

def isScalingUp [Unicode] : LlmError → Bool
  | .apiStatus statusCode message =>
    statusCode == 503 &&
      (isIn "DEPLOYMENT_SCALING_UP" message || isIn "scaling up" (Unicode.lower message))
  | _ => false

def isRetryableError [Unicode] (exc : LlmError) : Bool :=
  match exc with
  | .apiTimeout | .apiConnection => true
  | .apiStatus statusCode _ =>
    if statusCode = 503 then !isScalingUp exc else retryableHttpCodes.contains statusCode
  | _ => false

theorem isSdkApiError_of_retryable [Unicode] {exc : LlmError} (h : isRetryableError exc = true) :
    exc.isSdkApiError = true := by
  cases exc <;> simp_all [isRetryableError, LlmError.isSdkApiError]

/-! What a provider sends back. -/

structure Usage where
  promptTokens : Option ℕ
  completionTokens : Option ℕ
deriving DecidableEq

structure Completion where
  choices : List (Option String)
  usage : Option Usage
deriving DecidableEq

structure LLMResponse where
  text : Option String
  promptTokenCount : ℕ
  candidatesTokenCount : ℕ
deriving DecidableEq

def ticks : List Char := ['`', '`', '`']

/-- The rest of the text after its first line, or after the ticks where there is one line only. -/
def afterFence (t : List Char) : List Char :=
  if ticks <+: t then
    if '\n' ∈ t then (t.dropWhile (· ≠ '\n')).tail else t.drop 3
  else t

def beforeFence (t : List Char) : List Char := if ticks <:+ t then t.rdrop 3 else t

def stripJsonFences (text : String) : String :=
  if text = "" then text
  else strip (String.ofList (beforeFence (afterFence (strip text).toList)))

/-- `resp.choices[0]` raises where there is no choice. -/
def adapt (stripFences : Bool) (resp : Completion) : Option LLMResponse := do
  let content ← resp.choices.head?
  let usage := resp.usage.getD ⟨none, none⟩
  return {
    text := if stripFences then content.map stripJsonFences else content
    promptTokenCount := usage.promptTokens.getD 0
    candidatesTokenCount := usage.completionTokens.getD 0 }

structure ProviderSpec where
  name : String
  model : String
  embeddingModel : Option String
deriving DecidableEq

/-- One call of the vendor's client with its answer. What the client repeats itself is inside. -/
inductive Wire where
  | chat (agent provider model : String) (reply : Except LlmError Completion)
  | embedding (agent provider model : String) (reply : Except LlmError (List ℚ))

/-- The providers answer as they like, whatever was asked before. -/
class Providers where
  complete : List Wire → String → String → Except LlmError Completion
  embed : List Wire → String → String → Except LlmError (List ℚ)

inductive TokenKind where
  | prompt
  | completion
deriving DecidableEq

structure LlmState where
  history : List Wire
  calls : String × String → ℕ
  tokens : String × String → TokenKind → ℕ
  timeouts : ℕ
  failovers : String × Bool → ℕ

def LlmState.sent (s : LlmState) (wire : Wire) : LlmState :=
  { s with history := s.history ++ [wire] }

def observeLlmCall (agentId model : String) (response : LLMResponse) (s : LlmState) : LlmState :=
  let key := (agentId, model)
  let counts := fun
    | .prompt => s.tokens key .prompt + response.promptTokenCount
    | .completion => s.tokens key .completion + response.candidatesTokenCount
  { s with
    calls := Function.update s.calls key (s.calls key + 1)
    tokens := Function.update s.tokens key counts }

/-! One provider. -/

/-- What the capabilities do differently: `parse` is `none` where the reply does not validate. -/
structure GenerateCall (α : Type) where
  capability : String
  model : Option String
  stripFences : Bool
  parse : LLMResponse → Option α

def LLMResponse.content (response : LLMResponse) : String := response.text.getD ""

variable {α : Type}

def generateStructured (modelValidateJson : String → Option α) : GenerateCall α where
  capability := "structured"
  model := none
  stripFences := true
  parse response := modelValidateJson response.content

def generateText : GenerateCall String where
  capability := "text"
  model := none
  stripFences := false
  parse response := some response.content

def generateVisionStructured (model : Option String) (modelValidateJson : String → Option α) :
    GenerateCall α where
  capability := "vision"
  model := model
  stripFences := true
  parse response := modelValidateJson response.content

def generateVisionText (model : Option String) : GenerateCall String where
  capability := "vision-text"
  model := model
  stripFences := false
  parse response := some response.content

structure ChatCompletion where
  content : String
  inputTokens : ℕ
  outputTokens : ℕ

def generateChat : GenerateCall ChatCompletion where
  capability := "chat"
  model := none
  stripFences := false
  parse response :=
    some ⟨response.content, response.promptTokenCount, response.candidatesTokenCount⟩

/-- `model or self.spec.model` -/
def GenerateCall.modelFor (call : GenerateCall α) (spec : ProviderSpec) : String :=
  match call.model with
  | none => spec.model
  | some model => if model = "" then spec.model else model

/-- The reply is counted before it is validated. -/
def receive (agent model : String) (call : GenerateCall α) (reply : Except LlmError Completion)
    (s : LlmState) : Except LlmError α × LlmState :=
  match reply with
  | .error exc => (.error exc, s)
  | .ok completion =>
    match adapt call.stripFences completion with
    | none => (.error (.other "list index out of range"), s)
    | some response =>
      let s := observeLlmCall agent model response s
      match call.parse response with
      | none => (.error .validation, s)
      | some value => (.ok value, s)

def generateOnce [Providers] (spec : ProviderSpec) (agent : String) (call : GenerateCall α)
    (s : LlmState) : Except LlmError α × LlmState :=
  let model := call.modelFor spec
  let reply := Providers.complete s.history spec.name model
  receive agent model call reply (s.sent (.chat agent spec.name model reply))

def embedOnce [Providers] (spec : ProviderSpec) (agent : String) (s : LlmState) :
    Except LlmError (List ℚ) × LlmState :=
  match spec.embeddingModel with
  | none => (.error (.other "provider offers no embeddings"), s)
  | some model =>
    let reply := Providers.embed s.history spec.name model
    (reply, s.sent (.embedding agent spec.name model reply))

inductive CallError where
  | llmUnavailable
  | raised (exc : LlmError)
deriving DecidableEq

def LlmError.isOutage (exc : LlmError) : Bool := exc = .timeout || exc.isSdkApiError

def LlmError.guarded (exc : LlmError) : CallError :=
  if exc.isOutage then .llmUnavailable else .raised exc

def guard (outcome : Outcome LlmError α) (s : LlmState) : Except CallError α × LlmState :=
  match outcome with
  | .ok value => (.ok value, s)
  | .exhausted _ => (.error .llmUnavailable, s)
  | .raised exc =>
    (.error exc.guarded, if exc = .timeout then { s with timeouts := s.timeouts + 1 } else s)

/-- `stop_after_attempt(4)`: three attempts after the first. -/
def moreAttempts : ℕ := 3

def retrying [Unicode] (once : LlmState → Except LlmError α × LlmState) (s : LlmState) :
    Except CallError α × LlmState :=
  let (outcome, s) := Attempts.run isRetryableError once moreAttempts s
  guard outcome s

/-! The primary and its backup. -/

structure FailoverLLMClient where
  primary : ProviderSpec
  backup : Option ProviderSpec
  embeddingClient : ProviderSpec

def countFailover (capability : String) (served : Bool) (s : LlmState) : LlmState :=
  let key := (capability, served)
  { s with failovers := Function.update s.failovers key (s.failovers key + 1) }

def FailoverLLMClient.withFailover (client : FailoverLLMClient) (capability : String)
    (call : ProviderSpec → LlmState → Except CallError α × LlmState) (s : LlmState) :
    Except CallError α × LlmState :=
  match call client.primary s with
  | (.error .llmUnavailable, s) =>
    match client.backup with
    | none => (.error .llmUnavailable, s)
    | some backup =>
      match call backup s with
      | (.error .llmUnavailable, s) => (.error .llmUnavailable, countFailover capability false s)
      | (.error (.raised exc), s) => (.error (.raised exc), s)
      | (.ok value, s) => (.ok value, countFailover capability true s)
  | served => served

def FailoverLLMClient.generate [Unicode] [Providers] (client : FailoverLLMClient) (agent : String)
    (call : GenerateCall α) (s : LlmState) : Except CallError α × LlmState :=
  client.withFailover call.capability (fun spec => retrying (generateOnce spec agent call)) s

def FailoverLLMClient.embed [Unicode] [Providers] (client : FailoverLLMClient) (agent : String)
    (s : LlmState) : Except CallError (List ℚ) × LlmState :=
  retrying (embedOnce client.embeddingClient agent) s

/-- The primary's answer stands, or the backup's does. -/
theorem withFailover_cases (client : FailoverLLMClient) (capability : String)
    (call : ProviderSpec → LlmState → Except CallError α × LlmState) (s : LlmState) :
    (((call client.primary s).1 ≠ .error .llmUnavailable ∨ client.backup = none) ∧
        client.withFailover capability call s = call client.primary s) ∨
      (call client.primary s).1 = .error .llmUnavailable ∧ ∃ backup ∈ client.backup,
        (client.withFailover capability call s).1 = (call backup (call client.primary s).2).1 ∧
        ((client.withFailover capability call s).2 = (call backup (call client.primary s).2).2 ∨
          ∃ served, (client.withFailover capability call s).2 =
            countFailover capability served (call backup (call client.primary s).2).2) := by
  rcases hfirst : call client.primary s with ⟨first, mid⟩
  by_cases hdown : first = .error .llmUnavailable ∧ client.backup ≠ none
  · obtain ⟨rfl, hbackup⟩ := hdown
    obtain ⟨backup, hbackup⟩ := Option.ne_none_iff_exists'.mp hbackup
    refine .inr ⟨rfl, backup, hbackup, ?_⟩
    rcases hsecond : call backup mid with ⟨second, last⟩
    cases second with
    | ok value =>
      simp only [FailoverLLMClient.withFailover, hfirst, hbackup, hsecond]
      exact ⟨trivial, .inr ⟨true, rfl⟩⟩
    | error exc =>
      cases exc with
      | raised exc =>
        simp only [FailoverLLMClient.withFailover, hfirst, hbackup, hsecond]
        exact ⟨trivial, .inl trivial⟩
      | llmUnavailable =>
        simp only [FailoverLLMClient.withFailover, hfirst, hbackup, hsecond]
        exact ⟨trivial, .inr ⟨false, rfl⟩⟩
  · have hstands : first ≠ .error .llmUnavailable ∨ client.backup = none := by
      by_cases hfirst' : first = .error .llmUnavailable
      · exact .inr (by simpa [hfirst'] using hdown)
      · exact .inl hfirst'
    refine .inl ⟨hstands, ?_⟩
    cases first with
    | ok value => simp only [FailoverLLMClient.withFailover, hfirst]
    | error exc =>
      cases exc with
      | raised exc => simp only [FailoverLLMClient.withFailover, hfirst]
      | llmUnavailable =>
        have hnone : client.backup = none := by simpa using hstands
        simp only [FailoverLLMClient.withFailover, hfirst, hnone]

/-! What one logical call sends out. -/

/-- What one answer gives to the attempt that asked for it. -/
def GenerateCall.read (call : GenerateCall α) :
    Except LlmError Completion → Except LlmError α
  | .error exc => .error exc
  | .ok completion =>
    match adapt call.stripFences completion with
    | none => .error (.other "list index out of range")
    | some response =>
      match call.parse response with
      | none => .error .validation
      | some value => .ok value

def GenerateCall.settle (call : GenerateCall α) (reply : Except LlmError Completion) :
    Except CallError α :=
  (call.read reply).mapError LlmError.guarded

/-- The attempts at one provider: errors that may pass, and then the answer that counts. -/
def Served [Unicode] (spec : ProviderSpec) (agent : String) (call : GenerateCall α)
    (wires : List Wire) (result : Except CallError α) : Prop :=
  ∃ (passed : List LlmError) (reply : Except LlmError Completion),
    wires = (passed.map Except.error ++ [reply]).map (.chat agent spec.name (call.modelFor spec)) ∧
    passed.length ≤ moreAttempts ∧ (∀ exc ∈ passed, isRetryableError exc = true) ∧
    (∀ exc, reply = .error exc → isRetryableError exc = true → passed.length = moreAttempts) ∧
    result = call.settle reply

section
variable {spec : ProviderSpec} {agent : String} {call : GenerateCall α}

theorem receive_read (agent model : String) (call : GenerateCall α)
    (reply : Except LlmError Completion) (s : LlmState) :
    (receive agent model call reply s).1 = call.read reply ∧
      (receive agent model call reply s).2.history = s.history := by
  cases reply with
  | error exc => exact ⟨rfl, rfl⟩
  | ok completion =>
    cases hadapt : adapt call.stripFences completion with
    | none => simp [receive, GenerateCall.read, hadapt]
    | some response =>
      cases hparse : call.parse response <;>
        simp [receive, GenerateCall.read, hadapt, hparse, observeLlmCall]

theorem generateOnce_logged [Providers] (spec : ProviderSpec) (agent : String)
    (call : GenerateCall α) (s : LlmState) : ∃ wire,
    (generateOnce spec agent call s).2.history = s.history ++ [wire] ∧
    ∃ reply, wire = .chat agent spec.name (call.modelFor spec) reply ∧
      (generateOnce spec agent call s).1 = call.read reply := by
  obtain ⟨hread, hhistory⟩ := receive_read agent (call.modelFor spec) call
    (Providers.complete s.history spec.name (call.modelFor spec))
    (s.sent (.chat agent spec.name (call.modelFor spec)
      (Providers.complete s.history spec.name (call.modelFor spec))))
  exact ⟨_, hhistory, _, rfl, hread⟩

theorem history_guard (outcome : Outcome LlmError α) (s : LlmState) :
    (guard outcome s).2.history = s.history := by
  cases outcome with
  | ok value => rfl
  | exhausted exc => rfl
  | raised exc => by_cases h : exc = .timeout <;> simp [guard, h]

variable [Unicode]

theorem isOutage_of_retryable {exc : LlmError} (h : isRetryableError exc = true) :
    exc.isOutage = true := by
  simp [LlmError.isOutage, isSdkApiError_of_retryable h]

theorem read_retryable {reply : Except LlmError Completion} {exc : LlmError}
    (h : call.read reply = .error exc) (hretry : isRetryableError exc = true) :
    reply = .error exc := by
  cases reply with
  | error e => simpa [GenerateCall.read] using h
  | ok completion =>
    simp only [GenerateCall.read] at h
    split at h
    · cases h
      simp [isRetryableError] at hretry
    · split at h
      · cases h
        simp [isRetryableError] at hretry
      · cases h

theorem guard_settles {more : ℕ} {errors : List LlmError} {answer : Except LlmError α}
    {outcome : Outcome LlmError α} (h : Settles isRetryableError more errors answer outcome)
    (s : LlmState) : (guard outcome s).1 = answer.mapError LlmError.guarded := by
  cases outcome with
  | ok value =>
    obtain rfl : answer = .ok value := h
    rfl
  | raised exc =>
    obtain ⟨rfl, -⟩ := h
    rfl
  | exhausted exc =>
    obtain ⟨rfl, hretry, -⟩ := h
    simp [guard, Except.mapError, LlmError.guarded, isOutage_of_retryable hretry]

variable [Providers]

theorem retrying_served (spec : ProviderSpec) (agent : String) (call : GenerateCall α)
    (s : LlmState) : ∃ wires,
    (retrying (generateOnce spec agent call) s).2.history = s.history ++ wires ∧
      Served spec agent call wires (retrying (generateOnce spec agent call) s).1 := by
  obtain ⟨errors, answer, htries, hlength, hsettles⟩ :=
    run_tries isRetryableError (generateOnce spec agent call) moreAttempts s
  obtain ⟨passed, final, hlog, ⟨reply, rfl, hanswer⟩, hpassed⟩ :=
    htries.logged (f := LlmState.history) (P := fun wire answer => ∃ reply,
      wire = .chat agent spec.name (call.modelFor spec) reply ∧ answer = call.read reply)
      (generateOnce_logged spec agent call)
  have hpassed : passed =
      (errors.map Except.error).map (Wire.chat agent spec.name (call.modelFor spec)) := by
    have hretried := htries.retried
    clear hlog htries hlength hsettles
    induction hpassed with
    | nil => rfl
    | @cons wire exc passed errors hwire _ ih =>
      obtain ⟨reply, rfl, hread⟩ := hwire
      have hreply := read_retryable hread.symm (hretried exc List.mem_cons_self)
      rw [ih (fun e he => hretried e (List.mem_cons_of_mem _ he)), hreply]
      rfl
  refine ⟨passed ++ [.chat agent spec.name (call.modelFor spec) reply], ?_, errors, reply, ?_,
    hlength, htries.retried, ?_, ?_⟩
  · rw [retrying, history_guard, hlog, List.append_assoc]
  · simp [hpassed]
  · rintro exc rfl hretry
    exact hsettles.length_eq hanswer hretry
  · rw [retrying, guard_settles hsettles, GenerateCall.settle, hanswer]

/-- One logical call: at most four attempts at the primary, and only when they end in an outage,
at most four at the backup. What the caller gets is settled by the last answer. -/
theorem generate_served (client : FailoverLLMClient) (agent : String) (call : GenerateCall α)
    (s : LlmState) :
    ∃ tried first, Served client.primary agent call tried first ∧
      (((first ≠ .error .llmUnavailable ∨ client.backup = none) ∧
          (client.generate agent call s).2.history = s.history ++ tried ∧
          (client.generate agent call s).1 = first) ∨
        first = .error .llmUnavailable ∧ ∃ backup ∈ client.backup, ∃ backed,
          Served backup agent call backed (client.generate agent call s).1 ∧
          (client.generate agent call s).2.history = s.history ++ tried ++ backed) := by
  obtain ⟨tried, hhistory, hserved⟩ := retrying_served client.primary agent call s
  refine ⟨tried, _, hserved, ?_⟩
  rcases withFailover_cases client call.capability
    (fun spec => retrying (generateOnce spec agent call)) s with
    ⟨hstands, hsame⟩ | ⟨hdown, backup, hbackup, hresult, hstate⟩
  · refine .inl ⟨hstands, ?_, congrArg Prod.fst hsame⟩
    rw [FailoverLLMClient.generate, hsame]
    exact hhistory
  · obtain ⟨backed, hhistory', hserved'⟩ := retrying_served backup agent call
      (retrying (generateOnce client.primary agent call) s).2
    refine .inr ⟨hdown, backup, hbackup, backed, ?_, ?_⟩
    · rw [FailoverLLMClient.generate, hresult]
      exact hserved'
    · rw [hhistory] at hhistory'
      rw [FailoverLLMClient.generate, ← hhistory']
      rcases hstate with hstate | ⟨served, hstate⟩
      · rw [hstate]
      · rw [hstate]
        rfl

end

/-! What every attempt keeps, the whole call keeps. -/

section
variable [Unicode] {R : LlmState → LlmState → Prop}

theorem retrying_relates {once : LlmState → Except LlmError α × LlmState}
    (htrans : ∀ {s t u}, R s t → R t u → R s u) (honce : ∀ s, R s (once s).2)
    (htimeout : ∀ s, R s { s with timeouts := s.timeouts + 1 }) (s : LlmState) :
    R s (retrying once s).2 := by
  obtain ⟨errors, answer, htries, -, -⟩ :=
    run_tries isRetryableError once moreAttempts s
  have hrun : R s (Attempts.run isRetryableError once moreAttempts s).2 :=
    htries.relates (R := R) htrans honce
  unfold retrying
  rcases hout : Attempts.run isRetryableError once moreAttempts s with ⟨outcome, t⟩
  rw [hout] at hrun
  cases outcome with
  | ok value => exact hrun
  | exhausted exc => exact hrun
  | raised exc =>
    by_cases htime : exc = .timeout
    · simpa [guard, htime] using htrans hrun (htimeout t)
    · simpa [guard, htime] using hrun

theorem generate_relates [Providers] {client : FailoverLLMClient} {agent : String}
    {call : GenerateCall α} (htrans : ∀ {s t u}, R s t → R t u → R s u)
    (honce : ∀ spec s, spec = client.primary ∨ client.backup = some spec →
      R s (generateOnce spec agent call s).2)
    (htimeout : ∀ s, R s { s with timeouts := s.timeouts + 1 })
    (hfailover : ∀ capability served s, R s (countFailover capability served s)) (s : LlmState) :
    R s (client.generate agent call s).2 := by
  have hprimary := retrying_relates (R := R) htrans
    (fun s => honce client.primary s (.inl rfl)) htimeout s
  rcases withFailover_cases client call.capability
    (fun spec => retrying (generateOnce spec agent call)) s with
    ⟨-, hsame⟩ | ⟨-, backup, hbackup, -, hstate⟩
  · rw [FailoverLLMClient.generate, hsame]
    exact hprimary
  · have hsecond := htrans hprimary (retrying_relates (R := R) htrans
      (fun s => honce backup s (.inr hbackup)) htimeout _)
    rw [FailoverLLMClient.generate]
    rcases hstate with hstate | ⟨served, hstate⟩
    · rw [hstate]
      exact hsecond
    · rw [hstate]
      exact htrans hsecond (hfailover call.capability served _)

end

/-! The client that the settings ask for. -/

structure LlmSettings where
  geminiApiKey : String
  geminiModel : String
  llmModel : String
  embeddingModel : String
  featherlessApiKey : String
  featherlessModel : String

def LlmSettings.fireworksSpec (settings : LlmSettings) : ProviderSpec :=
  ⟨"fireworks", settings.llmModel, some settings.embeddingModel⟩

def LlmSettings.activeModelId (settings : LlmSettings) : String :=
  if settings.geminiApiKey ≠ "" then settings.geminiModel else settings.llmModel

def LlmSettings.buildClient (settings : LlmSettings) : FailoverLLMClient :=
  let backup :=
    if settings.featherlessApiKey ≠ "" then some ⟨"featherless", settings.featherlessModel, none⟩
    else none
  if settings.geminiApiKey ≠ "" then
    ⟨⟨"gemini", settings.geminiModel, none⟩, backup, settings.fireworksSpec⟩
  else ⟨settings.fireworksSpec, backup, settings.fireworksSpec⟩

/-- Where a request may go: text and images to the active model, or to the backup when there is a
key for it, and embeddings to the one provider that has them. -/
def Routed (settings : LlmSettings) : Wire → Prop
  | .chat _ provider _ _ =>
    provider = settings.buildClient.primary.name ∨
      settings.featherlessApiKey ≠ "" ∧ provider = "featherless"
  | .embedding _ provider model _ => provider = "fireworks" ∧ model = settings.embeddingModel

theorem primary_model (settings : LlmSettings) :
    settings.buildClient.primary.model = settings.activeModelId := by
  by_cases hgemini : settings.geminiApiKey = "" <;>
    simp [LlmSettings.buildClient, LlmSettings.activeModelId, LlmSettings.fireworksSpec, hgemini]

theorem embeddingClient_spec (settings : LlmSettings) :
    settings.buildClient.embeddingClient = settings.fireworksSpec := by
  by_cases hgemini : settings.geminiApiKey = "" <;> simp [LlmSettings.buildClient, hgemini]

theorem backup_spec {settings : LlmSettings} {spec : ProviderSpec}
    (h : settings.buildClient.backup = some spec) :
    settings.featherlessApiKey ≠ "" ∧ spec.name = "featherless" := by
  by_cases hkey : settings.featherlessApiKey = "" <;>
    by_cases hgemini : settings.geminiApiKey = "" <;>
      simp [LlmSettings.buildClient, hkey, hgemini] at h
  · exact ⟨hkey, by rw [← h]⟩
  · exact ⟨hkey, by rw [← h]⟩

theorem facade_routes [Unicode] [Providers] (settings : LlmSettings) (agent : String)
    (s : LlmState) (hs : ∀ wire ∈ s.history, Routed settings wire) :
    (∀ wire ∈ (settings.buildClient.embed agent s).2.history, Routed settings wire) ∧
      ∀ call : GenerateCall α, ∀ wire ∈ (settings.buildClient.generate agent call s).2.history,
        Routed settings wire := by
  let R : LlmState → LlmState → Prop := fun s s' =>
    (∀ wire ∈ s.history, Routed settings wire) → ∀ wire ∈ s'.history, Routed settings wire
  have htrans : ∀ {s t u}, R s t → R t u → R s u := fun hst htu hs => htu (hst hs)
  constructor
  · refine retrying_relates (R := R) htrans (fun t ht => ?_) (fun _ ht => ht) s hs
    rw [embeddingClient_spec]
    intro wire hwire
    rcases List.mem_append.mp hwire with hwire | hwire
    · exact ht wire hwire
    · obtain rfl := List.mem_singleton.mp hwire
      exact ⟨rfl, rfl⟩
  · intro call
    refine generate_relates (R := R) htrans (fun spec t hspec ht => ?_) (fun _ ht => ht)
      (fun _ _ _ ht => ht) s hs
    obtain ⟨wire, hhistory, reply, rfl, -⟩ :=
      generateOnce_logged spec agent call t
    rw [hhistory]
    intro wire hwire
    rcases List.mem_append.mp hwire with hwire | hwire
    · exact ht wire hwire
    · obtain rfl := List.mem_singleton.mp hwire
      rcases hspec with rfl | hspec
      · exact .inl rfl
      · exact .inr (backup_spec hspec)

/-! What the counters say after any run of calls. -/

/-- A response that came for the agent from the model. -/
def Wire.response? (agent model : String) : Wire → Option LLMResponse
  | .chat a _ m (.ok completion) => if a = agent ∧ m = model then adapt false completion else none
  | _ => none

def LLMResponse.spent (response : LLMResponse) : TokenKind → ℕ
  | .prompt => response.promptTokenCount
  | .completion => response.candidatesTokenCount

def responses (s : LlmState) (agent model : String) : List LLMResponse :=
  s.history.filterMap (Wire.response? agent model)

/-- Every response is counted once, with the tokens it reports. -/
structure Metered (s : LlmState) : Prop where
  calls : ∀ agent model, s.calls (agent, model) = (responses s agent model).length
  tokens : ∀ agent model kind,
    s.tokens (agent, model) kind = ((responses s agent model).map (·.spent kind)).sum

/-- One logical call of a client, of any kind and for any agent. -/
def LlmStep [Unicode] [Providers] (s s' : LlmState) : Prop :=
  ∃ (client : FailoverLLMClient) (agent : String), s' = (client.embed agent s).2 ∨
    ∃ (α : Type) (call : GenerateCall α), s' = (client.generate agent call s).2

def LlmState.fresh : LlmState where
  history := []
  calls _ := 0
  tokens _ _ := 0
  timeouts := 0
  failovers _ := 0

theorem adapt_tokens (stripFences : Bool) (completion : Completion) (kind : TokenKind) :
    (adapt stripFences completion).map (·.spent kind) =
      (adapt false completion).map (·.spent kind) := by
  obtain ⟨choices, usage⟩ := completion
  cases choices with
  | nil => rfl
  | cons choice rest => cases kind <;> rfl

theorem Metered.sent_other {s : LlmState} (h : Metered s) (wire : Wire)
    (hwire : ∀ agent model, wire.response? agent model = none) : Metered (s.sent wire) where
  calls agent model := by
    simpa [responses, LlmState.sent, hwire] using h.calls agent model
  tokens agent model kind := by
    simpa [responses, LlmState.sent, hwire] using h.tokens agent model kind

theorem Metered.observe {s : LlmState} (h : Metered s) (agent provider model : String)
    {completion : Completion} {stripFences : Bool} {response : LLMResponse}
    (hadapt : adapt stripFences completion = some response) :
    Metered (observeLlmCall agent model response
      (s.sent (.chat agent provider model (.ok completion)))) := by
  have hspent : ∀ kind,
      (adapt false completion).map (·.spent kind) = some (response.spent kind) := by
    intro kind
    rw [← adapt_tokens stripFences, hadapt]
    rfl
  obtain ⟨plain, hplain⟩ : ∃ plain, adapt false completion = some plain := by
    cases hplain : adapt false completion with
    | none => simpa [hplain] using hspent .prompt
    | some plain => exact ⟨plain, rfl⟩
  have hresponses : ∀ a m, responses (observeLlmCall agent model response
      (s.sent (.chat agent provider model (.ok completion)))) a m =
      responses s a m ++ if agent = a ∧ model = m then [plain] else [] := by
    intro a m
    by_cases hkey : agent = a ∧ model = m <;>
      simp [responses, observeLlmCall, LlmState.sent, Wire.response?, hkey, hplain]
  constructor
  · intro a m
    rw [hresponses]
    by_cases hkey : agent = a ∧ model = m
    · obtain ⟨rfl, rfl⟩ := hkey
      simp [observeLlmCall, LlmState.sent, h.calls]
    · have hne : (a, m) ≠ (agent, model) := fun he => hkey (by simpa [eq_comm] using he)
      simpa [observeLlmCall, LlmState.sent, hkey, Function.update_of_ne hne] using h.calls a m
  · intro a m kind
    rw [hresponses]
    by_cases hkey : agent = a ∧ model = m
    · obtain ⟨rfl, rfl⟩ := hkey
      have hkind : plain.spent kind = response.spent kind := by
        have hboth := hspent kind
        rw [hplain] at hboth
        simpa using hboth
      have hbefore := h.tokens agent model kind
      cases kind <;> simp [observeLlmCall, LlmState.sent, hbefore, hkind] <;> rfl
    · have hne : (a, m) ≠ (agent, model) := fun he => hkey (by simpa [eq_comm] using he)
      simpa [observeLlmCall, LlmState.sent, hkey, Function.update_of_ne hne] using h.tokens a m kind

theorem Metered.receive {s : LlmState} (h : Metered s) (agent provider model : String)
    (call : GenerateCall α) (reply : Except LlmError Completion) :
    Metered (receive agent model call reply (s.sent (.chat agent provider model reply))).2 := by
  cases reply with
  | error exc => exact h.sent_other _ (fun _ _ => rfl)
  | ok completion =>
    cases hadapt : adapt call.stripFences completion with
    | none =>
      have hplain : adapt false completion = none := by
        have htokens := adapt_tokens call.stripFences completion .prompt
        rw [hadapt] at htokens
        simpa using htokens.symm
      simpa [Llm.receive, hadapt] using h.sent_other (.chat agent provider model (.ok completion))
        (by simp [Wire.response?, hplain])
    | some response =>
      have hmetered := h.observe agent provider model hadapt
      cases hparse : call.parse response <;> simpa [Llm.receive, hadapt, hparse] using hmetered

section
variable [Providers] {s s' : LlmState}

theorem Metered.embedOnce (h : Metered s) (spec : ProviderSpec) (agent : String) :
    Metered (embedOnce spec agent s).2 := by
  unfold Llm.embedOnce
  cases spec.embeddingModel with
  | none => exact h
  | some model => exact h.sent_other _ (fun _ _ => rfl)

variable [Unicode]

theorem Metered.llmStep (h : Metered s) (hstep : LlmStep s s') : Metered s' := by
  have htimeout : ∀ t : LlmState, Metered t → Metered { t with timeouts := t.timeouts + 1 } :=
    fun t ht => ⟨ht.calls, ht.tokens⟩
  have hfailover : ∀ capability served, ∀ t : LlmState,
      Metered t → Metered (countFailover capability served t) :=
    fun _ _ t ht => ⟨ht.calls, ht.tokens⟩
  obtain ⟨client, agent, rfl | ⟨α, call, rfl⟩⟩ := hstep
  · exact retrying_relates (R := fun t t' => Metered t → Metered t')
      (fun htu huv ht => huv (htu ht)) (fun t ht => ht.embedOnce _ agent) htimeout s h
  · exact generate_relates (R := fun t t' => Metered t → Metered t')
      (fun htu huv ht => huv (htu ht)) (fun spec t _ ht => ht.receive agent spec.name _ call _)
      htimeout hfailover s h

end

/-- A provider whose first answer is refused. -/
abbrev busyOnce : Providers where
  complete history _ _ :=
    if history = [] then .error (.apiStatus 429 "busy")
    else .ok ⟨[some "ok"], some ⟨some 7, some 2⟩⟩
  embed _ _ _ := .error .timeout

theorem trim_between (cs : List Char) {a b : Char} (ha : isSpace a = false)
    (hb : isSpace b = false) : Fragments.trim isSpace (a :: cs ++ [b]) = a :: cs ++ [b] := by
  have hfront : (a :: cs ++ [b]).dropWhile isSpace = a :: cs ++ [b] := by
    rw [List.cons_append, List.dropWhile_cons_of_neg (by simp [ha])]
  rw [Fragments.trim, hfront, List.rdropWhile_concat_neg _ _ _ (by simp [hb])]

theorem strip_ofList (cs : List Char) :
    (strip (String.ofList cs)).toList = Fragments.trim isSpace cs := by
  rw [strip, String.toList_ofList, String.toList_ofList]
  rfl

theorem afterFence_ticks {tag rest : List Char} (htag : '\n' ∉ tag) :
    afterFence (ticks ++ tag ++ '\n' :: rest) = rest := by
  have hline : ∀ c ∈ ticks ++ tag, decide (c ≠ '\n') = true := by
    intro c hc
    rcases List.mem_append.mp hc with hc | hc
    · have hticks : c = '`' := by simpa [ticks] using hc
      simp [hticks]
    · have hne : c ≠ '\n' := fun he => htag (he ▸ hc)
      simp [hne]
  have hdrop : (ticks ++ tag ++ '\n' :: rest).dropWhile (· ≠ '\n') = '\n' :: rest := by
    rw [List.dropWhile_append_of_pos hline]
    simp
  rw [afterFence, if_pos ⟨tag ++ '\n' :: rest, by simp⟩, if_pos (by simp), hdrop]
  rfl

theorem beforeFence_ticks (cs : List Char) : beforeFence (cs ++ ticks) = cs := by
  rw [beforeFence, if_pos (List.suffix_append cs ticks)]
  exact @List.rdrop_append_length Char cs ticks

theorem stripJsonFences_fenced {before tag body gap after : List Char}
    (hbefore : ∀ c ∈ before, isSpace c = true) (htag : '\n' ∉ tag)
    (hgap : ∀ c ∈ gap, isSpace c = true) (hafter : ∀ c ∈ after, isSpace c = true) :
    stripJsonFences (String.ofList
        (before ++ (ticks ++ tag ++ '\n' :: (body ++ gap ++ ticks)) ++ after)) =
      String.ofList (Fragments.trim isSpace body) := by
  have hne : String.ofList (before ++ (ticks ++ tag ++ '\n' :: (body ++ gap ++ ticks)) ++ after) ≠
      "" := by
    intro h
    have hnil := congrArg String.toList h
    simp [ticks] at hnil
  have hcore : Fragments.trim isSpace (ticks ++ tag ++ '\n' :: (body ++ gap ++ ticks)) =
      ticks ++ tag ++ '\n' :: (body ++ gap ++ ticks) := by
    have hends := trim_between (['`', '`'] ++ tag ++ '\n' :: (body ++ gap ++ ['`', '`']))
      (a := '`') (b := '`') (by decide) (by decide)
    simpa [ticks] using hends
  have hbody : Fragments.trim isSpace (body ++ gap) = Fragments.trim isSpace body := by
    simpa using Fragments.trim_append (u := []) (m := body) (by simp) hgap
  apply String.toList_injective
  rw [stripJsonFences, if_neg hne, strip_ofList, strip_ofList,
    Fragments.trim_append hbefore hafter, hcore, afterFence_ticks htag, beforeFence_ticks, hbody,
    String.toList_ofList]

theorem stripJsonFences_bare {body : List Char} (hbody : Fragments.trim isSpace body = body)
    (hfront : ¬ ticks <+: body) (hback : ¬ ticks <:+ body) :
    stripJsonFences (String.ofList body) = String.ofList body := by
  unfold stripJsonFences
  split
  · rfl
  · apply String.toList_injective
    rw [strip_ofList, strip_ofList, hbody, afterFence, if_neg hfront, beforeFence, if_neg hback,
      hbody, String.toList_ofList]

end Finguard.Llm
