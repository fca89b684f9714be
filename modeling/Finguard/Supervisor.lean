import Finguard.AgentRegistry
import Finguard.Lib.Json
import Finguard.Lib.Lru
import Finguard.Lib.Text

/-! The supervisor: how an intent is routed by keywords, by the cache of initial routes or by the
model. -/

namespace Finguard
open Text

/-! The keyword router. -/

def keywordRoutes : List (String × List String) :=
  [("a_generator", ["extract invoice", "parse invoice", "generate invoice", "invoice from",
      "scan invoice"]),
    ("b_classifier", ["classify", "categorize", "categorise", "classification",
      "categorization"]),
    ("c_reconciler", ["reconcile", "reconciliation", "match payment", "match the payment", "mpesa",
      "bank statement"]),
    ("d_forecaster", ["forecast", "cash flow", "cashflow", "runway", "projection", "project cash",
      "burn rate", "cash burn", "burn"]),
    ("e_watchdog", ["budget", "watchdog", "anomaly", "overspend", "duplicate invoice",
      "over budget"]),
    ("f_auditor", ["tax", "vat", "kra", "tax audit", "tax compliance", "corporate income tax"]),
    ("g_reporter", ["bankability", "credit strategy", "credit score", "loan readiness",
      "credit report"]),
    ("h_advisor", ["advice", "advise", "recommend", "what should i", "should i",
      "recommendation"]),
    ("i_integrator", ["exchange rate", "fx rate", "forex", "external data", "credit bureau"]),
    ("j_summarizer", ["executive summary", "summarize", "summarise", "summary of", "overview"]),
    ("k_stockkeeper", ["stock", "inventory", "sku", "reorder", "stock level", "out of stock",
      "restock", "low stock", "stockout", "on hand", "on-hand"])]

/-- The scores that are not zero, the highest first, and on a tie the last name first. -/
def scoredRoutes (intentText : String) : List (ℕ × String) :=
  let scored := (keywordRoutes.map fun (node, keywords) =>
    (keywords.countP (isIn · intentText), node)).filter (·.1 ≠ 0)
  scored.insertionSort fun a b => b.1 < a.1 ∨ a.1 = b.1 ∧ b.2 ≤ a.2

/-- The single clear agent for an intent. -/
def heuristicRoute (intentText : String) : Option String :=
  if intentText = "" then none
  else
    match scoredRoutes intentText with
    | [] => none
    | [best] => some best.2
    | best :: second :: _ => if best.1 = second.1 then none else some best.2

/-- Only agents that write nothing. -/
def readOnlyRoute (intentText : String) : Option String :=
  match heuristicRoute intentText with
  | none => none
  | some node => if (agentRegistry.byNode? node).any (·.readOnly) then some node else none

/-! The state of a session. -/

inductive MessageKind where
  | human
  | ai
  | other
deriving DecidableEq

structure ChatMessage where
  kind : MessageKind
  content : String
  name : Option String := none

structure OrchestratorState where
  messages : List ChatMessage
  context : Json.Fields := []

def normaliseIntent [Unicode] (text : String) : String :=
  " ".intercalate (split (Unicode.lower text))

def firstIntentText [Unicode] (messages : List ChatMessage) : String :=
  match messages.find? (·.kind = .human) with
  | none => ""
  | some message => normaliseIntent message.content

/-! The cache of initial routes. -/

abbrev RouteCache := Lru.Cache String String 256

def cachePut (cache : RouteCache) (intentText node : String) : RouteCache :=
  if intentText = "" then cache else cache.put intentText node

def validNext : List String :=
  ["a_generator", "b_classifier", "c_reconciler", "d_forecaster", "e_watchdog", "f_auditor",
    "g_reporter", "h_advisor", "i_integrator", "j_summarizer", "k_stockkeeper", "FINISH"]

def agentHasRun (messages : List ChatMessage) (node : String) : Bool :=
  messages.any (·.name = some node)

/-- The agents that have spoken. -/
def agentNames (messages : List ChatMessage) : List String :=
  (messages.filterMap (·.name)).filter (· ≠ "supervisor")

/-- No agent has spoken yet. -/
def isInitialCall (messages : List ChatMessage) : Bool := (agentNames messages).isEmpty

/-! The cycle guard. -/

def maxStalledRepeats : ℕ := 2

def routeHistoryMax : ℕ := 12

def progressSignature (messages : List ChatMessage) (context : Json.Fields) : String :=
  let names := sorted (agentNames messages).dedup
  let keys := sorted ((context.map Prod.fst).filter fun key => !key.startsWith "_").dedup
  "|".intercalate names ++ "#" ++ "|".intercalate keys

/-- What goes wrong with a context that holds values of other types. -/
inductive SupervisorFailure where
  | unhashable
  | notIterable
deriving DecidableEq

/-- A falsy value reads as the empty list. -/
def entriesOf (value : Json) : Except SupervisorFailure (List Json) :=
  if !value.truthy then .ok []
  else
    match value with
    | .array items => .ok items
    | .text s => .ok (s.toList.map fun c => .text (String.ofList [c]))
    | .object fields => .ok (fields.map fun field => .text field.1)
    | _ => .error .notIterable

def isDecision (node signature : String) : Json → Bool
  | .array [.text n, .text s] => n = node && s = signature
  | _ => false

/-- How often in a row the same route was taken last. -/
def stalledRepeats (history : List Json) (node signature : String) : ℕ :=
  (history.reverse.takeWhile (isDecision node signature)).length

structure SupervisorUpdate where
  message : String
  next : String
  context : Json.Fields

def cycleMessage (node : String) : String :=
  "Cycle detected: routed to '" ++ node ++ "' repeatedly with no " ++
    "new context — terminating with partial results."

def route (messages : List ChatMessage) (context : Json.Fields) (node reason : String) :
    Except SupervisorFailure SupervisorUpdate :=
  if node = "FINISH" then .ok ⟨reason, node, context⟩
  else
    let signature := progressSignature messages context
    (entriesOf (context.get "_route_history")).map fun history =>
      if maxStalledRepeats ≤ stalledRepeats history node signature then
        ⟨cycleMessage node, "FINISH", context⟩
      else
        let extended := history ++ [.array [.text node, .text signature]]
        ⟨reason, node, context.merge
          [("_route_history", .array (extended.drop (extended.length - routeHistoryMax))),
            ("_route_origin", .text node)]⟩

/-! The node. -/

class SupervisorSettings where
  plannerEnabled : Bool

structure SupervisorDecision where
  next : String
  reason : String
  targets : List String := []

/-- What comes of asking the model. -/
inductive ModelReply where
  | decision (decision : SupervisorDecision)
  | invalid
  | failed (errorType : String)

/-- The agent that the context asks for. -/
def requestedAgent (context : Json.Fields) : Except SupervisorFailure (Option String) :=
  match context.get "requested_agent" with
  | .text s => .ok (if s ∈ validNext then some s else none)
  | .array (_ :: _) => .error .unhashable
  | .object (_ :: _) => .error .unhashable
  | _ => .ok none

/-- The agent that was routed to, if it has run. -/
def finishedOrigin (s : OrchestratorState) : Option String :=
  match s.context.get "_route_origin" with
  | .text origin => if origin ∈ validNext ∧ agentHasRun s.messages origin then some origin else none
  | _ => none

/-- What the node does before it asks the model. -/
inductive ShortCircuit where
  | routed (result : Except SupervisorFailure SupervisorUpdate)
  | asks

def enterSupervisor [Unicode] (cache : RouteCache) (s : OrchestratorState) :
    RouteCache × ShortCircuit :=
  if isInitialCall s.messages then
    match requestedAgent s.context with
    | .error e => (cache, .routed (.error e))
    | .ok (some node) =>
      (cache, .routed (route s.messages s.context node ("Routing to requested agent: " ++ node)))
    | .ok none =>
      let intentText := firstIntentText s.messages
      let cached := (cache.get? intentText).filter (· ∈ validNext)
      let cache := cache.touch intentText
      match cached with
      | some node => (cache, .routed (route s.messages s.context node ("Cached route → " ++ node)))
      | none =>
        match heuristicRoute intentText with
        | some node =>
          (cachePut cache intentText node,
            .routed (route s.messages s.context node ("Keyword route → " ++ node)))
        | none => (cache, .asks)
  else if (finishedOrigin s).isSome then
    (cache, .routed (route s.messages s.context "FINISH" "Single-agent flow complete."))
  else (cache, .asks)

/-- The route, its reason and the targets that a reply stands for. -/
def routeOfReply : ModelReply → String × String × List String
  | .decision d =>
    if d.next ∈ validNext then (d.next, d.reason, d.targets)
    else ("FINISH", "Unknown route '" ++ d.next ++ "' rejected — terminating.", d.targets)
  | .invalid => ("FINISH", "Supervisor decision failed schema validation — terminating.", [])
  | .failed errorType => ("FINISH", "Routing error (" ++ errorType ++ ") — terminating.", [])

def validTargets (targets : List String) : List String :=
  (targets.filter fun target => target ∈ validNext ∧ target ≠ "FINISH").eraseDups

/-- What the node does with the model's reply. -/
def answerSupervisor [Unicode] [SupervisorSettings] (cache : RouteCache) (s : OrchestratorState)
    (reply : ModelReply) : RouteCache × Except SupervisorFailure SupervisorUpdate :=
  let (node, reason, targets) := routeOfReply reply
  let targets := validTargets targets
  if SupervisorSettings.plannerEnabled ∧ node ≠ "FINISH" ∧ 2 ≤ targets.length then
    let context := s.context.merge [("_planner_targets", .array (targets.map .text))]
    (cache, route s.messages context "planner"
      ("Multi-domain request → planning [" ++
        ", ".intercalate (targets.map fun target => "'" ++ target ++ "'") ++ "]."))
  else
    let cached := isInitialCall s.messages ∧ node ∈ validNext ∧ node ≠ "FINISH"
    (if cached then cachePut cache (firstIntentText s.messages) node else cache,
      route s.messages s.context node reason)

/-- A whole run of the node, when nothing else happens while it waits for the model. -/
def supervisorNode [Unicode] [SupervisorSettings] (cache : RouteCache) (s : OrchestratorState)
    (reply : ModelReply) : RouteCache × Except SupervisorFailure SupervisorUpdate :=
  match enterSupervisor cache s with
  | (cache, .routed result) => (cache, result)
  | (cache, .asks) => answerSupervisor cache s reply

end Finguard
