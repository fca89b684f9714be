import Finguard.Lib.Runs
import Finguard.Supervisor

/-! The fast path around the supervisor, and why it never disagrees with the supervisor's own
routing. -/

namespace Finguard
open Runs Text

/-- The agents that have a graph of their own. -/
def fastPathNodeFactories : List String := ["d_forecaster", "f_auditor"]

inductive FastPath where
  | fullGraph
  | agent (node : String)
  | noFactory (node : String)
deriving DecidableEq

/-- Where the graph of a single agent takes over. -/
def tryFastPath [Unicode] (s : OrchestratorState) : FastPath :=
  if (s.context.get "requested_agent").truthy then .fullGraph
  else
    match readOnlyRoute (firstIntentText s.messages) with
    | none => .fullGraph
    | some node => if node ∈ fastPathNodeFactories then .agent node else .noFactory node

/-- A context without a requested agent and without the supervisor's books. -/
def Unrouted (context : Json.Fields) : Prop :=
  ∀ key ∈ ["requested_agent", "_route_history", "_route_origin"], context.get? key = none

/-- The route cache of a process, and the calls that wait for the model. -/
structure RouteServer where
  cache : RouteCache
  waiting : List OrchestratorState

inductive RouteAction where
  | enter (s : OrchestratorState)
  | answer (call : ℕ) (reply : ModelReply)
  | reset

namespace RouteServer

def start : RouteServer := ⟨Lru.Cache.empty, []⟩

def step [Unicode] [SupervisorSettings] (server : RouteServer) : RouteAction → Option RouteServer
  | .enter s =>
    match enterSupervisor server.cache s with
    | (cache, .routed _) => some { server with cache }
    | (cache, .asks) => some ⟨cache, server.waiting ++ [s]⟩
  | .answer call reply =>
    server.waiting[call]?.map fun s =>
      ⟨(answerSupervisor server.cache s reply).1, server.waiting.eraseIdx call⟩
  | .reset => some { server with cache := Lru.Cache.empty }

end RouteServer

/-- What is cached for an intent is what its keywords say, if they say anything. -/
def Agrees (intentText node : String) : Prop :=
  ∀ agent, heuristicRoute intentText = some agent → node = agent

/-- The keywords have nothing to say about the intents of initial calls that wait. -/
structure RouteServer.Sound [Unicode] (server : RouteServer) : Prop where
  cache : server.cache.All Agrees
  waiting : ∀ s ∈ server.waiting, isInitialCall s.messages →
    heuristicRoute (firstIntentText s.messages) = none

section enterSupervisor
variable [Unicode] {cache cache' : RouteCache} {s : OrchestratorState}

omit [Unicode] in
theorem cachePut_all (h : cache.All Agrees) {intentText node : String}
    (hnode : Agrees intentText node) : (cachePut cache intentText node).All Agrees := by
  rw [cachePut]
  by_cases hempty : intentText = ""
  · rw [if_pos hempty]
    exact h
  · rw [if_neg hempty]
    exact h.put hnode

/-- Before the model is asked, the cache only learns what the keywords say. -/
theorem enterSupervisor_sound {result : ShortCircuit} (h : cache.All Agrees)
    (henter : enterSupervisor cache s = (cache', result)) : cache'.All Agrees ∧
      (result = .asks → isInitialCall s.messages →
        heuristicRoute (firstIntentText s.messages) = none) := by
  rw [enterSupervisor] at henter
  by_cases hinitial : isInitialCall s.messages = true
  · rw [if_pos hinitial] at henter
    cases hrequested : requestedAgent s.context with
    | error e =>
      rw [hrequested] at henter
      obtain ⟨rfl, rfl⟩ := Prod.mk.inj henter
      exact ⟨h, fun hasks => by cases hasks⟩
    | ok requested =>
      rw [hrequested] at henter
      cases requested with
      | some node =>
        obtain ⟨rfl, rfl⟩ := Prod.mk.inj henter
        exact ⟨h, fun hasks => by cases hasks⟩
      | none =>
        have htouched := h.touch (firstIntentText s.messages)
        dsimp only at henter
        split at henter
        · obtain ⟨rfl, rfl⟩ := Prod.mk.inj henter
          exact ⟨htouched, fun hasks => by cases hasks⟩
        · split at henter
          · next agent hagent =>
            obtain ⟨rfl, rfl⟩ := Prod.mk.inj henter
            refine ⟨cachePut_all htouched fun other hother => ?_, fun hasks => by cases hasks⟩
            exact Option.some.inj (hagent.symm.trans hother)
          · next hnone =>
            obtain ⟨rfl, rfl⟩ := Prod.mk.inj henter
            exact ⟨htouched, fun _ _ => hnone⟩
  · rw [if_neg hinitial] at henter
    split at henter
    · obtain ⟨rfl, rfl⟩ := Prod.mk.inj henter
      exact ⟨h, fun _ hcall => absurd hcall hinitial⟩
    · obtain ⟨rfl, rfl⟩ := Prod.mk.inj henter
      exact ⟨h, fun _ hcall => absurd hcall hinitial⟩

theorem answerSupervisor_sound [SupervisorSettings] {reply : ModelReply} (h : cache.All Agrees)
    (hasked : isInitialCall s.messages → heuristicRoute (firstIntentText s.messages) = none) :
    (answerSupervisor cache s reply).1.All Agrees := by
  rcases hreply : routeOfReply reply with ⟨node, reason, targets⟩
  rw [answerSupervisor, hreply]
  dsimp only
  split
  · exact h
  · dsimp only
    split
    · next hcached =>
      refine cachePut_all h fun agent hagent => ?_
      rw [hasked hcached.1] at hagent
      cases hagent
    · exact h

end enterSupervisor

namespace RouteServer
variable [Unicode] [SupervisorSettings] {server next : RouteServer}

omit [SupervisorSettings] in
theorem sound_start : start.Sound := ⟨Lru.Cache.all_empty, by rintro s ⟨⟩⟩

theorem Sound.step {action : RouteAction} (h : server.Sound)
    (hstep : server.step action = some next) : next.Sound := by
  cases action with
  | enter s =>
    rw [RouteServer.step] at hstep
    rcases henter : enterSupervisor server.cache s with ⟨cache, result⟩
    obtain ⟨hcache, hasks⟩ := enterSupervisor_sound h.cache henter
    rw [henter] at hstep
    cases result with
    | routed result =>
      obtain rfl := Option.some.inj hstep
      exact ⟨hcache, h.waiting⟩
    | asks =>
      obtain rfl := Option.some.inj hstep
      refine ⟨hcache, fun call hcall => ?_⟩
      rcases List.mem_append.mp hcall with hold | hnew
      · exact h.waiting call hold
      · rw [List.mem_singleton.mp hnew]
        exact hasks rfl
  | answer call reply =>
    obtain ⟨s, hs, rfl⟩ := Option.map_eq_some_iff.mp hstep
    have hasked := h.waiting s (List.mem_of_getElem? hs)
    refine ⟨answerSupervisor_sound h.cache hasked, fun other hother => ?_⟩
    exact h.waiting other (List.mem_of_mem_eraseIdx hother)
  | reset =>
    obtain rfl := Option.some.inj hstep
    exact ⟨Lru.Cache.all_empty, h.waiting⟩

theorem sound_of_reaches (h : Reaches step always start server) : server.Sound :=
  h.invariant (fun _ _ _ hs _ hstep => hs.step hstep) sound_start

end RouteServer

section routes
variable [Unicode] {s : OrchestratorState} {node : String}

theorem heuristicRoute_of_tryFastPath (h : tryFastPath s = .agent node) :
    heuristicRoute (firstIntentText s.messages) = some node := by
  rw [tryFastPath] at h
  split at h
  · cases h
  · split at h
    · cases h
    · next found hfound =>
      split at h
      · obtain rfl := FastPath.agent.inj h
        rw [readOnlyRoute] at hfound
        split at hfound
        · cases hfound
        · next agent hagent =>
          split at hfound
          · obtain rfl := Option.some.inj hfound
            exact hagent
          · cases hfound
      · cases h

omit [Unicode] in
/-- Without books, the cycle guard lets every route pass. -/
theorem route_unrouted {context : Json.Fields} (h : Unrouted context)
    (messages : List ChatMessage) (node reason : String) :
    ∃ update, route messages context node reason = .ok update ∧ update.next = node := by
  have hempty : context.get "_route_history" = .null := by
    rw [Json.Fields.get, h "_route_history" (by simp)]
    rfl
  have hentries : entriesOf (context.get "_route_history") = .ok [] := by
    rw [hempty]
    rfl
  rw [route]
  by_cases hfinish : node = "FINISH"
  · rw [if_pos hfinish]
    exact ⟨_, rfl, rfl⟩
  · rw [if_neg hfinish, hentries]
    exact ⟨_, rfl, rfl⟩

/-- Where the keywords name an agent, the supervisor routes an initial call to it, cached or
not. -/
theorem enterSupervisor_of_heuristicRoute {cache : RouteCache} (hcache : cache.All Agrees)
    (hinitial : isInitialCall s.messages) (hunrouted : Unrouted s.context)
    (hnode : heuristicRoute (firstIntentText s.messages) = some node) :
    ∃ cache' update, enterSupervisor cache s = (cache', .routed (.ok update)) ∧
      update.next = node := by
  have hrequested : requestedAgent s.context = .ok none := by
    have hempty : s.context.get "requested_agent" = .null := by
      rw [Json.Fields.get, hunrouted "requested_agent" (by simp)]
      rfl
    rw [requestedAgent, hempty]
  rw [enterSupervisor, if_pos hinitial, hrequested]
  dsimp only
  cases hcached : (cache.get? (firstIntentText s.messages)).filter (· ∈ validNext) with
  | some cached =>
    obtain ⟨hfound, -⟩ := Option.filter_eq_some_iff.mp hcached
    obtain rfl : cached = node := hcache.get? hfound node hnode
    obtain ⟨update, hupdate, hnext⟩ :=
      route_unrouted hunrouted s.messages cached ("Cached route → " ++ cached)
    simp only [hupdate]
    exact ⟨_, update, rfl, hnext⟩
  | none =>
    obtain ⟨update, hupdate, hnext⟩ :=
      route_unrouted hunrouted s.messages node ("Keyword route → " ++ node)
    simp only [hnode, hupdate]
    exact ⟨_, update, rfl, hnext⟩

end routes

/-- Whatever calls a process has seen: its cache agrees with the keywords, and an agent that the
fast path runs is the one that the supervisor would route to. -/
theorem fast_path_agrees [Unicode] [SupervisorSettings] {server : RouteServer}
    (h : Reaches RouteServer.step always .start server) :
    (∀ entry ∈ server.cache.entries, ∀ agent, heuristicRoute entry.1 = some agent →
      entry.2 = agent) ∧
    ∀ s : OrchestratorState, isInitialCall s.messages → Unrouted s.context → ∀ node,
      tryFastPath s = .agent node → ∀ reply, ∃ update,
        (supervisorNode server.cache s reply).2 = .ok update ∧ update.next = node := by
  have hsound := RouteServer.sound_of_reaches h
  refine ⟨hsound.cache, fun s hinitial hunrouted node hfast reply => ?_⟩
  obtain ⟨cache, update, henter, hnext⟩ := enterSupervisor_of_heuristicRoute hsound.cache hinitial
    hunrouted (heuristicRoute_of_tryFastPath hfast)
  rw [supervisorNode, henter]
  exact ⟨update, rfl, hnext⟩

/-- A session that begins with a question. -/
def question (text : String) : OrchestratorState where
  messages := [⟨.human, text, none⟩]

/-- One question has been routed by the model and another by its keywords. -/
theorem vat_question_agrees :
    letI := Unicode.ascii
    letI : SupervisorSettings := ⟨false⟩
    ∃ server : RouteServer, server.cache.entries =
        [("who owes us money", "h_advisor"), ("our vat, please", "f_auditor")] ∧
      (∀ entry ∈ server.cache.entries, ∀ agent, heuristicRoute entry.1 = some agent →
        entry.2 = agent) ∧
      tryFastPath (question "Our  VAT, please") = .agent "f_auditor" ∧
      ∀ reply, ∃ update, (supervisorNode server.cache (question "Our  VAT, please") reply).2 =
        .ok update ∧ update.next = "f_auditor" := by
  let := Unicode.ascii
  let : SupervisorSettings := ⟨false⟩
  have hrun : (replay RouteServer.step always .start
      [.enter (question "Who owes us money"), .enter (question "Our VAT,\tplease"),
        .answer 0 (.decision ⟨"h_advisor", "", []⟩), .enter (question "Our vat, please")]).map
          (·.cache.entries) =
        some [("who owes us money", "h_advisor"), ("our vat, please", "f_auditor")] := by
    decide +kernel
  obtain ⟨server, hreaches, hentries⟩ := replay_map_reaches hrun
  have hfast : tryFastPath (question "Our  VAT, please") = .agent "f_auditor" := by decide +kernel
  obtain ⟨hcache, hagrees⟩ := fast_path_agrees hreaches
  refine ⟨server, hentries, hcache, hfast, hagrees _ rfl ?_ _ hfast⟩
  intro key _
  rfl

end Finguard
