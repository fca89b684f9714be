import Finguard.Lib.Lookup
import Finguard.Lib.Staging

/-! The registry of the agents, and the plan that their required inputs call for. -/

namespace Finguard
open Lookup Staging

/-- An input of an agent, under the context key of its producer. -/
structure Dependency where
  key : String
  required : Bool := true

structure AgentDescriptor where
  agentId : String
  contextKey : String
  nodeName : String := ""
  consumes : List Dependency := []
  readOnly : Bool := false

/-- The context keys in which the planner keeps its books. -/
def plannerKeys : List String :=
  ["_plan", "_stage", "_current_dispatch", "_planner_skipped", "_planner_targets",
    "_replan_targets", "_replans_used", "_planner_done"]

/-- The agents, each with an id and a context key of its own. -/
structure AgentTable where
  agents : List AgentDescriptor
  ids : (agents.map (·.agentId)).Nodup
  keys : (agents.map (·.contextKey)).Nodup

/-- The agents of the graph. Each has a node of its own, as the registry's contract tests
check. -/
structure Registry extends AgentTable where
  nodes : (agents.map (·.nodeName)).Nodup
  named : ∀ desc ∈ agents, desc.nodeName ≠ ""
  plain : ∀ desc ∈ agents, desc.contextKey ∉ plannerKeys
  summarizer : ∃ desc ∈ agents, desc.agentId = "J" ∧ desc.nodeName = "j_summarizer"

inductive DependencyError where
  | unknownTarget (agentId : String)
  | noProducer (key : String)
  | cycle (agentIds : List String)
deriving DecidableEq

def sorted (names : List String) : List String := names.insertionSort (· ≤ ·)

namespace AgentTable

def byAgent? (t : AgentTable) (agentId : String) : Option AgentDescriptor :=
  t.agents.find? (·.agentId = agentId)

def byKey? (t : AgentTable) (key : String) : Option AgentDescriptor :=
  t.agents.find? (·.contextKey = key)

def producerForKey (t : AgentTable) (key : String) : Except DependencyError String :=
  match t.byKey? key with
  | none => .error (.noProducer key)
  | some desc => .ok desc.agentId

def requiredProducers (t : AgentTable) (agentId : String) :
    Except DependencyError (List String) :=
  match t.byAgent? agentId with
  | none => .error (.unknownTarget agentId)
  | some desc => (desc.consumes.filter (·.required)).mapM (t.producerForKey ·.key)

def contextKeyFor (t : AgentTable) (agentId : String) : Option String :=
  (t.byAgent? agentId).map (·.contextKey)

def requiredDependencyKeys (t : AgentTable) (agentId : String) : List String :=
  match t.byAgent? agentId with
  | none => []
  | some desc => (desc.consumes.filter (·.required)).map (·.key)

/-- The producers that `agentId` waits for in a plan. -/
def dependenciesWithin (t : AgentTable) (needed : List String) (agentId : String) :
    Except DependencyError (String × List String) :=
  (t.requiredProducers agentId).map fun producers => (agentId, producers.filter (· ∈ needed))

def buildPlan (t : AgentTable) (targets : List String) :
    Except DependencyError (List (List String)) := do
  let needed ← collect (t.agents.map (·.agentId)) .unknownTarget t.requiredProducers
    targets.reverse []
  let deps ← needed.mapM (t.dependenciesWithin needed)
  (staged deps).mapError fun left => .cycle (sorted left)

/-- The consumer hard-depends on the producer. -/
def Requires (t : AgentTable) (consumer producer : String) : Prop :=
  ∃ producers, t.requiredProducers consumer = .ok producers ∧ producer ∈ producers

/-- The producer makes a key that the consumer requires. -/
def Needs (t : AgentTable) (consumer producer : String) : Prop :=
  ∃ key ∈ t.requiredDependencyKeys consumer, t.contextKeyFor producer = some key

/-- The targets, and whatever they need in the end. -/
def Closure (t : AgentTable) (targets : List String) (agentId : String) : Prop :=
  ∃ target ∈ targets, Relation.ReflTransGen t.Needs target agentId

section lookups
variable {t : AgentTable} {desc : AgentDescriptor} {agentId key : String}

theorem byAgent?_eq_some_iff :
    t.byAgent? agentId = some desc ↔ desc ∈ t.agents ∧ desc.agentId = agentId :=
  find?_eq_some_iff t.ids

theorem byKey?_eq_some_iff :
    t.byKey? key = some desc ↔ desc ∈ t.agents ∧ desc.contextKey = key :=
  find?_eq_some_iff t.keys

theorem contextKeyFor_eq_some_iff : t.contextKeyFor agentId = some key ↔
    ∃ desc ∈ t.agents, desc.agentId = agentId ∧ desc.contextKey = key := by
  simp only [contextKeyFor, Option.map_eq_some_iff, byAgent?_eq_some_iff, and_assoc]

theorem contextKeyFor_isSome (h : agentId ∈ t.agents.map (·.agentId)) :
    ∃ key, t.contextKeyFor agentId = some key := by
  obtain ⟨desc, hdesc, rfl⟩ := List.mem_map.mp h
  exact ⟨desc.contextKey, contextKeyFor_eq_some_iff.mpr ⟨desc, hdesc, rfl, rfl⟩⟩

theorem producerForKey_eq_ok_iff {producer : String} : t.producerForKey key = .ok producer ↔
    t.contextKeyFor producer = some key := by
  rw [contextKeyFor_eq_some_iff, producerForKey]
  constructor
  · intro h
    cases hkey : t.byKey? key with
    | none =>
      rw [hkey] at h
      cases h
    | some desc =>
      rw [hkey] at h
      obtain ⟨hdesc, hsame⟩ := byKey?_eq_some_iff.mp hkey
      exact ⟨desc, hdesc, Except.ok.inj h, hsame⟩
  · rintro ⟨desc, hdesc, rfl, hkey⟩
    rw [byKey?_eq_some_iff.mpr ⟨hdesc, hkey⟩]

end lookups

section requires
variable {t : AgentTable} {agentId producer key : String} {producers : List String}

theorem mem_requiredProducers (h : t.requiredProducers agentId = .ok producers) :
    producer ∈ producers ↔ t.Needs agentId producer := by
  rw [requiredProducers] at h
  rw [Needs, requiredDependencyKeys]
  cases hdesc : t.byAgent? agentId with
  | none =>
    rw [hdesc] at h
    cases h
  | some desc =>
    rw [hdesc] at h
    simp only [mem_of_mapM h, producerForKey_eq_ok_iff, List.mem_map]
    constructor
    · rintro ⟨dep, hdep, hkey⟩
      exact ⟨dep.key, ⟨dep, hdep, rfl⟩, hkey⟩
    · rintro ⟨key, ⟨dep, hdep, rfl⟩, hkey⟩
      exact ⟨dep, hdep, hkey⟩

theorem Needs.known (h : t.Needs agentId producer) : producer ∈ t.agents.map (·.agentId) := by
  obtain ⟨key, -, hkey⟩ := h
  obtain ⟨desc, hdesc, rfl, -⟩ := contextKeyFor_eq_some_iff.mp hkey
  exact List.mem_map_of_mem hdesc

theorem Requires.needs (h : t.Requires agentId producer) : t.Needs agentId producer := by
  obtain ⟨producers, hproducers, hmem⟩ := h
  exact (mem_requiredProducers hproducers).mp hmem

/-- The required producers are found where the agent is registered and no required key lacks a
producer. -/
theorem requiredProducers_total_iff : (∃ producers, t.requiredProducers agentId = .ok producers) ↔
    agentId ∈ t.agents.map (·.agentId) ∧
      ∀ key ∈ t.requiredDependencyKeys agentId, ∃ producer, t.contextKeyFor producer = some key := by
  rw [requiredProducers, requiredDependencyKeys]
  cases hdesc : t.byAgent? agentId with
  | none =>
    have hunknown : agentId ∉ t.agents.map (·.agentId) := by
      intro hmem
      obtain ⟨desc, hin, rfl⟩ := List.mem_map.mp hmem
      rw [byAgent?_eq_some_iff.mpr ⟨hin, rfl⟩] at hdesc
      cases hdesc
    simp [hunknown]
  | some desc =>
    obtain ⟨hmem, rfl⟩ := byAgent?_eq_some_iff.mp hdesc
    constructor
    · rintro ⟨producers, hproducers⟩
      refine ⟨List.mem_map_of_mem hmem, fun key hkey => ?_⟩
      obtain ⟨dep, hdep, rfl⟩ := List.mem_map.mp hkey
      obtain ⟨producer, hproducer⟩ := ok_of_mapM hproducers hdep
      exact ⟨producer, producerForKey_eq_ok_iff.mp hproducer⟩
    · rintro ⟨-, hproduced⟩
      refine mapM_total fun dep hdep => ?_
      obtain ⟨producer, hproducer⟩ := hproduced dep.key (List.mem_map_of_mem hdep)
      exact ⟨producer, producerForKey_eq_ok_iff.mpr hproducer⟩

end requires

section dependencies
variable {t : AgentTable} {needed targets : List String} {deps : List (String × List String)}

theorem dependenciesWithin_eq_ok_iff {agentId : String} {dep : String × List String} :
    t.dependenciesWithin needed agentId = .ok dep ↔ ∃ producers,
      t.requiredProducers agentId = .ok producers ∧
        dep = (agentId, producers.filter (· ∈ needed)) := by
  rw [dependenciesWithin]
  cases t.requiredProducers agentId with
  | error e => simp [Except.map]
  | ok producers => simp [Except.map, eq_comm]

theorem mem_dependencies (h : needed.mapM (t.dependenciesWithin needed) = .ok deps)
    {agentId : String} {unmet : List String} (hentry : (agentId, unmet) ∈ deps) :
    agentId ∈ needed ∧ ∀ producer, producer ∈ unmet ↔
      t.Needs agentId producer ∧ producer ∈ needed := by
  obtain ⟨_, hagent, hok⟩ := (mem_of_mapM h).mp hentry
  obtain ⟨producers, hproducers, heq⟩ := dependenciesWithin_eq_ok_iff.mp hok
  obtain ⟨rfl, rfl⟩ := Prod.mk.inj heq
  refine ⟨hagent, fun producer => ?_⟩
  rw [List.mem_filter, mem_requiredProducers hproducers, decide_eq_true_eq]

theorem fst_dependencies (h : needed.mapM (t.dependenciesWithin needed) = .ok deps) :
    deps.map Prod.fst = needed := by
  have hback := map_of_mapM (g := fun dep => some dep.1) h fun agentId dep hdep => by
    obtain ⟨producers, -, rfl⟩ := dependenciesWithin_eq_ok_iff.mp hdep
    rfl
  rwa [← List.filterMap_eq_map]

end dependencies

section buildPlan
variable {t : AgentTable} {needed targets : List String} {deps : List (String × List String)}
  {plan : List (List String)} {agentId producer : String}

/-- How a plan comes about. -/
structure Planned (t : AgentTable) (targets needed : List String)
    (deps : List (String × List String)) (plan : List (List String)) : Prop where
  collected : collect (t.agents.map (·.agentId)) .unknownTarget t.requiredProducers
    targets.reverse [] = .ok needed
  related : needed.mapM (t.dependenciesWithin needed) = .ok deps
  staged : staged deps = .ok plan

theorem mem_collected_iff (h : collect (t.agents.map (·.agentId)) .unknownTarget
    t.requiredProducers targets.reverse [] = .ok needed) :
    agentId ∈ needed ↔ t.Closure targets agentId := by
  obtain ⟨hin, -, hall⟩ := collect_spec h
  constructor
  · refine collect_all (P := t.Closure targets) h ?_ ?_ (by simp) agentId
    · rintro consumer producers ⟨target, htarget, hpath⟩ hproducers producer hproducer
      exact ⟨target, htarget, hpath.tail ((mem_requiredProducers hproducers).mp hproducer)⟩
    · exact fun target htarget => ⟨target, List.mem_reverse.mp htarget, .refl⟩
  · rintro ⟨target, htarget, hpath⟩
    induction hpath with
    | refl => exact hin (List.mem_reverse.mpr htarget)
    | tail _ hneeds ih =>
      rcases hall _ ih with hnil | ⟨-, producers, hproducers, hsub⟩
      · cases hnil
      · exact hsub ((mem_requiredProducers hproducers).mpr hneeds)

theorem requiredProducers_of_collected (h : collect (t.agents.map (·.agentId)) .unknownTarget
    t.requiredProducers targets.reverse [] = .ok needed) (hagent : agentId ∈ needed) :
    ∃ producers, t.requiredProducers agentId = .ok producers := by
  rcases (collect_spec h).2.2 agentId hagent with hnil | ⟨-, producers, hproducers, -⟩
  · cases hnil
  · exact ⟨producers, hproducers⟩

theorem related_of_collected (h : collect (t.agents.map (·.agentId)) .unknownTarget
    t.requiredProducers targets.reverse [] = .ok needed) :
    ∃ deps, needed.mapM (t.dependenciesWithin needed) = .ok deps := by
  refine mapM_total fun agentId hagent => ?_
  obtain ⟨producers, hproducers⟩ := requiredProducers_of_collected h hagent
  exact ⟨_, dependenciesWithin_eq_ok_iff.mpr ⟨producers, hproducers, rfl⟩⟩

theorem buildPlan_eq_ok (h : t.buildPlan targets = .ok plan) :
    ∃ needed deps, t.Planned targets needed deps plan := by
  rw [buildPlan] at h
  cases hneeded : collect (t.agents.map (·.agentId)) .unknownTarget t.requiredProducers
      targets.reverse [] with
  | error e =>
    rw [hneeded] at h
    cases h
  | ok needed =>
    obtain ⟨deps, hdeps⟩ := related_of_collected hneeded
    rw [hneeded] at h
    simp only [bind, Except.bind, hdeps] at h
    cases hstaged : staged deps with
    | error left =>
      rw [hstaged] at h
      cases h
    | ok stages =>
      rw [hstaged] at h
      obtain rfl : stages = plan := Except.ok.inj h
      exact ⟨needed, deps, hneeded, hdeps, hstaged⟩

/-- A plan fails over an agent that is not registered, a key that nobody produces or a cycle. -/
theorem buildPlan_eq_error {e : DependencyError} (h : t.buildPlan targets = .error e) :
    ∃ agentId, t.Closure targets agentId ∧ (agentId ∉ t.agents.map (·.agentId) ∨
      (∃ key ∈ t.requiredDependencyKeys agentId,
        ∀ producer, t.contextKeyFor producer ≠ some key) ∨
      Relation.TransGen t.Needs agentId agentId) := by
  rw [buildPlan] at h
  cases hneeded : collect (t.agents.map (·.agentId)) .unknownTarget t.requiredProducers
      targets.reverse [] with
  | error e =>
    obtain ⟨target, htarget, agentId, hpath, hbad⟩ := collect_error hneeded
    have hneeds : Relation.ReflTransGen t.Needs target agentId :=
      Relation.ReflTransGen.mono (fun _ _ hdemands => Requires.needs hdemands) _ _ hpath
    refine ⟨agentId, ⟨target, List.mem_reverse.mp htarget, hneeds⟩, ?_⟩
    rcases hbad with hunknown | hfailed
    · exact .inl hunknown
    · by_cases hknown : agentId ∈ t.agents.map (·.agentId)
      · refine .inr (.inl ?_)
        by_contra hnone
        push Not at hnone
        obtain ⟨producers, hproducers⟩ := requiredProducers_total_iff.mpr ⟨hknown, hnone⟩
        rw [hfailed] at hproducers
        cases hproducers
      · exact .inl hknown
  | ok needed =>
    obtain ⟨deps, hdeps⟩ := related_of_collected hneeded
    rw [hneeded] at h
    simp only [bind, Except.bind, hdeps] at h
    cases hstaged : staged deps with
    | ok stages =>
      rw [hstaged] at h
      cases h
    | error left =>
      obtain ⟨agentId, hagent, hcycle⟩ := staged_cycle hstaged fun consumer unmet hentry
          producer hproducer => by
        rw [fst_dependencies hdeps]
        exact ((mem_dependencies hdeps hentry).2 producer).mp hproducer
      rw [fst_dependencies hdeps] at hagent
      exact ⟨agentId, (mem_collected_iff hneeded).mp hagent, .inr (.inr hcycle)⟩

theorem Planned.mem_needed (h : t.Planned targets needed deps plan) :
    agentId ∈ needed ↔ t.Closure targets agentId :=
  mem_collected_iff h.collected

theorem Planned.mem_flatten (h : t.Planned targets needed deps plan) :
    agentId ∈ plan.flatten ↔ t.Closure targets agentId := by
  rw [staged_mem h.staged, fst_dependencies h.related, h.mem_needed]

theorem Planned.nodup (h : t.Planned targets needed deps plan) : plan.flatten.Nodup := by
  refine staged_nodup h.staged ?_
  rw [fst_dependencies h.related]
  exact collect_nodup h.collected .nil

theorem Closure.needs (h : t.Closure targets agentId) (hneeds : t.Needs agentId producer) :
    t.Closure targets producer := by
  obtain ⟨target, htarget, hpath⟩ := h
  exact ⟨target, htarget, hpath.tail hneeds⟩

theorem Planned.mem_unmet (h : t.Planned targets needed deps plan) {unmet : List String}
    (hentry : (agentId, unmet) ∈ deps) : producer ∈ unmet ↔ t.Needs agentId producer := by
  obtain ⟨hagent, hunmet⟩ := mem_dependencies h.related hentry
  rw [hunmet, and_iff_left_iff_imp]
  exact fun hneeds => h.mem_needed.mpr ((h.mem_needed.mp hagent).needs hneeds)

/-- An agent comes as early as what it needs allows. -/
theorem Planned.depth (h : t.Planned targets needed deps plan) {i : ℕ} {stage : List String}
    (hstage : plan[i]? = some stage) (hagent : agentId ∈ stage) :
    Descends t.Needs i agentId ∧ ¬ Descends t.Needs (i + 1) agentId := by
  have hin : ∀ consumer ∈ deps.map Prod.fst, ∀ producer, t.Needs consumer producer →
      producer ∈ deps.map Prod.fst := by
    intro consumer hconsumer producer hneeds
    rw [fst_dependencies h.related] at hconsumer ⊢
    exact h.mem_needed.mpr ((h.mem_needed.mp hconsumer).needs hneeds)
  have hdepth := staged_depth h.staged (k := 0) (fun _ _ => trivial) ?_
    (fun consumer hconsumer producer hneeds => .inl (hin consumer hconsumer producer hneeds))
    hstage hagent
  · simpa using hdepth
  · intro consumer unmet hentry producer
    rw [h.mem_unmet hentry, iff_self_and]
    exact hin consumer (List.mem_map_of_mem hentry) producer

theorem Planned.layered (h : t.Planned targets needed deps plan) : Layered t.Requires [] plan := by
  refine staged_layered h.staged fun consumer unmet hentry producer hrequires => ?_
  exact .inr ((h.mem_unmet hentry).mpr hrequires.needs)

end buildPlan

theorem exists_of_mem_requiredDependencyKeys {t : AgentTable} {agentId key : String}
    (h : key ∈ t.requiredDependencyKeys agentId) :
    ∃ desc ∈ t.agents, desc.agentId = agentId ∧
      ∃ dep ∈ desc.consumes, dep.required ∧ dep.key = key := by
  rw [requiredDependencyKeys] at h
  cases hdesc : t.byAgent? agentId with
  | none =>
    rw [hdesc] at h
    cases h
  | some desc =>
    rw [hdesc] at h
    obtain ⟨dep, hdep, rfl⟩ := List.mem_map.mp h
    obtain ⟨hconsumes, hrequired⟩ := List.mem_filter.mp hdep
    obtain ⟨hmember, hid⟩ := byAgent?_eq_some_iff.mp hdesc
    exact ⟨desc, hmember, hid, dep, hconsumes, hrequired, rfl⟩

theorem Requires.exists {t : AgentTable} {consumer producer : String}
    (h : t.Requires consumer producer) :
    ∃ desc ∈ t.agents, desc.agentId = consumer ∧ ∃ dep ∈ desc.consumes, dep.required ∧
      ∃ other ∈ t.agents, other.agentId = producer ∧ other.contextKey = dep.key := by
  obtain ⟨producers, hproducers, hmem⟩ := h
  obtain ⟨key, hkey, hproducer⟩ := (mem_requiredProducers hproducers).mp hmem
  obtain ⟨desc, hmember, hid, dep, hconsumes, hrequired, rfl⟩ :=
    exists_of_mem_requiredDependencyKeys hkey
  exact ⟨desc, hmember, hid, dep, hconsumes, hrequired, contextKeyFor_eq_some_iff.mp hproducer⟩

end AgentTable

namespace Registry
open AgentTable

def byNode? (r : Registry) (node : String) : Option AgentDescriptor :=
  r.agents.find? (·.nodeName = node)

def agentToNode? (r : Registry) (agentId : String) : Option String :=
  (r.byAgent? agentId).map (·.nodeName)

def nodeToAgent? (r : Registry) (node : String) : Option String :=
  (r.byNode? node).map (·.agentId)

/-- What makes every target list plannable. -/
structure Plannable (r : Registry) : Prop where
  acyclic : ∀ agentId, ¬ Relation.TransGen r.Requires agentId agentId
  produced : ∀ desc ∈ r.agents, ∀ dep ∈ desc.consumes, dep.required →
    ∃ producer ∈ r.agents, producer.contextKey = dep.key
  summaryFree : ∀ producer, ¬ r.Requires "J" producer
  summaryLast : ∀ consumer, ¬ r.Requires consumer "J"

section lookups
variable {r : Registry} {desc : AgentDescriptor} {agentId node : String}

theorem byNode?_eq_some_iff :
    r.byNode? node = some desc ↔ desc ∈ r.agents ∧ desc.nodeName = node :=
  find?_eq_some_iff r.nodes

theorem agentToNode?_eq_some_iff : r.agentToNode? agentId = some node ↔
    ∃ desc ∈ r.agents, desc.agentId = agentId ∧ desc.nodeName = node := by
  simp only [agentToNode?, Option.map_eq_some_iff, byAgent?_eq_some_iff, and_assoc]

theorem nodeToAgent?_eq_some_iff : r.nodeToAgent? node = some agentId ↔
    ∃ desc ∈ r.agents, desc.nodeName = node ∧ desc.agentId = agentId := by
  simp only [nodeToAgent?, Option.map_eq_some_iff, byNode?_eq_some_iff, and_assoc]

/-- The two ways between agents and nodes are inverse to each other. -/
theorem nodeToAgent?_iff : r.nodeToAgent? node = some agentId ↔
    r.agentToNode? agentId = some node := by
  rw [nodeToAgent?_eq_some_iff, agentToNode?_eq_some_iff]
  exact exists_congr fun desc => and_congr_right fun _ => and_comm

theorem agentToNode?_isSome (h : agentId ∈ r.agents.map (·.agentId)) :
    ∃ node, r.agentToNode? agentId = some node := by
  obtain ⟨desc, hdesc, rfl⟩ := List.mem_map.mp h
  exact ⟨desc.nodeName, agentToNode?_eq_some_iff.mpr ⟨desc, hdesc, rfl, rfl⟩⟩

end lookups

section Plannable
variable {r : Registry} {agentId producer key : String} {targets : List String}

theorem Plannable.supplied (h : r.Plannable) (hkey : key ∈ r.requiredDependencyKeys agentId) :
    ∃ producer, r.contextKeyFor producer = some key := by
  obtain ⟨desc, hmember, -, dep, hconsumes, hrequired, rfl⟩ :=
    exists_of_mem_requiredDependencyKeys hkey
  obtain ⟨producer, hproducer, hsame⟩ := h.produced desc hmember dep hconsumes hrequired
  exact ⟨producer.agentId, contextKeyFor_eq_some_iff.mpr ⟨producer, hproducer, rfl, hsame⟩⟩

/-- An agent hard-depends on whoever produces one of its required keys. -/
theorem Plannable.requires_of_needs (h : r.Plannable) (hneeds : r.Needs agentId producer) :
    r.Requires agentId producer := by
  have hknown : agentId ∈ r.agents.map (·.agentId) := by
    obtain ⟨key, hkey, -⟩ := hneeds
    obtain ⟨desc, hmem, rfl, -⟩ := exists_of_mem_requiredDependencyKeys hkey
    exact List.mem_map_of_mem hmem
  obtain ⟨producers, hproducers⟩ :=
    requiredProducers_total_iff.mpr ⟨hknown, fun key hkey => h.supplied hkey⟩
  exact ⟨producers, hproducers, (mem_requiredProducers hproducers).mpr hneeds⟩

/-- A plan of registered agents, each in one stage, after everything that it requires. -/
structure Sorted (r : Registry) (plan : List (List String)) : Prop where
  layered : Layered r.Requires [] plan
  once : plan.flatten.Nodup
  known : plan.flatten ⊆ r.agents.map (·.agentId)

theorem Plannable.known (htargets : targets ⊆ r.agents.map (·.agentId))
    (hagent : r.Closure targets agentId) : agentId ∈ r.agents.map (·.agentId) := by
  obtain ⟨target, htarget, hpath⟩ := hagent
  cases hpath with
  | refl => exact htargets htarget
  | tail _ hneeds => exact hneeds.known

theorem Plannable.buildPlan (h : r.Plannable) (htargets : targets ⊆ r.agents.map (·.agentId)) :
    ∃ plan, r.buildPlan targets = .ok plan ∧ r.Sorted plan ∧ targets ⊆ plan.flatten ∧
      ("J" ∉ targets → "J" ∉ plan.flatten) := by
  cases hplan : r.buildPlan targets with
  | error e =>
    obtain ⟨agentId, hagent, hunknown | ⟨key, hkey, hnone⟩ | hcycle⟩ := buildPlan_eq_error hplan
    · exact absurd (Plannable.known htargets hagent) hunknown
    · obtain ⟨producer, hproducer⟩ := h.supplied hkey
      exact absurd hproducer (hnone producer)
    · exact absurd (Relation.TransGen.mono (fun _ _ => h.requires_of_needs) _ _ hcycle)
        (h.acyclic agentId)
  | ok plan =>
    obtain ⟨needed, deps, hplanned⟩ := buildPlan_eq_ok hplan
    refine ⟨plan, rfl, ⟨hplanned.layered, hplanned.nodup, ?_⟩, ?_, ?_⟩
    · exact fun agentId hagent => Plannable.known htargets (hplanned.mem_flatten.mp hagent)
    · exact fun target htarget => hplanned.mem_flatten.mpr ⟨target, htarget, .refl⟩
    · intro hout hin
      obtain ⟨target, htarget, hpath⟩ := hplanned.mem_flatten.mp hin
      cases hpath with
      | refl => exact hout htarget
      | tail _ hneeds => exact h.summaryLast _ (h.requires_of_needs hneeds)

end Plannable

end Registry

def agentRegistry : Registry where
  agents := [
    { agentId := "J", contextKey := "executive_summary", nodeName := "j_summarizer" },
    { agentId := "H", contextKey := "advice", nodeName := "h_advisor",
      consumes := [⟨"forecast", false⟩, ⟨"audit_result", false⟩] },
    { agentId := "G", contextKey := "credit_strategy_result", nodeName := "g_reporter",
      consumes := [⟨"forecast", true⟩, ⟨"audit_result", false⟩] },
    { agentId := "F", contextKey := "audit_result", nodeName := "f_auditor", readOnly := true },
    { agentId := "D", contextKey := "forecast", nodeName := "d_forecaster", readOnly := true },
    { agentId := "E", contextKey := "watchdog_analysis", nodeName := "e_watchdog" },
    { agentId := "C", contextKey := "reconciliation_report", nodeName := "c_reconciler" },
    { agentId := "I", contextKey := "external_data", nodeName := "i_integrator" },
    { agentId := "A", contextKey := "extracted_invoice", nodeName := "a_generator" },
    { agentId := "B", contextKey := "classified_transactions", nodeName := "b_classifier" },
    { agentId := "K", contextKey := "inventory_analysis", nodeName := "k_stockkeeper",
      consumes := [⟨"forecast", false⟩] }]
  ids := by decide
  keys := by decide
  nodes := by decide
  named := by decide
  plain := by decide
  summarizer := ⟨_, .head _, rfl, rfl⟩

/-- The only hard dependency of the registry. -/
theorem agentRegistry_requires {consumer producer : String}
    (h : agentRegistry.Requires consumer producer) : consumer = "G" ∧ producer = "D" := by
  obtain ⟨desc, hdesc, rfl, dep, hdep, hrequired, other, hother, rfl, hkey⟩ := h.exists
  have hconsumer : desc.agentId = "G" ∧ dep.key = "forecast" :=
    (by decide : ∀ desc ∈ agentRegistry.agents, ∀ dep ∈ desc.consumes, dep.required →
      desc.agentId = "G" ∧ dep.key = "forecast") desc hdesc dep hdep hrequired
  have hproducer : other.contextKey = "forecast" → other.agentId = "D" :=
    (by decide : ∀ other ∈ agentRegistry.agents, other.contextKey = "forecast" →
      other.agentId = "D") other hother
  exact ⟨hconsumer.1, hproducer (hkey.trans hconsumer.2)⟩

theorem agentRegistry_plannable : agentRegistry.Plannable where
  acyclic := by
    intro agentId hcycle
    obtain ⟨next, hfirst, -⟩ := Relation.TransGen.head'_iff.mp hcycle
    obtain ⟨last, -, hlast⟩ := Relation.TransGen.tail'_iff.mp hcycle
    have hconsumer := (agentRegistry_requires hfirst).1
    have hproducer := (agentRegistry_requires hlast).2
    rw [hconsumer] at hproducer
    exact absurd hproducer (by decide)
  produced := by decide
  summaryFree _ h := absurd (agentRegistry_requires h).1 (by decide)
  summaryLast _ h := absurd (agentRegistry_requires h).2 (by decide)

/-! What an agent may reach with each of its tools. -/

inductive ToolKind where
  | sql
  | http
  | events
  | mongo
deriving DecidableEq

structure ToolGrant where
  tool : ToolKind
  allowed : Finset String

/-- `fxHost` is the host name of the configured rate provider, empty where there is none. -/
def toolGrants (fxHost : String) : String → List ToolGrant
  | "D" => [⟨.sql, {"ledger_entries", "invoices", "budgets", "expenses"}⟩]
  | "K" => [⟨.sql, {"products", "stock_levels", "stock_movements"}⟩]
  | "E" => [⟨.sql, {"ledger_entries", "invoices"}⟩, ⟨.events, {"finguard.intelligence"}⟩]
  | "I" => [⟨.http, {fxHost, "sandbox.safaricom.co.ke", "api.metropol.co.ke", "itax.kra.go.ke"}⟩]
  | _ => []

def grant (fxHost agentId : String) (tool : ToolKind) : Finset String :=
  (((toolGrants fxHost agentId).filter (·.tool = tool)).map (·.allowed)).foldl (· ∪ ·) ∅

def allowedSqlTables (fxHost agentId : String) : Finset String := grant fxHost agentId .sql

def allowedHttpHosts (fxHost agentId : String) : Finset String := grant fxHost agentId .http

end Finguard
