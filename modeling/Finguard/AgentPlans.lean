import Finguard.AgentRegistry

/-! Plans over any table of agents: when one fails, what it contains, and how early each agent
comes. -/

namespace Finguard
open Staging

namespace AgentTable
variable {t : AgentTable} {targets needed : List String} {deps : List (String × List String)}
  {plan : List (List String)} {agentId : String}

/-- What a plan fails over, in what the targets need. -/
inductive Broken (t : AgentTable) (agentId : String) : Prop
  | unknown (h : agentId ∉ t.agents.map (·.agentId))
  | unproduced (key : String) (hkey : key ∈ t.requiredDependencyKeys agentId)
    (h : ∀ producer, t.contextKeyFor producer ≠ some key)
  | cyclic (h : Relation.TransGen t.Needs agentId agentId)

/-- The number of its stage is the length of the longest chain of needs below an agent. -/
def AtDepth (t : AgentTable) (plan : List (List String)) : Prop :=
  ∀ (i : ℕ) (stage : List String), plan[i]? = some stage → ∀ agentId ∈ stage,
    IsGreatest {n | Descends t.Needs n agentId} i

def ProducersFirst (t : AgentTable) (plan : List (List String)) : Prop :=
  ∀ (i : ℕ) (stage : List String), plan[i]? = some stage → ∀ consumer ∈ stage,
    ∀ producer, t.Needs consumer producer →
      ∃ j < i, ∃ earlier, plan[j]? = some earlier ∧ producer ∈ earlier

theorem Planned.atDepth (h : t.Planned targets needed deps plan) : t.AtDepth plan := by
  intro i stage hstage agentId hagent
  obtain ⟨hdeep, hshallow⟩ := h.depth hstage hagent
  refine ⟨hdeep, fun n hn => ?_⟩
  by_contra hlt
  have hchain : Descends t.Needs (i + 1) agentId := Descends.le (by omega) hn
  exact hshallow hchain

theorem Planned.exists_stage (h : t.Planned targets needed deps plan)
    (hagent : t.Closure targets agentId) :
    ∃ i : ℕ, ∃ stage, plan[i]? = some stage ∧ agentId ∈ stage := by
  obtain ⟨stage, hstage, hmem⟩ := List.mem_flatten.mp (h.mem_flatten.mpr hagent)
  obtain ⟨i, hi⟩ := List.mem_iff_getElem?.mp hstage
  exact ⟨i, stage, hi, hmem⟩

theorem Planned.producersFirst (h : t.Planned targets needed deps plan) :
    t.ProducersFirst plan := by
  intro i stage hstage consumer hconsumer producer hneeds
  have hclosed : t.Closure targets consumer :=
    h.mem_flatten.mp (List.mem_flatten.mpr ⟨stage, List.mem_of_getElem? hstage, hconsumer⟩)
  obtain ⟨j, earlier, hearlier, hproducer⟩ := h.exists_stage (hclosed.needs hneeds)
  -- a chain below the producer is one step longer below the consumer
  have hchain : Descends t.Needs (j + 1) consumer :=
    ⟨producer, hneeds, (h.depth hearlier hproducer).1⟩
  have hlt : j + 1 ≤ i := (h.atDepth i stage hstage consumer hconsumer).2 hchain
  exact ⟨j, by omega, earlier, hearlier, hproducer⟩

theorem Planned.not_broken (h : t.Planned targets needed deps plan)
    (hagent : t.Closure targets agentId) : ¬ t.Broken agentId := by
  have hneeded : agentId ∈ needed := h.mem_needed.mpr hagent
  have htotal := requiredProducers_total_iff.mp (requiredProducers_of_collected h.collected hneeded)
  rintro (hunknown | ⟨key, hkey, hnone⟩ | hcycle)
  · exact hunknown htotal.1
  · obtain ⟨producer, hproducer⟩ := htotal.2 key hkey
    exact hnone producer hproducer
  · obtain ⟨i, stage, hstage, hmem⟩ := h.exists_stage hagent
    exact (h.depth hstage hmem).2 (descends_of_cycle hcycle (i + 1))

end AgentTable

/-- Over every table of agents, a plan fails just where something that the targets need is
unknown, lacks a producer or needs itself. Otherwise its stages are made up of what the targets
need, each agent as early as its producers allow. -/
theorem buildPlan_correct (t : AgentTable) (targets : List String) :
    ((∃ e, t.buildPlan targets = .error e) ↔
      ∃ agentId, t.Closure targets agentId ∧ t.Broken agentId) ∧
    ∀ plan, t.buildPlan targets = .ok plan →
      (∀ stage ∈ plan, stage ≠ []) ∧ plan.flatten.Nodup ∧
        (∀ agentId, agentId ∈ plan.flatten ↔ t.Closure targets agentId) ∧
        t.ProducersFirst plan ∧ t.AtDepth plan := by
  refine ⟨⟨?_, ?_⟩, ?_⟩
  · rintro ⟨e, he⟩
    obtain ⟨agentId, hagent, hunknown | ⟨key, hkey, hnone⟩ | hcycle⟩ :=
      AgentTable.buildPlan_eq_error he
    · exact ⟨agentId, hagent, .unknown hunknown⟩
    · exact ⟨agentId, hagent, .unproduced key hkey hnone⟩
    · exact ⟨agentId, hagent, .cyclic hcycle⟩
  · rintro ⟨agentId, hagent, hbroken⟩
    cases hplan : t.buildPlan targets with
    | error e => exact ⟨e, rfl⟩
    | ok plan =>
      obtain ⟨needed, deps, hplanned⟩ := AgentTable.buildPlan_eq_ok hplan
      exact absurd hbroken (hplanned.not_broken hagent)
  · intro plan hplan
    obtain ⟨needed, deps, hplanned⟩ := AgentTable.buildPlan_eq_ok hplan
    exact ⟨staged_ne_nil hplanned.staged, hplanned.nodup, fun _ => hplanned.mem_flatten,
      hplanned.producersFirst, hplanned.atDepth⟩

end Finguard
