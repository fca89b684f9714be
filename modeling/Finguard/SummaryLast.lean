import Finguard.ReplanRequests

/-! When the executive summary comes after everything that a run has produced. -/

namespace Finguard
open Lookup Runs Staging

namespace PlannerState

def Dispatches (s : PlannerState) (node : String) : Prop :=
  s.position = .agents ∧ node ∈ s.context.currentDispatch

/-- An agent other than the summarizer is about to produce a new output. -/
def Productive (s : PlannerState) (outcomes : String → AgentOutcome) : Prop :=
  ∃ node, s.Dispatches node ∧ node ≠ "j_summarizer" ∧ (outcomes node).produced.isSome

instance (s : PlannerState) (node : String) : Decidable (s.Dispatches node) :=
  inferInstanceAs (Decidable (_ ∧ _))

instance (s : PlannerState) (outcomes : String → AgentOutcome) :
    Decidable (s.Productive outcomes) :=
  decidable_of_iff (∃ node ∈ s.context.currentDispatch, s.position = .agents ∧
    node ≠ "j_summarizer" ∧ (outcomes node).produced.isSome)
    (exists_congr fun _ => by rw [Dispatches]; tauto)

end PlannerState

namespace Registry

/-- The summary is there. -/
def Summarized (r : Registry) (ctx : PlannerContext) : Prop :=
  ∃ key ∈ r.contextKeyFor "J", ctx.has key

variable {r : Registry} {ctx : PlannerContext} {stages plan : List (List String)}
  {outcomes : String → AgentOutcome} {s : PlannerState}

theorem contextKeyFor_summarizer (r : Registry) : ∃ key, r.contextKeyFor "J" = some key :=
  AgentTable.contextKeyFor_isSome r.summarizer_known

/-- The summarizer is only ever skipped because its output is there. -/
theorem Plannable.skipReason?_summarizer (h : r.Plannable) (habsent : ¬ r.Summarized ctx) :
    r.skipReason? ctx "J" = none := by
  obtain ⟨key, hkey⟩ := r.contextKeyFor_summarizer
  have hmissing : ctx.has key = false := by
    by_contra hpresent
    exact habsent ⟨key, hkey, by simpa using hpresent⟩
  have hfree : r.requiredDependencyKeys "J" = [] := by
    refine List.eq_nil_iff_forall_not_mem.mpr fun needed hneeded => ?_
    obtain ⟨producer, hproducer⟩ := h.supplied hneeded
    exact h.summaryFree producer (h.requires_of_needs ⟨needed, hneeded, hproducer⟩)
  simp [skipReason?, hkey, hmissing, hfree]

theorem outputs_foldl_mergeContext (ctx : PlannerContext) (updates : List AgentUpdate) :
    (updates.foldl mergeContext ctx).outputs =
      (updates.map (·.outputs)).foldl Json.Fields.merge ctx.outputs := by
  induction updates generalizing ctx with
  | nil => rfl
  | cons update updates ih =>
    rw [List.foldl_cons, ih]
    rfl

theorem plan_foldl_mergeContext (ctx : PlannerContext) (updates : List AgentUpdate) :
    (updates.foldl mergeContext ctx).plan = ctx.plan ∧
      (updates.foldl mergeContext ctx).stage = ctx.stage := by
  induction updates generalizing ctx with
  | nil => exact ⟨rfl, rfl⟩
  | cons update updates ih =>
    rw [List.foldl_cons]
    exact ih (mergeContext ctx update)

theorem summarized_of_agents (habsent : ¬ r.Summarized ctx) {nodes : List String}
    (hnodes : "j_summarizer" ∉ nodes) :
    ¬ r.Summarized ((nodes.map fun node => r.agentUpdate ctx node (outcomes node)).foldl
      mergeContext ctx) := by
  rintro ⟨key, hkey, hpresent⟩
  refine habsent ⟨key, hkey, ?_⟩
  have hother : ∀ update ∈ (nodes.map fun node => (r.agentUpdate ctx node (outcomes node)).outputs),
      ∀ field ∈ update, field.1 ≠ key := by
    intro update hupdate field hfield
    obtain ⟨node, hnode, rfl⟩ := List.mem_map.mp hupdate
    rw [agentUpdate] at hfield
    rintro rfl
    cases hdesc : r.byNode? node with
    | none => simp [hdesc] at hfield
    | some desc =>
      cases hproduced : (outcomes node).produced with
      | none => simp [hproduced] at hfield
      | some value =>
        obtain rfl : field = (desc.contextKey, value) := by
          simpa [hdesc, hproduced] using hfield
        obtain ⟨hmem, rfl⟩ := byNode?_eq_some_iff.mp hdesc
        obtain ⟨other, hother, hid, hsame⟩ := AgentTable.contextKeyFor_eq_some_iff.mp hkey
        have hdescs : other = desc :=
          List.inj_on_of_nodup_map r.keys hother hmem hsame
        have hnamed : r.agentToNode? "J" = some desc.nodeName :=
          agentToNode?_eq_some_iff.mpr ⟨desc, hmem, by rw [← hdescs, hid], rfl⟩
        rw [agentToNode?_summarizer, Option.some.injEq] at hnamed
        rw [← hnamed] at hnode
        exact hnodes hnode
  have houtputs := outputs_foldl_mergeContext ctx
    (nodes.map fun node => r.agentUpdate ctx node (outcomes node))
  rw [PlannerContext.has, houtputs, List.map_map] at hpresent
  rw [PlannerContext.has, ← Json.Fields.get?_foldl_merge hother]
  exact hpresent

theorem has_next [PlannerSettings] (outcomes : String → AgentOutcome) (s : PlannerState)
    {key : String} (h : s.context.has key) : (r.next outcomes s).context.has key := by
  obtain ⟨ctx, position, history⟩ := s
  cases position with
  | planner =>
    simp only [Registry.next]
    cases hnode : r.plannerNode ctx with
    | error e => exact h
    | ok after =>
      obtain ⟨base, plan, upto, hentered, hdispatch⟩ := plannerNode_eq_ok hnode
      obtain ⟨stage, dispatch, skipped, -, rfl⟩ := dispatchStage_eq_ok hdispatch
      cases hentered <;> exact h
  | agents =>
    simp only [Registry.next, PlannerContext.has, outputs_foldl_mergeContext]
    exact Json.Fields.isSome_foldl_merge h
  | supervisor => exact h
  | ended => exact h
  | failed error => exact h

/-- A plan whose last stage is that of the summarizer, who comes nowhere else. -/
structure Closing (r : Registry) (plan stages : List (List String)) : Prop where
  plan_eq : plan = stages ++ [["J"]]
  known : plan.flatten ⊆ r.agents.map (·.agentId)
  elsewhere : "J" ∉ stages.flatten

theorem Plannable.closing (h : r.Plannable) {targets : List String}
    (hbuild : r.buildFullPlan targets = .ok plan) : ∃ stages, r.Closing plan stages := by
  obtain ⟨stages, rfl⟩ := buildFullPlan_eq_ok hbuild
  obtain ⟨plan, hplan, hsorted, -⟩ := h.buildFullPlan targets
  obtain rfl : stages ++ [["J"]] = plan := Except.ok.inj (hbuild.symm.trans hplan)
  refine ⟨stages, rfl, hsorted.known, fun hin => ?_⟩
  have honce := hsorted.once
  rw [List.flatten_append, List.nodup_append] at honce
  exact honce.2.2 "J" hin "J" (by simp) rfl

/-- Every plan of a run closes with the summary, and the batch that runs belongs to the current
stage and lacks its outputs. -/
structure Tidy (r : Registry) (s : PlannerState) : Prop where
  plan : ∀ plan, s.context.plan = some plan → ∃ stages, r.Closing plan stages
  batch : s.position = .agents → ∃ plan agents, s.context.plan = some plan ∧
    plan[s.context.stage]? = some agents ∧ ∀ node ∈ s.context.currentDispatch,
      ∃ agentId ∈ agents, r.nodeToAgent? node = some agentId ∧
        r.skipReason? s.context agentId = none

/-- A visit to the planner: the plan that it works on, and what it makes of the stages left. -/
theorem Plannable.visit [PlannerSettings] (h : r.Plannable) {before after : PlannerContext}
    (hplans : ∀ plan, before.plan = some plan → ∃ stages, r.Closing plan stages)
    (hnode : r.plannerNode before = .ok after) :
    ∃ ctx plan stages upto passed batch dispatch skipped, r.Entered before ctx plan upto ∧
      r.Closing plan stages ∧ ctx.plan = some plan ∧
      after = ctx.resolved (upto + passed) dispatch skipped ∧
      batch.mapM r.nodeOf = .ok dispatch ∧ Advance r ctx (plan.drop upto) passed batch skipped ∧
      (dispatch = [] → ∀ agents ∈ plan.drop upto, ∀ agentId ∈ agents,
        (r.skipReason? ctx agentId).isSome) := by
  obtain ⟨ctx, plan, upto, hentered, hdispatch⟩ := plannerNode_eq_ok hnode
  obtain ⟨stage, dispatch, skipped, hthrough, rfl⟩ := dispatchStage_eq_ok hdispatch
  have hclosing : (∃ stages, r.Closing plan stages) ∧ ctx.plan = some plan := by
    cases hentered with
    | first hplan hbuild => exact ⟨h.closing hbuild, rfl⟩
    | again hplan hdrained hasked hleft hbuild => exact ⟨h.closing hbuild, rfl⟩
    | next hplan hkept => exact ⟨hplans plan hplan, hplan⟩
  obtain ⟨⟨stages, hclosing⟩, hplan⟩ := hclosing
  have hknown : (plan.drop upto).flatten ⊆ r.agents.map (·.agentId) := by
    intro agentId hagent
    obtain ⟨agents, hagents, hin⟩ := List.mem_flatten.mp hagent
    exact hclosing.known (List.mem_flatten.mpr ⟨agents, List.mem_of_mem_drop hagents, hin⟩)
  obtain ⟨passed, batch, dispatch', skipped', hthrough', hnodes, hadvance⟩ :=
    advanceThrough_spec ctx upto hknown
  rw [hthrough', Except.ok.injEq, Prod.mk.injEq, Prod.mk.injEq] at hthrough
  obtain ⟨rfl, rfl, rfl⟩ := hthrough
  exact ⟨ctx, plan, stages, upto, passed, batch, dispatch', skipped', hentered, hclosing, hplan,
    rfl, hnodes, hadvance, (dispatch_eq_nil_iff hthrough').mp⟩

theorem Tidy.next [PlannerSettings] (h : r.Tidy s) (hplannable : r.Plannable)
    (outcomes : String → AgentOutcome) : r.Tidy (r.next outcomes s) := by
  obtain ⟨ctx, position, history⟩ := s
  cases position with
  | planner =>
    simp only [Registry.next]
    cases hnode : r.plannerNode ctx with
    | error e => exact ⟨h.plan, fun hrunning => by cases hrunning⟩
    | ok after =>
      obtain ⟨base, plan, stages, upto, passed, batch, dispatch, skipped, -, hclosing, hplan, rfl,
        hnodes, hadvance, -⟩ := hplannable.visit h.plan hnode
      refine ⟨fun plan' hplan' => ?_, fun hrunning => ?_⟩
      · obtain rfl : plan = plan' := Option.some.inj (hplan.symm.trans hplan')
        exact ⟨stages, hclosing⟩
      · cases hadvance with
        | drained hskipped =>
          obtain rfl : [] = dispatch := Except.ok.inj hnodes
          cases hrunning
        | @stage passed later agents _ _ hstages hpassed hagents hsub hruns hne =>
          refine ⟨plan, agents, hplan, ?_, fun node hmem => ?_⟩
          · show plan[upto + passed.length]? = some agents
            rw [← List.getElem?_drop, hstages]
            simp
          · obtain ⟨agentId, hagent, hfound⟩ := (mem_of_mapM hnodes).mp hmem
            exact ⟨agentId, hsub.subset hagent, nodeOf_eq_ok_iff.mp hfound, hruns agentId hagent⟩
  | agents =>
    simp only [Registry.next]
    refine ⟨fun plan hplan => h.plan plan ?_, fun hrunning => ?_⟩
    · rwa [(plan_foldl_mergeContext ctx _).1] at hplan
    · simp only [afterHubWriter] at hrunning
      split at hrunning <;> cases hrunning
  | supervisor => exact h
  | ended => exact h
  | failed error => exact h

/-- The summary is still to come. -/
structure SummaryAhead (r : Registry) (s : PlannerState) : Prop where
  running : s.position ≠ .ended
  ahead : ∃ stages, s.context.plan = some (stages ++ [["J"]]) ∧
    r.Closing (stages ++ [["J"]]) stages ∧ s.context.stage < stages.length
  absent : ¬ r.Summarized s.context
  other : s.position = .agents → "j_summarizer" ∉ s.context.currentDispatch

theorem nodeToAgent?_summarizer (r : Registry) : r.nodeToAgent? "j_summarizer" = some "J" :=
  nodeToAgent?_iff.mpr r.agentToNode?_summarizer

theorem Tidy.summaryAhead (h : r.Tidy s) (hproductive : s.Productive outcomes)
    (habsent : ¬ r.Summarized s.context) : r.SummaryAhead s := by
  obtain ⟨node, ⟨hposition, hnode⟩, hne, -⟩ := hproductive
  obtain ⟨plan, agents, hplan, hagents, hmembers⟩ := h.batch hposition
  obtain ⟨stages, hclosing⟩ := h.plan plan hplan
  obtain rfl := hclosing.plan_eq
  have hstage : s.context.stage < stages.length := by
    by_contra hlast
    obtain ⟨agentId, hagent, hfound, -⟩ := hmembers node hnode
    rw [List.getElem?_append_right (by omega), List.getElem?_singleton] at hagents
    split at hagents
    · obtain rfl := Option.some.inj hagents
      obtain rfl := List.mem_singleton.mp hagent
      rw [nodeToAgent?_iff, agentToNode?_summarizer, Option.some.injEq] at hfound
      exact hne hfound.symm
    · cases hagents
  refine ⟨by rw [hposition]; simp, ⟨stages, hplan, hclosing, hstage⟩, habsent, fun _ hin => ?_⟩
  obtain ⟨agentId, hagent, hfound, -⟩ := hmembers "j_summarizer" hin
  obtain rfl : "J" = agentId := by
    rw [nodeToAgent?_summarizer, Option.some.injEq] at hfound
    exact hfound
  rw [List.getElem?_append_left hstage] at hagents
  exact hclosing.elsewhere (List.mem_flatten.mpr ⟨agents, List.mem_of_getElem? hagents, hagent⟩)

/-- Until the summarizer is dispatched, the summary stays ahead. -/
theorem SummaryAhead.next [PlannerSettings] (h : r.SummaryAhead s) (hplannable : r.Plannable)
    (outcomes : String → AgentOutcome) :
    (r.next outcomes s).Dispatches "j_summarizer" ∨ r.SummaryAhead (r.next outcomes s) := by
  obtain ⟨ctx, position, history⟩ := s
  obtain ⟨hrunning, ⟨stages, hplan, hclosing, hstage⟩, habsent, hother⟩ := h
  dsimp only at hplan hstage habsent hother
  cases position with
  | planner =>
    simp only [Registry.next]
    cases hnode : r.plannerNode ctx with
    | error e => exact .inr ⟨by simp, ⟨stages, hplan, hclosing, hstage⟩, habsent, by simp⟩
    | ok after =>
      have hplans : ∀ plan, ctx.plan = some plan → ∃ stages, r.Closing plan stages := by
        intro plan hplan'
        obtain rfl := Option.some.inj (hplan.symm.trans hplan')
        exact ⟨stages, hclosing⟩
      obtain ⟨base, plan, stages', upto, passed, batch, dispatch, skipped, hentered, -, -, rfl,
        hnodes, hadvance, hskips⟩ := hplannable.visit hplans hnode
      -- the plan is not drained yet, so it is neither the first one nor made again
      obtain ⟨rfl, rfl, rfl⟩ : base = ctx ∧ plan = stages ++ [["J"]] ∧ upto = ctx.stage + 1 := by
        cases hentered with
        | first hnone hbuild =>
          rw [hplan] at hnone
          cases hnone
        | again hplan' hdrained hasked hleft hbuild =>
          obtain rfl := Option.some.inj (hplan.symm.trans hplan')
          rw [List.length_append, List.length_singleton] at hdrained
          omega
        | next hplan' hkept => exact ⟨rfl, Option.some.inj (hplan'.symm.trans hplan), rfl⟩
      have hrest : (stages ++ [["J"]]).drop (base.stage + 1) =
          stages.drop (base.stage + 1) ++ [["J"]] := List.drop_append_of_le_length (by omega)
      cases hadvance with
      | drained hskipped =>
        obtain rfl : [] = dispatch := Except.ok.inj hnodes
        have hsummary := hskips rfl ["J"] (by rw [hrest]; simp) "J" (by simp)
        rw [hplannable.skipReason?_summarizer habsent] at hsummary
        cases hsummary
      | @stage passed later agents _ _ hstages hpassed hagents hsub hruns hne =>
        have hagents : (stages ++ [["J"]])[base.stage + 1 + passed.length]? = some agents := by
          rw [← List.getElem?_drop, hstages]
          simp
        have hposition : plannerDispatch (base.resolved (base.stage + 1 + passed.length) dispatch
            skipped) = .agents := by
          have hlength := (mapM_ok_iff.mp hnodes).length_eq
          cases dispatch with
          | nil => exact absurd (List.length_eq_zero_iff.mp hlength) hne
          | cons node rest => rfl
        dsimp only
        rw [hposition]
        by_cases hlast : base.stage + 1 + passed.length < stages.length
        · refine .inr ⟨by simp, ⟨stages, hplan, hclosing, hlast⟩, habsent, fun _ hin => ?_⟩
          obtain ⟨agentId, hagent, hfound⟩ := (mem_of_mapM hnodes).mp hin
          obtain rfl : "J" = agentId := by
            have hnode := nodeOf_eq_ok_iff.mp hfound
            rw [nodeToAgent?_summarizer, Option.some.injEq] at hnode
            exact hnode
          rw [List.getElem?_append_left hlast] at hagents
          exact hclosing.elsewhere (List.mem_flatten.mpr
            ⟨agents, List.mem_of_getElem? hagents, hsub.subset hagent⟩)
        · -- the stage is the last one, so the batch is the summarizer
          rw [List.getElem?_append_right (by omega), List.getElem?_singleton] at hagents
          split at hagents
          · obtain rfl := Option.some.inj hagents
            obtain ⟨agentId, hagent⟩ := List.exists_mem_of_ne_nil batch hne
            obtain rfl : agentId = "J" := List.mem_singleton.mp (hsub.subset hagent)
            refine .inl ⟨rfl, (mem_of_mapM hnodes).mpr ⟨"J", hagent, ?_⟩⟩
            exact nodeOf_eq_ok_iff.mpr r.nodeToAgent?_summarizer
          · cases hagents
  | agents =>
    simp only [Registry.next]
    have hkept := plan_foldl_mergeContext ctx
      (ctx.currentDispatch.map fun node => r.agentUpdate ctx node (outcomes node))
    refine .inr ⟨?_, ⟨stages, ?_, hclosing, ?_⟩, summarized_of_agents habsent (hother rfl), ?_⟩
    · simp only [afterHubWriter]
      split <;> simp
    · rw [← hplan]
      exact hkept.1
    · rw [← hkept.2] at hstage
      exact hstage
    · simp only [afterHubWriter]
      split <;> simp
  | supervisor => exact .inr ⟨hrunning, ⟨stages, hplan, hclosing, hstage⟩, habsent, hother⟩
  | ended => exact absurd rfl hrunning
  | failed error => exact .inr ⟨hrunning, ⟨stages, hplan, hclosing, hstage⟩, habsent, hother⟩

end Registry

end Finguard
