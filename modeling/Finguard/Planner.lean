import Finguard.AgentRegistry
import Finguard.Lib.Json
import Finguard.Lib.Runs

/-! The planner, which dispatches the stages of a plan one after the other. Its place in the plan
is kept in the context, together with the outputs of the agents. -/

namespace Finguard
open Runs Staging

class PlannerSettings where
  maxReplans : ℕ

/-- The context. What the planner keeps under its own keys has fields of its own here. -/
structure PlannerContext where
  outputs : Json.Fields := []
  plan : Option (List (List String)) := none
  stage : ℕ := 0
  currentDispatch : List String := []
  plannerSkipped : List (String × String) := []
  plannerTargets : List String := []
  replanTargets : List String := []
  replansUsed : ℕ := 0
  plannerDone : Bool := false

def PlannerContext.has (ctx : PlannerContext) (key : String) : Bool :=
  (ctx.outputs.get? key).isSome

/-- The planner's update for a stage. -/
def PlannerContext.resolved (ctx : PlannerContext) (stage : ℕ) (dispatch : List String)
    (newlySkipped : List (String × String)) : PlannerContext :=
  { ctx with
    stage
    currentDispatch := dispatch
    plannerSkipped := ctx.plannerSkipped ++ newlySkipped
    plannerDone := dispatch.isEmpty || ctx.plannerDone }

structure StageResolution where
  run : List String
  skipped : List (String × String)

inductive PlannerError where
  | dependency (error : DependencyError)
  | noNode (agentId : String)
deriving DecidableEq

namespace Registry
variable (r : Registry)

def buildFullPlan (targetNodes : List String) : Except DependencyError (List (List String)) :=
  let ids := ((targetNodes.filter (· ≠ "j_summarizer")).filterMap r.nodeToAgent?).dedup
  let stages := if ids.isEmpty then .ok [] else r.buildPlan ids
  stages.map (·.map sorted ++ [["J"]])

/-- Why an agent is skipped. -/
def skipReason? (ctx : PlannerContext) (agentId : String) : Option String :=
  if (r.contextKeyFor agentId).any ctx.has then some "already_produced"
  else
    let missing := (r.requiredDependencyKeys agentId).filter (!ctx.has ·)
    if missing.isEmpty then none else some ("missing_required:" ++ ",".intercalate missing)

def resolveStage (stageAgents : List String) (ctx : PlannerContext) : StageResolution where
  run := stageAgents.filter fun agentId => (r.skipReason? ctx agentId).isNone
  skipped := stageAgents.filterMap fun agentId => (r.skipReason? ctx agentId).map (agentId, ·)

def nodeOf (agentId : String) : Except PlannerError String :=
  match r.agentToNode? agentId with
  | none => .error (.noNode agentId)
  | some node => .ok node

/-- The loop over the stages that are left. -/
def advanceThrough (ctx : PlannerContext) : ℕ → List (List String) →
    Except PlannerError (ℕ × List String × List (String × String))
  | stage, [] => .ok (stage, [], [])
  | stage, agents :: later =>
    let res := r.resolveStage agents ctx
    if res.run.isEmpty then
      (advanceThrough ctx (stage + 1) later).map fun (stage, dispatch, skipped) =>
        (stage, dispatch, res.skipped ++ skipped)
    else (res.run.mapM r.nodeOf).map fun dispatch => (stage, dispatch, res.skipped)

def advanceToNextRunnable (plan : List (List String)) (stage : ℕ) (ctx : PlannerContext) :
    Except PlannerError (ℕ × List String × List (String × String)) :=
  r.advanceThrough ctx stage (plan.drop stage)

/-- The plan, and the stage to look at next. -/
def enterPlan (ctx : PlannerContext) :
    Except PlannerError (PlannerContext × List (List String) × ℕ) :=
  match ctx.plan with
  | none =>
    match r.buildFullPlan ctx.plannerTargets with
    | .error e => .error (.dependency e)
    | .ok plan => .ok ({ ctx with plan := some plan }, plan, 0)
  | some plan => .ok (ctx, plan, ctx.stage + 1)

/-- Once a plan is drained, the targets that were asked for meanwhile are planned with the
earlier ones. -/
def replan [PlannerSettings] (ctx : PlannerContext) (plan : List (List String)) (stage : ℕ) :
    Except PlannerError (PlannerContext × List (List String) × ℕ) :=
  if plan.length ≤ stage ∧ ctx.replanTargets ≠ [] ∧
      ctx.replansUsed < PlannerSettings.maxReplans then
    let merged := ctx.plannerTargets ++ ctx.replanTargets
    match r.buildFullPlan merged with
    | .error e => .error (.dependency e)
    | .ok plan =>
      .ok ({ ctx with
        plan := some plan
        plannerTargets := merged
        replansUsed := ctx.replansUsed + 1
        replanTargets := [] }, plan, 0)
  else .ok (ctx, plan, stage)

def dispatchStage (ctx : PlannerContext) (plan : List (List String)) (stage : ℕ) :
    Except PlannerError PlannerContext :=
  (r.advanceToNextRunnable plan stage ctx).map fun (stage, dispatch, newlySkipped) =>
    ctx.resolved stage dispatch newlySkipped

def plannerNode [PlannerSettings] (ctx : PlannerContext) : Except PlannerError PlannerContext := do
  let (ctx, plan, stage) ← r.enterPlan ctx
  let (ctx, plan, stage) ← r.replan ctx plan stage
  r.dispatchStage ctx plan stage

end Registry

inductive PlannerPosition where
  | planner
  | agents
  | supervisor
  | ended
  | failed (error : PlannerError)
deriving DecidableEq

/-- The edge out of the planner. -/
def plannerDispatch (ctx : PlannerContext) : PlannerPosition :=
  if ctx.currentDispatch.isEmpty then .ended else .agents

def afterHubWriter (ctx : PlannerContext) : PlannerPosition :=
  if ctx.plan.isSome && !ctx.plannerDone then .planner else .supervisor

structure AgentOutcome where
  produced : Option Json := none
  replanTargets : List String := []

/-- A context update, key by key. -/
structure AgentUpdate where
  outputs : Json.Fields
  replanTargets : Option (List String)

def mergeContext (ctx : PlannerContext) (update : AgentUpdate) : PlannerContext :=
  { ctx with
    outputs := ctx.outputs.merge update.outputs
    replanTargets := update.replanTargets.getD ctx.replanTargets }

/-- What the agent at a node makes of the context that it was dispatched with. -/
def Registry.agentUpdate (r : Registry) (ctx : PlannerContext) (node : String)
    (outcome : AgentOutcome) : AgentUpdate where
  outputs :=
    match r.byNode? node, outcome.produced with
    | some desc, some value => [(desc.contextKey, value)]
    | _, _ => []
  replanTargets :=
    if outcome.replanTargets.isEmpty then none else some (ctx.replanTargets ++ outcome.replanTargets)

/-- What has become of one plan: the agents that were skipped, and the batches that were
dispatched, the latest first. -/
structure PlanRecord where
  plan : List (List String)
  skipped : List String := []
  batches : List (List String) := []

def PlanRecord.resolved (record : PlanRecord) (batch : List String)
    (newlySkipped : List (String × String)) : PlanRecord :=
  { record with
    skipped := record.skipped ++ newlySkipped.map Prod.fst
    batches := batch :: record.batches }

/-- The latest record comes first. -/
structure PlannerState where
  context : PlannerContext
  position : PlannerPosition := .planner
  history : List PlanRecord := []

namespace Registry
variable (r : Registry)

/-- The record of a visit to the planner. -/
def record (before after : PlannerContext) (history : List PlanRecord) : List PlanRecord :=
  let batch := after.currentDispatch.filterMap r.nodeToAgent?
  let newlySkipped := after.plannerSkipped.drop before.plannerSkipped.length
  if before.plan.isNone || before.replansUsed < after.replansUsed then
    (⟨after.plan.getD [], [], []⟩ : PlanRecord).resolved batch newlySkipped :: history
  else history.modifyHead (·.resolved batch newlySkipped)

/-- One step through the graph. The agents of a stage run side by side on one context, and their
updates are merged in the order of the dispatch. -/
def next [PlannerSettings] (outcomes : String → AgentOutcome) (s : PlannerState) : PlannerState :=
  match s.position with
  | .planner =>
    match r.plannerNode s.context with
    | .error e => { s with position := .failed e }
    | .ok ctx => ⟨ctx, plannerDispatch ctx, r.record s.context ctx s.history⟩
  | .agents =>
    let ctx := (s.context.currentDispatch.map fun node =>
      r.agentUpdate s.context node (outcomes node)).foldl mergeContext s.context
    { s with context := ctx, position := afterHubWriter ctx }
  | _ => s

end Registry

def PlannerState.start (targets : List String) (outputs : Json.Fields) : PlannerState where
  context := { outputs, plannerTargets := targets }

theorem sorted_perm (names : List String) : (sorted names).Perm names :=
  List.perm_insertionSort _ _

theorem flatten_map_sorted (stages : List (List String)) :
    (stages.map sorted).flatten.Perm stages.flatten := by
  induction stages with
  | nil => exact .refl _
  | cons stage later ih =>
    rw [List.map_cons, List.flatten_cons, List.flatten_cons]
    exact (sorted_perm stage).append ih

namespace Registry
variable {r : Registry}

theorem summarizer_known (r : Registry) : "J" ∈ r.agents.map (·.agentId) := by
  obtain ⟨desc, hdesc, hid, -⟩ := r.summarizer
  exact List.mem_map.mpr ⟨desc, hdesc, hid⟩

theorem agentToNode?_summarizer (r : Registry) : r.agentToNode? "J" = some "j_summarizer" := by
  obtain ⟨desc, hdesc, hid, hnode⟩ := r.summarizer
  exact agentToNode?_eq_some_iff.mpr ⟨desc, hdesc, hid, hnode⟩

theorem Plannable.sorted_append (h : r.Plannable) {stages : List (List String)}
    (hstages : r.Sorted stages) (hsummary : "J" ∉ stages.flatten) :
    r.Sorted (stages.map sorted ++ [["J"]]) where
  layered := by
    refine (hstages.layered.map sorted_perm).append fun agentId hagent producer hrequires => ?_
    rw [List.mem_singleton.mp hagent] at hrequires
    exact absurd hrequires (h.summaryFree producer)
  once := by
    have hperm := flatten_map_sorted stages
    have hout : "J" ∉ (stages.map sorted).flatten := fun hin => hsummary (hperm.mem_iff.mp hin)
    rw [List.flatten_append, List.flatten_singleton, List.nodup_append]
    refine ⟨hperm.nodup_iff.mpr hstages.once, List.nodup_singleton _, ?_⟩
    rintro agentId hagent other hother rfl
    rw [List.mem_singleton.mp hother] at hagent
    exact hout hagent
  known := by
    intro agentId hagent
    rw [List.flatten_append, List.flatten_singleton, List.mem_append, List.mem_singleton] at hagent
    rcases hagent with hagent | rfl
    · exact hstages.known ((flatten_map_sorted stages).mem_iff.mp hagent)
    · exact r.summarizer_known

theorem Plannable.buildFullPlan (h : r.Plannable) (targetNodes : List String) :
    ∃ plan, r.buildFullPlan targetNodes = .ok plan ∧ r.Sorted plan ∧ 0 < plan.length := by
  let ids := ((targetNodes.filter (· ≠ "j_summarizer")).filterMap r.nodeToAgent?).dedup
  have hids : ∀ agentId ∈ ids, agentId ∈ r.agents.map (·.agentId) ∧ agentId ≠ "J" := by
    intro agentId hagent
    obtain ⟨node, hnode, hfound⟩ := List.mem_filterMap.mp (List.mem_dedup.mp hagent)
    have hne : node ≠ "j_summarizer" := of_decide_eq_true (List.mem_filter.mp hnode).2
    obtain ⟨desc, hdesc, -, hid⟩ := nodeToAgent?_eq_some_iff.mp hfound
    refine ⟨List.mem_map.mpr ⟨desc, hdesc, hid⟩, ?_⟩
    rintro rfl
    rw [nodeToAgent?_iff, agentToNode?_summarizer, Option.some.injEq] at hfound
    exact hne hfound.symm
  have hstages : ∃ stages, (if ids.isEmpty then .ok [] else r.buildPlan ids) = .ok stages ∧
      r.Sorted stages ∧ "J" ∉ stages.flatten := by
    by_cases hempty : ids.isEmpty = true
    · exact ⟨[], by rw [if_pos hempty], ⟨trivial, .nil, List.nil_subset _⟩, by simp⟩
    · obtain ⟨stages, hbuild, hsorted, -, hsummary⟩ :=
        h.buildPlan fun agentId hagent => (hids agentId hagent).1
      exact ⟨stages, by rw [if_neg hempty, hbuild], hsorted,
        hsummary fun hin => (hids "J" hin).2 rfl⟩
  obtain ⟨stages, hbuild, hsorted, hsummary⟩ := hstages
  refine ⟨stages.map sorted ++ [["J"]], ?_, h.sorted_append hsorted hsummary, by simp⟩
  show (if ids.isEmpty then .ok [] else r.buildPlan ids).map (·.map sorted ++ [["J"]]) = _
  rw [hbuild]
  rfl

/-- The walk over the stages that are left: some are passed, and then one is dispatched or
there is none. -/
inductive Advance (r : Registry) (ctx : PlannerContext) (stages : List (List String)) :
    ℕ → List String → List (String × String) → Prop
  | drained {skipped : List (String × String)}
    (hskipped : ∀ agentId ∈ stages.flatten, agentId ∈ skipped.map Prod.fst) :
    Advance r ctx stages stages.length [] skipped
  | stage {passed later : List (List String)} {agents batch : List String}
    {skipped : List (String × String)} (hstages : stages = passed ++ agents :: later)
    (hpassed : ∀ agentId ∈ passed.flatten, agentId ∈ skipped.map Prod.fst)
    (hagents : ∀ agentId ∈ agents, agentId ∈ batch ∨ agentId ∈ skipped.map Prod.fst)
    (hbatch : batch.Sublist agents)
    (hruns : ∀ agentId ∈ batch, r.skipReason? ctx agentId = none) (hne : batch ≠ []) :
    Advance r ctx stages passed.length batch skipped

theorem mem_resolveStage {ctx : PlannerContext} {agents : List String} {agentId : String}
    (h : agentId ∈ agents) : agentId ∈ (r.resolveStage agents ctx).run ∨
      agentId ∈ (r.resolveStage agents ctx).skipped.map Prod.fst := by
  cases hreason : r.skipReason? ctx agentId with
  | none => exact .inl (List.mem_filter.mpr ⟨h, by rw [hreason]; rfl⟩)
  | some reason =>
    refine .inr (List.mem_map.mpr ⟨(agentId, reason), List.mem_filterMap.mpr ⟨agentId, h, ?_⟩, rfl⟩)
    rw [hreason]
    rfl

theorem Advance.pass {ctx : PlannerContext} {stages : List (List String)}
    {agents batch : List String} {passed : ℕ} {skipped earlier : List (String × String)}
    (h : Advance r ctx stages passed batch skipped)
    (hagents : ∀ agentId ∈ agents, agentId ∈ earlier.map Prod.fst) :
    Advance r ctx (agents :: stages) (passed + 1) batch (earlier ++ skipped) := by
  cases h with
  | drained hskipped =>
    refine .drained fun agentId hagent => ?_
    rw [List.map_append, List.mem_append]
    rw [List.flatten_cons, List.mem_append] at hagent
    exact hagent.imp (hagents agentId) (hskipped agentId)
  | @stage passed later batchStage _ _ hstages hpassed hrest hbatch hruns hne =>
    refine @Advance.stage r ctx _ (agents :: passed) later _ batch _
      (by rw [hstages, List.cons_append]) ?_ ?_ hbatch hruns hne
    · intro agentId hagent
      rw [List.map_append, List.mem_append]
      rw [List.flatten_cons, List.mem_append] at hagent
      exact hagent.imp (hagents agentId) (hpassed agentId)
    · intro agentId hagent
      rw [List.map_append, List.mem_append]
      exact (hrest agentId hagent).imp_right .inr

theorem nodeOf_eq_ok_iff {agentId node : String} :
    r.nodeOf agentId = .ok node ↔ r.nodeToAgent? node = some agentId := by
  rw [nodeToAgent?_iff, nodeOf]
  cases r.agentToNode? agentId <;> simp

theorem advanceThrough_spec (ctx : PlannerContext) (stage : ℕ) {stages : List (List String)}
    (hknown : stages.flatten ⊆ r.agents.map (·.agentId)) :
    ∃ passed batch dispatch skipped,
      r.advanceThrough ctx stage stages = .ok (stage + passed, dispatch, skipped) ∧
        batch.mapM r.nodeOf = .ok dispatch ∧ Advance r ctx stages passed batch skipped := by
  induction stages generalizing stage with
  | nil => exact ⟨0, [], [], [], rfl, rfl, .drained (by simp)⟩
  | cons agents later ih =>
    rw [List.flatten_cons, List.append_subset] at hknown
    rw [advanceThrough]
    by_cases hempty : (r.resolveStage agents ctx).run.isEmpty = true
    · obtain ⟨passed, batch, dispatch, skipped, hadvance, hnodes, hspec⟩ := ih (stage + 1) hknown.2
      refine ⟨passed + 1, batch, dispatch, (r.resolveStage agents ctx).skipped ++ skipped, ?_,
        hnodes, hspec.pass fun agentId hagent => ?_⟩
      · rw [if_pos hempty, hadvance, Nat.add_right_comm, Nat.add_assoc]
        rfl
      · refine (mem_resolveStage hagent).resolve_left fun hrun => ?_
        rw [List.isEmpty_iff.mp hempty] at hrun
        cases hrun
    · have hsub : (r.resolveStage agents ctx).run.Sublist agents := List.filter_sublist
      have hdispatch : ∃ dispatch, (r.resolveStage agents ctx).run.mapM r.nodeOf = .ok dispatch := by
        refine Lookup.mapM_total fun agentId hagent => ?_
        obtain ⟨node, hnode⟩ := agentToNode?_isSome (hknown.1 (hsub.subset hagent))
        exact ⟨node, nodeOf_eq_ok_iff.mpr (nodeToAgent?_iff.mpr hnode)⟩
      obtain ⟨dispatch, hdispatch⟩ := hdispatch
      refine ⟨0, (r.resolveStage agents ctx).run, dispatch, (r.resolveStage agents ctx).skipped, ?_,
        hdispatch, @Advance.stage r ctx _ [] later agents _ _ rfl (by simp)
          (fun agentId hagent => mem_resolveStage hagent) hsub ?_ ?_⟩
      · rw [if_neg hempty, hdispatch]
        rfl
      · intro agentId hagent
        exact Option.isNone_iff_eq_none.mp (List.mem_filter.mp hagent).2
      · exact fun hnil => hempty (List.isEmpty_iff.mpr hnil)

/-- An agent that is not skipped has its inputs and lacks its output. -/
theorem of_skipReason? {ctx : PlannerContext} {agentId : String}
    (h : r.skipReason? ctx agentId = none) :
    (∀ key ∈ r.requiredDependencyKeys agentId, ctx.has key) ∧
      ∀ key ∈ r.contextKeyFor agentId, ¬ ctx.has key := by
  rw [skipReason?] at h
  by_cases hown : (r.contextKeyFor agentId).any ctx.has = true
  · rw [if_pos hown] at h
    cases h
  · rw [if_neg hown] at h
    constructor
    · intro key hkey
      by_contra hmissing
      have hmem : key ∈ (r.requiredDependencyKeys agentId).filter (!ctx.has ·) :=
        List.mem_filter.mpr ⟨hkey, by simpa using hmissing⟩
      have hfull := List.ne_nil_of_mem hmem
      simp [List.isEmpty_iff, hfull] at h
    · intro key hkey hpresent
      exact hown (by rw [Option.mem_def.mp hkey, Option.any_some, hpresent])

end Registry

end Finguard
