import Finguard.Planner

/-! Whole runs of the planner: what is dispatched when, how often, and that it ends. -/

namespace Finguard
open Lookup Runs Staging

namespace PlannerState

/-- No agent is dispatched without its inputs, or with its output already there. -/
def Safe (r : Registry) (s : PlannerState) : Prop :=
  s.position = .agents → ∀ node ∈ s.context.currentDispatch, ∃ agentId,
    r.nodeToAgent? node = some agentId ∧
    (∀ key ∈ r.requiredDependencyKeys agentId, s.context.has key) ∧
    ∀ key ∈ r.contextKeyFor agentId, ¬ s.context.has key

def OncePerPlan (s : PlannerState) : Prop :=
  ∀ record ∈ s.history, record.batches.flatten.Nodup

def dispatches (s : PlannerState) (agentId : String) : ℕ :=
  (s.history.map fun record => record.batches.flatten.count agentId).sum

/-- The latest record is that of the plan in the context, and of the batch that runs now. -/
structure Executes (r : Registry) (s : PlannerState) (record : PlanRecord) : Prop where
  latest : s.history.head? = some record
  plan : s.context.plan = some record.plan
  batch : record.batches.head? = some (s.context.currentDispatch.filterMap r.nodeToAgent?)

/-- Every planned producer of what a dispatched agent requires was dispatched earlier, or
skipped. -/
def Ordered (r : Registry) (s : PlannerState) : Prop :=
  s.position = .agents → ∃ record, s.Executes r record ∧
    ∀ batch ∈ record.batches.head?, ∀ agentId ∈ batch,
      ∀ key ∈ r.requiredDependencyKeys agentId, ∀ producer ∈ record.plan.flatten,
        r.contextKeyFor producer = some key →
          producer ∈ record.batches.tail.flatten ∨ producer ∈ record.skipped

end PlannerState

namespace Registry

/-- Everything in the first stages has been dispatched or skipped, and nothing else has been
dispatched. -/
structure Progress (r : Registry) (record : PlanRecord) (upto : ℕ) : Prop where
  sorted : r.Sorted record.plan
  settled : ∀ agentId ∈ (record.plan.take upto).flatten,
    agentId ∈ record.batches.flatten ∨ agentId ∈ record.skipped
  within : record.batches.flatten ⊆ (record.plan.take upto).flatten
  once : record.batches.flatten.Nodup

variable {r : Registry} {record : PlanRecord} {upto passed : ℕ} {ctx : PlannerContext}
  {batch : List String} {skipped : List (String × String)}

theorem Progress.fresh {plan : List (List String)} (h : r.Sorted plan) :
    r.Progress ⟨plan, [], []⟩ 0 where
  sorted := h
  settled := by simp
  within := List.nil_subset _
  once := .nil

theorem flatten_split (plan : List (List String)) (upto : ℕ) :
    plan.flatten = (plan.take upto).flatten ++ (plan.drop upto).flatten := by
  rw [← List.flatten_append, List.take_append_drop]

theorem Progress.advance (h : r.Progress record upto)
    (hadvance : Advance r ctx (record.plan.drop upto) passed batch skipped) :
    r.Progress (record.resolved batch skipped) (upto + passed + 1) := by
  have hunique := h.sorted.once
  rw [flatten_split record.plan upto, List.nodup_append] at hunique
  obtain ⟨-, hdrop, hapart⟩ := hunique
  have hkept : ∀ agentId ∈ (record.plan.take upto).flatten,
      agentId ∈ (record.resolved batch skipped).batches.flatten ∨
        agentId ∈ (record.resolved batch skipped).skipped := by
    intro agentId hagent
    simp only [PlanRecord.resolved, List.flatten_cons, List.mem_append]
    exact (h.settled agentId hagent).imp .inr .inl
  cases hadvance with
  | drained hskipped =>
    have hall : record.plan.take (upto + (record.plan.drop upto).length + 1) = record.plan := by
      refine List.take_of_length_le ?_
      rw [List.length_drop]
      omega
    refine ⟨h.sorted, ?_, ?_, h.once⟩
    · rw [PlanRecord.resolved, hall, flatten_split record.plan upto]
      intro agentId hagent
      rcases List.mem_append.mp hagent with hagent | hagent
      · exact hkept agentId hagent
      · exact .inr (List.mem_append_right _ (hskipped agentId hagent))
    · rw [PlanRecord.resolved, hall, flatten_split record.plan upto]
      exact fun agentId hagent => List.mem_append_left _ (h.within hagent)
  | @stage passed later agents _ _ hstages hpassed hagents hbatch hruns hne =>
    have htake : record.plan.take (upto + passed.length + 1) =
        record.plan.take upto ++ (passed ++ [agents]) := by
      rw [Nat.add_assoc, List.take_add, hstages, List.take_length_add_append]
      rfl
    have hmem : ∀ agentId, agentId ∈ (record.plan.take (upto + passed.length + 1)).flatten ↔
        agentId ∈ (record.plan.take upto).flatten ∨ agentId ∈ passed.flatten ∨
          agentId ∈ agents := by
      intro agentId
      simp [htake]
    have hin : ∀ agentId ∈ agents, agentId ∈ (record.plan.drop upto).flatten := by
      intro agentId hagent
      simp [hstages, hagent]
    refine ⟨h.sorted, ?_, ?_, ?_⟩
    · intro agentId hagent
      rcases (hmem agentId).mp hagent with hagent | hagent | hagent
      · exact hkept agentId hagent
      · exact .inr (List.mem_append_right _ (hpassed agentId hagent))
      · rcases hagents agentId hagent with hagent | hagent
        · exact .inl (List.mem_append_left _ hagent)
        · exact .inr (List.mem_append_right _ hagent)
    · intro agentId hagent
      refine (hmem agentId).mpr ?_
      rcases List.mem_append.mp hagent with hagent | hagent
      · exact .inr (.inr (hbatch.subset hagent))
      · exact .inl (h.within hagent)
    · have hnodup : batch.Nodup := by
        refine hbatch.nodup (List.Sublist.nodup ?_ hdrop)
        rw [hstages]
        exact List.sublist_flatten_of_mem (by simp)
      rw [PlanRecord.resolved, List.flatten_cons, List.nodup_append]
      refine ⟨hnodup, h.once, ?_⟩
      rintro agentId hagent other hother rfl
      exact hapart agentId (h.within hother) agentId (hin agentId (hbatch.subset hagent)) rfl

/-- Whatever an agent of the next batch requires has been settled. -/
theorem Progress.ordered (h : r.Progress record upto) (hplannable : r.Plannable)
    (hadvance : Advance r ctx (record.plan.drop upto) passed batch skipped) :
    ∀ agentId ∈ batch, ∀ key ∈ r.requiredDependencyKeys agentId, ∀ producer,
      r.contextKeyFor producer = some key →
        producer ∈ record.batches.flatten ∨
          producer ∈ (record.resolved batch skipped).skipped := by
  intro agentId hagent key hkey producer hproducer
  cases hadvance with
  | drained hskipped => cases hagent
  | @stage passed later agents _ _ hstages hpassed hagents hbatch hruns hne =>
    have hplan : record.plan = (record.plan.take upto ++ passed) ++ agents :: later := by
      rw [List.append_assoc, ← hstages, List.take_append_drop]
    have hknown : agentId ∈ r.agents.map (·.agentId) := by
      refine h.sorted.known ?_
      rw [hplan]
      simp [hbatch.subset hagent]
    have hlayered := h.sorted.layered
    rw [hplan] at hlayered
    have hbefore := hlayered.split agentId (hbatch.subset hagent) producer
      (hplannable.requires_of_needs ⟨key, hkey, hproducer⟩)
    rw [List.nil_append, List.flatten_append, List.mem_append] at hbefore
    rcases hbefore with hbefore | hbefore
    · exact (h.settled producer hbefore).imp_right (List.mem_append_left _)
    · exact .inr (List.mem_append_right _ (hpassed producer hbefore))

/-- The planner's books agree with the records. -/
structure Books [PlannerSettings] (r : Registry) (ctx : PlannerContext) (record : PlanRecord)
    (earlier : List PlanRecord) : Prop where
  plan : ctx.plan = some record.plan
  progress : r.Progress record (ctx.stage + 1)
  once : ∀ old ∈ earlier, old.batches.flatten.Nodup
  replans : earlier.length = ctx.replansUsed
  budget : ctx.replansUsed ≤ PlannerSettings.maxReplans

/-- The states of a run. -/
inductive Reached [PlannerSettings] (r : Registry) : PlannerState → Prop
  | start {ctx : PlannerContext} (hplan : ctx.plan = none) (hused : ctx.replansUsed = 0)
    (hdone : ctx.plannerDone = false) : Reached r ⟨ctx, .planner, []⟩
  | planner {ctx : PlannerContext} {record : PlanRecord} {earlier : List PlanRecord}
    (hbooks : r.Books ctx record earlier) (hstage : ctx.stage < record.plan.length)
    (hdone : ctx.plannerDone = false) : Reached r ⟨ctx, .planner, record :: earlier⟩
  | agents {ctx : PlannerContext} {record : PlanRecord} {earlier : List PlanRecord}
    (hbooks : r.Books ctx record earlier) (hstage : ctx.stage < record.plan.length)
    (hdone : ctx.plannerDone = false)
    (hsafe : PlannerState.Safe r ⟨ctx, .agents, record :: earlier⟩)
    (hordered : PlannerState.Ordered r ⟨ctx, .agents, record :: earlier⟩) :
    Reached r ⟨ctx, .agents, record :: earlier⟩
  | ended {ctx : PlannerContext} {record : PlanRecord} {earlier : List PlanRecord}
    (hbooks : r.Books ctx record earlier) : Reached r ⟨ctx, .ended, record :: earlier⟩

theorem dispatchStage_reached [PlannerSettings] (hplannable : r.Plannable)
    {earlier : List PlanRecord} (hplan : ctx.plan = some record.plan)
    (hprogress : r.Progress record upto) (hearlier : ∀ old ∈ earlier, old.batches.flatten.Nodup)
    (hreplans : earlier.length = ctx.replansUsed)
    (hbudget : ctx.replansUsed ≤ PlannerSettings.maxReplans) (hdone : ctx.plannerDone = false) :
    ∃ stage dispatch batch skipped,
      r.dispatchStage ctx record.plan upto = .ok (ctx.resolved stage dispatch skipped) ∧
        upto ≤ stage ∧ dispatch.filterMap r.nodeToAgent? = batch ∧
        Reached r ⟨ctx.resolved stage dispatch skipped,
          plannerDispatch (ctx.resolved stage dispatch skipped),
          record.resolved batch skipped :: earlier⟩ := by
  have hknown : (record.plan.drop upto).flatten ⊆ r.agents.map (·.agentId) := by
    refine fun agentId hagent => hprogress.sorted.known ?_
    rw [flatten_split record.plan upto]
    exact List.mem_append_right _ hagent
  obtain ⟨passed, batch, dispatch, skipped, hthrough, hnodes, hadvance⟩ :=
    advanceThrough_spec ctx upto hknown
  have hbatch : dispatch.filterMap r.nodeToAgent? = batch :=
    map_of_mapM hnodes fun agentId node hnode => nodeOf_eq_ok_iff.mp hnode
  have hbooks : r.Books (ctx.resolved (upto + passed) dispatch skipped)
      (record.resolved batch skipped) earlier :=
    ⟨hplan, hprogress.advance hadvance, hearlier, hreplans, hbudget⟩
  refine ⟨upto + passed, dispatch, batch, skipped, ?_, Nat.le_add_right _ _, hbatch, ?_⟩
  · rw [dispatchStage, advanceToNextRunnable, hthrough]
    rfl
  have hordered := hprogress.ordered hplannable hadvance
  cases hadvance with
  | drained hskipped =>
    obtain rfl : [] = dispatch := Except.ok.inj hnodes
    exact .ended hbooks
  | @stage passed later agents _ _ hstages hpassed hagents hsub hruns hne =>
    have hsome : dispatch.isEmpty = false := by
      cases dispatch with
      | nil => exact absurd hbatch.symm hne
      | cons node rest => rfl
    have hposition : plannerDispatch (ctx.resolved (upto + passed.length) dispatch skipped) =
        .agents := by
      rw [plannerDispatch, PlannerContext.resolved, hsome]
      rfl
    rw [hposition]
    refine .agents hbooks ?_ ?_ ?_ ?_
    · have hlength := congrArg List.length hstages
      simp only [List.length_drop, List.length_append, List.length_cons] at hlength
      show upto + passed.length < record.plan.length
      omega
    · rw [PlannerContext.resolved, hsome, hdone]
      rfl
    · intro _ node hnode
      obtain ⟨agentId, hagent, hfound⟩ := (mem_of_mapM hnodes).mp hnode
      obtain ⟨hinputs, hown⟩ := of_skipReason? (hruns agentId hagent)
      exact ⟨agentId, nodeOf_eq_ok_iff.mp hfound, hinputs, hown⟩
    · intro _
      refine ⟨record.resolved batch skipped, ⟨rfl, hplan, congrArg some hbatch.symm⟩, ?_⟩
      rintro _ ⟨⟩ agentId hagent key hkey producer - hproducer
      exact hordered agentId hagent key hkey producer hproducer

section record
variable {before after : PlannerContext} {history : List PlanRecord} {stage : ℕ}
  {dispatch : List String}

theorem record_fresh (hskipped : after.plannerSkipped = before.plannerSkipped)
    (hfresh : before.plan = none ∨ before.replansUsed < after.replansUsed) :
    r.record before (after.resolved stage dispatch skipped) history =
      (⟨after.plan.getD [], [], []⟩ : PlanRecord).resolved (dispatch.filterMap r.nodeToAgent?)
        skipped :: history := by
  have hnew : (after.resolved stage dispatch skipped).plannerSkipped.drop
      before.plannerSkipped.length = skipped := by
    rw [PlannerContext.resolved, hskipped, List.drop_left]
  have hsame : (after.resolved stage dispatch skipped).replansUsed = after.replansUsed := rfl
  rw [Registry.record, hnew, if_pos]
  · rfl
  · simpa [hsame] using hfresh

theorem record_continued (hskipped : after.plannerSkipped = before.plannerSkipped)
    (hplan : before.plan.isSome) (hreplans : after.replansUsed = before.replansUsed) :
    r.record before (after.resolved stage dispatch skipped) (record :: history) =
      record.resolved (dispatch.filterMap r.nodeToAgent?) skipped :: history := by
  have hnew : (after.resolved stage dispatch skipped).plannerSkipped.drop
      before.plannerSkipped.length = skipped := by
    rw [PlannerContext.resolved, hskipped, List.drop_left]
  have hsame : (after.resolved stage dispatch skipped).replansUsed = before.replansUsed := hreplans
  have hsome : before.plan ≠ none := Option.isSome_iff_ne_none.mp hplan
  rw [Registry.record, hnew, if_neg]
  · rfl
  · simp [hsome, hsame]

end record

theorem merged_spec (ctx : PlannerContext) (updates : List AgentUpdate) :
    ∃ outputs replanTargets,
      updates.foldl mergeContext ctx = { ctx with outputs, replanTargets } := by
  induction updates generalizing ctx with
  | nil => exact ⟨ctx.outputs, ctx.replanTargets, rfl⟩
  | cons update updates ih =>
    obtain ⟨outputs, replanTargets, hrest⟩ := ih (mergeContext ctx update)
    exact ⟨outputs, replanTargets, by rw [List.foldl_cons, hrest]; rfl⟩

/-- What is left: plans, stages of the current one, and the batch that runs. -/
def remaining [PlannerSettings] (s : PlannerState) : ℕ ×ₗ ℕ ×ₗ ℕ :=
  toLex (if s.context.plan.isNone then PlannerSettings.maxReplans + 1
      else PlannerSettings.maxReplans - s.context.replansUsed,
    toLex ((s.context.plan.getD []).length - s.context.stage,
      match s.position with
      | .agents => 1
      | _ => 0))

section plannerNode
variable [PlannerSettings] {before : PlannerContext} {earlier history : List PlanRecord}

/-- A visit to the planner that leaves less to do. -/
def Visited (r : Registry) (before : PlannerContext) (history : List PlanRecord) : Prop :=
  ∃ after, r.plannerNode before = .ok after ∧
    Reached r ⟨after, plannerDispatch after, r.record before after history⟩ ∧
    remaining ⟨after, plannerDispatch after, r.record before after history⟩ <
      remaining ⟨before, .planner, history⟩

theorem visited_of_dispatchStage (hplannable : r.Plannable)
    (hnode : r.plannerNode before = r.dispatchStage ctx record.plan upto)
    (hrecord : ∀ stage dispatch skipped, r.record before (ctx.resolved stage dispatch skipped)
      history = record.resolved (dispatch.filterMap r.nodeToAgent?) skipped :: earlier)
    (hplan : ctx.plan = some record.plan) (hprogress : r.Progress record upto)
    (honce : ∀ old ∈ earlier, old.batches.flatten.Nodup)
    (hreplans : earlier.length = ctx.replansUsed)
    (hbudget : ctx.replansUsed ≤ PlannerSettings.maxReplans) (hdone : ctx.plannerDone = false)
    (hless : ∀ stage phase, upto ≤ stage → toLex (PlannerSettings.maxReplans - ctx.replansUsed,
      toLex (record.plan.length - stage, phase)) < remaining ⟨before, .planner, history⟩) :
    r.Visited before history := by
  obtain ⟨stage, dispatch, batch, skipped, hdispatch, hstage, rfl, hreached⟩ :=
    dispatchStage_reached hplannable hplan hprogress honce hreplans hbudget hdone
  refine ⟨_, hnode.trans hdispatch, ?_, ?_⟩
  · rw [hrecord]
    exact hreached
  · have hafter : ∀ position history,
        remaining ⟨ctx.resolved stage dispatch skipped, position, history⟩ =
          toLex (PlannerSettings.maxReplans - ctx.replansUsed,
            toLex (record.plan.length - stage, match position with
              | .agents => 1
              | _ => 0)) := by
      intro position history
      simp [remaining, PlannerContext.resolved, hplan]
    rw [hafter]
    exact hless stage _ hstage

theorem plannerNode_visited (hplannable : r.Plannable)
    (h : Reached r ⟨before, .planner, history⟩) : r.Visited before history := by
  cases h with
  | start hplan hused hdone =>
    obtain ⟨plan, hbuild, hsorted, hpos⟩ := hplannable.buildFullPlan before.plannerTargets
    have hnode : r.plannerNode before =
        r.dispatchStage { before with plan := some plan } plan 0 := by
      have henter : r.enterPlan before = .ok ({ before with plan := some plan }, plan, 0) := by
        rw [enterPlan, hplan, hbuild]
      have hkept : r.replan { before with plan := some plan } plan 0 =
          .ok ({ before with plan := some plan }, plan, 0) := by
        rw [replan, if_neg (by omega)]
      rw [plannerNode, henter]
      simp only [bind, Except.bind, hkept]
    have hrecord : ∀ stage dispatch skipped, r.record before
        (({ before with plan := some plan } : PlannerContext).resolved stage dispatch skipped) [] =
          [(⟨plan, [], []⟩ : PlanRecord).resolved (dispatch.filterMap r.nodeToAgent?) skipped] :=
      fun _ _ _ => record_fresh rfl (.inl hplan)
    refine visited_of_dispatchStage hplannable hnode hrecord rfl (.fresh hsorted) (by simp)
      hused.symm (by simp [hused]) hdone ?_
    intro stage phase _
    rw [remaining, Prod.Lex.toLex_lt_toLex]
    left
    simp [hplan]
  | @planner _ record earlier hbooks hstage hdone =>
    have henter : r.enterPlan before = .ok (before, record.plan, before.stage + 1) := by
      rw [enterPlan, hbooks.plan]
    have hbefore : remaining ⟨before, .planner, record :: earlier⟩ =
        toLex (PlannerSettings.maxReplans - before.replansUsed,
          toLex (record.plan.length - before.stage, 0)) := by
      simp [remaining, hbooks.plan]
    have hsome : before.plan.isSome := by
      rw [hbooks.plan]
      rfl
    by_cases hreplan : record.plan.length ≤ before.stage + 1 ∧ before.replanTargets ≠ [] ∧
        before.replansUsed < PlannerSettings.maxReplans
    · obtain ⟨plan, hbuild, hsorted, -⟩ :=
        hplannable.buildFullPlan (before.plannerTargets ++ before.replanTargets)
      let ctx : PlannerContext := { before with
        plan := some plan
        plannerTargets := before.plannerTargets ++ before.replanTargets
        replansUsed := before.replansUsed + 1
        replanTargets := [] }
      have hnode : r.plannerNode before = r.dispatchStage ctx plan 0 := by
        have hreplanned : r.replan before record.plan (before.stage + 1) = .ok (ctx, plan, 0) := by
          rw [replan, if_pos hreplan]
          simp only [hbuild]
          rfl
        rw [plannerNode, henter]
        simp only [bind, Except.bind, hreplanned]
      have hrecord : ∀ stage dispatch skipped, r.record before (ctx.resolved stage dispatch skipped)
          (record :: earlier) = (⟨plan, [], []⟩ : PlanRecord).resolved
            (dispatch.filterMap r.nodeToAgent?) skipped :: record :: earlier :=
        fun _ _ _ => record_fresh rfl (.inr (Nat.lt_succ_self _))
      have honce : ∀ old ∈ record :: earlier, old.batches.flatten.Nodup := by
        intro old hold
        rcases List.mem_cons.mp hold with rfl | hold
        · exact hbooks.progress.once
        · exact hbooks.once old hold
      have hreplans : (record :: earlier).length = ctx.replansUsed := by
        rw [List.length_cons, hbooks.replans]
      refine visited_of_dispatchStage hplannable hnode hrecord rfl (.fresh hsorted) honce hreplans
        hreplan.2.2 hdone ?_
      intro stage phase _
      have hused : ctx.replansUsed = before.replansUsed + 1 := rfl
      have hroom := hreplan.2.2
      rw [hbefore, Prod.Lex.toLex_lt_toLex, hused]
      left
      show PlannerSettings.maxReplans - (before.replansUsed + 1) <
        PlannerSettings.maxReplans - before.replansUsed
      omega
    · have hnode : r.plannerNode before =
          r.dispatchStage before record.plan (before.stage + 1) := by
        have hkept : r.replan before record.plan (before.stage + 1) =
            .ok (before, record.plan, before.stage + 1) := by
          rw [replan, if_neg hreplan]
        rw [plannerNode, henter]
        simp only [bind, Except.bind, hkept]
      have hrecord : ∀ stage dispatch skipped, r.record before
          (before.resolved stage dispatch skipped) (record :: earlier) =
            record.resolved (dispatch.filterMap r.nodeToAgent?) skipped :: earlier :=
        fun _ _ _ => record_continued rfl hsome rfl
      refine visited_of_dispatchStage hplannable hnode hrecord hbooks.plan hbooks.progress
        hbooks.once hbooks.replans hbooks.budget hdone ?_
      intro stage phase hlater
      rw [hbefore, Prod.Lex.toLex_lt_toLex, Prod.Lex.toLex_lt_toLex]
      refine .inr ⟨rfl, .inl ?_⟩
      show record.plan.length - stage < record.plan.length - before.stage
      omega

end plannerNode

theorem agents_reached [PlannerSettings] {earlier : List PlanRecord}
    (hbooks : r.Books ctx record earlier) (hstage : ctx.stage < record.plan.length)
    (hdone : ctx.plannerDone = false) (updates : List AgentUpdate) :
    let after := updates.foldl mergeContext ctx
    Reached r ⟨after, afterHubWriter after, record :: earlier⟩ ∧
      remaining ⟨after, afterHubWriter after, record :: earlier⟩ <
        remaining ⟨ctx, .agents, record :: earlier⟩ := by
  obtain ⟨outputs, replanTargets, hmerged⟩ := merged_spec ctx updates
  have hposition : afterHubWriter { ctx with outputs, replanTargets } = .planner := by
    simp [afterHubWriter, hbooks.plan, hdone]
  simp only [hmerged, hposition]
  refine ⟨.planner ⟨hbooks.plan, hbooks.progress, hbooks.once, hbooks.replans, hbooks.budget⟩
    hstage hdone, ?_⟩
  rw [remaining, remaining, Prod.Lex.toLex_lt_toLex, Prod.Lex.toLex_lt_toLex]
  exact .inr ⟨rfl, .inr ⟨rfl, Nat.zero_lt_one⟩⟩

/-- One step: the invariant is kept, and less is left. -/
theorem Reached.next [PlannerSettings] {s : PlannerState} (h : Reached r s)
    (hplannable : r.Plannable) (outcomes : String → AgentOutcome) :
    Reached r (r.next outcomes s) ∧
      (s.position ≠ .ended → remaining (r.next outcomes s) < remaining s) := by
  cases h with
  | start hplan hused hdone =>
    obtain ⟨after, hafter, hreached, hless⟩ :=
      plannerNode_visited hplannable (.start hplan hused hdone)
    simp only [Registry.next, hafter]
    exact ⟨hreached, fun _ => hless⟩
  | planner hbooks hstage hdone =>
    obtain ⟨after, hafter, hreached, hless⟩ :=
      plannerNode_visited hplannable (.planner hbooks hstage hdone)
    simp only [Registry.next, hafter]
    exact ⟨hreached, fun _ => hless⟩
  | agents hbooks hstage hdone hsafe hordered =>
    obtain ⟨hreached, hless⟩ := agents_reached hbooks hstage hdone _
    exact ⟨hreached, fun _ => hless⟩
  | ended hbooks => exact ⟨.ended hbooks, fun h => absurd rfl h⟩

/-- What holds of every state of a run. -/
theorem Reached.properties [PlannerSettings] {s : PlannerState} (h : Reached r s) :
    s.Safe r ∧ s.OncePerPlan ∧ s.Ordered r ∧
      s.history.length ≤ PlannerSettings.maxReplans + 1 := by
  have hrecords : ∀ {ctx record earlier}, r.Books ctx record earlier →
      (∀ old ∈ record :: earlier, old.batches.flatten.Nodup) ∧
        (record :: earlier).length ≤ PlannerSettings.maxReplans + 1 := by
    intro ctx record earlier hbooks
    constructor
    · intro old hold
      rcases List.mem_cons.mp hold with rfl | hold
      · exact hbooks.progress.once
      · exact hbooks.once old hold
    · rw [List.length_cons, hbooks.replans]
      exact Nat.succ_le_succ hbooks.budget
  cases h with
  | start hplan hused hdone =>
    refine ⟨?_, by simp [PlannerState.OncePerPlan], ?_, Nat.zero_le _⟩
    · rintro ⟨⟩
    · rintro ⟨⟩
  | planner hbooks hstage hdone =>
    refine ⟨?_, (hrecords hbooks).1, ?_, (hrecords hbooks).2⟩
    · rintro ⟨⟩
    · rintro ⟨⟩
  | agents hbooks hstage hdone hsafe hordered =>
    exact ⟨hsafe, (hrecords hbooks).1, hordered, (hrecords hbooks).2⟩
  | ended hbooks =>
    refine ⟨?_, (hrecords hbooks).1, ?_, (hrecords hbooks).2⟩
    · rintro ⟨⟩
    · rintro ⟨⟩

end Registry

theorem PlannerState.OncePerPlan.dispatches_le {s : PlannerState} (h : s.OncePerPlan)
    (agentId : String) : s.dispatches agentId ≤ s.history.length := by
  have hone : ∀ count ∈ s.history.map (·.batches.flatten.count agentId), count ≤ 1 := by
    intro count hcount
    obtain ⟨record, hrecord, rfl⟩ := List.mem_map.mp hcount
    exact List.nodup_iff_count_le_one.mp (h record hrecord) agentId
  have hsum := List.sum_le_card_nsmul _ 1 hone
  simpa [PlannerState.dispatches] using hsum

/-- Every run of the planner is safe, bounded and finite. -/
theorem plan_execution [PlannerSettings] {r : Registry} (hplannable : r.Plannable)
    (targets : List String) (outputs : Json.Fields) (outcomes : ℕ → String → AgentOutcome) :
    let run := along r.next outcomes (.start targets outputs)
    (∀ n, (run n).Safe r ∧ (run n).OncePerPlan ∧
      (∀ agentId, (run n).dispatches agentId ≤ PlannerSettings.maxReplans + 1) ∧
      (run n).Ordered r) ∧ ∃ n, (run n).position = .ended := by
  have hstart : r.Reached (.start targets outputs) := .start rfl rfl rfl
  have hnext : ∀ outcome s, r.Reached s → r.Reached (r.next outcome s) :=
    fun outcome s h => (h.next hplannable outcome).1
  have hfalls : ∀ outcome s, r.Reached s → ¬ s.position = .ended →
      Registry.remaining (r.next outcome s) < Registry.remaining s :=
    fun outcome s h => (h.next hplannable outcome).2
  constructor
  · intro n
    obtain ⟨hsafe, honce, hordered, hplans⟩ :=
      (along_invariant hnext outcomes hstart n).properties
    exact ⟨hsafe, honce, fun agentId => (honce.dispatches_le agentId).trans hplans, hordered⟩
  · obtain ⟨n, hended⟩ := along_ends Registry.remaining hnext hfalls outcomes hstart
    exact ⟨n, hended⟩

/-- The shipped registry, with three targets whose agents all produce their outputs. -/
theorem board_pack_execution :
    let : PlannerSettings := ⟨2⟩
    let run := along agentRegistry.next (fun _ _ => ⟨some .null, []⟩)
      (.start ["d_forecaster", "f_auditor", "g_reporter"] [])
    (∀ n, (run n).Safe agentRegistry ∧ (run n).OncePerPlan ∧
      (∀ agentId, (run n).dispatches agentId ≤ 2 + 1) ∧ (run n).Ordered agentRegistry) ∧
        ∃ n, (run n).position = .ended := by
  let : PlannerSettings := ⟨2⟩
  exact plan_execution agentRegistry_plannable _ _ _

/-- Its stages. -/
example :
    let : PlannerSettings := ⟨2⟩
    (along agentRegistry.next (fun _ _ => ⟨some .null, []⟩)
      (.start ["d_forecaster", "f_auditor", "g_reporter"] []) 7).history.map (·.batches) =
        [[[], ["J"], ["G"], ["D", "F"]]] := by
  decide +kernel

end Finguard
