import Finguard.Planner

/-! What a visit to the planner looks at, and which requests for a replan are lost when it ends
the run. -/

namespace Finguard
open Lookup Runs Staging

namespace Registry
variable {r : Registry} {ctx before after : PlannerContext} {plan stages : List (List String)}
  {upto stage stage' : ℕ} {dispatch : List String} {skipped : List (String × String)}

/-- The plan that a visit to the planner works on, and the stage from which it looks. -/
inductive Entered [PlannerSettings] (r : Registry) (before : PlannerContext) :
    PlannerContext → List (List String) → ℕ → Prop
  | first {plan : List (List String)} (hplan : before.plan = none)
    (hbuild : r.buildFullPlan before.plannerTargets = .ok plan) :
    Entered r before { before with plan := some plan } plan 0
  | again {old plan : List (List String)} (hplan : before.plan = some old)
    (hdrained : old.length ≤ before.stage + 1) (hasked : before.replanTargets ≠ [])
    (hleft : before.replansUsed < PlannerSettings.maxReplans)
    (hbuild : r.buildFullPlan (before.plannerTargets ++ before.replanTargets) = .ok plan) :
    Entered r before { before with
      plan := some plan
      plannerTargets := before.plannerTargets ++ before.replanTargets
      replansUsed := before.replansUsed + 1
      replanTargets := [] } plan 0
  | next {plan : List (List String)} (hplan : before.plan = some plan)
    (hkept : ¬ (plan.length ≤ before.stage + 1 ∧ before.replanTargets ≠ [] ∧
      before.replansUsed < PlannerSettings.maxReplans)) :
    Entered r before before plan (before.stage + 1)

theorem buildFullPlan_eq_ok {targets : List String} (h : r.buildFullPlan targets = .ok plan) :
    ∃ stages, plan = stages ++ [["J"]] := by
  let ids := ((targets.filter (· ≠ "j_summarizer")).filterMap r.nodeToAgent?).dedup
  cases hbuilt : (if ids.isEmpty then .ok [] else r.buildPlan ids :
      Except DependencyError (List (List String))) with
  | error e =>
    rw [buildFullPlan, hbuilt] at h
    cases h
  | ok stages =>
    rw [buildFullPlan, hbuilt] at h
    exact ⟨stages.map sorted, (Except.ok.inj h).symm⟩

theorem plannerNode_eq_ok [PlannerSettings] (h : r.plannerNode before = .ok after) :
    ∃ ctx plan upto, r.Entered before ctx plan upto ∧ r.dispatchStage ctx plan upto = .ok after := by
  cases hplan : before.plan with
  | none =>
    cases hbuild : r.buildFullPlan before.plannerTargets with
    | error e =>
      rw [plannerNode, enterPlan, hplan, hbuild] at h
      cases h
    | ok plan =>
      obtain ⟨stages, hstages⟩ := buildFullPlan_eq_ok hbuild
      have hpos : 0 < plan.length := by simp [hstages]
      have henter : r.enterPlan before = .ok ({ before with plan := some plan }, plan, 0) := by
        rw [enterPlan, hplan, hbuild]
      have hkept : r.replan { before with plan := some plan } plan 0 =
          .ok ({ before with plan := some plan }, plan, 0) := by
        rw [replan, if_neg (by omega)]
      rw [plannerNode, henter] at h
      simp only [bind, Except.bind, hkept] at h
      exact ⟨_, _, _, .first hplan hbuild, h⟩
  | some old =>
    have henter : r.enterPlan before = .ok (before, old, before.stage + 1) := by
      rw [enterPlan, hplan]
    rw [plannerNode, henter] at h
    by_cases hagain : old.length ≤ before.stage + 1 ∧ before.replanTargets ≠ [] ∧
        before.replansUsed < PlannerSettings.maxReplans
    · cases hbuild : r.buildFullPlan (before.plannerTargets ++ before.replanTargets) with
      | error e =>
        have hfailed : r.replan before old (before.stage + 1) = .error (.dependency e) := by
          rw [replan, if_pos hagain]
          simp only [hbuild]
        simp only [bind, Except.bind, hfailed] at h
        cases h
      | ok plan =>
        have hreplanned : r.replan before old (before.stage + 1) = .ok ({ before with
            plan := some plan
            plannerTargets := before.plannerTargets ++ before.replanTargets
            replansUsed := before.replansUsed + 1
            replanTargets := [] }, plan, 0) := by
          rw [replan, if_pos hagain]
          simp only [hbuild]
        simp only [bind, Except.bind, hreplanned] at h
        exact ⟨_, _, _, .again hplan hagain.1 hagain.2.1 hagain.2.2 hbuild, h⟩
    · have hkept : r.replan before old (before.stage + 1) = .ok (before, old, before.stage + 1) := by
        rw [replan, if_neg hagain]
      simp only [bind, Except.bind, hkept] at h
      exact ⟨_, _, _, .next hplan hagain, h⟩

theorem dispatchStage_eq_ok (h : r.dispatchStage ctx plan upto = .ok after) :
    ∃ stage dispatch skipped, r.advanceThrough ctx upto (plan.drop upto) =
      .ok (stage, dispatch, skipped) ∧ after = ctx.resolved stage dispatch skipped := by
  rw [dispatchStage, advanceToNextRunnable] at h
  cases hthrough : r.advanceThrough ctx upto (plan.drop upto) with
  | error e =>
    rw [hthrough] at h
    cases h
  | ok found =>
    obtain ⟨stage, dispatch, skipped⟩ := found
    rw [hthrough] at h
    exact ⟨stage, dispatch, skipped, rfl, (Except.ok.inj h).symm⟩

theorem run_eq_nil_iff {agents : List String} : (r.resolveStage agents ctx).run = [] ↔
    ∀ agentId ∈ agents, (r.skipReason? ctx agentId).isSome := by
  simp [resolveStage, List.filter_eq_nil_iff, Option.isSome_iff_ne_none]

/-- Nothing is dispatched where every agent that is left is skipped. -/
theorem dispatch_eq_nil_iff (h : r.advanceThrough ctx stage stages = .ok (stage', dispatch, skipped)) :
    dispatch = [] ↔ ∀ agents ∈ stages, ∀ agentId ∈ agents, (r.skipReason? ctx agentId).isSome := by
  induction stages generalizing stage skipped with
  | nil =>
    obtain ⟨-, rfl, -⟩ : stage = stage' ∧ [] = dispatch ∧ [] = skipped := by
      simpa [advanceThrough] using h
    simp
  | cons agents later ih =>
    rw [advanceThrough] at h
    by_cases hempty : (r.resolveStage agents ctx).run.isEmpty = true
    · rw [if_pos hempty] at h
      cases hrest : r.advanceThrough ctx (stage + 1) later with
      | error e =>
        rw [hrest] at h
        cases h
      | ok found =>
        obtain ⟨laterStage, laterDispatch, laterSkipped⟩ := found
        rw [hrest] at h
        simp only [Except.map, Except.ok.injEq, Prod.mk.injEq] at h
        obtain ⟨rfl, rfl, -⟩ := h
        have hskipped := run_eq_nil_iff.mp (List.isEmpty_iff.mp hempty)
        rw [ih hrest, List.forall_mem_cons, and_iff_right hskipped]
    · rw [if_neg hempty] at h
      cases hnodes : (r.resolveStage agents ctx).run.mapM r.nodeOf with
      | error e =>
        rw [hnodes] at h
        cases h
      | ok nodes =>
        rw [hnodes] at h
        simp only [Except.map, Except.ok.injEq, Prod.mk.injEq] at h
        obtain ⟨-, rfl, -⟩ := h
        have hlength := (mapM_ok_iff.mp hnodes).length_eq
        rw [List.isEmpty_iff] at hempty
        have hsome : nodes ≠ [] := by
          rintro rfl
          exact hempty (List.length_eq_zero_iff.mp hlength)
        refine ⟨fun hnil => absurd hnil hsome, fun hall => ?_⟩
        exact absurd (run_eq_nil_iff.mpr (hall agents List.mem_cons_self)) hempty

theorem advanceThrough_of_skipped (r : Registry) (ctx : PlannerContext) (stage : ℕ)
    (h : ∀ agents ∈ stages, ∀ agentId ∈ agents, (r.skipReason? ctx agentId).isSome) :
    ∃ stage' skipped, r.advanceThrough ctx stage stages = .ok (stage', [], skipped) := by
  induction stages generalizing stage with
  | nil => exact ⟨stage, [], rfl⟩
  | cons agents later ih =>
    obtain ⟨hfirst, hlater⟩ := List.forall_mem_cons.mp h
    obtain ⟨stage', skipped, hrest⟩ := ih (stage + 1) hlater
    refine ⟨stage', (r.resolveStage agents ctx).skipped ++ skipped, ?_⟩
    rw [advanceThrough, run_eq_nil_iff.mpr hfirst, hrest]
    rfl

/-- The stages that a visit to the planner looks at, if it does not plan again. -/
def stagesAhead (r : Registry) (ctx : PlannerContext) : List (List String) :=
  match ctx.plan with
  | none => (r.buildFullPlan ctx.plannerTargets).toOption.getD []
  | some plan => plan.drop (ctx.stage + 1)

/-- Targets have been asked for that may still be planned, and stages are left, but all of their
agents are skipped. -/
structure Lapses [PlannerSettings] (r : Registry) (ctx : PlannerContext) : Prop where
  asked : ctx.replanTargets ≠ []
  left : ctx.replansUsed < PlannerSettings.maxReplans
  ahead : r.stagesAhead ctx ≠ []
  skipped : ∀ agents ∈ r.stagesAhead ctx, ∀ agentId ∈ agents, (r.skipReason? ctx agentId).isSome

end Registry

/-- No replan is pending that could have been made. -/
def PlannerContext.Honoured [PlannerSettings] (ctx : PlannerContext) : Prop :=
  ctx.replanTargets = [] ∨ PlannerSettings.maxReplans ≤ ctx.replansUsed

instance [PlannerSettings] (ctx : PlannerContext) : Decidable ctx.Honoured :=
  inferInstanceAs (Decidable (_ ∨ _))

namespace Registry
variable [PlannerSettings] {r : Registry} {ctx before after : PlannerContext}

theorem honoured_of_plannerNode (h : r.plannerNode before = .ok after)
    (hended : after.currentDispatch = []) (hkept : ¬ r.Lapses before) : after.Honoured := by
  obtain ⟨ctx, plan, upto, hentered, hdispatch⟩ := plannerNode_eq_ok h
  obtain ⟨stage, dispatch, skipped, hthrough, rfl⟩ := dispatchStage_eq_ok hdispatch
  have hskipped := (dispatch_eq_nil_iff hthrough).mp hended
  cases hentered with
  | first hplan hbuild =>
    have hahead : r.stagesAhead before = plan := by
      rw [stagesAhead, hplan, hbuild]
      rfl
    obtain ⟨stages, hstages⟩ := buildFullPlan_eq_ok hbuild
    by_contra hpending
    obtain ⟨hasked, hleft⟩ := not_or.mp hpending
    refine hkept ⟨hasked, not_le.mp hleft, ?_, ?_⟩
    · rw [hahead, hstages]
      simp
    · rw [hahead]
      exact hskipped
  | again hplan hdrained hasked hleft hbuild => exact .inl rfl
  | next hplan hcontinued =>
    have hahead : r.stagesAhead before = plan.drop (before.stage + 1) := by
      rw [stagesAhead, hplan]
    by_contra hpending
    obtain ⟨hasked, hleft⟩ := not_or.mp hpending
    refine hkept ⟨hasked, not_le.mp hleft, ?_, ?_⟩
    · intro hnone
      rw [hahead, List.drop_eq_nil_iff] at hnone
      exact hcontinued ⟨hnone, hasked, not_le.mp hleft⟩
    · rw [hahead]
      exact hskipped

theorem plannerNode_of_lapses (h : r.Lapses before) : ∃ after, r.plannerNode before = .ok after ∧
    after.currentDispatch = [] ∧ ¬ after.Honoured := by
  have hasked : ∀ {ctx : PlannerContext}, ctx.replanTargets = before.replanTargets →
      ctx.replansUsed = before.replansUsed → ¬ ctx.Honoured := by
    rintro ctx htargets hused (hnone | hspent)
    · exact h.asked (htargets ▸ hnone)
    · exact absurd h.left (not_lt.mpr (hused ▸ hspent))
  cases hplan : before.plan with
  | none =>
    cases hbuild : r.buildFullPlan before.plannerTargets with
    | error e => exact absurd (by rw [stagesAhead, hplan, hbuild]; rfl) h.ahead
    | ok plan =>
      have hahead : r.stagesAhead before = plan := by
        rw [stagesAhead, hplan, hbuild]
        rfl
      obtain ⟨stages, hstages⟩ := buildFullPlan_eq_ok hbuild
      have hpos : 0 < plan.length := by simp [hstages]
      obtain ⟨stage, skipped, hthrough⟩ := advanceThrough_of_skipped r
        { before with plan := some plan } 0 (hahead ▸ h.skipped)
      refine ⟨({ before with plan := some plan } : PlannerContext).resolved stage [] skipped, ?_, rfl,
        hasked rfl rfl⟩
      have hkept : r.replan { before with plan := some plan } plan 0 =
          .ok ({ before with plan := some plan }, plan, 0) := by
        rw [replan, if_neg (by omega)]
      rw [plannerNode, enterPlan, hplan, hbuild]
      simp only [bind, Except.bind, hkept]
      rw [dispatchStage, advanceToNextRunnable, List.drop_zero, hthrough]
      rfl
  | some plan =>
    have hahead : r.stagesAhead before = plan.drop (before.stage + 1) := by
      rw [stagesAhead, hplan]
    have hleft : before.stage + 1 < plan.length := by
      have hne := h.ahead
      rw [hahead, ne_eq, List.drop_eq_nil_iff] at hne
      omega
    obtain ⟨stage, skipped, hthrough⟩ := advanceThrough_of_skipped r before
      (before.stage + 1) (hahead ▸ h.skipped)
    refine ⟨before.resolved stage [] skipped, ?_, rfl, hasked rfl rfl⟩
    have hkept : r.replan before plan (before.stage + 1) = .ok (before, plan, before.stage + 1) := by
      rw [replan, if_neg (by omega)]
    rw [plannerNode, enterPlan, hplan]
    simp only [bind, Except.bind, hkept]
    rw [dispatchStage, advanceToNextRunnable, hthrough]
    rfl

theorem next_ended {outcomes : String → AgentOutcome} {s : PlannerState}
    (h : (r.next outcomes s).position = .ended) : s.position = .ended ∨
      s.position = .planner ∧ ∃ after, r.plannerNode s.context = .ok after ∧
        after.currentDispatch = [] ∧ (r.next outcomes s).context = after := by
  obtain ⟨ctx, position, history⟩ := s
  cases position with
  | ended => exact .inl rfl
  | supervisor => cases h
  | failed error => cases h
  | agents =>
    simp only [Registry.next, afterHubWriter] at h
    split at h <;> cases h
  | planner =>
    refine .inr ⟨rfl, ?_⟩
    simp only [Registry.next] at h ⊢
    cases hnode : r.plannerNode ctx with
    | error e =>
      rw [hnode] at h
      cases h
    | ok after =>
      rw [hnode] at h
      refine ⟨after, rfl, ?_, rfl⟩
      simp only [plannerDispatch] at h
      split at h
      · next hempty => exact List.isEmpty_iff.mp hempty
      · cases h

end Registry

/-- Whatever registry, context and outcomes: a run ends with all requests honoured unless a visit
to the planner lets one lapse, by passing over stages of which every agent is skipped. -/
theorem replans_honoured_iff [PlannerSettings] (r : Registry) (ctx : PlannerContext)
    (outcomes : ℕ → String → AgentOutcome) :
    let run := along r.next outcomes ⟨ctx, .planner, []⟩
    (∀ n, (run n).position = .ended → (run n).context.Honoured) ↔
      ∀ n, (run n).position = .planner → ¬ r.Lapses (run n).context := by
  intro run
  constructor
  · intro h n hplanner hlapses
    obtain ⟨after, hnode, hended, hpending⟩ := Registry.plannerNode_of_lapses hlapses
    have hnext : run (n + 1) = ⟨after, .ended, r.record (run n).context after (run n).history⟩ := by
      show r.next (outcomes n) (run n) = _
      rw [Registry.next, hplanner]
      simp only [hnode, plannerDispatch, hended, List.isEmpty_nil, if_true]
    have hhonoured := h (n + 1)
    rw [hnext] at hhonoured
    exact hpending (hhonoured rfl)
  · intro h n
    induction n with
    | zero =>
      intro hended
      cases hended
    | succ n ih =>
      intro hended
      rcases Registry.next_ended hended with hended' | ⟨hplanner, after, hnode, hempty, hafter⟩
      · have hsame : run (n + 1) = run n := by
          show r.next (outcomes n) (run n) = run n
          rw [Registry.next, hended']
        rw [hsame]
        exact ih hended'
      · have hhonoured := Registry.honoured_of_plannerNode hnode hempty (h n hplanner)
        show (r.next (outcomes n) (run n)).context.Honoured
        rwa [hafter]

/-- The forecaster asks for the auditor, and the auditor for the watchdog. -/
def askingOn (node : String) : AgentOutcome where
  produced := some .null
  replanTargets :=
    if node = "d_forecaster" then ["f_auditor"]
    else if node = "f_auditor" then ["e_watchdog"]
    else []

/-- The summary of the first plan is there when the second one comes to its last stage, which is
passed over, and with it the request of the agent that ran last. -/
theorem last_request_dropped :
    let : PlannerSettings := ⟨2⟩
    let run := along agentRegistry.next (fun _ => askingOn) (.start ["d_forecaster"] [])
    (run 7).position = .ended ∧ ¬ (run 7).context.Honoured ∧
      (run 7).context.replanTargets = ["e_watchdog"] := by
  decide +kernel

end Finguard
