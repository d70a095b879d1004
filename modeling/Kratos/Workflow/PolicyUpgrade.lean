/- source: domain/workflow/reducer.ts
   digest: The policy version along a run, and when a run of the second policy stays there. -/

import Kratos.Workflow.RunInvariants

set_option autoImplicit false

namespace Kratos.Workflow

open Foundation.Text Foundation.Runs Events

theorem registryReduce_policy {state next : WorkflowState} {event : EventDraft}
    (accepted : registryReduce state event = .ok next) :
    next.policyVersion = some event.policyVersion ∧
      (event.policyVersion = legacyWorkflowPolicyVersion ∨
        event.policyVersion = workflowPolicyVersion) := by
  by_cases legacy : event.policyVersion = legacyWorkflowPolicyVersion
  · rw [registryReduce, if_pos legacy, reduceWorkflowV1, if_neg (not_not.mpr legacy)] at accepted
    obtain ⟨-, -, reason, status, currentStep, -, -, rfl⟩ := reduceKnown_cases accepted
    exact ⟨rfl, .inl legacy⟩
  · have second : event.policyVersion = workflowPolicyVersion := by
      rw [registryReduce, if_neg legacy] at accepted
      split at accepted
      · assumption
      · cases accepted
    refine ⟨?_, .inr second⟩
    cases registryReduce_cases accepted with
    | moved prior unblocked known move policy => rfl
    | started limits prior fresh policy code => rfl
    | _ => rw [second]; rfl

def UnderSecondPolicy (state : WorkflowState) : Prop :=
  state.policyVersion = some workflowPolicyVersion

/-- The condition on one step: a run of the second policy takes no event of the first. -/
def NoLegacyEventOnceUpgraded (state : WorkflowState) (event : EventDraft) : Prop :=
  UnderSecondPolicy state → event.policyVersion ≠ legacyWorkflowPolicyVersion

/-- No later state of the history is under the first policy once one is under the second. -/
def UpgradeIrreversible (configuration : WorkflowReducerConfiguration)
    (events : List EventDraft) : Prop :=
  ∀ front between back, events = front ++ (between ++ back) → ∀ middle later,
    Replays configuration front middle → Reaches registryReduce middle between later →
    UnderSecondPolicy middle → later.policyVersion ≠ some legacyWorkflowPolicyVersion

private theorem secondPolicy_step {state next : WorkflowState} {event : EventDraft}
    (condition : NoLegacyEventOnceUpgraded state event) (second : UnderSecondPolicy state)
    (accepted : registryReduce state event = .ok next) : UnderSecondPolicy next := by
  obtain ⟨written, legacy | current⟩ := registryReduce_policy accepted
  · exact absurd legacy (condition second)
  · exact written.trans (congrArg some current)

private theorem secondPolicy_run {start final : WorkflowState} {events : List EventDraft}
    (run : Reaches registryReduce start events final)
    (all : Throughout registryReduce NoLegacyEventOnceUpgraded start events)
    (second : UnderSecondPolicy start) : UnderSecondPolicy final := by
  refine run.invariant_of UnderSecondPolicy NoLegacyEventOnceUpgraded all second ?_
  intro state event next held condition accepted
  exact secondPolicy_step condition held accepted

private theorem policies_distinct : legacyWorkflowPolicyVersion ≠ workflowPolicyVersion := by
  decide

/-- An accepted history keeps an upgraded run upgraded exactly when no event of the first policy
is recorded on a run of the second. -/
theorem policy_upgrade_irreversible (configuration : WorkflowReducerConfiguration)
    (events : List EventDraft) (state : WorkflowState)
    (run : Replays configuration events state) :
    UpgradeIrreversible configuration events ↔
      Throughout registryReduce NoLegacyEventOnceUpgraded (workflowSeed configuration)
        events := by
  constructor
  · intro irreversible front event back shape middle reached second legacy
    obtain ⟨start, before, after⟩ := reaches_append.mp (shape ▸ run)
    obtain rfl := reaches_unique reached before
    obtain ⟨next, first, -⟩ := reaches_cons.mp after
    -- The event itself takes the run back to the first policy.
    have single : Reaches registryReduce middle [event] next :=
      reaches_cons.mpr ⟨next, first, reaches_nil.mpr rfl⟩
    apply irreversible front [event] back shape middle next reached single second
    rw [(registryReduce_policy first).1, legacy]
  · intro all front between back shape middle later before after second
    have allBetween : Throughout registryReduce NoLegacyEventOnceUpgraded middle between :=
      Throughout.front (Throughout.suffix (shape ▸ all) before)
    have kept := secondPolicy_run after allBetween second
    intro downgraded
    exact policies_distinct (Option.some.inj (downgraded.symm.trans kept))

/-- A run of the second policy that resumes once under it. -/
def upgradedHistory : List EventDraft :=
  [{ historyEvent 0 .transition .state (js "sdd.start:c") (js "run.started")
       with runLimits := some ⟨3, none⟩ },
    historyEvent 1 .transition .state (js "sdd.start:d") (js "run.resumed")]

/-- The same resumption recorded by the first policy. -/
def legacyResumption : EventDraft :=
  { historyEvent 2 .transition .state (js "sdd.start:e") (js "run.resumed") with
    policyVersion := legacyWorkflowPolicyVersion }

theorem upgraded_history_irreversible :
    ∃ state, Replays sampleConfiguration upgradedHistory state ∧ UnderSecondPolicy state ∧
      (UpgradeIrreversible sampleConfiguration upgradedHistory ↔
        Throughout registryReduce NoLegacyEventOnceUpgraded (workflowSeed sampleConfiguration)
          upgradedHistory) := by
  obtain ⟨state, run, second⟩ := reaches_of_evaluate registryReduce
    (workflowSeed sampleConfiguration) upgradedHistory
    (fun state => state.policyVersion == some workflowPolicyVersion) (by decide)
  have kept := policy_upgrade_irreversible sampleConfiguration upgradedHistory state run
  exact ⟨state, run, by simpa [UnderSecondPolicy] using second, kept⟩

/-- Events the semantic policy admits take a run of the second policy back to the first. -/
theorem policy_upgrade_reversed :
    (∀ event ∈ upgradedHistory ++ [legacyResumption],
        assertEventSemanticPolicy event = .ok ()) ∧
      ¬ ∀ configuration events state, Replays configuration events state →
        UpgradeIrreversible configuration events := by
  refine ⟨by decide, fun claim => ?_⟩
  obtain ⟨middle, reached, second⟩ := reaches_of_evaluate registryReduce
    (workflowSeed sampleConfiguration) upgradedHistory
    (fun state => state.policyVersion == some workflowPolicyVersion) (by decide)
  obtain ⟨final, run, downgraded⟩ := reaches_of_evaluate registryReduce
    (workflowSeed sampleConfiguration) (upgradedHistory ++ [legacyResumption])
    (fun state => state.policyVersion == some legacyWorkflowPolicyVersion) (by decide)
  obtain ⟨before, first, later⟩ := reaches_append.mp run
  obtain rfl := reaches_unique reached first
  exact claim sampleConfiguration _ _ run upgradedHistory [legacyResumption] [] (by simp)
    middle final reached later (by simpa [UnderSecondPolicy] using second)
    (by simpa using downgraded)

end Kratos.Workflow
