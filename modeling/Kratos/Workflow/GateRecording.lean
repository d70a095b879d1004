/- source: domain/gates/evaluate.ts, domain/workflow/decision.ts, domain/events/semantics.ts,
     domain/events/redaction.ts
   digest: When the failures the gates report can be recorded by the event that carries them. -/

import Kratos.Gates.Evaluate
import Kratos.Workflow.RunInvariants
import Kratos.Workflow.Decision

set_option autoImplicit false

namespace Kratos.Workflow

open Foundation.Text Foundation.Runs Events Gates

/-- The checks event validation makes on gate failures: the semantic policy, and the bounds the
draft snapshot copies them under. -/
def gateFailuresRecordable (event : EventDraft) : Bool :=
  match event.gateFailures with
  | none => false
  | some failures =>
      gateFailuresValid event && decide (failures.length ≤ gateIds.length) &&
        failures.all (fun failure => decide (failure.evidenceRefs.length ≤ 16))

def contextGateDecision (context : GateContext) : RequestGateDecision :=
  ⟨(evaluateGates context).outcome, (evaluateGates context).failures⟩

/-- How often stop-loss fails: for each repeated rejection, an exhausted budget, a raised flag. -/
def stopLossCount (context : GateContext) : Nat :=
  context.stopLoss.repeatedRejections.length + (if context.stopLoss.exhausted then 1 else 0) +
    (if context.stopLoss.tripped then 1 else 0)

private theorem evaluated_listed (context : GateContext) {entry : GateFailure}
    (member : entry ∈ (evaluateGates context).failures) :
    gateFailureListed entry = true ∧ entry.evidenceRefs.length = 1 := by
  obtain ⟨canonical, evidence⟩ :=
    gateFailures_canonical context ((evaluateGates_perm context).mem_iff.mp member)
  refine ⟨?_, evidence⟩
  simp only [gateFailureListed, canonical.priority, beq_self_eq_true, Bool.true_and,
    List.contains_eq_mem, canonical.reason, decide_true]

private theorem evaluated_ordered (context : GateContext) :
    (evaluateGates context).failures.IsChain NotAfter :=
  (sortGateFailures_sorted (gateFailures context)).isChain

private theorem evaluated_bounded {context : GateContext} (few : stopLossCount context ≤ 1) :
    (evaluateGates context).failures.length ≤ gateIds.length := by
  have sublist := (gateFailures_sublist context
    (by rw [stopLossFailures_length]; exact few)).length_le
  rw [List.length_map] at sublist
  exact (evaluateGates_perm context).length_eq.le.trans sublist

private theorem continue_carries {observation : WorkflowObservation}
    {request : ContinueWorkflowRequest} {transition : WorkflowTransition} {event : EventDraft}
    {why : Option (List JsString)}
    (decided : decideContinueWorkflow observation request = .recorded transition event why) :
    event.gateFailures = some (request.gateDecision.getD passGateDecision).failures ∧
      startsWith event.operation (js "sdd.continue:") = true := by
  obtain ⟨-, state, rfl, -, -, recorded⟩ := decideContinue_recorded decided
  have head : startsWith (operationId .continue request.correlationId) (js "sdd.continue:") = true :=
    startsWith_append _ _
  cases recorded with
  | resumed unstopped unretired => exact ⟨rfl, head⟩
  | rejected artifactRefs evidenceRefs => exact ⟨rfl, head⟩
  | accepted unstopped unretired assigned unfinished => exact ⟨rfl, head⟩
  | completed unstopped unretired assigned final => exact ⟨rfl, head⟩

/-- The failures of any context are recordable exactly when stop-loss fails at most once. -/
theorem continue_gate_failures_recordable (context : GateContext)
    (observation : WorkflowObservation) (request : ContinueWorkflowRequest)
    (transition : WorkflowTransition) (event : EventDraft) (why : Option (List JsString))
    (gated : request.gateDecision = some (contextGateDecision context))
    (decided : decideContinueWorkflow observation request = .recorded transition event why) :
    gateFailuresRecordable event = true ↔ stopLossCount context ≤ 1 := by
  obtain ⟨carried, head⟩ := continue_carries decided
  rw [gated] at carried
  change event.gateFailures = some (evaluateGates context).failures at carried
  have count : (stopLossFailures context).length = stopLossCount context :=
    stopLossFailures_length context
  unfold gateFailuresRecordable gateFailuresValid
  simp only [carried, head, Bool.true_or, Bool.and_true, Bool.and_eq_true, decide_eq_true_eq,
    List.all_eq_true, evaluateGates_distinct_iff, count]
  constructor
  · rintro ⟨⟨⟨⟨few, -⟩, -⟩, -⟩, -⟩
    exact few
  · intro few
    refine ⟨⟨⟨⟨few, ?_⟩, evaluated_ordered context⟩, evaluated_bounded few⟩, ?_⟩
    · exact fun entry member => (evaluated_listed context member).1
    · intro entry member
      rw [(evaluated_listed context member).2]
      omega

/-- A context whose gates pass but for the stop-loss facts it is given. -/
def stopLossContext (tripped exhausted : Bool) : GateContext where
  gateModes := fun _ => .enforce
  phase := .prd
  contextReadable := true
  stopLoss := ⟨tripped, exhausted, []⟩
  prdDigest := none
  prdDocument := .complete
  specDigest := none
  approvals := []
  openGaps := 0
  partitionRequired := false
  partitionApproved := false
  finalAcceptance := false
  acceptanceCriteria := []
  languagePolicy := none
  languageObservations := []
  languageMismatch := false

def resumeRequest (context : GateContext) : ContinueWorkflowRequest where
  feature := js "f"
  runId := js "r"
  correlationId := js "next"
  eventId := js "e2"
  occurredAt := js "2026-01-02T00:00:00Z"
  expectedRevision := 1
  observedIdentity := ⟨js "claude", none⟩
  resolvedAssignment := none
  phaseExecution := none
  gateDecision := some (contextGateDecision context)
  action := .resume

def startedRun : WorkflowState :=
  (evaluate registryReduce (workflowSeed sampleConfiguration) (retiredHistory.take 1)).getD
    (workflowSeed sampleConfiguration)

/-- The event a resumption of the started run drafts under a context. -/
def resumedEvent (context : GateContext) : EventDraft :=
  continueEvent (resumeRequest context) (operationId .continue (js "next")) 1 .resumed [] []

theorem resumed_event_recordable :
    gateFailuresRecordable (resumedEvent (stopLossContext true false)) = true ↔
      stopLossCount (stopLossContext true false) ≤ 1 :=
  continue_gate_failures_recordable (stopLossContext true false) (.present startedRun)
    (resumeRequest (stopLossContext true false)) .resumed _ none rfl rfl

/-- A raised flag over an exhausted budget: the resumption is decided and cannot be recorded. -/
theorem resumed_event_unrecordable :
    Replays sampleConfiguration (retiredHistory.take 1) startedRun ∧
      decideContinueWorkflow (.present startedRun) (resumeRequest (stopLossContext true true)) =
        .recorded .resumed (resumedEvent (stopLossContext true true)) none ∧
      gateFailuresRecordable (resumedEvent (stopLossContext true true)) = false ∧
      assertEventSemanticPolicy (resumedEvent (stopLossContext true true)) =
        .error "invalid event semantics" := by
  exact ⟨rfl, rfl, by decide, rfl⟩

end Kratos.Workflow
