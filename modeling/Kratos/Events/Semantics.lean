/- source: domain/events/semantics.ts
   digest: The semantic policy every readable event satisfies beyond its schema. -/

import Kratos.Events.Model
import Kratos.Foundation.Collections
import Kratos.Patterns

set_option autoImplicit false

namespace Kratos.Events

open Foundation.Text Foundation.Collections Patterns
open Gates (GateFailure NotAfter gatePriorities gateReasonCodes)

inductive AssignmentPolicy
  | forbidden | required
  deriving DecidableEq, Repr

structure EventFactPolicy where
  reasonCode : JsString
  eventType : EventType
  effect : EventEffect
  assignment : AssignmentPolicy
  deriving DecidableEq, Repr

/-- Every transition that moves the run, as opposed to recording a fact. -/
inductive MovingTransition
  | started | resumed | accepted | rejected | completed
  deriving DecidableEq, Repr

/-- `WORKFLOW_TRANSITION_FACTS`. -/
def workflowTransitionFacts : MovingTransition → EventFactPolicy
  | .started => ⟨js "run.started", .transition, .state, .forbidden⟩
  | .resumed => ⟨js "run.resumed", .transition, .state, .forbidden⟩
  | .accepted => ⟨js "run.transition.accepted", .transition, .state, .required⟩
  | .rejected => ⟨js "run.transition.rejected", .decision, .state, .forbidden⟩
  | .completed => ⟨js "run.completed", .transition, .state, .required⟩

/-- `WORKFLOW_POLICY_UPGRADE_FACT`. -/
def workflowPolicyUpgradeFact : EventFactPolicy :=
  ⟨js "run.policy_upgraded", .recovery, .state, .forbidden⟩

/-- The operations that record a fact a gate will read. -/
inductive FactOperation
  | agentRecord | gapsRecord | gapsResolve | gapsWaive | gatesRecord
  deriving DecidableEq, Repr

def FactOperation.text : FactOperation → JsString
  | .agentRecord => js "agent.record"
  | .gapsRecord => js "gaps.record"
  | .gapsResolve => js "gaps.resolve"
  | .gapsWaive => js "gaps.waive"
  | .gatesRecord => js "gates.record"

/-- `WORKFLOW_OPERATION_FACTS`. -/
def workflowOperationFacts : FactOperation → EventFactPolicy
  | .agentRecord => ⟨js "run.agent.recorded", .decision, .stateAndArtifact, .required⟩
  | .gapsRecord => ⟨js "run.gap.recorded", .decision, .stateAndArtifact, .forbidden⟩
  | .gapsResolve => ⟨js "run.gap.resolved", .decision, .stateAndArtifact, .forbidden⟩
  | .gapsWaive => ⟨js "run.gap.waived", .decision, .stateAndArtifact, .forbidden⟩
  | .gatesRecord => ⟨js "run.gates.recorded", .decision, .stateAndArtifact, .forbidden⟩

inductive LockLifecycleAction
  | acquire | renew | release | takeover
  deriving DecidableEq, Repr

def LockLifecycleAction.text : LockLifecycleAction → JsString
  | .acquire => js "acquire"
  | .renew => js "renew"
  | .release => js "release"
  | .takeover => js "takeover"

/-- The groups of a match of `LOCK_OPERATION_PATTERN`. -/
structure LockOperation where
  action : LockLifecycleAction
  token : JsString
  digest : JsString
  deriving DecidableEq, Repr

/-- `0|[1-9][0-9]*`, over a run of digits. -/
def canonicalToken (token : JsString) : Bool :=
  match token with
  | [] => false
  | first :: rest => (first != unit '0' || rest.isEmpty) && token.all isDigit

/-- `LOCK_OPERATION_PATTERN.exec(operation)` for one alternative of the action group. -/
def lockOperationOf (operation : JsString) (action : LockLifecycleAction) : Option LockOperation := do
  let rest ← literal (js "lock." ++ action.text ++ js ".t") operation
  let token := rest.takeWhile isDigit
  let digest ← literal (js ".d") (rest.dropWhile isDigit)
  if canonicalToken token && sha256Pattern digest then some ⟨action, token, digest⟩ else none

/-- `LOCK_OPERATION_PATTERN.exec(operation)`. -/
def lockOperation (operation : JsString) : Option LockOperation :=
  [LockLifecycleAction.acquire, .renew, .release, .takeover].findSome? (lockOperationOf operation)

/-- `LOCK_EVENT_REASONS`. -/
def lockEventReasonAccepted : JsString := js "trail.accepted"
def lockEventReasonOk : JsString := js "trail.ok"

/-- `LOCK_EVENT_FACTS`. -/
def lockEventFacts : LockLifecycleAction → EventFactPolicy
  | .acquire | .renew | .release => ⟨lockEventReasonOk, .operation, .state, .forbidden⟩
  | .takeover => ⟨lockEventReasonOk, .recovery, .state, .forbidden⟩

inductive WorkflowOperationFamily
  | start
  | continue
  | fact (operation : FactOperation)
  deriving DecidableEq, Repr

def WorkflowOperationFamily.text : WorkflowOperationFamily → JsString
  | .start => js "start"
  | .continue => js "continue"
  | .fact operation => operation.text

def workflowOperationFamilies : List WorkflowOperationFamily :=
  [.start, .continue, .fact .agentRecord, .fact .gapsRecord, .fact .gapsResolve,
    .fact .gapsWaive, .fact .gatesRecord]

/-- `operationId(name, correlationId)`. -/
def operationId (family : WorkflowOperationFamily) (correlationId : JsString) : JsString :=
  js "sdd." ++ family.text ++ js ":" ++ correlationId

def acceptanceOperationHead : JsString := js "sdd.acceptance.record:"
def repairResolutionOperationHead : JsString := js "sdd.repair.resolve:"
def specificationRestartOperationHead : JsString := js "sdd.repair.restart:"

/-- `workflowOperation.exec(operation)?.[1]`. -/
def workflowOperation (operation : JsString) : Option WorkflowOperationFamily :=
  workflowOperationFamilies.find? fun family =>
    operationPattern (js "sdd." ++ family.text ++ js ":") operation

def policiesByOperation : WorkflowOperationFamily → List EventFactPolicy
  | .start =>
      [workflowTransitionFacts .started, workflowTransitionFacts .resumed,
        workflowPolicyUpgradeFact]
  | .continue =>
      [workflowTransitionFacts .resumed, workflowTransitionFacts .accepted,
        workflowTransitionFacts .rejected, workflowTransitionFacts .completed]
  | .fact operation => [workflowOperationFacts operation]

def reservedReasons : List JsString :=
  [MovingTransition.started, .resumed, .accepted, .rejected, .completed].map
      (fun transition => (workflowTransitionFacts transition).reasonCode) ++
    [FactOperation.agentRecord, .gapsRecord, .gapsResolve, .gapsWaive, .gatesRecord].map
      (fun operation => (workflowOperationFacts operation).reasonCode) ++
    [workflowPolicyUpgradeFact.reasonCode, lockEventReasonAccepted, lockEventReasonOk]

def hasAssignment (event : EventDraft) : Bool := event.resolvedAssignment.isSome

def matchesPolicy (event : EventDraft) (policy : EventFactPolicy) : Bool :=
  event.reasonCode == policy.reasonCode && event.eventType == policy.eventType &&
    event.effect == policy.effect && hasAssignment event == (policy.assignment == .required)

/-- The loop over `decision.repairStops`, carrying the stopped criteria and the index of the
attempt the previous stop belongs to. -/
def repairStopsConsistent (attempts : List AcceptanceAttempt) (artifactRefs : List JsString)
    (stoppedCriteria : List JsString) (priorAttemptIndex : Int) : List RepairStop → Bool
  | [] => true
  | stop :: rest =>
      let attemptIndex := attempts.findIdx fun attempt => attempt.criterionId == stop.criterionId
      !stoppedCriteria.contains stop.criterionId &&
        mapGet (attempts.map fun attempt => (attempt.criterionId, attempt.attempt))
          stop.criterionId == some stop.attempt &&
        artifactRefs.contains stop.artifactRef &&
        decide (priorAttemptIndex < attemptIndex) &&
        repairStopsConsistent attempts artifactRefs (stop.criterionId :: stoppedCriteria)
          attemptIndex rest

def hasConsistentAcceptanceMetadata (event : EventDraft) (decision : AcceptanceDecision) : Bool :=
  decide ((decision.attempts.map (·.criterionId)).Nodup) &&
    (match decision.outcome with
      | .passed => decision.attempts.isEmpty && decision.repairStops.isEmpty
      | .repair => !decision.attempts.isEmpty && decision.repairStops.isEmpty
      | .stopped => !decision.repairStops.isEmpty) &&
    repairStopsConsistent decision.attempts event.artifactRefs [] (-1) decision.repairStops

def acceptanceReason : AcceptanceOutcome → JsString
  | .passed => js "run.acceptance.passed"
  | .repair => js "run.acceptance.repair_required"
  | .stopped => js "run.stop_loss.repeated_rejection"

def assignmentRoleValid (event : EventDraft) : Bool :=
  match event.resolvedAssignment with
  | none => true
  | some assignment => assignment.role == phaseModelRole assignment.phase

def gateFailureListed (failure : GateFailure) : Bool :=
  failure.priority == gatePriorities failure.gateId &&
    (gateReasonCodes failure.gateId).contains failure.reasonCode

def gateFailuresValid (event : EventDraft) : Bool :=
  match event.gateFailures with
  | none => true
  | some failures =>
      decide ((failures.map (·.gateId)).Nodup) && failures.all gateFailureListed &&
        decide (failures.IsChain NotAfter) &&
        (startsWith event.operation (js "sdd.continue:") || failures.isEmpty)

/-- `workflowEvent`: the contracts that carry workflow metadata. -/
def isWorkflowContract (event : EventDraft) : Bool :=
  event.stateContract == .v1_2 || event.stateContract == .v1_3 || event.stateContract == .v1_4

/-- `current`: the contracts that carry repair resolutions. -/
def isCurrentContract (event : EventDraft) : Bool :=
  event.stateContract == .v1_3 || event.stateContract == .v1_4

def hasRunLimits (event : EventDraft) : Bool := isWorkflowContract event && event.runLimits.isSome

def hasAcceptanceDecision (event : EventDraft) : Bool :=
  isWorkflowContract event && event.acceptanceDecision.isSome

def hasRepairResolution (event : EventDraft) : Bool :=
  isCurrentContract event && event.repairResolution.isSome

def hasStartedFromSpec (event : EventDraft) : Bool :=
  isCurrentContract event && event.startedFromSpec.isSome

def lockPolicyValid (event : EventDraft) : Bool :=
  !hasRunLimits event && !hasAcceptanceDecision event && !hasRepairResolution event &&
    !hasStartedFromSpec event &&
    match lockOperation event.operation with
    | none => false
    | some operation => matchesPolicy event (lockEventFacts operation.action)

def acceptancePolicyValid (event : EventDraft) : Bool :=
  isWorkflowContract event && event.policyVersion == js "workflow-v2" && !hasAssignment event &&
    !hasRunLimits event && !hasRepairResolution event && !hasStartedFromSpec event &&
    match event.acceptanceDecision with
    | none => false
    | some decision =>
        hasConsistentAcceptanceMetadata event decision && event.eventType == .decision &&
          event.effect == .stateAndArtifact &&
          event.reasonCode == acceptanceReason decision.outcome

def repairResolutionPolicyValid (event : EventDraft) : Bool :=
  isCurrentContract event && event.policyVersion == js "workflow-v2" && !hasAssignment event &&
    !hasRunLimits event && !hasAcceptanceDecision event && !hasStartedFromSpec event &&
    match event.repairResolution with
    | none => false
    | some resolution =>
        let specification := resolution.classification == .specification
        event.eventType == .recovery && event.effect == .stateAndArtifact &&
          event.reasonCode == js "run.repair_stop.resolved" &&
          event.artifactRefs.contains resolution.resolutionRef &&
          specification == resolution.nextRunId.isSome &&
          specification == resolution.restartTicketRef.isSome &&
          specification == resolution.restartTicketDigest.isSome &&
          resolution.restartTicketRef.all event.artifactRefs.contains

def specificationRestartPolicyValid (event : EventDraft) : Bool :=
  isCurrentContract event && event.policyVersion == js "workflow-v2" && !hasAssignment event &&
    hasRunLimits event && !hasAcceptanceDecision event && !hasRepairResolution event &&
    match event.startedFromSpec with
    | none => false
    | some restart =>
        event.eventType == .recovery && event.effect == .stateAndArtifact &&
          event.reasonCode == js "run.started_from_spec" &&
          event.artifactRefs.contains restart.restartTicketRef

def isWorkflowV2LimitBoundary (event : EventDraft) : Bool :=
  isWorkflowContract event && event.policyVersion == js "workflow-v2" &&
    (event.reasonCode == js "run.started" ||
      (event.stateContract == .v1_4 && event.reasonCode == workflowPolicyUpgradeFact.reasonCode))

def workflowPolicyValid (event : EventDraft) : Bool :=
  match workflowOperation event.operation with
  | none => false
  | some family =>
      !hasAcceptanceDecision event && !hasRepairResolution event && !hasStartedFromSpec event &&
        hasRunLimits event == isWorkflowV2LimitBoundary event &&
        !(event.reasonCode == workflowPolicyUpgradeFact.reasonCode &&
          event.stateContract != .v1_4) &&
        ((policiesByOperation family).filter (matchesPolicy event)).length == 1

def otherPolicyValid (event : EventDraft) : Bool :=
  event.eventType == .operation && event.effect == .state && !hasAssignment event &&
    !reservedReasons.contains event.reasonCode && !hasRunLimits event &&
    !hasAcceptanceDecision event && !hasRepairResolution event && !hasStartedFromSpec event

def operationPolicyValid (event : EventDraft) : Bool :=
  if startsWith event.operation (js "lock.") then lockPolicyValid event
  else if operationPattern acceptanceOperationHead event.operation then acceptancePolicyValid event
  else if operationPattern repairResolutionOperationHead event.operation then
    repairResolutionPolicyValid event
  else if operationPattern specificationRestartOperationHead event.operation then
    specificationRestartPolicyValid event
  else if startsWith event.operation (js "sdd.") then workflowPolicyValid event
  else otherPolicyValid event

/-- Every refusal of the policy throws the same error, so the branches are predicates. -/
def assertEventSemanticPolicy (event : EventDraft) : Except String Unit :=
  if event.stateContract = .v1_0 then .ok ()
  else if assignmentRoleValid event && gateFailuresValid event && operationPolicyValid event then
    .ok ()
  else .error "invalid event semantics"

theorem assertEventSemanticPolicy_ok_iff {event : EventDraft}
    (later : event.stateContract ≠ .v1_0) :
    assertEventSemanticPolicy event = .ok () ↔
      assignmentRoleValid event = true ∧ gateFailuresValid event = true ∧
        operationPolicyValid event = true := by
  unfold assertEventSemanticPolicy
  rw [if_neg later]
  split
  · rename_i valid
    simpa [Bool.and_eq_true, and_assoc] using valid
  · rename_i invalid
    simp only [reduceCtorEq, false_iff]
    rintro ⟨role, failures, operation⟩
    exact invalid (by rw [role, failures, operation]; rfl)

def operationHead (family : WorkflowOperationFamily) : JsString :=
  js "sdd." ++ family.text ++ js ":"

theorem operationId_eq (family : WorkflowOperationFamily) (correlationId : JsString) :
    operationId family correlationId = operationHead family ++ correlationId := rfl

theorem mem_workflowOperationFamilies (family : WorkflowOperationFamily) :
    family ∈ workflowOperationFamilies := by
  cases family with
  | start => decide
  | «continue» => decide
  | fact operation => cases operation <;> decide

private theorem operationHead_disjoint : ∀ family ∈ workflowOperationFamilies,
    ∀ other ∈ workflowOperationFamilies, family ≠ other →
      startsWith (operationHead family) (operationHead other) = false := by
  decide

private theorem operationPattern_other {family other : WorkflowOperationFamily}
    (different : family ≠ other) (correlationId : JsString) :
    operationPattern (operationHead other) (operationId family correlationId) = false := by
  have forward := operationHead_disjoint family (mem_workflowOperationFamilies family) other
    (mem_workflowOperationFamilies other) different
  have backward := operationHead_disjoint other (mem_workflowOperationFamilies other) family
    (mem_workflowOperationFamilies family) different.symm
  exact operationPattern_of_disjoint forward backward correlationId

theorem workflowOperation_operationId (family : WorkflowOperationFamily)
    {correlationId : JsString} (valid : idPattern correlationId = true) :
    workflowOperation (operationId family correlationId) = some family := by
  have own : operationPattern (operationHead family) (operationId family correlationId) = true := by
    rw [operationId_eq, operationPattern_append]
    exact valid
  cases found : workflowOperation (operationId family correlationId) with
  | none =>
      exact absurd own (List.find?_eq_none.mp found family (mem_workflowOperationFamilies family))
  | some other =>
      by_contra different
      have matched := List.find?_some found
      have distinct : family ≠ other := fun same => different (congrArg some same.symm)
      have unmatched := operationPattern_other distinct correlationId
      rw [operationHead] at unmatched
      rw [unmatched] at matched
      cases matched

end Kratos.Events
