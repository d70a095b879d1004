/- source: domain/workflow/decision.ts, domain/workflow/model.ts
   digest: The deciders that draft the events of a run. -/

import Kratos.Events.Semantics
import Kratos.Workflow.Reducer

set_option autoImplicit false

namespace Kratos.Workflow

open Foundation.Text Patterns Events
open Gates (GateFailure GateOutcome)

inductive WorkflowObservation
  | absent (operations : List JsString)
  | present (state : WorkflowState)
  | corrupt
  deriving DecidableEq, Repr

structure WorkflowIdentity where
  host : JsString
  model : Option JsString
  deriving DecidableEq, Repr

inductive ExecutionProvenance
  | hostReported | unknown
  deriving DecidableEq, Repr

/-- Validated host observation for one runtime-resolved phase assignment. -/
structure PhaseExecutionObservation where
  assignmentDigest : JsString
  model : Option JsString
  effort : Option JsString
  provenance : ExecutionProvenance
  deriving DecidableEq, Repr

structure StartWorkflowRequest where
  projectId : JsString
  feature : JsString
  runId : JsString
  correlationId : JsString
  eventId : JsString
  occurredAt : JsString
  lineage : RunLineage
  objectiveActive : Bool
  worktreeClean : Bool
  observedIdentity : WorkflowIdentity
  acceptanceAttemptCeiling : Option Int
  tokenCeiling : Option Int
  startFromSpec : Option StartedFromSpec
  deriving DecidableEq, Repr

/-- The members of a gate decision a continuation carries. -/
structure RequestGateDecision where
  outcome : GateOutcome
  failures : List GateFailure
  deriving DecidableEq, Repr

structure CompletePhase where
  artifactRefs : List JsString
  evidenceRefs : List JsString
  rejectionReasons : Option (List JsString)
  gateFailures : Option (List JsString)
  allowFinalCompletion : Bool
  deriving DecidableEq, Repr

inductive ContinueAction
  | completePhase (action : CompletePhase)
  | resume
  | reject (artifactRefs evidenceRefs : List JsString)
  deriving DecidableEq, Repr

structure ContinueWorkflowRequest where
  feature : JsString
  runId : JsString
  correlationId : JsString
  eventId : JsString
  occurredAt : JsString
  expectedRevision : Int
  observedIdentity : WorkflowIdentity
  resolvedAssignment : Option ResolvedAssignment
  phaseExecution : Option PhaseExecutionObservation
  gateDecision : Option RequestGateDecision
  action : ContinueAction
  deriving DecidableEq, Repr

structure ResolveRepairStopRequest where
  feature : JsString
  runId : JsString
  criterionId : JsString
  correlationId : JsString
  eventId : JsString
  occurredAt : JsString
  expectedRevision : Int
  resolvedBy : JsString
  observation : JsString
  observedIdentity : WorkflowIdentity
  resolutionRef : JsString
  resolutionDigest : JsString
  nextRunId : Option JsString
  restartTicketRef : Option JsString
  restartTicketDigest : Option JsString
  deriving DecidableEq, Repr

structure RecordFactRequest where
  feature : JsString
  runId : JsString
  correlationId : JsString
  eventId : JsString
  occurredAt : JsString
  expectedRevision : Int
  operation : FactOperation
  artifactRefs : List JsString
  observedIdentity : WorkflowIdentity
  resolvedAssignment : Option ResolvedAssignment
  phaseExecution : Option PhaseExecutionObservation
  deriving DecidableEq, Repr

inductive WorkflowRefusal
  | contextUnreadable | featureMismatch | runidMismatch | stateUnreadable | stopLossRejections
  | assignmentStale | executionMismatch | revisionConflict | trailUso | worktreeDirty
  deriving DecidableEq, Repr

def WorkflowRefusal.text : WorkflowRefusal → JsString
  | .contextUnreadable => js "blocked.context_unreadable"
  | .featureMismatch => js "blocked.feature_mismatch"
  | .runidMismatch => js "blocked.runid_mismatch"
  | .stateUnreadable => js "blocked.state_unreadable"
  | .stopLossRejections => js "blocked.stop_loss_rejections"
  | .assignmentStale => js "model.assignment_stale"
  | .executionMismatch => js "model.execution_mismatch"
  | .revisionConflict => js "runtime.revision_conflict"
  | .trailUso => js "trail.uso"
  | .worktreeDirty => js "trail.worktree_dirty"

inductive WorkflowTransition
  | started | resumed | accepted | rejected | completed | upgraded | observed | resolved
  deriving DecidableEq, Repr

inductive UnchangedReason
  | duplicate | alreadyCompleted
  deriving DecidableEq, Repr

inductive WorkflowDecision
  | recorded (transition : WorkflowTransition) (event : EventDraft) (why : Option (List JsString))
  | unchanged (reason : UnchangedReason)
  | refused (reasonCode : WorkflowRefusal)
  deriving DecidableEq, Repr

/-- `PASS_GATE_DECISION`. -/
def passGateDecision : RequestGateDecision := ⟨.pass, []⟩

def maxSafeInteger : Int := 9007199254740991

/-- `Number.isSafeInteger(value)` on an integer. -/
def isSafeInteger (value : Int) : Bool :=
  decide (-maxSafeInteger ≤ value) && decide (value ≤ maxSafeInteger)

def positiveSafe (value : Int) : Bool := isSafeInteger value && decide (0 < value)

def validIdentity (identity : WorkflowIdentity) : Bool :=
  idPattern identity.host && identity.model.all idPattern

def validStartFromSpec (runId : JsString) (startFromSpec : StartedFromSpec) : Bool :=
  idPattern startFromSpec.sourceRunId && startFromSpec.sourceRunId != runId &&
    referencePattern startFromSpec.restartTicketRef &&
    sha256Pattern startFromSpec.restartTicketDigest &&
    !startFromSpec.retiredCriterionIds.isEmpty &&
    decide startFromSpec.retiredCriterionIds.Nodup &&
    startFromSpec.retiredCriterionIds.all isAcceptanceCriterionId

def validStartRequest (request : StartWorkflowRequest) : Bool :=
  idPattern request.projectId && featurePattern request.feature && idPattern request.runId &&
    idPattern request.correlationId && idPattern request.eventId &&
    idPattern (operationId .start request.correlationId) &&
    validIdentity request.observedIdentity && sha256Pattern request.lineage.prdDigest &&
    sha256Pattern request.lineage.specDigest &&
    request.acceptanceAttemptCeiling.all positiveSafe && request.tokenCeiling.all positiveSafe &&
    request.startFromSpec.all (validStartFromSpec request.runId)

def validPhaseExecution (execution : PhaseExecutionObservation) : Bool :=
  sha256Pattern execution.assignmentDigest && execution.model.all idPattern &&
    execution.effort.all idPattern

def validContinueRequest (request : ContinueWorkflowRequest) : Bool :=
  featurePattern request.feature && idPattern request.runId && idPattern request.correlationId &&
    idPattern request.eventId && idPattern (operationId .continue request.correlationId) &&
    isSafeInteger request.expectedRevision && decide (0 ≤ request.expectedRevision) &&
    validIdentity request.observedIdentity && request.phaseExecution.all validPhaseExecution

def executionMismatch (assignment : ResolvedAssignment) (execution : PhaseExecutionObservation) :
    Bool :=
  execution.provenance == .hostReported &&
    ((execution.model.isSome && execution.model != some assignment.model) ||
      (execution.effort.isSome && execution.effort != some assignment.effort))

def phaseIdentity (identity : WorkflowIdentity) :
    Option PhaseExecutionObservation → ObservedIdentity
  | none => ⟨identity.host, identity.model, some none⟩
  | some execution =>
      match execution.provenance with
      | .hostReported => ⟨identity.host, execution.model, some execution.effort⟩
      | .unknown => ⟨identity.host, none, some none⟩

def hasOperation (observation : WorkflowObservation) (operation : JsString) : Bool :=
  match observation with
  | .absent operations => operations.contains operation
  | .present state => state.operations.contains operation
  | .corrupt => false

/-- The `input` record of an event draft. -/
structure EventInput where
  eventId : JsString
  occurredAt : JsString
  operation : JsString
  revision : Nat
  identity : WorkflowIdentity

/-- `event(input, transition, ...)`. -/
def transitionEvent (input : EventInput) (transition : MovingTransition)
    (artifactRefs evidenceRefs : List JsString) (resolvedAssignment : Option ResolvedAssignment)
    (phaseExecution : Option PhaseExecutionObservation) (runLimits : Option RunLimits)
    (gateFailures : List GateFailure) : EventDraft :=
  let fact := workflowTransitionFacts transition
  { contractVersion := .v1_2
    stateContract := .v1_2
    eventId := input.eventId
    eventType := fact.eventType
    occurredAt := input.occurredAt
    operation := input.operation
    policyVersion := workflowPolicyVersion
    priorRevision := input.revision
    resultingRevision := input.revision + 1
    reasonCode := fact.reasonCode
    effect := fact.effect
    artifactRefs, evidenceRefs
    observedIdentity := phaseIdentity input.identity phaseExecution
    gateFailures := some gateFailures
    resolvedAssignment, runLimits
    resulting_pos := Nat.succ_pos _ }

def policyUpgradeEvent (input : EventInput) (runLimits : RunLimits) : EventDraft where
  contractVersion := .v1_4
  stateContract := .v1_4
  eventId := input.eventId
  eventType := workflowPolicyUpgradeFact.eventType
  occurredAt := input.occurredAt
  operation := input.operation
  policyVersion := workflowPolicyVersion
  priorRevision := input.revision
  resultingRevision := input.revision + 1
  reasonCode := workflowPolicyUpgradeFact.reasonCode
  effect := workflowPolicyUpgradeFact.effect
  artifactRefs := []
  evidenceRefs := []
  gateFailures := some []
  observedIdentity := phaseIdentity input.identity none
  runLimits := some runLimits
  resulting_pos := Nat.succ_pos _

/-- `request.acceptanceAttemptCeiling ?? 3` and `request.tokenCeiling ?? null`. -/
def requestLimits (request : StartWorkflowRequest) : RunLimits where
  acceptanceAttemptCeiling := (request.acceptanceAttemptCeiling.getD 3).toNat
  tokenCeiling := request.tokenCeiling.map Int.toNat

def startInput (request : StartWorkflowRequest) (revision : Nat) : EventInput where
  eventId := request.eventId
  occurredAt := request.occurredAt
  operation := operationId .start request.correlationId
  revision
  identity := request.observedIdentity

def startFromSpecEvent (request : StartWorkflowRequest) (startFromSpec : StartedFromSpec) :
    EventDraft where
  contractVersion := .v1_3
  stateContract := .v1_3
  eventId := request.eventId
  eventType := .recovery
  occurredAt := request.occurredAt
  operation := specificationRestartOperationHead ++ request.correlationId
  policyVersion := workflowPolicyVersion
  priorRevision := 0
  resultingRevision := 1
  reasonCode := js "run.started_from_spec"
  effect := .stateAndArtifact
  artifactRefs := [startFromSpec.restartTicketRef]
  evidenceRefs := []
  gateFailures := some []
  observedIdentity := phaseIdentity request.observedIdentity none
  runLimits := some (requestLimits request)
  startedFromSpec := some startFromSpec
  resulting_pos := Nat.one_pos

def decideStartPresent (state : WorkflowState) (request : StartWorkflowRequest) :
    WorkflowDecision :=
  if state.feature ≠ request.feature then .refused .featureMismatch
  else if state.runId ≠ request.runId then .refused .runidMismatch
  else if state.status = .completed then .unchanged .alreadyCompleted
  else if isPristineLegacy state then
    .recorded .upgraded
      (policyUpgradeEvent (startInput request state.revision) (requestLimits request)) none
  else if state.policyVersion ≠ some workflowPolicyVersion ∨
      state.acceptanceAttemptCeiling = none then .refused .trailUso
  else if state.activeRepairStops ≠ [] ∨ state.specificationRestart ≠ none then
    .refused .stopLossRejections
  else
    .recorded .resumed
      (transitionEvent (startInput request state.revision) .resumed [] [] none none none []) none

/-- The start of a run no event records yet. -/
def decideStartAbsent (request : StartWorkflowRequest) : WorkflowDecision :=
  match request.startFromSpec with
  | some startFromSpec =>
      if startFromSpec.retiredCriterionIds = [] then .refused .trailUso
      else .recorded .started (startFromSpecEvent request startFromSpec) none
  | none =>
      .recorded .started
        (transitionEvent (startInput request 0) .started [] [] none none
          (some (requestLimits request)) []) none

def decideStartWorkflow (observation : WorkflowObservation) (request : StartWorkflowRequest) :
    WorkflowDecision :=
  if validStartRequest request = false then .refused .trailUso
  else if observation = .corrupt then .refused .stateUnreadable
  else if request.objectiveActive = false then .refused .trailUso
  else if request.worktreeClean = false then .refused .worktreeDirty
  else if hasOperation observation (operationId .start request.correlationId) then
    .unchanged .duplicate
  else
    match observation with
    | .present state => decideStartPresent state request
    | .absent _ | .corrupt => decideStartAbsent request

def MovingTransition.name : MovingTransition → WorkflowTransition
  | .started => .started
  | .resumed => .resumed
  | .accepted => .accepted
  | .rejected => .rejected
  | .completed => .completed

/-- The draft of a continuation: only a move past a phase carries assignment and execution. -/
def continueEvent (request : ContinueWorkflowRequest) (operation : JsString) (revision : Nat)
    (transition : MovingTransition) (artifactRefs evidenceRefs : List JsString) : EventDraft :=
  let moving := transition == .accepted || transition == .completed
  transitionEvent
    { eventId := request.eventId, occurredAt := request.occurredAt, operation, revision,
      identity := request.observedIdentity }
    transition artifactRefs evidenceRefs
    (if moving then request.resolvedAssignment else none)
    (if moving then request.phaseExecution else none)
    none (request.gateDecision.getD passGateDecision).failures

/-- `recorded(request, operation, revision, transition, ...)`. -/
def recorded (request : ContinueWorkflowRequest) (operation : JsString) (revision : Nat)
    (transition : MovingTransition) (artifactRefs evidenceRefs : List JsString)
    (why : Option (List JsString)) : WorkflowDecision :=
  .recorded (MovingTransition.name transition)
    (continueEvent request operation revision transition artifactRefs evidenceRefs) why

/-- `action.rejectionReasons ?? action.gateFailures ?? []`. -/
def actionReasons (action : CompletePhase) : List JsString :=
  (action.rejectionReasons <|> action.gateFailures).getD []

def rejectionWhy (gateDecision : RequestGateDecision) (action : CompletePhase) : List JsString :=
  let reasons := (if gateDecision.outcome = .block then
      gateDecision.failures.map (·.reasonCode.text) else []) ++ actionReasons action
  let reasons := if action.artifactRefs.isEmpty && !reasons.contains (js "artifact-unreadable")
    then reasons ++ [js "artifact-missing"] else reasons
  let reasons := if action.evidenceRefs.isEmpty && !reasons.contains (js "evidence-invalid")
    then reasons ++ [js "evidence-missing"] else reasons
  reasons.eraseDups

/-- Whether the completion of a phase is rejected on its own evidence. -/
def phaseRejected (request : ContinueWorkflowRequest) (action : CompletePhase) : Bool :=
  (request.gateDecision.getD passGateDecision).outcome == .block ||
    !(actionReasons action).isEmpty || action.artifactRefs.isEmpty || action.evidenceRefs.isEmpty

def decideCompletePhase (state : WorkflowState) (request : ContinueWorkflowRequest)
    (action : CompletePhase) : WorkflowDecision :=
  let operation := operationId .continue request.correlationId
  let finalPhase := state.currentStep == runPhases.getLast?
  if phaseRejected request action then
    recorded request operation state.revision .rejected action.artifactRefs action.evidenceRefs
      (some (rejectionWhy (request.gateDecision.getD passGateDecision) action))
  else if finalPhase && !action.allowFinalCompletion then
    recorded request operation state.revision .rejected action.artifactRefs action.evidenceRefs
      (some [js "final-completion-not-allowed"])
  else
    match request.resolvedAssignment, request.phaseExecution with
    | some assignment, some execution =>
        if executionMismatch assignment execution then .refused .executionMismatch
        else
          recorded request operation state.revision
            (if finalPhase then .completed else .accepted)
            action.artifactRefs action.evidenceRefs none
    | _, _ => .refused .trailUso

/-- The action of a continuation; a stopped or retired run only takes a rejection. -/
def decideContinueAction (state : WorkflowState) (request : ContinueWorkflowRequest) :
    WorkflowDecision :=
  let operation := operationId .continue request.correlationId
  match request.action with
  | .reject artifactRefs evidenceRefs =>
      recorded request operation state.revision .rejected artifactRefs evidenceRefs
        (some [js "explicit-reject"])
  | .resume =>
      if state.activeRepairStops ≠ [] ∨ state.specificationRestart ≠ none then
        .refused .stopLossRejections
      else recorded request operation state.revision .resumed [] [] none
  | .completePhase action =>
      if state.activeRepairStops ≠ [] ∨ state.specificationRestart ≠ none then
        .refused .stopLossRejections
      else decideCompletePhase state request action

def decideContinuePresent (state : WorkflowState) (request : ContinueWorkflowRequest) :
    WorkflowDecision :=
  if state.feature ≠ request.feature then .refused .featureMismatch
  else if state.runId ≠ request.runId then .refused .runidMismatch
  else if operationId .continue request.correlationId ∈ state.operations then
    .unchanged .duplicate
  else if state.status = .completed then .unchanged .alreadyCompleted
  else if state.policyVersion ≠ some workflowPolicyVersion ∨
      state.acceptanceAttemptCeiling = none then .refused .trailUso
  else if request.expectedRevision ≠ state.revision then .refused .revisionConflict
  else decideContinueAction state request

def decideContinueWorkflow (observation : WorkflowObservation)
    (request : ContinueWorkflowRequest) : WorkflowDecision :=
  if validContinueRequest request = false then .refused .trailUso
  else
    match observation with
    | .corrupt => .refused .stateUnreadable
    | .absent _ => .refused .contextUnreadable
    | .present state => decideContinuePresent state request

/-- The request checks of `decideResolveRepairStop`. -/
def validResolveRequest (request : ResolveRepairStopRequest) : Bool :=
  featurePattern request.feature && idPattern request.runId &&
    isAcceptanceCriterionId request.criterionId && idPattern request.correlationId &&
    idPattern request.eventId &&
    idPattern (repairResolutionOperationHead ++ request.correlationId) &&
    isSafeInteger request.expectedRevision && decide (0 ≤ request.expectedRevision) &&
    idPattern request.resolvedBy && !isBlank request.observation &&
    decide (request.observation.length ≤ 2048) && !hasControlCharacters request.observation &&
    validIdentity request.observedIdentity && referencePattern request.resolutionRef &&
    sha256Pattern request.resolutionDigest

/-- The prior resolution of the same operation repeats the request. -/
def repeatsResolution (request : ResolveRepairStopRequest) (prior : WorkflowRepairResolution) :
    Bool :=
  prior.criterionId == request.criterionId &&
    prior.classification == (if request.nextRunId = none then .code else .specification) &&
    prior.resolutionRef == request.resolutionRef &&
    prior.resolutionDigest == request.resolutionDigest &&
    prior.nextRunId == request.nextRunId && prior.restartTicketRef == request.restartTicketRef &&
    prior.restartTicketDigest == request.restartTicketDigest

/-- The successor members of a request fit the classification of its stop. -/
def validSuccessor (request : ResolveRepairStopRequest) (specification : Bool) : Bool :=
  specification == request.nextRunId.isSome && specification == request.restartTicketRef.isSome &&
    specification == request.restartTicketDigest.isSome &&
    request.nextRunId.all (fun nextRunId => idPattern nextRunId && nextRunId != request.runId) &&
    request.restartTicketRef.all referencePattern && request.restartTicketDigest.all sha256Pattern

def draftedResolution (request : ResolveRepairStopRequest) (stop : RepairStop) :
    RepairResolution where
  criterionId := request.criterionId
  classification := stop.classification
  resolutionRef := request.resolutionRef
  resolutionDigest := request.resolutionDigest
  nextRunId := request.nextRunId
  restartTicketRef := request.restartTicketRef
  restartTicketDigest := request.restartTicketDigest

def resolutionEvent (state : WorkflowState) (request : ResolveRepairStopRequest)
    (stop : RepairStop) : EventDraft where
  contractVersion := .v1_3
  stateContract := .v1_3
  eventId := request.eventId
  eventType := .recovery
  occurredAt := request.occurredAt
  operation := repairResolutionOperationHead ++ request.correlationId
  policyVersion := workflowPolicyVersion
  priorRevision := state.revision
  resultingRevision := state.revision + 1
  reasonCode := js "run.repair_stop.resolved"
  effect := .stateAndArtifact
  artifactRefs := request.resolutionRef :: request.restartTicketRef.toList
  evidenceRefs := []
  gateFailures := some []
  observedIdentity := phaseIdentity request.observedIdentity none
  repairResolution := some (draftedResolution request stop)
  resulting_pos := state.next_pos

def decideResolvePresent (state : WorkflowState) (request : ResolveRepairStopRequest) :
    WorkflowDecision :=
  let operation := repairResolutionOperationHead ++ request.correlationId
  if state.feature ≠ request.feature then .refused .featureMismatch
  else if state.runId ≠ request.runId then .refused .runidMismatch
  else if operation ∈ state.operations then
    if (state.repairResolutions.find? (·.operation == operation)).any (repeatsResolution request)
    then .unchanged .duplicate
    else .refused .revisionConflict
  else if state.policyVersion ≠ some workflowPolicyVersion ∨ state.status ≠ .blocked ∨
      state.specificationRestart ≠ none then .refused .trailUso
  else if request.expectedRevision ≠ state.revision then .refused .revisionConflict
  else
    match state.activeRepairStops.find? (·.criterionId == request.criterionId) with
    | none => .refused .trailUso
    | some stop =>
        let specification := stop.classification == .specification
        if specification && state.activeRepairStops.any (·.classification == .code) then
          .refused .stopLossRejections
        else if validSuccessor request specification = false then .refused .trailUso
        else .recorded .resolved (resolutionEvent state request stop) none

def decideResolveRepairStop (observation : WorkflowObservation)
    (request : ResolveRepairStopRequest) : WorkflowDecision :=
  if validResolveRequest request = false then .refused .trailUso
  else
    match observation with
    | .corrupt => .refused .stateUnreadable
    | .absent _ => .refused .contextUnreadable
    | .present state => decideResolvePresent state request

/-- The request checks of `decideRecordFact`. -/
def validFactRequest (request : RecordFactRequest) : Bool :=
  featurePattern request.feature && idPattern request.runId && idPattern request.correlationId &&
    idPattern request.eventId &&
    idPattern (operationId (.fact request.operation) request.correlationId) &&
    isSafeInteger request.expectedRevision && decide (0 ≤ request.expectedRevision) &&
    validIdentity request.observedIdentity && request.phaseExecution.all validPhaseExecution &&
    request.artifactRefs.all (!·.isEmpty)

def factEvent (state : WorkflowState) (request : RecordFactRequest) : EventDraft where
  contractVersion := .v1_2
  stateContract := .v1_2
  eventId := request.eventId
  eventType := (workflowOperationFacts request.operation).eventType
  occurredAt := request.occurredAt
  operation := operationId (.fact request.operation) request.correlationId
  policyVersion := workflowPolicyVersion
  priorRevision := state.revision
  resultingRevision := state.revision + 1
  reasonCode := (workflowOperationFacts request.operation).reasonCode
  effect := (workflowOperationFacts request.operation).effect
  artifactRefs := request.artifactRefs
  evidenceRefs := []
  observedIdentity := phaseIdentity request.observedIdentity request.phaseExecution
  gateFailures := some []
  resolvedAssignment := request.resolvedAssignment
  resulting_pos := state.next_pos

/-- A dispatched agent carries its assignment and execution; no other fact carries either. -/
def factAssignmentValid (request : RecordFactRequest) : Bool :=
  if request.operation = .agentRecord then
    request.resolvedAssignment.isSome && request.phaseExecution.isSome
  else request.resolvedAssignment.isNone && request.phaseExecution.isNone

def factMismatch (request : RecordFactRequest) : Bool :=
  match request.resolvedAssignment, request.phaseExecution with
  | some assignment, some execution => executionMismatch assignment execution
  | _, _ => false

def decideFactPresent (state : WorkflowState) (request : RecordFactRequest) : WorkflowDecision :=
  if state.feature ≠ request.feature then .refused .featureMismatch
  else if state.runId ≠ request.runId then .refused .runidMismatch
  else if operationId (.fact request.operation) request.correlationId ∈ state.operations then
    .unchanged .duplicate
  else if state.status = .completed then .unchanged .alreadyCompleted
  else if state.policyVersion ≠ some workflowPolicyVersion ∨
      state.acceptanceAttemptCeiling = none then .refused .trailUso
  else if request.expectedRevision ≠ state.revision then .refused .revisionConflict
  else if factAssignmentValid request = false then .refused .trailUso
  else if factMismatch request then .refused .executionMismatch
  else .recorded .observed (factEvent state request) none

def decideRecordFact (observation : WorkflowObservation) (request : RecordFactRequest) :
    WorkflowDecision :=
  if validFactRequest request = false then .refused .trailUso
  else
    match observation with
    | .corrupt => .refused .stateUnreadable
    | .absent _ => .refused .contextUnreadable
    | .present state => decideFactPresent state request

/-! The inversion of each decider: what it knows when it records. -/

theorem decideStart_recorded {observation : WorkflowObservation} {request : StartWorkflowRequest}
    {transition : WorkflowTransition} {event : EventDraft} {why : Option (List JsString)}
    (decided : decideStartWorkflow observation request = .recorded transition event why) :
    validStartRequest request = true ∧ observation ≠ .corrupt ∧
      hasOperation observation (operationId .start request.correlationId) = false ∧
      ((∃ state, observation = .present state ∧
          decideStartPresent state request = .recorded transition event why) ∨
        ((∃ operations, observation = .absent operations) ∧
          decideStartAbsent request = .recorded transition event why)) := by
  unfold decideStartWorkflow at decided
  split_ifs at decided with invalid corrupt inactive dirty duplicate
  refine ⟨by simpa using invalid, corrupt, by simpa using duplicate, ?_⟩
  cases observation with
  | present state => exact .inl ⟨state, rfl, decided⟩
  | absent operations => exact .inr ⟨⟨operations, rfl⟩, decided⟩
  | corrupt => exact absurd rfl corrupt

/-- What a start of an existing run records. -/
inductive StartPresent (state : WorkflowState) (request : StartWorkflowRequest) :
    WorkflowTransition → EventDraft → Prop
  | upgraded (pristine : isPristineLegacy state = true) :
      StartPresent state request .upgraded
        (policyUpgradeEvent (startInput request state.revision) (requestLimits request))
  | resumed (policy : state.policyVersion = some workflowPolicyVersion)
      (limited : state.acceptanceAttemptCeiling ≠ none) (unstopped : state.activeRepairStops = [])
      (unretired : state.specificationRestart = none) :
      StartPresent state request .resumed
        (transitionEvent (startInput request state.revision) .resumed [] [] none none none [])

theorem decideStartPresent_recorded {state : WorkflowState} {request : StartWorkflowRequest}
    {transition : WorkflowTransition} {event : EventDraft} {why : Option (List JsString)}
    (decided : decideStartPresent state request = .recorded transition event why) :
    state.feature = request.feature ∧ state.runId = request.runId ∧ state.status ≠ .completed ∧
      StartPresent state request transition event := by
  unfold decideStartPresent at decided
  split_ifs at decided with feature runId completed pristine policy stops
  · cases decided
    exact ⟨not_not.mp feature, not_not.mp runId, completed, .upgraded pristine⟩
  · cases decided
    obtain ⟨known, limited⟩ := not_or.mp policy
    obtain ⟨unstopped, unretired⟩ := not_or.mp stops
    exact ⟨not_not.mp feature, not_not.mp runId, completed,
      .resumed (not_not.mp known) limited (not_not.mp unstopped) (not_not.mp unretired)⟩

theorem decideStartAbsent_recorded {request : StartWorkflowRequest}
    {transition : WorkflowTransition} {event : EventDraft} {why : Option (List JsString)}
    (decided : decideStartAbsent request = .recorded transition event why) :
    transition = .started ∧
      ((∃ startFromSpec, request.startFromSpec = some startFromSpec ∧
          startFromSpec.retiredCriterionIds ≠ [] ∧
          event = startFromSpecEvent request startFromSpec) ∨
        (request.startFromSpec = none ∧
          event = transitionEvent (startInput request 0) .started [] [] none none
            (some (requestLimits request)) [])) := by
  unfold decideStartAbsent at decided
  split at decided
  · rename_i startFromSpec carried
    split_ifs at decided with empty
    cases decided
    exact ⟨rfl, .inl ⟨startFromSpec, carried, empty, rfl⟩⟩
  · rename_i absent
    cases decided
    exact ⟨rfl, .inr ⟨absent, rfl⟩⟩

/-- What every decider of an open run checks before it records. -/
structure OpenRun (state : WorkflowState) (feature runId : JsString) (expectedRevision : Int) :
    Prop where
  feature : state.feature = feature
  runId : state.runId = runId
  incomplete : state.status ≠ .completed
  policy : state.policyVersion = some workflowPolicyVersion
  limited : state.acceptanceAttemptCeiling ≠ none
  revision : expectedRevision = state.revision

inductive ContinuePresent (state : WorkflowState) (request : ContinueWorkflowRequest) :
    WorkflowTransition → EventDraft → Prop
  | resumed (unstopped : state.activeRepairStops = [])
      (unretired : state.specificationRestart = none) :
      ContinuePresent state request .resumed
        (continueEvent request (operationId .continue request.correlationId) state.revision
          .resumed [] [])
  | rejected (artifactRefs evidenceRefs : List JsString) :
      ContinuePresent state request .rejected
        (continueEvent request (operationId .continue request.correlationId) state.revision
          .rejected artifactRefs evidenceRefs)
  | accepted {artifactRefs evidenceRefs : List JsString}
      (unstopped : state.activeRepairStops = []) (unretired : state.specificationRestart = none)
      (assigned : request.resolvedAssignment.isSome = true)
      (unfinished : state.currentStep ≠ some .acceptance) :
      ContinuePresent state request .accepted
        (continueEvent request (operationId .continue request.correlationId) state.revision
          .accepted artifactRefs evidenceRefs)
  | completed {artifactRefs evidenceRefs : List JsString}
      (unstopped : state.activeRepairStops = []) (unretired : state.specificationRestart = none)
      (assigned : request.resolvedAssignment.isSome = true)
      (final : state.currentStep = some .acceptance) :
      ContinuePresent state request .completed
        (continueEvent request (operationId .continue request.correlationId) state.revision
          .completed artifactRefs evidenceRefs)

private theorem decideCompletePhase_recorded {state : WorkflowState}
    {request : ContinueWorkflowRequest} {action : CompletePhase} {transition : WorkflowTransition}
    {event : EventDraft} {why : Option (List JsString)}
    (unstopped : state.activeRepairStops = []) (unretired : state.specificationRestart = none)
    (decided : decideCompletePhase state request action = .recorded transition event why) :
    ContinuePresent state request transition event := by
  unfold decideCompletePhase at decided
  dsimp only at decided
  split at decided
  · cases decided
    exact .rejected _ _
  · split at decided
    · cases decided
      exact .rejected _ _
    · split at decided
      · rename_i assignment execution carried observed
        split at decided
        · cases decided
        · have assigned : request.resolvedAssignment.isSome = true := by rw [carried]; rfl
          by_cases final : state.currentStep = some .acceptance
          · rw [final] at decided
            cases decided
            exact .completed unstopped unretired assigned final
          · have other : (state.currentStep == runPhases.getLast?) = false :=
              beq_eq_false_iff_ne.mpr final
            rw [other] at decided
            cases decided
            exact .accepted unstopped unretired assigned final
      · cases decided

private theorem decideContinueAction_recorded {state : WorkflowState}
    {request : ContinueWorkflowRequest} {transition : WorkflowTransition} {event : EventDraft}
    {why : Option (List JsString)}
    (decided : decideContinueAction state request = .recorded transition event why) :
    ContinuePresent state request transition event := by
  unfold decideContinueAction at decided
  dsimp only at decided
  split at decided
  · cases decided
    exact .rejected _ _
  · split at decided
    · cases decided
    · rename_i stops
      obtain ⟨unstopped, unretired⟩ := not_or.mp stops
      cases decided
      exact .resumed (not_not.mp unstopped) (not_not.mp unretired)
  · split at decided
    · cases decided
    · rename_i stops
      obtain ⟨unstopped, unretired⟩ := not_or.mp stops
      exact decideCompletePhase_recorded (not_not.mp unstopped) (not_not.mp unretired) decided

theorem decideContinue_recorded {observation : WorkflowObservation}
    {request : ContinueWorkflowRequest} {transition : WorkflowTransition} {event : EventDraft}
    {why : Option (List JsString)}
    (decided : decideContinueWorkflow observation request = .recorded transition event why) :
    validContinueRequest request = true ∧ ∃ state, observation = .present state ∧
      OpenRun state request.feature request.runId request.expectedRevision ∧
      operationId .continue request.correlationId ∉ state.operations ∧
      ContinuePresent state request transition event := by
  unfold decideContinueWorkflow at decided
  split at decided
  · cases decided
  · rename_i valid
    split at decided
    · cases decided
    · cases decided
    · rename_i state
      unfold decideContinuePresent at decided
      split_ifs at decided with feature runId duplicate completed policy revision
      obtain ⟨known, limited⟩ := not_or.mp policy
      exact ⟨by simpa using valid, state, rfl, ⟨not_not.mp feature, not_not.mp runId, completed,
        not_not.mp known, limited, not_not.mp revision⟩, duplicate,
        decideContinueAction_recorded decided⟩

theorem decideFact_recorded {observation : WorkflowObservation} {request : RecordFactRequest}
    {transition : WorkflowTransition} {event : EventDraft} {why : Option (List JsString)}
    (decided : decideRecordFact observation request = .recorded transition event why) :
    validFactRequest request = true ∧ ∃ state, observation = .present state ∧
      OpenRun state request.feature request.runId request.expectedRevision ∧
      operationId (.fact request.operation) request.correlationId ∉ state.operations ∧
      factAssignmentValid request = true ∧ transition = .observed ∧
      event = factEvent state request := by
  unfold decideRecordFact at decided
  split at decided
  · cases decided
  · rename_i valid
    split at decided
    · cases decided
    · cases decided
    · rename_i state
      unfold decideFactPresent at decided
      split_ifs at decided with feature runId duplicate completed policy revision assigned mismatch
      obtain ⟨known, limited⟩ := not_or.mp policy
      cases decided
      exact ⟨by simpa using valid, state, rfl, ⟨not_not.mp feature, not_not.mp runId, completed,
        not_not.mp known, limited, not_not.mp revision⟩, duplicate, by simpa using assigned, rfl,
        rfl⟩

/-- What a resolution records: the stop it resolves and the fit of its successor. -/
structure ResolvePresent (state : WorkflowState) (request : ResolveRepairStopRequest)
    (stop : RepairStop) : Prop where
  feature : state.feature = request.feature
  runId : state.runId = request.runId
  fresh : repairResolutionOperationHead ++ request.correlationId ∉ state.operations
  policy : state.policyVersion = some workflowPolicyVersion
  blocked : state.status = .blocked
  unretired : state.specificationRestart = none
  revision : request.expectedRevision = state.revision
  found : state.activeRepairStops.find? (·.criterionId == request.criterionId) = some stop
  noCode : stop.classification = .specification →
    state.activeRepairStops.any (·.classification == .code) = false
  successor : validSuccessor request (stop.classification == .specification) = true

theorem decideResolve_recorded {observation : WorkflowObservation}
    {request : ResolveRepairStopRequest} {transition : WorkflowTransition} {event : EventDraft}
    {why : Option (List JsString)}
    (decided : decideResolveRepairStop observation request = .recorded transition event why) :
    validResolveRequest request = true ∧ ∃ state stop, observation = .present state ∧
      ResolvePresent state request stop ∧ transition = .resolved ∧
      event = resolutionEvent state request stop := by
  unfold decideResolveRepairStop at decided
  split at decided
  · cases decided
  · rename_i valid
    split at decided
    · cases decided
    · cases decided
    · rename_i state
      unfold decideResolvePresent at decided
      dsimp only at decided
      split_ifs at decided with feature runId repeated same policy revision
      simp only [not_or, not_not] at policy
      obtain ⟨known, blocked, unretired⟩ := policy
      split at decided
      · cases decided
      · rename_i stop found
        split_ifs at decided with mixed successor
        cases decided
        refine ⟨by simpa using valid, state, stop, rfl, ⟨not_not.mp feature, not_not.mp runId,
          repeated, known, blocked, unretired, not_not.mp revision, found, ?_,
          by simpa using successor⟩, rfl, rfl⟩
        intro specification
        simpa [specification] using mixed

end Kratos.Workflow
