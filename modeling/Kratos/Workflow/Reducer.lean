/- source: domain/workflow/model.ts, domain/workflow/reducer.ts
   digest: The replay state of a run and the reducers of both workflow policies. -/

import Kratos.Events.Model
import Kratos.Foundation.Collections
import Kratos.Patterns

set_option autoImplicit false

namespace Kratos.Workflow

open Foundation.Text Foundation.Collections Patterns Events

/-- `LEGACY_WORKFLOW_POLICY_VERSION`. -/
def legacyWorkflowPolicyVersion : JsString := js "workflow-v1"

/-- `WORKFLOW_POLICY_VERSION`. -/
def workflowPolicyVersion : JsString := js "workflow-v2"

structure RunLineage where
  prdDigest : JsString
  specDigest : JsString
  deriving DecidableEq, Repr

structure WorkflowSpecificationRestart where
  criterionId : JsString
  nextRunId : JsString
  restartTicketRef : JsString
  restartTicketDigest : JsString
  deriving DecidableEq, Repr

structure WorkflowRepairResolution where
  operation : JsString
  criterionId : JsString
  classification : Classification
  resolutionRef : JsString
  resolutionDigest : JsString
  nextRunId : Option JsString
  restartTicketRef : Option JsString
  restartTicketDigest : Option JsString
  deriving DecidableEq, Repr

structure WorkflowStartedFromSpec where
  sourceRunId : JsString
  restartTicketRef : JsString
  restartTicketDigest : JsString
  deriving DecidableEq, Repr

/-- Replay state used by the workflow reducer. -/
structure WorkflowState where
  projectId : JsString
  feature : JsString
  runId : JsString
  status : RunStatus
  currentStep : Option RunPhase
  revision : Nat
  lineage : RunLineage
  createdAt : Option JsString
  updatedAt : Option JsString
  operations : List JsString
  policyVersion : Option JsString
  acceptanceAttemptCeiling : Option Nat
  tokenCeiling : Option Nat
  attempts : List AcceptanceAttempt
  activeRepairStops : List RepairStop
  repairStopHistory : List RepairStop
  repairResolutions : List WorkflowRepairResolution
  specificationRestart : Option WorkflowSpecificationRestart
  retiredCriterionIds : List JsString
  startedFromSpec : Option WorkflowStartedFromSpec
  deriving DecidableEq, Repr

theorem WorkflowState.next_pos (state : WorkflowState) : 0 < state.revision + 1 :=
  Nat.succ_pos state.revision

structure WorkflowReducerConfiguration where
  projectId : JsString
  feature : JsString
  runId : JsString
  lineage : RunLineage
  deriving DecidableEq, Repr

def nextPhase : Option RunPhase → Option RunPhase
  | none => runPhases.head?
  | some current => runPhases[runPhases.idxOf current + 1]?

def workflowSeed (configuration : WorkflowReducerConfiguration) : WorkflowState where
  projectId := configuration.projectId
  feature := configuration.feature
  runId := configuration.runId
  status := .idle
  currentStep := none
  revision := 0
  lineage := configuration.lineage
  createdAt := none
  updatedAt := none
  operations := []
  policyVersion := none
  acceptanceAttemptCeiling := none
  tokenCeiling := none
  attempts := []
  activeRepairStops := []
  repairStopHistory := []
  repairResolutions := []
  specificationRestart := none
  retiredCriterionIds := []
  startedFromSpec := none

def mergeAttempts (state : WorkflowState) (updates : List AcceptanceAttempt) :
    List AcceptanceAttempt :=
  updates ++ state.attempts.filter fun attempt =>
    !(updates.map (·.criterionId)).contains attempt.criterionId

def mergeRepairStopHistory (state : WorkflowState) (stops : List RepairStop) :
    List RepairStop :=
  state.repairStopHistory ++ stops.filter fun stop =>
    !(state.repairStopHistory.map (·.criterionId)).contains stop.criterionId

/-- `previous.get(criterionId) ?? 0`. -/
def previousAttempt (state : WorkflowState) (criterionId : JsString) : Nat :=
  (mapGet (state.attempts.map fun attempt => (attempt.criterionId, attempt.attempt))
    criterionId).getD 0

/-- The loop over `decision.attempts`, carrying the criteria already seen. -/
def canonicalAttempts (state : WorkflowState) (ceiling : Nat) (criterionIds : List JsString) :
    List AcceptanceAttempt → Bool
  | [] => true
  | attempt :: rest =>
      isAcceptanceCriterionId attempt.criterionId &&
        !criterionIds.contains attempt.criterionId &&
        attempt.attempt == previousAttempt state attempt.criterionId + 1 &&
        decide (attempt.attempt ≤ ceiling) &&
        canonicalAttempts state ceiling (attempt.criterionId :: criterionIds) rest

/-- `decision.repairStops.every(...)` against the tripping attempts at the same index. -/
def stopsMatch (artifactRefs : List JsString) : List RepairStop → List AcceptanceAttempt → Bool
  | [], _ => true
  | _ :: _, [] => false
  | stop :: stops, attempt :: tripping =>
      attempt.criterionId == stop.criterionId && attempt.attempt == stop.attempt &&
        artifactRefs.contains stop.artifactRef && stopsMatch artifactRefs stops tripping

def trippingAttempts (decision : AcceptanceDecision) (ceiling : Nat) : List AcceptanceAttempt :=
  decision.attempts.filter fun attempt => attempt.attempt == ceiling

def outcomeShape (event : EventDraft) (decision : AcceptanceDecision) (ceiling : Nat) :
    AcceptanceOutcome → Bool
  | .passed => decision.attempts.isEmpty && decision.repairStops.isEmpty
  | .repair =>
      !decision.attempts.isEmpty && (trippingAttempts decision ceiling).isEmpty &&
        decision.repairStops.isEmpty
  | .stopped =>
      !decision.attempts.isEmpty && !(trippingAttempts decision ceiling).isEmpty &&
        decision.repairStops.length == (trippingAttempts decision ceiling).length &&
        stopsMatch event.artifactRefs decision.repairStops (trippingAttempts decision ceiling)

def hasCanonicalAcceptanceDecision (state : WorkflowState) (event : EventDraft)
    (decision : AcceptanceDecision) (expectedOutcome : AcceptanceOutcome) : Bool :=
  match state.acceptanceAttemptCeiling with
  | none => false
  | some ceiling =>
      state.currentStep == some .acceptance && state.activeRepairStops.isEmpty &&
        decision.outcome == expectedOutcome &&
        canonicalAttempts state ceiling [] decision.attempts &&
        outcomeShape event decision ceiling expectedOutcome

/-- The reasons the shared reducer moves a run for. -/
inductive KnownReason
  | started | resumed | accepted | rejected | fact | completed
  deriving DecidableEq, Repr

/-- The cases of the `switch` over `event.reasonCode`. -/
def knownReason (reasonCode : JsString) : Option KnownReason :=
  if reasonCode = js "run.started" then some .started
  else if reasonCode = js "run.resumed" then some .resumed
  else if reasonCode = js "run.transition.accepted" then some .accepted
  else if reasonCode = js "run.transition.rejected" then some .rejected
  else if reasonCode = js "run.agent.recorded" || reasonCode = js "run.gap.recorded" ||
      reasonCode = js "run.gap.resolved" || reasonCode = js "run.gap.waived" ||
      reasonCode = js "run.gates.recorded" then some .fact
  else if reasonCode = js "run.completed" then some .completed
  else none

/-- The `status` and `currentStep` the `switch` assigns. -/
def moveRun (state : WorkflowState) : KnownReason → Except String (RunStatus × Option RunPhase)
  | .started =>
      if state.revision ≠ 0 then .error "Run already started"
      else .ok (.active, runPhases.head?)
  | .resumed =>
      if state.status = .completed then .error "Run completed"
      else .ok (if state.activeRepairStops.isEmpty then .active else .blocked, state.currentStep)
  | .accepted =>
      if state.status = .completed ∨ state.currentStep = none then .error "Run cannot advance"
      else
        match nextPhase state.currentStep with
        | none => .error "Final phase needs completion"
        | some following => .ok (.active, some following)
  | .rejected =>
      if state.status = .completed ∨ state.currentStep = none then
        .error "Run cannot reject a transition"
      else .ok (.blocked, state.currentStep)
  | .fact =>
      if state.status = .completed ∨ state.currentStep = none then
        .error "Run cannot record gate facts"
      else .ok (state.status, state.currentStep)
  | .completed =>
      if state.currentStep ≠ runPhases.getLast? then .error "Run is not at final acceptance"
      else .ok (.completed, none)

/-- What the shared reducer writes once the status and the step are chosen. -/
def recordMove (state : WorkflowState) (event : EventDraft) (status : RunStatus)
    (currentStep : Option RunPhase) : WorkflowState :=
  { state with
    status, currentStep
    revision := event.resultingRevision
    createdAt := state.createdAt <|> some event.occurredAt
    updatedAt := some event.occurredAt
    operations := state.operations ++ [event.operation]
    policyVersion := some event.policyVersion }

/-- The guard in front of the `switch`: a stopped or retired run does not move. -/
def blockedByRepairStop (state : WorkflowState) (event : EventDraft) : Bool :=
  (!state.activeRepairStops.isEmpty || state.specificationRestart != none) &&
    (event.reasonCode == js "run.resumed" || event.reasonCode == js "run.transition.accepted" ||
      event.reasonCode == js "run.completed")

def reduceKnownWorkflowReason (state : WorkflowState) (event : EventDraft) :
    Except String WorkflowState :=
  if event.priorRevision ≠ state.revision then .error "Unsupported workflow event"
  else if blockedByRepairStop state event then .error "Run is blocked by repair stop"
  else
    match knownReason event.reasonCode with
    | none => .error "Unsupported workflow reason"
    | some reason =>
        match moveRun state reason with
        | .error message => .error message
        | .ok (status, currentStep) => .ok (recordMove state event status currentStep)

def reduceWorkflowV1 (state : WorkflowState) (event : EventDraft) :
    Except String WorkflowState :=
  if event.policyVersion ≠ legacyWorkflowPolicyVersion then .error "Unsupported workflow event"
  else reduceKnownWorkflowReason state event

/-- A run no second-policy event has touched yet. -/
def isPristineLegacy (state : WorkflowState) : Bool :=
  state.policyVersion == some legacyWorkflowPolicyVersion &&
    state.acceptanceAttemptCeiling == none && state.tokenCeiling == none &&
    state.attempts.isEmpty && state.activeRepairStops.isEmpty &&
    state.repairStopHistory.isEmpty && state.repairResolutions.isEmpty &&
    state.specificationRestart == none && state.retiredCriterionIds.isEmpty &&
    state.startedFromSpec == none

def recordV2 (state : WorkflowState) (event : EventDraft) : WorkflowState :=
  { state with
    revision := event.resultingRevision
    updatedAt := some event.occurredAt
    operations := state.operations ++ [event.operation]
    policyVersion := some workflowPolicyVersion }

def withRunLimits (state : WorkflowState) (runLimits : RunLimits) : WorkflowState :=
  { state with
    acceptanceAttemptCeiling := some runLimits.acceptanceAttemptCeiling
    tokenCeiling := runLimits.tokenCeiling }

def reducePolicyUpgraded (state : WorkflowState) (event : EventDraft) :
    Except String WorkflowState :=
  match event.runLimits with
  | none => .error "Workflow policy upgrade is inconsistent"
  | some runLimits =>
      if event.stateContract ≠ .v1_4 ∨ event.eventType ≠ .recovery ∨ event.effect ≠ .state ∨
          startsWith event.operation (js "sdd.start:") = false ∨ state.revision = 0 ∨
          isPristineLegacy state = false then
        .error "Workflow policy upgrade is inconsistent"
      else .ok (withRunLimits (recordV2 state event) runLimits)

def reduceStarted (state : WorkflowState) (event : EventDraft) : Except String WorkflowState :=
  match event.runLimits with
  | none => .error "Workflow limits are missing"
  | some runLimits =>
      (reduceKnownWorkflowReason state event).map fun next => withRunLimits next runLimits

def startFromSpec (state : WorkflowState) (event : EventDraft) (runLimits : RunLimits)
    (startedFromSpec : StartedFromSpec) : WorkflowState :=
  { state with
    status := .active
    currentStep := some .spec
    revision := event.resultingRevision
    createdAt := some event.occurredAt
    updatedAt := some event.occurredAt
    operations := [event.operation]
    policyVersion := some workflowPolicyVersion
    acceptanceAttemptCeiling := some runLimits.acceptanceAttemptCeiling
    tokenCeiling := runLimits.tokenCeiling
    retiredCriterionIds := startedFromSpec.retiredCriterionIds
    startedFromSpec := some
      { sourceRunId := startedFromSpec.sourceRunId
        restartTicketRef := startedFromSpec.restartTicketRef
        restartTicketDigest := startedFromSpec.restartTicketDigest } }

def reduceStartedFromSpec (state : WorkflowState) (event : EventDraft) :
    Except String WorkflowState :=
  match event.runLimits, event.startedFromSpec with
  | some runLimits, some startedFromSpec =>
      if state.revision ≠ 0 ∨ startedFromSpec.retiredCriterionIds = [] then
        .error "Specification restart is inconsistent"
      else .ok (startFromSpec state event runLimits startedFromSpec)
  | _, _ => .error "Specification restart is inconsistent"

/-- The decision an acceptance event carries, when it is the canonical one for its outcome. -/
def canonicalDecision (state : WorkflowState) (event : EventDraft)
    (expectedOutcome : AcceptanceOutcome) : Except String AcceptanceDecision :=
  match event.acceptanceDecision with
  | none => .error "Acceptance decision is inconsistent"
  | some decision =>
      if hasCanonicalAcceptanceDecision state event decision expectedOutcome then .ok decision
      else .error "Acceptance decision is inconsistent"

def acceptPassed (state : WorkflowState) (event : EventDraft) (_ : AcceptanceDecision) :
    WorkflowState :=
  recordV2 state event

def acceptRepair (state : WorkflowState) (event : EventDraft) (decision : AcceptanceDecision) :
    WorkflowState :=
  { recordV2 state event with
    status := .active
    currentStep := some .code
    attempts := mergeAttempts state decision.attempts }

def acceptStopped (state : WorkflowState) (event : EventDraft) (decision : AcceptanceDecision) :
    WorkflowState :=
  { recordV2 state event with
    status := .blocked
    attempts := mergeAttempts state decision.attempts
    activeRepairStops := decision.repairStops
    repairStopHistory := mergeRepairStopHistory state decision.repairStops }

def remainingStops (state : WorkflowState) (resolution : RepairResolution) : List RepairStop :=
  state.activeRepairStops.filter fun stop => stop.criterionId != resolution.criterionId

/-- The `common` record of a resolution. -/
def recordResolution (state : WorkflowState) (event : EventDraft)
    (resolution : RepairResolution) : WorkflowState :=
  { recordV2 state event with
    activeRepairStops := remainingStops state resolution
    repairResolutions := state.repairResolutions ++
      [{ operation := event.operation
         criterionId := resolution.criterionId
         classification := resolution.classification
         resolutionRef := resolution.resolutionRef
         resolutionDigest := resolution.resolutionDigest
         nextRunId := resolution.nextRunId
         restartTicketRef := resolution.restartTicketRef
         restartTicketDigest := resolution.restartTicketDigest }] }

/-- The run a specification resolution retires. -/
def retireRun (state : WorkflowState) (event : EventDraft) (resolution : RepairResolution)
    (nextRunId restartTicketRef restartTicketDigest : JsString) : WorkflowState :=
  { recordResolution state event resolution with
    status := .blocked
    specificationRestart := some
      { criterionId := resolution.criterionId, nextRunId, restartTicketRef, restartTicketDigest } }

def resolveSpecification (state : WorkflowState) (event : EventDraft)
    (resolution : RepairResolution) : Except String WorkflowState :=
  match resolution.nextRunId, resolution.restartTicketRef, resolution.restartTicketDigest with
  | some nextRunId, some restartTicketRef, some restartTicketDigest =>
      if (remainingStops state resolution).any (·.classification == .code) then
        .error "Repair resolution is inconsistent"
      else .ok (retireRun state event resolution nextRunId restartTicketRef restartTicketDigest)
  | _, _, _ => .error "Repair resolution is inconsistent"

/-- The run a code resolution sends back to implementation once no stop remains. -/
def reopenRun (state : WorkflowState) (event : EventDraft) (resolution : RepairResolution) :
    WorkflowState :=
  { recordResolution state event resolution with
    status := if (remainingStops state resolution).isEmpty then .active else .blocked
    currentStep :=
      if (remainingStops state resolution).isEmpty then some .code else state.currentStep
    attempts := state.attempts.filter fun attempt =>
      attempt.criterionId != resolution.criterionId }

def resolveCode (state : WorkflowState) (event : EventDraft) (resolution : RepairResolution) :
    Except String WorkflowState :=
  if resolution.nextRunId ≠ none ∨ resolution.restartTicketRef ≠ none ∨
      resolution.restartTicketDigest ≠ none then
    .error "Repair resolution is inconsistent"
  else .ok (reopenRun state event resolution)

def reduceRepairStopResolved (state : WorkflowState) (event : EventDraft) :
    Except String WorkflowState :=
  match event.repairResolution with
  | none => .error "Repair resolution is inconsistent"
  | some resolution =>
      if state.status ≠ .blocked ∨ state.specificationRestart ≠ none then
        .error "Repair resolution is inconsistent"
      else
        match state.activeRepairStops.find? (·.criterionId == resolution.criterionId) with
        | none => .error "Repair resolution is inconsistent"
        | some stop =>
            if stop.classification ≠ resolution.classification then
              .error "Repair resolution is inconsistent"
            else
              match resolution.classification with
              | .specification => resolveSpecification state event resolution
              | .code => resolveCode state event resolution

def reduceWorkflow (state : WorkflowState) (event : EventDraft) : Except String WorkflowState :=
  if event.policyVersion ≠ workflowPolicyVersion ∨ event.priorRevision ≠ state.revision then
    .error "Unsupported workflow event"
  else if event.reasonCode = js "run.policy_upgraded" then reducePolicyUpgraded state event
  else if event.reasonCode = js "run.started" then reduceStarted state event
  else if event.reasonCode = js "run.started_from_spec" then reduceStartedFromSpec state event
  else if state.acceptanceAttemptCeiling = none then .error "Workflow limits are missing"
  else if event.reasonCode = js "run.acceptance.passed" then
    (canonicalDecision state event .passed).map (acceptPassed state event)
  else if event.reasonCode = js "run.acceptance.repair_required" then
    (canonicalDecision state event .repair).map (acceptRepair state event)
  else if event.reasonCode = js "run.stop_loss.repeated_rejection" then
    (canonicalDecision state event .stopped).map (acceptStopped state event)
  else if event.reasonCode = js "run.repair_stop.resolved" then
    reduceRepairStopResolved state event
  else reduceKnownWorkflowReason state event

/-- `workflowReducerRegistry(configuration).reducers[event.policyVersion]`, applied; an event
of a policy without a reducer has none. -/
def registryReduce (state : WorkflowState) (event : EventDraft) : Except String WorkflowState :=
  if event.policyVersion = legacyWorkflowPolicyVersion then reduceWorkflowV1 state event
  else if event.policyVersion = workflowPolicyVersion then reduceWorkflow state event
  else .error "unsupported_policy"

/-- Everything the registry can do to a run, guards included. -/
inductive Accepted (state : WorkflowState) (event : EventDraft) : WorkflowState → Prop
  | moved {reason : KnownReason} {status : RunStatus} {currentStep : Option RunPhase}
      (prior : event.priorRevision = state.revision)
      (unblocked : blockedByRepairStop state event = false)
      (known : knownReason event.reasonCode = some reason)
      (move : moveRun state reason = .ok (status, currentStep))
      (policy : event.policyVersion = legacyWorkflowPolicyVersion ∨
        event.policyVersion = workflowPolicyVersion ∧ reason ≠ .started ∧
          state.acceptanceAttemptCeiling ≠ none) :
      Accepted state event (recordMove state event status currentStep)
  | started {runLimits : RunLimits} (limits : event.runLimits = some runLimits)
      (prior : event.priorRevision = state.revision) (fresh : state.revision = 0)
      (policy : event.policyVersion = workflowPolicyVersion)
      (code : event.reasonCode = js "run.started") :
      Accepted state event
        (withRunLimits (recordMove state event .active (some .prd)) runLimits)
  | upgraded {runLimits : RunLimits} (limits : event.runLimits = some runLimits)
      (prior : event.priorRevision = state.revision) (begun : state.revision ≠ 0)
      (pristine : isPristineLegacy state = true)
      (code : event.reasonCode = js "run.policy_upgraded") :
      Accepted state event (withRunLimits (recordV2 state event) runLimits)
  | startedFromSpec {runLimits : RunLimits} {startedFromSpec : StartedFromSpec}
      (limits : event.runLimits = some runLimits)
      (source : event.startedFromSpec = some startedFromSpec)
      (prior : event.priorRevision = state.revision) (fresh : state.revision = 0)
      (retired : startedFromSpec.retiredCriterionIds ≠ [])
      (code : event.reasonCode = js "run.started_from_spec") :
      Accepted state event (startFromSpec state event runLimits startedFromSpec)
  | passed {decision : AcceptanceDecision} (carried : event.acceptanceDecision = some decision)
      (prior : event.priorRevision = state.revision)
      (canonical : hasCanonicalAcceptanceDecision state event decision .passed = true)
      (code : event.reasonCode = js "run.acceptance.passed") :
      Accepted state event (acceptPassed state event decision)
  | repair {decision : AcceptanceDecision} (carried : event.acceptanceDecision = some decision)
      (prior : event.priorRevision = state.revision)
      (canonical : hasCanonicalAcceptanceDecision state event decision .repair = true)
      (code : event.reasonCode = js "run.acceptance.repair_required") :
      Accepted state event (acceptRepair state event decision)
  | stopped {decision : AcceptanceDecision} (carried : event.acceptanceDecision = some decision)
      (prior : event.priorRevision = state.revision)
      (canonical : hasCanonicalAcceptanceDecision state event decision .stopped = true)
      (code : event.reasonCode = js "run.stop_loss.repeated_rejection") :
      Accepted state event (acceptStopped state event decision)
  | retired {resolution : RepairResolution} {stop : RepairStop}
      {nextRunId restartTicketRef restartTicketDigest : JsString}
      (carried : event.repairResolution = some resolution)
      (prior : event.priorRevision = state.revision)
      (blocked : state.status = .blocked) (unretired : state.specificationRestart = none)
      (found : state.activeRepairStops.find? (·.criterionId == resolution.criterionId) = some stop)
      (specification : resolution.classification = .specification)
      (agrees : stop.classification = .specification)
      (successor : resolution.nextRunId = some nextRunId)
      (ticket : resolution.restartTicketRef = some restartTicketRef)
      (digest : resolution.restartTicketDigest = some restartTicketDigest)
      (noCode : (remainingStops state resolution).any (·.classification == .code) = false)
      (code : event.reasonCode = js "run.repair_stop.resolved") :
      Accepted state event
        (retireRun state event resolution nextRunId restartTicketRef restartTicketDigest)
  | reopened {resolution : RepairResolution} {stop : RepairStop}
      (carried : event.repairResolution = some resolution)
      (prior : event.priorRevision = state.revision)
      (blocked : state.status = .blocked) (unretired : state.specificationRestart = none)
      (found : state.activeRepairStops.find? (·.criterionId == resolution.criterionId) = some stop)
      (repaired : resolution.classification = .code)
      (agrees : stop.classification = .code)
      (noSuccessor : resolution.nextRunId = none)
      (noTicket : resolution.restartTicketRef = none)
      (noDigest : resolution.restartTicketDigest = none)
      (code : event.reasonCode = js "run.repair_stop.resolved") :
      Accepted state event (reopenRun state event resolution)

theorem reduceKnown_cases {state next : WorkflowState} {event : EventDraft}
    (accepted : reduceKnownWorkflowReason state event = .ok next) :
    event.priorRevision = state.revision ∧ blockedByRepairStop state event = false ∧
      ∃ reason status currentStep, knownReason event.reasonCode = some reason ∧
        moveRun state reason = .ok (status, currentStep) ∧
        next = recordMove state event status currentStep := by
  unfold reduceKnownWorkflowReason at accepted
  split at accepted
  · cases accepted
  · rename_i prior
    split at accepted
    · cases accepted
    · rename_i unblocked
      split at accepted
      · cases accepted
      · rename_i reason known
        split at accepted
        · cases accepted
        · rename_i status currentStep move
          refine ⟨by simpa using prior, by simpa using unblocked, reason, status, currentStep,
            known, move, ?_⟩
          exact (Except.ok.inj accepted).symm

private theorem canonicalDecision_cases {state : WorkflowState} {event : EventDraft}
    {outcome : AcceptanceOutcome} {decision : AcceptanceDecision}
    (accepted : canonicalDecision state event outcome = .ok decision) :
    event.acceptanceDecision = some decision ∧
      hasCanonicalAcceptanceDecision state event decision outcome = true := by
  unfold canonicalDecision at accepted
  split at accepted
  · cases accepted
  · rename_i carried known
    split at accepted
    · rename_i canonical
      obtain rfl := Except.ok.inj accepted
      exact ⟨known, canonical⟩
    · cases accepted

private theorem acceptance_cases {state next : WorkflowState} {event : EventDraft}
    {outcome : AcceptanceOutcome}
    {write : WorkflowState → EventDraft → AcceptanceDecision → WorkflowState}
    (accepted : (canonicalDecision state event outcome).map (write state event) = .ok next) :
    ∃ decision, event.acceptanceDecision = some decision ∧
      hasCanonicalAcceptanceDecision state event decision outcome = true ∧
      next = write state event decision := by
  cases outcomeOf : canonicalDecision state event outcome with
  | error message =>
      rw [outcomeOf] at accepted
      cases accepted
  | ok decision =>
      rw [outcomeOf] at accepted
      obtain ⟨carried, canonical⟩ := canonicalDecision_cases outcomeOf
      exact ⟨decision, carried, canonical, (Except.ok.inj accepted).symm⟩

private theorem resolved_cases {state next : WorkflowState} {event : EventDraft}
    (prior : event.priorRevision = state.revision)
    (code : event.reasonCode = js "run.repair_stop.resolved")
    (accepted : reduceRepairStopResolved state event = .ok next) : Accepted state event next := by
  unfold reduceRepairStopResolved at accepted
  split at accepted
  · cases accepted
  · rename_i resolution carried
    split at accepted
    · cases accepted
    · rename_i guard
      obtain ⟨blocked, unretired⟩ := not_or.mp guard
      split at accepted
      · cases accepted
      · rename_i stop found
        split at accepted
        · cases accepted
        · rename_i agrees
          have agrees := not_not.mp agrees
          split at accepted
          · rename_i specification
            unfold resolveSpecification at accepted
            split at accepted
            · rename_i successor ticket digest
              split at accepted
              · cases accepted
              · rename_i noCode
                obtain rfl := Except.ok.inj accepted
                exact .retired carried prior (not_not.mp blocked) (not_not.mp unretired) found
                  specification (agrees.trans specification) successor ticket digest
                  (by simpa using noCode) code
            · cases accepted
          · rename_i repaired
            unfold resolveCode at accepted
            split at accepted
            · cases accepted
            · rename_i absent
              simp only [not_or, not_not] at absent
              obtain rfl := Except.ok.inj accepted
              exact .reopened carried prior (not_not.mp blocked) (not_not.mp unretired) found
                repaired (agrees.trans repaired) absent.1 absent.2.1 absent.2.2 code

/-- The reason codes of each case of the `switch`. -/
def KnownReason.codes : KnownReason → List JsString
  | .started => [js "run.started"]
  | .resumed => [js "run.resumed"]
  | .accepted => [js "run.transition.accepted"]
  | .rejected => [js "run.transition.rejected"]
  | .fact =>
      [js "run.agent.recorded", js "run.gap.recorded", js "run.gap.resolved",
        js "run.gap.waived", js "run.gates.recorded"]
  | .completed => [js "run.completed"]

theorem knownReason_mem {reasonCode : JsString} {reason : KnownReason}
    (known : knownReason reasonCode = some reason) : reasonCode ∈ reason.codes := by
  unfold knownReason at known
  split_ifs at known with started resumed accepted rejected fact completed <;> cases known
  · exact List.mem_singleton.mpr started
  · exact List.mem_singleton.mpr resumed
  · exact List.mem_singleton.mpr accepted
  · exact List.mem_singleton.mpr rejected
  · simpa [KnownReason.codes, or_assoc] using fact
  · exact List.mem_singleton.mpr completed

theorem moveRun_started {state : WorkflowState} {status : RunStatus}
    {currentStep : Option RunPhase}
    (move : moveRun state .started = .ok (status, currentStep)) :
    state.revision = 0 ∧ status = .active ∧ currentStep = some .prd := by
  simp only [moveRun] at move
  split at move
  · cases move
  · rename_i fresh
    cases move
    exact ⟨not_not.mp fresh, rfl, rfl⟩

private theorem reduceWorkflow_cases {state next : WorkflowState} {event : EventDraft}
    (policy : event.policyVersion = workflowPolicyVersion)
    (accepted : reduceWorkflow state event = .ok next) : Accepted state event next := by
  unfold reduceWorkflow at accepted
  split at accepted
  · cases accepted
  · rename_i guard
    have prior : event.priorRevision = state.revision := not_not.mp (not_or.mp guard).2
    by_cases upgraded : event.reasonCode = js "run.policy_upgraded"
    · rw [if_pos upgraded] at accepted
      unfold reducePolicyUpgraded at accepted
      split at accepted
      · cases accepted
      · rename_i runLimits limits
        split at accepted
        · cases accepted
        · rename_i consistent
          simp only [not_or, not_not, Bool.not_eq_false] at consistent
          obtain ⟨-, -, -, -, begun, pristine⟩ := consistent
          obtain rfl := Except.ok.inj accepted
          exact .upgraded limits prior begun pristine upgraded
    rw [if_neg upgraded] at accepted
    by_cases started : event.reasonCode = js "run.started"
    · rw [if_pos started] at accepted
      unfold reduceStarted at accepted
      split at accepted
      · cases accepted
      · rename_i runLimits limits
        cases outcome : reduceKnownWorkflowReason state event with
        | error message =>
            rw [outcome] at accepted
            cases accepted
        | ok middle =>
            rw [outcome] at accepted
            obtain rfl := Except.ok.inj accepted
            obtain ⟨-, -, reason, status, currentStep, known, move, rfl⟩ :=
              reduceKnown_cases outcome
            have sameReason : reason = .started := by
              rw [started] at known
              exact (Option.some.inj known).symm
            subst sameReason
            obtain ⟨fresh, rfl, rfl⟩ := moveRun_started move
            exact .started limits prior fresh policy started
    rw [if_neg started] at accepted
    by_cases fromSpec : event.reasonCode = js "run.started_from_spec"
    · rw [if_pos fromSpec] at accepted
      unfold reduceStartedFromSpec at accepted
      split at accepted
      · rename_i runLimits startedFromSpec limits source
        split at accepted
        · cases accepted
        · rename_i consistent
          obtain ⟨fresh, retired⟩ := not_or.mp consistent
          obtain rfl := Except.ok.inj accepted
          exact .startedFromSpec limits source prior (not_not.mp fresh) retired fromSpec
      · cases accepted
    rw [if_neg fromSpec] at accepted
    by_cases unlimited : state.acceptanceAttemptCeiling = none
    · rw [if_pos unlimited] at accepted
      cases accepted
    rw [if_neg unlimited] at accepted
    by_cases passed : event.reasonCode = js "run.acceptance.passed"
    · rw [if_pos passed] at accepted
      obtain ⟨decision, carried, canonical, rfl⟩ := acceptance_cases accepted
      exact .passed carried prior canonical passed
    rw [if_neg passed] at accepted
    by_cases repair : event.reasonCode = js "run.acceptance.repair_required"
    · rw [if_pos repair] at accepted
      obtain ⟨decision, carried, canonical, rfl⟩ := acceptance_cases accepted
      exact .repair carried prior canonical repair
    rw [if_neg repair] at accepted
    by_cases stopped : event.reasonCode = js "run.stop_loss.repeated_rejection"
    · rw [if_pos stopped] at accepted
      obtain ⟨decision, carried, canonical, rfl⟩ := acceptance_cases accepted
      exact .stopped carried prior canonical stopped
    rw [if_neg stopped] at accepted
    by_cases resolved : event.reasonCode = js "run.repair_stop.resolved"
    · rw [if_pos resolved] at accepted
      exact resolved_cases prior resolved accepted
    rw [if_neg resolved] at accepted
    obtain ⟨-, unblocked, reason, status, currentStep, known, move, rfl⟩ :=
      reduceKnown_cases accepted
    have notStarted : reason ≠ .started := by
      rintro rfl
      exact started (List.mem_singleton.mp (knownReason_mem known))
    exact .moved prior unblocked known move (.inr ⟨policy, notStarted, unlimited⟩)

/-- The inversion of the registry: every accepted event is one of the nine writes. -/
theorem registryReduce_cases {state next : WorkflowState} {event : EventDraft}
    (accepted : registryReduce state event = .ok next) : Accepted state event next := by
  unfold registryReduce at accepted
  split at accepted
  · rename_i legacy
    unfold reduceWorkflowV1 at accepted
    rw [if_neg (not_not.mpr legacy)] at accepted
    obtain ⟨prior, unblocked, reason, status, currentStep, known, move, rfl⟩ :=
      reduceKnown_cases accepted
    exact .moved prior unblocked known move (.inl legacy)
  · split at accepted
    · rename_i policy
      exact reduceWorkflow_cases policy accepted
    · cases accepted

theorem accepted_revision {state next : WorkflowState} {event : EventDraft}
    (accepted : Accepted state event next) : next.revision = event.resultingRevision := by
  cases accepted <;> rfl

end Kratos.Workflow
