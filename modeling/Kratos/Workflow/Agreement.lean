/- source: domain/workflow/decision.ts, domain/workflow/reducer.ts, domain/events/semantics.ts
   digest: The deciders, the semantic policy and the reducer agree on recorded transitions. -/

import Kratos.Workflow.Decision
import Kratos.Workflow.RunInvariants

set_option autoImplicit false

namespace Kratos.Workflow

open Foundation.Text Foundation.Runs Patterns Events
open Gates (GateFailure GateOutcome NotAfter)

/-! The semantic policy of drafted events. -/

private theorem familyHead_disjoint : ∀ family ∈ workflowOperationFamilies,
    ∀ other ∈ [js "lock.", acceptanceOperationHead, repairResolutionOperationHead,
      specificationRestartOperationHead],
      startsWith (operationHead family) other = false ∧
        startsWith other (operationHead family) = false := by
  decide

private theorem familyHead_sdd : ∀ family ∈ workflowOperationFamilies,
    startsWith (operationHead family) (js "sdd.") = true := by
  decide

private theorem repairHead_disjoint :
    ∀ head ∈ [repairResolutionOperationHead, specificationRestartOperationHead],
    ∀ other ∈ [js "lock.", acceptanceOperationHead, repairResolutionOperationHead,
      specificationRestartOperationHead], head ≠ other →
      startsWith head other = false ∧ startsWith other head = false := by
  decide

theorem operationPolicyValid_workflow {event : EventDraft} (family : WorkflowOperationFamily)
    (correlationId : JsString) (operation : event.operation = operationId family correlationId) :
    operationPolicyValid event = workflowPolicyValid event := by
  have disjoint := familyHead_disjoint family (mem_workflowOperationFamilies family)
  have lock := disjoint (js "lock.") (by decide)
  have acceptance := disjoint acceptanceOperationHead (by decide)
  have resolution := disjoint repairResolutionOperationHead (by decide)
  have restart := disjoint specificationRestartOperationHead (by decide)
  have sdd := familyHead_sdd family (mem_workflowOperationFamilies family)
  unfold operationPolicyValid
  rw [operation, operationId_eq, startsWith_append_of_disjoint lock.1 lock.2,
    operationPattern_of_disjoint acceptance.1 acceptance.2,
    operationPattern_of_disjoint resolution.1 resolution.2,
    operationPattern_of_disjoint restart.1 restart.2, startsWith_append_of_startsWith sdd]
  rfl

theorem operationPolicyValid_resolution {event : EventDraft} (correlationId : JsString)
    (operation : event.operation = repairResolutionOperationHead ++ correlationId)
    (valid : idPattern correlationId = true) :
    operationPolicyValid event = repairResolutionPolicyValid event := by
  have disjoint := repairHead_disjoint repairResolutionOperationHead (by decide)
  have lock := disjoint (js "lock.") (by decide) (by decide)
  have acceptance := disjoint acceptanceOperationHead (by decide) (by decide)
  unfold operationPolicyValid
  rw [operation, startsWith_append_of_disjoint lock.1 lock.2,
    operationPattern_of_disjoint acceptance.1 acceptance.2, operationPattern_append, valid]
  rfl

theorem operationPolicyValid_restart {event : EventDraft} (correlationId : JsString)
    (operation : event.operation = specificationRestartOperationHead ++ correlationId)
    (valid : idPattern correlationId = true) :
    operationPolicyValid event = specificationRestartPolicyValid event := by
  have disjoint := repairHead_disjoint specificationRestartOperationHead (by decide)
  have lock := disjoint (js "lock.") (by decide) (by decide)
  have acceptance := disjoint acceptanceOperationHead (by decide) (by decide)
  have resolution := disjoint repairResolutionOperationHead (by decide) (by decide)
  unfold operationPolicyValid
  rw [operation, startsWith_append_of_disjoint lock.1 lock.2,
    operationPattern_of_disjoint acceptance.1 acceptance.2,
    operationPattern_of_disjoint resolution.1 resolution.2, operationPattern_append, valid]
  rfl

def commandTransitions : WorkflowOperationFamily → List MovingTransition
  | .start => [.started, .resumed]
  | .continue => [.resumed, .accepted, .rejected, .completed]
  | .fact _ => []

private theorem transitionEvent_policyValid {input : EventInput} {transition : MovingTransition}
    (family : WorkflowOperationFamily) (correlationId : JsString)
    {artifactRefs evidenceRefs : List JsString} {resolvedAssignment : Option ResolvedAssignment}
    {phaseExecution : Option PhaseExecutionObservation} {runLimits : Option RunLimits}
    {gateFailures : List GateFailure}
    (operation : input.operation = operationId family correlationId)
    (valid : idPattern correlationId = true) (listed : transition ∈ commandTransitions family)
    (assigned : resolvedAssignment.isSome =
      ((workflowTransitionFacts transition).assignment == .required))
    (limited : runLimits.isSome = (transition == .started)) :
    operationPolicyValid (transitionEvent input transition artifactRefs evidenceRefs
      resolvedAssignment phaseExecution runLimits gateFailures) = true := by
  rw [operationPolicyValid_workflow family correlationId operation]
  unfold workflowPolicyValid
  have known : workflowOperation (transitionEvent input transition artifactRefs evidenceRefs
      resolvedAssignment phaseExecution runLimits gateFailures).operation = some family := by
    change workflowOperation input.operation = some family
    rw [operation]
    exact workflowOperation_operationId family valid
  rw [known]
  cases family with
  | fact other => cases listed
  | start =>
      rcases List.mem_pair.mp listed with rfl | rfl
      · obtain ⟨limits, rfl⟩ := Option.isSome_iff_exists.mp limited
        obtain rfl := Option.isSome_eq_false_iff.mp assigned |> Option.isNone_iff_eq_none.mp
        rfl
      · obtain rfl := Option.isSome_eq_false_iff.mp limited |> Option.isNone_iff_eq_none.mp
        obtain rfl := Option.isSome_eq_false_iff.mp assigned |> Option.isNone_iff_eq_none.mp
        rfl
  | «continue» =>
      have limited : runLimits = none := by
        cases runLimits with
        | none => rfl
        | some limits =>
            obtain rfl : transition = .started := beq_iff_eq.mp limited.symm
            exact absurd listed (by decide)
      subst limited
      cases transition with
      | started => exact absurd listed (by decide)
      | resumed =>
          obtain rfl := Option.isSome_eq_false_iff.mp assigned |> Option.isNone_iff_eq_none.mp
          rfl
      | accepted =>
          obtain ⟨assignment, rfl⟩ := Option.isSome_iff_exists.mp assigned
          rfl
      | rejected =>
          obtain rfl := Option.isSome_eq_false_iff.mp assigned |> Option.isNone_iff_eq_none.mp
          rfl
      | completed =>
          obtain ⟨assignment, rfl⟩ := Option.isSome_iff_exists.mp assigned
          rfl

private theorem factEvent_policyValid {state : WorkflowState} {request : RecordFactRequest}
    (valid : idPattern request.correlationId = true)
    (assigned : factAssignmentValid request = true) :
    operationPolicyValid (factEvent state request) = true := by
  rw [operationPolicyValid_workflow (.fact request.operation) request.correlationId rfl]
  unfold workflowPolicyValid
  have known : workflowOperation (factEvent state request).operation =
      some (.fact request.operation) :=
    workflowOperation_operationId (.fact request.operation) valid
  rw [known]
  obtain ⟨_, _, _, _, _, _, operation, _, _, resolvedAssignment, phaseExecution⟩ := request
  cases resolvedAssignment with
  | none =>
      cases operation with
      | agentRecord => cases assigned
      | _ => rfl
  | some assignment =>
      cases operation with
      | agentRecord => rfl
      | _ => cases assigned

private theorem policyUpgradeEvent_policyValid {request : StartWorkflowRequest}
    {revision : Nat} {runLimits : RunLimits} (valid : idPattern request.correlationId = true) :
    operationPolicyValid (policyUpgradeEvent (startInput request revision) runLimits) = true := by
  rw [operationPolicyValid_workflow .start request.correlationId rfl]
  unfold workflowPolicyValid
  have known : workflowOperation
      (policyUpgradeEvent (startInput request revision) runLimits).operation = some .start :=
    workflowOperation_operationId .start valid
  rw [known]
  rfl

private theorem startFromSpecEvent_policyValid {request : StartWorkflowRequest}
    {startFromSpec : StartedFromSpec} (valid : idPattern request.correlationId = true) :
    operationPolicyValid (startFromSpecEvent request startFromSpec) = true := by
  rw [operationPolicyValid_restart request.correlationId rfl valid]
  have carried : [startFromSpec.restartTicketRef].contains startFromSpec.restartTicketRef = true := by
    simp
  exact carried

private theorem resolutionEvent_policyValid {state : WorkflowState}
    {request : ResolveRepairStopRequest} {stop : RepairStop}
    (valid : idPattern request.correlationId = true)
    (successor : validSuccessor request (stop.classification == .specification) = true) :
    operationPolicyValid (resolutionEvent state request stop) = true := by
  rw [operationPolicyValid_resolution request.correlationId rfl valid]
  simp only [validSuccessor, Bool.and_eq_true, beq_iff_eq] at successor
  obtain ⟨⟨⟨⟨⟨run, ticket⟩, digest⟩, -⟩, -⟩, -⟩ := successor
  have carried : request.restartTicketRef.all
      (request.resolutionRef :: request.restartTicketRef.toList).contains = true := by
    cases request.restartTicketRef <;> simp
  unfold repairResolutionPolicyValid
  simp only [resolutionEvent, draftedResolution, isCurrentContract, hasAssignment, hasRunLimits,
    hasAcceptanceDecision, hasStartedFromSpec, run, carried]
  have remaining : request.nextRunId.isSome = request.restartTicketRef.isSome ∧
      request.nextRunId.isSome = request.restartTicketDigest.isSome :=
    ⟨run.symm.trans ticket, run.symm.trans digest⟩
  simpa [workflowPolicyVersion] using remaining

private theorem policy_iff {event : EventDraft} {failures : List GateFailure}
    (later : event.stateContract ≠ .v1_0) (carried : event.gateFailures = some failures)
    (distinct : (failures.map (·.gateId)).Nodup)
    (continuing : startsWith event.operation (js "sdd.continue:") = true ∨ failures = [])
    (operation : operationPolicyValid event = true) :
    assertEventSemanticPolicy event = .ok () ↔
      (∀ assignment, event.resolvedAssignment = some assignment →
        assignment.role = phaseModelRole assignment.phase) ∧
      (∀ failure ∈ failures, gateFailureListed failure = true) ∧ failures.IsChain NotAfter := by
  have role : assignmentRoleValid event = true ↔
      ∀ assignment, event.resolvedAssignment = some assignment →
        assignment.role = phaseModelRole assignment.phase := by
    unfold assignmentRoleValid
    cases event.resolvedAssignment with
    | none => simp
    | some assignment => simp
  have gates : gateFailuresValid event = true ↔
      (∀ failure ∈ failures, gateFailureListed failure = true) ∧ failures.IsChain NotAfter := by
    have admitted : (startsWith event.operation (js "sdd.continue:") || failures.isEmpty) = true := by
      rcases continuing with begins | rfl
      · simp [begins]
      · simp
    simp only [gateFailuresValid, carried, admitted, Bool.and_true, Bool.and_eq_true,
      decide_eq_true_eq, distinct, true_and, List.all_eq_true]
  rw [assertEventSemanticPolicy_ok_iff later, role, gates]
  simp only [operation, and_true]

/-! The reducer on drafted events. -/

theorem registryReduce_v2 {state : WorkflowState} {event : EventDraft}
    (policy : event.policyVersion = workflowPolicyVersion) :
    registryReduce state event = reduceWorkflow state event := by
  have notLegacy : workflowPolicyVersion ≠ legacyWorkflowPolicyVersion := by decide
  unfold registryReduce
  rw [policy, if_neg notLegacy, if_pos rfl]

private theorem reduceKnown_of {state : WorkflowState} {event : EventDraft} {reason : KnownReason}
    {status : RunStatus} {currentStep : Option RunPhase}
    (prior : event.priorRevision = state.revision)
    (unblocked : blockedByRepairStop state event = false)
    (known : knownReason event.reasonCode = some reason)
    (move : moveRun state reason = .ok (status, currentStep)) :
    reduceKnownWorkflowReason state event = .ok (recordMove state event status currentStep) := by
  unfold reduceKnownWorkflowReason
  rw [if_neg (not_not.mpr prior), unblocked, known]
  simp only [Bool.false_eq_true, if_false, move]

/-- The second policy hands every shared reason but a start to the shared reducer. -/
theorem reduceWorkflow_known {state : WorkflowState} {event : EventDraft} {reason : KnownReason}
    {status : RunStatus} {currentStep : Option RunPhase}
    (policy : event.policyVersion = workflowPolicyVersion)
    (prior : event.priorRevision = state.revision)
    (limited : state.acceptanceAttemptCeiling ≠ none)
    (unblocked : blockedByRepairStop state event = false)
    (known : knownReason event.reasonCode = some reason) (notStarted : reason ≠ .started)
    (move : moveRun state reason = .ok (status, currentStep)) :
    registryReduce state event = .ok (recordMove state event status currentStep) := by
  have other : ∀ code, knownReason code = none → event.reasonCode ≠ code := by
    rintro code unknown rfl
    rw [unknown] at known
    cases known
  have started : event.reasonCode ≠ js "run.started" := by
    intro code
    rw [code] at known
    exact notStarted (Option.some.inj known).symm
  rw [registryReduce_v2 policy]
  unfold reduceWorkflow
  rw [if_neg (by simp [policy, prior]), if_neg (other _ (by decide)), if_neg started,
    if_neg (other _ (by decide)), if_neg limited, if_neg (other _ (by decide)),
    if_neg (other _ (by decide)), if_neg (other _ (by decide)), if_neg (other _ (by decide))]
  exact reduceKnown_of prior unblocked known move

theorem reduceWorkflow_upgraded {state : WorkflowState} {event : EventDraft}
    {runLimits : RunLimits} (policy : event.policyVersion = workflowPolicyVersion)
    (prior : event.priorRevision = state.revision)
    (code : event.reasonCode = js "run.policy_upgraded") (limits : event.runLimits = some runLimits)
    (contract : event.stateContract = .v1_4) (eventType : event.eventType = .recovery)
    (effect : event.effect = .state)
    (operation : startsWith event.operation (js "sdd.start:") = true)
    (begun : state.revision ≠ 0) (pristine : isPristineLegacy state = true) :
    registryReduce state event = .ok (withRunLimits (recordV2 state event) runLimits) := by
  rw [registryReduce_v2 policy]
  unfold reduceWorkflow reducePolicyUpgraded
  rw [if_neg (by simp [policy, prior]), if_pos code]
  simp only [limits, contract, eventType, effect, operation, begun, pristine, ne_eq,
    not_true_eq_false, Bool.true_eq_false, or_self, if_false]

theorem reduceWorkflow_startedFromSpec {state : WorkflowState} {event : EventDraft}
    {runLimits : RunLimits} {startedFromSpec : StartedFromSpec}
    (policy : event.policyVersion = workflowPolicyVersion)
    (prior : event.priorRevision = state.revision)
    (code : event.reasonCode = js "run.started_from_spec")
    (limits : event.runLimits = some runLimits)
    (source : event.startedFromSpec = some startedFromSpec) (fresh : state.revision = 0)
    (retired : startedFromSpec.retiredCriterionIds ≠ []) :
    registryReduce state event = .ok (startFromSpec state event runLimits startedFromSpec) := by
  rw [registryReduce_v2 policy]
  unfold reduceWorkflow reduceStartedFromSpec
  rw [if_neg (by simp [policy, prior]), code, if_neg (by decide), if_neg (by decide),
    if_pos rfl]
  simp only [limits, source, fresh, retired, ne_eq, not_true_eq_false, or_self, if_false]

private theorem unblocked_of_unstopped {state : WorkflowState} {event : EventDraft}
    (unstopped : state.activeRepairStops = []) (unretired : state.specificationRestart = none) :
    blockedByRepairStop state event = false := by
  simp [blockedByRepairStop, unstopped, unretired]

/-! What a transition announces about the run it moves. -/

/-- The public face of a run. -/
structure RunView where
  runId : JsString
  status : RunStatus
  phase : Option RunPhase
  attempts : List AcceptanceAttempt
  activeRepairStops : List RepairStop
  specificationRestart : Option WorkflowSpecificationRestart
  deriving DecidableEq, Repr

def viewOf (state : WorkflowState) : RunView where
  runId := state.runId
  status := state.status
  phase := state.currentStep
  attempts := state.attempts
  activeRepairStops := state.activeRepairStops
  specificationRestart := state.specificationRestart

/-- The next action the phase handoff names for a run, under a gate outcome. -/
def RunView.nextAction (view : RunView) (gateOutcome : GateOutcome) : JsString :=
  let phase := view.phase.getD .acceptance
  if gateOutcome = .block then
    js "Resolve the reported gate blockers and rerun kratos doctor."
  else if phase = .acceptance then
    js "Review the evidence bundle, record final approval, and run kratos done."
  else js "Complete the " ++ phase.text ++ js " phase and run kratos continue."

/-- A resolution removes its stop: a specification retires the run, a code repair forgets the
attempts of its criterion and, with no stop left, sends the run back to implementation. -/
def announcedResolution (view : RunView) (resolution : RepairResolution) : RunView :=
  let remaining := view.activeRepairStops.filter fun stop =>
    stop.criterionId != resolution.criterionId
  match resolution.classification with
  | .specification =>
      { view with
        activeRepairStops := remaining
        specificationRestart := do
          let nextRunId ← resolution.nextRunId
          let restartTicketRef ← resolution.restartTicketRef
          let restartTicketDigest ← resolution.restartTicketDigest
          pure ⟨resolution.criterionId, nextRunId, restartTicketRef, restartTicketDigest⟩ }
  | .code =>
      { view with
        activeRepairStops := remaining
        status := if remaining.isEmpty then .active else .blocked
        phase := if remaining.isEmpty then some .code else view.phase
        attempts := view.attempts.filter fun attempt =>
          attempt.criterionId != resolution.criterionId }

/-- The run a recorded transition announces, from the run it was decided on. -/
def announced (view : RunView) (event : EventDraft) : WorkflowTransition → RunView
  | .started =>
      { view with
        status := .active
        phase := if event.startedFromSpec.isSome then some .spec else some .prd }
  | .resumed => { view with status := .active }
  | .accepted => { view with status := .active, phase := nextPhase view.phase }
  | .rejected => { view with status := .blocked }
  | .completed => { view with status := .completed, phase := none }
  | .upgraded | .observed => view
  | .resolved =>
      match event.repairResolution with
      | some resolution => announcedResolution view resolution
      | none => view

inductive WorkflowRequest
  | start (request : StartWorkflowRequest)
  | continuation (request : ContinueWorkflowRequest)
  | fact (request : RecordFactRequest)
  | resolution (request : ResolveRepairStopRequest)

def decideWorkflow (observation : WorkflowObservation) : WorkflowRequest → WorkflowDecision
  | .start request => decideStartWorkflow observation request
  | .continuation request => decideContinueWorkflow observation request
  | .fact request => decideRecordFact observation request
  | .resolution request => decideResolveRepairStop observation request

/-- The gate failures a request carries into its event. -/
def carriedFailures : WorkflowRequest → List GateFailure
  | .continuation request => (request.gateDecision.getD passGateDecision).failures
  | _ => []

/-- The assignment a request carries into the event of a transition. -/
def carriedAssignment (transition : WorkflowTransition) :
    WorkflowRequest → Option ResolvedAssignment
  | .continuation request =>
      if transition = .accepted ∨ transition = .completed then request.resolvedAssignment else none
  | .fact request => request.resolvedAssignment
  | _ => none

/-- An observation of the run a history replays to: absent before its first event. -/
inductive Observes (configuration : WorkflowReducerConfiguration) :
    WorkflowObservation → WorkflowState → Prop
  | absent (operations : List JsString) :
      Observes configuration (.absent operations) (workflowSeed configuration)
  | present {events : List EventDraft} {state : WorkflowState}
      (run : Replays configuration events state) :
      Observes configuration (.present state) state

def needsPhase : WorkflowTransition → Bool
  | .accepted | .rejected | .observed => true
  | _ => false

/-- What later decisions rely on: a run with a policy has events behind it, and a run with stops
has its limits. -/
structure RunOpened (state : WorkflowState) : Prop where
  begun : state.policyVersion ≠ none → state.revision ≠ 0
  limited : state.activeRepairStops ≠ [] → state.acceptanceAttemptCeiling ≠ none

private theorem accepted_opened {state next : WorkflowState} {event : EventDraft}
    (opened : RunOpened state) (accepted : Accepted state event next) : RunOpened next := by
  refine ⟨fun _ zero => ?_, ?_⟩
  · rw [accepted_revision accepted] at zero
    exact absurd zero (Nat.pos_iff_ne_zero.mp event.resulting_pos)
  · cases accepted with
    | moved prior unblocked known move policy => exact opened.limited
    | started limits prior fresh policy code => exact fun _ => Option.some_ne_none _
    | upgraded limits prior begun pristine code => exact fun _ => Option.some_ne_none _
    | startedFromSpec limits source prior fresh retired code => exact fun _ => Option.some_ne_none _
    | passed carried prior canonical code => exact opened.limited
    | repair carried prior canonical code => exact opened.limited
    | stopped carried prior canonical code =>
        obtain ⟨ceiling, canonical⟩ := canonicalDecision_of canonical
        intro _ unlimited
        change state.acceptanceAttemptCeiling = none at unlimited
        rw [canonical.limit] at unlimited
        cases unlimited
    | retired carried prior blocked unretired found specification agrees successor ticket digest
        noCode code =>
        intro _
        refine opened.limited fun none => ?_
        rw [none] at found
        cases found
    | reopened carried prior blocked unretired found repaired agrees noSuccessor noTicket noDigest
        code =>
        intro _
        refine opened.limited fun none => ?_
        rw [none] at found
        cases found

theorem replays_opened {configuration : WorkflowReducerConfiguration} {events : List EventDraft}
    {state : WorkflowState} (run : Replays configuration events state) : RunOpened state :=
  run.invariant RunOpened ⟨fun some => absurd rfl some, fun some => absurd rfl some⟩
    fun _ _ _ opened accepted => accepted_opened opened (registryReduce_cases accepted)

/-- The reducer takes a decided event to the run its transition announces. -/
def ReducerAnnounces (state : WorkflowState) (event : EventDraft)
    (transition : WorkflowTransition) : Prop :=
  ∃ next, registryReduce state event = .ok next ∧
    viewOf next = announced (viewOf state) event transition

/-- The policy admits an event for the metadata its request carried. -/
def PolicyFollowsRequest (event : EventDraft) (transition : WorkflowTransition)
    (request : WorkflowRequest) : Prop :=
  assertEventSemanticPolicy event = .ok () ↔
    (∀ assignment, carriedAssignment transition request = some assignment →
      assignment.role = phaseModelRole assignment.phase) ∧
    (∀ failure ∈ carriedFailures request, gateFailureListed failure = true) ∧
    (carriedFailures request).IsChain NotAfter

private theorem policyFollows_of {event : EventDraft} {transition : WorkflowTransition}
    {request : WorkflowRequest} (later : event.stateContract ≠ .v1_0)
    (carried : event.gateFailures = some (carriedFailures request))
    (assigned : event.resolvedAssignment = carriedAssignment transition request)
    (distinct : ((carriedFailures request).map (·.gateId)).Nodup)
    (continuing : startsWith event.operation (js "sdd.continue:") = true ∨
      carriedFailures request = [])
    (operation : operationPolicyValid event = true) :
    PolicyFollowsRequest event transition request := by
  unfold PolicyFollowsRequest
  rw [policy_iff later carried distinct continuing operation, assigned]

private theorem start_correlation {request : StartWorkflowRequest}
    (valid : validStartRequest request = true) : idPattern request.correlationId = true := by
  simp only [validStartRequest, Bool.and_eq_true] at valid
  exact valid.1.1.1.1.1.1.1.1.2

private theorem start_agrees {configuration : WorkflowReducerConfiguration}
    {observation : WorkflowObservation} {state : WorkflowState} {request : StartWorkflowRequest}
    {transition : WorkflowTransition} {event : EventDraft} {why : Option (List JsString)}
    (observed : Observes configuration observation state)
    (decided : decideStartWorkflow observation request = .recorded transition event why) :
    PolicyFollowsRequest event transition (.start request) ∧
      ReducerAnnounces state event transition := by
  obtain ⟨valid, -, -, present | absent⟩ := decideStart_recorded decided
  · obtain ⟨other, rfl, chosen⟩ := present
    cases observed with
    | present run =>
        obtain ⟨-, -, incomplete, recorded⟩ := decideStartPresent_recorded chosen
        cases recorded with
        | upgraded pristine =>
            refine ⟨policyFollows_of (by rintro ⟨⟩) rfl rfl List.nodup_nil (.inr rfl)
              (policyUpgradeEvent_policyValid (start_correlation valid)), ?_⟩
            have begun : state.revision ≠ 0 := by
              refine (replays_opened run).begun ?_
              simp only [isPristineLegacy, Bool.and_eq_true, beq_iff_eq] at pristine
              rw [pristine.1.1.1.1.1.1.1.1.1]
              exact Option.some_ne_none _
            have head : startsWith (operationId .start request.correlationId)
                (js "sdd.start:") = true := startsWith_append _ _
            exact ⟨_, reduceWorkflow_upgraded rfl rfl rfl rfl rfl rfl rfl head begun pristine, rfl⟩
        | resumed policy limited unstopped unretired =>
            refine ⟨policyFollows_of (by rintro ⟨⟩) rfl rfl List.nodup_nil (.inr rfl)
              (transitionEvent_policyValid .start request.correlationId rfl (start_correlation valid)
                (by decide) rfl rfl), ?_⟩
            have move : moveRun state .resumed = .ok (.active, state.currentStep) := by
              simp only [moveRun, if_neg incomplete, unstopped, List.isEmpty_nil, if_true]
            exact ⟨_, reduceWorkflow_known rfl rfl limited
              (unblocked_of_unstopped unstopped unretired) rfl (by decide) move, rfl⟩
  · obtain ⟨⟨operations, rfl⟩, chosen⟩ := absent
    cases observed with
    | absent =>
        obtain ⟨rfl, fromSpec | fresh⟩ := decideStartAbsent_recorded chosen
        · obtain ⟨startFromSpec, carried, retired, rfl⟩ := fromSpec
          refine ⟨policyFollows_of (by rintro ⟨⟩) rfl rfl List.nodup_nil (.inr rfl)
            (startFromSpecEvent_policyValid (start_correlation valid)), ?_⟩
          exact ⟨_, reduceWorkflow_startedFromSpec rfl rfl rfl rfl rfl rfl retired, rfl⟩
        · obtain ⟨-, rfl⟩ := fresh
          exact ⟨policyFollows_of (by rintro ⟨⟩) rfl rfl List.nodup_nil (.inr rfl)
            (transitionEvent_policyValid .start request.correlationId rfl (start_correlation valid)
              (by decide) rfl rfl), _, rfl, rfl⟩

private theorem continue_correlation {request : ContinueWorkflowRequest}
    (valid : validContinueRequest request = true) : idPattern request.correlationId = true := by
  simp only [validContinueRequest, Bool.and_eq_true] at valid
  exact valid.1.1.1.1.1.1.2

private theorem continueEvent_follows {request : ContinueWorkflowRequest} {revision : Nat}
    {transition : MovingTransition} {artifactRefs evidenceRefs : List JsString}
    (valid : idPattern request.correlationId = true)
    (listed : transition ∈ commandTransitions .continue)
    (assigned : transition = .accepted ∨ transition = .completed →
      request.resolvedAssignment.isSome = true)
    (distinct : ((carriedFailures (.continuation request)).map (·.gateId)).Nodup) :
    PolicyFollowsRequest
      (continueEvent request (operationId .continue request.correlationId) revision transition
        artifactRefs evidenceRefs)
      (MovingTransition.name transition) (.continuation request) := by
  have head : startsWith (operationId .continue request.correlationId) (js "sdd.continue:") = true :=
    startsWith_append _ _
  refine policyFollows_of (by nofun) rfl ?_ distinct (.inl head) ?_
  · cases transition <;> rfl
  · refine transitionEvent_policyValid .continue request.correlationId rfl valid listed ?_ ?_
    · cases transition with
      | accepted => exact assigned (.inl rfl)
      | completed => exact assigned (.inr rfl)
      | _ => rfl
    · cases transition with
      | started => exact absurd listed (by decide)
      | _ => rfl

private theorem nextPhase_some {phase : RunPhase} (unfinished : phase ≠ .acceptance) :
    ∃ following, nextPhase (some phase) = some following := by
  cases phase with
  | acceptance => exact absurd rfl unfinished
  | _ => exact ⟨_, rfl⟩

private theorem continue_agrees {configuration : WorkflowReducerConfiguration}
    {observation : WorkflowObservation} {state : WorkflowState}
    {request : ContinueWorkflowRequest} {transition : WorkflowTransition} {event : EventDraft}
    {why : Option (List JsString)} (observed : Observes configuration observation state)
    (decided : decideContinueWorkflow observation request = .recorded transition event why)
    (distinct : ((carriedFailures (.continuation request)).map (·.gateId)).Nodup) :
    PolicyFollowsRequest event transition (.continuation request) ∧
      ((needsPhase transition = true → state.currentStep ≠ none) →
        ReducerAnnounces state event transition) := by
  obtain ⟨valid, present, rfl, opened, -, recorded⟩ := decideContinue_recorded decided
  cases observed with
  | present run =>
      have correlation := continue_correlation valid
      have incomplete := opened.incomplete
      cases recorded with
      | resumed unstopped unretired =>
          refine ⟨continueEvent_follows correlation (by decide) (by rintro (⟨⟨⟩⟩ | ⟨⟨⟩⟩)) distinct, fun _ => ?_⟩
          have move : moveRun state .resumed = .ok (.active, state.currentStep) := by
            simp only [moveRun, if_neg incomplete, unstopped, List.isEmpty_nil, if_true]
          exact ⟨_, reduceWorkflow_known rfl rfl opened.limited
            (unblocked_of_unstopped unstopped unretired) rfl (by decide) move, rfl⟩
      | rejected artifactRefs evidenceRefs =>
          refine ⟨continueEvent_follows correlation (by decide) (by rintro (⟨⟨⟩⟩ | ⟨⟨⟩⟩)) distinct, fun phase => ?_⟩
          have move : moveRun state .rejected = .ok (.blocked, state.currentStep) := by
            simp only [moveRun, incomplete, phase rfl, or_self, if_false]
          have unblocked : blockedByRepairStop state
              (continueEvent request (operationId .continue request.correlationId) state.revision
                .rejected artifactRefs evidenceRefs) = false := by
            have quiet : (js "run.transition.rejected" == js "run.resumed" ||
              js "run.transition.rejected" == js "run.transition.accepted" ||
              js "run.transition.rejected" == js "run.completed") = false := by decide
            exact (congrArg _ quiet).trans (Bool.and_false _)
          exact ⟨_, reduceWorkflow_known rfl rfl opened.limited unblocked rfl (by decide) move, rfl⟩
      | accepted unstopped unretired assigned unfinished =>
          refine ⟨continueEvent_follows correlation (by decide) (fun _ => assigned) distinct,
            fun phase => ?_⟩
          obtain ⟨current, step⟩ := Option.ne_none_iff_exists'.mp (phase rfl)
          have inside : current ≠ .acceptance := fun last => unfinished (by rw [step, last])
          obtain ⟨following, next⟩ := nextPhase_some inside
          have move : moveRun state .accepted = .ok (.active, some following) := by
            simp only [moveRun, incomplete, step, reduceCtorEq, or_self, if_false, next]
          refine ⟨_, reduceWorkflow_known rfl rfl opened.limited
            (unblocked_of_unstopped unstopped unretired) rfl (by decide) move, ?_⟩
          simp only [viewOf, announced, recordMove, step, next]
      | completed unstopped unretired assigned final =>
          refine ⟨continueEvent_follows correlation (by decide) (fun _ => assigned) distinct,
            fun _ => ?_⟩
          have move : moveRun state .completed = .ok (.completed, none) := by
            simp only [moveRun, final]
            rfl
          exact ⟨_, reduceWorkflow_known rfl rfl opened.limited
            (unblocked_of_unstopped unstopped unretired) rfl (by decide) move, rfl⟩

private theorem fact_agrees {configuration : WorkflowReducerConfiguration}
    {observation : WorkflowObservation} {state : WorkflowState} {request : RecordFactRequest}
    {transition : WorkflowTransition} {event : EventDraft} {why : Option (List JsString)}
    (observed : Observes configuration observation state)
    (decided : decideRecordFact observation request = .recorded transition event why) :
    PolicyFollowsRequest event transition (.fact request) ∧
      ((needsPhase transition = true → state.currentStep ≠ none) →
        ReducerAnnounces state event transition) := by
  obtain ⟨valid, present, rfl, opened, -, assigned, rfl, rfl⟩ := decideFact_recorded decided
  cases observed with
  | present run =>
      have correlation : idPattern request.correlationId = true := by
        simp only [validFactRequest, Bool.and_eq_true] at valid
        exact valid.1.1.1.1.1.1.1.2
      refine ⟨policyFollows_of ?_ rfl rfl List.nodup_nil (.inr rfl)
        (factEvent_policyValid correlation assigned), fun phase => ?_⟩
      · exact fun later => nomatch later
      · have move : moveRun state .fact = .ok (state.status, state.currentStep) := by
          simp only [moveRun, opened.incomplete, phase rfl, or_self, if_false]
        have known : knownReason (factEvent state request).reasonCode = some .fact ∧
            (factEvent state request).reasonCode ∉
              [js "run.resumed", js "run.transition.accepted", js "run.completed"] := by
          change knownReason (workflowOperationFacts request.operation).reasonCode = some .fact ∧
            (workflowOperationFacts request.operation).reasonCode ∉ _
          cases request.operation <;> decide
        have unblocked : blockedByRepairStop state (factEvent state request) = false := by
          have quiet := known.2
          simp only [List.mem_cons, List.not_mem_nil, or_false, not_or] at quiet
          simp [blockedByRepairStop, quiet]
        exact ⟨_, reduceWorkflow_known rfl rfl opened.limited unblocked known.1 (by decide) move,
          rfl⟩

private theorem reduceWorkflow_resolved (state : WorkflowState) (event : EventDraft)
    {resolution : RepairResolution} {stop : RepairStop}
    (policy : event.policyVersion = workflowPolicyVersion)
    (prior : event.priorRevision = state.revision)
    (code : event.reasonCode = js "run.repair_stop.resolved")
    (carried : event.repairResolution = some resolution)
    (limited : state.acceptanceAttemptCeiling ≠ none) (blocked : state.status = .blocked)
    (unretired : state.specificationRestart = none)
    (found : state.activeRepairStops.find? (·.criterionId == resolution.criterionId) = some stop)
    (agrees : stop.classification = resolution.classification) :
    registryReduce state event =
      match resolution.classification with
      | .specification => resolveSpecification state event resolution
      | .code => resolveCode state event resolution := by
  rw [registryReduce_v2 policy]
  unfold reduceWorkflow reduceRepairStopResolved
  rw [if_neg (by simp [policy, prior]), code, if_neg (by decide), if_neg (by decide),
    if_neg (by decide), if_neg limited, if_neg (by decide), if_neg (by decide),
    if_neg (by decide), if_pos rfl]
  cases kind : resolution.classification <;>
    simp only [carried, blocked, unretired, ne_eq, not_true_eq_false, or_self, if_false, found,
      agrees, kind]

private theorem resolveCode_ok {state : WorkflowState} {event : EventDraft}
    {resolution : RepairResolution} (noRun : resolution.nextRunId = none)
    (noTicket : resolution.restartTicketRef = none)
    (noDigest : resolution.restartTicketDigest = none) :
    resolveCode state event resolution = .ok (reopenRun state event resolution) := by
  simp only [resolveCode, noRun, noTicket, noDigest, ne_eq, not_true_eq_false, or_self, if_false]

private theorem resolveSpecification_ok {state : WorkflowState} {event : EventDraft}
    {resolution : RepairResolution} {nextRunId restartTicketRef restartTicketDigest : JsString}
    (someRun : resolution.nextRunId = some nextRunId)
    (someTicket : resolution.restartTicketRef = some restartTicketRef)
    (someDigest : resolution.restartTicketDigest = some restartTicketDigest)
    (noCode : (remainingStops state resolution).any (·.classification == .code) = false) :
    resolveSpecification state event resolution =
      .ok (retireRun state event resolution nextRunId restartTicketRef restartTicketDigest) := by
  simp only [resolveSpecification, someRun, someTicket, someDigest, noCode, Bool.false_eq_true,
    if_false]

private theorem viewOf_reopenRun {state : WorkflowState} {event : EventDraft}
    {resolution : RepairResolution} (repaired : resolution.classification = .code) :
    viewOf (reopenRun state event resolution) =
      announcedResolution (viewOf state) resolution := by
  simp only [announcedResolution, repaired]
  rfl

private theorem viewOf_retireRun {state : WorkflowState} {event : EventDraft}
    {resolution : RepairResolution} {nextRunId restartTicketRef restartTicketDigest : JsString}
    (blocked : state.status = .blocked) (retired : resolution.classification = .specification)
    (someRun : resolution.nextRunId = some nextRunId)
    (someTicket : resolution.restartTicketRef = some restartTicketRef)
    (someDigest : resolution.restartTicketDigest = some restartTicketDigest) :
    viewOf (retireRun state event resolution nextRunId restartTicketRef restartTicketDigest) =
      announcedResolution (viewOf state) resolution := by
  simp only [announcedResolution, retired, someRun, someTicket, someDigest]
  simp only [viewOf, retireRun, blocked]
  rfl

private theorem resolve_agrees {configuration : WorkflowReducerConfiguration}
    {observation : WorkflowObservation} {state : WorkflowState}
    {request : ResolveRepairStopRequest} {transition : WorkflowTransition} {event : EventDraft}
    {why : Option (List JsString)} (observed : Observes configuration observation state)
    (decided : decideResolveRepairStop observation request = .recorded transition event why) :
    PolicyFollowsRequest event transition (.resolution request) ∧
      ReducerAnnounces state event transition := by
  obtain ⟨valid, present, stop, rfl, resolve, rfl, rfl⟩ := decideResolve_recorded decided
  cases observed with
  | present run =>
      have correlation : idPattern request.correlationId = true := by
        simp only [validResolveRequest, Bool.and_eq_true] at valid
        exact valid.1.1.1.1.1.1.1.1.1.1.1.2
      refine ⟨policyFollows_of (by nofun) rfl rfl List.nodup_nil (.inr rfl)
        (resolutionEvent_policyValid correlation resolve.successor), ?_⟩
      have limited : state.acceptanceAttemptCeiling ≠ none := by
        refine (replays_opened run).limited fun none => ?_
        have found := resolve.found
        rw [none] at found
        cases found
      have reduced := reduceWorkflow_resolved state (resolutionEvent state request stop) rfl rfl rfl rfl limited resolve.blocked
        resolve.unretired resolve.found rfl
      have successor := resolve.successor
      simp only [validSuccessor, Bool.and_eq_true, beq_iff_eq] at successor
      obtain ⟨⟨⟨⟨⟨runId, ticket⟩, digest⟩, -⟩, -⟩, -⟩ := successor
      cases classification : stop.classification with
      | code =>
          rw [classification] at runId ticket digest
          have noRun : request.nextRunId = none := Option.isSome_eq_false_iff.mp runId.symm
            |> Option.isNone_iff_eq_none.mp
          have noTicket : request.restartTicketRef = none :=
            Option.isSome_eq_false_iff.mp ticket.symm |> Option.isNone_iff_eq_none.mp
          have noDigest : request.restartTicketDigest = none :=
            Option.isSome_eq_false_iff.mp digest.symm |> Option.isNone_iff_eq_none.mp
          have repaired : (draftedResolution request stop).classification = .code := classification
          rw [repaired] at reduced
          exact ⟨_, reduced.trans (resolveCode_ok noRun noTicket noDigest),
            viewOf_reopenRun repaired⟩
      | specification =>
          rw [classification] at runId ticket digest
          obtain ⟨nextRunId, someRun⟩ := Option.isSome_iff_exists.mp runId.symm
          obtain ⟨restartTicketRef, someTicket⟩ := Option.isSome_iff_exists.mp ticket.symm
          obtain ⟨restartTicketDigest, someDigest⟩ := Option.isSome_iff_exists.mp digest.symm
          have retired : (draftedResolution request stop).classification = .specification :=
            classification
          have noCode : (remainingStops state (draftedResolution request stop)).any
              (·.classification == .code) = false := by
            have all := resolve.noCode classification
            rw [List.any_eq_false] at all ⊢
            exact fun entry member => all entry (List.mem_of_mem_filter member)
          rw [retired] at reduced
          exact ⟨_, reduced.trans (resolveSpecification_ok someRun someTicket someDigest noCode),
            viewOf_retireRun resolve.blocked retired someRun someTicket someDigest⟩

/-- A recorded decision agrees with the policy and the reducer: the policy follows the metadata
the request carried, and on a run that stands in the phase its transition needs the reducer
reaches the run the transition announces. -/
theorem recorded_decision_agrees (configuration : WorkflowReducerConfiguration)
    (observation : WorkflowObservation) (state : WorkflowState) (request : WorkflowRequest)
    (transition : WorkflowTransition) (event : EventDraft) (why : Option (List JsString))
    (observed : Observes configuration observation state)
    (distinct : ((carriedFailures request).map (·.gateId)).Nodup)
    (decided : decideWorkflow observation request = .recorded transition event why) :
    (assertEventSemanticPolicy event = .ok () ↔
      (∀ assignment, carriedAssignment transition request = some assignment →
        assignment.role = phaseModelRole assignment.phase) ∧
      (∀ failure ∈ carriedFailures request, gateFailureListed failure = true) ∧
      (carriedFailures request).IsChain NotAfter) ∧
    ((needsPhase transition = true → state.currentStep ≠ none) →
      ∃ next, registryReduce state event = .ok next ∧
        viewOf next = announced (viewOf state) event transition ∧
        ∀ gateOutcome, (viewOf next).nextAction gateOutcome =
          (announced (viewOf state) event transition).nextAction gateOutcome) := by
  have both : PolicyFollowsRequest event transition request ∧
      ((needsPhase transition = true → state.currentStep ≠ none) →
        ReducerAnnounces state event transition) := by
    cases request with
    | start request =>
        obtain ⟨policy, reducer⟩ := start_agrees observed decided
        exact ⟨policy, fun _ => reducer⟩
    | continuation request => exact continue_agrees observed decided distinct
    | fact request => exact fact_agrees observed decided
    | resolution request =>
        obtain ⟨policy, reducer⟩ := resolve_agrees observed decided
        exact ⟨policy, fun _ => reducer⟩
  refine ⟨both.1, fun phase => ?_⟩
  obtain ⟨next, accepted, view⟩ := both.2 phase
  exact ⟨next, accepted, view, fun gateOutcome => by rw [view]⟩

/-- The agreement without any condition on the carried metadata or on the phase of the run. -/
def AgreesUnconditionally : Prop :=
  ∀ configuration observation state request transition event why,
    Observes configuration observation state →
    ((carriedFailures request).map (·.gateId)).Nodup →
    decideWorkflow observation request = .recorded transition event why →
      assertEventSemanticPolicy event = .ok () ∧ ReducerAnnounces state event transition

/-- What the policy and the reducer say of the event a request drafts on a replayed history. -/
def agreement (events : List EventDraft) (request : WorkflowRequest) : Option (Bool × Bool) :=
  match evaluate registryReduce (workflowSeed sampleConfiguration) events with
  | none => none
  | some state =>
      match decideWorkflow (.present state) request with
      | .recorded _ event _ =>
          some ((assertEventSemanticPolicy event).isOk, (registryReduce state event).isOk)
      | _ => none

def startedHistory : List EventDraft := retiredHistory.take 1

/-- A run whose first event is a legacy resumption: active, but in no phase. -/
def unopenedHistory : List EventDraft :=
  [{ historyEvent 0 .transition .state (js "sdd.start:a") (js "run.resumed") with
      contractVersion := .v1_0
      stateContract := .v1_0
      policyVersion := legacyWorkflowPolicyVersion
      gateFailures := none
      observedIdentity := ⟨js "claude", none, none⟩ },
    { historyEvent 1 .recovery .state (js "sdd.start:b") (js "run.policy_upgraded") with
      runLimits := some ⟨3, none⟩ }]

def continueRequest (revision : Int) (role : ModelRole) (failures : List GateFailure) :
    ContinueWorkflowRequest where
  feature := js "f"
  runId := js "r"
  correlationId := js "next"
  eventId := js "e2"
  occurredAt := js "2026-01-02T00:00:00Z"
  expectedRevision := revision
  observedIdentity := ⟨js "claude", none⟩
  resolvedAssignment := some ⟨.prd, role, js "m", js "high"⟩
  phaseExecution := some ⟨sampleDigest, none, none, .unknown⟩
  gateDecision := some ⟨.warn, failures⟩
  action := .completePhase ⟨[js "prd.md"], [js "e.json"], none, none, false⟩

theorem started_history_agrees :
    ∃ state transition event,
      Observes sampleConfiguration (.present state) state ∧
      (assertEventSemanticPolicy event = .ok () ↔
        (∀ assignment, carriedAssignment transition
            (.continuation (continueRequest 1 .planner [])) = some assignment →
          assignment.role = phaseModelRole assignment.phase) ∧
        (∀ failure ∈ carriedFailures (.continuation (continueRequest 1 .planner [])),
          gateFailureListed failure = true) ∧
        (carriedFailures (.continuation (continueRequest 1 .planner []))).IsChain NotAfter) ∧
      ((needsPhase transition = true → state.currentStep ≠ none) →
        ∃ next, registryReduce state event = .ok next ∧
          viewOf next = announced (viewOf state) event transition ∧
          ∀ gateOutcome, (viewOf next).nextAction gateOutcome =
            (announced (viewOf state) event transition).nextAction gateOutcome) := by
  obtain ⟨state, run, decided⟩ := reaches_of_evaluate registryReduce
    (workflowSeed sampleConfiguration) startedHistory
    (fun state => match decideWorkflow (.present state)
        (.continuation (continueRequest 1 .planner [])) with
      | .recorded _ _ _ => true
      | _ => false) (by decide)
  split at decided
  · rename_i transition event why drafted
    have observed : Observes sampleConfiguration (.present state) state := .present run
    exact ⟨state, transition, event, observed, recorded_decision_agrees sampleConfiguration
      (.present state) state _ transition event why observed List.nodup_nil drafted⟩
  · cases decided

private theorem disagrees_of {events : List EventDraft} {request : WorkflowRequest}
    {policy reducer : Bool} (evaluated : agreement events request = some (policy, reducer))
    (distinct : ((carriedFailures request).map (·.gateId)).Nodup)
    (fails : policy = false ∨ reducer = false) : ¬ AgreesUnconditionally := by
  intro claim
  unfold agreement at evaluated
  split at evaluated
  · cases evaluated
  · rename_i state outcome
    have run : Replays sampleConfiguration events state := by
      unfold evaluate at outcome
      cases ran : events.foldlM registryReduce (workflowSeed sampleConfiguration) with
      | error message =>
          rw [ran] at outcome
          cases outcome
      | ok final =>
          rw [ran] at outcome
          cases outcome
          exact ran
    split at evaluated
    · rename_i transition event why decided
      obtain ⟨policyOk, next, accepted, -⟩ :=
        claim sampleConfiguration _ state request transition event why (.present run) distinct decided
      rw [policyOk, accepted] at evaluated
      cases evaluated
      rcases fails with fails | fails <;> cases fails
    · cases evaluated

/-- An assignment out of its phase's role, a failure the catalog does not list, failures out of
policy order and a run in no phase each separate a decider from the policy or the reducer. -/
theorem recorded_decision_disagrees :
    agreement startedHistory (.continuation (continueRequest 1 .judge [])) =
        some (false, true) ∧
      agreement startedHistory (.continuation (continueRequest 1 .planner
        [⟨.prdPresent, .prdAusente, 99, .warn, [], none⟩])) = some (false, true) ∧
      agreement startedHistory (.continuation (continueRequest 1 .planner
        [⟨.specApproved, .aprovacaoSpec, 40, .warn, [], none⟩,
          ⟨.prdPresent, .prdAusente, 30, .warn, [], none⟩])) = some (false, true) ∧
      agreement unopenedHistory (.continuation (continueRequest 2 .planner [])) =
        some (true, false) ∧
      ¬ AgreesUnconditionally := by
  have role : agreement startedHistory (.continuation (continueRequest 1 .judge [])) =
      some (false, true) := by decide
  exact ⟨role, by decide, by decide, by decide,
    disagrees_of role List.nodup_nil (.inl rfl)⟩

end Kratos.Workflow
