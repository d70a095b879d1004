/- source: domain/workflow/decision.ts, domain/workflow/reducer.ts
   digest: Deciding a request again after its event was applied. -/

import Kratos.Workflow.Agreement

set_option autoImplicit false

namespace Kratos.Workflow

open Foundation.Text Events

/-- Every resolution of a run was recorded by one of its operations. -/
structure ResolutionLedger (state : WorkflowState) : Prop where
  recorded : ∀ resolution ∈ state.repairResolutions, resolution.operation ∈ state.operations
  untouched : state.revision = 0 → state.repairResolutions = []

private theorem recorded_append {state next : WorkflowState} {operation : JsString}
    (ledger : ResolutionLedger state)
    (resolutions : next.repairResolutions = state.repairResolutions)
    (operations : next.operations = state.operations ++ [operation]) :
    ∀ resolution ∈ next.repairResolutions, resolution.operation ∈ next.operations := by
  intro resolution member
  rw [resolutions] at member
  rw [operations]
  exact List.mem_append_left _ (ledger.recorded resolution member)

private theorem recorded_resolution {state : WorkflowState} {event : EventDraft}
    {resolution : RepairResolution} (ledger : ResolutionLedger state) :
    ∀ entry ∈ (recordResolution state event resolution).repairResolutions,
      entry.operation ∈ (recordResolution state event resolution).operations := by
  intro entry member
  rcases List.mem_append.mp member with earlier | last
  · exact List.mem_append_left _ (ledger.recorded entry earlier)
  · obtain rfl := List.mem_singleton.mp last
    exact List.mem_append_right _ List.mem_cons_self

private theorem accepted_recorded {state next : WorkflowState} {event : EventDraft}
    (ledger : ResolutionLedger state) (accepted : Accepted state event next) :
    ∀ resolution ∈ next.repairResolutions, resolution.operation ∈ next.operations := by
  cases accepted with
  | moved prior unblocked known move policy => exact recorded_append ledger rfl rfl
  | started limits prior fresh policy code => exact recorded_append ledger rfl rfl
  | upgraded limits prior begun pristine code => exact recorded_append ledger rfl rfl
  | startedFromSpec limits source prior fresh retired code =>
      intro resolution member
      change resolution ∈ state.repairResolutions at member
      rw [ledger.untouched fresh] at member
      cases member
  | passed carried prior canonical code => exact recorded_append ledger rfl rfl
  | repair carried prior canonical code => exact recorded_append ledger rfl rfl
  | stopped carried prior canonical code => exact recorded_append ledger rfl rfl
  | retired carried prior blocked unretired found specification agrees successor ticket digest
      noCode code => exact recorded_resolution ledger
  | reopened carried prior blocked unretired found repaired agrees noSuccessor noTicket noDigest
      code => exact recorded_resolution ledger

theorem replays_resolutions {configuration : WorkflowReducerConfiguration}
    {events : List EventDraft} {state : WorkflowState}
    (run : Replays configuration events state) : ResolutionLedger state := by
  refine run.invariant ResolutionLedger ⟨by simp [workflowSeed], fun _ => rfl⟩ ?_
  intro state event next ledger accepted
  have cases := registryReduce_cases accepted
  refine ⟨accepted_recorded ledger cases, fun zero => ?_⟩
  rw [accepted_revision cases] at zero
  exact absurd zero (Nat.pos_iff_ne_zero.mp event.resulting_pos)

theorem accepted_identity {state next : WorkflowState} {event : EventDraft}
    (accepted : Accepted state event next) :
    next.feature = state.feature ∧ next.runId = state.runId ∧
      event.operation ∈ next.operations := by
  cases accepted with
  | startedFromSpec limits source prior fresh retired code =>
      exact ⟨rfl, rfl, List.mem_cons_self⟩
  | _ => exact ⟨rfl, rfl, List.mem_append_right _ List.mem_cons_self⟩

theorem accepted_resolution {state next : WorkflowState} {event : EventDraft}
    (resolution : RepairResolution) (accepted : Accepted state event next)
    (code : event.reasonCode = js "run.repair_stop.resolved")
    (carried : event.repairResolution = some resolution) :
    next.repairResolutions = (recordResolution state event resolution).repairResolutions := by
  cases accepted with
  | moved prior unblocked known move policy =>
      rw [code] at known
      cases known
  | started limits prior fresh policy other => exact absurd (code.symm.trans other) (by decide)
  | upgraded limits prior begun pristine other => exact absurd (code.symm.trans other) (by decide)
  | startedFromSpec limits source prior fresh retired other =>
      exact absurd (code.symm.trans other) (by decide)
  | passed decision prior canonical other => exact absurd (code.symm.trans other) (by decide)
  | repair decision prior canonical other => exact absurd (code.symm.trans other) (by decide)
  | stopped decision prior canonical other => exact absurd (code.symm.trans other) (by decide)
  | retired same prior blocked unretired found specification agrees successor ticket digest
      noCode other =>
      obtain rfl := Option.some.inj (carried.symm.trans same)
      rfl
  | reopened same prior blocked unretired found repaired agrees noSuccessor noTicket noDigest
      other =>
      obtain rfl := Option.some.inj (carried.symm.trans same)
      rfl

private theorem start_duplicate {next : WorkflowState} {request : StartWorkflowRequest}
    {observation : WorkflowObservation} {transition : WorkflowTransition} {event : EventDraft}
    {why : Option (List JsString)}
    (decided : decideStartWorkflow observation request = .recorded transition event why)
    (known : operationId .start request.correlationId ∈ next.operations) :
    decideStartWorkflow (.present next) request = .unchanged .duplicate := by
  unfold decideStartWorkflow at decided ⊢
  split_ifs at decided with invalid corrupt inactive dirty duplicate
  have found : hasOperation (.present next) (operationId .start request.correlationId) = true := by
    simpa [hasOperation] using known
  rw [if_neg invalid, if_neg (by nofun), if_neg inactive, if_neg dirty, if_pos found]

private theorem restart_decided_again {configuration : WorkflowReducerConfiguration}
    {operations : List JsString} {request : StartWorkflowRequest} {startFromSpec : StartedFromSpec}
    {next : WorkflowState} {transition : WorkflowTransition} {event : EventDraft}
    {why : Option (List JsString)} (reason : UnchangedReason)
    (decided : decideStartWorkflow (.absent operations) request = .recorded transition event why)
    (retired : startFromSpec.retiredCriterionIds ≠ [])
    (applied : registryReduce (workflowSeed configuration)
      (startFromSpecEvent request startFromSpec) = .ok next) :
    decideStartWorkflow (.present next) request ≠ .unchanged reason := by
  have reduced : registryReduce (workflowSeed configuration)
      (startFromSpecEvent request startFromSpec) = _ :=
    reduceWorkflow_startedFromSpec rfl rfl rfl rfl rfl rfl retired
  obtain rfl := Except.ok.inj (applied.symm.trans reduced)
  have disjoint : startsWith specificationRestartOperationHead (operationHead .start) = false ∧
      startsWith (operationHead .start) specificationRestartOperationHead = false := by decide
  have unknown : hasOperation (.present (Workflow.startFromSpec (workflowSeed configuration)
      (startFromSpecEvent request startFromSpec) (requestLimits request) startFromSpec))
      (operationId .start request.correlationId) = false := by
    change [specificationRestartOperationHead ++ request.correlationId].contains
      (operationId .start request.correlationId) = false
    rw [List.contains_eq_mem, decide_eq_false_iff_not, List.mem_singleton]
    intro same
    have begins := startsWith_append (operationHead .start) request.correlationId
    rw [← operationId_eq, same, startsWith_append_of_disjoint disjoint.1 disjoint.2] at begins
    cases begins
  unfold decideStartWorkflow at decided ⊢
  split_ifs at decided with invalid corrupt inactive dirty duplicate
  rw [if_neg invalid, if_neg (by nofun), if_neg inactive, if_neg dirty, unknown]
  simp only [Bool.false_eq_true, if_false]
  unfold decideStartPresent
  split_ifs with feature runId completed pristine policy stops
  · nofun
  · nofun
  · cases completed
  · nofun
  · nofun
  · nofun
  · nofun

private theorem start_redelivered {configuration : WorkflowReducerConfiguration}
    {observation : WorkflowObservation} {state next : WorkflowState}
    {request : StartWorkflowRequest} {transition : WorkflowTransition} {event : EventDraft}
    {why : Option (List JsString)} (observed : Observes configuration observation state)
    (decided : decideStartWorkflow observation request = .recorded transition event why)
    (applied : registryReduce state event = .ok next) :
    (∃ reason, decideStartWorkflow (.present next) request = .unchanged reason) ↔
      ¬ ((∃ operations, observation = .absent operations) ∧ request.startFromSpec.isSome) := by
  obtain ⟨-, -, recorded⟩ := accepted_identity (registryReduce_cases applied)
  obtain ⟨-, -, -, present | absent⟩ := decideStart_recorded decided
  · obtain ⟨other, rfl, chosen⟩ := present
    have ordinary : ¬ ((∃ operations, WorkflowObservation.present other = .absent operations) ∧
        request.startFromSpec.isSome) := by
      rintro ⟨⟨operations, other⟩, -⟩
      cases other
    refine iff_of_true ⟨.duplicate, start_duplicate decided ?_⟩ ordinary
    obtain ⟨-, -, -, start⟩ := decideStartPresent_recorded chosen
    cases start with
    | upgraded pristine => exact recorded
    | resumed policy limited unstopped unretired => exact recorded
  · obtain ⟨⟨operations, rfl⟩, chosen⟩ := absent
    obtain ⟨rfl, fromSpec | fresh⟩ := decideStartAbsent_recorded chosen
    · obtain ⟨startFromSpec, carried, retired, rfl⟩ := fromSpec
      cases observed with
      | absent =>
          refine iff_of_false ?_ (not_not.mpr ⟨⟨operations, rfl⟩, by rw [carried]; rfl⟩)
          rintro ⟨reason, unchanged⟩
          exact restart_decided_again reason decided retired applied unchanged
    · obtain ⟨plain, rfl⟩ := fresh
      refine iff_of_true ⟨.duplicate, start_duplicate decided recorded⟩ ?_
      rintro ⟨-, some⟩
      rw [plain] at some
      cases some

private theorem continue_redelivered {observation : WorkflowObservation}
    {state next : WorkflowState} {configuration : WorkflowReducerConfiguration}
    {request : ContinueWorkflowRequest} {transition : WorkflowTransition} {event : EventDraft}
    {why : Option (List JsString)} (observed : Observes configuration observation state)
    (decided : decideContinueWorkflow observation request = .recorded transition event why)
    (applied : registryReduce state event = .ok next) :
    decideContinueWorkflow (.present next) request = .unchanged .duplicate := by
  obtain ⟨feature, runId, recorded⟩ := accepted_identity (registryReduce_cases applied)
  obtain ⟨valid, present, rfl, opened, -, chosen⟩ := decideContinue_recorded decided
  cases observed with
  | present run =>
      have known : operationId .continue request.correlationId ∈ next.operations := by
        cases chosen with
        | resumed unstopped unretired => exact recorded
        | rejected artifactRefs evidenceRefs => exact recorded
        | accepted unstopped unretired assigned unfinished => exact recorded
        | completed unstopped unretired assigned final => exact recorded
      unfold decideContinueWorkflow
      rw [if_neg (by rw [valid]; decide)]
      unfold decideContinuePresent
      simp only [feature, runId, opened.feature, opened.runId, ne_eq, not_true_eq_false, if_false,
        known, if_true]

private theorem fact_redelivered {observation : WorkflowObservation}
    {state next : WorkflowState} {configuration : WorkflowReducerConfiguration}
    {request : RecordFactRequest} {transition : WorkflowTransition} {event : EventDraft}
    {why : Option (List JsString)} (observed : Observes configuration observation state)
    (decided : decideRecordFact observation request = .recorded transition event why)
    (applied : registryReduce state event = .ok next) :
    decideRecordFact (.present next) request = .unchanged .duplicate := by
  obtain ⟨feature, runId, recorded⟩ := accepted_identity (registryReduce_cases applied)
  obtain ⟨valid, present, rfl, opened, -, -, -, rfl⟩ := decideFact_recorded decided
  cases observed with
  | present run =>
      have known : operationId (.fact request.operation) request.correlationId ∈ next.operations :=
        recorded
      unfold decideRecordFact
      rw [if_neg (by rw [valid]; decide)]
      unfold decideFactPresent
      simp only [feature, runId, opened.feature, opened.runId, ne_eq, not_true_eq_false, if_false,
        known, if_true]

private theorem repeats_drafted {state : WorkflowState} {request : ResolveRepairStopRequest}
    {stop : RepairStop} (resolve : ResolvePresent state request stop) (operation : JsString) :
    repeatsResolution request
      { operation
        criterionId := request.criterionId
        classification := stop.classification
        resolutionRef := request.resolutionRef
        resolutionDigest := request.resolutionDigest
        nextRunId := request.nextRunId
        restartTicketRef := request.restartTicketRef
        restartTicketDigest := request.restartTicketDigest } = true := by
  have successor := resolve.successor
  simp only [validSuccessor, Bool.and_eq_true, beq_iff_eq] at successor
  obtain ⟨⟨⟨⟨⟨runId, -⟩, -⟩, -⟩, -⟩, -⟩ := successor
  have classified : stop.classification =
      (if request.nextRunId = none then .code else .specification) := by
    cases named : request.nextRunId with
    | none =>
        rw [named] at runId
        cases kind : stop.classification with
        | code => rfl
        | specification =>
            rw [kind] at runId
            cases runId
    | some nextRunId =>
        rw [named] at runId
        simpa using runId
  simp only [repeatsResolution, beq_self_eq_true, Bool.true_and, Bool.and_true, beq_iff_eq]
  exact classified

private theorem resolve_redelivered {observation : WorkflowObservation}
    {state next : WorkflowState} {configuration : WorkflowReducerConfiguration}
    {request : ResolveRepairStopRequest} {transition : WorkflowTransition} {event : EventDraft}
    {why : Option (List JsString)} (observed : Observes configuration observation state)
    (decided : decideResolveRepairStop observation request = .recorded transition event why)
    (applied : registryReduce state event = .ok next) :
    decideResolveRepairStop (.present next) request = .unchanged .duplicate := by
  have cases := registryReduce_cases applied
  obtain ⟨feature, runId, recorded⟩ := accepted_identity cases
  obtain ⟨valid, present, stop, rfl, resolve, -, rfl⟩ := decideResolve_recorded decided
  cases observed with
  | present run =>
      have known : repairResolutionOperationHead ++ request.correlationId ∈ next.operations :=
        recorded
      have appended := accepted_resolution (draftedResolution request stop) cases rfl rfl
      have earlier : state.repairResolutions.find? (fun entry =>
          entry.operation == repairResolutionOperationHead ++ request.correlationId) = none := by
        refine List.find?_eq_none.mpr fun entry member same => resolve.fresh ?_
        rw [← beq_iff_eq.mp same]
        exact (replays_resolutions run).recorded entry member
      have found : (next.repairResolutions.find? fun entry =>
          entry.operation == repairResolutionOperationHead ++ request.correlationId).any
            (repeatsResolution request) = true := by
        rw [appended]
        simp only [recordResolution, List.find?_append, earlier, Option.none_or, resolutionEvent,
          List.find?_cons, beq_self_eq_true, Option.any_some]
        exact repeats_drafted resolve _
      unfold decideResolveRepairStop
      rw [if_neg (by rw [valid]; decide)]
      unfold decideResolvePresent
      simp only [feature, runId, resolve.feature, resolve.runId, ne_eq, not_true_eq_false, if_false,
        known, if_true, found]

/-- The request opens a run from a repaired specification: no event of the run exists yet. -/
def OpensFromSpecification (observation : WorkflowObservation) : WorkflowRequest → Prop
  | .start request =>
      (∃ operations, observation = .absent operations) ∧ request.startFromSpec.isSome
  | _ => False

/-- A delivered request decided again changes nothing, exactly when it did not open a run from a
repaired specification. -/
theorem redelivery_unchanged_iff (configuration : WorkflowReducerConfiguration)
    (observation : WorkflowObservation) (state next : WorkflowState) (request : WorkflowRequest)
    (transition : WorkflowTransition) (event : EventDraft) (why : Option (List JsString))
    (observed : Observes configuration observation state)
    (decided : decideWorkflow observation request = .recorded transition event why)
    (applied : registryReduce state event = .ok next) :
    (∃ reason, decideWorkflow (.present next) request = .unchanged reason) ↔
      ¬ OpensFromSpecification observation request := by
  cases request with
  | start request => exact start_redelivered observed decided applied
  | continuation request =>
      exact iff_of_true ⟨_, continue_redelivered observed decided applied⟩ id
  | fact request => exact iff_of_true ⟨_, fact_redelivered observed decided applied⟩ id
  | resolution request => exact iff_of_true ⟨_, resolve_redelivered observed decided applied⟩ id

def startRequest (startFromSpec : Option StartedFromSpec) : StartWorkflowRequest where
  projectId := js "p"
  feature := js "f"
  runId := js "r"
  correlationId := js "c1"
  eventId := js "e1"
  occurredAt := js "2026-01-01T00:00:00Z"
  lineage := ⟨sampleDigest, sampleDigest⟩
  objectiveActive := true
  worktreeClean := true
  observedIdentity := ⟨js "claude", none⟩
  acceptanceAttemptCeiling := none
  tokenCeiling := none
  startFromSpec

def repairedSpecification : StartedFromSpec :=
  ⟨js "r0", js "restart/t.json", sampleDigest, [js "AC-1.1.1"]⟩

/-- The run after the event of the first delivery. -/
def deliveredRun (startFromSpec : Option StartedFromSpec) : WorkflowState :=
  match decideStartWorkflow (.absent []) (startRequest startFromSpec) with
  | .recorded _ event _ =>
      (registryReduce (workflowSeed sampleConfiguration) event).toOption.getD
        (workflowSeed sampleConfiguration)
  | _ => workflowSeed sampleConfiguration

theorem plain_start_redelivered :
    (∃ reason, decideWorkflow (.present (deliveredRun none)) (.start (startRequest none)) =
        .unchanged reason) ↔
      ¬ OpensFromSpecification (.absent []) (.start (startRequest none)) :=
  redelivery_unchanged_iff sampleConfiguration (.absent []) (workflowSeed sampleConfiguration)
    (deliveredRun none) (.start (startRequest none)) .started _ none (.absent []) rfl rfl

/-- The second delivery of a start from a specification records a resumption. -/
theorem restart_redelivery_recorded :
    ∃ first second,
      decideStartWorkflow (.absent []) (startRequest (some repairedSpecification)) =
        .recorded .started first none ∧
      registryReduce (workflowSeed sampleConfiguration) first =
        .ok (deliveredRun (some repairedSpecification)) ∧
      decideStartWorkflow (.present (deliveredRun (some repairedSpecification)))
        (startRequest (some repairedSpecification)) = .recorded .resumed second none :=
  ⟨_, _, rfl, rfl, rfl⟩

end Kratos.Workflow
