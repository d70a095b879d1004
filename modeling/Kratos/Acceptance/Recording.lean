/- source: composition/workflow.ts, domain/cli/agent.ts, domain/acceptance-criteria/policy.ts
   digest: The artifacts prepared for a reported verdict, and the event its recording drafts. -/

import Kratos.Acceptance.Verdict
import Kratos.Events.Append
import Kratos.RepairLoop.Recording

set_option autoImplicit false

namespace Kratos.Acceptance

open Foundation.Text Foundation.JsonText Foundation.Collections Events RepairLoop Workflow

section Observation

/-- A criteria snapshot with where it lies and its digest. -/
structure ObservedSnapshot where
  declarations : List FrozenCriterion
  ref : JsString
  digest : JsString
deriving DecidableEq, Repr

/-- The payload of an acceptance agent. -/
structure AcceptancePayload where
  verdict : GlobalVerdict
  criteria : List ReportedCriterion
  faults : List RepairLoopFault
deriving DecidableEq, Repr

/-- What the recording of a verdict observes. The snapshot is the last one the events of the run
bind; planned tells whether an event of the run accepted these bytes as the plan. -/
structure AcceptanceObservation where
  feature : JsString
  runId : JsString
  eventId : JsString
  occurredAt : JsString
  correlationId : JsString
  readable : Bool
  documentContent : Option JsString
  documentDigest : JsString
  snapshot : Option ObservedSnapshot
  planned : Bool
  verdicts : Outcomes
  evidence : List EvidenceV1
  invalidEvidenceIds : List JsString
  payload : AcceptancePayload
  workflow : Option WorkflowState
  host : Option JsString
  phaseExecution : Option PhaseExecutionObservation

variable (observation : AcceptanceObservation)

def AcceptanceObservation.runRoot : JsString :=
  Events.runRoot ⟨observation.feature, observation.runId⟩

def AcceptanceObservation.documentRef : JsString :=
  js ".brain/02-features/" ++ observation.feature ++ js "/02-tasks.md"

/-- `outputPath(observation, "acceptance")`. -/
def AcceptanceObservation.outputRef : JsString :=
  observation.runRoot ++ js "/agent-output/acceptance.json"

def AcceptanceObservation.criteriaRef : JsString :=
  observation.runRoot ++ js "/acceptance/criteria/" ++ observation.eventId ++ js ".json"

def AcceptanceObservation.verdictRef (criterionId : JsString) : JsString :=
  observation.runRoot ++ js "/acceptance/verdicts/" ++ observation.eventId ++ js "/" ++
    criterionId ++ js ".json"

def AcceptanceObservation.stopRef (criterionId : JsString) : JsString :=
  observation.runRoot ++ js "/acceptance/repair-stops/" ++ observation.eventId ++ js "/" ++
    criterionId ++ js ".json"

def AcceptanceObservation.document : TaskDocumentObservation :=
  inspectTaskDocument observation.documentContent

def AcceptanceObservation.currentDeclarations (sha256 : JsString → JsString) :
    List CurrentCriterion :=
  match observation.document with
  | .valid declarations => declarations.map (currentCriterion sha256)
  | _ => []

end Observation

section Preparation

/-- `${JSON.stringify(value, null, 2)}\n`. -/
def serializeValue (value : Json) : JsString := stringify indented 0 value ++ js "\n"

def AcceptanceCriterionKind.text : AcceptanceCriterionKind → JsString
  | .main => js "main"
  | .edge => js "edge"

def AcceptanceCriterionOutcome.text : AcceptanceCriterionOutcome → JsString
  | .passed => js "passed"
  | .failed => js "failed"
  | .notRun => js "not-run"

def frozenJson (criterion : FrozenCriterion) : Json :=
  .object
    [(js "criterionId", .string criterion.criterionId), (js "workUnit", .string criterion.workUnit),
      (js "task", .string criterion.task), (js "kind", .string criterion.kind.text),
      (js "ordinal", .integer criterion.ordinal),
      (js "declarationDigest", .string criterion.declarationDigest)]

variable (sha256 : JsString → JsString) (observation : AcceptanceObservation)

/-- `buildCriteriaSnapshot`, for the current declarations. -/
def buildCriteriaSnapshot (previousSnapshotRef : Option JsString) : Json :=
  .object
    [(js "contractVersion", .string (js "1.0.0")), (js "stateContract", .string (js "1.0.0")),
      (js "runId", .string observation.runId), (js "eventId", .string observation.eventId),
      (js "sourceRef", .string observation.documentRef),
      (js "sourceDigest", .string observation.documentDigest),
      (js "recordedAt", .string observation.occurredAt),
      (js "previousSnapshotRef", (previousSnapshotRef.map Json.string).getD .null),
      (js "declarations",
        .array ((declared (observation.currentDeclarations sha256)).map frozenJson))]

/-- The snapshot of the current declarations that the event itself would write. -/
def preparedSnapshot (previousSnapshotRef : Option JsString) : ObservedSnapshot where
  declarations := declared (observation.currentDeclarations sha256)
  ref := observation.criteriaRef
  digest := sha256 (serializeValue (buildCriteriaSnapshot sha256 observation previousSnapshotRef))

def buildAcceptanceVerdict (snapshot : ObservedSnapshot) (criterion : BoundCriterionVerdict) :
    Json :=
  .object
    [(js "contractVersion", .string (js "1.0.0")), (js "stateContract", .string (js "1.0.0")),
      (js "runId", .string observation.runId), (js "eventId", .string observation.eventId),
      (js "criterionId", .string criterion.criterionId),
      (js "outcome", .string criterion.outcome.text),
      (js "criteriaSnapshotRef", .string snapshot.ref),
      (js "criteriaSnapshotDigest", .string snapshot.digest),
      (js "evidenceId", .string criterion.evidenceId),
      (js "evidenceRef", .string criterion.evidenceRef),
      (js "evidenceDigest", .string criterion.evidenceDigest),
      (js "recordedAt", .string observation.occurredAt)]

/-- What an artifact records, where it is written and its digest. -/
structure PreparedArtifact (α : Type) where
  value : α
  ref : JsString
  digest : JsString

def prepareVerdict (snapshot : ObservedSnapshot) (criterion : BoundCriterionVerdict) :
    PreparedArtifact BoundCriterionVerdict where
  value := criterion
  ref := observation.verdictRef criterion.criterionId
  digest := sha256 (serializeValue (buildAcceptanceVerdict observation snapshot criterion))

/-- `workflow.state.acceptanceAttemptCeiling ?? 0` of a present run. -/
def AcceptanceObservation.attemptCeiling : Nat :=
  ((observation.workflow.bind (·.acceptanceAttemptCeiling))).getD 0

def stopId (stop : RepairLoopStop) : JsString :=
  js "stop-" ++ (sha256 (observation.runId ++ js "\n" ++ observation.eventId ++ js "\n" ++
    stop.criterionId ++ js "\n" ++ decimal stop.attempt)).take 48

def buildRepairLoopStop (stop : RepairLoopStop) : Json :=
  .object
    [(js "contractVersion", .string (js "1.1.0")), (js "stateContract", .string (js "1.1.0")),
      (js "stopId", .string (stopId sha256 observation stop)),
      (js "runId", .string observation.runId), (js "criterionId", .string stop.criterionId),
      (js "attempt", .integer stop.attempt),
      (js "attemptCeiling", .integer observation.attemptCeiling),
      (js "classification", .string stop.classification.text),
      (js "diagnosis", .string stop.diagnosis),
      (js "recordedAt", .string observation.occurredAt)]

def prepareStop (stop : RepairLoopStop) : PreparedArtifact RepairLoopStop where
  value := stop
  ref := observation.stopRef stop.criterionId
  digest := sha256 (serializeValue (buildRepairLoopStop sha256 observation stop))

/-- The criterion a bound verdict reports to the repair loop. -/
def reportedCriterion (criterion : BoundCriterionVerdict) : Option RepairLoopCriterion :=
  match criterion.outcome with
  | .passed => some ⟨criterion.criterionId, .passed⟩
  | .failed => some ⟨criterion.criterionId, .failed⟩
  | .notRun => none

def AcceptanceObservation.candidate (bound : List BoundCriterionVerdict) : RepairLoopCandidate where
  attemptCeiling := observation.attemptCeiling
  attempts := (observation.workflow.map (·.attempts)).getD []
  criteria := bound.filterMap reportedCriterion
  faults := observation.payload.faults

/-- A rejection that reports no criterion is refused before the repair loop. -/
def loopDecision (bound : List BoundCriterionVerdict) :
    Except RepairLoopRefusal RepairLoopDecision :=
  if observation.payload.verdict = .rejected ∧ bound.filterMap reportedCriterion = [] then
    .error (.refused .invalidCriterion (bound.head?.map (·.criterionId)))
  else decideRepairLoop (observation.candidate bound)

/-- What `observeAcceptanceCriteria` prepares for the event. -/
structure PreparedAcceptance where
  snapshot : Option ObservedSnapshot
  bootstrapSnapshot : Option ObservedSnapshot
  appendSnapshot : Option ObservedSnapshot
  verdicts : List (PreparedArtifact BoundCriterionVerdict)
  repairLoopDecision : Option (Except RepairLoopRefusal RepairLoopDecision)
  repairStops : List (PreparedArtifact RepairLoopStop)

def bootstrapSnapshot : Option ObservedSnapshot :=
  if observation.snapshot = none ∧ observation.planned = true ∧
      observation.currentDeclarations sha256 ≠ [] ∧
      ((observation.currentDeclarations sha256).all fun criterion => !criterion.checked) = true then
    some (preparedSnapshot sha256 observation none)
  else none

/-- `criteria.snapshot ?? criteria.bootstrapSnapshot`. -/
def baselineSnapshot : Option ObservedSnapshot :=
  observation.snapshot.or (bootstrapSnapshot sha256 observation)

def changeAgainst (baseline : ObservedSnapshot) : CriteriaChangeDecision :=
  compareCriteriaSnapshot .acceptance baseline.declarations
    (observation.currentDeclarations sha256) observation.verdicts

def CriteriaChangeDecision.isAppend : CriteriaChangeDecision → Bool
  | .append _ => true
  | _ => false

/-- The snapshot an append would write over the recorded one. -/
def appendSnapshot : Option ObservedSnapshot :=
  match observation.snapshot with
  | none => none
  | some recorded =>
      if (changeAgainst sha256 observation recorded).isAppend = true then
        some (preparedSnapshot sha256 observation (some recorded.ref))
      else none

/-- The snapshot the verdicts are bound to. -/
def selectedSnapshot (baseline : ObservedSnapshot) : Option ObservedSnapshot :=
  if (changeAgainst sha256 observation baseline).isAppend = true then
    appendSnapshot sha256 observation
  else some baseline

def decideObserved : AcceptanceVerdictDecision :=
  decideAcceptanceVerdict (observation.currentDeclarations sha256) observation.payload.verdict
    observation.payload.criteria observation.evidence observation.invalidEvidenceIds

def preparedStops :
    Except RepairLoopRefusal RepairLoopDecision → List (PreparedArtifact RepairLoopStop)
  | .ok (.stopped _ stops) => stops.map (prepareStop sha256 observation)
  | _ => []

def prepareAcceptance : PreparedAcceptance :=
  let unprepared : PreparedAcceptance :=
    { snapshot := observation.snapshot
      bootstrapSnapshot := bootstrapSnapshot sha256 observation
      appendSnapshot := appendSnapshot sha256 observation
      verdicts := []
      repairLoopDecision := none
      repairStops := [] }
  match baselineSnapshot sha256 observation with
  | none => unprepared
  | some baseline =>
  match decideObserved sha256 observation, selectedSnapshot sha256 observation baseline with
  | .accepted bound _, some selected =>
      if (changeAgainst sha256 observation baseline).isRefused = true then unprepared
      else
        { unprepared with
          verdicts := bound.map (prepareVerdict sha256 observation selected)
          repairLoopDecision := some (loopDecision observation bound)
          repairStops := preparedStops sha256 observation (loopDecision observation bound) }
  | _, _ => unprepared

end Preparation

section Recording

/-- What a recording that drafts no event reports. -/
inductive RecordingRefusal
  | criterion (reasonCode : String) (ref : JsString) (why : JsString)
  | output (ref : JsString) (why : JsString)
  | usage (why : JsString)
  | thrown (message : String)
deriving DecidableEq, Repr

def describeRepairLoopRefusal (reason : RefusalReason) (criterionId : Option JsString) : JsString :=
  let subject := match criterionId with
    | none => js "the acceptance verdict"
    | some criterionId => js "acceptance criterion " ++ criterionId
  match reason with
  | .missingFault => js "A classification and diagnosis are required for " ++ subject ++ js "."
  | .unexpectedFault => js "A fault report is not required for " ++ subject ++ js "."
  | .invalidFault => js "The fault report for " ++ subject ++ js " is invalid."
  | .activeStop => js "An active repair stop already exists for " ++ subject ++ js "."
  | .duplicateCriterion => js "The repair-loop input repeats " ++ subject ++ js "."
  | .invalidAttempt | .invalidCeiling | .invalidCriterion =>
      js "The repair-loop context is invalid for " ++ subject ++ js "."

def artifactDigestRef (ref digest : JsString) : JsString := ref ++ js "#sha256=" ++ digest

def isStopped : RepairLoopDecision → Bool
  | .stopped _ _ => true
  | _ => false

def decidedStops : RepairLoopDecision → List RepairLoopStop
  | .stopped _ stops => stops
  | _ => []

/-- A stop pairs the path with the digest alone; otherwise the path stands before its anchor. -/
def anchoredRefs (stopped : Bool) (ref digest : JsString) : List JsString :=
  if stopped then [artifactDigestRef ref digest] else [ref, artifactDigestRef ref digest]

variable (sha256 : JsString → JsString) (observation : AcceptanceObservation)

/-- The references of the event before those of the stops. -/
def recordedReferences (stopped snapshotNeedsWrite : Bool) (snapshot : ObservedSnapshot)
    (verdicts : List (PreparedArtifact BoundCriterionVerdict)) : List JsString :=
  [observation.outputRef, observation.documentRef] ++
    (if snapshotNeedsWrite then anchoredRefs stopped snapshot.ref snapshot.digest else []) ++
    verdicts.flatMap fun verdict => anchoredRefs stopped verdict.ref verdict.digest

def stopBinding (stop : PreparedArtifact RepairLoopStop) : RepairLoopStopBinding :=
  ⟨stop.value.criterionId, stop.ref, stop.digest⟩

/-- `[...new Set(values)]`. -/
def distinct (values : List JsString) : List JsString := values.reverse.dedup.reverse

/-- `commitAcceptance`: the event, once the verdict can be bound to the active run. -/
def draftAcceptance (decision : RepairLoopDecision) (references : List JsString)
    (stops : List (PreparedArtifact RepairLoopStop)) (evidenceRefs : List JsString) :
    Except RecordingRefusal EventDraft :=
  match observation.workflow, observation.host, observation.phaseExecution with
  | some state, some host, some execution =>
      if state.currentStep ≠ some .acceptance ∨ state.policyVersion ≠ some workflowPolicyVersion then
        .error (.usage (js "The acceptance verdict cannot be bound to the active run."))
      else
        match buildAcceptanceDecisionMetadata decision (stops.map stopBinding) with
        | .error message => .error (.thrown message)
        | .ok metadata =>
            .ok (commitAcceptance state
              { eventId := observation.eventId
                occurredAt := observation.occurredAt
                correlationId := observation.correlationId
                identity := ⟨host, none⟩
                execution
                references
                evidenceRefs }
              decision (stops.map stopBinding) metadata)
  | _, _, _ => .error (.usage (js "The acceptance verdict cannot be bound to the active run."))

def stopsMatchDecision (decision : RepairLoopDecision)
    (stops : List (PreparedArtifact RepairLoopStop)) : Bool :=
  decide (stops.map (fun stop => (stop.value.criterionId, stop.value.attempt)) =
    (decidedStops decision).map fun stop => (stop.criterionId, stop.attempt))

/-- Whether the prepared verdicts are those of the bound criteria. -/
def verdictsMatch (bound : List BoundCriterionVerdict)
    (verdicts : List (PreparedArtifact BoundCriterionVerdict)) : Bool :=
  decide ((verdicts.map (·.value.criterionId)).dedup.length = bound.length) &&
    bound.all fun criterion => (verdicts.map (·.value.criterionId)).contains criterion.criterionId

/-- `verdict.criteria.flatMap(...)` over `preparedById`. -/
def verdictsFor (bound : List BoundCriterionVerdict)
    (verdicts : List (PreparedArtifact BoundCriterionVerdict)) :
    List (PreparedArtifact BoundCriterionVerdict) :=
  bound.filterMap fun criterion =>
    mapGet (verdicts.map fun verdict => (verdict.value.criterionId, verdict)) criterion.criterionId

/-- The event of `recordAcceptance`; its other effects write the artifacts the event refers to. -/
def recordAcceptance (prepared : PreparedAcceptance) : Except RecordingRefusal EventDraft :=
  match observation.document, observation.readable, prepared.snapshot.or prepared.bootstrapSnapshot with
  | .valid _, true, some baseline =>
    match changeAgainst sha256 observation baseline with
    | .refused reasonCode criterionId =>
        .error (.criterion reasonCode observation.documentRef
          (js "Acceptance criterion " ++ criterionId ++ js " was refused."))
    | change =>
    match (if change.isAppend then prepared.appendSnapshot else some baseline) with
    | none =>
        .error (.criterion "gate.ac_baseline_unverifiable" observation.documentRef
          (js "The appended acceptance criterion snapshot could not be prepared."))
    | some snapshot =>
    match decideObserved sha256 observation with
    | .refused refusal =>
        .error (.criterion refusal.reasonCode observation.outputRef
          (js "Acceptance criterion " ++ refusal.criterionId ++ js " was refused."))
    | .accepted bound _ =>
      if verdictsMatch bound prepared.verdicts = false then
        .error (.criterion "gate.ac_baseline_unverifiable" observation.outputRef
          (js "The digest-bound acceptance verdict artifacts could not be prepared."))
      else
        match prepared.repairLoopDecision with
        | none =>
            .error (.output observation.outputRef
              (js "The acceptance repair-loop decision could not be prepared."))
        | some (.error (.refused reason criterionId)) =>
            .error (.output observation.outputRef (describeRepairLoopRefusal reason criterionId))
        | some (.error .missingValidatedFault) =>
            .error (.thrown "Missing validated fault")
        | some (.ok decision) =>
            if stopsMatchDecision decision prepared.repairStops = false then
              .error (.output observation.outputRef
                (js "The repair-loop stop artifacts could not be prepared."))
            else
              draftAcceptance observation decision
                (recordedReferences observation (isStopped decision)
                  (change.isAppend || prepared.snapshot.isNone) snapshot
                  (verdictsFor bound prepared.verdicts))
                prepared.repairStops
                (distinct ((verdictsFor bound prepared.verdicts).map (·.value.evidenceRef)))
  | _, _, _ =>
      .error (.criterion "gate.ac_baseline_unverifiable" observation.documentRef
        (js "Acceptance criteria were not frozen from a valid task document."))

def draftEvent : Except RecordingRefusal EventDraft :=
  recordAcceptance sha256 observation (prepareAcceptance sha256 observation)

end Recording

end Kratos.Acceptance
