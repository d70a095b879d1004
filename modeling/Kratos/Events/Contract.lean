/- source: schemas/state/event.v1.schema.json to event.v1.4.schema.json, domain/events/model.ts
   digest: Sealed events, their JSON form, and the schemas of the published contract versions. -/

import Kratos.Events.Model
import Kratos.Patterns
import Kratos.Schema.Codec

set_option autoImplicit false

namespace Kratos.Events

open Foundation.Text Foundation.JsonText Patterns Schema Gates

/-- An event with its place in the chain. -/
structure SealedEvent where
  draft : EventDraft
  previousHash : Option JsString
  eventHash : JsString
  deriving DecidableEq, Repr

section Vocabularies

def contractVersion : Codec ContractVersion :=
  enumeration [.v1_0, .v1_1, .v1_2, .v1_3, .v1_4] ContractVersion.text
    (by intro version; cases version <;> decide) (by decide)

def eventType : Codec EventType :=
  enumeration [.operation, .decision, .transition, .recovery] EventType.text
    (by intro kind; cases kind <;> decide) (by decide)

def eventEffect : Codec EventEffect :=
  enumeration [.none, .state, .artifact, .stateAndArtifact] EventEffect.text
    (by intro effect; cases effect <;> decide) (by decide)

def runPhase : Codec RunPhase :=
  enumeration runPhases RunPhase.text (by intro phase; cases phase <;> decide) (by decide)

def modelRole : Codec ModelRole :=
  enumeration [.planner, .implementer, .judge] ModelRole.text
    (by intro role; cases role <;> decide) (by decide)

def classification : Codec Classification :=
  enumeration [.code, .specification] Classification.text
    (by intro kind; cases kind <;> decide) (by decide)

def acceptanceOutcome : Codec AcceptanceOutcome :=
  enumeration [.passed, .repair, .stopped] AcceptanceOutcome.text
    (by intro outcome; cases outcome <;> decide) (by decide)

def gateId : Codec GateId :=
  enumeration gateIds GateId.text (by intro gate; cases gate <;> decide) (by decide)

def gateFailureReason : Codec GateFailureReason :=
  enumeration
    [.contextUnreadable, .stopLossBudget, .stopLossFlag, .stopLossRejections, .aceitacaoFinal,
      .acIncomplete, .aprovacaoSpec, .gapsAbertos, .particionamento, .prdAusente,
      .prdSectionMissing, .prdUntouched]
    GateFailureReason.text (by intro reason; cases reason <;> decide) (by decide)

def gateModeText : GateMode → JsString
  | .shadow => js "shadow"
  | .warn => js "warn"
  | .enforce => js "enforce"

def gateMode : Codec GateMode :=
  enumeration [.shadow, .warn, .enforce] gateModeText
    (by intro mode; cases mode <;> decide) (by decide)

def nullableText : Codec (Option JsString) := nullable text (by nofun)

def nullableNatural : Codec (Option Nat) := nullable natural (by nofun)

end Vocabularies

section Records

def gateFailureKeys : List JsString :=
  [js "gateId", js "reasonCode", js "mode", js "priority", js "evidenceRefs", js "detail"]

def gateFailureShape (failure : GateFailure) : Shape where
  required :=
    [(js "gateId", gateId.encode failure.gateId),
      (js "reasonCode", gateFailureReason.encode failure.reasonCode),
      (js "mode", gateMode.encode failure.mode),
      (js "priority", natural.encode failure.priority),
      (js "evidenceRefs", (list text).encode failure.evidenceRefs),
      (js "detail", nullableText.encode failure.detail)]
  optional := []

def decodeGateFailure (members : Members) : Option GateFailure := do
  let gate ← field gateId (js "gateId") members
  let reasonCode ← field gateFailureReason (js "reasonCode") members
  let mode ← field gateMode (js "mode") members
  let priority ← field natural (js "priority") members
  let evidenceRefs ← field (list text) (js "evidenceRefs") members
  let detail ← field nullableText (js "detail") members
  pure ⟨gate, reasonCode, priority, mode, evidenceRefs, detail⟩

def gateFailure : Codec GateFailure :=
  record gateFailureKeys gateFailureShape decodeGateFailure (fun _ => rfl) (by
    intro failure members agree
    have distinct : (gateFailureShape failure).keys.Nodup := (by decide : gateFailureKeys.Nodup)
    simp only [decodeGateFailure, field_at gateId agree distinct 0 rfl,
      field_at gateFailureReason agree distinct 1 rfl, field_at gateMode agree distinct 2 rfl,
      field_at natural agree distinct 3 rfl, field_at (list text) agree distinct 4 rfl,
      field_at nullableText agree distinct 5 rfl, Option.bind_eq_bind, Option.bind_some]
    rfl)

def resolvedAssignmentKeys : List JsString :=
  [js "phase", js "role", js "model", js "effort"]

def resolvedAssignmentShape (assignment : ResolvedAssignment) : Shape where
  required :=
    [(js "phase", runPhase.encode assignment.phase),
      (js "role", modelRole.encode assignment.role),
      (js "model", text.encode assignment.model),
      (js "effort", text.encode assignment.effort)]
  optional := []

def decodeResolvedAssignment (members : Members) : Option ResolvedAssignment := do
  let phase ← field runPhase (js "phase") members
  let role ← field modelRole (js "role") members
  let model ← field text (js "model") members
  let effort ← field text (js "effort") members
  pure ⟨phase, role, model, effort⟩

def resolvedAssignment : Codec ResolvedAssignment :=
  record resolvedAssignmentKeys resolvedAssignmentShape decodeResolvedAssignment (fun _ => rfl) (by
    intro assignment members agree
    have distinct : (resolvedAssignmentShape assignment).keys.Nodup := (by decide : resolvedAssignmentKeys.Nodup)
    simp only [decodeResolvedAssignment, field_at runPhase agree distinct 0 rfl, field_at
      modelRole agree distinct 1 rfl, field_at text agree distinct 2 rfl, field_at text agree
      distinct 3 rfl, Option.bind_eq_bind, Option.bind_some]
    rfl)

def runLimitsKeys : List JsString :=
  [js "acceptanceAttemptCeiling", js "tokenCeiling"]

def runLimitsShape (limits : RunLimits) : Shape where
  required :=
    [(js "acceptanceAttemptCeiling", natural.encode limits.acceptanceAttemptCeiling),
      (js "tokenCeiling", nullableNatural.encode limits.tokenCeiling)]
  optional := []

def decodeRunLimits (members : Members) : Option RunLimits := do
  let acceptanceAttemptCeiling ← field natural (js "acceptanceAttemptCeiling") members
  let tokenCeiling ← field nullableNatural (js "tokenCeiling") members
  pure ⟨acceptanceAttemptCeiling, tokenCeiling⟩

def runLimits : Codec RunLimits :=
  record runLimitsKeys runLimitsShape decodeRunLimits (fun _ => rfl) (by
    intro limits members agree
    have distinct : (runLimitsShape limits).keys.Nodup := (by decide : runLimitsKeys.Nodup)
    simp only [decodeRunLimits, field_at natural agree distinct 0 rfl, field_at nullableNatural
      agree distinct 1 rfl, Option.bind_eq_bind, Option.bind_some]
    rfl)

def attemptKeys : List JsString :=
  [js "criterionId", js "attempt"]

def attemptShape (attempt : AcceptanceAttempt) : Shape where
  required :=
    [(js "criterionId", text.encode attempt.criterionId),
      (js "attempt", natural.encode attempt.attempt)]
  optional := []

def decodeAttempt (members : Members) : Option AcceptanceAttempt := do
  let criterionId ← field text (js "criterionId") members
  let count ← field natural (js "attempt") members
  pure ⟨criterionId, count⟩

def attempt : Codec AcceptanceAttempt :=
  record attemptKeys attemptShape decodeAttempt (fun _ => rfl) (by
    intro attempt members agree
    have distinct : (attemptShape attempt).keys.Nodup := (by decide : attemptKeys.Nodup)
    simp only [decodeAttempt, field_at text agree distinct 0 rfl, field_at natural agree
      distinct 1 rfl, Option.bind_eq_bind, Option.bind_some]
    rfl)

def repairStopKeys : List JsString :=
  [js "criterionId", js "attempt", js "classification", js "artifactRef", js "artifactDigest"]

def repairStopShape (stop : RepairStop) : Shape where
  required :=
    [(js "criterionId", text.encode stop.criterionId),
      (js "attempt", natural.encode stop.attempt),
      (js "classification", classification.encode stop.classification),
      (js "artifactRef", text.encode stop.artifactRef),
      (js "artifactDigest", text.encode stop.artifactDigest)]
  optional := []

def decodeRepairStop (members : Members) : Option RepairStop := do
  let criterionId ← field text (js "criterionId") members
  let attempt ← field natural (js "attempt") members
  let kind ← field classification (js "classification") members
  let artifactRef ← field text (js "artifactRef") members
  let artifactDigest ← field text (js "artifactDigest") members
  pure ⟨criterionId, attempt, kind, artifactRef, artifactDigest⟩

def repairStop : Codec RepairStop :=
  record repairStopKeys repairStopShape decodeRepairStop (fun _ => rfl) (by
    intro stop members agree
    have distinct : (repairStopShape stop).keys.Nodup := (by decide : repairStopKeys.Nodup)
    simp only [decodeRepairStop, field_at text agree distinct 0 rfl, field_at natural agree
      distinct 1 rfl, field_at classification agree distinct 2 rfl, field_at text agree distinct
      3 rfl, field_at text agree distinct 4 rfl, Option.bind_eq_bind, Option.bind_some]
    rfl)

def acceptanceDecisionKeys : List JsString :=
  [js "outcome", js "attempts", js "repairStops"]

def acceptanceDecisionShape (decision : AcceptanceDecision) : Shape where
  required :=
    [(js "outcome", acceptanceOutcome.encode decision.outcome),
      (js "attempts", (list attempt).encode decision.attempts),
      (js "repairStops", (list repairStop).encode decision.repairStops)]
  optional := []

def decodeAcceptanceDecision (members : Members) : Option AcceptanceDecision := do
  let outcome ← field acceptanceOutcome (js "outcome") members
  let attempts ← field (list attempt) (js "attempts") members
  let repairStops ← field (list repairStop) (js "repairStops") members
  pure ⟨outcome, attempts, repairStops⟩

def acceptanceDecision : Codec AcceptanceDecision :=
  record acceptanceDecisionKeys acceptanceDecisionShape decodeAcceptanceDecision (fun _ => rfl) (by
    intro decision members agree
    have distinct : (acceptanceDecisionShape decision).keys.Nodup := (by decide : acceptanceDecisionKeys.Nodup)
    simp only [decodeAcceptanceDecision, field_at acceptanceOutcome agree distinct 0 rfl,
      field_at (list attempt) agree distinct 1 rfl, field_at (list repairStop) agree distinct 2
      rfl, Option.bind_eq_bind, Option.bind_some]
    rfl)

def repairResolutionKeys : List JsString :=
  [js "criterionId", js "classification", js "resolutionRef", js "resolutionDigest", js
    "nextRunId", js "restartTicketRef", js "restartTicketDigest"]

def repairResolutionShape (resolution : RepairResolution) : Shape where
  required :=
    [(js "criterionId", text.encode resolution.criterionId),
      (js "classification", classification.encode resolution.classification),
      (js "resolutionRef", text.encode resolution.resolutionRef),
      (js "resolutionDigest", text.encode resolution.resolutionDigest),
      (js "nextRunId", nullableText.encode resolution.nextRunId),
      (js "restartTicketRef", nullableText.encode resolution.restartTicketRef),
      (js "restartTicketDigest", nullableText.encode resolution.restartTicketDigest)]
  optional := []

def decodeRepairResolution (members : Members) : Option RepairResolution := do
  let criterionId ← field text (js "criterionId") members
  let kind ← field classification (js "classification") members
  let resolutionRef ← field text (js "resolutionRef") members
  let resolutionDigest ← field text (js "resolutionDigest") members
  let nextRunId ← field nullableText (js "nextRunId") members
  let restartTicketRef ← field nullableText (js "restartTicketRef") members
  let restartTicketDigest ← field nullableText (js "restartTicketDigest") members
  pure ⟨criterionId, kind, resolutionRef, resolutionDigest, nextRunId, restartTicketRef,
    restartTicketDigest⟩

def repairResolution : Codec RepairResolution :=
  record repairResolutionKeys repairResolutionShape decodeRepairResolution (fun _ => rfl) (by
    intro resolution members agree
    have distinct : (repairResolutionShape resolution).keys.Nodup := (by decide : repairResolutionKeys.Nodup)
    simp only [decodeRepairResolution, field_at text agree distinct 0 rfl, field_at
      classification agree distinct 1 rfl, field_at text agree distinct 2 rfl, field_at text
      agree distinct 3 rfl, field_at nullableText agree distinct 4 rfl, field_at nullableText
      agree distinct 5 rfl, field_at nullableText agree distinct 6 rfl, Option.bind_eq_bind,
      Option.bind_some]
    rfl)

def startedFromSpecKeys : List JsString :=
  [js "sourceRunId", js "restartTicketRef", js "restartTicketDigest", js "retiredCriterionIds"]

def startedFromSpecShape (restart : StartedFromSpec) : Shape where
  required :=
    [(js "sourceRunId", text.encode restart.sourceRunId),
      (js "restartTicketRef", text.encode restart.restartTicketRef),
      (js "restartTicketDigest", text.encode restart.restartTicketDigest),
      (js "retiredCriterionIds", (list text).encode restart.retiredCriterionIds)]
  optional := []

def decodeStartedFromSpec (members : Members) : Option StartedFromSpec := do
  let sourceRunId ← field text (js "sourceRunId") members
  let restartTicketRef ← field text (js "restartTicketRef") members
  let restartTicketDigest ← field text (js "restartTicketDigest") members
  let retiredCriterionIds ← field (list text) (js "retiredCriterionIds") members
  pure ⟨sourceRunId, restartTicketRef, restartTicketDigest, retiredCriterionIds⟩

def startedFromSpec : Codec StartedFromSpec :=
  record startedFromSpecKeys startedFromSpecShape decodeStartedFromSpec (fun _ => rfl) (by
    intro restart members agree
    have distinct : (startedFromSpecShape restart).keys.Nodup := (by decide : startedFromSpecKeys.Nodup)
    simp only [decodeStartedFromSpec, field_at text agree distinct 0 rfl, field_at text agree
      distinct 1 rfl, field_at text agree distinct 2 rfl, field_at (list text) agree distinct 3
      rfl, Option.bind_eq_bind, Option.bind_some]
    rfl)

def observedIdentityKeys : List JsString := [js "host", js "model", js "effort"]

def observedIdentityShape (identity : ObservedIdentity) : Shape where
  required :=
    [(js "host", text.encode identity.host), (js "model", nullableText.encode identity.model)]
  optional := [(js "effort", identity.effort.map nullableText.encode)]

def decodeObservedIdentity (members : Members) : Option ObservedIdentity := do
  let host ← field text (js "host") members
  let model ← field nullableText (js "model") members
  let effort ← optionalField nullableText (js "effort") members
  pure ⟨host, model, effort⟩

def observedIdentity : Codec ObservedIdentity :=
  record observedIdentityKeys observedIdentityShape decodeObservedIdentity (fun _ => rfl) (by
    intro identity members agree
    have distinct : (observedIdentityShape identity).keys.Nodup :=
      (by decide : observedIdentityKeys.Nodup)
    simp only [decodeObservedIdentity, field_at text agree distinct 0 rfl,
      field_at nullableText agree distinct 1 rfl,
      optionalField_at nullableText agree distinct 0 rfl, Option.bind_eq_bind, Option.bind_some]
    rfl)

def draftMembers (draft : EventDraft) : Members :=
  [(js "contractVersion", contractVersion.encode draft.contractVersion),
    (js "stateContract", contractVersion.encode draft.stateContract),
    (js "eventId", text.encode draft.eventId),
    (js "eventType", eventType.encode draft.eventType),
    (js "occurredAt", text.encode draft.occurredAt),
    (js "operation", text.encode draft.operation),
    (js "policyVersion", text.encode draft.policyVersion),
    (js "priorRevision", natural.encode draft.priorRevision),
    (js "resultingRevision", natural.encode draft.resultingRevision),
    (js "reasonCode", text.encode draft.reasonCode),
    (js "effect", eventEffect.encode draft.effect),
    (js "artifactRefs", (list text).encode draft.artifactRefs),
    (js "evidenceRefs", (list text).encode draft.evidenceRefs),
    (js "observedIdentity", observedIdentity.encode draft.observedIdentity)]

def draftOptions (draft : EventDraft) : List (JsString × Option Json) :=
  [(js "gateFailures", draft.gateFailures.map (list gateFailure).encode),
    (js "resolvedAssignment", draft.resolvedAssignment.map resolvedAssignment.encode),
    (js "runLimits", draft.runLimits.map runLimits.encode),
    (js "acceptanceDecision", draft.acceptanceDecision.map acceptanceDecision.encode),
    (js "repairResolution", draft.repairResolution.map repairResolution.encode),
    (js "startedFromSpec", draft.startedFromSpec.map startedFromSpec.encode)]

def sealedEventKeys : List JsString :=
  [js "contractVersion", js "stateContract", js "eventId", js "eventType", js "occurredAt", js
    "operation", js "policyVersion", js "priorRevision", js "resultingRevision", js "reasonCode",
    js "effect", js "artifactRefs", js "evidenceRefs", js "observedIdentity", js "previousHash",
    js "eventHash", js "gateFailures", js "resolvedAssignment", js "runLimits", js
    "acceptanceDecision", js "repairResolution", js "startedFromSpec"]

def sealedEventShape (event : SealedEvent) : Shape where
  required := draftMembers event.draft ++
    [(js "previousHash", nullableText.encode event.previousHash),
      (js "eventHash", text.encode event.eventHash)]
  optional := draftOptions event.draft

def decodeSealedEvent (members : Members) : Option SealedEvent := do
  let version ← field contractVersion (js "contractVersion") members
  let stateContract ← field contractVersion (js "stateContract") members
  let eventId ← field text (js "eventId") members
  let kind ← field eventType (js "eventType") members
  let occurredAt ← field text (js "occurredAt") members
  let operation ← field text (js "operation") members
  let policyVersion ← field text (js "policyVersion") members
  let priorRevision ← field natural (js "priorRevision") members
  let resultingRevision ← field natural (js "resultingRevision") members
  let reasonCode ← field text (js "reasonCode") members
  let effect ← field eventEffect (js "effect") members
  let artifactRefs ← field (list text) (js "artifactRefs") members
  let evidenceRefs ← field (list text) (js "evidenceRefs") members
  let identity ← field observedIdentity (js "observedIdentity") members
  let previousHash ← field nullableText (js "previousHash") members
  let eventHash ← field text (js "eventHash") members
  let failures ← optionalField (list gateFailure) (js "gateFailures") members
  let assignment ← optionalField resolvedAssignment (js "resolvedAssignment") members
  let limits ← optionalField runLimits (js "runLimits") members
  let decision ← optionalField acceptanceDecision (js "acceptanceDecision") members
  let resolution ← optionalField repairResolution (js "repairResolution") members
  let restart ← optionalField startedFromSpec (js "startedFromSpec") members
  if positive : 0 < resultingRevision then
    pure
      { draft :=
          { contractVersion := version, stateContract, eventId, eventType := kind, occurredAt
            operation, policyVersion, priorRevision, resultingRevision, reasonCode, effect
            artifactRefs, evidenceRefs, observedIdentity := identity, gateFailures := failures
            resolvedAssignment := assignment, runLimits := limits, acceptanceDecision := decision
            repairResolution := resolution, startedFromSpec := restart
            resulting_pos := positive }
        previousHash, eventHash }
  else none

theorem decodeSealedEvent_agrees (event : SealedEvent) (members : Members)
    (agree : Agrees members (sealedEventShape event).members) :
    decodeSealedEvent members = some event := by
  have distinct : (sealedEventShape event).keys.Nodup := (by decide : sealedEventKeys.Nodup)
  simp only [decodeSealedEvent, field_at contractVersion agree distinct 0 rfl, field_at
    contractVersion agree distinct 1 rfl, field_at text agree distinct 2 rfl, field_at
    eventType agree distinct 3 rfl, field_at text agree distinct 4 rfl, field_at text agree
    distinct 5 rfl, field_at text agree distinct 6 rfl, field_at natural agree distinct 7 rfl,
    field_at natural agree distinct 8 rfl, field_at text agree distinct 9 rfl, field_at
    eventEffect agree distinct 10 rfl, field_at (list text) agree distinct 11 rfl, field_at
    (list text) agree distinct 12 rfl, field_at observedIdentity agree distinct 13 rfl,
    field_at nullableText agree distinct 14 rfl, field_at text agree distinct 15 rfl,
    optionalField_at (list gateFailure) agree distinct 0 rfl, optionalField_at
    resolvedAssignment agree distinct 1 rfl, optionalField_at runLimits agree distinct 2 rfl,
    optionalField_at acceptanceDecision agree distinct 3 rfl, optionalField_at repairResolution
    agree distinct 4 rfl, optionalField_at startedFromSpec agree distinct 5 rfl,
    Option.bind_eq_bind, Option.bind_some, event.draft.resulting_pos, dif_pos]
  rfl

def sealedEvent : Codec SealedEvent :=
  record sealedEventKeys sealedEventShape decodeSealedEvent (fun _ => rfl)
    decodeSealedEvent_agrees

/-- `unsignedEvent`: what the hash of an event covers. -/
def unsignedEvent (draft : EventDraft) (previousHash : Option JsString) : Json :=
  .object (draftMembers draft ++ [(js "previousHash", nullableText.encode previousHash)] ++
    optionalMembers (draftOptions draft))

end Records

section Schemas

def safeNatural (value : Nat) : Bool := decide (value ≤ maxSafeInteger)

def positiveInteger (value : Nat) : Bool := decide (1 ≤ value) && safeNatural value

def nullableBy (valid : JsString → Bool) (value : Option JsString) : Bool :=
  (value.map valid).getD true

/-- An array of distinct references, bounded from contract 1.2.0 on. -/
def references (bound : Option Nat) (refs : List JsString) : Bool :=
  refs.all referencePattern && decide refs.Nodup &&
    (bound.map fun most => decide (refs.length ≤ most)).getD true

def safeDetail (detail : JsString) : Bool :=
  decide ((codePoints detail).length ≤ 4096) && !hasControlCharacters detail

def validGateFailure (failure : GateFailure) : Bool :=
  safeNatural failure.priority && references (some 16) failure.evidenceRefs &&
    nullableBy safeDetail failure.detail

def validIdentity (identity : ObservedIdentity) : Bool :=
  idPattern identity.host && nullableBy idPattern identity.model &&
    (identity.effort.map (nullableBy idPattern)).getD true

def validAssignment (assignment : ResolvedAssignment) : Bool :=
  idPattern assignment.model && idPattern assignment.effort

def validRunLimits (limits : RunLimits) : Bool :=
  positiveInteger limits.acceptanceAttemptCeiling &&
    (limits.tokenCeiling.map positiveInteger).getD true

def validAttempt (attempt : AcceptanceAttempt) : Bool :=
  isAcceptanceCriterionId attempt.criterionId && positiveInteger attempt.attempt

def validRepairStop (stop : RepairStop) : Bool :=
  isAcceptanceCriterionId stop.criterionId && positiveInteger stop.attempt &&
    referencePattern stop.artifactRef && sha256Pattern stop.artifactDigest

def validDecision (decision : AcceptanceDecision) : Bool :=
  decision.attempts.all validAttempt && decide decision.attempts.Nodup &&
    decide (decision.attempts.length ≤ 256) &&
    decision.repairStops.all validRepairStop && decide decision.repairStops.Nodup &&
    decide (decision.repairStops.length ≤ 256) &&
    (if decision.outcome = .stopped then !decision.repairStops.isEmpty
      else decision.repairStops.isEmpty)

def validResolution (resolution : RepairResolution) : Bool :=
  isAcceptanceCriterionId resolution.criterionId && referencePattern resolution.resolutionRef &&
    sha256Pattern resolution.resolutionDigest && nullableBy idPattern resolution.nextRunId &&
    nullableBy referencePattern resolution.restartTicketRef &&
    nullableBy sha256Pattern resolution.restartTicketDigest

def validStartedFromSpec (restart : StartedFromSpec) : Bool :=
  idPattern restart.sourceRunId && referencePattern restart.restartTicketRef &&
    sha256Pattern restart.restartTicketDigest && !restart.retiredCriterionIds.isEmpty &&
    decide (restart.retiredCriterionIds.length ≤ 256) &&
    decide restart.retiredCriterionIds.Nodup &&
    restart.retiredCriterionIds.all isAcceptanceCriterionId

/-- The contract versions whose members a draft can have. -/
def isDraftContract : ContractVersion → Bool
  | .v1_0 | .v1_1 => false
  | .v1_2 | .v1_3 | .v1_4 => true

/-- Which members a contract version requires, admits or lacks. -/
def validPresence (draft : EventDraft) : Bool :=
  match draft.stateContract with
  | .v1_0 =>
      draft.observedIdentity.effort.isNone && draft.gateFailures.isNone &&
        draft.resolvedAssignment.isNone && draft.runLimits.isNone &&
        draft.acceptanceDecision.isNone && draft.repairResolution.isNone &&
        draft.startedFromSpec.isNone
  | .v1_1 =>
      draft.observedIdentity.effort.isSome && draft.gateFailures.isNone &&
        draft.runLimits.isNone && draft.acceptanceDecision.isNone &&
        draft.repairResolution.isNone && draft.startedFromSpec.isNone
  | .v1_2 =>
      draft.observedIdentity.effort.isSome && draft.gateFailures.isSome &&
        draft.repairResolution.isNone && draft.startedFromSpec.isNone
  | .v1_3 | .v1_4 => draft.observedIdentity.effort.isSome && draft.gateFailures.isSome

def referenceBound (version : ContractVersion) : Option Nat :=
  if isDraftContract version then some 256 else none

/-- The schema of the draft's own contract version, chain members apart. -/
def validDraft (draft : EventDraft) : Bool :=
  draft.contractVersion == draft.stateContract && idPattern draft.eventId &&
    timestampPattern draft.occurredAt && idPattern draft.operation &&
    idPattern draft.policyVersion && safeNatural draft.priorRevision &&
    positiveInteger draft.resultingRevision && reasonCodePattern draft.reasonCode &&
    references (referenceBound draft.stateContract) draft.artifactRefs &&
    references (referenceBound draft.stateContract) draft.evidenceRefs &&
    validIdentity draft.observedIdentity && validPresence draft &&
    (draft.gateFailures.map fun failures =>
      decide (failures.length ≤ 8) && failures.all validGateFailure).getD true &&
    (draft.resolvedAssignment.map validAssignment).getD true &&
    (draft.runLimits.map validRunLimits).getD true &&
    (draft.acceptanceDecision.map validDecision).getD true &&
    (draft.repairResolution.map validResolution).getD true &&
    (draft.startedFromSpec.map validStartedFromSpec).getD true

/-- `schemaRegistry.validate` of a sealed event. -/
def validSealedEvent (event : SealedEvent) : Bool :=
  validDraft event.draft && nullableBy sha256Pattern event.previousHash &&
    sha256Pattern event.eventHash

end Schemas

section Forms

private theorem safe_of_positive {value : Nat} (positive : positiveInteger value = true) :
    value ≤ maxSafeInteger := by
  simp only [positiveInteger, safeNatural, Bool.and_eq_true, decide_eq_true_eq] at positive
  exact positive.2

theorem wellFormed_nullableText (value : Option JsString) :
    WellFormed (nullableText.encode value) :=
  wellFormed_nullable fun word _ => wellFormed_text word

theorem wellFormed_texts (values : List JsString) : WellFormed ((list text).encode values) :=
  wellFormed_list fun word _ => wellFormed_text word

theorem wellFormed_gateFailure {failure : GateFailure} (valid : validGateFailure failure = true) :
    WellFormed (gateFailure.encode failure) := by
  simp only [validGateFailure, safeNatural, Bool.and_eq_true, decide_eq_true_eq] at valid
  refine wellFormed_shape (by decide : gateFailureKeys.Nodup) ?_ (by nofun)
  simp only [gateFailureShape, List.forall_mem_cons]
  exact ⟨wellFormed_enumeration _, wellFormed_enumeration _, wellFormed_enumeration _,
    wellFormed_natural valid.1.1, wellFormed_texts _, wellFormed_nullableText _, by nofun⟩

theorem wellFormed_assignment (assignment : ResolvedAssignment) :
    WellFormed (resolvedAssignment.encode assignment) := by
  refine wellFormed_shape (by decide : resolvedAssignmentKeys.Nodup) ?_ (by nofun)
  simp only [resolvedAssignmentShape, List.forall_mem_cons]
  exact ⟨wellFormed_enumeration _, wellFormed_enumeration _, wellFormed_text _,
    wellFormed_text _, by nofun⟩

theorem wellFormed_runLimits {limits : RunLimits} (valid : validRunLimits limits = true) :
    WellFormed (runLimits.encode limits) := by
  simp only [validRunLimits, Bool.and_eq_true] at valid
  refine wellFormed_shape (by decide : runLimitsKeys.Nodup) ?_ (by nofun)
  simp only [runLimitsShape, List.forall_mem_cons]
  refine ⟨wellFormed_natural (safe_of_positive valid.1), wellFormed_nullable ?_, by nofun⟩
  intro ceiling held
  have positive := valid.2
  rw [Option.mem_def.mp held] at positive
  exact wellFormed_natural (safe_of_positive positive)

theorem wellFormed_attempt {entry : AcceptanceAttempt} (valid : validAttempt entry = true) :
    WellFormed (attempt.encode entry) := by
  simp only [validAttempt, Bool.and_eq_true] at valid
  refine wellFormed_shape (by decide : attemptKeys.Nodup) ?_ (by nofun)
  simp only [attemptShape, List.forall_mem_cons]
  exact ⟨wellFormed_text _, wellFormed_natural (safe_of_positive valid.2), by nofun⟩

theorem wellFormed_repairStop {stop : RepairStop} (valid : validRepairStop stop = true) :
    WellFormed (repairStop.encode stop) := by
  simp only [validRepairStop, Bool.and_eq_true] at valid
  refine wellFormed_shape (by decide : repairStopKeys.Nodup) ?_ (by nofun)
  simp only [repairStopShape, List.forall_mem_cons]
  exact ⟨wellFormed_text _, wellFormed_natural (safe_of_positive valid.1.1.2),
    wellFormed_enumeration _, wellFormed_text _, wellFormed_text _, by nofun⟩

theorem wellFormed_decision {decision : AcceptanceDecision}
    (valid : validDecision decision = true) : WellFormed (acceptanceDecision.encode decision) := by
  simp only [validDecision, Bool.and_eq_true, List.all_eq_true] at valid
  obtain ⟨⟨⟨⟨⟨⟨attempts, -⟩, -⟩, stops⟩, -⟩, -⟩, -⟩ := valid
  refine wellFormed_shape (by decide : acceptanceDecisionKeys.Nodup) ?_ (by nofun)
  simp only [acceptanceDecisionShape, List.forall_mem_cons]
  exact ⟨wellFormed_enumeration _,
    wellFormed_list fun entry member => wellFormed_attempt (attempts entry member),
    wellFormed_list fun stop member => wellFormed_repairStop (stops stop member), by nofun⟩

theorem wellFormed_resolution (resolution : RepairResolution) :
    WellFormed (repairResolution.encode resolution) := by
  refine wellFormed_shape (by decide : repairResolutionKeys.Nodup) ?_ (by nofun)
  simp only [repairResolutionShape, List.forall_mem_cons]
  exact ⟨wellFormed_text _, wellFormed_enumeration _, wellFormed_text _, wellFormed_text _,
    wellFormed_nullableText _, wellFormed_nullableText _, wellFormed_nullableText _, by nofun⟩

theorem wellFormed_startedFromSpec (restart : StartedFromSpec) :
    WellFormed (startedFromSpec.encode restart) := by
  refine wellFormed_shape (by decide : startedFromSpecKeys.Nodup) ?_ (by nofun)
  simp only [startedFromSpecShape, List.forall_mem_cons]
  exact ⟨wellFormed_text _, wellFormed_text _, wellFormed_text _, wellFormed_texts _, by nofun⟩

theorem wellFormed_identity (identity : ObservedIdentity) :
    WellFormed (observedIdentity.encode identity) := by
  refine wellFormed_shape (by decide : observedIdentityKeys.Nodup) ?_ ?_
  · simp only [observedIdentityShape, List.forall_mem_cons]
    exact ⟨wellFormed_text _, wellFormed_nullableText _, by nofun⟩
  · simp only [observedIdentityShape, List.forall_mem_cons]
    refine ⟨?_, by nofun⟩
    intro json held
    obtain ⟨effort, -, rfl⟩ := Option.map_eq_some_iff.mp (Option.mem_def.mp held)
    exact wellFormed_nullableText effort

private theorem wellFormed_option {α : Type} {codec : Codec α} {valid : α → Bool}
    {value : Option α} (formed : ∀ a, valid a = true → WellFormed (codec.encode a))
    (holds : (value.map valid).getD true = true) :
    ∀ json ∈ value.map codec.encode, WellFormed json := by
  intro json held
  obtain ⟨a, stored, rfl⟩ := Option.map_eq_some_iff.mp (Option.mem_def.mp held)
  rw [stored] at holds
  exact formed a holds

theorem wellFormed_draftMembers {draft : EventDraft} (valid : validDraft draft = true) :
    ∀ member ∈ draftMembers draft, WellFormed member.2 := by
  simp only [validDraft, Bool.and_eq_true] at valid
  obtain ⟨⟨⟨⟨⟨⟨⟨⟨⟨⟨⟨⟨⟨-, prior⟩, resulting⟩, -⟩, -⟩, -⟩, -⟩, -⟩, -⟩, -⟩, -⟩, -⟩, -⟩, -⟩ := valid
  simp only [safeNatural, decide_eq_true_eq] at prior
  simp only [draftMembers, List.forall_mem_cons]
  exact ⟨wellFormed_enumeration _, wellFormed_enumeration _, wellFormed_text _,
    wellFormed_enumeration _, wellFormed_text _, wellFormed_text _, wellFormed_text _,
    wellFormed_natural prior, wellFormed_natural (safe_of_positive resulting),
    wellFormed_text _, wellFormed_enumeration _, wellFormed_texts _, wellFormed_texts _,
    wellFormed_identity _, by nofun⟩

theorem wellFormed_draftOptions {draft : EventDraft} (valid : validDraft draft = true) :
    ∀ entry ∈ draftOptions draft, ∀ json ∈ entry.2, WellFormed json := by
  simp only [validDraft, Bool.and_eq_true] at valid
  obtain ⟨⟨⟨⟨⟨⟨-, failures⟩, assignment⟩, limits⟩, decision⟩, resolution⟩, restart⟩ := valid
  have gates : ∀ entries : List GateFailure,
      (decide (entries.length ≤ 8) && entries.all validGateFailure) = true →
        WellFormed ((list gateFailure).encode entries) := by
    intro entries held
    simp only [Bool.and_eq_true, List.all_eq_true] at held
    exact wellFormed_list fun failure member => wellFormed_gateFailure (held.2 failure member)
  simp only [draftOptions, List.forall_mem_cons]
  exact ⟨wellFormed_option gates failures,
    wellFormed_option (fun entry _ => wellFormed_assignment entry) assignment,
    wellFormed_option (fun _ => wellFormed_runLimits) limits,
    wellFormed_option (fun _ => wellFormed_decision) decision,
    wellFormed_option (fun entry _ => wellFormed_resolution entry) resolution,
    wellFormed_option (fun entry _ => wellFormed_startedFromSpec entry) restart, by nofun⟩

theorem wellFormed_sealedEvent {event : SealedEvent} (valid : validSealedEvent event = true) :
    WellFormed (sealedEvent.encode event) := by
  simp only [validSealedEvent, Bool.and_eq_true] at valid
  refine wellFormed_shape (by decide : sealedEventKeys.Nodup) ?_
    (wellFormed_draftOptions valid.1.1)
  intro member listed
  rcases List.mem_append.mp listed with drafted | chained
  · exact wellFormed_draftMembers valid.1.1 member drafted
  · rcases List.mem_cons.mp chained with rfl | last
    · exact wellFormed_nullableText event.previousHash
    · obtain rfl := List.mem_singleton.mp last
      exact wellFormed_text event.eventHash

def unsignedShape (draft : EventDraft) (previousHash : Option JsString) : Shape where
  required := draftMembers draft ++ [(js "previousHash", nullableText.encode previousHash)]
  optional := draftOptions draft

theorem unsignedEvent_shape (draft : EventDraft) (previousHash : Option JsString) :
    unsignedEvent draft previousHash = .object (unsignedShape draft previousHash).members := rfl

theorem wellFormed_unsignedEvent {draft : EventDraft} (valid : validDraft draft = true)
    (previousHash : Option JsString) : WellFormed (unsignedEvent draft previousHash) := by
  rw [unsignedEvent_shape]
  have keys : (unsignedShape draft previousHash).keys = sealedEventKeys.erase (js "eventHash") :=
    rfl
  refine wellFormed_shape (keys ▸ by decide) ?_ (wellFormed_draftOptions valid)
  intro member listed
  rcases List.mem_append.mp listed with drafted | chained
  · exact wellFormed_draftMembers valid member drafted
  · obtain rfl := List.mem_singleton.mp chained
    exact wellFormed_nullableText previousHash

private theorem sealed_perm (event : SealedEvent) :
    (sealedEventShape event).members.Perm
      ((js "eventHash", text.encode event.eventHash) ::
        (unsignedShape event.draft event.previousHash).members) := by
  have order : (sealedEventShape event).members =
      (unsignedShape event.draft event.previousHash).required ++
        (js "eventHash", text.encode event.eventHash) ::
          optionalMembers (draftOptions event.draft) := by
    simp [sealedEventShape, unsignedShape, Shape.members]
  rw [order]
  exact List.perm_middle

theorem unsignedEvent_injective {left right : EventDraft} (leftValid : validDraft left = true)
    (rightValid : validDraft right = true) {leftPrevious rightPrevious : Option JsString}
    (same : canonicalizeJson (unsignedEvent left leftPrevious) =
      canonicalizeJson (unsignedEvent right rightPrevious)) :
    left = right ∧ leftPrevious = rightPrevious := by
  have forms : SameValue (unsignedEvent left leftPrevious) (unsignedEvent right rightPrevious) :=
    canonicalForm_of_canonicalizeJson (wellFormed_unsignedEvent leftValid leftPrevious)
      (wellFormed_unsignedEvent rightValid rightPrevious) same
  obtain ⟨members, shape, agree⟩ := sameValue_object forms
  obtain rfl := Json.object.inj shape
  have leftPerm := (sealed_perm ⟨left, leftPrevious, []⟩).map
    fun member => (member.1, canonicalForm member.2)
  have rightPerm := (sealed_perm ⟨right, rightPrevious, []⟩).map
    fun member => (member.1, canonicalForm member.2)
  have whole : Agrees (sealedEventShape ⟨left, leftPrevious, []⟩).members
      (sealedEventShape ⟨right, rightPrevious, []⟩).members := by
    unfold Agrees at agree ⊢
    rw [canonicalMembers_map, canonicalMembers_map] at agree ⊢
    exact leftPerm.trans ((agree.cons _).trans rightPerm.symm)
  have own := decodeSealedEvent_agrees ⟨left, leftPrevious, []⟩ _ (List.Perm.refl _)
  rw [decodeSealedEvent_agrees _ _ whole] at own
  have events := Option.some.inj own
  injection events with drafts previous
  exact ⟨drafts.symm, previous.symm⟩

end Forms

end Kratos.Events
