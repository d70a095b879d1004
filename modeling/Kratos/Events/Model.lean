/- source: domain/events/model.ts, schemas/state/event.v1.schema.json to event.v1.4.schema.json
   digest: Events of every readable contract version, before sealing. -/

import Kratos.Gates.Policy
import Kratos.Vocabulary

set_option autoImplicit false

namespace Kratos.Events

open Foundation.Text
open Gates (GateFailure)

/-- Who acted. Contract 1.0.0 has no effort member; later ones require a nullable one. -/
structure ObservedIdentity where
  host : JsString
  model : Option JsString
  effort : Option (Option JsString)
  deriving DecidableEq, Repr

structure ResolvedAssignment where
  phase : RunPhase
  role : ModelRole
  model : JsString
  effort : JsString
  deriving DecidableEq, Repr

structure RunLimits where
  acceptanceAttemptCeiling : Nat
  tokenCeiling : Option Nat
  deriving DecidableEq, Repr

/-- `WorkflowAcceptanceAttempt`. -/
structure AcceptanceAttempt where
  criterionId : JsString
  attempt : Nat
  deriving DecidableEq, Repr

/-- `WorkflowRepairStop`. -/
structure RepairStop where
  criterionId : JsString
  attempt : Nat
  classification : Classification
  artifactRef : JsString
  artifactDigest : JsString
  deriving DecidableEq, Repr

structure AcceptanceDecision where
  outcome : AcceptanceOutcome
  attempts : List AcceptanceAttempt
  repairStops : List RepairStop
  deriving DecidableEq, Repr

structure RepairResolution where
  criterionId : JsString
  classification : Classification
  resolutionRef : JsString
  resolutionDigest : JsString
  nextRunId : Option JsString
  restartTicketRef : Option JsString
  restartTicketDigest : Option JsString
  deriving DecidableEq, Repr

structure StartedFromSpec where
  sourceRunId : JsString
  restartTicketRef : JsString
  restartTicketDigest : JsString
  retiredCriterionIds : List JsString
  deriving DecidableEq, Repr

/-- An event without its chain members. The contract makes every resulting revision positive;
members a contract version lacks are absent. -/
structure EventDraft where
  contractVersion : ContractVersion
  stateContract : ContractVersion
  eventId : JsString
  eventType : EventType
  occurredAt : JsString
  operation : JsString
  policyVersion : JsString
  priorRevision : Nat
  resultingRevision : Nat
  reasonCode : JsString
  effect : EventEffect
  artifactRefs : List JsString
  evidenceRefs : List JsString
  observedIdentity : ObservedIdentity
  gateFailures : Option (List GateFailure) := none
  resolvedAssignment : Option ResolvedAssignment := none
  runLimits : Option RunLimits := none
  acceptanceDecision : Option AcceptanceDecision := none
  repairResolution : Option RepairResolution := none
  startedFromSpec : Option StartedFromSpec := none
  resulting_pos : 0 < resultingRevision
  deriving DecidableEq, Repr

/-- The position of a stream: how many events it holds and the hash of the last one. -/
structure EventChainCursor where
  revision : Nat
  hash : Option JsString
  deriving DecidableEq, Repr

inductive EventIntegrityKind
  | invalidEvent | invalidSequence | nonCanonical | resourceLimit | unsupportedPolicy
  deriving DecidableEq, Repr

end Kratos.Events
