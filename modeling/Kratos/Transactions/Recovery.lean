/- source: domain/transactions/recovery.ts, domain/transactions/model.ts
   digest: What is done about an interrupted transaction, from what is observed of it. -/

import Kratos.Locks.Guard

set_option autoImplicit false

namespace Kratos.Transactions

open Foundation.Text Foundation.Collections Durable
open Locks.Guard (PersistedOperation)

/-- The phases of `TransactionProgressV1`. -/
inductive TransactionPhase
  | begun | prepared | publishing | committed | aborted
  deriving DecidableEq, Repr

inductive Terminal
  | committed | aborted
  deriving DecidableEq, Repr

inductive RecoveryDecision
  | abort
  | recordPublished (operationId : JsString)
  | publish (operationId : JsString)
  | commit
  | cleanup (terminal : Terminal)
  | complete (terminal : Terminal)
  | blocked (reasonCode : JsString) (operationId : Option JsString)
  deriving DecidableEq, Repr

/-- What recovery reads of `TransactionManifestV1`. -/
structure TransactionManifest where
  transactionId : JsString
  createdAt : JsString
  operations : List PersistedOperation
  deriving DecidableEq, Repr

/-- What recovery reads of `TransactionProgressV1`. -/
structure TransactionProgress where
  transactionId : JsString
  manifestDigest : Option JsString
  recoveryToken : JsString
  phase : TransactionPhase
  publishedOperationIds : List JsString
  createdAt : JsString
  deriving DecidableEq, Repr

structure TransactionObservation where
  destinations : Observations
  stagedPayloads : Observations
  deriving DecidableEq, Repr

section Checks

def sameFingerprint : PathFingerprint → PathFingerprint → Bool
  | .missing, .missing => true
  | .directory, .directory => true
  | .file size sha256, .file otherSize otherSha256 => size == otherSize && sha256 == otherSha256
  | _, _ => false

def blocked (operationId : Option JsString) : RecoveryDecision :=
  .blocked (js "runtime.state_corrupt") operationId

def hasValidIdentity (manifest : TransactionManifest) (progress : TransactionProgress) : Bool :=
  if manifest.transactionId ≠ progress.transactionId ∨ manifest.createdAt ≠ progress.createdAt then false
  else
    match progress.phase with
    | .begun => true
    | .aborted =>
        progress.manifestDigest.isNone || some progress.recoveryToken == progress.manifestDigest
    | .prepared | .publishing | .committed => some progress.recoveryToken == progress.manifestDigest

/-- `undefined`, `null` or the operation that is at fault. -/
def findManifestFailure (operationIds paths stagedPaths : List JsString) :
    List PersistedOperation → Option (Option JsString)
  | [] => none
  | operation :: rest =>
      if operationIds.contains operation.operationId || paths.contains operation.path ||
          operation.stagedPath.any stagedPaths.contains then some none
      else if sameFingerprint operation.expected operation.result then some (some operation.operationId)
      else
        findManifestFailure (operationIds ++ [operation.operationId]) (paths ++ [operation.path])
          (stagedPaths ++ operation.stagedPath.toList) rest

def hasValidPublishedPrefix (progress : TransactionProgress) (operationIds : List JsString) : Bool :=
  let published := progress.publishedOperationIds
  if published.eraseDups.length ≠ published.length then false
  else if published.zipIdx.any fun (operationId, index) => operationIds[index]? != some operationId then
    false
  else
    match progress.phase with
    | .begun | .prepared | .aborted => decide (published.length = 0)
    | .committed => decide (published.length = operationIds.length)
    | .publishing => decide (published.length ≤ operationIds.length)

def hasUnexpectedStagedContent (manifest : TransactionManifest) (observation : TransactionObservation) :
    Bool :=
  let knownPaths := manifest.operations.filterMap PersistedOperation.stagedPath
  observation.stagedPayloads.any fun (path, _) =>
    !knownPaths.contains path && lookup observation.stagedPayloads path != .missing

/-- The first operation whose destination does not hold what it should. -/
def findOtherDestination (wanted : PersistedOperation → PathFingerprint) (manifest : TransactionManifest)
    (observation : TransactionObservation) : Option JsString :=
  (manifest.operations.find? fun operation =>
    match mapGet observation.destinations operation.path with
    | none => true
    | some destination => !sameFingerprint destination (wanted operation)).map
      PersistedOperation.operationId

def findUnexpectedPrepublicationDestination := findOtherDestination PersistedOperation.expected

def findNonResultDestination := findOtherDestination PersistedOperation.result

def findUnpublishablePayload (manifest : TransactionManifest) (observation : TransactionObservation) :
    Option JsString :=
  (manifest.operations.find? fun operation =>
    match operation.stagedPath with
    | none => false
    | some stagedPath =>
        match mapGet observation.stagedPayloads stagedPath with
        | none => true
        | some payload => !sameFingerprint payload operation.result).map PersistedOperation.operationId

def findPublishingPayloadFailure (manifest : TransactionManifest) (observation : TransactionObservation)
    (observedResultCount : Nat) : Option JsString :=
  (manifest.operations.zipIdx.find? fun (operation, index) =>
    match operation.stagedPath with
    | none => false
    | some stagedPath =>
        let payload := lookup observation.stagedPayloads stagedPath
        if index < observedResultCount then payload != .missing
        else !sameFingerprint payload operation.result).map fun entry => entry.1.operationId

/-- The operation that blocks, or whether some payload is left. -/
def inspectPayloads (observation : TransactionObservation) (hasPayload : Bool) :
    List PersistedOperation → Except JsString Bool
  | [] => .ok hasPayload
  | operation :: rest =>
      match operation.stagedPath with
      | none => inspectPayloads observation hasPayload rest
      | some stagedPath =>
          let payload := lookup observation.stagedPayloads stagedPath
          if payload = .missing then inspectPayloads observation hasPayload rest
          else if !sameFingerprint payload operation.result then .error operation.operationId
          else inspectPayloads observation true rest

end Checks

section Decision

/-- How many operations are at their result, or the one that is out of line. -/
def countResults (destinations : Observations) (observedResultCount : Nat) (foundPrecondition : Bool) :
    List PersistedOperation → Except JsString Nat
  | [] => .ok observedResultCount
  | operation :: rest =>
      match mapGet destinations operation.path with
      | none => .error operation.operationId
      | some destination =>
          if sameFingerprint destination operation.result then
            if foundPrecondition then .error operation.operationId
            else countResults destinations (observedResultCount + 1) foundPrecondition rest
          else if sameFingerprint destination operation.expected then
            countResults destinations observedResultCount true rest
          else .error operation.operationId

def decidePublishing (manifest : TransactionManifest) (progress : TransactionProgress)
    (observation : TransactionObservation) : RecoveryDecision :=
  match countResults observation.destinations 0 false manifest.operations with
  | .error operationId => blocked (some operationId)
  | .ok observedResultCount =>
      match (progress.publishedOperationIds.drop observedResultCount).head? with
      | some operationId => blocked (some operationId)
      | none =>
          match findPublishingPayloadFailure manifest observation observedResultCount with
          | some payloadFailure => blocked (some payloadFailure)
          | none =>
              match ((manifest.operations.take observedResultCount).drop
                  progress.publishedOperationIds.length).head? with
              | some operation => .recordPublished operation.operationId
              | none =>
                  match manifest.operations[observedResultCount]? with
                  | none => .commit
                  | some next => .publish next.operationId

/-- A terminal phase: its leftovers are cleaned up, then it is complete. -/
def decideTerminal (terminal : Terminal) (manifest : TransactionManifest)
    (observation : TransactionObservation) : RecoveryDecision :=
  match inspectPayloads observation false manifest.operations with
  | .error operationId => blocked (some operationId)
  | .ok true => .cleanup terminal
  | .ok false => .complete terminal

/-- The decision on a manifest and a progress that agree. -/
def decidePhase (manifest : TransactionManifest) (progress : TransactionProgress)
    (observation : TransactionObservation) : RecoveryDecision :=
  match progress.phase with
  | .aborted => decideTerminal .aborted manifest observation
  | .begun =>
      match findUnexpectedPrepublicationDestination manifest observation with
      | some destinationFailure => blocked (some destinationFailure)
      | none =>
          match inspectPayloads observation false manifest.operations with
          | .error operationId => blocked (some operationId)
          | .ok _ => .abort
  | .prepared =>
      match findUnexpectedPrepublicationDestination manifest observation with
      | some destinationFailure => blocked (some destinationFailure)
      | none =>
          match findUnpublishablePayload manifest observation with
          | some payloadFailure => blocked (some payloadFailure)
          | none => .abort
  | .committed =>
      match findNonResultDestination manifest observation with
      | some destinationFailure => blocked (some destinationFailure)
      | none => decideTerminal .committed manifest observation
  | .publishing => decidePublishing manifest progress observation

def decideRecovery (manifest : TransactionManifest) (progress : TransactionProgress)
    (observation : TransactionObservation) : RecoveryDecision :=
  if !hasValidIdentity manifest progress then blocked none
  else
    match findManifestFailure [] [] [] manifest.operations with
    | some manifestFailure => blocked manifestFailure
    | none =>
        if !hasValidPublishedPrefix progress
            (manifest.operations.map PersistedOperation.operationId) then blocked none
        else if hasUnexpectedStagedContent manifest observation then blocked none
        else decidePhase manifest progress observation

end Decision

end Kratos.Transactions
