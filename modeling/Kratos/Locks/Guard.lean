/- source: composition/locks.ts, composition/transactions.ts
   digest: A renewal prepared as a guard, and the guarded transaction it is published in. -/

import Kratos.Locks.ClaimRecord
import Kratos.Locks.Lifecycle
import Kratos.Locks.Policy
import Kratos.Transactions.Plan

set_option autoImplicit false

namespace Kratos.Locks.Guard

open Foundation.Text Foundation.Calendar Foundation.Paths Patterns Durable Events
open Locks Transactions

section Preparation

/-- What the durable filesystem reports of a file. -/
structure StoredFile where
  size : Nat
  sha256 : JsString
  text : JsString
  sized : safeNatural size = true
  hashed : sha256Pattern sha256 = true

def StoredFile.fingerprint (file : StoredFile) : PathFingerprint := .file file.size file.sha256

/-- The trail and the lease of a scope, each there or missing. -/
structure ScopeFiles where
  events : Option StoredFile
  lease : Option StoredFile

inductive InspectionKind
  | empty | released | active | skew | takeoverEligible
  deriving DecidableEq, Repr

structure ClaimInspection where
  kind : InspectionKind
  lease : Option LockLease
  guard : Option LeaseGuard
  deriving DecidableEq, Repr

inductive GuardFailure
  | lock (failure : LockFailure)
  | policy (failure : LeasePolicyError)
  | integrity (failure : LeaseIntegrityError)
  deriving DecidableEq, Repr

def inspectionKind (action : LockLifecycleAction) (time : LeaseTimeState) : InspectionKind :=
  if action = .release then .released
  else
    match time with
    | .writable => .active
    | .skew => .skew
    | .takeoverEligible => .takeoverEligible

def leaseGuard (lease : LockLease) (leaseFile eventsFile : StoredFile) : LeaseGuard where
  resource := lease.resource
  owner := lease.owner
  leaseId := lease.leaseId
  fencingToken := lease.fencingToken
  stateRevision := lease.stateRevision
  leaseFingerprint := leaseFile.fingerprint
  eventsFingerprint := eventsFile.fingerprint

/-- `inspectLeaseHeld`, past the bound on its observations. -/
def inspectLeaseHeld (services : EventServices) (now : JsDate) (paths : LockPaths) :
    ScopeFiles → Except GuardFailure ClaimInspection
  | ⟨none, none⟩ => .ok ⟨.empty, none, none⟩
  | ⟨some _, none⟩ => .error (.lock (.recoveryRequired paths.lease))
  | ⟨none, some _⟩ => .error (.lock (.stateCorrupt paths.events))
  | ⟨some eventsFile, some leaseFile⟩ =>
      match verifyLeaseBinding services eventsFile.text leaseFile.text with
      | .error _ => .error (.lock (.stateCorrupt paths.lease))
      | .ok binding =>
          match classifyLeaseTime now (dateParse binding.lease.expiresAt) with
          | .error _ => .error (.lock (.stateCorrupt paths.lease))
          | .ok time =>
              .ok
                { kind := inspectionKind binding.action time
                  lease := some binding.lease
                  guard := some (leaseGuard binding.lease leaseFile eventsFile) }

/-- `currentBinding`: a lease that is not released is taken for an acquired one. -/
def inspectedBinding (inspection : ClaimInspection) : Except GuardFailure LeasePolicyBinding :=
  match inspection.lease with
  | none => .error (.lock (.stateCorrupt (js ".brain/locks")))
  | some lease => .ok ⟨if inspection.kind = .released then .release else .acquire, lease⟩

structure RenewLeaseRequest where
  observed : LeaseGuard
  ttlMs : Int
  resultingStateRevision : Int
  observedIdentity : LeaseActor
  deriving DecidableEq, Repr

def validateRenewRequest (request : RenewLeaseRequest) :
    Except GuardFailure RenewLeaseRequest :=
  if !validObservedGuard request.observed then .error (.policy .invalidInput)
  else
    match validateTtl request.ttlMs, validRevision request.resultingStateRevision with
    | .ok _, .ok _ => .ok request
    | _, _ => .error (.policy .invalidInput)

structure EventStorePrecondition where
  path : JsString
  expected : PathFingerprint
  deriving DecidableEq, Repr

structure LeaseGuardBinding where
  guard : LeaseGuard
  renewedLease : LockLease
  lifecycleEvent : SealedEvent
  leaseText : JsString
  eventsText : JsString
  expected : EventStorePrecondition × EventStorePrecondition

/-- A request for a guard, with what the clock and the identifiers give to it. -/
structure GuardCall where
  request : RenewLeaseRequest
  inspectedAt : JsDate
  decidedAt : JsDate
  eventId : JsString
  occurredAt : JsString
  deriving DecidableEq, Repr

def expectedIdentity (observed : LeaseGuard) : ExpectedLeaseIdentity where
  resource := observed.resource
  owner := observed.owner
  leaseId := observed.leaseId
  fencingToken := observed.fencingToken
  stateRevision := observed.stateRevision

def expectedLeaseFile (inspection : ClaimInspection) : PathFingerprint :=
  (inspection.guard.map LeaseGuard.leaseFingerprint).getD .missing

def expectedEventsFile (inspection : ClaimInspection) : PathFingerprint :=
  (inspection.guard.map LeaseGuard.eventsFingerprint).getD .missing

def fingerprintDigest : PathFingerprint → Option JsString
  | .file _ sha256 => some sha256
  | .missing | .directory => none

/-- The renewal a decision grants, bound to the files it was prepared over. -/
def bindRenewal (services : EventServices) (call : GuardCall) (paths : LockPaths)
    (inspection : ClaimInspection) (priorEvents : JsString) (action : LockLifecycleAction)
    (lease : LockLease) : Except GuardFailure LeaseGuardBinding :=
  match prepareLeaseTransition services
    { action
      priorEvents
      lease
      leaseRef := paths.lease
      eventId := call.eventId
      occurredAt := call.occurredAt
      observedIdentity := call.request.observedIdentity } with
  | .error failure => .error (.integrity failure)
  | .ok prepared =>
      if fingerprintDigest (expectedLeaseFile inspection) =
          some (services.sha256 prepared.leaseText) then .error (.lock .internalFailure)
      else
        .ok
          { guard := call.request.observed
            renewedLease := prepared.lease
            lifecycleEvent := prepared.event
            leaseText := prepared.leaseText
            eventsText := prepared.eventsText
            expected :=
              (⟨paths.events, expectedEventsFile inspection⟩,
                ⟨paths.lease, expectedLeaseFile inspection⟩) }

def prepareLeaseGuard (services : EventServices) (call : GuardCall) (files : ScopeFiles) :
    Except GuardFailure LeaseGuardBinding := do
  let input ← validateRenewRequest call.request
  match lockPaths input.observed.resource with
  | .error failure => .error (.policy failure)
  | .ok paths =>
      let inspection ← inspectLeaseHeld services call.inspectedAt paths files
      let current ← inspectedBinding inspection
      match decideRenew
        { now := call.decidedAt
          current
          stateRevision := input.resultingStateRevision
          expectedIdentity := expectedIdentity input.observed
          ttlMs := input.ttlMs } with
      | .error failure => .error (.policy failure)
      | .ok (.transition action lease) =>
          bindRenewal services call paths inspection ((files.events.map StoredFile.text).getD [])
            action lease
      | .ok _ => .error (.lock (.leaseConflict paths.lease))

end Preparation

section Freezing

def lockNamespace : JsString := js ".brain/locks"

/-- `[A-Za-z0-9._:-]{1,128}\/` at the start. -/
def runScope (rest : JsString) : Bool :=
  decide (1 ≤ (rest.takeWhile isIdUnit).length) && decide ((rest.takeWhile isIdUnit).length ≤ 128) &&
    startsWith (rest.dropWhile isIdUnit) (js "/")

/-- `^\.brain\/locks\/(project|runs\/[A-Za-z0-9._:-]{1,128})\/`. -/
def lockScope (path : JsString) : Bool :=
  match literal (js ".brain/locks/") path with
  | none => false
  | some rest => startsWith rest (js "project/") || ((literal (js "runs/") rest).map runScope).getD false

/-- `path.endsWith("/" + name)` within a lock scope. -/
def reservedGuardPath (path name : JsString) : Bool :=
  lockScope path && (js "/" ++ name).isSuffixOf path

/-- `freezeFingerprintStrict`; `none` is a refusal. -/
def freezeFingerprintStrict : PathFingerprint → Option PathFingerprint
  | .missing => some .missing
  | .directory => none
  | .file size sha256 =>
      if safeNatural size && sha256Pattern sha256 then some (.file size sha256) else none

def freezePrecondition (entry : EventStorePrecondition) : Option EventStorePrecondition :=
  (freezeFingerprintStrict entry.expected).map fun expected => ⟨entry.path, expected⟩

/-- `freezeLeaseGuard` of a binding that is there; `none` is a refusal. -/
def freezeLeaseGuard (binding : LeaseGuardBinding) : Option LeaseGuardBinding := do
  let events ← freezePrecondition binding.expected.1
  let lease ← freezePrecondition binding.expected.2
  if !reservedGuardPath events.path (js "events.jsonl") ||
      !reservedGuardPath lease.path (js "lease.json") then none
  else some { binding with expected := (events, lease) }

end Freezing

section Publication

def reservedGuardWrite (sha256 : JsString → JsString) (index : Nat)
    (precondition : EventStorePrecondition) (content : JsString) : ManagedOperation where
  operationId := operationIdAt index
  kind := .writeFile content
  path := precondition.path
  expected := precondition.expected
  result := contentFingerprint sha256 content
  stagedPath := some (js "staging/" ++ operationIdAt index ++ js ".payload")

def renumbered (operation : ManagedOperation) (index : Nat) : ManagedOperation :=
  match operation.kind with
  | .writeFile _ =>
      { operation with
        operationId := operationIdAt index
        stagedPath := some (js "staging/" ++ operationIdAt index ++ js ".payload") }
  | .createDirectory | .deleteFile => { operation with operationId := operationIdAt index }

def bindLeaseGuard (lower : CaseMapping) (sha256 : JsString → JsString)
    (plan : List ManagedOperation) (binding : LeaseGuardBinding) :
    Except PlanRefusal (List ManagedOperation) :=
  if plan.any fun operation =>
      operation.path == lockNamespace || startsWith operation.path (lockNamespace ++ js "/") then
    .error .outsideAllow
  else do
    let operations :=
      reservedGuardWrite sha256 0 binding.expected.1 binding.eventsText ::
        reservedGuardWrite sha256 1 binding.expected.2 binding.leaseText ::
          plan.mapIdx fun index operation => renumbered operation (index + 2)
    validateManagedRelationships lower operations
    return operations

inductive PersistedKind
  | createDirectory | writeFile | deleteFile
  deriving DecidableEq, Repr

/-- `PersistedManagedOperation`. -/
structure PersistedOperation where
  operationId : JsString
  kind : PersistedKind
  path : JsString
  expected : PathFingerprint
  result : PathFingerprint
  stagedPath : Option JsString
  deriving DecidableEq, Repr

def persistedKind : ManagedKind → PersistedKind
  | .createDirectory => .createDirectory
  | .writeFile _ => .writeFile
  | .deleteFile => .deleteFile

def toPersistedManagedOperation (operation : ManagedOperation) : PersistedOperation where
  operationId := operation.operationId
  kind := persistedKind operation.kind
  path := operation.path
  expected := operation.expected
  result := operation.result
  stagedPath := operation.stagedPath

/-- The operations of the manifest of a plan, staged under a transaction's root. -/
def manifestOperations (root : JsString) (plan : List ManagedOperation) : List PersistedOperation :=
  plan.map fun operation =>
    let value := toPersistedManagedOperation operation
    { value with stagedPath := value.stagedPath.map fun staged => root ++ js "/" ++ staged }

structure GuardedArtifact where
  path : JsString
  expected : PathFingerprint
  published : PathFingerprint
  deriving DecidableEq, Repr

abbrev LeaseAuthority := GuardedArtifact × GuardedArtifact

def bindingAuthority (sha256 : JsString → JsString) (binding : LeaseGuardBinding) :
    LeaseAuthority :=
  (⟨binding.expected.1.path, binding.expected.1.expected,
      contentFingerprint sha256 binding.eventsText⟩,
    ⟨binding.expected.2.path, binding.expected.2.expected,
      contentFingerprint sha256 binding.leaseText⟩)

def manifestAuthority : List PersistedOperation → Option LeaseAuthority
  | events :: lease :: _ :: _ =>
      if !reservedGuardPath events.path (js "events.jsonl") ||
          !reservedGuardPath lease.path (js "lease.json") then none
      else
        some (⟨events.path, events.expected, events.result⟩, ⟨lease.path, lease.expected, lease.result⟩)
  | _ => none

end Publication

end Kratos.Locks.Guard
