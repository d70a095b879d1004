/- source: composition/locks.ts
   digest: Claim records, how an admission is published, and how both are read back. -/

import Kratos.Events.Contract
import Kratos.Locks.Scope
import Kratos.Storage

set_option autoImplicit false

namespace Kratos.Locks

open Foundation.Text Foundation.Calendar Foundation.JsonText Foundation.Lines
open Patterns Schema Durable
open Events (nullableText nullableNatural safeNatural)

section Records

structure LockClaimRecord where
  claimId : JsString
  resource : JsString
  owner : JsString
  leaseId : Option JsString
  fencingToken : Option Nat
  acquiredAt : JsString
  expiresAt : JsString
  deriving DecidableEq, Repr

def lockClaimKeys : List JsString :=
  [js "acquiredAt", js "claimId", js "expiresAt", js "fencingToken", js "leaseId", js "owner",
    js "resource"]

def lockClaimShape (record : LockClaimRecord) : Shape where
  required :=
    [(js "acquiredAt", text.encode record.acquiredAt),
      (js "claimId", text.encode record.claimId),
      (js "expiresAt", text.encode record.expiresAt),
      (js "fencingToken", nullableNatural.encode record.fencingToken),
      (js "leaseId", nullableText.encode record.leaseId),
      (js "owner", text.encode record.owner),
      (js "resource", text.encode record.resource)]
  optional := []

def decodeLockClaim (members : Members) : Option LockClaimRecord := do
  let acquiredAt ← field text (js "acquiredAt") members
  let claimId ← field text (js "claimId") members
  let expiresAt ← field text (js "expiresAt") members
  let fencingToken ← field nullableNatural (js "fencingToken") members
  let leaseId ← field nullableText (js "leaseId") members
  let owner ← field text (js "owner") members
  let resource ← field text (js "resource") members
  pure ⟨claimId, resource, owner, leaseId, fencingToken, acquiredAt, expiresAt⟩

def lockClaim : Codec LockClaimRecord :=
  record lockClaimKeys lockClaimShape decodeLockClaim (fun _ => rfl) (by
    intro claim members agree
    have distinct : (lockClaimShape claim).keys.Nodup := (by decide : lockClaimKeys.Nodup)
    simp only [decodeLockClaim, field_at text agree distinct 0 rfl, field_at text agree distinct 1
      rfl, field_at text agree distinct 2 rfl, field_at nullableNatural agree distinct 3 rfl,
      field_at nullableText agree distinct 4 rfl, field_at text agree distinct 5 rfl, field_at text
      agree distinct 6 rfl, Option.bind_eq_bind, Option.bind_some]
    rfl)

def digitRun (width : Nat) (s : JsString) : Option JsString :=
  if (s.take width).length = width ∧ (s.take width).all isDigit then some (s.drop width) else none

/-- `^\d{4}-\d{2}-\d{2}T\d{2}:\d{2}:\d{2}\.\d{3}Z$`. -/
def strictTimestampPattern (s : JsString) : Bool :=
  (do
    let s ← digitRun 4 s
    let s ← expect '-' s
    let s ← digitRun 2 s
    let s ← expect '-' s
    let s ← digitRun 2 s
    let s ← expect 'T' s
    let s ← digitRun 2 s
    let s ← expect ':' s
    let s ← digitRun 2 s
    let s ← expect ':' s
    let s ← digitRun 2 s
    let s ← expect '.' s
    let s ← digitRun 3 s
    expect 'Z' s) == some []

def strictTimestamp (value : JsString) : Bool :=
  strictTimestampPattern value &&
    match dateParse value with
    | none => false
    | some instant => toISOString instant == value

def validClaimRecord (record : LockClaimRecord) : Bool :=
  idPattern record.claimId &&
    (record.resource == js "admission" || record.resource == js "project" ||
      startsWith record.resource (js "run:")) &&
    record.leaseId.all idPattern && record.leaseId.isNone == record.fencingToken.isNone &&
    record.fencingToken.all safeNatural && strictTimestamp record.acquiredAt &&
    strictTimestamp record.expiresAt &&
    (record.resource == js "admission" || (lockPaths record.resource).toBool) &&
    (parseOwner record.owner).toBool

def exactRecord (value : Json) : Option LockClaimRecord :=
  (lockClaim.decode value).bind fun record => if validClaimRecord record then some record else none

/-- `canonicalizeJson(record)`. -/
def claimText (record : LockClaimRecord) : JsString := canonicalizeJson (lockClaim.encode record)

structure LeaseGuard where
  resource : JsString
  owner : JsString
  leaseId : JsString
  fencingToken : Nat
  stateRevision : Nat
  leaseFingerprint : PathFingerprint
  eventsFingerprint : PathFingerprint
  deriving DecidableEq, Repr

/-- The duration of a claim in milliseconds. -/
def claimMs : Int := 30000

/-- The admission a scope is administered under; it names the scope as its lease. -/
def admissionRecord (claimId resource owner : JsString) (now : Int) : Option LockClaimRecord :=
  (timeClip (now + claimMs)).map fun expiry =>
    { claimId
      resource := js "admission"
      owner
      leaseId := some resource
      fencingToken := some 0
      acquiredAt := toISOString now
      expiresAt := toISOString expiry }

structure AcquireClaimRequest where
  resource : JsString
  owner : JsString
  observed : Option LeaseGuard
  deriving DecidableEq, Repr

/-- The claim on a scope, of the lease that was observed on it. -/
def scopeRecord (claimId : JsString) (request : AcquireClaimRequest) (now : Int) :
    Option LockClaimRecord :=
  (timeClip (now + claimMs)).map fun expiry =>
    { claimId
      resource := request.resource
      owner := request.owner
      leaseId := request.observed.map LeaseGuard.leaseId
      fencingToken := request.observed.map LeaseGuard.fencingToken
      acquiredAt := toISOString now
      expiresAt := toISOString expiry }

def validFileFingerprint : PathFingerprint → Bool
  | .file size sha256 => safeNatural size && sha256Pattern sha256
  | _ => false

def validObservedGuard (observed : LeaseGuard) : Bool :=
  (lockPaths observed.resource).toBool && (parseOwner observed.owner).toBool &&
    idPattern observed.leaseId && safeNatural observed.fencingToken &&
    safeNatural observed.stateRevision && validFileFingerprint observed.leaseFingerprint &&
    validFileFingerprint observed.eventsFingerprint

/-- What `acquireClaim` checks of its request. -/
def validClaimRequest (request : AcquireClaimRequest) : Bool :=
  (lockPaths request.resource).toBool && (parseOwner request.owner).toBool &&
    request.observed.all validObservedGuard

end Records

section Admission

inductive LockFailure
  | stateCorrupt (ref : JsString)
  | internalFailure
  | leaseConflict (ref : JsString)
  | recoveryRequired (ref : JsString)
  deriving DecidableEq, Repr

def admissionRoot : JsString := js ".brain/locks/.admission"
def admissionClaim : JsString := js ".brain/locks/.admission/claim"

structure AdmissionLocation where
  directory : JsString
  recordPath : JsString
  legacy : Bool
  deriving DecidableEq, Repr

def legacyAdmissionLocation : AdmissionLocation where
  directory := admissionClaim
  recordPath := admissionClaim ++ js "/claim.json"
  legacy := true

def generationName (sha256 : JsString) : JsString := js ".claim-" ++ sha256

/-- Where the generation of a digest lies in a directory. -/
def generationIn (directory sha256 : JsString) : AdmissionLocation where
  directory := directory ++ js "/" ++ generationName sha256
  recordPath := directory ++ js "/" ++ generationName sha256 ++ js "/claim.json"
  legacy := false

def digestAfter (head name : JsString) : Option JsString :=
  (literal head name).bind fun sha256 => if sha256Pattern sha256 then some sha256 else none

/-- `^\.retired-([a-f0-9]{64})\.json$`. -/
def isAdmissionTombstone (name : JsString) : Bool :=
  match literal (js ".retired-") name with
  | none => false
  | some rest => sha256Pattern (rest.take 64) && rest.drop 64 == js ".json"

def parseAdmissionGeneration (name : JsString) : Option JsString := digestAfter (js ".claim-") name

def parseCleanupMarker (name : JsString) : Option JsString := digestAfter (js ".cleanup-") name

def assertCleanupMarker (storage : Storage) (directory generation marker : JsString) :
    Except LockFailure Unit :=
  let path := directory ++ js "/.cleanup-" ++ marker
  if marker ≠ generation then .error (.stateCorrupt path)
  else
    match storage.find path with
    | none => .ok ()
    | some .directory =>
        if storage.list path ≠ [] then .error (.stateCorrupt path) else .ok ()
    | some _ => .error (.stateCorrupt path)

def assertAdmissionGenerationChildren (storage : Storage) (directory generation : JsString) :
    Except LockFailure Unit := do
  let names := storage.list directory
  if names.any fun name => (parseCleanupMarker name).isNone && name != js "claim.json" &&
      !isAdmissionTombstone name then
    .error (.stateCorrupt directory)
  else if (names.filterMap parseCleanupMarker).length > 1 then .error (.stateCorrupt directory)
  else
    (names.filterMap parseCleanupMarker).forM (assertCleanupMarker storage directory generation)

def locateAdmission (storage : Storage) : Except LockFailure (Option AdmissionLocation) :=
  match storage.find admissionClaim with
  | none => .ok none
  | some .directory =>
      let names := storage.list admissionClaim
      let legacy := names.any fun name => name == js "claim.json" || isAdmissionTombstone name
      match names.filterMap parseAdmissionGeneration with
      | [] => .ok (if legacy then some legacyAdmissionLocation else none)
      | [generation] =>
          if legacy then .error (.stateCorrupt admissionClaim)
          else
            let location := generationIn admissionClaim generation
            match storage.find location.directory with
            | none => .ok none
            | some .directory =>
                (assertAdmissionGenerationChildren storage location.directory generation).map
                  fun _ => some location
            | some _ => .error (.stateCorrupt location.directory)
      | _ => .error (.stateCorrupt admissionClaim)
  | some _ => .error (.stateCorrupt admissionClaim)

structure LocatedAdmissionClaim where
  record : LockClaimRecord
  location : AdmissionLocation
  fingerprint : PathFingerprint
  deriving DecidableEq, Repr

def admissionLocationFor (sha256 : JsString → JsString) (record : LockClaimRecord) :
    AdmissionLocation :=
  generationIn admissionClaim (sha256 (claimText record))

def readAdmissionClaim (sha256 : JsString → JsString) (storage : Storage) :
    Except LockFailure (Option LocatedAdmissionClaim) := do
  match ← locateAdmission storage with
  | none => .ok none
  | some location =>
      match storage.find location.recordPath with
      | none => .ok none
      | some (.file content) =>
          match (parse content).bind exactRecord with
          | none => .error (.stateCorrupt location.recordPath)
          | some record =>
              if record.resource ≠ js "admission" ∨ claimText record ≠ content then
                .error (.stateCorrupt location.recordPath)
              else if !location.legacy ∧
                  location.directory ≠ (admissionLocationFor sha256 record).directory then
                .error (.stateCorrupt location.directory)
              else
                .ok (some ⟨record, location, .file (utf8Length content) (sha256 content)⟩)
      | some _ => .error (.stateCorrupt location.recordPath)

def candidatePath (sha256 : JsString → JsString) (record : LockClaimRecord) : JsString :=
  let expiresAt := match dateParse record.expiresAt with
    | none => js "NaN"
    | some time => integerText time
  admissionRoot ++ js "/.candidate-" ++ expiresAt ++ js "-" ++ sha256 (claimText record)

/-- The durable calls of `withAdmission` up to its exclusive publication. -/
def publishAdmission (sha256 : JsString → JsString) (storage : Storage) (record : LockClaimRecord) :
    Option Storage := do
  let candidate := candidatePath sha256 record
  let location := generationIn candidate (sha256 (claimText record))
  let storage ← storage.createDirectoryExclusive candidate
  let storage ← storage.createDirectoryExclusive location.directory
  let storage ← storage.writeSynced location.recordPath (claimText record)
  storage.renameDirectoryExclusive candidate admissionClaim

end Admission

end Kratos.Locks
