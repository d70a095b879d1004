/- source: composition/migration.ts, domain/cli/migration.ts, composition/index.ts
   digest: Applying a configuration replacement to stored files, and rolling it back. -/

import Kratos.Foundation.Calendar
import Kratos.Migration.Lineage
import Kratos.Migration.Writing

set_option autoImplicit false

namespace Kratos.Migration

open Foundation.Text Foundation.JsonText Foundation.Calendar Foundation.Paths
open Durable Patterns Schema

section Applying

structure PlannedWrite extends WriteEffect where
  sha256 : JsString
deriving DecidableEq, Repr

structure ConfigOperation where
  migrationId : JsString
  now : JsString
  planDigest : JsString
  guards : List ConfigAttemptGuard
  writes : List PlannedWrite
deriving DecidableEq, Repr

variable (lower : CaseMapping) (sha256 : JsString → JsString) (files : MigrationFileSystem)
  (input : ConfigInput)

def planWrites (sourceSize : Nat) (migrationId planTime : JsString) (completed : MigrationReceipt) :
    List WriteEffect :=
  [⟨configRef, input.destinationContent, .file sourceSize (input.sourceDigest sha256)⟩,
    ⟨auditPath migrationId .backup, input.sourceContent, .missing⟩,
    ⟨auditPath migrationId .authorization, json (authorizationJson sha256 input migrationId planTime),
      .missing⟩,
    ⟨auditPath migrationId .rollback, json (rollbackManifestJson completed), .missing⟩,
    ⟨auditPath migrationId .receipt, json (migrationReceipt.encode completed), .missing⟩,
    ⟨auditPath migrationId .verification,
      json (verificationJson migrationId (receiptPlanDigest sha256 input migrationId planTime)
        (auditPath migrationId .backup) (input.sourceDigest sha256) configRef
        (input.destinationDigest sha256) planTime),
      .missing⟩]

def withDigest (effect : WriteEffect) : PlannedWrite := { effect with sha256 := sha256 effect.content }

def guardFingerprintJson (guarded : ConfigAttemptGuard) : Json :=
  .object [(js "path", .string guarded.path), (js "sha256", .string (match guarded.expected with
    | .file _ digest => digest
    | .missing | .directory => []))]

def writeFingerprintJson (write : PlannedWrite) : Json :=
  .object [(js "path", .string write.path), (js "sha256", .string write.sha256)]

def writeSetDigest (migrationId planTime : JsString) (guards : List ConfigAttemptGuard)
    (writes : List PlannedWrite) : JsString :=
  sha256 (canonicalizeJson (.object
    ([(js "kind", .string (js "project-config-write-set")),
        (js "migrationId", .string migrationId),
        (js "planTime", .string planTime)] ++
      (if guards.isEmpty then [] else [(js "guards", .array (guards.map guardFingerprintJson))]) ++
      [(js "writes", .array (writes.map writeFingerprintJson))])))

/-- The digest and the instant that an apply names. -/
structure ConfigAuthorization where
  planDigest : JsString
  planTime : JsString
deriving DecidableEq, Repr

def isCanonicalInstant (value : JsString) : Bool :=
  decide (value.length = 24) && (dateParse value).any fun time => toISOString time == value

def ConfigAuthorization.valid (authorization : ConfigAuthorization) : Bool :=
  sha256Pattern authorization.planDigest && isCanonicalInstant authorization.planTime

/-- A lineage that is corrupt is a conflict for an apply. -/
def attemptFailure (authorized : Bool) (failure : MigrationFailure) : MigrationFailure :=
  match failure with
  | .threw => .threw
  | .refused reasonCode evidence =>
      if authorized && reasonCode == js "runtime.state_corrupt" then revisionConflict migrationsRef
      else .refused reasonCode evidence

/-- A source that is not there is a conflict for an apply. -/
def sourceFailure (authorized : Bool) (reasonCode : JsString) : MigrationFailure :=
  if authorized then revisionConflict configRef else .refused reasonCode []

/-- The plan of one attempt on an observed source. -/
def planConfig (sourceSize : Nat) (planTime : JsString) (requestedDigest : Option JsString)
    (attempt : ConfigAttempt) : Except MigrationFailure ConfigOperation :=
  match completedReceipt sha256 input attempt.migrationId planTime with
  | none => .error (stateCorrupt [])
  | some completed =>
      let writes := (planWrites sha256 input sourceSize attempt.migrationId planTime completed).map
        (withDigest sha256)
      let planDigest := writeSetDigest sha256 attempt.migrationId planTime attempt.guards writes
      if requestedDigest.any (· != planDigest) then .error (revisionConflict configRef)
      else .ok ⟨attempt.migrationId, planTime, planDigest, attempt.guards, writes⟩

/-- What a source upgrades to under the answers and the catalogs at hand, or its refusal. -/
abbrev Upgrade := JsString → Except MigrationFailure ConfigUpgrade

/-- `observeConfig` at the clock's time. -/
def observeConfig (upgrade : Upgrade) (now : Int) (authorization : Option ConfigAuthorization) :
    Except MigrationFailure ConfigOperation :=
  if authorization.any fun named => !named.valid then .error (.refused (js "trail.uso") [])
  else do
    match ← readStableFile sha256 files configRef with
    | .file observed =>
        let resolved ← upgrade observed.content
        let input : ConfigInput := { resolved with sourceContent := observed.content }
        match nextConfigAttempt sha256 files input with
        | .error failure => .error (attemptFailure authorization.isSome failure)
        | .ok attempt =>
            planConfig sha256 input observed.size
              ((authorization.map ConfigAuthorization.planTime).getD (toISOString now))
              (authorization.map ConfigAuthorization.planDigest) attempt
    | .missing => .error (sourceFailure authorization.isSome (js "guard.config_missing"))
    | .corrupt => .error (sourceFailure authorization.isSome (js "guard.config_corrupt"))
    | .revisionConflict => .error (revisionConflict configRef)

/-- The effects of an applied replacement: its guards, then its writes. -/
def migrateConfig (operation : ConfigOperation) : List WriteEffect :=
  (operation.guards.map fun guarded => ⟨guarded.path, guarded.content, guarded.expected⟩) ++
    operation.writes.map PlannedWrite.toWriteEffect

/-- A preview, and the apply that names its digest and its instant. -/
def applyConfig (upgrade : Upgrade) (storage : Storage) (now : Int) :
    Except MigrationFailure (Storage × JsString) := do
  let preview ← observeConfig sha256 (storedFiles sha256 storage) upgrade now none
  let operation ← observeConfig sha256 (storedFiles sha256 storage) upgrade now
    (some ⟨preview.planDigest, preview.now⟩)
  let next ← commit lower sha256 storage (migrateConfig operation)
  pure (next, operation.migrationId)

end Applying

section RollingBack

def isWindowsDevice (name : JsString) : Bool :=
  [js "CON", js "PRN", js "AUX", js "NUL"].contains name ||
    match name with
    | [a, b, c, digit] =>
        ([a, b, c] == js "COM" || [a, b, c] == js "LPT") && isDigit digit && digit != unit '0'
    | _ => false

def upperUnit (u : CodeUnit) : CodeUnit := if isLowerAlpha u then u - 0x20 else u

/-- `[a-zA-Z0-9._@-]`. -/
def isMigrationIdUnit (u : CodeUnit) : Bool :=
  isAlnum u || u == unit '.' || u == unit '_' || u == unit '@' || u == unit '-'

def hasDoubleDot : JsString → Bool
  | first :: second :: rest =>
      (first == unit '.' && second == unit '.') || hasDoubleDot (second :: rest)
  | _ => false

def isCanonicalMigrationId (value : JsString) : Bool :=
  decide (value.length ≤ 128) && !hasDoubleDot value &&
    !isWindowsDevice ((value.takeWhile (· != unit '.')).map upperUnit) &&
    (value.head?.map isAlnum).getD false && (value.getLast?.map isAlnum).getD false &&
    value.all isMigrationIdUnit

structure ConfigReplacement where
  destinationRef : JsString
  content : JsString
  expected : PathFingerprint
  receiptExpected : PathFingerprint
  guards : List ConfigAttemptGuard
  backupDigest : JsString
  destinationDigest : JsString
deriving DecidableEq, Repr

variable (lower : CaseMapping) (sha256 : JsString → JsString) (files : MigrationFileSystem)

/-- Whether a receipt and its manifest are those of a completed replacement of the configuration. -/
def replacementReceipt (receipt : MigrationReceipt) (rollbackManifest : Json)
    (migrationId : JsString) : Bool :=
  match receipt.rollback, receipt.verificationRefs, receipt.conversions with
  | .replace backupRef backupDigest destinationRef destinationDigest, [verificationRef], [conversion] =>
      receipt.migrationId == migrationId && receipt.status == .completed &&
        receipt.authorizationRef == auditPath migrationId .authorization &&
        backupRef == auditPath migrationId .backup && destinationRef == configRef &&
        receipt.backupDigest == backupDigest &&
        verificationRef == auditPath migrationId .verification &&
        conversion.payloadContract == js "state.project-config" &&
        conversion.sourceDigest == receipt.backupDigest &&
        conversion.destinationDigest == destinationDigest &&
        validConfigRollbackManifest rollbackManifest receipt
  | _, _, _ => false

/-- The backup, the destination and the verification of a replacement, none where one is not what
the receipt stands for. -/
def replacementReady (receipt : MigrationReceipt) (migrationId : JsString)
    (receiptFile rollbackFile verification backup : ObservedFile)
    (destination : StableFileObservation) : Except MigrationFailure (Option ConfigReplacement) :=
  match receipt.rollback, destination with
  | .copy _ _, _ => .ok none
  | .replace backupRef backupDigest destinationRef destinationDigest, .file destination =>
      if backup.sha256 ≠ backupDigest then .ok none
      else if destination.sha256 ≠ destinationDigest then .error (revisionConflict configRef)
      else
        match parse verification.content with
        | none => .ok none
        | some value =>
            if sha256 backup.content ≠ backupDigest ∨
                validConfigVerificationAt value receipt receipt.updatedAt = false then .ok none
            else
              .ok (some
                { destinationRef
                  content := backup.content
                  expected := expectedFile destination
                  receiptExpected := expectedFile receiptFile
                  guards :=
                    [⟨backupRef, backup.content, expectedFile backup⟩,
                      ⟨auditPath migrationId .rollback, rollbackFile.content,
                        expectedFile rollbackFile⟩,
                      ⟨auditPath migrationId .verification, verification.content,
                        expectedFile verification⟩]
                  backupDigest
                  destinationDigest })
  | .replace _ backupDigest _ _, .missing | .replace _ backupDigest _ _, .corrupt
  | .replace _ backupDigest _ _, .revisionConflict =>
      if backup.sha256 ≠ backupDigest then .ok none else .error (revisionConflict configRef)

/-- `observeConfigReplacement`: none where the state is corrupt. -/
def observeConfigReplacement (receipt : MigrationReceipt) (rollbackManifest : Json)
    (migrationId : JsString) (receiptFile rollbackFile : ObservedFile) :
    Except MigrationFailure (Option ConfigReplacement) :=
  match receipt.rollback with
  | .copy _ _ => .ok none
  | .replace backupRef _ destinationRef _ =>
      if replacementReceipt receipt rollbackManifest migrationId = false then .ok none
      else do
        let verification ← readStableFile sha256 files (auditPath migrationId .verification)
        let backup ← readStableFile sha256 files backupRef
        let destination ← readStableFile sha256 files destinationRef
        if verification.isConflict || backup.isConflict || destination.isConflict then
          .error (revisionConflict configRef)
        else
          match verification, backup with
          | .file verification, .file backup =>
              replacementReady sha256 receipt migrationId receiptFile rollbackFile verification
                backup destination
          | _, _ => .ok none

def isMemoryRollbackManifest (value : Json) : Bool :=
  match value with
  | .object members =>
      (field text (js "kind") members).any fun kind =>
        kind == js "memory-replace" || kind == js "memory-state-replace"
  | _ => false

/-- What a rollback of a configuration replacement is decided from. -/
structure RollbackOperation where
  migrationId : JsString
  receipt : MigrationReceipt
  replacement : ConfigReplacement
  now : JsString
deriving DecidableEq, Repr

/-- The receipt and the manifest of a rollback, and what they replace. -/
def observeRollbackFiles (migrationId now : JsString) (receiptFile rollbackFile : ObservedFile) :
    Except MigrationFailure (Option RollbackOperation) :=
  match parse receiptFile.content, parse rollbackFile.content with
  | some rawReceipt, some rollbackManifest =>
      match validateMigration rawReceipt with
      | none => .ok none
      | some receipt =>
          if isMemoryRollbackManifest rollbackManifest then .ok none
          else do
            let replacement ←
              observeConfigReplacement sha256 files receipt rollbackManifest migrationId receiptFile
                rollbackFile
            pure (replacement.map fun replacement => ⟨migrationId, receipt, replacement, now⟩)
  | _, _ => .ok none

/-- `observeRollback` of a configuration replacement; what throws is caught as a corrupt state. -/
def observeRollback (migrationId now : JsString) :
    Except MigrationFailure (Option RollbackOperation) :=
  if !isCanonicalMigrationId migrationId then .error (.refused (js "trail.uso") [])
  else
    let observed : Except MigrationFailure (Option RollbackOperation) := do
      let receiptFile ← readStableFile sha256 files (auditPath migrationId .receipt)
      let rollbackFile ← readStableFile sha256 files (auditPath migrationId .rollback)
      if receiptFile.isConflict || rollbackFile.isConflict then
        .error (revisionConflict (attemptRoot migrationId))
      else
        match receiptFile, rollbackFile with
        | .file receiptFile, .file rollbackFile =>
            observeRollbackFiles sha256 files migrationId now receiptFile rollbackFile
        | _, _ => .ok none
    match observed with
    | .error .threw => .ok none
    | outcome => outcome

def migrateRollback (operation : RollbackOperation) : Except MigrationFailure (List WriteEffect) :=
  match rollBackConfigMigration operation.receipt operation.replacement.backupDigest
      operation.replacement.destinationDigest operation.now with
  | none => .error (stateCorrupt migrationsRef)
  | some rolledBack =>
      .ok ((operation.replacement.guards.map fun guarded =>
          ⟨guarded.path, guarded.content, guarded.expected⟩) ++
        [⟨operation.replacement.destinationRef, operation.replacement.content,
            operation.replacement.expected⟩,
          ⟨auditPath operation.migrationId .receipt, json (migrationReceipt.encode rolledBack),
            operation.replacement.receiptExpected⟩])

def rollBackConfig (storage : Storage) (migrationId : JsString) (now : Int) :
    Except MigrationFailure Storage := do
  match ← observeRollback sha256 (storedFiles sha256 storage) migrationId (toISOString now) with
  | none => .error (stateCorrupt migrationsRef)
  | some operation =>
      let effects ← migrateRollback operation
      commit lower sha256 storage effects

end RollingBack

section Cycles

/-- The clock's times when a replacement is applied and when it is rolled back. -/
structure Cycle where
  planTime : Int
  rollbackTime : Int
deriving DecidableEq, Repr

/-- A replacement that is applied and then rolled back. -/
def cycle (lower : CaseMapping) (sha256 : JsString → JsString) (upgrade : Upgrade)
    (storage : Storage) (times : Cycle) : Except MigrationFailure Storage := do
  let (applied, migrationId) ← applyConfig lower sha256 upgrade storage times.planTime
  rollBackConfig lower sha256 applied migrationId times.rollbackTime

end Cycles

end Kratos.Migration
