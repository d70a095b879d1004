/- source: composition/migration.ts
   digest: The prior attempts of a replacement: how they are found, read back and checked. -/

import Kratos.Migration.ConfigPlan

set_option autoImplicit false

namespace Kratos.Migration

open Foundation.Text Foundation.JsonText Durable

section Attempts

def maxConfigMigrationAttempts : Nat := 10000

/-- `^(?:[2-9]|[1-9][0-9]+)$`. -/
def attemptSuffix : JsString → Bool
  | [] => false
  | [digit] => isDigit digit && digit != unit '0' && digit != unit '1'
  | first :: rest => isDigit first && first != unit '0' && rest.all isDigit

/-- The attempt an entry stands for: none for another entry, `some none` for no number. -/
def attemptOf (baseMigrationId entry : JsString) : Option (Option Nat) :=
  if entry = baseMigrationId then some (some 1)
  else if !startsWith entry (baseMigrationId ++ js "-attempt-") then none
  else
    let suffix := entry.drop (baseMigrationId ++ js "-attempt-").length
    if !attemptSuffix suffix then some none else some (some (digitsValue suffix))

/-- The attempts in ascending order, none where some entry has no number. -/
def lineageOf (baseMigrationId : JsString) (entries : List JsString) : Option (List Nat) :=
  ((entries.eraseDups.filterMap (attemptOf baseMigrationId)).mapM id).map fun attempts =>
    attempts.mergeSort fun left right => decide (left ≤ right)

/-- Whether the attempts are the first ones, without a gap. -/
def consecutive (lineage : List Nat) : Bool :=
  lineage.zipIdx.all fun (attempt, index) =>
    decide (attempt ≤ maxConfigMigrationAttempts) && attempt == index + 1

def attemptId (baseMigrationId : JsString) (attempt : Nat) : JsString :=
  if attempt = 1 then baseMigrationId else baseMigrationId ++ js "-attempt-" ++ decimal attempt

end Attempts

section Prior

/-- A file whose bytes the plan depends on. -/
structure ConfigAttemptGuard where
  path : JsString
  content : JsString
  expected : PathFingerprint
deriving DecidableEq, Repr

structure PriorAttemptFiles where
  authorization : ObservedFile
  backup : ObservedFile
  receipt : ObservedFile
  rollback : ObservedFile
  verification : ObservedFile
deriving DecidableEq, Repr

def PriorAttemptFiles.get (prior : PriorAttemptFiles) : AuditFile → ObservedFile
  | .authorization => prior.authorization
  | .backup => prior.backup
  | .receipt => prior.receipt
  | .rollback => prior.rollback
  | .verification => prior.verification

/-- The audit files by their paths in the locale's order. -/
def auditFiles : List AuditFile := [.authorization, .backup, .receipt, .rollback, .verification]

def expectedFile (observed : ObservedFile) : PathFingerprint := .file observed.size observed.sha256

def StableFileObservation.isConflict : StableFileObservation → Bool
  | .revisionConflict => true
  | _ => false

def collectPriorAttempt (root : JsString) :
    StableFileObservation → StableFileObservation → StableFileObservation →
      StableFileObservation → StableFileObservation → Except MigrationFailure PriorAttemptFiles
  | .file authorization, .file backup, .file receipt, .file rollback, .file verification =>
      .ok ⟨authorization, backup, receipt, rollback, verification⟩
  | authorization, backup, receipt, rollback, verification =>
      if authorization.isConflict || backup.isConflict || receipt.isConflict ||
          rollback.isConflict || verification.isConflict then
        .error (revisionConflict root)
      else .error (stateCorrupt root)

variable (sha256 : JsString → JsString) (files : MigrationFileSystem) (input : ConfigInput)

def readPriorAttemptFiles (migrationId : JsString) : Except MigrationFailure PriorAttemptFiles := do
  let authorization ← readStableFile sha256 files (auditPath migrationId .authorization)
  let backup ← readStableFile sha256 files (auditPath migrationId .backup)
  let receipt ← readStableFile sha256 files (auditPath migrationId .receipt)
  let rollback ← readStableFile sha256 files (auditPath migrationId .rollback)
  let verification ← readStableFile sha256 files (auditPath migrationId .verification)
  collectPriorAttempt (attemptRoot migrationId) authorization backup receipt rollback verification

def parseOr (failure : MigrationFailure) (content : JsString) : Except MigrationFailure Json :=
  match parse content with
  | some value => .ok value
  | none => .error failure

def rolledBackReceipt (migrationId createdAt updatedAt : JsString) : Option MigrationReceipt :=
  (completedReceipt sha256 input migrationId createdAt).bind fun completed =>
    rollBackConfigMigration completed (input.sourceDigest sha256) (input.destinationDigest sha256)
      updatedAt

def MigrationRollback.isReplace : MigrationRollback → Bool
  | .replace _ _ _ _ => true
  | .copy _ _ => false

def readAttemptReceipt (migrationId : JsString) (rawReceipt : Json) :
    Except MigrationFailure MigrationReceipt :=
  match validateMigration rawReceipt with
  | none => .error (stateCorrupt (auditPath migrationId .receipt))
  | some receipt =>
      if receipt.migrationId ≠ migrationId ∨ receipt.status ≠ .rolledBack ∨
          receipt.rollback.isReplace = false then
        .error (stateCorrupt (auditPath migrationId .receipt))
      else .ok receipt

/-- Whether the documents of an attempt are the ones its receipt stands for. -/
def attemptAgrees (migrationId : JsString) (receipt : MigrationReceipt)
    (authorization rawReceipt rollbackManifest verification : Json) (backup : ObservedFile) : Bool :=
  receipt.planDigest == receiptPlanDigest sha256 input migrationId receipt.createdAt &&
    (rolledBackReceipt sha256 input migrationId receipt.createdAt receipt.updatedAt).any
      (fun expected => sameJson rawReceipt (migrationReceipt.encode expected)) &&
    sameJson authorization (authorizationJson sha256 input migrationId receipt.createdAt) &&
    validConfigRollbackManifest rollbackManifest receipt &&
    validConfigVerificationAt verification receipt receipt.createdAt &&
    backup.content == input.sourceContent && backup.sha256 == input.sourceDigest sha256

def observePriorConfigAttempt (migrationId : JsString) :
    Except MigrationFailure (List ConfigAttemptGuard) := do
  let prior ← readPriorAttemptFiles sha256 files migrationId
  let corrupt := stateCorrupt (attemptRoot migrationId)
  let authorization ← parseOr corrupt prior.authorization.content
  let rawReceipt ← parseOr corrupt prior.receipt.content
  let rollbackManifest ← parseOr corrupt prior.rollback.content
  let verification ← parseOr corrupt prior.verification.content
  let receipt ← readAttemptReceipt migrationId rawReceipt
  if attemptAgrees sha256 input migrationId receipt authorization rawReceipt rollbackManifest
      verification prior.backup = false then
    .error corrupt
  else
    .ok (auditFiles.map fun file =>
      ⟨auditPath migrationId file, (prior.get file).content, expectedFile (prior.get file)⟩)

structure ConfigAttempt where
  migrationId : JsString
  guards : List ConfigAttemptGuard
deriving DecidableEq, Repr

/-- The checks of a lineage, and the next attempt. -/
def attemptAfter (lineage : List Nat) : Except MigrationFailure ConfigAttempt :=
  if consecutive lineage = false then .error (stateCorrupt migrationsRef)
  else if maxConfigMigrationAttempts ≤ lineage.length then .error (stateCorrupt migrationsRef)
  else do
    let guards ← lineage.mapM fun attempt =>
      observePriorConfigAttempt sha256 files input
        (attemptId (baseMigrationId sha256 input) attempt)
    .ok ⟨attemptId (baseMigrationId sha256 input) (lineage.length + 1), guards.flatten⟩

def nextConfigAttempt : Except MigrationFailure ConfigAttempt :=
  match files.inspect migrationsRef with
  | none => .error .threw
  | some .missing => .ok ⟨baseMigrationId sha256 input, []⟩
  | some .directory =>
      match files.list migrationsRef with
      | none => .error .threw
      | some entries =>
          match lineageOf (baseMigrationId sha256 input) entries with
          | none => .error (stateCorrupt migrationsRef)
          | some lineage => attemptAfter sha256 files input lineage
  | some .symlink | some .special | some (.file _ _) => .error (stateCorrupt migrationsRef)

end Prior

end Kratos.Migration
