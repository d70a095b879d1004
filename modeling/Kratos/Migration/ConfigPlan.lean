/- source: composition/migration.ts, domain/cli/migration.ts
   digest: The replacement of the configuration: its prior attempts, its audit files and its write set. -/

import Kratos.Migration.Receipt
import Kratos.Storage
import Kratos.Vocabulary

set_option autoImplicit false

namespace Kratos.Migration

open Foundation.Text Foundation.JsonText Foundation.Lines Durable Schema

section Files

/-- The reading half of the durable filesystem, with its directory listing. -/
structure MigrationFileSystem extends DurableFileSystem where
  list : JsString → Option (List JsString)

/-- The filesystem of stored paths, with no call failing. -/
def storedFiles (sha256 : JsString → JsString) (storage : Storage) : MigrationFileSystem where
  inspect path := some (Node.entry sha256 (storage.find path))
  readText path := Node.text (storage.find path)
  list directory := some (storage.list directory)

/-- A call that throws, or the refusal with its reason and the evidence it names. -/
inductive MigrationFailure
  | threw
  | refused (reasonCode evidence : JsString)
deriving DecidableEq, Repr

def stateCorrupt (evidence : JsString) : MigrationFailure :=
  .refused (js "runtime.state_corrupt") evidence

def revisionConflict (evidence : JsString) : MigrationFailure :=
  .refused (js "runtime.revision_conflict") evidence

structure ObservedFile where
  content : JsString
  size : Nat
  sha256 : JsString
deriving DecidableEq, Repr

inductive StableFileObservation
  | file (observed : ObservedFile)
  | missing
  | corrupt
  | revisionConflict
deriving DecidableEq, Repr

variable (sha256 : JsString → JsString) (files : MigrationFileSystem)

/-- `readStableFile`; with no other writer the second inspection repeats the first. -/
def readStableFile (path : JsString) : Except MigrationFailure StableFileObservation :=
  match files.inspect path with
  | none => .error .threw
  | some .missing => .ok .missing
  | some (.file size digest) =>
      match files.readText path with
      | none => .ok .revisionConflict
      | some content =>
          if utf8Length content ≠ size ∨ sha256 content ≠ digest then .ok .revisionConflict
          else .ok (.file ⟨content, size, digest⟩)
  | some .directory | some .symlink | some .special => .ok .corrupt

/-- `json(value)`. -/
def json (value : Json) : JsString := stringify indented 0 value ++ js "\n"

/-- Whether two values have one canonical text. -/
def sameJson (left right : Json) : Bool := decide (canonicalizeJson left = canonicalizeJson right)

end Files

section Input

inductive ConfigHost
  | claude | codex | antigravity
deriving DecidableEq, Repr

def ConfigHost.text : ConfigHost → JsString
  | .claude => js "claude"
  | .codex => js "codex"
  | .antigravity => js "antigravity"

inductive Assignment
  | model (name : JsString)
  | effort (model effort : JsString)
deriving DecidableEq, Repr

/-- The roles of a configuration, each host and each role at most once. -/
structure ModelRoles where
  entries : List (ConfigHost × List (ModelRole × Assignment))
  hosts : (entries.map Prod.fst).Nodup
  roles : ∀ entry ∈ entries, (entry.2.map Prod.fst).Nodup

structure AnswersAuthority where
  ref : JsString
  sha256 : JsString
deriving DecidableEq, Repr

/-- What a source becomes, and the authorities that decided it. -/
structure ConfigUpgrade where
  destinationContent : JsString
  hosts : List ConfigHost
  answers : AnswersAuthority
  catalogs : List (ConfigHost × JsString)
  modelRoles : ModelRoles
  defaulted : List JsString

/-- What a replacement is decided from. -/
structure ConfigInput extends ConfigUpgrade where
  sourceContent : JsString

def configRef : JsString := js ".brain/config.json"

def migrationsRef : JsString := js ".brain/migrations"

def assignmentJson : Assignment → Json
  | .model name => .string name
  | .effort model effort => .object [(js "model", .string model), (js "effort", .string effort)]

def roleMapJson (roles : List (ModelRole × Assignment)) : Json :=
  .object (roles.map fun role => (role.1.text, assignmentJson role.2))

def modelRolesJson (roles : ModelRoles) : Json :=
  .object (roles.entries.map fun entry => (entry.1.text, roleMapJson entry.2))

def textsJson (values : List JsString) : Json := .array (values.map .string)

def hostsJson (hosts : List ConfigHost) : Json := textsJson (hosts.map ConfigHost.text)

def referenceJson (ref digest : JsString) : Json :=
  .object [(js "ref", .string ref), (js "sha256", .string digest)]

def catalogJson (catalog : ConfigHost × JsString) : Json :=
  .object [(js "host", .string catalog.1.text), (js "sha256", .string catalog.2)]

def catalogsJson (catalogs : List (ConfigHost × JsString)) : Json :=
  .array (catalogs.map catalogJson)

variable (sha256 : JsString → JsString) (input : ConfigInput)

def ConfigInput.sourceDigest : JsString := sha256 input.sourceContent

def ConfigInput.destinationDigest : JsString := sha256 input.destinationContent

def seedDigest : JsString :=
  sha256 (canonicalizeJson (.object
    [(js "sourceDigest", .string (input.sourceDigest sha256)),
      (js "destinationDigest", .string (input.destinationDigest sha256)),
      (js "hosts", hostsJson input.hosts),
      (js "answers", referenceJson input.answers.ref input.answers.sha256),
      (js "catalogs", catalogsJson input.catalogs),
      (js "modelRoles", modelRolesJson input.modelRoles),
      (js "defaulted", textsJson input.defaulted)]))

def baseMigrationId : JsString := js "config-" ++ (seedDigest sha256 input).take 24

end Input

section Audit

inductive AuditFile
  | authorization | backup | receipt | rollback | verification
deriving DecidableEq, Repr

def AuditFile.name : AuditFile → JsString
  | .authorization => js "authorization.json"
  | .backup => js "backup/config.json"
  | .receipt => js "receipt.json"
  | .rollback => js "rollback.json"
  | .verification => js "verification.json"

def attemptRoot (migrationId : JsString) : JsString := migrationsRef ++ js "/" ++ migrationId

def auditPath (migrationId : JsString) (file : AuditFile) : JsString :=
  attemptRoot migrationId ++ js "/" ++ file.name

variable (sha256 : JsString → JsString) (input : ConfigInput)

def receiptPlanDigest (migrationId planTime : JsString) : JsString :=
  sha256 (canonicalizeJson (.object
    [(js "kind", .string (js "project-config-replacement")),
      (js "migrationId", .string migrationId),
      (js "planTime", .string planTime),
      (js "source", referenceJson configRef (input.sourceDigest sha256)),
      (js "destination", referenceJson configRef (input.destinationDigest sha256)),
      (js "hosts", hostsJson input.hosts),
      (js "modelRoles", modelRolesJson input.modelRoles),
      (js "defaulted", textsJson input.defaulted)]))

def plannedReceipt (migrationId planTime : JsString) : MigrationReceipt :=
  plannedConfigMigration
    { migrationId
      planDigest := receiptPlanDigest sha256 input migrationId planTime
      authorizationRef := auditPath migrationId .authorization
      backupRef := auditPath migrationId .backup
      backupDigest := input.sourceDigest sha256
      destinationRef := configRef
      destinationDigest := input.destinationDigest sha256
      verificationRef := auditPath migrationId .verification
      now := planTime }

/-- The receipt of an attempt through its transitions. -/
def completedReceipt (migrationId planTime : JsString) : Option MigrationReceipt :=
  (authorizeConfigMigration (plannedReceipt sha256 input migrationId planTime)
      (receiptPlanDigest sha256 input migrationId planTime) (auditPath migrationId .authorization)
      planTime).bind fun authorized =>
    completeConfigMigration authorized (auditPath migrationId .verification)
      (input.destinationDigest sha256) planTime

def authorizationJson (migrationId planTime : JsString) : Json :=
  .object
    [(js "contractVersion", .string (js "1.1.0")),
      (js "stateContract", .string (js "1.1.0")),
      (js "migrationId", .string migrationId),
      (js "planDigest", .string (receiptPlanDigest sha256 input migrationId planTime)),
      (js "answers", referenceJson input.answers.ref input.answers.sha256),
      (js "catalogs", catalogsJson input.catalogs),
      (js "plan", .object
        [(js "hosts", hostsJson input.hosts),
          (js "modelRoles", modelRolesJson input.modelRoles),
          (js "defaulted", textsJson input.defaulted)]),
      (js "source", referenceJson configRef (input.sourceDigest sha256)),
      (js "destination", referenceJson configRef (input.destinationDigest sha256)),
      (js "authorizedAt", .string planTime)]

def rollbackManifestJson (receipt : MigrationReceipt) : Json :=
  .object
    [(js "contractVersion", .string (js "1.1.0")),
      (js "stateContract", .string (js "1.1.0")),
      (js "migrationId", .string receipt.migrationId),
      (js "planDigest", .string receipt.planDigest),
      (js "rollback", rollback.encode receipt.rollback)]

def verificationJson (migrationId planDigest backupRef backupDigest destinationRef destinationDigest
    verifiedAt : JsString) : Json :=
  .object
    [(js "contractVersion", .string (js "1.1.0")),
      (js "stateContract", .string (js "1.1.0")),
      (js "migrationId", .string migrationId),
      (js "planDigest", .string planDigest),
      (js "backup", referenceJson backupRef backupDigest),
      (js "destination", referenceJson destinationRef destinationDigest),
      (js "verifiedAt", .string verifiedAt)]

def isRecord : Json → Bool
  | .object _ => true
  | _ => false

def validConfigRollbackManifest (value : Json) (receipt : MigrationReceipt) : Bool :=
  isRecord value && sameJson value (rollbackManifestJson receipt)

def validConfigVerificationAt (value : Json) (receipt : MigrationReceipt) (verifiedAt : JsString) :
    Bool :=
  match receipt.rollback with
  | .copy _ _ => false
  | .replace backupRef backupDigest destinationRef destinationDigest =>
      isRecord value &&
        sameJson value (verificationJson receipt.migrationId receipt.planDigest backupRef
          backupDigest destinationRef destinationDigest verifiedAt)

end Audit

end Kratos.Migration
