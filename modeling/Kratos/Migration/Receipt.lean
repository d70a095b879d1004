/- source: domain/migration/receipt.ts, schemas/state/migration.v1.1.schema.json
   digest: The receipt of a replacement, its transitions and its reading from JSON. -/

import Kratos.Patterns
import Kratos.Schema.Codec

set_option autoImplicit false

namespace Kratos.Migration

open Foundation.Text Foundation.JsonText Patterns Schema

section Receipt

inductive SourceContract
  | v0_9_0 | goV3 | v1_0_0
deriving DecidableEq, Repr

def SourceContract.text : SourceContract → JsString
  | .v0_9_0 => js "0.9.0"
  | .goV3 => js "go-v3@0.6.5"
  | .v1_0_0 => js "1.0.0"

inductive MigrationStatus
  | planned | authorized | completed | failed | rolledBack
deriving DecidableEq, Repr

def MigrationStatus.text : MigrationStatus → JsString
  | .planned => js "planned"
  | .authorized => js "authorized"
  | .completed => js "completed"
  | .failed => js "failed"
  | .rolledBack => js "rolled-back"

structure Conversion where
  payloadContract : JsString
  sourceDigest : JsString
  destinationDigest : JsString
deriving DecidableEq, Repr

inductive MigrationRollback
  | copy (backupRef destinationRef : JsString)
  | replace (backupRef backupDigest destinationRef destinationDigest : JsString)
deriving DecidableEq, Repr

/-- `MigrationV1_1`, its constant members left out. -/
structure MigrationReceipt where
  migrationId : JsString
  sourceContract : SourceContract
  planDigest : JsString
  authorizationRef : JsString
  backupDigest : JsString
  status : MigrationStatus
  conversions : List Conversion
  verificationRefs : List JsString
  rollback : MigrationRollback
  createdAt : JsString
  updatedAt : JsString
deriving DecidableEq, Repr

end Receipt

section Transitions

structure ConfigMigrationReceiptRequest where
  migrationId : JsString
  planDigest : JsString
  authorizationRef : JsString
  backupRef : JsString
  backupDigest : JsString
  destinationRef : JsString
  destinationDigest : JsString
  verificationRef : JsString
  now : JsString

/-- The receipt for one exact configuration replacement. -/
def plannedConfigMigration (request : ConfigMigrationReceiptRequest) : MigrationReceipt where
  migrationId := request.migrationId
  sourceContract := .v1_0_0
  planDigest := request.planDigest
  authorizationRef := request.authorizationRef
  backupDigest := request.backupDigest
  status := .planned
  conversions := [⟨js "state.project-config", request.backupDigest, request.destinationDigest⟩]
  verificationRefs := []
  rollback := .replace request.backupRef request.backupDigest request.destinationRef
    request.destinationDigest
  createdAt := request.now
  updatedAt := request.now

def authorizeConfigMigration (receipt : MigrationReceipt) (planDigest authorizationRef now : JsString) :
    Option MigrationReceipt :=
  if receipt.status ≠ .planned ∨ receipt.planDigest ≠ planDigest ∨
      receipt.authorizationRef ≠ authorizationRef then none
  else some { receipt with status := .authorized, updatedAt := now }

def completeConfigMigration (receipt : MigrationReceipt)
    (verificationRef observedDestinationDigest now : JsString) : Option MigrationReceipt :=
  match receipt.rollback with
  | .copy _ _ => none
  | .replace _ _ _ destinationDigest =>
      if receipt.status ≠ .authorized ∨ destinationDigest ≠ observedDestinationDigest then none
      else some { receipt with
        status := .completed, verificationRefs := [verificationRef], updatedAt := now }

def rollBackConfigMigration (receipt : MigrationReceipt)
    (observedBackupDigest observedDestinationDigest now : JsString) : Option MigrationReceipt :=
  match receipt.rollback with
  | .copy _ _ => none
  | .replace _ backupDigest _ destinationDigest =>
      if receipt.status ≠ .completed ∨ receipt.backupDigest ≠ observedBackupDigest ∨
          backupDigest ≠ observedBackupDigest ∨
          destinationDigest ≠ observedDestinationDigest then none
      else some { receipt with status := .rolledBack, updatedAt := now }

end Transitions

section Reading

def sourceContract : Codec SourceContract :=
  enumeration [.v0_9_0, .goV3, .v1_0_0] SourceContract.text
    (by intro contract; cases contract <;> decide) (by decide)

def migrationStatus : Codec MigrationStatus :=
  enumeration [.planned, .authorized, .completed, .failed, .rolledBack] MigrationStatus.text
    (by intro status; cases status <;> decide) (by decide)

def conversionKeys : List JsString :=
  [js "payloadContract", js "sourceDigest", js "destinationDigest"]

def conversionShape (conversion : Conversion) : Shape where
  required :=
    [(js "payloadContract", text.encode conversion.payloadContract),
      (js "sourceDigest", text.encode conversion.sourceDigest),
      (js "destinationDigest", text.encode conversion.destinationDigest)]
  optional := []

def decodeConversion (members : Members) : Option Conversion := do
  let payloadContract ← field text (js "payloadContract") members
  let sourceDigest ← field text (js "sourceDigest") members
  let destinationDigest ← field text (js "destinationDigest") members
  pure ⟨payloadContract, sourceDigest, destinationDigest⟩

def conversion : Codec Conversion :=
  record conversionKeys conversionShape decodeConversion (fun _ => rfl) (by
    intro conversion members agree
    have distinct : (conversionShape conversion).keys.Nodup := (by decide : conversionKeys.Nodup)
    simp only [decodeConversion, field_at text agree distinct 0 rfl, field_at text agree distinct 1
      rfl, field_at text agree distinct 2 rfl, Option.bind_eq_bind, Option.bind_some]
    rfl)

/-- The members of a rollback, by its kind. -/
def rollbackShape : MigrationRollback → Shape
  | .copy backupRef destinationRef =>
      { required :=
          [(js "kind", text.encode (js "copy")), (js "backupRef", text.encode backupRef),
            (js "destinationRef", text.encode destinationRef)]
        optional :=
          [(js "backupDigest", none), (js "destinationDigest", none)] }
  | .replace backupRef backupDigest destinationRef destinationDigest =>
      { required :=
          [(js "kind", text.encode (js "replace")), (js "backupRef", text.encode backupRef),
            (js "destinationRef", text.encode destinationRef)]
        optional :=
          [(js "backupDigest", some (text.encode backupDigest)),
            (js "destinationDigest", some (text.encode destinationDigest))] }

def rollbackKeys : List JsString :=
  [js "kind", js "backupRef", js "destinationRef", js "backupDigest", js "destinationDigest"]

def decodeRollback (members : Members) : Option MigrationRollback := do
  let kind ← field text (js "kind") members
  let backupRef ← field text (js "backupRef") members
  let destinationRef ← field text (js "destinationRef") members
  let backupDigest ← optionalField text (js "backupDigest") members
  let destinationDigest ← optionalField text (js "destinationDigest") members
  match backupDigest, destinationDigest with
  | none, none => if kind = js "copy" then some (.copy backupRef destinationRef) else none
  | some backupDigest, some destinationDigest =>
      if kind = js "replace" then
        some (.replace backupRef backupDigest destinationRef destinationDigest)
      else none
  | _, _ => none

def rollback : Codec MigrationRollback :=
  record rollbackKeys rollbackShape decodeRollback (fun a => by cases a <;> rfl) (by
    intro rollback members agree
    have distinct : (rollbackShape rollback).keys.Nodup := by
      cases rollback <;> exact (by decide : rollbackKeys.Nodup)
    cases rollback with
    | copy backupRef destinationRef =>
        have backup : optionalField text (js "backupDigest") members = some none :=
          optionalField_at text agree distinct 0 rfl
        have destination : optionalField text (js "destinationDigest") members = some none :=
          optionalField_at text agree distinct 1 rfl
        simp only [decodeRollback, field_at text agree distinct 0 rfl, field_at text agree distinct
          1 rfl, field_at text agree distinct 2 rfl, backup, destination, Option.bind_eq_bind,
          Option.bind_some]
        rfl
    | replace backupRef backupDigest destinationRef destinationDigest =>
        have backup : optionalField text (js "backupDigest") members = some (some backupDigest) :=
          optionalField_at text agree distinct 0 rfl
        have destination :
            optionalField text (js "destinationDigest") members = some (some destinationDigest) :=
          optionalField_at text agree distinct 1 rfl
        simp only [decodeRollback, field_at text agree distinct 0 rfl, field_at text agree distinct
          1 rfl, field_at text agree distinct 2 rfl, backup, destination, Option.bind_eq_bind,
          Option.bind_some]
        rfl)

/-- A member that always has the same text. -/
def constant (key value : JsString) (members : Members) : Option Unit :=
  (field text key members).bind fun found => if found = value then some () else none

def migrationKeys : List JsString :=
  [js "contractVersion", js "stateContract", js "migrationId", js "sourceContract",
    js "destinationContract", js "planDigest", js "authorizationRef", js "backupDigest",
    js "status", js "conversions", js "verificationRefs", js "rollback", js "createdAt",
    js "updatedAt"]

def migrationShape (receipt : MigrationReceipt) : Shape where
  required :=
    [(js "contractVersion", text.encode (js "1.1.0")),
      (js "stateContract", text.encode (js "1.1.0")),
      (js "migrationId", text.encode receipt.migrationId),
      (js "sourceContract", sourceContract.encode receipt.sourceContract),
      (js "destinationContract", text.encode (js "1.1.0")),
      (js "planDigest", text.encode receipt.planDigest),
      (js "authorizationRef", text.encode receipt.authorizationRef),
      (js "backupDigest", text.encode receipt.backupDigest),
      (js "status", migrationStatus.encode receipt.status),
      (js "conversions", (list conversion).encode receipt.conversions),
      (js "verificationRefs", (list text).encode receipt.verificationRefs),
      (js "rollback", rollback.encode receipt.rollback),
      (js "createdAt", text.encode receipt.createdAt),
      (js "updatedAt", text.encode receipt.updatedAt)]
  optional := []

def decodeMigration (members : Members) : Option MigrationReceipt := do
  constant (js "contractVersion") (js "1.1.0") members
  constant (js "stateContract") (js "1.1.0") members
  let migrationId ← field text (js "migrationId") members
  let sourceContract ← field sourceContract (js "sourceContract") members
  constant (js "destinationContract") (js "1.1.0") members
  let planDigest ← field text (js "planDigest") members
  let authorizationRef ← field text (js "authorizationRef") members
  let backupDigest ← field text (js "backupDigest") members
  let status ← field migrationStatus (js "status") members
  let conversions ← field (list conversion) (js "conversions") members
  let verificationRefs ← field (list text) (js "verificationRefs") members
  let rollback ← field rollback (js "rollback") members
  let createdAt ← field text (js "createdAt") members
  let updatedAt ← field text (js "updatedAt") members
  pure ⟨migrationId, sourceContract, planDigest, authorizationRef, backupDigest, status,
    conversions, verificationRefs, rollback, createdAt, updatedAt⟩

def migrationReceipt : Codec MigrationReceipt :=
  record migrationKeys migrationShape decodeMigration (fun _ => rfl) (by
    intro receipt members agree
    have distinct : (migrationShape receipt).keys.Nodup := (by decide : migrationKeys.Nodup)
    simp only [decodeMigration, constant, field_at text agree distinct 0 rfl,
      field_at text agree distinct 1 rfl, field_at text agree distinct 2 rfl,
      field_at sourceContract agree distinct 3 rfl, field_at text agree distinct 4 rfl,
      field_at text agree distinct 5 rfl, field_at text agree distinct 6 rfl,
      field_at text agree distinct 7 rfl, field_at migrationStatus agree distinct 8 rfl,
      field_at (list conversion) agree distinct 9 rfl, field_at (list text) agree distinct 10 rfl,
      field_at rollback agree distinct 11 rfl, field_at text agree distinct 12 rfl,
      field_at text agree distinct 13 rfl, Option.bind_eq_bind, Option.bind_some, if_true]
    rfl)

def validConversion (conversion : Conversion) : Bool :=
  idPattern conversion.payloadContract && sha256Pattern conversion.sourceDigest &&
    sha256Pattern conversion.destinationDigest

def validRollback : MigrationRollback → Bool
  | .copy backupRef destinationRef => referencePattern backupRef && referencePattern destinationRef
  | .replace backupRef backupDigest destinationRef destinationDigest =>
      referencePattern backupRef && sha256Pattern backupDigest && referencePattern destinationRef &&
        sha256Pattern destinationDigest

/-- What the schema asks of the members of a receipt. -/
def validMigration (receipt : MigrationReceipt) : Bool :=
  idPattern receipt.migrationId && sha256Pattern receipt.planDigest &&
    referencePattern receipt.authorizationRef && sha256Pattern receipt.backupDigest &&
    !receipt.conversions.isEmpty && receipt.conversions.all validConversion &&
    receipt.verificationRefs.all referencePattern && decide receipt.verificationRefs.Nodup &&
    validRollback receipt.rollback && timestampPattern receipt.createdAt &&
    timestampPattern receipt.updatedAt

/-- `registry.validate` of a migration document whose state contract is 1.1.0. -/
def validateMigration (value : Json) : Option MigrationReceipt :=
  (migrationReceipt.decode value).bind fun receipt =>
    if validMigration receipt then some receipt else none

end Reading

end Kratos.Migration
