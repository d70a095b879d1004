/- source: schemas/state/transaction-progress.v1.schema.json, schemas/state/transaction-manifest.v1.schema.json
   digest: The progress and the manifest of a transaction as stored texts, and what reading them accepts. -/

import Kratos.Transactions.Recovery

set_option autoImplicit false

namespace Kratos.Transactions

open Foundation.Text Foundation.JsonText Patterns Schema Durable Locks.Guard

section Stored

/-- A JSON document with the schema it is validated against. -/
structure Document (α : Type) where
  codec : Codec α
  valid : α → Bool
  formed : ∀ a, valid a = true → WellFormed (codec.encode a)

variable {α : Type}

/-- The value as it is persisted, its line break included. -/
def Document.text (document : Document α) (a : α) : JsString :=
  canonicalizeJson (document.codec.encode a) ++ js "\n"

/-- `parseCanonicalJson`; `none` is a corrupt document. -/
def parseCanonicalJson (text : JsString) : Option Json :=
  (parse text).bind fun parsed =>
    if text ≠ canonicalizeJson parsed ++ js "\n" then none else some parsed

/-- `schemaRegistry.validate` of a parsed value. -/
def Document.validate (document : Document α) (value : Json) : Option α :=
  (document.codec.decode value).bind fun a => if document.valid a then some a else none

def Document.read (document : Document α) (text : JsString) : Option α :=
  (parseCanonicalJson text).bind document.validate

theorem Document.read_text (document : Document α) {a : α} (valid : document.valid a = true) :
    document.read (document.text a) = some a := by
  have formed := document.formed a valid
  have lineBreak : Blank (js "\n") := List.all_iff_forall_prop.mp (by decide)
  have parsed := parse_canonicalizeJson formed lineBreak
  have decoded := document.codec.decode_same a _ (sameValue_canonicalForm _)
  rw [Document.read, Document.text, parseCanonicalJson, parsed, Option.bind_some,
    canonicalizeJson_canonicalForm, if_neg (fun different => different rfl), Option.bind_some,
    Document.validate, decoded, Option.bind_some, if_pos valid]

end Stored

section Progress

inductive DirectorySync
  | notAttempted | supported | unsupported
  deriving DecidableEq, Repr

def phaseText : TransactionPhase → JsString
  | .begun => js "begun"
  | .prepared => js "prepared"
  | .publishing => js "publishing"
  | .committed => js "committed"
  | .aborted => js "aborted"

def transactionPhase : Codec TransactionPhase :=
  enumeration [.begun, .prepared, .publishing, .committed, .aborted] phaseText
    (by intro phase; cases phase <;> decide) (by decide)

def directorySyncText : DirectorySync → JsString
  | .notAttempted => js "not_attempted"
  | .supported => js "supported"
  | .unsupported => js "unsupported"

def directorySync : Codec DirectorySync :=
  enumeration [.notAttempted, .supported, .unsupported] directorySyncText
    (by intro sync; cases sync <;> decide) (by decide)

/-- `TransactionProgressV1`, its constant members apart. -/
structure TransactionProgressV1 extends TransactionProgress where
  directorySync : DirectorySync
  updatedAt : JsString
  deriving DecidableEq, Repr

def progressKeys : List JsString :=
  [js "contractVersion", js "stateContract", js "transactionId", js "manifestDigest",
    js "recoveryToken", js "phase", js "publishedOperationIds", js "fileSync", js "directorySync",
    js "createdAt", js "updatedAt"]

def progressShape (progress : TransactionProgressV1) : Shape where
  required :=
    [(js "contractVersion", text.encode (js "1.0.0")),
      (js "stateContract", text.encode (js "1.0.0")),
      (js "transactionId", text.encode progress.transactionId),
      (js "manifestDigest", Events.nullableText.encode progress.manifestDigest),
      (js "recoveryToken", text.encode progress.recoveryToken),
      (js "phase", transactionPhase.encode progress.phase),
      (js "publishedOperationIds", (list text).encode progress.publishedOperationIds),
      (js "fileSync", text.encode (js "required")),
      (js "directorySync", directorySync.encode progress.directorySync),
      (js "createdAt", text.encode progress.createdAt),
      (js "updatedAt", text.encode progress.updatedAt)]
  optional := []

def decodeProgress (members : Members) : Option TransactionProgressV1 := do
  let version ← field text (js "contractVersion") members
  let contract ← field text (js "stateContract") members
  let transactionId ← field text (js "transactionId") members
  let manifestDigest ← field Events.nullableText (js "manifestDigest") members
  let recoveryToken ← field text (js "recoveryToken") members
  let phase ← field transactionPhase (js "phase") members
  let publishedOperationIds ← field (list text) (js "publishedOperationIds") members
  let fileSync ← field text (js "fileSync") members
  let directorySync ← field directorySync (js "directorySync") members
  let createdAt ← field text (js "createdAt") members
  let updatedAt ← field text (js "updatedAt") members
  if version = js "1.0.0" ∧ contract = js "1.0.0" ∧ fileSync = js "required" then
    pure
      { transactionId, manifestDigest, recoveryToken, phase, publishedOperationIds, directorySync,
        createdAt, updatedAt }
  else none

def transactionProgress : Codec TransactionProgressV1 :=
  record progressKeys progressShape decodeProgress (fun _ => rfl) (by
    intro progress members agree
    have distinct : (progressShape progress).keys.Nodup := (by decide : progressKeys.Nodup)
    simp only [decodeProgress, field_at text agree distinct 0 rfl, field_at text agree distinct 1
      rfl, field_at text agree distinct 2 rfl, field_at Events.nullableText agree distinct 3 rfl,
      field_at text agree distinct 4 rfl, field_at transactionPhase agree distinct 5 rfl,
      field_at (list text) agree distinct 6 rfl, field_at text agree distinct 7 rfl,
      field_at directorySync agree distinct 8 rfl, field_at text agree distinct 9 rfl,
      field_at text agree distinct 10 rfl, Option.bind_eq_bind, Option.bind_some, and_self, if_true]
    rfl)

/-- Whether a digest may stand beside a phase. -/
def digestAtPhase (phase : TransactionPhase) (manifestDigest : Option JsString) : Bool :=
  match phase with
  | .begun => manifestDigest.isNone
  | .prepared | .publishing | .committed => manifestDigest.isSome
  | .aborted => true

def validProgress (progress : TransactionProgressV1) : Bool :=
  idPattern progress.transactionId && progress.manifestDigest.all sha256Pattern &&
    sha256Pattern progress.recoveryToken && progress.publishedOperationIds.all idPattern &&
    decide progress.publishedOperationIds.Nodup && timestampPattern progress.createdAt &&
    timestampPattern progress.updatedAt && digestAtPhase progress.phase progress.manifestDigest

theorem wellFormed_progress (progress : TransactionProgressV1) :
    WellFormed (transactionProgress.encode progress) := by
  have distinct : (progressShape progress).keys.Nodup := (by decide : progressKeys.Nodup)
  refine wellFormed_shape distinct ?_ (by intro entry member; cases member)
  have digest : WellFormed (Events.nullableText.encode progress.manifestDigest) :=
    wellFormed_nullable fun _ _ => wellFormed_text _
  have published : WellFormed ((list text).encode progress.publishedOperationIds) :=
    wellFormed_list fun _ _ => wellFormed_text _
  simp only [progressShape, List.forall_mem_cons, List.not_mem_nil, false_implies, implies_true,
    and_true]
  exact ⟨wellFormed_text _, wellFormed_text _, wellFormed_text _, digest, wellFormed_text _,
    wellFormed_enumeration _, published, wellFormed_text _, wellFormed_enumeration _,
    wellFormed_text _, wellFormed_text _⟩

def progressDocument : Document TransactionProgressV1 where
  codec := transactionProgress
  valid := validProgress
  formed progress _ := wellFormed_progress progress

end Progress

section Manifest

inductive FingerprintKind
  | missing | directory | file
  deriving DecidableEq, Repr

def fingerprintKindText : FingerprintKind → JsString
  | .missing => js "missing"
  | .directory => js "directory"
  | .file => js "file"

def fingerprintKind : Codec FingerprintKind :=
  enumeration [.missing, .directory, .file] fingerprintKindText
    (by intro kind; cases kind <;> decide) (by decide)

def fingerprintKeys : List JsString := [js "kind", js "size", js "sha256"]

def kindOf : PathFingerprint → FingerprintKind
  | .missing => .missing
  | .directory => .directory
  | .file _ _ => .file

def sizeOf : PathFingerprint → Option Nat
  | .file size _ => some size
  | .missing | .directory => none

def digestOf : PathFingerprint → Option JsString
  | .file _ sha256 => some sha256
  | .missing | .directory => none

def fingerprintShape (fingerprint : PathFingerprint) : Shape where
  required := [(js "kind", fingerprintKind.encode (kindOf fingerprint))]
  optional :=
    [(js "size", (sizeOf fingerprint).map natural.encode),
      (js "sha256", (digestOf fingerprint).map text.encode)]

def decodeFingerprint (members : Members) : Option PathFingerprint := do
  let kind ← field fingerprintKind (js "kind") members
  let size ← optionalField natural (js "size") members
  let sha256 ← optionalField text (js "sha256") members
  match kind, size, sha256 with
  | .missing, none, none => some .missing
  | .directory, none, none => some .directory
  | .file, some size, some sha256 => some (.file size sha256)
  | _, _, _ => none

def pathFingerprint : Codec PathFingerprint :=
  record fingerprintKeys fingerprintShape decodeFingerprint (fun _ => rfl) (by
    intro fingerprint members agree
    have distinct : (fingerprintShape fingerprint).keys.Nodup := (by decide : fingerprintKeys.Nodup)
    simp only [decodeFingerprint, field_at fingerprintKind agree distinct 0 rfl,
      optionalField_at natural agree distinct 0 rfl, optionalField_at text agree distinct 1 rfl,
      Option.bind_eq_bind, Option.bind_some]
    cases fingerprint <;> rfl)

def persistedKindText : PersistedKind → JsString
  | .createDirectory => js "create_directory"
  | .writeFile => js "write_file"
  | .deleteFile => js "delete_file"

def persistedKind : Codec PersistedKind :=
  enumeration [.createDirectory, .writeFile, .deleteFile] persistedKindText
    (by intro kind; cases kind <;> decide) (by decide)

def operationKeys : List JsString :=
  [js "operationId", js "kind", js "path", js "expected", js "result", js "stagedPath"]

def operationShape (operation : PersistedOperation) : Shape where
  required :=
    [(js "operationId", text.encode operation.operationId),
      (js "kind", persistedKind.encode operation.kind),
      (js "path", text.encode operation.path),
      (js "expected", pathFingerprint.encode operation.expected),
      (js "result", pathFingerprint.encode operation.result),
      (js "stagedPath", Events.nullableText.encode operation.stagedPath)]
  optional := []

def decodeOperation (members : Members) : Option PersistedOperation := do
  let operationId ← field text (js "operationId") members
  let kind ← field persistedKind (js "kind") members
  let path ← field text (js "path") members
  let expected ← field pathFingerprint (js "expected") members
  let result ← field pathFingerprint (js "result") members
  let stagedPath ← field Events.nullableText (js "stagedPath") members
  some ⟨operationId, kind, path, expected, result, stagedPath⟩

def persistedOperation : Codec PersistedOperation :=
  record operationKeys operationShape decodeOperation (fun _ => rfl) (by
    intro operation members agree
    have distinct : (operationShape operation).keys.Nodup := (by decide : operationKeys.Nodup)
    simp only [decodeOperation, field_at text agree distinct 0 rfl, field_at persistedKind agree
      distinct 1 rfl, field_at text agree distinct 2 rfl, field_at pathFingerprint agree distinct 3
      rfl, field_at pathFingerprint agree distinct 4 rfl, field_at Events.nullableText agree
      distinct 5 rfl, Option.bind_eq_bind, Option.bind_some])

/-- `TransactionManifestV1`, its constant members apart. -/
structure TransactionManifestV1 extends TransactionManifest where
  planDigest : JsString
  deriving DecidableEq, Repr

def manifestKeys : List JsString :=
  [js "contractVersion", js "stateContract", js "transactionId", js "planDigest", js "createdAt",
    js "operations"]

def manifestShape (manifest : TransactionManifestV1) : Shape where
  required :=
    [(js "contractVersion", text.encode (js "1.0.0")),
      (js "stateContract", text.encode (js "1.0.0")),
      (js "transactionId", text.encode manifest.transactionId),
      (js "planDigest", text.encode manifest.planDigest),
      (js "createdAt", text.encode manifest.createdAt),
      (js "operations", (list persistedOperation).encode manifest.operations)]
  optional := []

def decodeManifest (members : Members) : Option TransactionManifestV1 := do
  let version ← field text (js "contractVersion") members
  let contract ← field text (js "stateContract") members
  let transactionId ← field text (js "transactionId") members
  let planDigest ← field text (js "planDigest") members
  let createdAt ← field text (js "createdAt") members
  let operations ← field (list persistedOperation) (js "operations") members
  if version = js "1.0.0" ∧ contract = js "1.0.0" then
    pure { transactionId, createdAt, operations, planDigest }
  else none

def transactionManifest : Codec TransactionManifestV1 :=
  record manifestKeys manifestShape decodeManifest (fun _ => rfl) (by
    intro manifest members agree
    have distinct : (manifestShape manifest).keys.Nodup := (by decide : manifestKeys.Nodup)
    simp only [decodeManifest, field_at text agree distinct 0 rfl, field_at text agree distinct 1
      rfl, field_at text agree distinct 2 rfl, field_at text agree distinct 3 rfl, field_at text
      agree distinct 4 rfl, field_at (list persistedOperation) agree distinct 5 rfl,
      Option.bind_eq_bind, Option.bind_some, and_self, if_true]
    rfl)

/-- A payload is staged for a written file and for nothing else. -/
def stagedByKind (kind : PersistedKind) (stagedPath : Option JsString) : Bool :=
  match kind with
  | .writeFile => stagedPath.any referencePattern
  | .createDirectory | .deleteFile => stagedPath.isNone

def validOperation (operation : PersistedOperation) : Bool :=
  idPattern operation.operationId && referencePattern operation.path &&
    validFingerprint operation.expected && validFingerprint operation.result &&
    stagedByKind operation.kind operation.stagedPath

def validManifest (manifest : TransactionManifestV1) : Bool :=
  idPattern manifest.transactionId && sha256Pattern manifest.planDigest &&
    timestampPattern manifest.createdAt && !manifest.operations.isEmpty &&
    manifest.operations.all validOperation

theorem wellFormed_fingerprint {fingerprint : PathFingerprint}
    (valid : validFingerprint fingerprint = true) :
    WellFormed (pathFingerprint.encode fingerprint) := by
  have distinct : (fingerprintShape fingerprint).keys.Nodup := (by decide : fingerprintKeys.Nodup)
  refine wellFormed_shape distinct ?_ ?_
  · simp only [fingerprintShape, List.forall_mem_cons, List.not_mem_nil, false_implies,
      implies_true, and_true]
    exact wellFormed_enumeration _
  · intro entry member json held
    simp only [fingerprintShape, List.mem_cons, List.not_mem_nil, or_false] at member
    rcases member with rfl | rfl
    · obtain ⟨size, sized, rfl⟩ := Option.map_eq_some_iff.mp held
      cases fingerprint with
      | file bytes sha256 =>
          cases sized
          simp only [validFingerprint, Bool.and_eq_true, decide_eq_true_eq] at valid
          exact wellFormed_natural valid.1
      | missing => cases sized
      | directory => cases sized
    · obtain ⟨sha256, -, rfl⟩ := Option.map_eq_some_iff.mp held
      exact wellFormed_text _

theorem wellFormed_operation {operation : PersistedOperation}
    (expected : validFingerprint operation.expected = true)
    (result : validFingerprint operation.result = true) :
    WellFormed (persistedOperation.encode operation) := by
  have distinct : (operationShape operation).keys.Nodup := (by decide : operationKeys.Nodup)
  refine wellFormed_shape distinct ?_ (by intro entry member; cases member)
  have staged : WellFormed (Events.nullableText.encode operation.stagedPath) :=
    wellFormed_nullable fun _ _ => wellFormed_text _
  simp only [operationShape, List.forall_mem_cons, List.not_mem_nil, false_implies, implies_true,
    and_true]
  exact ⟨wellFormed_text _, wellFormed_enumeration _, wellFormed_text _,
    wellFormed_fingerprint expected, wellFormed_fingerprint result, staged⟩

theorem wellFormed_manifest {manifest : TransactionManifestV1}
    (valid : validManifest manifest = true) :
    WellFormed (transactionManifest.encode manifest) := by
  simp only [validManifest, Bool.and_eq_true, List.all_eq_true] at valid
  have distinct : (manifestShape manifest).keys.Nodup := (by decide : manifestKeys.Nodup)
  refine wellFormed_shape distinct ?_ (by intro entry member; cases member)
  have operations : WellFormed ((list persistedOperation).encode manifest.operations) := by
    refine wellFormed_list fun operation member => ?_
    have fits := valid.2 operation member
    simp only [validOperation, Bool.and_eq_true] at fits
    exact wellFormed_operation fits.1.1.2 fits.1.2
  simp only [manifestShape, List.forall_mem_cons, List.not_mem_nil, false_implies, implies_true,
    and_true]
  exact ⟨wellFormed_text _, wellFormed_text _, wellFormed_text _, wellFormed_text _,
    wellFormed_text _, operations⟩

def manifestDocument : Document TransactionManifestV1 where
  codec := transactionManifest
  valid := validManifest
  formed _ valid := wellFormed_manifest valid

end Manifest

end Kratos.Transactions
