/- source: composition/migration.ts
   digest: The numbers of prior attempts, and which of their files the check accepts. -/

import Kratos.Foundation.Sorting
import Kratos.Migration.Documents

set_option autoImplicit false

namespace Kratos.Migration

open Foundation.Text Foundation.JsonText Foundation.Lines Foundation.Runs Foundation.Sorting
open Patterns Durable Schema

section Numbers

variable {base : JsString}

private theorem attemptSuffix_decimal {attempt : Nat} (later : 2 ≤ attempt) :
    attemptSuffix (decimal attempt) = true := by
  by_cases single : attempt < 10
  · have listed : ∀ n < 10, 2 ≤ n → attemptSuffix [digitUnit n] = true := by decide
    rw [decimal_of_lt single]
    exact listed attempt single later
  · obtain ⟨first, rest, shape, nonzero⟩ := decimal_head (by omega : 0 < attempt)
    have digits := decimal_digits attempt
    rw [shape, List.forall_mem_cons] at digits
    cases rest with
    | nil =>
        have value := digitsValue_decimal attempt
        have bound : digitsValue [first] ≤ 9 := by
          have digit := digits.1
          simp only [isDigit, between, Bool.and_eq_true, decide_eq_true_eq] at digit
          simp only [digitsValue, List.foldl_cons, List.foldl_nil]
          have most : ('9' : Char).toNat = 0x39 := rfl
          omega
        rw [shape] at value
        omega
    | cons second rest =>
        rw [shape]
        show (isDigit first && first != unit '0' && (second :: rest).all isDigit) = true
        rw [digits.1, Bool.true_and, Bool.and_eq_true, bne_iff_ne, List.all_eq_true]
        exact ⟨nonzero, digits.2⟩

theorem attemptOf_attemptId {attempt : Nat} (positive : 1 ≤ attempt) :
    attemptOf base (attemptId base attempt) = some (some attempt) := by
  unfold attemptId
  split
  · rename_i first
    rw [attemptOf, if_pos rfl, first]
  · rename_i later
    have longer : base ++ js "-attempt-" ++ decimal attempt ≠ base := by
      intro same
      have length := congrArg List.length same
      have mark : (js "-attempt-").length = 9 := by decide
      rw [List.length_append, List.length_append] at length
      omega
    rw [attemptOf, if_neg longer, startsWith_append]
    simp only [Bool.not_true, Bool.false_eq_true, if_false, List.drop_left,
      attemptSuffix_decimal (by omega : 2 ≤ attempt), digitsValue_decimal]

/-- The entries of a directory that hold the attempts up to a number and no other. -/
def Numbered (base : JsString) (entries : List JsString) (count : Nat) : Prop :=
  (∀ attempt, 1 ≤ attempt → attempt ≤ count → attemptId base attempt ∈ entries) ∧
    ∀ entry ∈ entries, attemptOf base entry = none ∨
      ∃ attempt, 1 ≤ attempt ∧ attempt ≤ count ∧ entry = attemptId base attempt

private theorem sorted_range {numbers : List Nat} {count : Nat} (unique : numbers.Nodup)
    (complete : ∀ n, n ∈ numbers ↔ 1 ≤ n ∧ n ≤ count) :
    numbers.mergeSort (fun left right => decide (left ≤ right)) = List.range' 1 count := by
  have same : (numbers.mergeSort fun left right => decide (left ≤ right)).Perm (List.range' 1 count) := by
    refine (List.mergeSort_perm _ _).trans ((List.perm_ext_iff_of_nodup unique List.nodup_range').mpr ?_)
    intro n
    rw [complete, List.mem_range'_1]
    omega
  have left : (numbers.mergeSort fun left right => decide (left ≤ right)).Pairwise (· ≤ ·) := by
    have trans : ∀ a b c : Nat, decide (a ≤ b) = true → decide (b ≤ c) = true →
        decide (a ≤ c) = true := by
      intro a b c first second
      exact decide_eq_true (Nat.le_trans (of_decide_eq_true first) (of_decide_eq_true second))
    have total : ∀ a b : Nat, (decide (a ≤ b) || decide (b ≤ a)) = true := by
      intro a b
      simpa using Nat.le_total a b
    exact (List.pairwise_mergeSort trans total numbers).imp of_decide_eq_true
  exact same.eq_of_pairwise (fun _ _ _ _ => Nat.le_antisymm) left (List.pairwise_le_range' 1)

theorem lineageOf_numbered {entries : List JsString} {count : Nat}
    (numbered : Numbered base entries count) : lineageOf base entries = some (List.range' 1 count) := by
  have shape : entries.eraseDups.filterMap (attemptOf base) =
      (entries.eraseDups.filterMap fun entry => (attemptOf base entry).bind id).map some := by
    rw [List.map_filterMap]
    refine List.filterMap_congr fun entry member => ?_
    rcases numbered.2 entry (List.mem_eraseDups.mp member) with other | ⟨attempt, positive, -, rfl⟩
    · rw [other]
      rfl
    · rw [attemptOf_attemptId positive]
      rfl
  have unique : (entries.eraseDups.filterMap fun entry => (attemptOf base entry).bind id).Nodup := by
    rw [List.Nodup, List.pairwise_filterMap]
    refine (nodup_eraseDups entries).imp_of_mem ?_
    rintro left right leftIn rightIn different a first b second rfl
    rcases numbered.2 left (List.mem_eraseDups.mp leftIn) with other | ⟨i, positive, -, rfl⟩
    · rw [other] at first
      cases first
    · rcases numbered.2 right (List.mem_eraseDups.mp rightIn) with other | ⟨j, least, -, rfl⟩
      · rw [other] at second
        cases second
      · rw [attemptOf_attemptId positive] at first
        rw [attemptOf_attemptId least] at second
        obtain rfl := Option.some.inj first
        obtain rfl := Option.some.inj second
        exact different rfl
  have complete : ∀ n, n ∈ (entries.eraseDups.filterMap fun entry => (attemptOf base entry).bind id) ↔
      1 ≤ n ∧ n ≤ count := by
    intro n
    rw [List.mem_filterMap]
    constructor
    · rintro ⟨entry, member, read⟩
      rcases numbered.2 entry (List.mem_eraseDups.mp member) with other | ⟨i, positive, bounded, rfl⟩
      · rw [other] at read
        cases read
      · rw [attemptOf_attemptId positive] at read
        obtain rfl := Option.some.inj read
        exact ⟨positive, bounded⟩
    · rintro ⟨positive, bounded⟩
      exact ⟨attemptId base n, List.mem_eraseDups.mpr (numbered.1 n positive bounded), by
        rw [attemptOf_attemptId positive]; rfl⟩
  have read : ∀ numbers : List Nat, (numbers.map some).mapM id = some numbers := by
    intro numbers
    induction numbers with
    | nil => rfl
    | cons n rest ih =>
        rw [List.map_cons, List.mapM_cons, ih]
        rfl
  rw [lineageOf, shape, read, Option.map_some, sorted_range unique complete]

theorem consecutive_range {count : Nat} (bounded : count ≤ maxConfigMigrationAttempts) :
    consecutive (List.range' 1 count) = true := by
  rw [consecutive, List.all_eq_true]
  rintro ⟨attempt, index⟩ member
  rw [List.mem_zipIdx_iff_getElem?] at member
  obtain ⟨inside, value⟩ := List.getElem?_eq_some_iff.mp member
  rw [List.getElem_range'] at value
  rw [List.length_range'] at inside
  simp only [Bool.and_eq_true, decide_eq_true_eq, beq_iff_eq]
  omega

end Numbers

section Reading

variable {sha256 : JsString → JsString} {files : MigrationFileSystem} {input : ConfigInput}

theorem readStableFile_file_iff {path : JsString} {observed : ObservedFile} :
    readStableFile sha256 files path = .ok (.file observed) ↔
      files.inspect path = some (.file observed.size observed.sha256) ∧
        files.readText path = some observed.content ∧
          utf8Length observed.content = observed.size ∧ sha256 observed.content = observed.sha256 := by
  constructor
  · intro read
    unfold readStableFile at read
    split at read
    · cases read
    · cases read
    · rename_i size digest entry
      split at read
      · cases read
      · rename_i content held
        split at read
        · cases read
        · rename_i stable
          cases read
          rw [not_or, not_not, not_not] at stable
          exact ⟨entry, held, stable⟩
    · cases read
    · cases read
    · cases read
  · rintro ⟨entry, held, size, digest⟩
    rw [readStableFile, entry]
    simp only [held]
    rw [if_neg (by rw [not_or, not_not, not_not]; exact ⟨size, digest⟩)]

theorem readStableFile_stored {storage : Storage} {path content : JsString}
    (stored : storage.find path = some (.file content)) :
    readStableFile sha256 (storedFiles sha256 storage) path =
      .ok (.file ⟨content, utf8Length content, sha256 content⟩) := by
  refine readStableFile_file_iff.mpr ⟨?_, ?_, rfl, rfl⟩
  · show some (Node.entry sha256 (storage.find path)) = _
    rw [stored]
    rfl
  · show Node.text (storage.find path) = _
    rw [stored]
    rfl

private theorem collectPriorAttempt_ok_iff {root : JsString}
    {authorization backup receipt rollback verification : StableFileObservation}
    {prior : PriorAttemptFiles} :
    collectPriorAttempt root authorization backup receipt rollback verification = .ok prior ↔
      authorization = .file prior.authorization ∧ backup = .file prior.backup ∧
        receipt = .file prior.receipt ∧ rollback = .file prior.rollback ∧
          verification = .file prior.verification := by
  constructor
  · intro collected
    unfold collectPriorAttempt at collected
    split at collected
    · cases collected
      exact ⟨rfl, rfl, rfl, rfl, rfl⟩
    · split at collected <;> cases collected
  · rintro ⟨rfl, rfl, rfl, rfl, rfl⟩
    rfl

theorem readPriorAttemptFiles_ok_iff {migrationId : JsString} {prior : PriorAttemptFiles} :
    readPriorAttemptFiles sha256 files migrationId = .ok prior ↔
      ∀ file, readStableFile sha256 files (auditPath migrationId file) =
        .ok (.file (prior.get file)) := by
  simp only [readPriorAttemptFiles, bind_ok_iff, collectPriorAttempt_ok_iff]
  constructor
  · rintro ⟨_, authorization, _, backup, _, receipt, _, rollback, _, verification, rfl, rfl, rfl, rfl,
      rfl⟩ file
    cases file with
    | authorization => exact authorization
    | backup => exact backup
    | receipt => exact receipt
    | rollback => exact rollback
    | verification => exact verification
  · intro read
    exact ⟨_, read .authorization, _, read .backup, _, read .receipt, _, read .rollback, _,
      read .verification, rfl, rfl, rfl, rfl, rfl⟩

theorem parseOr_ok_iff {failure : MigrationFailure} {content : JsString} {value : Json} :
    parseOr failure content = .ok value ↔ parse content = some value := by
  unfold parseOr
  split
  · rename_i found read
    rw [read, Except.ok.injEq, Option.some.injEq]
  · rename_i none
    rw [none]
    simp

end Reading

section Checking

variable (sha256 : JsString → JsString) (input : ConfigInput)

/-- The document of an audit file of an attempt; the backup is none. -/
def auditDocument (receipt : MigrationReceipt) (migrationId planTime : JsString) :
    AuditFile → Option Json
  | .authorization => some (authorizationJson sha256 input migrationId planTime)
  | .backup => none
  | .receipt => some (migrationReceipt.encode receipt)
  | .rollback => some (rollbackManifestJson receipt)
  | .verification =>
      some (verificationJson migrationId (receiptPlanDigest sha256 input migrationId planTime)
        (auditPath migrationId .backup) (input.sourceDigest sha256) configRef
        (input.destinationDigest sha256) planTime)

theorem wellFormed_auditDocument {receipt : MigrationReceipt} {migrationId planTime : JsString}
    {file : AuditFile} {value : Json}
    (document : auditDocument sha256 input receipt migrationId planTime file = some value) :
    WellFormed value := by
  cases file with
  | authorization =>
      cases document
      exact wellFormed_authorization sha256 input migrationId planTime
  | backup => cases document
  | receipt =>
      cases document
      exact wellFormed_receipt receipt
  | rollback =>
      cases document
      exact wellFormed_rollbackManifest receipt
  | verification =>
      cases document
      exact wellFormed_verification migrationId _ _ _ _ _ planTime

/-- The files of an attempt that was planned and rolled back at these times. -/
structure AttemptFiles (files : MigrationFileSystem) (migrationId planTime rollbackTime : JsString)
    (prior : PriorAttemptFiles) : Prop where
  read : ∀ file, readStableFile sha256 files (auditPath migrationId file) =
    .ok (.file (prior.get file))
  documents : ∀ file value,
    auditDocument sha256 input (settledReceipt sha256 input .rolledBack migrationId planTime
      rollbackTime) migrationId planTime file = some value →
    ∃ parsed, parse (prior.get file).content = some parsed ∧ SameValue parsed value
  backup : prior.backup.content = input.sourceContent
  valid : validMigration (settledReceipt sha256 input .rolledBack migrationId planTime
    rollbackTime) = true

def attemptGuards (migrationId : JsString) (prior : PriorAttemptFiles) : List ConfigAttemptGuard :=
  auditFiles.map fun file =>
    ⟨auditPath migrationId file, (prior.get file).content, expectedFile (prior.get file)⟩

variable {sha256 input} {files : MigrationFileSystem} {migrationId : JsString}

private theorem isRecord_same {value : Json} {members : Members}
    (same : SameValue value (.object members)) : isRecord value = true := by
  obtain ⟨shown, rfl, -⟩ := sameValue_object same
  rfl

theorem validateMigration_iff {value : Json} {receipt : MigrationReceipt} :
    validateMigration value = some receipt ↔
      migrationReceipt.decode value = some receipt ∧ validMigration receipt = true := by
  rw [validateMigration, Option.bind_eq_some_iff]
  constructor
  · rintro ⟨found, decoded, accepted⟩
    split at accepted
    · rename_i valid
      cases accepted
      exact ⟨decoded, valid⟩
    · cases accepted
  · rintro ⟨decoded, valid⟩
    exact ⟨receipt, decoded, if_pos valid⟩

private theorem validConfigVerificationAt_settled {verification : Json}
    (formed : WellFormed verification) {planTime rollbackTime verifiedAt : JsString} :
    validConfigVerificationAt verification
        (settledReceipt sha256 input .rolledBack migrationId planTime rollbackTime) verifiedAt = true ↔
      SameValue verification
        (verificationJson migrationId (receiptPlanDigest sha256 input migrationId planTime)
          (auditPath migrationId .backup) (input.sourceDigest sha256) configRef
          (input.destinationDigest sha256) verifiedAt) := by
  show (isRecord verification && sameJson verification (verificationJson migrationId
    (receiptPlanDigest sha256 input migrationId planTime) (auditPath migrationId .backup)
    (input.sourceDigest sha256) configRef (input.destinationDigest sha256) verifiedAt)) = true ↔ _
  rw [Bool.and_eq_true, sameJson_iff formed (wellFormed_verification _ _ _ _ _ _ _)]
  exact ⟨And.right, fun same => ⟨isRecord_same same, same⟩⟩

private theorem attemptAgrees_iff {receipt : MigrationReceipt}
    {authorization rawReceipt manifest verification : Json} {backup : ObservedFile}
    (authorizationFormed : WellFormed authorization) (receiptFormed : WellFormed rawReceipt)
    (manifestFormed : WellFormed manifest) (verificationFormed : WellFormed verification)
    (decoded : migrationReceipt.decode rawReceipt = some receipt) :
    attemptAgrees sha256 input migrationId receipt authorization rawReceipt manifest verification
        backup = true ↔
      ∃ planTime rollbackTime,
        receipt = settledReceipt sha256 input .rolledBack migrationId planTime rollbackTime ∧
          SameValue rawReceipt (migrationReceipt.encode receipt) ∧
          SameValue authorization (authorizationJson sha256 input migrationId planTime) ∧
          SameValue manifest (rollbackManifestJson receipt) ∧
          SameValue verification
            (verificationJson migrationId (receiptPlanDigest sha256 input migrationId planTime)
              (auditPath migrationId .backup) (input.sourceDigest sha256) configRef
              (input.destinationDigest sha256) planTime) ∧
          backup.content = input.sourceContent ∧ backup.sha256 = input.sourceDigest sha256 := by
  simp only [attemptAgrees, validConfigRollbackManifest, Bool.and_eq_true, beq_iff_eq,
    rolledBackReceipt_eq, Option.any_some, sameJson_iff receiptFormed (wellFormed_receipt _),
    sameJson_iff authorizationFormed (wellFormed_authorization _ _ _ _),
    sameJson_iff manifestFormed (wellFormed_rollbackManifest _)]
  constructor
  · rintro ⟨⟨⟨⟨⟨⟨planDigest, received⟩, authorized⟩, -, reverted⟩, verified⟩, content⟩, digest⟩
    have settled : receipt = settledReceipt sha256 input .rolledBack migrationId receipt.createdAt
        receipt.updatedAt := by
      have read := migrationReceipt.decode_same _ _ received
      rw [decoded] at read
      exact Option.some.inj read
    rw [settled] at verified
    exact ⟨receipt.createdAt, receipt.updatedAt, settled, settled ▸ received, authorized, reverted,
      (validConfigVerificationAt_settled verificationFormed).mp verified, content, digest⟩
  · rintro ⟨planTime, rollbackTime, rfl, received, authorized, reverted, verified, content, digest⟩
    exact ⟨⟨⟨⟨⟨⟨rfl, received⟩, authorized⟩, isRecord_same reverted, reverted⟩,
      (validConfigVerificationAt_settled verificationFormed).mpr verified⟩, content⟩, digest⟩

/-- The check of an attempt accepts the files of an attempt that was rolled back, and no other. -/
theorem observePriorConfigAttempt_ok_iff {guards : List ConfigAttemptGuard} :
    observePriorConfigAttempt sha256 files input migrationId = .ok guards ↔
      ∃ planTime rollbackTime prior,
        AttemptFiles sha256 input files migrationId planTime rollbackTime prior ∧
          guards = attemptGuards migrationId prior := by
  simp only [observePriorConfigAttempt, bind_ok_iff, parseOr_ok_iff, readPriorAttemptFiles_ok_iff]
  constructor
  · rintro ⟨prior, read, authorization, authorized, rawReceipt, received, manifest, reverted,
      verification, verified, receipt, validated, checked⟩
    rw [readAttemptReceipt] at validated
    split at validated
    · cases validated
    · rename_i found accepted
      rw [guard_ok_iff, Except.ok.injEq] at validated
      obtain ⟨-, rfl⟩ := validated
      obtain ⟨decoded, valid⟩ := validateMigration_iff.mp accepted
      rw [guard_ok_iff, Except.ok.injEq, Bool.not_eq_false] at checked
      obtain ⟨agrees, rfl⟩ := checked
      obtain ⟨planTime, rollbackTime, rfl, receiptSame, authorizationSame, manifestSame,
        verificationSame, content, -⟩ := (attemptAgrees_iff (wellFormed_parse authorized)
          (wellFormed_parse received) (wellFormed_parse reverted) (wellFormed_parse verified)
          decoded).mp agrees
      refine ⟨planTime, rollbackTime, prior, ⟨read, ?_, content, valid⟩, rfl⟩
      intro file value document
      cases file with
      | authorization =>
          cases document
          exact ⟨authorization, authorized, authorizationSame⟩
      | backup => cases document
      | receipt =>
          cases document
          exact ⟨rawReceipt, received, receiptSame⟩
      | rollback =>
          cases document
          exact ⟨manifest, reverted, manifestSame⟩
      | verification =>
          cases document
          exact ⟨verification, verified, verificationSame⟩
  · rintro ⟨planTime, rollbackTime, prior, attempt, rfl⟩
    obtain ⟨authorization, authorized, authorizationSame⟩ := attempt.documents .authorization _ rfl
    obtain ⟨rawReceipt, received, receiptSame⟩ := attempt.documents .receipt _ rfl
    obtain ⟨manifest, reverted, manifestSame⟩ := attempt.documents .rollback _ rfl
    obtain ⟨verification, verified, verificationSame⟩ := attempt.documents .verification _ rfl
    have decoded := migrationReceipt.decode_same _ _ receiptSame
    have digest : prior.backup.sha256 = input.sourceDigest sha256 := by
      obtain ⟨-, -, -, hash⟩ := readStableFile_file_iff.mp (attempt.read .backup)
      rw [← show sha256 prior.backup.content = prior.backup.sha256 from hash, attempt.backup]
      rfl
    have agrees := (attemptAgrees_iff (wellFormed_parse authorized) (wellFormed_parse received)
      (wellFormed_parse reverted) (wellFormed_parse verified) decoded).mpr
        ⟨planTime, rollbackTime, rfl, receiptSame, authorizationSame, manifestSame, verificationSame,
          attempt.backup, digest⟩
    have validated : readAttemptReceipt migrationId rawReceipt =
        .ok (settledReceipt sha256 input .rolledBack migrationId planTime rollbackTime) := by
      rw [readAttemptReceipt, validateMigration_iff.mpr ⟨decoded, attempt.valid⟩]
      refine guard_ok_iff.mpr ⟨?_, rfl⟩
      rintro (other | other | copied)
      · exact other rfl
      · exact other rfl
      · cases copied
    refine ⟨prior, attempt.read, authorization, authorized, rawReceipt, received, manifest, reverted,
      verification, verified, _, validated, ?_⟩
    rw [agrees]
    rfl

variable (sha256 input) in
/-- What an audit file of an attempt holds. -/
def auditContent (receipt : MigrationReceipt) (migrationId planTime : JsString) (file : AuditFile) :
    JsString :=
  ((auditDocument sha256 input receipt migrationId planTime file).map json).getD input.sourceContent

variable (sha256) in
def observedAs (content : JsString) : ObservedFile := ⟨content, utf8Length content, sha256 content⟩

variable (sha256 input) in
/-- The content of an attempt that was rolled back. -/
def settledContent (migrationId planTime rollbackTime : JsString) (file : AuditFile) : JsString :=
  auditContent sha256 input (settledReceipt sha256 input .rolledBack migrationId planTime rollbackTime)
    migrationId planTime file

variable (sha256 input) in
def settledFiles (migrationId planTime rollbackTime : JsString) : PriorAttemptFiles where
  authorization := observedAs sha256 (settledContent sha256 input migrationId planTime rollbackTime .authorization)
  backup := observedAs sha256 (settledContent sha256 input migrationId planTime rollbackTime .backup)
  receipt := observedAs sha256 (settledContent sha256 input migrationId planTime rollbackTime .receipt)
  rollback := observedAs sha256 (settledContent sha256 input migrationId planTime rollbackTime .rollback)
  verification :=
    observedAs sha256 (settledContent sha256 input migrationId planTime rollbackTime .verification)

theorem settledFiles_get (planTime rollbackTime : JsString) (file : AuditFile) :
    (settledFiles sha256 input migrationId planTime rollbackTime).get file =
      observedAs sha256 (settledContent sha256 input migrationId planTime rollbackTime file) := by
  cases file <;> rfl

theorem parse_auditContent {receipt : MigrationReceipt} {planTime : JsString} {file : AuditFile}
    {value : Json}
    (document : auditDocument sha256 input receipt migrationId planTime file = some value) :
    parse (auditContent sha256 input receipt migrationId planTime file) = some value := by
  rw [auditContent, document]
  exact parse_json (wellFormed_auditDocument sha256 input document)

theorem attemptFiles_settled {planTime rollbackTime : JsString}
    (read : ∀ file, readStableFile sha256 files (auditPath migrationId file) =
      .ok (.file (observedAs sha256 (settledContent sha256 input migrationId planTime rollbackTime file))))
    (valid : validMigration (settledReceipt sha256 input .rolledBack migrationId planTime
      rollbackTime) = true) :
    AttemptFiles sha256 input files migrationId planTime rollbackTime
      (settledFiles sha256 input migrationId planTime rollbackTime) where
  read file := by rw [read, settledFiles_get]
  documents file value document := by
    rw [settledFiles_get]
    exact ⟨value, parse_auditContent document, rfl⟩
  backup := rfl
  valid := valid

end Checking

section Alteration

def fileValue (files : MigrationFileSystem) (path : JsString) : Option Json :=
  match files.inspect path with
  | some (.file _ _) => (files.readText path).bind parse
  | _ => none

def withRollbackTime (time : JsString) : Json → Json
  | .object members =>
      .object (members.map fun member =>
        if member.1 = js "updatedAt" then (member.1, .string time) else member)
  | value => value

/-- Two values of an audit file that are equal, the rollback time of a receipt apart. -/
def Equivalent : AuditFile → Json → Json → Prop
  | .receipt, value, original => ∃ time, SameValue value (withRollbackTime time original)
  | .authorization, value, original | .backup, value, original | .rollback, value, original
  | .verification, value, original => SameValue value original

/-- An audit file is missing, or its value differs; of the backup, the bytes. -/
def Differs (files altered : MigrationFileSystem) (path : JsString) : AuditFile → Prop
  | .backup => ¬(altered.inspect path = files.inspect path ∧ altered.readText path = files.readText path)
  | file => ∀ value original, fileValue altered path = some value →
      fileValue files path = some original → ¬Equivalent file value original

/-- The files with one audit file of an attempt missing or altered. -/
structure Altered (files altered : MigrationFileSystem) (migrationId : JsString) (file : AuditFile) :
    Prop where
  inspect : ∀ path, path ≠ auditPath migrationId file → altered.inspect path = files.inspect path
  readText : ∀ path, path ≠ auditPath migrationId file → altered.readText path = files.readText path
  list : ∀ path, path ≠ attemptRoot migrationId → altered.list path = files.list path
  differs : Differs files altered (auditPath migrationId file) file

variable {sha256 : JsString → JsString} {input : ConfigInput} {files altered : MigrationFileSystem}
  {migrationId : JsString} {file : AuditFile}

theorem auditPath_injective {other : AuditFile}
    (same : auditPath migrationId file = auditPath migrationId other) : file = other := by
  have names := List.append_cancel_left same
  cases file <;> cases other <;> first | rfl | exact absurd names (by decide)

theorem Altered.readStableFile (change : Altered files altered migrationId file) {path : JsString}
    (other : path ≠ auditPath migrationId file) :
    readStableFile sha256 altered path = readStableFile sha256 files path := by
  simp only [Migration.readStableFile, change.inspect path other, change.readText path other]

private theorem fileValue_read {path : JsString} {observed : ObservedFile}
    (read : readStableFile sha256 files path = .ok (.file observed)) :
    fileValue files path = parse observed.content := by
  obtain ⟨entry, held, -⟩ := readStableFile_file_iff.mp read
  simp [fileValue, entry, held]

private theorem fileValue_settled {planTime rollbackTime : JsString} {value : Json}
    (read : readStableFile sha256 files (auditPath migrationId file) =
      .ok (.file (observedAs sha256 (settledContent sha256 input migrationId planTime rollbackTime file))))
    (document : auditDocument sha256 input (settledReceipt sha256 input .rolledBack migrationId planTime
      rollbackTime) migrationId planTime file = some value) :
    fileValue files (auditPath migrationId file) = some value := by
  have content := parse_auditContent document
  rw [fileValue_read read]
  exact content

private theorem planTime_of_receipt {planTime rollbackTime otherPlan otherRollback : JsString}
    (same : SameValue
      (migrationReceipt.encode (settledReceipt sha256 input .rolledBack migrationId planTime rollbackTime))
      (migrationReceipt.encode (settledReceipt sha256 input .rolledBack migrationId otherPlan
        otherRollback))) : planTime = otherPlan :=
  congrArg MigrationReceipt.createdAt (migrationReceipt.encode_injective same)

private theorem planTime_of_authorization {planTime otherPlan : JsString}
    (same : SameValue (authorizationJson sha256 input migrationId planTime)
      (authorizationJson sha256 input migrationId otherPlan)) : planTime = otherPlan := by
  have distinct : [js "contractVersion", js "stateContract", js "migrationId", js "planDigest",
    js "answers", js "catalogs", js "plan", js "source", js "destination", js "authorizedAt"].Nodup := by
    decide
  exact member_injective same distinct distinct text (js "authorizedAt")
    (List.mem_of_getElem? (i := 9) rfl) (List.mem_of_getElem? (i := 9) rfl)

private theorem withRollbackTime_receipt (planTime rollbackTime time : JsString) :
    withRollbackTime time (migrationReceipt.encode
        (settledReceipt sha256 input .rolledBack migrationId planTime rollbackTime)) =
      migrationReceipt.encode (settledReceipt sha256 input .rolledBack migrationId planTime time) := by
  let front :=
    (migrationShape (settledReceipt sha256 input .rolledBack migrationId planTime [])).members.dropLast
  have split : ∀ updatedAt, migrationReceipt.encode
      (settledReceipt sha256 input .rolledBack migrationId planTime updatedAt) =
        .object (front ++ [(js "updatedAt", .string updatedAt)]) := fun _ => rfl
  have other : ∀ key ∈ migrationKeys.dropLast, key ≠ js "updatedAt" := by decide
  have same : front.map (fun member =>
      if member.1 = js "updatedAt" then (member.1, .string time) else member) = front := by
    have kept : ∀ member ∈ front,
        (if member.1 = js "updatedAt" then (member.1, .string time) else member) = member :=
      fun member listed => if_neg (other _ (List.mem_map_of_mem (f := Prod.fst) listed))
    rw [List.map_congr_left kept, List.map_id']
  rw [split, split, withRollbackTime, List.map_append, same, List.map_singleton, if_pos rfl]

/-- The check of an attempt refuses it when one of its files is missing or altered. -/
theorem observePriorConfigAttempt_altered {planTime rollbackTime : JsString}
    (read : ∀ file, Migration.readStableFile sha256 files (auditPath migrationId file) =
      .ok (.file (observedAs sha256 (settledContent sha256 input migrationId planTime rollbackTime file))))
    (change : Altered files altered migrationId file) (guards : List ConfigAttemptGuard) :
    observePriorConfigAttempt sha256 altered input migrationId ≠ .ok guards := by
  intro accepted
  obtain ⟨otherPlan, otherRollback, prior, attempt, -⟩ := observePriorConfigAttempt_ok_iff.mp accepted
  have kept : ∀ other, other ≠ file → ∀ value shown,
      auditDocument sha256 input (settledReceipt sha256 input .rolledBack migrationId planTime
        rollbackTime) migrationId planTime other = some value →
      auditDocument sha256 input (settledReceipt sha256 input .rolledBack migrationId otherPlan
        otherRollback) migrationId otherPlan other = some shown → SameValue value shown := by
    intro other different value shown document documentAfter
    have again := attempt.read other
    rw [change.readStableFile fun same => different (auditPath_injective same), read other] at again
    injection again with again
    injection again with observed
    obtain ⟨parsed, text, same⟩ := attempt.documents other shown documentAfter
    rw [← observed] at text
    have original := parse_auditContent document
    rw [show (observedAs sha256 (settledContent sha256 input migrationId planTime rollbackTime
      other)).content = settledContent sha256 input migrationId planTime rollbackTime other from rfl,
      settledContent, original] at text
    cases text
    exact same
  have samePlan : planTime = otherPlan := by
    by_cases receipt : file = .receipt
    · exact planTime_of_authorization
        (kept .authorization (by rw [receipt]; decide) _ _ rfl rfl)
    · exact planTime_of_receipt (kept .receipt (fun same => receipt same.symm) _ _ rfl rfl)
  subst samePlan
  have differs := change.differs
  cases file with
  | authorization =>
      obtain ⟨parsed, text, same⟩ := attempt.documents .authorization _ rfl
      exact differs parsed _ ((fileValue_read (attempt.read .authorization)).trans text)
        (fileValue_settled (read .authorization) rfl) same
  | backup =>
      obtain ⟨entry, held, size, digest⟩ := readStableFile_file_iff.mp (attempt.read .backup)
      obtain ⟨oldEntry, oldHeld, -⟩ := readStableFile_file_iff.mp (read .backup)
      have content : (prior.get .backup).content = input.sourceContent := attempt.backup
      refine differs ⟨?_, ?_⟩
      · rw [entry, oldEntry, ← size, ← digest, content]
        rfl
      · rw [held, oldHeld, content]
        rfl
  | receipt =>
      obtain ⟨parsed, text, same⟩ := attempt.documents .receipt _ rfl
      refine differs parsed _ ((fileValue_read (attempt.read .receipt)).trans text)
        (fileValue_settled (read .receipt) rfl) ⟨otherRollback, ?_⟩
      rw [withRollbackTime_receipt]
      exact same
  | rollback =>
      obtain ⟨parsed, text, same⟩ := attempt.documents .rollback _ rfl
      exact differs parsed _ ((fileValue_read (attempt.read .rollback)).trans text)
        (fileValue_settled (read .rollback) rfl) same
  | verification =>
      obtain ⟨parsed, text, same⟩ := attempt.documents .verification _ rfl
      exact differs parsed _ ((fileValue_read (attempt.read .verification)).trans text)
        (fileValue_settled (read .verification) rfl) same

end Alteration

end Kratos.Migration
