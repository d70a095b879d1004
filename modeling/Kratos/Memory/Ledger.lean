/- source: domain/memory/index.ts
   digest: The curated memory ledgers, their rendering and their semantic validation. -/

import Kratos.Foundation.Sorting
import Kratos.Foundation.Utf8
import Kratos.Schema.CanonicalJson

set_option autoImplicit false

namespace Kratos.Memory

open Foundation.Text Foundation.JsonText Foundation.Sorting Foundation.Utf8 Foundation.Lines Schema

def CURATED_MEMORY_RENDERED_MAX_BYTES : Nat := 48 * 1024
def CURATED_MEMORY_CONFIRMED_MAX : Nat := 24
def CURATED_MEMORY_ARCHIVE_MAX : Nat := 48

structure Lesson where
  lessonId : JsString
  title : JsString
  why : List JsString
  apply : List JsString
  candidateIds : List JsString
  reviewer : JsString
  confirmedAt : JsString
  deriving DecidableEq, Repr

structure Tombstone where
  lessonId : JsString
  title : JsString
  candidateIds : List JsString
  reviewer : JsString
  archivedAt : JsString
  reason : JsString
  replacementLessonId : Option JsString
  deriving DecidableEq, Repr

structure CuratedMemoryV1 where
  revision : Nat
  projectionDigest : JsString
  updatedAt : JsString
  confirmed : List Lesson
  archive : List Tombstone
  deriving DecidableEq, Repr

inductive FailureKind
  | nonzeroExit | toolError | timeout | denied | unknown
  deriving DecidableEq, Repr

inductive Dependency
  | none
  | path (path : JsString)
  deriving DecidableEq, Repr

structure CurrentLesson extends Lesson where
  technology : JsString
  failureKind : FailureKind
  dependency : Dependency
  observationCount : Nat
  firstObservedAt : JsString
  lastObservedAt : JsString
  deriving DecidableEq, Repr

structure ObsolescenceComponents where
  age : Nat
  rarity : Nat
  dependencyAbsent : Nat
  deriving DecidableEq, Repr

structure CurationEvidence where
  policyVersion : JsString
  proposalId : JsString
  score : Nat
  components : ObsolescenceComponents
  deriving DecidableEq, Repr

/-- What a tombstone of the current contract carries beyond a legacy one. -/
structure TombstoneFacts where
  technology : JsString
  failureKind : FailureKind
  dependency : Dependency
  observationCount : Nat
  firstObservedAt : JsString
  lastObservedAt : JsString
  curationEvidence : Option CurationEvidence
  deriving DecidableEq, Repr

/-- `legacyArchiveTombstone` without facts, `archiveTombstone` with them. -/
structure CurrentTombstone extends Tombstone where
  facts : Option TombstoneFacts
  deriving DecidableEq, Repr

structure CuratedMemoryV1_1 where
  revision : Nat
  projectionDigest : JsString
  updatedAt : JsString
  confirmed : List CurrentLesson
  archive : List CurrentTombstone
  deriving DecidableEq, Repr

/-- `ledger as unknown as CuratedMemoryV1`: the fields both contracts share. -/
def CuratedMemoryV1_1.asV1 (ledger : CuratedMemoryV1_1) : CuratedMemoryV1 where
  revision := ledger.revision
  projectionDigest := ledger.projectionDigest
  updatedAt := ledger.updatedAt
  confirmed := ledger.confirmed.map CurrentLesson.toLesson
  archive := ledger.archive.map CurrentTombstone.toTombstone

def compareText (left right : JsString) : Int := compareBytes (encode left) (encode right)

/-- The built-in `left < right` of strings. -/
def before (left right : JsString) : Bool := !notAfter right left

/-- `left` may come first under `compareText`. -/
def ByText (left right : JsString) : Prop := compareText left right ≤ 0

instance : DecidableRel ByText := fun left right =>
  inferInstanceAs (Decidable (compareText left right ≤ 0))

instance : Std.Total ByText := ⟨fun left right => compareBytes_total (encode left) (encode right)⟩

instance : IsTrans JsString ByText := ⟨fun _ _ _ => compareBytes_trans⟩

/-- `left` may come first under `byLessonId`. -/
def ByLessonId (left right : Lesson) : Prop := ByText left.lessonId right.lessonId

instance : DecidableRel ByLessonId := fun left right =>
  inferInstanceAs (Decidable (ByText left.lessonId right.lessonId))

def ByTombstoneId (left right : Tombstone) : Prop := ByText left.lessonId right.lessonId

instance : DecidableRel ByTombstoneId := fun left right =>
  inferInstanceAs (Decidable (ByText left.lessonId right.lessonId))

/-- `sortedUnique` of the ledger module. -/
def sortedTexts (values : List JsString) : List JsString := sortedUnique ByText values

/-- `values.sort()` without a comparison. -/
def defaultSort (values : List JsString) : List JsString :=
  values.insertionSort fun left right => notAfter left right = true

def commaSeparated (values : List JsString) : JsString := List.intercalate (js ", ") values

def renderLesson (lesson : Lesson) : List JsString :=
  [js "### " ++ lesson.title, [], js "- Lesson: " ++ lesson.lessonId] ++
    lesson.why.map (fun why => js "- Why: " ++ why) ++
    lesson.apply.map (fun apply => js "- Apply: " ++ apply) ++
    [js "- Candidates: " ++ commaSeparated (defaultSort lesson.candidateIds),
      js "- Reviewed by: " ++ lesson.reviewer ++ js " at " ++ lesson.confirmedAt]

def renderTombstone (tombstone : Tombstone) : List JsString :=
  [js "### " ++ tombstone.title, [], js "- Lesson: " ++ tombstone.lessonId,
    js "- Candidates: " ++ commaSeparated (defaultSort tombstone.candidateIds),
    js "- Archived by: " ++ tombstone.reviewer ++ js " at " ++ tombstone.archivedAt,
    js "- Reason: " ++ tombstone.reason,
    js "- Replaced by: " ++ tombstone.replacementLessonId.getD (js "none")]

/-- The blocks of one section with a blank line between them, or its sentence when empty. -/
def renderSection (sentence : JsString) : List (List JsString) → List JsString
  | [] => [sentence]
  | blocks => List.intercalate [[]] blocks

def renderLines (ledger : CuratedMemoryV1) : List JsString :=
  [js "# Gotchas", [], js "## Confirmed lessons", []] ++
    renderSection (js "No confirmed lessons.")
      ((ledger.confirmed.insertionSort ByLessonId).map renderLesson) ++
    [[], js "## Archived lessons", []] ++
    renderSection (js "No archived lessons.")
      ((ledger.archive.insertionSort ByTombstoneId).map renderTombstone)

/-- `${lines.join("\n")}\n`. -/
def renderCuratedMemory (ledger : CuratedMemoryV1) : JsString :=
  List.intercalate [lineFeed] (renderLines ledger) ++ [lineFeed]

structure CuratedMemoryProjection where
  content : JsString
  projectionDigest : JsString
  deriving DecidableEq, Repr

section Digests

variable (sha256 : JsString → JsString)

def projectCuratedMemory (ledger : CuratedMemoryV1) : CuratedMemoryProjection :=
  let content := renderCuratedMemory ledger
  { content, projectionDigest := sha256 content }

inductive CuratedMemoryValidation
  | valid | projectionDrift
  deriving DecidableEq, Repr

def validateCuratedMemoryProjection (ledger : CuratedMemoryV1) (projection : JsString) :
    CuratedMemoryValidation :=
  let expected := projectCuratedMemory sha256 ledger
  if projection = expected.content ∧ ledger.projectionDigest = expected.projectionDigest then
    .valid
  else .projectionDrift

/-- The value whose canonical text a lesson's identity is the digest of. -/
def lessonContent (title : JsString) (why apply candidateIds : List JsString) : Json :=
  .object [(js "title", .string title), (js "why", .array (why.map Json.string)),
    (js "apply", .array (apply.map Json.string)),
    (js "candidateIds", .array (candidateIds.map Json.string))]

def lessonDigest (title : JsString) (why apply candidateIds : List JsString) : JsString :=
  sha256 (canonicalizeJson (lessonContent title why apply candidateIds))

def expectedLessonId (lesson : Lesson) : JsString :=
  lessonDigest sha256 lesson.title (sortedTexts lesson.why) (sortedTexts lesson.apply)
    (sortedTexts lesson.candidateIds)

/-- The loop over the confirmed lessons, from the identities already met. -/
def collectActive : List JsString → List Lesson → Option (List JsString)
  | active, [] => some active
  | active, lesson :: rest =>
      if lesson.lessonId ≠ expectedLessonId sha256 lesson ∨ lesson.lessonId ∈ active then none
      else collectActive (active ++ [lesson.lessonId]) rest

def collectArchived (active : List JsString) : List JsString → List Tombstone →
    Option (List JsString)
  | archived, [] => some archived
  | archived, tombstone :: rest =>
      if tombstone.lessonId ∈ active ∨ tombstone.lessonId ∈ archived then none
      else collectArchived active (archived ++ [tombstone.lessonId]) rest

/-- `replacementLessonId === null || identities.has(replacementLessonId)`. -/
def replacementListed (identities : List JsString) (tombstone : Tombstone) : Bool :=
  match tombstone.replacementLessonId with
  | none => true
  | some replacement => decide (replacement ∈ identities)

/-- Semantic checks schemas cannot express (derived identities and cross-links). -/
def validatesCuratedMemorySemantics (ledger : CuratedMemoryV1) : Bool :=
  match collectActive sha256 [] ledger.confirmed with
  | none => false
  | some active =>
      match collectArchived active [] ledger.archive with
      | none => false
      | some archived => ledger.archive.all (replacementListed (active ++ archived))

/-- What a later migration or read asks of a ledger and its projection, beyond the schema. -/
def validCurrentCuratedMemory (ledger : CuratedMemoryV1) (projection : JsString) : Bool :=
  validatesCuratedMemorySemantics sha256 ledger &&
    decide (validateCuratedMemoryProjection sha256 ledger projection = .valid)

end Digests

end Kratos.Memory
