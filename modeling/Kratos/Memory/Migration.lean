/- source: domain/memory/migration.ts
   digest: The adoption of a legacy memory document and the upgrade of a structured memory. -/

import Kratos.Memory.Change

set_option autoImplicit false

namespace Kratos.Memory

open Foundation.Text Foundation.JsonText Foundation.Lines Foundation.Collections Foundation.Sorting
open Schema

structure SourceRange where
  startLine : Int
  endLine : Int
  deriving DecidableEq, Repr

/-- One lesson of a mapping; the contract asks for at least one range. -/
structure LessonMapping where
  title : JsString
  why : List JsString
  apply : List JsString
  sourceRanges : List SourceRange
  sourced : sourceRanges ≠ []
  deriving DecidableEq

structure MemoryMigrationV1_2 where
  sourceDigest : JsString
  reviewer : JsString
  lessons : List LessonMapping

structure LessonUpgrade where
  lessonId : JsString
  technology : JsString
  failureKind : FailureKind
  dependency : Dependency
  deriving DecidableEq, Repr

structure MemoryMigrationV1_4 where
  sourceDigest : JsString
  lessons : List LessonUpgrade
  deriving DecidableEq, Repr

inductive MigrationRefusal
  | invalidMapping
  deriving DecidableEq, Repr

/-- The only legacy document that is semantically equivalent to an empty ledger. -/
def STOCK_GOTCHAS_TEMPLATE : JsString :=
  terminated [js "# Gotchas", [], js "## Confirmed lessons", [], js "No confirmed lessons.", [],
    js "## Archived lessons", [], js "No archived lessons."]

def TEMPLATE_LINES : List JsString :=
  (splitLines STOCK_GOTCHAS_TEMPLATE).filter fun line => !line.isEmpty

/-- The pieces of a text that end after each line feed. -/
def feedLines : JsString → List JsString
  | [] => []
  | u :: rest =>
      if u = lineFeed then [u] :: feedLines rest
      else
        match feedLines rest with
        | [] => [[u]]
        | line :: lines => (u :: line) :: lines

def exactLines (source : JsString) : List JsString :=
  if source.isEmpty then [[]] else feedLines source

def withoutLineEnding (line : JsString) : JsString :=
  if line.getLast? = some lineFeed then line.dropLast else line

/-- The order of the migration's comparison function. -/
def ByCodeUnits (left right : JsString) : Prop := notAfter left right = true

instance : DecidableRel ByCodeUnits := fun left right =>
  inferInstanceAs (Decidable (notAfter left right = true))

instance : Std.Total ByCodeUnits := ⟨notAfter_total⟩
instance : IsTrans JsString ByCodeUnits := ⟨fun _ _ _ => notAfter_trans⟩
instance : Std.Antisymm ByCodeUnits := ⟨fun _ _ => notAfter_antisymm⟩

/-- `sortedUnique` of the migration module. -/
def unitSorted (values : List JsString) : List JsString := sortedUnique ByCodeUnits values

def BySourceId (left right : Lesson) : Prop := ByCodeUnits left.lessonId right.lessonId

instance : DecidableRel BySourceId := fun left right =>
  inferInstanceAs (Decidable (notAfter left.lessonId right.lessonId = true))

/-- Whether a line has to be assigned to a lesson. -/
def needsLesson (line : JsString) : Bool :=
  !((trim (withoutLineEnding line)).isEmpty || decide (withoutLineEnding line ∈ TEMPLATE_LINES))

structure CoverState where
  covered : List Bool
  previousEnd : Int
  sourceBytes : JsString
  deriving DecidableEq, Repr

def coverLine (lines : List JsString) (state : CoverState) (line : Nat) :
    Except MigrationRefusal CoverState :=
  if state.covered[line]? ≠ some false then .error .invalidMapping
  else .ok {
    state with
    covered := state.covered.set line true
    sourceBytes := state.sourceBytes ++ lines[line]?.getD [] }

/-- The range is not a range of fresh lines after the previous one. -/
def badRange (lines : List JsString) (previousEnd : Int) (range : SourceRange) : Prop :=
  isSafeInteger range.startLine = false ∨ isSafeInteger range.endLine = false ∨
    range.startLine < 1 ∨ range.endLine < range.startLine ∨ range.endLine > lines.length ∨
    range.startLine ≤ previousEnd

instance (lines : List JsString) (previousEnd : Int) (range : SourceRange) :
    Decidable (badRange lines previousEnd range) := by
  unfold badRange
  infer_instance

def SourceRange.indices (range : SourceRange) : List Nat :=
  List.range' (range.startLine - 1).toNat (range.endLine - range.startLine + 1).toNat

def coverRange (lines : List JsString) (state : CoverState) (range : SourceRange) :
    Except MigrationRefusal CoverState :=
  if badRange lines state.previousEnd range then .error .invalidMapping
  else range.indices.foldlM (coverLine lines) { state with previousEnd := range.endLine }

section Digests

variable (sha256 : JsString → JsString)

def rangeJson (range : SourceRange) : Json :=
  .object [(js "startLine", .integer range.startLine), (js "endLine", .integer range.endLine)]

/-- The canonical text of the source material a lesson is made from. -/
def sourceText (sourceDigest : JsString) (ranges : List SourceRange) (sourceBytes : JsString) :
    JsString :=
  canonicalizeJson (.object [(js "sourceDigest", .string sourceDigest),
    (js "sourceRanges", .array (ranges.map rangeJson)), (js "sourceBytes", .string sourceBytes)])

def migratedLesson (proposal : MemoryMigrationV1_2) (now : JsString) (lesson : LessonMapping)
    (sourceBytes : JsString) : Lesson :=
  let candidateIds := [sha256 (sourceText proposal.sourceDigest lesson.sourceRanges sourceBytes)]
  { lessonId := lessonDigest sha256 lesson.title (unitSorted lesson.why) (unitSorted lesson.apply)
      candidateIds
    title := lesson.title
    why := unitSorted lesson.why
    apply := unitSorted lesson.apply
    candidateIds
    reviewer := proposal.reviewer
    confirmedAt := now }

structure MappingState where
  covered : List Bool
  previousEnd : Int
  confirmed : List Lesson
  deriving DecidableEq, Repr

/-- One round of the loop over the lessons. -/
def mapLesson (lines : List JsString) (proposal : MemoryMigrationV1_2) (now : JsString)
    (state : MappingState) (lesson : LessonMapping) : Except MigrationRefusal MappingState :=
  match lesson.sourceRanges.foldlM (coverRange lines) ⟨state.covered, state.previousEnd, []⟩ with
  | .error refusal => .error refusal
  | .ok cover => .ok {
      covered := cover.covered
      previousEnd := cover.previousEnd
      confirmed := state.confirmed ++ [migratedLesson sha256 proposal now lesson cover.sourceBytes] }

/-- The loop over the lines: each that needs a lesson is covered. -/
def everyLineCovered (lines : List JsString) (covered : List Bool) : Bool :=
  lines.zipIdx.all fun entry => !needsLesson entry.1 || decide (covered[entry.2]? = some true)

def reduceLegacyMemoryMigration (source : JsString) (proposal : MemoryMigrationV1_2)
    (now : JsString) : Except MigrationRefusal CuratedMemoryV1 :=
  if proposal.sourceDigest ≠ sha256 source then .error .invalidMapping
  else do
    let lines := exactLines source
    let state ← proposal.lessons.foldlM (mapLesson sha256 lines proposal now)
      ⟨List.replicate lines.length false, 0, []⟩
    if everyLineCovered lines state.covered = false then .error .invalidMapping
    else
      let base : CuratedMemoryV1 := {
        revision := 1
        projectionDigest := []
        updatedAt := now
        confirmed := state.confirmed.insertionSort BySourceId
        archive := [] }
      let projection := projectCuratedMemory sha256 base
      if utf8Length projection.content > CURATED_MEMORY_RENDERED_MAX_BYTES then
        .error .invalidMapping
      else .ok { base with projectionDigest := projection.projectionDigest }

/-- The current form of a lesson, by its entry of the mapping. -/
def upgradedLesson (lesson : Lesson) (mapping : LessonUpgrade) : CurrentLesson where
  toLesson := lesson
  technology := mapping.technology
  failureKind := mapping.failureKind
  dependency := mapping.dependency
  observationCount := lesson.candidateIds.length
  firstObservedAt := lesson.confirmedAt
  lastObservedAt := lesson.confirmedAt

/-- Upgrade structured v1 memory without inventing historical observations; `none` is the error
of a mapping that is absent after all. -/
def upgradeCuratedMemoryV1 (sourceBytes : JsString) (source : CuratedMemoryV1)
    (proposal : MemoryMigrationV1_4) (now : JsString) :
    Except MigrationRefusal (Option CuratedMemoryV1_1) :=
  let mappings := proposal.lessons.map fun lesson => (lesson.lessonId, lesson)
  let keys := (mappings.map Prod.fst).eraseDups
  if proposal.sourceDigest ≠ sha256 sourceBytes then .error .invalidMapping
  else if keys.length ≠ proposal.lessons.length ∨ keys.length ≠ source.confirmed.length ∨
      ¬ ∀ lesson ∈ source.confirmed, lesson.lessonId ∈ keys then
    .error .invalidMapping
  else
    .ok ((source.confirmed.mapM fun lesson =>
      (mapGet mappings lesson.lessonId).map (upgradedLesson lesson)).map fun confirmed =>
        let provisional : CuratedMemoryV1_1 := {
          revision := source.revision + 1
          projectionDigest := []
          updatedAt := now
          confirmed
          archive := source.archive.map fun tombstone => { toTombstone := tombstone, facts := none } }
        let projection := projectCuratedMemory sha256 provisional.asV1
        { provisional with projectionDigest := projection.projectionDigest })

end Digests

example : TEMPLATE_LINES.length = 5 := by decide

end Kratos.Memory
