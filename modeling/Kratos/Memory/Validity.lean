/- source: domain/memory/index.ts
   digest: What the semantic validation accepts and how many bytes a ledger renders to. -/

import Kratos.Memory.Change
import Kratos.Foundation.Retirement

set_option autoImplicit false

namespace Kratos.Memory

open Foundation.Text Foundation.Lines Foundation.Utf8 Foundation.Retirement

/-- The identities of a ledger: lessons are active, tombstones retired. -/
def registerOf (confirmed : List Lesson) (archive : List Tombstone) : Register JsString where
  active := confirmed.map Lesson.lessonId
  retired := archive.map fun tombstone => (tombstone.lessonId, tombstone.replacementLessonId)

/-- The identities are the digests of the contents and the links are closed. -/
structure Consistent (sha256 : JsString → JsString) (confirmed : List Lesson)
    (archive : List Tombstone) : Prop where
  named : ∀ lesson ∈ confirmed, lesson.lessonId = expectedLessonId sha256 lesson
  linked : (registerOf confirmed archive).Linked

section Semantics

variable {sha256 : JsString → JsString}

private theorem collectActive_iff {active result : List JsString} {lessons : List Lesson} :
    collectActive sha256 active lessons = some result ↔
      (∀ lesson ∈ lessons, lesson.lessonId = expectedLessonId sha256 lesson) ∧
        (lessons.map Lesson.lessonId).Nodup ∧
        (∀ lesson ∈ lessons, lesson.lessonId ∉ active) ∧
        active ++ lessons.map Lesson.lessonId = result := by
  induction lessons generalizing active with
  | nil => simp [collectActive]
  | cons lesson rest ih =>
      rw [collectActive]
      by_cases refused : lesson.lessonId ≠ expectedLessonId sha256 lesson ∨ lesson.lessonId ∈ active
      · rw [if_pos refused]
        constructor
        · intro impossible
          cases impossible
        · rintro ⟨named, -, apart, -⟩
          rcases refused with misnamed | repeated
          · exact absurd (named lesson List.mem_cons_self) misnamed
          · exact absurd repeated (apart lesson List.mem_cons_self)
      · rw [if_neg refused, ih]
        push Not at refused
        simp only [List.forall_mem_cons, List.map_cons, List.nodup_cons, List.mem_append,
          List.mem_singleton, not_or, List.append_assoc, List.singleton_append, List.mem_map,
          not_exists, not_and]
        constructor
        · rintro ⟨named, unique, apart, joined⟩
          exact ⟨⟨refused.1, named⟩, ⟨fun other member => (apart other member).2, unique⟩,
            ⟨refused.2, fun other member => (apart other member).1⟩, joined⟩
        · rintro ⟨⟨-, named⟩, ⟨fresh, unique⟩, ⟨-, apart⟩, joined⟩
          exact ⟨named, unique, fun other member => ⟨apart other member, fresh other member⟩,
            joined⟩

private theorem collectArchived_iff {active archived result : List JsString}
    {tombstones : List Tombstone} :
    collectArchived active archived tombstones = some result ↔
      (tombstones.map Tombstone.lessonId).Nodup ∧
        (∀ tombstone ∈ tombstones, tombstone.lessonId ∉ active ∧ tombstone.lessonId ∉ archived) ∧
        archived ++ tombstones.map Tombstone.lessonId = result := by
  induction tombstones generalizing archived with
  | nil => simp [collectArchived]
  | cons tombstone rest ih =>
      rw [collectArchived]
      by_cases refused : tombstone.lessonId ∈ active ∨ tombstone.lessonId ∈ archived
      · rw [if_pos refused]
        constructor
        · intro impossible
          cases impossible
        · rintro ⟨-, apart, -⟩
          have both := apart tombstone List.mem_cons_self
          rcases refused with first | second
          · exact absurd first both.1
          · exact absurd second both.2
      · rw [if_neg refused, ih]
        push Not at refused
        simp only [List.forall_mem_cons, List.map_cons, List.nodup_cons, List.mem_append,
          List.mem_singleton, not_or, List.append_assoc, List.singleton_append, List.mem_map,
          not_exists, not_and]
        constructor
        · rintro ⟨unique, apart, joined⟩
          exact ⟨⟨fun other member => (apart other member).2.2, unique⟩,
            ⟨refused, fun other member => ⟨(apart other member).1, (apart other member).2.1⟩⟩,
            joined⟩
        · rintro ⟨⟨fresh, unique⟩, ⟨-, apart⟩, joined⟩
          exact ⟨unique, fun other member =>
            ⟨(apart other member).1, (apart other member).2, fresh other member⟩, joined⟩

private theorem registerOf_names (confirmed : List Lesson) (archive : List Tombstone) :
    (registerOf confirmed archive).names =
      confirmed.map Lesson.lessonId ++ archive.map Tombstone.lessonId := by
  rw [Register.names, registerOf, List.map_map]
  rfl

private theorem replacementListed_iff {names : List JsString} {tombstone : Tombstone} :
    replacementListed names tombstone = true ↔
      ∀ successor, tombstone.replacementLessonId = some successor → successor ∈ names := by
  unfold replacementListed
  cases tombstone.replacementLessonId with
  | none => simp
  | some replacement => simp

theorem validatesCuratedMemorySemantics_iff {ledger : CuratedMemoryV1} :
    validatesCuratedMemorySemantics sha256 ledger = true ↔
      Consistent sha256 ledger.confirmed ledger.archive := by
  constructor
  · intro accepted
    unfold validatesCuratedMemorySemantics at accepted
    cases active : collectActive sha256 [] ledger.confirmed with
    | none => simp [active] at accepted
    | some names =>
        cases archived : collectArchived names [] ledger.archive with
        | none => simp [active, archived] at accepted
        | some retired =>
            simp only [active, archived, List.all_eq_true] at accepted
            obtain ⟨named, activeOnce, -, rfl⟩ := collectActive_iff.mp active
            obtain ⟨retiredOnce, apart, rfl⟩ := collectArchived_iff.mp archived
            simp only [List.nil_append] at apart accepted
            refine ⟨named, ?_, ?_⟩
            · rw [registerOf_names]
              refine List.nodup_append.mpr ⟨activeOnce, retiredOnce, ?_⟩
              rintro name first _ second rfl
              obtain ⟨tombstone, member, rfl⟩ := List.mem_map.mp second
              exact (apart tombstone member).1 first
            · rw [registerOf_names]
              intro entry member successor points
              obtain ⟨tombstone, held, rfl⟩ := List.mem_map.mp member
              exact replacementListed_iff.mp (accepted tombstone held) successor points
  · rintro ⟨named, unique, closed⟩
    rw [registerOf_names] at unique closed
    obtain ⟨activeOnce, retiredOnce, apart⟩ := List.nodup_append.mp unique
    have active : collectActive sha256 [] ledger.confirmed =
        some (ledger.confirmed.map Lesson.lessonId) := by
      refine collectActive_iff.mpr ⟨named, activeOnce, ?_, List.nil_append _⟩
      intro lesson _ impossible
      cases impossible
    have archived : collectArchived (ledger.confirmed.map Lesson.lessonId) [] ledger.archive =
        some (ledger.archive.map Tombstone.lessonId) := by
      refine collectArchived_iff.mpr ⟨retiredOnce, ?_, List.nil_append _⟩
      intro tombstone member
      refine ⟨fun first => ?_, List.not_mem_nil⟩
      exact apart _ first _ (List.mem_map_of_mem member) rfl
    unfold validatesCuratedMemorySemantics
    simp only [active, archived, List.all_eq_true]
    intro tombstone member
    apply replacementListed_iff.mpr
    intro successor points
    have held : (tombstone.lessonId, tombstone.replacementLessonId) ∈
        (registerOf ledger.confirmed ledger.archive).retired :=
      List.mem_map_of_mem member
    exact closed _ held successor points

end Semantics

section Bytes

def linesBytes (lines : List JsString) : Nat := (lines.map fun line => utf8Length line + 1).sum

/-- The bytes of a section whose blocks have the given sizes. -/
def sectionBytes (sentence : JsString) (sizes : List Nat) : Nat :=
  if sizes.isEmpty then utf8Length sentence + 1 else sizes.sum + (sizes.length - 1)

def renderedBytes (confirmed : List Lesson) (archive : List Tombstone) : Nat :=
  linesBytes [js "# Gotchas", [], js "## Confirmed lessons", []] +
    sectionBytes (js "No confirmed lessons.") (confirmed.map fun l => linesBytes (renderLesson l)) +
    linesBytes [[], js "## Archived lessons", []] +
    sectionBytes (js "No archived lessons.")
      (archive.map fun tombstone => linesBytes (renderTombstone tombstone))

private theorem linesBytes_append (front back : List JsString) :
    linesBytes (front ++ back) = linesBytes front + linesBytes back := by
  rw [linesBytes, List.map_append, List.sum_append]
  rfl

private theorem linesBytes_blocks {blocks : List (List JsString)} (some : blocks ≠ []) :
    linesBytes (List.intercalate [[]] blocks) =
      (blocks.map linesBytes).sum + (blocks.length - 1) := by
  induction blocks with
  | nil => exact absurd rfl some
  | cons block rest ih =>
      cases rest with
      | nil => simp
      | cons next rest =>
          have blank : linesBytes [[]] = 1 := rfl
          rw [List.intercalate_cons_cons, linesBytes_append, linesBytes_append, blank,
            ih (List.cons_ne_nil next rest)]
          simp only [List.map_cons, List.sum_cons, List.length_cons]
          omega

private theorem linesBytes_section (sentence : JsString) (blocks : List (List JsString)) :
    linesBytes (renderSection sentence blocks) = sectionBytes sentence (blocks.map linesBytes) := by
  cases blocks with
  | nil => simp [renderSection, sectionBytes, linesBytes]
  | cons block rest =>
      rw [renderSection, linesBytes_blocks (List.cons_ne_nil block rest), sectionBytes, if_neg,
        List.length_map]
      · simp
      · intro impossible
        cases impossible

private theorem sectionBytes_perm (sentence : JsString) {left right : List Nat}
    (perm : left.Perm right) : sectionBytes sentence left = sectionBytes sentence right := by
  have size := perm.length_eq
  have total := perm.sum_nat
  cases left with
  | nil => rw [List.nil_perm.mp perm]
  | cons first left =>
      cases right with
      | nil => cases size
      | cons second right =>
          rw [sectionBytes, sectionBytes, total, size]
          rfl

theorem renderedBytes_perm {left right : List Lesson} (perm : left.Perm right)
    (archive : List Tombstone) : renderedBytes left archive = renderedBytes right archive := by
  rw [renderedBytes, renderedBytes, sectionBytes_perm _ (perm.map fun l => linesBytes (renderLesson l))]

theorem utf8Length_renderCuratedMemory (ledger : CuratedMemoryV1) :
    utf8Length (renderCuratedMemory ledger) = renderedBytes ledger.confirmed ledger.archive := by
  have some : renderLines ledger ≠ [] := by
    rw [renderLines]
    exact List.cons_ne_nil _ _
  have total : utf8Length (renderCuratedMemory ledger) = linesBytes (renderLines ledger) := by
    rw [renderCuratedMemory, intercalate_feed some, utf8Length_terminated]
    rfl
  have archived : ((ledger.archive.insertionSort ByTombstoneId).map fun tombstone =>
      linesBytes (renderTombstone tombstone)).Perm
      (ledger.archive.map fun tombstone => linesBytes (renderTombstone tombstone)) :=
    (List.perm_insertionSort ByTombstoneId ledger.archive).map _
  rw [total, renderLines, linesBytes_append, linesBytes_append, linesBytes_append,
    linesBytes_section, linesBytes_section, List.map_map, List.map_map,
    renderedBytes_perm (List.perm_insertionSort ByLessonId ledger.confirmed).symm, renderedBytes,
    sectionBytes_perm _ archived.symm]
  rfl

end Bytes

end Kratos.Memory
