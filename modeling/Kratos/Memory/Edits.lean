/- source: domain/memory/index.ts
   digest: Each change of a ledger as an edit of its register of identities. -/

import Kratos.Memory.Validity

set_option autoImplicit false

namespace Kratos.Memory

open Foundation.Text Foundation.Lines Foundation.Retirement

/-- The ledgers the validation and the limits accept. -/
structure ValidLedger (sha256 : JsString → JsString) (ledger : CuratedMemoryV1_1) : Prop where
  semantics : validatesCuratedMemorySemantics sha256 ledger.asV1 = true
  confirmedMax : ledger.confirmed.length ≤ CURATED_MEMORY_CONFIRMED_MAX
  archiveMax : ledger.archive.length ≤ CURATED_MEMORY_ARCHIVE_MAX
  rendered : utf8Length (renderCuratedMemory ledger.asV1) ≤ CURATED_MEMORY_RENDERED_MAX_BYTES

def lessonIds (lessons : List CurrentLesson) : List JsString :=
  lessons.map fun lesson => lesson.lessonId

def currentRegister (confirmed : List CurrentLesson) (archive : List CurrentTombstone) :
    Register JsString :=
  registerOf (confirmed.map CurrentLesson.toLesson) (archive.map CurrentTombstone.toTombstone)

/-- How many of the oldest tombstones make room for some new ones. -/
def forgotten (archive : List CurrentTombstone) (joining : Nat) : Nat :=
  archive.length + joining - CURATED_MEMORY_ARCHIVE_MAX

def promotionEdit (lessonId : JsString) : Edit JsString where
  leaving := []
  retiring := []
  joining := some lessonId
  forgotten := 0

def mergeEdit (archive : List CurrentTombstone) (source : List CurrentLesson)
    (lessonId : JsString) : Edit JsString where
  leaving := lessonIds source
  retiring := lessonIds source
  joining := some lessonId
  forgotten := forgotten archive source.length

def archiveEdit (archive : List CurrentTombstone) (lessonId : JsString) : Edit JsString where
  leaving := [lessonId]
  retiring := [lessonId]
  joining := none
  forgotten := forgotten archive 1

/-- The archive edit of a batch, which makes no room. -/
def pushEdit (lessonId : JsString) : Edit JsString where
  leaving := [lessonId]
  retiring := [lessonId]
  joining := none
  forgotten := 0

def deletionEdit (lessonId : JsString) : Edit JsString where
  leaving := [lessonId]
  retiring := []
  joining := none
  forgotten := 0

def trimEdit (archive : List CurrentTombstone) : Edit JsString where
  leaving := []
  retiring := []
  joining := none
  forgotten := forgotten archive 0

section Registers

variable {confirmed : List CurrentLesson} {archive : List CurrentTombstone}

/-- The identities of some tombstones with what replaces them. -/
def linksOf (archive : List CurrentTombstone) : List (JsString × Option JsString) :=
  archive.map fun tombstone => (tombstone.lessonId, tombstone.replacementLessonId)

theorem active_currentRegister (confirmed : List CurrentLesson) (archive : List CurrentTombstone) :
    (currentRegister confirmed archive).active = lessonIds confirmed := by
  show (confirmed.map CurrentLesson.toLesson).map Lesson.lessonId = lessonIds confirmed
  rw [List.map_map]
  rfl

theorem retired_currentRegister (confirmed : List CurrentLesson) (archive : List CurrentTombstone) :
    (currentRegister confirmed archive).retired = linksOf archive := by
  show (archive.map CurrentTombstone.toTombstone).map
    (fun tombstone => (tombstone.lessonId, tombstone.replacementLessonId)) = linksOf archive
  rw [List.map_map]
  rfl

@[simp] theorem withoutLessons_nil (confirmed : List CurrentLesson) :
    withoutLessons confirmed [] = confirmed := by
  apply List.filter_eq_self.mpr
  intro lesson _
  simp

theorem staying_currentRegister (edit : Edit JsString) :
    edit.staying (currentRegister confirmed archive) =
      lessonIds (withoutLessons confirmed edit.leaving) := by
  rw [Edit.staying, active_currentRegister, lessonIds, lessonIds, withoutLessons, List.filter_map]
  congr 1
  apply List.filter_congr
  intro lesson _
  exact decide_eq_decide.mpr Iff.rfl

theorem register_edit {edit : Edit JsString} {next : List CurrentLesson}
    {after : List CurrentTombstone}
    (active : lessonIds next =
      lessonIds (withoutLessons confirmed edit.leaving) ++ edit.joining.toList)
    (retired : linksOf after = (linksOf archive).drop edit.forgotten ++
      edit.retiring.map fun name => (name, edit.joining)) :
    currentRegister next after = edit.apply (currentRegister confirmed archive) := by
  have actives := active_currentRegister next after
  have retireds := retired_currentRegister next after
  cases register : currentRegister next after with
  | mk names entries =>
      rw [register] at actives retireds
      rw [Edit.apply, staying_currentRegister, Edit.kept, retired_currentRegister, ← active,
        ← retired, ← actives, ← retireds]

theorem lastEntries_append {α : Type} {limit : Nat} (front : List α) {back : List α}
    (fits : back.length ≤ limit) :
    lastEntries limit (front ++ back) =
      front.drop (front.length + back.length - limit) ++ back := by
  have inside : front.length + back.length - limit ≤ front.length := by omega
  rw [lastEntries, List.length_append, List.drop_append_of_le_length inside]

theorem lastEntries_length {α : Type} (limit : Nat) (values : List α) :
    (lastEntries limit values).length ≤ limit := by
  rw [lastEntries, List.length_drop]
  omega

private theorem linksOf_append (front back : List CurrentTombstone) :
    linksOf (front ++ back) = linksOf front ++ linksOf back := List.map_append

private theorem linksOf_drop (count : Nat) (archive : List CurrentTombstone) :
    linksOf (archive.drop count) = (linksOf archive).drop count := List.map_drop

private theorem lessonIds_concat (lessons : List CurrentLesson) (lesson : CurrentLesson) :
    lessonIds (lessons ++ [lesson]) = lessonIds lessons ++ [lesson.lessonId] := List.map_append

private theorem linksOf_mergeTombstones (source : List CurrentLesson)
    (reviewer now lessonId : JsString) :
    linksOf (mergeTombstones source reviewer now lessonId) =
      (lessonIds source).map fun name => (name, some lessonId) := by
  rw [linksOf, mergeTombstones, List.map_map, lessonIds, List.map_map]
  rfl

theorem register_promotion (lesson : CurrentLesson) :
    currentRegister (confirmed ++ [lesson]) archive =
      (promotionEdit lesson.lessonId).apply (currentRegister confirmed archive) := by
  apply register_edit
  · rw [lessonIds_concat, promotionEdit, withoutLessons_nil, Option.toList_some]
  · rw [promotionEdit, List.drop_zero, List.map_nil, List.append_nil]

theorem register_merge {source : List CurrentLesson} (replacement : CurrentLesson)
    (few : source.length ≤ CURATED_MEMORY_ARCHIVE_MAX) (reviewer now : JsString) :
    currentRegister (withoutLessons confirmed (lessonIds source) ++ [replacement])
        (lastEntries CURATED_MEMORY_ARCHIVE_MAX
          (archive ++ mergeTombstones source reviewer now replacement.lessonId)) =
      (mergeEdit archive source replacement.lessonId).apply (currentRegister confirmed archive) := by
  have size : (mergeTombstones source reviewer now replacement.lessonId).length = source.length :=
    List.length_map _
  apply register_edit
  · rw [lessonIds_concat, mergeEdit, Option.toList_some]
  · rw [lastEntries_append archive (size.le.trans few), size, linksOf_append, linksOf_drop,
      linksOf_mergeTombstones]
    rfl

theorem register_archive (lesson : CurrentLesson) (tombstone : CurrentTombstone)
    (same : tombstone.lessonId = lesson.lessonId) (none : tombstone.replacementLessonId = none) :
    currentRegister (withoutLessons confirmed [lesson.lessonId])
        (lastEntries CURATED_MEMORY_ARCHIVE_MAX (archive ++ [tombstone])) =
      (archiveEdit archive lesson.lessonId).apply (currentRegister confirmed archive) := by
  have one : 1 ≤ CURATED_MEMORY_ARCHIVE_MAX := by decide
  have fits : [tombstone].length ≤ CURATED_MEMORY_ARCHIVE_MAX := one
  apply register_edit
  · rw [archiveEdit, Option.toList_none, List.append_nil]
  · rw [lastEntries_append archive fits, linksOf_append, linksOf_drop,
      linksOf, linksOf, List.map_singleton, same, none]
    rfl

theorem register_push (lesson : CurrentLesson) (tombstone : CurrentTombstone)
    (same : tombstone.lessonId = lesson.lessonId) (none : tombstone.replacementLessonId = none) :
    currentRegister (withoutLessons confirmed [lesson.lessonId]) (archive ++ [tombstone]) =
      (pushEdit lesson.lessonId).apply (currentRegister confirmed archive) := by
  apply register_edit
  · rw [pushEdit, Option.toList_none, List.append_nil]
  · rw [linksOf_append, pushEdit, List.drop_zero, linksOf, linksOf, List.map_singleton, same, none,
      List.map_singleton]

theorem register_deletion (lessonId : JsString) :
    currentRegister (withoutLessons confirmed [lessonId]) archive =
      (deletionEdit lessonId).apply (currentRegister confirmed archive) := by
  apply register_edit
  · rw [deletionEdit, Option.toList_none, List.append_nil]
  · rw [deletionEdit, List.drop_zero, List.map_nil, List.append_nil]

theorem register_trim :
    currentRegister confirmed (lastEntries CURATED_MEMORY_ARCHIVE_MAX archive) =
      (trimEdit archive).apply (currentRegister confirmed archive) := by
  apply register_edit
  · rw [trimEdit, withoutLessons_nil, Option.toList_none, List.append_nil]
  · rw [lastEntries, linksOf_drop, trimEdit, List.map_nil, List.append_nil]
    rfl

end Registers

end Kratos.Memory
