/- source: domain/memory/migration.ts, domain/memory/index.ts
   digest: Which adopted legacy memories are readable, and what their upgrade keeps. -/

import Kratos.Memory.Migration
import Kratos.Memory.Validity
import Kratos.Schema.Codec

set_option autoImplicit false

namespace Kratos.Memory

open Foundation.Text Foundation.JsonText Foundation.Collections Foundation.Sorting
open Foundation.Retirement Foundation.Runs Schema

section Contents

/-- `{"startLine": .., "endLine": ..}` read back. -/
private def decodeRange : Json → Option SourceRange
  | .object members =>
      match mapGet members (js "startLine"), mapGet members (js "endLine") with
      | some (.integer startLine), some (.integer endLine) => some ⟨startLine, endLine⟩
      | _, _ => none
  | _ => none

private theorem sameValue_integer {json : Json} {value : Int}
    (same : SameValue json (.integer value)) : json = .integer value := by
  cases json with
  | integer other => simpa [SameValue, canonicalForm] using same
  | _ => simp [SameValue, canonicalForm] at same

private def rangeCodec : Codec SourceRange where
  encode := rangeJson
  decode := decodeRange
  decode_same := by
    intro range json same
    obtain ⟨members, rfl, agree⟩ := sameValue_object same
    have once : ([(js "startLine", Json.integer range.startLine),
        (js "endLine", .integer range.endLine)].map Prod.fst).Nodup := by
      show [js "startLine", js "endLine"].Nodup
      decide
    obtain ⟨first, startFound, startSame⟩ := mapGet_same agree once List.mem_cons_self
    obtain ⟨second, endFound, endSame⟩ := mapGet_same agree once
      (List.mem_cons_of_mem _ List.mem_cons_self)
    rw [sameValue_integer startSame] at startFound
    rw [sameValue_integer endSame] at endFound
    rw [decodeRange, startFound, endFound]

private theorem content_once (title : Json) (why apply candidateIds : Json) :
    ([(js "title", title), (js "why", why), (js "apply", apply),
      (js "candidateIds", candidateIds)].map Prod.fst).Nodup := by
  show [js "title", js "why", js "apply", js "candidateIds"].Nodup
  decide

private theorem strings_formed (values : List JsString) :
    WellFormed (.array (values.map Json.string)) := by
  have formed : WellFormed ((list text).encode values) :=
    wellFormed_list fun value _ => wellFormed_text value
  exact formed

private theorem content_formed (title : JsString) (why apply candidateIds : List JsString) :
    WellFormed (lessonContent title why apply candidateIds) := by
  rw [lessonContent, WellFormed]
  refine ⟨content_once _ _ _ _, (wellFormedMembers_iff _).mpr ?_⟩
  intro member listed
  simp only [List.mem_cons, List.not_mem_nil, or_false] at listed
  rcases listed with rfl | rfl | rfl | rfl
  · exact wellFormed_text title
  · exact strings_formed why
  · exact strings_formed apply
  · exact strings_formed candidateIds

theorem content_injective {title title' : JsString} {why why' apply apply' ids ids' : List JsString}
    (same : canonicalizeJson (lessonContent title why apply ids) =
      canonicalizeJson (lessonContent title' why' apply' ids')) :
    why = why' ∧ apply = apply' ∧ ids = ids' := by
  have value := canonicalForm_of_canonicalizeJson (content_formed title why apply ids)
    (content_formed title' why' apply' ids') same
  have left := content_once (.string title) (.array (why.map Json.string))
    (.array (apply.map Json.string)) (.array (ids.map Json.string))
  have right := content_once (.string title') (.array (why'.map Json.string))
    (.array (apply'.map Json.string)) (.array (ids'.map Json.string))
  refine ⟨?_, ?_, ?_⟩
  · exact member_injective value left right (list text) (js "why") (by simp [list, text])
      (by simp [list, text])
  · exact member_injective value left right (list text) (js "apply") (by simp [list, text])
      (by simp [list, text])
  · exact member_injective value left right (list text) (js "candidateIds") (by simp [list, text])
      (by simp [list, text])

private theorem sourceText_once (sourceDigest ranges sourceBytes : Json) :
    ([(js "sourceDigest", sourceDigest), (js "sourceRanges", ranges),
      (js "sourceBytes", sourceBytes)].map Prod.fst).Nodup := by
  show [js "sourceDigest", js "sourceRanges", js "sourceBytes"].Nodup
  decide

/-- The ends of a range are integers every reader keeps. -/
def SourceRange.Safe (range : SourceRange) : Prop :=
  isSafeInteger range.startLine = true ∧ isSafeInteger range.endLine = true

private theorem range_formed {range : SourceRange} (safe : range.Safe) :
    WellFormed (rangeJson range) := by
  rw [rangeJson, WellFormed]
  constructor
  · show [js "startLine", js "endLine"].Nodup
    decide
  · apply (wellFormedMembers_iff _).mpr
    intro member listed
    simp only [List.mem_cons, List.not_mem_nil, or_false] at listed
    rcases listed with rfl | rfl
    · simpa [WellFormed] using safe.1
    · simpa [WellFormed] using safe.2

private theorem sourceText_formed (sourceDigest sourceBytes : JsString) {ranges : List SourceRange}
    (safe : ∀ range ∈ ranges, range.Safe) :
    WellFormed (.object [(js "sourceDigest", .string sourceDigest),
      (js "sourceRanges", .array (ranges.map rangeJson)), (js "sourceBytes", .string sourceBytes)]) := by
  have formed : WellFormed ((list rangeCodec).encode ranges) :=
    wellFormed_list fun range member => range_formed (safe range member)
  rw [WellFormed]
  refine ⟨sourceText_once _ _ _, (wellFormedMembers_iff _).mpr ?_⟩
  intro member listed
  simp only [List.mem_cons, List.not_mem_nil, or_false] at listed
  rcases listed with rfl | rfl | rfl
  · exact wellFormed_text sourceDigest
  · exact formed
  · exact wellFormed_text sourceBytes

theorem sourceText_injective {digest digest' bytes bytes' : JsString}
    {ranges ranges' : List SourceRange} (safe : ∀ range ∈ ranges, range.Safe)
    (safe' : ∀ range ∈ ranges', range.Safe)
    (same : sourceText digest ranges bytes = sourceText digest' ranges' bytes') :
    ranges = ranges' := by
  have value := canonicalForm_of_canonicalizeJson (sourceText_formed digest bytes safe)
    (sourceText_formed digest' bytes' safe') same
  exact member_injective value (sourceText_once _ _ _) (sourceText_once _ _ _) (list rangeCodec)
    (js "sourceRanges") (by simp [list, rangeCodec]) (by simp [list, rangeCodec])

end Contents

section Coverage

def SourceRange.Holds (range : SourceRange) (index : Nat) : Prop :=
  range.startLine ≤ index + 1 ∧ (index : Int) + 1 ≤ range.endLine

def bytesOf (lines : List JsString) (ranges : List SourceRange) : JsString :=
  ranges.flatMap fun range => range.indices.flatMap fun index => lines[index]?.getD []

/-- What covering some ranges in turn says about them and about the lines covered. -/
structure Covering (lines : List JsString) (before : CoverState) (ranges : List SourceRange)
    (after : CoverState) : Prop where
  size : after.covered.length = before.covered.length
  bytes : after.sourceBytes = before.sourceBytes ++ bytesOf lines ranges
  later : before.previousEnd ≤ after.previousEnd
  safe : ∀ range ∈ ranges, range.Safe
  shaped : ∀ range ∈ ranges, range.startLine ≤ range.endLine ∧
    before.previousEnd < range.startLine ∧ range.endLine ≤ after.previousEnd
  rising : ranges.Pairwise fun first second => first.endLine < second.startLine
  marked : ∀ index, after.covered[index]? = some true ↔
    before.covered[index]? = some true ∨ ∃ range ∈ ranges, range.Holds index

variable {lines : List JsString}

theorem Covering.nil (state : CoverState) : Covering lines state [] state := by
  constructor
  · rfl
  · rw [bytesOf, List.flatMap_nil, List.append_nil]
  · exact le_rfl
  · intro range impossible
    cases impossible
  · intro range impossible
    cases impossible
  · exact List.Pairwise.nil
  · intro index
    simp

theorem Covering.append {before middle after : CoverState} {front back : List SourceRange}
    (first : Covering lines before front middle) (second : Covering lines middle back after) :
    Covering lines before (front ++ back) after := by
  constructor
  · exact second.size.trans first.size
  · rw [second.bytes, first.bytes, bytesOf, bytesOf, bytesOf, List.flatMap_append,
      List.append_assoc]
  · exact first.later.trans second.later
  · intro range member
    rcases List.mem_append.mp member with early | late
    · exact first.safe range early
    · exact second.safe range late
  · intro range member
    have low := first.later
    have high := second.later
    rcases List.mem_append.mp member with early | late
    · have shape := first.shaped range early
      exact ⟨shape.1, shape.2.1, shape.2.2.trans high⟩
    · have shape := second.shaped range late
      exact ⟨shape.1, low.trans_lt shape.2.1, shape.2.2⟩
  · refine List.pairwise_append.mpr ⟨first.rising, second.rising, ?_⟩
    intro one early two late
    exact (first.shaped one early).2.2.trans_lt (second.shaped two late).2.1
  · intro index
    rw [second.marked, first.marked, or_assoc]
    simp only [List.mem_append, or_and_right, exists_or]

private theorem coverLines_ok {indices : List Nat} {before after : CoverState}
    (run : Reaches (coverLine lines) before indices after) :
    after.covered.length = before.covered.length ∧ after.previousEnd = before.previousEnd ∧
      after.sourceBytes =
        before.sourceBytes ++ (indices.flatMap fun index => lines[index]?.getD []) ∧
      ∀ index, after.covered[index]? = some true ↔
        before.covered[index]? = some true ∨ index ∈ indices := by
  induction indices generalizing before with
  | nil =>
      obtain rfl := reaches_nil.mp run
      simp
  | cons line indices ih =>
      obtain ⟨middle, first, rest⟩ := reaches_cons.mp run
      obtain ⟨fresh, built⟩ := guard_ok_iff.mp first
      have untouched : before.covered[line]? = some false := by simpa using fresh
      obtain rfl := Except.ok.inj built
      obtain ⟨size, previous, bytes, marked⟩ := ih rest
      refine ⟨by simpa using size, previous, ?_, ?_⟩
      · rw [bytes, List.flatMap_cons, List.append_assoc]
      · intro index
        have inside : line < before.covered.length := by
          by_contra outside
          rw [List.getElem?_eq_none (Nat.le_of_not_lt outside)] at untouched
          cases untouched
        rw [marked, List.getElem?_set, List.mem_cons]
        by_cases same : line = index
        · subst same
          simp [inside]
        · rw [if_neg same]
          have other : ¬ index = line := fun equal => same equal.symm
          simp [other]

private theorem mem_indices {range : SourceRange} (shaped : 1 ≤ range.startLine) (index : Nat) :
    index ∈ range.indices ↔ range.Holds index := by
  rw [SourceRange.indices, List.mem_range'_1, SourceRange.Holds]
  omega

theorem coverRange_ok {range : SourceRange} {before after : CoverState}
    (covered : coverRange lines before range = .ok after) :
    Covering lines before [range] after := by
  obtain ⟨good, run⟩ := guard_ok_iff.mp covered
  unfold badRange at good
  push Not at good
  obtain ⟨safeStart, safeEnd, positive, ordered, -, fresh⟩ := good
  obtain ⟨size, previous, bytes, marked⟩ := coverLines_ok run
  simp only at previous
  constructor
  · exact size
  · rw [bytes, bytesOf, List.flatMap_singleton]
  · rw [previous]
    omega
  · intro other member
    obtain rfl := List.mem_singleton.mp member
    exact ⟨by simpa using safeStart, by simpa using safeEnd⟩
  · intro other member
    obtain rfl := List.mem_singleton.mp member
    exact ⟨ordered, fresh, previous.ge⟩
  · exact List.pairwise_singleton _ _
  · intro index
    rw [marked, mem_indices positive]
    simp

theorem coverRanges_ok {ranges : List SourceRange} {before after : CoverState}
    (run : Reaches (coverRange lines) before ranges after) :
    Covering lines before ranges after := by
  induction ranges generalizing before with
  | nil =>
      obtain rfl := reaches_nil.mp run
      exact Covering.nil before
  | cons range ranges ih =>
      obtain ⟨middle, first, rest⟩ := reaches_cons.mp run
      exact (coverRange_ok first).append (ih rest)

end Coverage

section Mapping

variable {sha256 : JsString → JsString} {lines : List JsString} {proposal : MemoryMigrationV1_2}
  {now : JsString}

def confirmedLesson (sha256 : JsString → JsString) (lines : List JsString)
    (proposal : MemoryMigrationV1_2) (now : JsString) (lesson : LessonMapping) : Lesson :=
  migratedLesson sha256 proposal now lesson (bytesOf lines lesson.sourceRanges)

/-- What mapping some lessons in turn leaves: the ranges of all of them are covered in order. -/
theorem mapLessons_ok {lessons : List LessonMapping} {before after : MappingState}
    (run : Reaches (mapLesson sha256 lines proposal now) before lessons after) :
    Covering lines ⟨before.covered, before.previousEnd, []⟩
        (lessons.flatMap LessonMapping.sourceRanges)
        ⟨after.covered, after.previousEnd, bytesOf lines (lessons.flatMap LessonMapping.sourceRanges)⟩ ∧
      after.confirmed =
        before.confirmed ++ lessons.map (confirmedLesson sha256 lines proposal now) := by
  induction lessons generalizing before with
  | nil =>
      obtain rfl := reaches_nil.mp run
      exact ⟨Covering.nil _, (List.append_nil _).symm⟩
  | cons lesson lessons ih =>
      obtain ⟨middle, first, rest⟩ := reaches_cons.mp run
      unfold mapLesson at first
      cases covering : lesson.sourceRanges.foldlM (coverRange lines)
          ⟨before.covered, before.previousEnd, []⟩ with
      | error refusal => simp [covering] at first
      | ok cover =>
          simp only [covering, Except.ok.injEq] at first
          subst first
          have head := coverRanges_ok covering
          obtain ⟨tail, confirmed⟩ := ih rest
          have bytes := head.bytes
          simp only [List.nil_append] at bytes
          constructor
          · have shifted : Covering lines cover (lessons.flatMap LessonMapping.sourceRanges)
                ⟨after.covered, after.previousEnd, cover.sourceBytes ++
                  bytesOf lines (lessons.flatMap LessonMapping.sourceRanges)⟩ :=
              ⟨tail.size, rfl, tail.later, tail.safe, tail.shaped, tail.rising, tail.marked⟩
            have whole := head.append shifted
            rw [bytes] at whole
            rw [List.flatMap_cons]
            refine ⟨whole.size, ?_, whole.later, whole.safe, whole.shaped, whole.rising,
              whole.marked⟩
            rw [List.nil_append]
          · rw [confirmed, bytes, List.map_cons, List.append_assoc, List.singleton_append]
            rfl

/-- A migration that is ready: the ranges cover the lines that need a lesson, in order. -/
theorem reduceLegacyMemoryMigration_ok {source : JsString} {ledger : CuratedMemoryV1}
    (ready : reduceLegacyMemoryMigration sha256 source proposal now = .ok ledger) :
    ∃ after : MappingState,
      Covering (exactLines source)
        ⟨List.replicate (exactLines source).length false, 0, []⟩
        (proposal.lessons.flatMap LessonMapping.sourceRanges)
        ⟨after.covered, after.previousEnd,
          bytesOf (exactLines source) (proposal.lessons.flatMap LessonMapping.sourceRanges)⟩ ∧
      everyLineCovered (exactLines source) after.covered = true ∧
      ledger.confirmed.Perm
        (proposal.lessons.map (confirmedLesson sha256 (exactLines source) proposal now)) ∧
      ledger.archive = [] ∧ ledger.projectionDigest = sha256 (renderCuratedMemory ledger) := by
  unfold reduceLegacyMemoryMigration at ready
  obtain ⟨-, mapped⟩ := guard_ok_iff.mp ready
  obtain ⟨after, run, rest⟩ := bind_ok_iff.mp mapped
  obtain ⟨all, sized⟩ := guard_ok_iff.mp rest
  obtain ⟨-, built⟩ := guard_ok_iff.mp sized
  obtain ⟨covering, confirmed⟩ := mapLessons_ok run
  obtain rfl := Except.ok.inj built
  refine ⟨after, covering, by simpa using all, ?_, rfl, rfl⟩
  rw [List.nil_append] at confirmed
  rw [← confirmed]
  exact List.perm_insertionSort BySourceId after.confirmed

end Mapping

section Adoption

variable {sha256 : JsString → JsString} {source : JsString} {proposal : MemoryMigrationV1_2}
  {now : JsString} {ledger : CuratedMemoryV1}

/-- The lesson at a place of the mapping is assigned a line. -/
def Assigned (proposal : MemoryMigrationV1_2) (index place : Nat) : Prop :=
  ∃ lesson, proposal.lessons[place]? = some lesson ∧
    ∃ range ∈ lesson.sourceRanges, range.Holds index

private theorem ranges_apart
    (rising : (proposal.lessons.flatMap LessonMapping.sourceRanges).Pairwise
      fun first second => first.endLine < second.startLine)
    {place other : Nat} (before : place < other) {lesson next : LessonMapping}
    (here : proposal.lessons[place]? = some lesson) (there : proposal.lessons[other]? = some next) :
    ∀ one ∈ lesson.sourceRanges, ∀ two ∈ next.sourceRanges, one.endLine < two.startLine := by
  have across := (List.pairwise_flatMap.mp rising).2
  obtain ⟨inside, rfl⟩ := List.getElem?_eq_some_iff.mp here
  obtain ⟨insideOther, rfl⟩ := List.getElem?_eq_some_iff.mp there
  exact List.pairwise_iff_getElem.mp across place other inside insideOther before

theorem assigned_once {lines : List JsString} {after : CoverState}
    (covering : Covering lines ⟨List.replicate lines.length false, 0, []⟩
      (proposal.lessons.flatMap LessonMapping.sourceRanges) after)
    (all : everyLineCovered lines after.covered = true) {index : Nat} {line : JsString}
    (found : lines[index]? = some line) (needs : needsLesson line = true) :
    ∃! place, Assigned proposal index place := by
  have entry : (line, index) ∈ lines.zipIdx := List.mem_zipIdx_iff_getElem?.mpr found
  have covered := List.all_eq_true.mp all _ entry
  simp only [needs, Bool.not_true, Bool.false_or, decide_eq_true_eq] at covered
  have marked := (covering.marked index).mp covered
  have blank : ¬ (List.replicate lines.length false)[index]? = some true := by
    intro impossible
    have member := List.mem_of_getElem? impossible
    cases (List.eq_of_mem_replicate member)
  obtain ⟨range, member, holds⟩ := marked.resolve_left blank
  obtain ⟨lesson, listed, own⟩ := List.mem_flatMap.mp member
  obtain ⟨place, here⟩ := List.mem_iff_getElem?.mp listed
  refine ⟨place, ⟨lesson, here, range, own, holds⟩, ?_⟩
  rintro other ⟨next, there, second, owned, held⟩
  rcases Nat.lt_trichotomy other place with less | same | more
  · have apart := ranges_apart covering.rising less there here second owned range own
    have upper := held.2
    have lower := holds.1
    omega
  · exact same
  · have apart := ranges_apart covering.rising more here there range own second owned
    have upper := holds.2
    have lower := held.1
    omega

/-- The texts a migration and the validation of its ledger take digests of. -/
def digestedTexts (sha256 : JsString → JsString) (source : JsString)
    (proposal : MemoryMigrationV1_2) : List JsString :=
  proposal.lessons.flatMap fun lesson =>
    let material := sourceText proposal.sourceDigest lesson.sourceRanges
      (bytesOf (exactLines source) lesson.sourceRanges)
    [material,
      canonicalizeJson (lessonContent lesson.title (unitSorted lesson.why)
        (unitSorted lesson.apply) [sha256 material]),
      canonicalizeJson (lessonContent lesson.title (sortedTexts (unitSorted lesson.why))
        (sortedTexts (unitSorted lesson.apply)) [sha256 material])]

/-- The two comparison functions put every two of the texts in one order. -/
def OrdersAgree (texts : List JsString) : Prop :=
  ∀ x ∈ texts, ∀ y ∈ texts, ByCodeUnits x y → ByText x y

theorem ordersAgree_iff (texts : List JsString) :
    OrdersAgree texts ↔ sortedTexts (unitSorted texts) = unitSorted texts :=
  (sortedUnique_resort_iff texts).symm

/-- A migrated lesson carries the identity the validation expects exactly when the orders agree. -/
theorem confirmedLesson_named_iff {lesson : LessonMapping} (listed : lesson ∈ proposal.lessons)
    (free : ∀ a ∈ digestedTexts sha256 source proposal,
      ∀ b ∈ digestedTexts sha256 source proposal, sha256 a = sha256 b → a = b) :
    let confirmed := confirmedLesson sha256 (exactLines source) proposal now lesson
    confirmed.lessonId = expectedLessonId sha256 confirmed ↔
      OrdersAgree lesson.why ∧ OrdersAgree lesson.apply := by
  intro confirmed
  have single (id : JsString) : sortedTexts [id] = [id] :=
    sortedUnique_eq_self (List.nodup_singleton id) (List.pairwise_singleton _ _)
  rw [ordersAgree_iff, ordersAgree_iff]
  show lessonDigest sha256 lesson.title (unitSorted lesson.why) (unitSorted lesson.apply) _ =
    lessonDigest sha256 lesson.title (sortedTexts (unitSorted lesson.why))
      (sortedTexts (unitSorted lesson.apply)) (sortedTexts [_]) ↔ _
  rw [single]
  constructor
  · intro same
    have texts := free _ (List.mem_flatMap.mpr ⟨lesson, listed, by simp⟩) _
      (List.mem_flatMap.mpr ⟨lesson, listed, by simp⟩) same
    obtain ⟨why, apply, -⟩ := content_injective texts
    exact ⟨why.symm, apply.symm⟩
  · rintro ⟨why, apply⟩
    rw [why, apply]

theorem confirmed_distinct
    (safe : ∀ range ∈ proposal.lessons.flatMap LessonMapping.sourceRanges, range.Safe)
    (ordered : ∀ range ∈ proposal.lessons.flatMap LessonMapping.sourceRanges,
      range.startLine ≤ range.endLine)
    (rising : (proposal.lessons.flatMap LessonMapping.sourceRanges).Pairwise
      fun first second => first.endLine < second.startLine)
    (free : ∀ a ∈ digestedTexts sha256 source proposal,
      ∀ b ∈ digestedTexts sha256 source proposal, sha256 a = sha256 b → a = b) :
    ((proposal.lessons.map (confirmedLesson sha256 (exactLines source) proposal now)).map
      Lesson.lessonId).Nodup := by
  rw [List.map_map, List.Nodup, List.pairwise_map, List.pairwise_iff_getElem]
  intro place other inside insideOther before same
  have here : proposal.lessons[place] ∈ proposal.lessons := List.getElem_mem inside
  have there : proposal.lessons[other] ∈ proposal.lessons := List.getElem_mem insideOther
  have contents := free _ (List.mem_flatMap.mpr ⟨_, here, by simp⟩) _
    (List.mem_flatMap.mpr ⟨_, there, by simp⟩) same
  have digests := List.singleton_inj.mp (content_injective contents).2.2
  have materials := free _ (List.mem_flatMap.mpr ⟨_, here, by simp⟩) _
    (List.mem_flatMap.mpr ⟨_, there, by simp⟩) digests
  have ranges := sourceText_injective
    (fun range member => safe range (List.mem_flatMap.mpr ⟨_, here, member⟩))
    (fun range member => safe range (List.mem_flatMap.mpr ⟨_, there, member⟩)) materials
  obtain ⟨range, own⟩ := List.exists_mem_of_ne_nil _ (proposal.lessons[place]).sourced
  have apart := ranges_apart rising before (List.getElem?_eq_getElem inside)
    (List.getElem?_eq_getElem insideOther) range own range (ranges ▸ own)
  have shape := ordered range (List.mem_flatMap.mpr ⟨_, here, own⟩)
  omega

end Adoption

section Upgrade

variable {sha256 : JsString → JsString} {ledger : CuratedMemoryV1}

theorem renderCuratedMemory_congr {left right : CuratedMemoryV1}
    (confirmed : left.confirmed = right.confirmed) (archive : left.archive = right.archive) :
    renderCuratedMemory left = renderCuratedMemory right := by
  rw [renderCuratedMemory, renderCuratedMemory, renderLines, renderLines, confirmed, archive]

private theorem upgradedLessons_ok (mappings : List (JsString × LessonUpgrade))
    (lessons : List Lesson)
    (mapped : ∀ lesson ∈ lessons, lesson.lessonId ∈ mappings.map Prod.fst) :
    ∃ upgraded, (lessons.mapM fun lesson =>
        (mapGet mappings lesson.lessonId).map (upgradedLesson lesson)) = some upgraded ∧
      upgraded.map CurrentLesson.toLesson = lessons := by
  induction lessons with
  | nil => exact ⟨[], rfl, rfl⟩
  | cons lesson rest ih =>
      obtain ⟨later, restMapped, same⟩ := ih fun other member =>
        mapped other (List.mem_cons_of_mem _ member)
      cases found : mapGet mappings lesson.lessonId with
      | none => exact absurd (mapped lesson List.mem_cons_self) (mapGet_eq_none_iff.mp found)
      | some mapping =>
          refine ⟨upgradedLesson lesson mapping :: later, ?_, ?_⟩
          · rw [List.mapM_cons, restMapped, found]
            rfl
          · rw [List.map_cons, same]
            rfl

/-- A complete mapping upgrades a ledger of distinct lessons without changing what it shows. -/
theorem upgrade_keeps {sourceBytes : JsString} {upgrade : MemoryMigrationV1_4} (now : JsString)
    (distinct : (ledger.confirmed.map Lesson.lessonId).Nodup)
    (bound : upgrade.sourceDigest = sha256 sourceBytes)
    (complete : (upgrade.lessons.map LessonUpgrade.lessonId).Perm
      (ledger.confirmed.map Lesson.lessonId)) :
    ∃ current, upgradeCuratedMemoryV1 sha256 sourceBytes ledger upgrade now = .ok (some current) ∧
      current.confirmed.map CurrentLesson.toLesson = ledger.confirmed ∧
      current.archive.map CurrentTombstone.toTombstone = ledger.archive ∧
      renderCuratedMemory current.asV1 = renderCuratedMemory ledger ∧
      current.projectionDigest = sha256 (renderCuratedMemory ledger) := by
  have keys : (upgrade.lessons.map fun lesson => (lesson.lessonId, lesson)).map Prod.fst =
      upgrade.lessons.map LessonUpgrade.lessonId := by
    rw [List.map_map]
    rfl
  have once := complete.nodup_iff.mpr distinct
  have sizes := complete.length_eq
  rw [List.length_map, List.length_map] at sizes
  have listed : ∀ lesson ∈ ledger.confirmed,
      lesson.lessonId ∈ upgrade.lessons.map LessonUpgrade.lessonId := fun lesson member =>
    complete.mem_iff.mpr (List.mem_map_of_mem member)
  obtain ⟨upgraded, mapped, lessons⟩ := upgradedLessons_ok
    (upgrade.lessons.map fun lesson => (lesson.lessonId, lesson)) ledger.confirmed
    (by rw [keys]; exact listed)
  have tombstones : (ledger.archive.map fun tombstone =>
      ({ toTombstone := tombstone, facts := none } : CurrentTombstone)).map
      CurrentTombstone.toTombstone = ledger.archive := by
    rw [List.map_map]
    exact List.map_id _
  unfold upgradeCuratedMemoryV1
  simp only [keys, eraseDups_eq_self once, List.length_map, mapped, Option.map_some]
  rw [if_neg (not_not.mpr bound), if_neg]
  case hnc =>
    rintro (short | other | missing)
    · exact short rfl
    · exact other sizes
    · exact missing listed
  refine ⟨_, rfl, lessons, tombstones, renderCuratedMemory_congr lessons tombstones, ?_⟩
  exact congrArg sha256 (renderCuratedMemory_congr lessons tombstones)

end Upgrade

section Readable

variable {sha256 : JsString → JsString} {source : JsString} {proposal : MemoryMigrationV1_2}
  {now : JsString} {ledger : CuratedMemoryV1}

/-- What an adopted memory is for: it is readable, no line that needs a lesson is lost or told
twice, and every complete mapping upgrades it to the same memory. -/
structure Adopted (sha256 : JsString → JsString) (source : JsString)
    (proposal : MemoryMigrationV1_2) (ledger : CuratedMemoryV1) : Prop where
  semantics : validatesCuratedMemorySemantics sha256 ledger = true
  projection : validateCuratedMemoryProjection sha256 ledger (renderCuratedMemory ledger) = .valid
  assigned : ∀ index line, (exactLines source)[index]? = some line → needsLesson line = true →
    ∃! place, Assigned proposal index place
  upgrades : ∀ sourceBytes upgrade later, upgrade.sourceDigest = sha256 sourceBytes →
    (upgrade.lessons.map LessonUpgrade.lessonId).Perm (ledger.confirmed.map Lesson.lessonId) →
    ∃ current, upgradeCuratedMemoryV1 sha256 sourceBytes ledger upgrade later =
        .ok (some current) ∧
      current.confirmed.map CurrentLesson.toLesson = ledger.confirmed ∧
      current.archive.map CurrentTombstone.toTombstone = ledger.archive ∧
      renderCuratedMemory current.asV1 = renderCuratedMemory ledger ∧
      current.projectionDigest = sha256 (renderCuratedMemory ledger)

/-- A migration that is ready adopts its document exactly when the two comparison functions order
the texts of every lesson alike. -/
theorem adopted_memory_iff
    (ready : reduceLegacyMemoryMigration sha256 source proposal now = .ok ledger)
    (free : ∀ a ∈ digestedTexts sha256 source proposal,
      ∀ b ∈ digestedTexts sha256 source proposal, sha256 a = sha256 b → a = b) :
    Adopted sha256 source proposal ledger ↔
      ∀ lesson ∈ proposal.lessons, OrdersAgree lesson.why ∧ OrdersAgree lesson.apply := by
  obtain ⟨after, covering, all, perm, archive, digest⟩ := reduceLegacyMemoryMigration_ok ready
  have named : (∀ lesson ∈ ledger.confirmed, lesson.lessonId = expectedLessonId sha256 lesson) ↔
      ∀ lesson ∈ proposal.lessons, OrdersAgree lesson.why ∧ OrdersAgree lesson.apply := by
    constructor
    · intro each lesson listed
      apply (confirmedLesson_named_iff listed free).mp
      exact each _ (perm.mem_iff.mpr (List.mem_map_of_mem listed))
    · intro agree lesson member
      obtain ⟨mapping, listed, rfl⟩ := List.mem_map.mp (perm.mem_iff.mp member)
      exact (confirmedLesson_named_iff listed free).mpr (agree mapping listed)
  constructor
  · intro adopted
    exact named.mp (validatesCuratedMemorySemantics_iff.mp adopted.semantics).named
  · intro agree
    have distinct : (ledger.confirmed.map Lesson.lessonId).Nodup := by
      apply ((perm.map Lesson.lessonId).nodup_iff).mpr
      exact confirmed_distinct covering.safe (fun range member => (covering.shaped range member).1)
        covering.rising free
    have linked : (registerOf ledger.confirmed ledger.archive).Linked := by
      rw [archive]
      constructor
      · rw [Register.names, registerOf, List.map_nil, List.map_nil, List.append_nil]
        exact distinct
      · intro entry impossible
        cases impossible
    constructor
    · exact validatesCuratedMemorySemantics_iff.mpr ⟨named.mpr agree, linked⟩
    · exact if_pos ⟨rfl, digest⟩
    · intro index line found needs
      exact assigned_once covering all found needs
    · intro sourceBytes upgrade later bound complete
      exact upgrade_keeps later distinct bound complete

end Readable

section Sample

def sampleSource : JsString := js "Pin the tool.\n"

def sampleSourceDigest : JsString :=
  js "4ac507c386dbd382109426e7a9df8283c5e218708cd071671f2dcc27abb2459b"

def sampleMaterialDigest : JsString :=
  js "7839c0bfa54fa43f262f58bbaf4f0ccabb6f586a6439e271c053f4d5c863c6bd"

/-- The canonical text of the sample lesson with the given reasons. -/
def sampleContent (why : List JsString) : JsString :=
  canonicalizeJson (lessonContent (js "Pin") why [js "Pin it."] [sampleMaterialDigest])

/-- The rendering of the sample ledger, by the identity of its lesson and its reasons. -/
def sampleRendering (lessonId : String) (why : List String) : JsString :=
  js ("# Gotchas\n\n## Confirmed lessons\n\n### Pin\n\n- Lesson: " ++ lessonId ++
    String.join (why.map fun reason => "\n- Why: " ++ reason) ++ "\n- Apply: Pin it.\n- Candidates: " ++
    "7839c0bfa54fa43f262f58bbaf4f0ccabb6f586a6439e271c053f4d5c863c6bd" ++
    "\n- Reviewed by: claude:r at 2026-01-02T00:00:00.000Z\n\n## Archived lessons\n\n" ++
    "No archived lessons.\n")

/-- The digests of the texts of the sample migrations. -/
def adoptionDigests : List (JsString × JsString) := [
  (sampleSource, sampleSourceDigest),
  (sourceText sampleSourceDigest [⟨1, 1⟩] sampleSource, sampleMaterialDigest),
  (sampleContent [js "a", js "b"],
    js "47ee0ac4d2ee9cae61adac6ebb7a7de23bac594d2cef4e4e9419084eefc1055f"),
  (sampleContent [js "😀", js "｡"],
    js "cf8565ceca9d5e6c5a94f80e5caa204f435775af327bdfce488a3ba6a3d51a62"),
  (sampleContent [js "｡", js "😀"],
    js "4cac1724c1a919fbf0d23ecfdcbb23baef7c94210571d26ab66b663927a75d4a"),
  (sampleRendering "47ee0ac4d2ee9cae61adac6ebb7a7de23bac594d2cef4e4e9419084eefc1055f" ["a", "b"],
    js "3c81187913f2073ef98239fe3cc3597f8274ea1f5984d1d41bc50dea393d5c90"),
  (sampleRendering "cf8565ceca9d5e6c5a94f80e5caa204f435775af327bdfce488a3ba6a3d51a62" ["😀", "｡"],
    js "53d67f4883e0aa80137754b6f2128a1a18b60884690816aee3a2c8df88faf70c")]

def adoptionSha256 (text : JsString) : JsString :=
  ((adoptionDigests.find? fun entry => entry.1 == text).map Prod.snd).getD []

/-- The mapping of the one line of the sample document to a lesson with the given reasons. -/
def sampleMapping (why : List JsString) : MemoryMigrationV1_2 where
  sourceDigest := sampleSourceDigest
  reviewer := js "claude:r"
  lessons := [{
    title := js "Pin"
    why
    apply := [js "Pin it."]
    sourceRanges := [⟨1, 1⟩]
    sourced := List.cons_ne_nil _ _ }]

def sampleMigration (why : List JsString) : Except MigrationRefusal CuratedMemoryV1 :=
  reduceLegacyMemoryMigration adoptionSha256 sampleSource (sampleMapping why)
    (js "2026-01-02T00:00:00.000Z")

/-- A character beyond the first plane beside a full-width one is adopted and then rejected. -/
theorem astral_reason_rejected :
    ∃ ledger, sampleMigration [js "😀", js "｡"] = .ok ledger ∧
      ledger.projectionDigest =
        js "53d67f4883e0aa80137754b6f2128a1a18b60884690816aee3a2c8df88faf70c" ∧
      validatesCuratedMemorySemantics adoptionSha256 ledger = false := by
  have evaluated : (sampleMigration [js "😀", js "｡"]).toOption.any (fun ledger =>
      decide (ledger.projectionDigest =
        js "53d67f4883e0aa80137754b6f2128a1a18b60884690816aee3a2c8df88faf70c") &&
      !validatesCuratedMemorySemantics adoptionSha256 ledger) = true := by
    decide +kernel
  cases outcome : sampleMigration [js "😀", js "｡"] with
  | error refusal =>
      rw [outcome] at evaluated
      cases evaluated
  | ok ledger =>
      rw [outcome] at evaluated
      simp only [Except.toOption, Option.any_some, Bool.and_eq_true, decide_eq_true_eq,
        Bool.not_eq_true'] at evaluated
      exact ⟨ledger, rfl, evaluated⟩

/-- Reasons in plain letters are adopted for good. -/
theorem plain_reason_adopted :
    ∃ ledger, sampleMigration [js "a", js "b"] = .ok ledger ∧
      Adopted adoptionSha256 sampleSource (sampleMapping [js "a", js "b"]) ledger := by
  have ready : (sampleMigration [js "a", js "b"]).toOption.isSome = true := by decide +kernel
  cases outcome : sampleMigration [js "a", js "b"] with
  | error refusal =>
      rw [outcome] at ready
      cases ready
  | ok ledger =>
      have free : ∀ a ∈ digestedTexts adoptionSha256 sampleSource (sampleMapping [js "a", js "b"]),
          ∀ b ∈ digestedTexts adoptionSha256 sampleSource (sampleMapping [js "a", js "b"]),
          adoptionSha256 a = adoptionSha256 b → a = b := by
        decide +kernel
      refine ⟨ledger, rfl, (adopted_memory_iff outcome free).mpr ?_⟩
      intro lesson listed
      obtain rfl := List.mem_singleton.mp listed
      constructor
      · apply (ordersAgree_iff _).mpr
        show sortedTexts (unitSorted [js "a", js "b"]) = unitSorted [js "a", js "b"]
        decide +kernel
      · apply (ordersAgree_iff _).mpr
        show sortedTexts (unitSorted [js "Pin it."]) = unitSorted [js "Pin it."]
        decide +kernel

end Sample

end Kratos.Memory
