/- source: domain/memory/index.ts, composition/migration.ts
   digest: Which changes and curation batches keep a curated memory valid. -/

import Kratos.Memory.Edits

set_option autoImplicit false

namespace Kratos.Memory

open Foundation.Text Foundation.Lines Foundation.Sorting
open Foundation.Retirement Foundation.Runs

abbrev shared (lessons : List CurrentLesson) : List Lesson := lessons.map CurrentLesson.toLesson

abbrev sharedTombstones (archive : List CurrentTombstone) : List Tombstone :=
  archive.map CurrentTombstone.toTombstone

section Completion

variable {sha256 : JsString → JsString} {confirmed : List CurrentLesson}
  {archive : List CurrentTombstone}

theorem Consistent.perm {left right : List Lesson} {tombstones : List Tombstone}
    (consistent : Consistent sha256 left tombstones) (perm : left.Perm right) :
    Consistent sha256 right tombstones := by
  constructor
  · intro lesson member
    exact consistent.named lesson (perm.mem_iff.mpr member)
  · exact consistent.linked.perm (perm.map Lesson.lessonId) rfl

theorem completeCurrent_ok {prior : CuratedMemoryV1_1} {ids : List JsString} {now : JsString}
    {ready : ReadyChange}
    (completed : completeCurrent sha256 prior confirmed archive ids now = .ok ready) :
    confirmed.length ≤ CURATED_MEMORY_CONFIRMED_MAX ∧
      ready.ledger.confirmed = confirmed.insertionSort ByCurrentLessonId ∧
      ready.ledger.archive = lastEntries CURATED_MEMORY_ARCHIVE_MAX archive ∧
      ready.ledger.projectionDigest = sha256 (renderCuratedMemory ready.ledger.asV1) := by
  unfold completeCurrent at completed
  obtain ⟨few, built⟩ := guard_ok_iff.mp completed
  obtain rfl := Except.ok.inj built
  exact ⟨Nat.le_of_not_lt few, rfl, rfl, rfl⟩

/-- A completed ledger is valid exactly when its entries are consistent and not too large. -/
theorem completed_valid_iff {prior : CuratedMemoryV1_1} {ids : List JsString} {now : JsString}
    {ready : ReadyChange}
    (completed : completeCurrent sha256 prior confirmed archive ids now = .ok ready) :
    ValidLedger sha256 ready.ledger ↔
      Consistent sha256 (shared confirmed)
        (sharedTombstones (lastEntries CURATED_MEMORY_ARCHIVE_MAX archive)) ∧
      renderedBytes (shared confirmed)
        (sharedTombstones (lastEntries CURATED_MEMORY_ARCHIVE_MAX archive)) ≤
          CURATED_MEMORY_RENDERED_MAX_BYTES := by
  obtain ⟨few, lessons, tombstones, -⟩ := completeCurrent_ok completed
  have perm : (shared ready.ledger.confirmed).Perm (shared confirmed) := by
    rw [lessons]
    exact (List.perm_insertionSort ByCurrentLessonId confirmed).map CurrentLesson.toLesson
  have archived : sharedTombstones ready.ledger.archive =
      sharedTombstones (lastEntries CURATED_MEMORY_ARCHIVE_MAX archive) := by rw [tombstones]
  have bytes : utf8Length (renderCuratedMemory ready.ledger.asV1) =
      renderedBytes (shared confirmed)
        (sharedTombstones (lastEntries CURATED_MEMORY_ARCHIVE_MAX archive)) := by
    rw [utf8Length_renderCuratedMemory, ← archived]
    exact renderedBytes_perm perm _
  constructor
  · intro valid
    have consistent := validatesCuratedMemorySemantics_iff.mp valid.semantics
    rw [← bytes, ← archived]
    exact ⟨Consistent.perm consistent perm, valid.rendered⟩
  · rintro ⟨consistent, small⟩
    rw [← archived] at consistent
    refine ⟨validatesCuratedMemorySemantics_iff.mpr (consistent.perm perm.symm), ?_, ?_,
      bytes.le.trans small⟩
    · rw [lessons, List.length_insertionSort]
      exact few
    · rw [tombstones]
      exact lastEntries_length CURATED_MEMORY_ARCHIVE_MAX archive

theorem ValidLedger.consistent {ledger : CuratedMemoryV1_1} (valid : ValidLedger sha256 ledger) :
    Consistent sha256 (shared ledger.confirmed) (sharedTombstones ledger.archive) :=
  validatesCuratedMemorySemantics_iff.mp valid.semantics

private theorem lessonFor_named (title : JsString) (why apply candidateIds : List JsString)
    (reviewer confirmedAt : JsString) :
    (lessonFor sha256 title (sortedTexts why) (sortedTexts apply) (sortedTexts candidateIds)
      reviewer confirmedAt).lessonId =
    expectedLessonId sha256 (lessonFor sha256 title (sortedTexts why) (sortedTexts apply)
      (sortedTexts candidateIds) reviewer confirmedAt) := by
  simp only [expectedLessonId, lessonFor, sortedTexts, sortedUnique_idem]

private theorem shared_concat (lessons : List CurrentLesson) (lesson : CurrentLesson) :
    shared (lessons ++ [lesson]) = shared lessons ++ [lesson.toLesson] := List.map_append

private theorem named_without {lessons : List CurrentLesson} {ids : List JsString}
    (named : ∀ lesson ∈ shared lessons, lesson.lessonId = expectedLessonId sha256 lesson) :
    ∀ lesson ∈ shared (withoutLessons lessons ids),
      lesson.lessonId = expectedLessonId sha256 lesson := by
  intro lesson member
  obtain ⟨current, held, rfl⟩ := List.mem_map.mp member
  exact named _ (List.mem_map_of_mem (List.mem_of_mem_filter held))

end Completion

section Selection

variable {confirmed : List CurrentLesson}

theorem selectByIds_some {α : Type} {key : α → JsString} {entries source : List α}
    {ids : List JsString} (selected : selectByIds key entries ids = some source) :
    source = entries.filter (fun entry => decide (key entry ∈ ids.eraseDups)) := by
  simp only [selectByIds, Option.ite_none_right_eq_some, Option.some.injEq] at selected
  exact selected.2.symm

theorem source_sublist {source : List CurrentLesson} {ids : List JsString}
    (selected : lessonsByIds confirmed ids = some source) : source.Sublist confirmed := by
  rw [selectByIds_some selected]
  exact List.filter_sublist

theorem findLesson_some {lessonId : JsString} {lesson : CurrentLesson}
    (found : findLesson confirmed lessonId = some lesson) :
    lesson ∈ confirmed ∧ lesson.lessonId = lessonId := by
  refine ⟨List.mem_of_find?_eq_some found, ?_⟩
  simpa using List.find?_some found

theorem fits_of_sublist {source : List CurrentLesson} {archive : List CurrentTombstone}
    {edit : Edit JsString} (linked : (currentRegister confirmed archive).Linked)
    (sublist : source.Sublist confirmed) (leaving : edit.leaving = lessonIds source)
    (retiring : edit.retiring = lessonIds source ∨ edit.retiring = []) :
    edit.Fits (currentRegister confirmed archive) := by
  have names : (lessonIds source).Sublist (lessonIds confirmed) := sublist.map _
  have unique := linked.unique
  rw [Register.names, active_currentRegister] at unique
  have once : (lessonIds source).Nodup := names.nodup (List.nodup_append.mp unique).1
  constructor
  · rcases retiring with same | none
    · rw [same]
      exact once
    · rw [none]
      exact List.nodup_nil
  · intro name member
    rcases retiring with same | none
    · rw [leaving, ← same]
      exact member
    · rw [none] at member
      cases member
  · intro name member
    rw [active_currentRegister]
    rw [leaving] at member
    exact names.subset member

end Selection

section Conditions

variable (sha256 : JsString → JsString)

/-- The lesson a promotion confirms, in the fields both contracts share. -/
def promoted (proposal : Promotion) (now : JsString) : Lesson :=
  lessonFor sha256 proposal.title (sortedTexts proposal.why) (sortedTexts proposal.apply)
    (sortedTexts proposal.candidateIds) proposal.reviewer now

/-- The lesson a merge confirms, in the fields both contracts share. -/
def merged (source : List CurrentLesson) (title reviewer now : JsString) : Lesson :=
  lessonFor sha256 title (unitedTexts Lesson.why source) (unitedTexts Lesson.apply source)
    (unitedTexts Lesson.candidateIds source) reviewer now

def Fitting (confirmed : List Lesson) (archive : List CurrentTombstone) : Prop :=
  renderedBytes confirmed (sharedTombstones (lastEntries CURATED_MEMORY_ARCHIVE_MAX archive)) ≤
    CURATED_MEMORY_RENDERED_MAX_BYTES

/-- The change makes a sound edit of the ledger's identities, and the entries it leaves fit. -/
def ChangeSound (ledger : CuratedMemoryV1_1) (proposal : MemoryChange) (now : JsString) : Prop :=
  let register := currentRegister ledger.confirmed ledger.archive
  match proposal with
  | .promote promotion =>
      let lesson := promoted sha256 promotion now
      (promotionEdit lesson.lessonId).Sound register ∧
        Fitting (shared ledger.confirmed ++ [lesson]) ledger.archive
  | .reinforce reviewer lessonId _ =>
      Fitting ((shared ledger.confirmed).map fun lesson =>
        if lesson.lessonId = lessonId then { lesson with reviewer } else lesson) ledger.archive
  | .merge reviewer lessonIds title =>
      ∀ source, lessonsByIds ledger.confirmed lessonIds = some source →
        let lesson := merged sha256 source title reviewer now
        (mergeEdit ledger.archive source lesson.lessonId).Sound register ∧
          Fitting (shared (withoutLessons ledger.confirmed (Memory.lessonIds source)) ++ [lesson])
            (ledger.archive ++ mergeTombstones source reviewer now lesson.lessonId)
  | .archive reviewer lessonId reason =>
      ∀ lesson, findLesson ledger.confirmed lessonId = some lesson →
        (archiveEdit ledger.archive lessonId).Sound register ∧
          Fitting (shared (withoutLessons ledger.confirmed [lessonId]))
            (ledger.archive ++ [currentTombstone lesson reviewer now reason none none])

end Conditions

section Changes

variable {sha256 : JsString → JsString} {confirmed : List CurrentLesson}
  {archive : List CurrentTombstone}

/-- Named lessons stay consistent with the tombstones exactly when the edit is sound. -/
theorem consistent_edit_iff {edit : Edit JsString} {next : List CurrentLesson}
    {after : List CurrentTombstone}
    (consistent : Consistent sha256 (shared confirmed) (sharedTombstones archive))
    (fits : edit.Fits (currentRegister confirmed archive))
    (register : currentRegister next after = edit.apply (currentRegister confirmed archive))
    (named : ∀ lesson ∈ shared next, lesson.lessonId = expectedLessonId sha256 lesson) :
    Consistent sha256 (shared next) (sharedTombstones after) ↔
      edit.Sound (currentRegister confirmed archive) := by
  have linked : (currentRegister next after).Linked ↔
      edit.Sound (currentRegister confirmed archive) := by
    rw [register]
    exact Edit.linked_iff consistent.linked fits
  constructor
  · intro afterwards
    exact linked.mp afterwards.linked
  · intro sound
    exact ⟨named, linked.mpr sound⟩

private theorem named_concat {lessons : List CurrentLesson} {lesson : CurrentLesson}
    (named : ∀ other ∈ shared lessons, other.lessonId = expectedLessonId sha256 other)
    (own : lesson.lessonId = expectedLessonId sha256 lesson.toLesson) :
    ∀ other ∈ shared (lessons ++ [lesson]), other.lessonId = expectedLessonId sha256 other := by
  intro other member
  rw [shared_concat] at member
  rcases List.mem_append.mp member with old | new
  · exact named other old
  · rw [List.mem_singleton.mp new]
    exact own

theorem promotion_consistent_iff (promotion : Promotion) (facts : ObservationFacts) (now : JsString)
    (consistent : Consistent sha256 (shared confirmed) (sharedTombstones archive)) :
    Consistent sha256 (shared (confirmed ++ [promotedLesson sha256 promotion facts now]))
        (sharedTombstones archive) ↔
      (promotionEdit (promoted sha256 promotion now).lessonId).Sound
        (currentRegister confirmed archive) := by
  apply consistent_edit_iff consistent
  · exact fits_of_sublist consistent.linked (List.nil_sublist _) rfl (.inr rfl)
  · exact register_promotion _
  · exact named_concat consistent.named (lessonFor_named _ _ _ _ _ _)

theorem merge_consistent_iff {source : List CurrentLesson} (canonical : CurrentLesson)
    (reviewer now : JsString) (title : Option JsString)
    (consistent : Consistent sha256 (shared confirmed) (sharedTombstones archive))
    (few : confirmed.length ≤ CURATED_MEMORY_CONFIRMED_MAX) (sublist : source.Sublist confirmed) :
    Consistent sha256
        (shared (withoutLessons confirmed (lessonIds source) ++
          [mergedLesson sha256 source canonical reviewer now title]))
        (sharedTombstones (lastEntries CURATED_MEMORY_ARCHIVE_MAX (archive ++ mergeTombstones
          source reviewer now (mergedLesson sha256 source canonical reviewer now title).lessonId))) ↔
      (mergeEdit archive source (merged sha256 source (title.getD canonical.title)
        reviewer now).lessonId).Sound (currentRegister confirmed archive) := by
  have room : source.length ≤ CURATED_MEMORY_ARCHIVE_MAX :=
    (sublist.length_le.trans few).trans (by decide)
  apply consistent_edit_iff consistent
  · exact fits_of_sublist consistent.linked sublist rfl (.inl rfl)
  · exact register_merge _ room reviewer now
  · exact named_concat (named_without consistent.named) (lessonFor_named _ _ _ _ _ _)

theorem archive_consistent_iff {lesson : CurrentLesson} (reviewer now reason : JsString)
    (consistent : Consistent sha256 (shared confirmed) (sharedTombstones archive))
    (member : lesson ∈ confirmed) :
    Consistent sha256 (shared (withoutLessons confirmed [lesson.lessonId]))
        (sharedTombstones (lastEntries CURATED_MEMORY_ARCHIVE_MAX
          (archive ++ [currentTombstone lesson reviewer now reason none none]))) ↔
      (archiveEdit archive lesson.lessonId).Sound (currentRegister confirmed archive) := by
  apply consistent_edit_iff consistent
  · exact fits_of_sublist consistent.linked (List.singleton_sublist.mpr member) rfl (.inl rfl)
  · exact register_archive lesson _ rfl rfl
  · exact named_without consistent.named

theorem push_consistent {lesson : CurrentLesson} (reviewer now reason : JsString)
    (evidence : Option CurationEvidence)
    (consistent : Consistent sha256 (shared confirmed) (sharedTombstones archive))
    (member : lesson ∈ confirmed) :
    Consistent sha256 (shared (withoutLessons confirmed [lesson.lessonId]))
      (sharedTombstones (archive ++
        [currentTombstone lesson reviewer now reason none evidence])) := by
  have sound : (pushEdit lesson.lessonId).Sound (currentRegister confirmed archive) := by
    constructor
    · intro name impossible
      cases impossible
    · intro entry _ successor _
      exact .inr ⟨fun leaves => leaves, List.not_mem_nil⟩
  have fits : (pushEdit lesson.lessonId).Fits (currentRegister confirmed archive) :=
    fits_of_sublist consistent.linked (List.singleton_sublist.mpr member) rfl (.inl rfl)
  exact (consistent_edit_iff consistent fits (register_push lesson _ rfl rfl)
    (named_without consistent.named)).mpr sound

theorem deletion_consistent_iff {lesson : CurrentLesson}
    (consistent : Consistent sha256 (shared confirmed) (sharedTombstones archive))
    (member : lesson ∈ confirmed) :
    Consistent sha256 (shared (withoutLessons confirmed [lesson.lessonId]))
        (sharedTombstones archive) ↔
      (deletionEdit lesson.lessonId).Sound (currentRegister confirmed archive) := by
  apply consistent_edit_iff consistent
  · exact fits_of_sublist consistent.linked (List.singleton_sublist.mpr member) rfl (.inr rfl)
  · exact register_deletion lesson.lessonId
  · exact named_without consistent.named

theorem trim_consistent_iff
    (consistent : Consistent sha256 (shared confirmed) (sharedTombstones archive)) :
    Consistent sha256 (shared confirmed)
        (sharedTombstones (lastEntries CURATED_MEMORY_ARCHIVE_MAX archive)) ↔
      (trimEdit archive).Sound (currentRegister confirmed archive) := by
  apply consistent_edit_iff consistent
  · exact fits_of_sublist consistent.linked (List.nil_sublist _) rfl (.inr rfl)
  · exact register_trim
  · exact consistent.named

theorem reinforcement_shared {lesson : CurrentLesson} {reviewer : JsString}
    (facts : ObservationFacts)
    (consistent : Consistent sha256 (shared confirmed) (sharedTombstones archive))
    (member : lesson ∈ confirmed) :
    shared (replaceLesson confirmed lesson (reinforcedLesson lesson reviewer facts)) =
      (shared confirmed).map fun other =>
        if other.lessonId = lesson.lessonId then { other with reviewer } else other := by
  have unique := consistent.linked.unique
  rw [Register.names] at unique
  have once : (confirmed.map fun other => other.lessonId).Nodup := by
    have active := (List.nodup_append.mp unique).1
    rwa [registerOf, List.map_map] at active
  rw [shared, replaceLesson, List.map_map, shared, List.map_map]
  apply List.map_congr_left
  intro other held
  by_cases same : other.lessonId = lesson.lessonId
  · have equal := List.inj_on_of_nodup_map once held member same
    subst equal
    simp only [Function.comp_apply, if_true]
    rfl
  · simp only [Function.comp_apply, if_neg same]

theorem reinforcement_consistent {lesson : CurrentLesson} {reviewer : JsString}
    (facts : ObservationFacts)
    (consistent : Consistent sha256 (shared confirmed) (sharedTombstones archive))
    (member : lesson ∈ confirmed) :
    Consistent sha256
      (shared (replaceLesson confirmed lesson (reinforcedLesson lesson reviewer facts)))
      (sharedTombstones archive) := by
  rw [reinforcement_shared facts consistent member]
  constructor
  · intro other held
    obtain ⟨before, present, rfl⟩ := List.mem_map.mp held
    have named := consistent.named before present
    by_cases same : before.lessonId = lesson.lessonId
    · rw [if_pos same]
      exact named
    · rw [if_neg same]
      exact named
  · have names : ((shared confirmed).map fun other =>
        if other.lessonId = lesson.lessonId then { other with reviewer } else other).map
        Lesson.lessonId = (shared confirmed).map Lesson.lessonId := by
      rw [List.map_map]
      apply List.map_congr_left
      intro other _
      by_cases same : other.lessonId = lesson.lessonId
      · rw [Function.comp_apply, if_pos same]
      · rw [Function.comp_apply, if_neg same]
    rw [registerOf, names]
    exact consistent.linked

end Changes

section Steps

variable {sha256 : JsString → JsString} {ledger : CuratedMemoryV1_1}

theorem mergeCurrent_ok {source : List CurrentLesson} {reviewer now : JsString}
    {title : Option JsString} {ready : ReadyChange}
    (done : mergeCurrent sha256 ledger source reviewer now title = .ok ready) :
    ∃ canonical, canonicalLesson source = some canonical ∧
      completeCurrent sha256 ledger
        (withoutLessons ledger.confirmed (lessonIds source) ++
          [mergedLesson sha256 source canonical reviewer now title])
        (ledger.archive ++ mergeTombstones source reviewer now
          (mergedLesson sha256 source canonical reviewer now title).lessonId) [] now =
        .ok ready := by
  unfold mergeCurrent at done
  cases first : canonicalLesson source with
  | none =>
      rw [first] at done
      cases done
  | some canonical =>
      rw [first] at done
      exact ⟨canonical, rfl, (guard_ok_iff.mp done).2⟩

theorem lastEntries_eq_self {α : Type} {limit : Nat} {values : List α}
    (few : values.length ≤ limit) : lastEntries limit values = values := by
  rw [lastEntries, Nat.sub_eq_zero_of_le few, List.drop_zero]

theorem change_cases {candidates : List CurrentCandidate} {proposal : MemoryChange}
    {now : JsString} {ready : ReadyChange}
    (reduced : reduceMemoryChangeV1_4 sha256 ledger candidates proposal now = .ok ready) :
    match proposal with
    | .promote promotion => ∃ selected facts,
        selectCandidates candidates promotion.candidateIds = some selected ∧
          observationFacts selected = some facts ∧
          completeCurrent sha256 ledger
            (ledger.confirmed ++ [promotedLesson sha256 promotion facts now])
            ledger.archive promotion.candidateIds now = .ok ready
    | .reinforce reviewer lessonId candidateIds => ∃ lesson selected facts,
        findLesson ledger.confirmed lessonId = some lesson ∧
          selectCandidates candidates candidateIds = some selected ∧
          observationFacts selected = some facts ∧
          completeCurrent sha256 ledger
            (replaceLesson ledger.confirmed lesson (reinforcedLesson lesson reviewer facts))
            ledger.archive candidateIds now = .ok ready
    | .merge reviewer ids title => ∃ source canonical,
        lessonsByIds ledger.confirmed ids = some source ∧
          canonicalLesson source = some canonical ∧
          completeCurrent sha256 ledger
            (withoutLessons ledger.confirmed (lessonIds source) ++
              [mergedLesson sha256 source canonical reviewer now (some title)])
            (ledger.archive ++ mergeTombstones source reviewer now
              (mergedLesson sha256 source canonical reviewer now (some title)).lessonId) [] now =
            .ok ready
    | .archive reviewer lessonId reason => ∃ lesson,
        findLesson ledger.confirmed lessonId = some lesson ∧
          completeCurrent sha256 ledger (withoutLessons ledger.confirmed [lesson.lessonId])
            (ledger.archive ++ [currentTombstone lesson reviewer now reason none none]) [] now =
            .ok ready := by
  have afterReviewer := (guard_ok_iff.mp reduced).2
  cases proposal with
  | promote promotion =>
      simp only at afterReviewer
      cases selection : selectCandidates candidates promotion.candidateIds with
      | none => simp [selection] at afterReviewer
      | some selected =>
          rw [selection] at afterReviewer
          have afterTexts := (guard_ok_iff.mp afterReviewer).2
          cases observed : observationFacts selected with
          | none => simp [observed] at afterTexts
          | some facts =>
              rw [observed] at afterTexts
              exact ⟨selected, facts, selection, observed, afterTexts⟩
  | reinforce reviewer lessonId candidateIds =>
      simp only at afterReviewer
      cases found : findLesson ledger.confirmed lessonId with
      | none => simp [found] at afterReviewer
      | some lesson =>
          cases selection : selectCandidates candidates candidateIds with
          | none => simp [found, selection] at afterReviewer
          | some selected =>
              rw [found, selection] at afterReviewer
              have afterProvenance := (guard_ok_iff.mp afterReviewer).2
              cases observed : observationFacts selected with
              | none => simp [observed] at afterProvenance
              | some facts =>
                  rw [observed] at afterProvenance
                  exact ⟨lesson, selected, facts, found, selection, observed, afterProvenance⟩
  | merge reviewer ids title =>
      simp only at afterReviewer
      cases selection : lessonsByIds ledger.confirmed ids with
      | none => simp [selection] at afterReviewer
      | some source =>
          rw [selection] at afterReviewer
          obtain ⟨canonical, first, completed⟩ := mergeCurrent_ok afterReviewer
          exact ⟨source, canonical, selection, first, completed⟩
  | archive reviewer lessonId reason =>
      simp only at afterReviewer
      cases found : findLesson ledger.confirmed lessonId with
      | none => simp [found] at afterReviewer
      | some lesson =>
          rw [found] at afterReviewer
          exact ⟨lesson, found, afterReviewer⟩

theorem change_valid_iff {candidates : List CurrentCandidate} {proposal : MemoryChange}
    {now : JsString} {ready : ReadyChange} (valid : ValidLedger sha256 ledger)
    (reduced : reduceMemoryChangeV1_4 sha256 ledger candidates proposal now = .ok ready) :
    ValidLedger sha256 ready.ledger ↔ ChangeSound sha256 ledger proposal now := by
  have consistent := valid.consistent
  have whole := lastEntries_eq_self valid.archiveMax
  have completion := change_cases reduced
  cases proposal with
  | promote promotion =>
      obtain ⟨-, facts, -, -, completed⟩ := completion
      rw [completed_valid_iff completed, whole,
        promotion_consistent_iff promotion facts now consistent, ChangeSound, Fitting, whole,
        shared_concat]
      rfl
  | reinforce reviewer lessonId candidateIds =>
      obtain ⟨lesson, -, facts, found, -, -, completed⟩ := completion
      obtain ⟨member, rfl⟩ := findLesson_some found
      rw [completed_valid_iff completed, whole, ChangeSound, Fitting, whole,
        ← reinforcement_shared facts consistent member]
      exact and_iff_right (reinforcement_consistent facts consistent member)
  | merge reviewer ids title =>
      obtain ⟨source, canonical, selection, -, completed⟩ := completion
      rw [completed_valid_iff completed,
        merge_consistent_iff canonical reviewer now (some title) consistent valid.confirmedMax
          (source_sublist selection), ChangeSound, shared_concat]
      constructor
      · intro held other same
        obtain rfl := Option.some.inj (selection.symm.trans same)
        exact held
      · intro all
        exact all source selection
  | archive reviewer lessonId reason =>
      obtain ⟨lesson, found, completed⟩ := completion
      obtain ⟨member, rfl⟩ := findLesson_some found
      rw [completed_valid_iff completed,
        archive_consistent_iff reviewer now reason consistent member, ChangeSound]
      constructor
      · intro held other same
        obtain rfl := Option.some.inj (found.symm.trans same)
        exact held
      · intro all
        exact all lesson found

theorem change_projected {candidates : List CurrentCandidate} {proposal : MemoryChange}
    {now : JsString} {ready : ReadyChange}
    (reduced : reduceMemoryChangeV1_4 sha256 ledger candidates proposal now = .ok ready) :
    ready.ledger.projectionDigest = sha256 (renderCuratedMemory ready.ledger.asV1) := by
  have completion := change_cases reduced
  cases proposal with
  | promote promotion =>
      obtain ⟨-, facts, -, -, completed⟩ := completion
      exact (completeCurrent_ok completed).2.2.2
  | reinforce reviewer lessonId candidateIds =>
      obtain ⟨lesson, -, facts, -, -, -, completed⟩ := completion
      exact (completeCurrent_ok completed).2.2.2
  | merge reviewer ids title =>
      obtain ⟨source, canonical, -, -, completed⟩ := completion
      exact (completeCurrent_ok completed).2.2.2
  | archive reviewer lessonId reason =>
      obtain ⟨lesson, -, completed⟩ := completion
      exact (completeCurrent_ok completed).2.2.2

end Steps

section Batches

/-- The proposal makes a sound edit of the identities the batch has reached; archiving always
does, since a batch makes room only when it merges and at its end. -/
def ProposalSound (sha256 : JsString → JsString) (reviewer now : JsString) (state : CurationState)
    (proposal : MemoryCurationProposal) : Prop :=
  ∀ source, lessonsByIds state.confirmed proposal.lessonIds = some source →
    let register := currentRegister state.confirmed state.archive
    match proposal.type with
    | .merge => ∀ canonical, canonicalLesson source = some canonical →
        (mergeEdit state.archive source
          (merged sha256 source canonical.title reviewer now).lessonId).Sound register
    | .archive _ => True
    | .delete _ => ∀ lesson, source.head? = some lesson →
        (deletionEdit lesson.lessonId).Sound register

def batchProposals (plan : MemoryCurationPlan) (approval : CurationApproval) :
    List MemoryCurationProposal :=
  approvedProposals plan approval.decisions

/-- Every approved proposal is sound where the batch reaches it, the room made at the end closes
no link, and the entries it leaves fit. -/
def CurationSound (sha256 : JsString → JsString) (ledger : CuratedMemoryV1_1)
    (plan : MemoryCurationPlan) (approval : CurationApproval) (now : JsString) : Prop :=
  let step := applyProposal sha256 ledger plan approval.reviewer now
  let start : CurationState := ⟨ledger.confirmed, ledger.archive⟩
  Throughout step (ProposalSound sha256 approval.reviewer now) start
      (batchProposals plan approval) ∧
    ∀ state, Reaches step start (batchProposals plan approval) state →
      (trimEdit state.archive).Sound (currentRegister state.confirmed state.archive) ∧
        Fitting (shared state.confirmed) state.archive

/-- What a batch keeps from one proposal to the next. -/
structure BatchInvariant (sha256 : JsString → JsString) (state : CurationState) : Prop where
  consistent : Consistent sha256 (shared state.confirmed) (sharedTombstones state.archive)
  few : state.confirmed.length ≤ CURATED_MEMORY_CONFIRMED_MAX

variable {sha256 : JsString → JsString} {ledger : CuratedMemoryV1_1} {plan : MemoryCurationPlan}

private theorem few_without {lessons : List CurrentLesson} (ids : List JsString)
    (few : lessons.length ≤ CURATED_MEMORY_CONFIRMED_MAX) :
    (withoutLessons lessons ids).length ≤ CURATED_MEMORY_CONFIRMED_MAX :=
  (List.length_filter_le _ lessons).trans few

theorem applyProposal_ok {reviewer now : JsString} {state next : CurationState}
    {proposal : MemoryCurationProposal}
    (applied : applyProposal sha256 ledger plan reviewer now state proposal = .ok next) :
    ∃ source, lessonsByIds state.confirmed proposal.lessonIds = some source ∧
      match proposal.type with
      | .merge => ∃ canonical, canonicalLesson source = some canonical ∧
          let lesson := mergedLesson sha256 source canonical reviewer now none
          let lessons := withoutLessons state.confirmed (lessonIds source) ++ [lesson]
          lessons.length ≤ CURATED_MEMORY_CONFIRMED_MAX ∧
            next.confirmed = lessons.insertionSort ByCurrentLessonId ∧
            next.archive = lastEntries CURATED_MEMORY_ARCHIVE_MAX
              (state.archive ++ mergeTombstones source reviewer now lesson.lessonId)
      | .archive components => ∃ lesson, source.head? = some lesson ∧
          next = ⟨withoutLessons state.confirmed [lesson.lessonId],
            state.archive ++ [currentTombstone lesson reviewer now
              (js "Obsolete under " ++ plan.policyVersion ++ js ".") none
              (some (curationEvidence proposal components))]⟩
      | .delete _ => ∃ lesson, source.head? = some lesson ∧
          next = ⟨withoutLessons state.confirmed [lesson.lessonId], state.archive⟩ := by
  unfold applyProposal at applied
  cases selection : lessonsByIds state.confirmed proposal.lessonIds with
  | none => simp [selection] at applied
  | some source =>
      simp only [selection] at applied
      refine ⟨source, rfl, ?_⟩
      cases kind : proposal.type with
      | merge =>
          simp only [kind] at applied
          cases merging : mergeCurrent sha256
              { ledger with confirmed := state.confirmed, archive := state.archive }
              source reviewer now none with
          | error refusal => simp [merging] at applied
          | ok reduced =>
              simp only [merging, Except.ok.injEq] at applied
              subst applied
              obtain ⟨canonical, first, completed⟩ := mergeCurrent_ok merging
              obtain ⟨few, lessons, tombstones, -⟩ := completeCurrent_ok completed
              exact ⟨canonical, first, few, lessons, tombstones⟩
      | archive components =>
          simp only [kind] at applied
          cases first : source.head? with
          | none => simp [first] at applied
          | some lesson =>
              simp only [first, Except.ok.injEq] at applied
              exact ⟨lesson, rfl, applied.symm⟩
      | delete components =>
          simp only [kind] at applied
          cases first : source.head? with
          | none => simp [first] at applied
          | some lesson =>
              simp only [first, Except.ok.injEq] at applied
              exact ⟨lesson, rfl, applied.symm⟩

theorem applyProposal_keeps {reviewer now : JsString} {state next : CurationState}
    {proposal : MemoryCurationProposal} (invariant : BatchInvariant sha256 state)
    (sound : ProposalSound sha256 reviewer now state proposal)
    (applied : applyProposal sha256 ledger plan reviewer now state proposal = .ok next) :
    BatchInvariant sha256 next := by
  obtain ⟨source, selection, outcome⟩ := applyProposal_ok applied
  have sublist := source_sublist selection
  have held := sound source selection
  cases kind : proposal.type with
  | merge =>
      simp only [kind] at outcome held
      obtain ⟨canonical, first, few, lessons, tombstones⟩ := outcome
      have consistent := (merge_consistent_iff canonical reviewer now none
        invariant.consistent invariant.few sublist).mpr (held canonical first)
      constructor
      · simp only [lessons, tombstones]
        exact consistent.perm ((List.perm_insertionSort _ _).map _).symm
      · simp only [lessons, List.length_insertionSort]
        exact few
  | archive components =>
      simp only [kind] at outcome
      obtain ⟨lesson, first, rfl⟩ := outcome
      have member := sublist.subset (List.mem_of_head? first)
      exact ⟨push_consistent reviewer now _ _ invariant.consistent member,
        few_without [lesson.lessonId] invariant.few⟩
  | delete components =>
      simp only [kind] at outcome held
      obtain ⟨lesson, first, rfl⟩ := outcome
      have member := sublist.subset (List.mem_of_head? first)
      exact ⟨(deletion_consistent_iff invariant.consistent member).mpr (held lesson first),
        few_without [lesson.lessonId] invariant.few⟩

/-- The decisions a batch reads are the ones the approval lists, each on a proposal of the plan
and no proposal twice. -/
theorem readDecisions_ok {proposalIds : List JsString}
    {decisions rest result : List (JsString × Decision)}
    (read : readDecisions proposalIds decisions rest = .ok result) :
    result = decisions ++ rest ∧ (∀ decision ∈ rest, decision.1 ∈ proposalIds) ∧
      ((decisions.map Prod.fst).Nodup → (result.map Prod.fst).Nodup) := by
  induction rest generalizing decisions with
  | nil =>
      obtain rfl := Except.ok.inj read
      exact ⟨(List.append_nil decisions).symm, List.forall_mem_nil _, id⟩
  | cons decision rest ih =>
      rw [readDecisions] at read
      obtain ⟨fresh, known⟩ := guard_ok_iff.mp read
      obtain ⟨listed, later⟩ := guard_ok_iff.mp known
      obtain ⟨whole, others, once⟩ := ih later
      refine ⟨?_, List.forall_mem_cons.mpr ⟨Decidable.not_not.mp listed, others⟩, ?_⟩
      · rw [whole, List.append_assoc, List.singleton_append]
      · intro distinct
        apply once
        rw [List.map_append, List.map_singleton]
        exact List.nodup_append_comm.mp (List.nodup_cons.mpr ⟨fresh, distinct⟩)

theorem occupy_ok {occupied rest result : List JsString} (free : occupy occupied rest = .ok result)
    (distinct : occupied.Nodup) : (occupied ++ rest).Nodup := by
  induction rest generalizing occupied with
  | nil =>
      rw [List.append_nil]
      exact distinct
  | cons lessonId rest ih =>
      rw [occupy] at free
      obtain ⟨fresh, later⟩ := guard_ok_iff.mp free
      have next := ih later (List.nodup_append_comm.mp (List.nodup_cons.mpr ⟨fresh, distinct⟩))
      rw [List.append_assoc, List.singleton_append] at next
      exact next

/-- What an approval needs for its batch to be applied. -/
structure Accepted (plan : MemoryCurationPlan) (approval : CurationApproval) : Prop where
  current : approval.planDigest = plan.planDigest
  known : ∀ decision ∈ approval.decisions,
    decision.1 ∈ plan.proposals.map MemoryCurationProposal.proposalId
  once : (approval.decisions.map Prod.fst).Nodup
  complete : approval.decisions.length = plan.proposals.length
  apart : ((batchProposals plan approval).flatMap MemoryCurationProposal.lessonIds).Nodup

/-- A batch that is applied was accepted and ran over the proposals its approval approves. -/
theorem applyMemoryCuration_ok {approval : CurationApproval} {now : JsString}
    {ready : ReadyCuration}
    (applied : applyMemoryCuration sha256 ledger plan approval now = .ok ready) :
    Accepted plan approval ∧ ∃ state completed,
      Reaches (applyProposal sha256 ledger plan approval.reviewer now)
        ⟨ledger.confirmed, ledger.archive⟩ (batchProposals plan approval) state ∧
      completeCurrent sha256 ledger state.confirmed state.archive [] now = .ok completed ∧
      ready.ledger = completed.ledger := by
  unfold applyMemoryCuration at applied
  obtain ⟨current, planned⟩ := guard_ok_iff.mp applied
  obtain ⟨decisions, read, decided⟩ := bind_ok_iff.mp planned
  obtain ⟨complete, chosen⟩ := guard_ok_iff.mp decided
  obtain ⟨occupied, free, disjoint⟩ := bind_ok_iff.mp chosen
  obtain ⟨state, run, closed⟩ := bind_ok_iff.mp disjoint
  obtain ⟨same, known, once⟩ := readDecisions_ok read
  rw [List.nil_append] at same
  subst same
  have accepted : Accepted plan approval :=
    ⟨Decidable.not_not.mp current, known, once List.nodup_nil, Decidable.not_not.mp complete,
      occupy_ok free List.nodup_nil⟩
  refine ⟨accepted, ?_⟩
  cases completion : completeCurrent sha256 ledger state.confirmed state.archive [] now with
  | error refusal => simp [completion] at closed
  | ok completed =>
      simp only [completion, Except.ok.injEq] at closed
      exact ⟨state, completed, run, completion, by rw [← closed]⟩

theorem curation_valid {approval : CurationApproval} {now : JsString} {ready : ReadyCuration}
    (valid : ValidLedger sha256 ledger) (sound : CurationSound sha256 ledger plan approval now)
    (applied : applyMemoryCuration sha256 ledger plan approval now = .ok ready) :
    ValidLedger sha256 ready.ledger := by
  obtain ⟨-, state, completed, run, completion, same⟩ := applyMemoryCuration_ok applied
  obtain ⟨proposals, closing⟩ := sound
  obtain ⟨trimmed, fitting⟩ := closing state run
  have start : BatchInvariant sha256 ⟨ledger.confirmed, ledger.archive⟩ :=
    ⟨valid.consistent, valid.confirmedMax⟩
  have invariant := run.invariant_of (BatchInvariant sha256) _ proposals start
    fun _ _ _ before held applied => applyProposal_keeps before held applied
  rw [same, completed_valid_iff completion]
  exact ⟨(trim_consistent_iff invariant.consistent).mpr trimmed, fitting⟩

end Batches

section Runs

inductive MemoryOperation
  | change (candidates : List CurrentCandidate) (proposal : MemoryChange) (now : JsString)
  | curate (plan : MemoryCurationPlan) (approval : CurationApproval) (now : JsString)

inductive MemoryRefusal
  | change (refusal : ChangeRefusal)
  | curation (refusal : CurationRefusal)

/-- One operation on the ledger, as the two reductions return it. -/
def memoryStep (sha256 : JsString → JsString) (ledger : CuratedMemoryV1_1) :
    MemoryOperation → Except MemoryRefusal CuratedMemoryV1_1
  | .change candidates proposal now =>
      match reduceMemoryChangeV1_4 sha256 ledger candidates proposal now with
      | .error refusal => .error (.change refusal)
      | .ok ready => .ok ready.ledger
  | .curate plan approval now =>
      match applyMemoryCuration sha256 ledger plan approval now with
      | .error refusal => .error (.curation refusal)
      | .ok ready => .ok ready.ledger

/-- The condition under which an operation keeps a valid ledger valid. -/
def OperationSound (sha256 : JsString → JsString) (ledger : CuratedMemoryV1_1) :
    MemoryOperation → Prop
  | .change _ proposal now => ChangeSound sha256 ledger proposal now
  | .curate plan approval now => CurationSound sha256 ledger plan approval now

variable {sha256 : JsString → JsString}

theorem memoryStep_valid {ledger next : CuratedMemoryV1_1} {operation : MemoryOperation}
    (valid : ValidLedger sha256 ledger) (sound : OperationSound sha256 ledger operation)
    (stepped : memoryStep sha256 ledger operation = .ok next) : ValidLedger sha256 next := by
  cases operation with
  | change candidates proposal now =>
      unfold memoryStep at stepped
      cases reduced : reduceMemoryChangeV1_4 sha256 ledger candidates proposal now with
      | error refusal => simp [reduced] at stepped
      | ok ready =>
          simp only [reduced, Except.ok.injEq] at stepped
          subst stepped
          exact (change_valid_iff valid reduced).mpr sound
  | curate plan approval now =>
      unfold memoryStep at stepped
      cases applied : applyMemoryCuration sha256 ledger plan approval now with
      | error refusal => simp [applied] at stepped
      | ok ready =>
          simp only [applied, Except.ok.injEq] at stepped
          subst stepped
          exact curation_valid valid sound applied

theorem memoryStep_current {ledger next : CuratedMemoryV1_1} {operation : MemoryOperation}
    (stepped : memoryStep sha256 ledger operation = .ok next) :
    next.projectionDigest = sha256 (renderCuratedMemory next.asV1) := by
  cases operation with
  | change candidates proposal now =>
      unfold memoryStep at stepped
      cases reduced : reduceMemoryChangeV1_4 sha256 ledger candidates proposal now with
      | error refusal => simp [reduced] at stepped
      | ok ready =>
          simp only [reduced, Except.ok.injEq] at stepped
          subst stepped
          exact change_projected reduced
  | curate plan approval now =>
      unfold memoryStep at stepped
      cases applied : applyMemoryCuration sha256 ledger plan approval now with
      | error refusal => simp [applied] at stepped
      | ok ready =>
          simp only [applied, Except.ok.injEq] at stepped
          subst stepped
          obtain ⟨-, state, completed, -, completion, same⟩ := applyMemoryCuration_ok applied
          rw [same]
          exact (completeCurrent_ok completion).2.2.2

/-- In a run whose operations are all sound, every ledger reached is valid and readable with its
rendering. -/
theorem curated_memory_stays_valid {start ledger : CuratedMemoryV1_1}
    {operations front back : List MemoryOperation} {operation : MemoryOperation}
    (valid : ValidLedger sha256 start)
    (sound : Throughout (memoryStep sha256) (OperationSound sha256) start operations)
    (shape : operations = front ++ operation :: back)
    (run : Reaches (memoryStep sha256) start (front ++ [operation]) ledger) :
    ValidLedger sha256 ledger ∧
      validCurrentCuratedMemory sha256 ledger.asV1 (renderCuratedMemory ledger.asV1) = true := by
  have first : Throughout (memoryStep sha256) (OperationSound sha256) start
      (front ++ [operation]) := by
    rw [shape, ← List.singleton_append, ← List.append_assoc] at sound
    exact sound.front
  have reached := run.invariant_of (ValidLedger sha256) _ first valid
    fun _ _ _ before held stepped => memoryStep_valid before held stepped
  obtain ⟨middle, -, last⟩ := reaches_snoc.mp run
  refine ⟨reached, ?_⟩
  have projected : validateCuratedMemoryProjection sha256 ledger.asV1
      (renderCuratedMemory ledger.asV1) = .valid := if_pos ⟨rfl, memoryStep_current last⟩
  rw [validCurrentCuratedMemory, reached.semantics, projected]
  rfl

end Runs

section Sample

def sampleDigests : List (Nat × JsString) := [
  (154, js "8ed8f3b0e558e1ef1595096174fccf395cce5a10fa738ef79dd80fe7fb82ed57"),
  (98, js "09b049b364f55134c3b4942b653a7b677f7775fb67de8321064e6237da852e83"),
  (340, js "1790318bf610a64dfd4b311e7cebd66ac45f858340b7a6c11e4a954344d9c9a0"),
  (605, js "7cbc7f6689505fa1ecbcb3d283e19d4dab5826b93cc4e8dad1b5593d0063009c"),
  (341, js "d2e0c0177d53fe3dd304eb44a23a10145cd15a21b3fca655c75536fb989ef75e")]

def sampleSha256 (text : JsString) : JsString :=
  ((sampleDigests.find? fun entry => entry.1 == text.length).map Prod.snd).getD []

def sampleLedger : CuratedMemoryV1_1 where
  revision := 1
  projectionDigest := js "09b049b364f55134c3b4942b653a7b677f7775fb67de8321064e6237da852e83"
  updatedAt := js "2026-01-01T00:00:00.000Z"
  confirmed := []
  archive := []

def sampleCandidate : CurrentCandidate where
  candidateId := js "5e884898da28047151d0e56f8dc6292773603d0d6aabbdd62a11ef721d1542d8"
  firstObservedAt := js "2026-01-01T00:00:00.000Z"
  counted := none

def samplePromotion : Promotion where
  reviewer := js "claude:r"
  candidateIds := [sampleCandidate.candidateId]
  title := js "Pin the tool"
  why := [js "The tool moved."]
  apply := [js "Pin it."]
  technology := js "node"
  failureKind := .toolError
  dependency := .none

/-- The promotion of the sample candidate at an instant. -/
def promoteAt (now : String) : MemoryOperation :=
  .change [sampleCandidate] (.promote samplePromotion) (js now)

private theorem sampleLedger_valid : ValidLedger sampleSha256 sampleLedger := by
  constructor
  · rfl
  · decide
  · decide
  · decide +kernel

/-- Promoting a failure that was captured again lists its lesson twice. -/
theorem repeated_promotion_lists_twice :
    ValidLedger sampleSha256 sampleLedger ∧
      ∃ final, Reaches (memoryStep sampleSha256) sampleLedger
          [promoteAt "2026-01-02T00:00:00.000Z", promoteAt "2026-01-03T00:00:00.000Z"] final ∧
        validatesCuratedMemorySemantics sampleSha256 final.asV1 = false := by
  refine ⟨sampleLedger_valid, ?_⟩
  have evaluated := reaches_of_evaluate (memoryStep sampleSha256) sampleLedger
    [promoteAt "2026-01-02T00:00:00.000Z", promoteAt "2026-01-03T00:00:00.000Z"]
    (fun final => !validatesCuratedMemorySemantics sampleSha256 final.asV1) (by decide +kernel)
  obtain ⟨final, run, rejected⟩ := evaluated
  exact ⟨final, run, by simpa using rejected⟩

private theorem promotion_sound :
    OperationSound sampleSha256 sampleLedger (promoteAt "2026-01-02T00:00:00.000Z") := by
  constructor
  · constructor
    · intro name _
      exact ⟨List.not_mem_nil, List.not_mem_nil, List.not_mem_nil⟩
    · intro entry impossible
      cases impossible
  · show renderedBytes _ _ ≤ CURATED_MEMORY_RENDERED_MAX_BYTES
    decide +kernel

/-- A first promotion keeps the empty memory valid. -/
theorem first_promotion_valid :
    ∃ ledger, Reaches (memoryStep sampleSha256) sampleLedger
        [promoteAt "2026-01-02T00:00:00.000Z"] ledger ∧
      ledger.confirmed.length = 1 ∧ ValidLedger sampleSha256 ledger ∧
      validCurrentCuratedMemory sampleSha256 ledger.asV1 (renderCuratedMemory ledger.asV1) =
        true := by
  obtain ⟨ledger, run, size⟩ := reaches_of_evaluate (memoryStep sampleSha256) sampleLedger
    [promoteAt "2026-01-02T00:00:00.000Z"] (fun ledger => ledger.confirmed.length == 1)
    (by decide +kernel)
  have sound : Throughout (memoryStep sampleSha256) (OperationSound sampleSha256) sampleLedger
      [promoteAt "2026-01-02T00:00:00.000Z"] := by
    intro front input back shape state reached
    cases front with
    | nil =>
        obtain ⟨rfl, -⟩ := List.cons.inj shape
        obtain rfl := reaches_nil.mp reached
        exact promotion_sound
    | cons first rest =>
        have lengths := congrArg List.length shape
        simp at lengths
  have run' : Reaches (memoryStep sampleSha256) sampleLedger
      ([] ++ [promoteAt "2026-01-02T00:00:00.000Z"]) ledger := run
  have outcome := curated_memory_stays_valid sampleLedger_valid sound rfl run'
  exact ⟨ledger, run, by simpa using size, outcome⟩

end Sample

end Kratos.Memory
