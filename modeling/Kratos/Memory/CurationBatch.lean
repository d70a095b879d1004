/- source: domain/memory/curation.ts, domain/memory/index.ts
   digest: An approved batch makes of a ledger what it approved, and nothing is counted twice. -/

import Kratos.Memory.CurationPlan
import Kratos.Foundation.Sha256

set_option autoImplicit false

namespace Kratos.Memory

open Foundation.Text Foundation.Batches Foundation.Calendar Foundation.Dates
open Foundation.Doubles Foundation.Runs Foundation.Sha256 Foundation.Sorting Patterns Schema

def MemoryCurationProposal.isMerge (proposal : MemoryCurationProposal) : Bool :=
  match proposal.type with
  | .merge => true
  | _ => false

def MemoryCurationProposal.isArchive (proposal : MemoryCurationProposal) : Bool :=
  match proposal.type with
  | .archive _ => true
  | _ => false

def MemoryCurationProposal.isDelete (proposal : MemoryCurationProposal) : Bool :=
  match proposal.type with
  | .delete _ => true
  | _ => false

abbrev namedBy (proposals : List MemoryCurationProposal) : List JsString :=
  proposals.flatMap MemoryCurationProposal.lessonIds

abbrev idOf (lesson : CurrentLesson) : JsString := lesson.lessonId

abbrev observations (lessons : List CurrentLesson) : Nat :=
  total CurrentLesson.observationCount lessons

theorem observations_standing (lessons : List CurrentLesson) (ids : List JsString) :
    observations (named idOf lessons ids) + observations (standing idOf lessons ids) =
      observations lessons :=
  total_standing CurrentLesson.observationCount lessons ids

/-- The observations of the lessons some proposals name. -/
def observationsOf (ledger : CuratedMemoryV1_1) (proposals : List MemoryCurationProposal) : Nat :=
  observations (named idOf ledger.confirmed (namedBy proposals))

section Selection

variable {lessons source : List CurrentLesson} {ids : List JsString}

theorem lessonsByIds_named (distinct : ids.Nodup) (selected : lessonsByIds lessons ids = some source) :
    source = named idOf lessons ids ∧ (named idOf lessons ids).length = ids.length := by
  simp only [lessonsByIds, selectByIds, eraseDups_eq_self distinct, true_and,
    Option.ite_none_right_eq_some, Option.some.injEq] at selected
  obtain ⟨length, rfl⟩ := selected
  have same : (lessons.filter fun lesson => decide (lesson.lessonId ∈ ids)) =
      named idOf lessons ids :=
    List.filter_congr fun _ _ => decide_eq_decide.mpr Iff.rfl
  exact ⟨same, same ▸ length⟩

theorem withoutLessons_standing (lessons : List CurrentLesson) (ids : List JsString) :
    withoutLessons lessons ids = standing idOf lessons ids :=
  List.filter_congr fun _ _ => decide_eq_decide.mpr Iff.rfl

theorem withoutLessons_congr {names : List JsString} (same : ∀ name, name ∈ ids ↔ name ∈ names) :
    withoutLessons lessons ids = withoutLessons lessons names := by
  apply List.filter_congr
  intro lesson _
  simp only [same]

theorem named_pair {left right : CurrentLesson} (unique : (lessonIds lessons).Nodup)
    (leftAt : left ∈ lessons) (rightAt : right ∈ lessons) (distinct : left.lessonId ≠ right.lessonId) :
    (named idOf lessons [left.lessonId, right.lessonId]).Perm [left, right] := by
  have apart : left ≠ right := fun same => distinct (same ▸ rfl)
  apply (List.perm_ext_iff_of_nodup ((unique.of_map _).filter _) (by simpa using apart)).mpr
  intro lesson
  simp only [List.mem_filter, List.mem_cons, List.not_mem_nil, or_false, decide_eq_true_eq]
  constructor
  · rintro ⟨member, same | same⟩
    · exact .inl (eq_of_lessonId unique member leftAt same)
    · exact .inr (eq_of_lessonId unique member rightAt same)
  · rintro (rfl | rfl)
    · exact ⟨leftAt, .inl rfl⟩
    · exact ⟨rightAt, .inr rfl⟩

theorem named_single {lesson : CurrentLesson} (unique : (lessonIds lessons).Nodup)
    (listed : lesson ∈ lessons) : (named idOf lessons [lesson.lessonId]).Perm [lesson] := by
  apply (List.perm_ext_iff_of_nodup ((unique.of_map _).filter _) (List.nodup_singleton lesson)).mpr
  intro other
  simp only [List.mem_filter, List.mem_cons, List.not_mem_nil, or_false, decide_eq_true_eq]
  constructor
  · rintro ⟨member, same⟩
    exact eq_of_lessonId unique member listed same
  · rintro rfl
    exact ⟨listed, rfl⟩

/-- Keeping the last entries before adding some changes nothing of what is kept at the end. -/
theorem lastEntries_again {α : Type} (limit : Nat) (front back : List α) :
    lastEntries limit (lastEntries limit front ++ back) = lastEntries limit (front ++ back) := by
  simp only [lastEntries, List.length_append, List.length_drop]
  rcases Nat.le_total front.length limit with few | many
  · rw [Nat.sub_eq_zero_of_le few, List.drop_zero, Nat.sub_zero]
  · have kept : front.length - (front.length - limit) = limit := by omega
    rw [kept, ← List.drop_append_of_le_length (by omega), List.drop_drop]
    congr 1
    omega

theorem lastEntries_congr {α : Type} {limit : Nat} {left right : List α} (back : List α)
    (same : lastEntries limit left = lastEntries limit right) :
    lastEntries limit (left ++ back) = lastEntries limit (right ++ back) := by
  rw [← lastEntries_again limit left, same, lastEntries_again]

end Selection

section Batch

variable (sha256 : JsString → JsString) (ledger : CuratedMemoryV1_1) (policyVersion reviewer now : JsString)

/-- The lesson that takes the place of the two a merge names. -/
def Replaced (proposal : MemoryCurationProposal) (replacement : CurrentLesson) : Prop :=
  ∃ left ∈ ledger.confirmed, ∃ right ∈ ledger.confirmed, left.lessonId ≠ right.lessonId ∧
    proposal.lessonIds = [left.lessonId, right.lessonId] ∧
    replacement.observationCount = left.observationCount + right.observationCount ∧
    ∃ source canonical, source.Perm [left, right] ∧ canonicalLesson source = some canonical ∧
      replacement = mergedLesson sha256 source canonical reviewer now none

/-- The tombstone an archive proposal leaves of its lesson. -/
def archivedAs (proposal : MemoryCurationProposal) (components : ObsolescenceComponents)
    (lesson : CurrentLesson) : CurrentTombstone :=
  currentTombstone lesson reviewer now (js "Obsolete under " ++ policyVersion ++ js ".") none
    (some (curationEvidence proposal components))

/-- The lessons an archive proposal names have tombstones among these. -/
def Entombed (proposals : List MemoryCurationProposal) (tombstones : List CurrentTombstone) : Prop :=
  ∀ proposal ∈ proposals, ∀ components, proposal.type = .archive components →
    ∃ lesson ∈ ledger.confirmed, proposal.lessonIds = [lesson.lessonId] ∧
      archivedAs policyVersion reviewer now proposal components lesson ∈ tombstones

/-- What the proposals applied so far have made of the ledger. -/
structure BatchDone (done : List MemoryCurationProposal) (state : CurationState) : Prop where
  merged : ∃ replacements,
    List.Forall₂ (Replaced sha256 ledger reviewer now) (done.filter (·.isMerge)) replacements ∧
      Progress idOf ledger.confirmed (namedBy done) replacements state.confirmed
  archived : ∃ tombstones, tombstones.length ≤ (namedBy done).length ∧
    Entombed ledger policyVersion reviewer now done tombstones ∧
    lastEntries CURATED_MEMORY_ARCHIVE_MAX state.archive =
      lastEntries CURATED_MEMORY_ARCHIVE_MAX (ledger.archive ++ tombstones)
  conserved : observations state.confirmed + observationsOf ledger (done.filter (·.isArchive)) +
    observationsOf ledger (done.filter (·.isDelete)) = observations ledger.confirmed

end Batch

section Steps

variable {sha256 : JsString → JsString} {ledger : CuratedMemoryV1_1} {plan : MemoryCurationPlan}
  {reviewer now : JsString} {done : List MemoryCurationProposal} {state next : CurationState}
  {proposal : MemoryCurationProposal}

theorem batchDone_nil : BatchDone sha256 ledger plan.policyVersion reviewer now []
    ⟨ledger.confirmed, ledger.archive⟩ := by
  constructor
  · exact ⟨[], List.Forall₂.nil, Progress.start ledger.confirmed⟩
  · refine ⟨[], Nat.le_refl 0, ?_, by rw [List.append_nil]⟩
    intro proposal member
    cases member
  · simp [observationsOf, named, namedBy, total]

theorem namedBy_concat (done : List MemoryCurationProposal) (proposal : MemoryCurationProposal) :
    namedBy (done ++ [proposal]) = namedBy done ++ proposal.lessonIds := by
  simp [namedBy]

theorem namedBy_single (proposal : MemoryCurationProposal) :
    namedBy [proposal] = proposal.lessonIds := by
  simp [namedBy]

theorem observationsOf_concat (kind : MemoryCurationProposal → Bool)
    (distinct : (namedBy (done ++ [proposal])).Nodup) :
    observationsOf ledger ((done ++ [proposal]).filter kind) =
      observationsOf ledger (done.filter kind) +
        if kind proposal then observations (named idOf ledger.confirmed proposal.lessonIds) else 0 := by
  cases chosen : kind proposal with
  | false => simp [List.filter_append, chosen]
  | true =>
      have apart : (namedBy (done.filter kind)).Disjoint proposal.lessonIds := by
        rw [namedBy_concat] at distinct
        have disjoint := (List.nodup_append.mp distinct).2.2
        intro name front back
        obtain ⟨other, member, inside⟩ := List.mem_flatMap.mp front
        have listed : name ∈ namedBy done :=
          List.mem_flatMap.mpr ⟨other, List.mem_of_mem_filter member, inside⟩
        exact disjoint name listed name back rfl
      have split : (done ++ [proposal]).filter kind = done.filter kind ++ [proposal] := by
        simp [List.filter_append, chosen]
      rw [split, observationsOf, namedBy_concat, if_pos rfl, observations,
        total_perm (named_append_perm apart), total_append]
      rfl

theorem shaped_known (shaped : proposal.Shaped ledger.confirmed) :
    proposal.lessonIds ⊆ ledger.confirmed.map idOf := by
  have listed : ∀ lesson ∈ ledger.confirmed, lesson.lessonId ∈ ledger.confirmed.map idOf :=
    fun lesson member => List.mem_map_of_mem member
  rw [MemoryCurationProposal.Shaped] at shaped
  cases kind : proposal.type with
  | merge =>
      simp only [kind] at shaped
      obtain ⟨left, leftAt, right, rightAt, -, names⟩ := shaped
      rw [names]
      intro name member
      simp only [List.mem_cons, List.not_mem_nil, or_false] at member
      rcases member with rfl | rfl
      · exact listed left leftAt
      · exact listed right rightAt
  | archive components =>
      simp only [kind] at shaped
      obtain ⟨lesson, member, names, -⟩ := shaped
      rw [names]
      exact List.cons_subset.mpr ⟨listed lesson member, List.nil_subset _⟩
  | delete components =>
      simp only [kind] at shaped
      obtain ⟨lesson, member, names, -⟩ := shaped
      rw [names]
      exact List.cons_subset.mpr ⟨listed lesson member, List.nil_subset _⟩

/-- What a proposal selects are the ledger's own lessons, whatever the batch has added, and taking
them out moves their observations. -/
theorem selection_of_ledger {source replacements : List CurrentLesson}
    (unique : (lessonIds ledger.confirmed).Nodup) (shaped : proposal.Shaped ledger.confirmed)
    (distinct : (namedBy (done ++ [proposal])).Nodup)
    (progress : Progress idOf ledger.confirmed (namedBy done) replacements state.confirmed)
    (selected : lessonsByIds state.confirmed proposal.lessonIds = some source) :
    source.Perm (named idOf ledger.confirmed proposal.lessonIds) ∧
      ∀ joining lessons, lessons.Perm (withoutLessons state.confirmed proposal.lessonIds ++ joining) →
        Progress idOf ledger.confirmed (namedBy (done ++ [proposal])) (replacements ++ joining)
            lessons ∧
          observations lessons + observations (named idOf ledger.confirmed proposal.lessonIds) =
            observations state.confirmed + observations joining := by
  rw [namedBy_concat] at distinct ⊢
  obtain ⟨rfl, found⟩ := lessonsByIds_named (List.nodup_append.mp distinct).2.1 selected
  obtain ⟨own, absent⟩ := progress.named_perm unique distinct (shaped_known shaped) found
  refine ⟨own, ?_⟩
  intro joining lessons taken
  rw [withoutLessons_standing] at taken
  have parts := observations_standing state.confirmed proposal.lessonIds
  have same : observations (named idOf state.confirmed proposal.lessonIds) =
      observations (named idOf ledger.confirmed proposal.lessonIds) := total_perm own
  have sum : observations lessons =
      observations (standing idOf state.confirmed proposal.lessonIds) + observations joining :=
    (total_perm taken).trans (total_append _ _ _)
  exact ⟨progress.step absent taken, by omega⟩

theorem replaced_of_merge {source : List CurrentLesson} {canonical : CurrentLesson}
    (unique : (lessonIds ledger.confirmed).Nodup)
    (small : observations (named idOf ledger.confirmed proposal.lessonIds) ≤ exactLimit)
    {left right : CurrentLesson}
    (leftAt : left ∈ ledger.confirmed) (rightAt : right ∈ ledger.confirmed)
    (apart : left.lessonId ≠ right.lessonId)
    (names : proposal.lessonIds = [left.lessonId, right.lessonId])
    (own : source.Perm (named idOf ledger.confirmed proposal.lessonIds))
    (first : canonicalLesson source = some canonical) :
    Replaced sha256 ledger reviewer now proposal
        (mergedLesson sha256 source canonical reviewer now none) ∧
      (mergedLesson sha256 source canonical reviewer now none).observationCount =
        observations (named idOf ledger.confirmed proposal.lessonIds) := by
  have pair : source.Perm [left, right] := by
    rw [names] at own
    exact own.trans (named_pair unique leftAt rightAt apart)
  have sum : (source.map CurrentLesson.observationCount).sum =
      observations (named idOf ledger.confirmed proposal.lessonIds) := total_perm own
  have count : (mergedLesson sha256 source canonical reviewer now none).observationCount =
      (source.map CurrentLesson.observationCount).sum := by
    apply addUp_exact
    rw [sum]
    exact small
  have both : (source.map CurrentLesson.observationCount).sum =
      left.observationCount + right.observationCount := by
    rw [(pair.map CurrentLesson.observationCount).sum_eq]
    simp
  exact ⟨⟨left, leftAt, right, rightAt, apart, names, count.trans both, source, canonical, pair, first,
    rfl⟩, count.trans sum⟩

/-- An applied proposal does to the batch what it says, and the rest is as it was. -/
theorem applyProposal_done (unique : (lessonIds ledger.confirmed).Nodup)
    (small : proposal.isMerge = true → observationsOf ledger [proposal] ≤ exactLimit)
    (shaped : proposal.Shaped ledger.confirmed) (distinct : (namedBy (done ++ [proposal])).Nodup)
    (before : BatchDone sha256 ledger plan.policyVersion reviewer now done state)
    (applied : applyProposal sha256 ledger plan reviewer now state proposal = .ok next) :
    BatchDone sha256 ledger plan.policyVersion reviewer now (done ++ [proposal]) next := by
  obtain ⟨source, selected, outcome⟩ := applyProposal_ok applied
  obtain ⟨replacements, replaced, progress⟩ := before.merged
  obtain ⟨tombstones, few, entombed, archive⟩ := before.archived
  obtain ⟨own, leaving⟩ := selection_of_ledger unique shaped distinct progress selected
  have conserved := before.conserved
  have archives := @observationsOf_concat ledger done proposal (·.isArchive) distinct
  have deletes := @observationsOf_concat ledger done proposal (·.isDelete) distinct
  rw [MemoryCurationProposal.Shaped] at shaped
  cases kind : proposal.type with
  | merge =>
      simp only [kind] at shaped outcome
      obtain ⟨left, leftAt, right, rightAt, apart, names⟩ := shaped
      obtain ⟨canonical, first, -, lessons, kept⟩ := outcome
      have isMerge : proposal.isMerge = true := by rw [MemoryCurationProposal.isMerge, kind]
      have exact := small isMerge
      rw [observationsOf, namedBy_single] at exact
      obtain ⟨replacement, count⟩ := @replaced_of_merge sha256 ledger reviewer now proposal source
        canonical unique exact left right leftAt rightAt apart names own first
      generalize mergedLesson sha256 source canonical reviewer now none = joining at *
      have sameIds : ∀ name, name ∈ lessonIds source ↔ name ∈ proposal.lessonIds := by
        intro name
        have pair := own.trans (names ▸ named_pair unique leftAt rightAt apart)
        rw [lessonIds, (pair.map _).mem_iff, names]
        rfl
      rw [withoutLessons_congr sameIds] at lessons
      have taken : next.confirmed.Perm
          (withoutLessons state.confirmed proposal.lessonIds ++ [joining]) := by
        rw [lessons]
        exact List.perm_insertionSort ByCurrentLessonId _
      obtain ⟨progressed, moved⟩ := leaving [joining] next.confirmed taken
      have notArchive : proposal.isArchive = false := by rw [MemoryCurationProposal.isArchive, kind]
      have notDelete : proposal.isDelete = false := by rw [MemoryCurationProposal.isDelete, kind]
      constructor
      · refine ⟨replacements ++ [joining], ?_, progressed⟩
        rw [List.filter_append, List.filter_singleton, isMerge]
        exact List.rel_append replaced (List.Forall₂.cons replacement List.Forall₂.nil)
      · refine ⟨tombstones ++ mergeTombstones source reviewer now joining.lessonId, ?_, ?_, ?_⟩
        · have sizes := (own.trans (names ▸ named_pair unique leftAt rightAt apart)).length_eq
          rw [namedBy_concat, List.length_append, List.length_append, mergeTombstones,
            List.length_map, sizes, names]
          simpa using few
        · intro other member components archived
          rcases List.mem_append.mp member with earlier | here
          · obtain ⟨lesson, listed, named, found⟩ := entombed other earlier components archived
            exact ⟨lesson, listed, named, List.mem_append_left _ found⟩
          · rw [List.mem_singleton.mp here, kind] at archived
            cases archived
        · rw [kept, ← List.append_assoc]
          have again := lastEntries_again CURATED_MEMORY_ARCHIVE_MAX
            (state.archive ++ mergeTombstones source reviewer now joining.lessonId) []
          rw [List.append_nil, List.append_nil] at again
          rw [again]
          exact lastEntries_congr _ archive
      · simp only [notArchive, notDelete, Bool.false_eq_true, if_false, Nat.add_zero] at archives deletes
        rw [archives, deletes]
        have single : observations [joining] = joining.observationCount := by simp [observations, total]
        omega
  | archive components =>
      simp only [kind] at shaped outcome
      obtain ⟨lesson, listed, names, -⟩ := shaped
      obtain ⟨first, head, rfl⟩ := outcome
      have single := List.perm_singleton.mp (own.trans (names ▸ named_single unique listed))
      obtain rfl : lesson = first := by
        rw [single] at head
        exact Option.some.inj head
      obtain ⟨progressed, moved⟩ := leaving [] (withoutLessons state.confirmed [lesson.lessonId])
        (by rw [names, List.append_nil])
      have notMerge : proposal.isMerge = false := by rw [MemoryCurationProposal.isMerge, kind]
      have isArchive : proposal.isArchive = true := by rw [MemoryCurationProposal.isArchive, kind]
      have notDelete : proposal.isDelete = false := by rw [MemoryCurationProposal.isDelete, kind]
      constructor
      · refine ⟨replacements, ?_, by rw [List.append_nil] at progressed; exact progressed⟩
        rw [List.filter_append, List.filter_singleton, notMerge]
        simpa using replaced
      · refine ⟨tombstones ++ [archivedAs plan.policyVersion reviewer now proposal components lesson],
          ?_, ?_, ?_⟩
        · rw [namedBy_concat, List.length_append, List.length_append, names]
          simpa using few
        · intro other member otherComponents archived
          rcases List.mem_append.mp member with earlier | here
          · obtain ⟨lesson, listed, named, found⟩ := entombed other earlier otherComponents archived
            exact ⟨lesson, listed, named, List.mem_append_left _ found⟩
          · obtain rfl := List.mem_singleton.mp here
            rw [kind] at archived
            obtain rfl := ProposalType.archive.inj archived
            exact ⟨lesson, listed, names, List.mem_append_right _ (List.mem_singleton_self _)⟩
        · rw [← List.append_assoc]
          exact lastEntries_congr _ archive
      · simp only [isArchive, notDelete, Bool.false_eq_true, if_true, if_false, Nat.add_zero] at archives deletes
        rw [archives, deletes]
        have nothing : observations [] = 0 := rfl
        dsimp only
        omega
  | delete components =>
      simp only [kind] at shaped outcome
      obtain ⟨lesson, listed, names, -⟩ := shaped
      obtain ⟨first, head, rfl⟩ := outcome
      have single := List.perm_singleton.mp (own.trans (names ▸ named_single unique listed))
      obtain rfl : lesson = first := by
        rw [single] at head
        exact Option.some.inj head
      obtain ⟨progressed, moved⟩ := leaving [] (withoutLessons state.confirmed [lesson.lessonId])
        (by rw [names, List.append_nil])
      have notMerge : proposal.isMerge = false := by rw [MemoryCurationProposal.isMerge, kind]
      have notArchive : proposal.isArchive = false := by rw [MemoryCurationProposal.isArchive, kind]
      have isDelete : proposal.isDelete = true := by rw [MemoryCurationProposal.isDelete, kind]
      constructor
      · refine ⟨replacements, ?_, by rw [List.append_nil] at progressed; exact progressed⟩
        rw [List.filter_append, List.filter_singleton, notMerge]
        simpa using replaced
      · refine ⟨tombstones, ?_, ?_, archive⟩
        · rw [namedBy_concat, List.length_append]
          omega
        · intro other member otherComponents archived
          rcases List.mem_append.mp member with earlier | here
          · exact entombed other earlier otherComponents archived
          · rw [List.mem_singleton.mp here, kind] at archived
            cases archived
      · simp only [notArchive, isDelete, Bool.false_eq_true, if_true, if_false, Nat.add_zero] at archives deletes
        rw [archives, deletes]
        have nothing : observations [] = 0 := rfl
        dsimp only
        omega

theorem batch_done {proposals : List MemoryCurationProposal}
    (unique : (lessonIds ledger.confirmed).Nodup)
    (small : ∀ proposal ∈ proposals, proposal.isMerge = true →
      observationsOf ledger [proposal] ≤ exactLimit)
    (shaped : ∀ proposal ∈ proposals, proposal.Shaped ledger.confirmed)
    (distinct : (namedBy (done ++ proposals)).Nodup)
    (before : BatchDone sha256 ledger plan.policyVersion reviewer now done state)
    (run : Reaches (applyProposal sha256 ledger plan reviewer now) state proposals next) :
    BatchDone sha256 ledger plan.policyVersion reviewer now (done ++ proposals) next := by
  induction proposals generalizing done state with
  | nil =>
      rw [List.append_nil]
      exact reaches_nil.mp run ▸ before
  | cons proposal proposals ih =>
      obtain ⟨middle, applied, later⟩ := reaches_cons.mp run
      rw [← List.singleton_append, ← List.append_assoc] at distinct ⊢
      have front : (namedBy (done ++ [proposal])).Nodup := by
        rw [namedBy, List.flatMap_append] at distinct
        exact (List.nodup_append.mp distinct).1
      have here := applyProposal_done unique (small proposal List.mem_cons_self)
        (shaped proposal List.mem_cons_self) front before applied
      exact ih (fun other member => small other (List.mem_cons_of_mem _ member))
        (fun other member => shaped other (List.mem_cons_of_mem _ member)) distinct here later

end Steps

section Outcome

/-- What an applied batch has made of its ledger. -/
structure BatchSettled (sha256 : JsString → JsString) (ledger : CuratedMemoryV1_1)
    (plan : MemoryCurationPlan) (approval : CurationApproval) (now : JsString)
    (final : CuratedMemoryV1_1) : Prop where
  unchanged : ∀ lesson ∈ ledger.confirmed,
    lesson.lessonId ∉ namedBy (batchProposals plan approval) → lesson ∈ final.confirmed
  replaced : ∃ replacements,
    List.Forall₂ (Replaced sha256 ledger approval.reviewer now)
      ((batchProposals plan approval).filter (·.isMerge)) replacements ∧
    final.confirmed.Perm
      (withoutLessons ledger.confirmed (namedBy (batchProposals plan approval)) ++ replacements)
  archived : Entombed ledger plan.policyVersion approval.reviewer now
    (batchProposals plan approval) final.archive
  deleted : ∀ proposal ∈ batchProposals plan approval, proposal.isDelete = true →
    ∃ lesson ∈ ledger.confirmed, proposal.lessonIds = [lesson.lessonId] ∧
      lesson ∉ final.confirmed
  conserved : observations final.confirmed +
      observationsOf ledger ((batchProposals plan approval).filter (·.isArchive)) +
      observationsOf ledger ((batchProposals plan approval).filter (·.isDelete)) =
    observations ledger.confirmed

/-- An approval of another plan, with a decision twice, on an unknown proposal or on too few, or
of proposals that share a lesson. -/
def Defective (plan : MemoryCurationPlan) (approval : CurationApproval) : Prop :=
  approval.planDigest ≠ plan.planDigest ∨
    ¬ (approval.decisions.map Prod.fst).Nodup ∨
    (∃ decision ∈ approval.decisions,
      decision.1 ∉ plan.proposals.map MemoryCurationProposal.proposalId) ∨
    (∃ proposal ∈ plan.proposals, proposal.proposalId ∉ approval.decisions.map Prod.fst) ∨
    ¬ (namedBy (batchProposals plan approval)).Nodup

variable {sha256 : JsString → JsString} {ledger : CuratedMemoryV1_1} {plan : MemoryCurationPlan}
  {approval : CurationApproval} {now : JsString}

theorem Accepted.decided (accepted : Accepted plan approval) {proposal : MemoryCurationProposal}
    (member : proposal ∈ plan.proposals) :
    proposal.proposalId ∈ approval.decisions.map Prod.fst := by
  by_contra missing
  have once : (proposal.proposalId :: approval.decisions.map Prod.fst).Nodup :=
    List.nodup_cons.mpr ⟨missing, accepted.once⟩
  have known : proposal.proposalId :: approval.decisions.map Prod.fst ⊆
      plan.proposals.map MemoryCurationProposal.proposalId := by
    rw [List.cons_subset]
    refine ⟨List.mem_map_of_mem member, ?_⟩
    intro id listed
    obtain ⟨decision, decided, rfl⟩ := List.mem_map.mp listed
    exact accepted.known decision decided
  have few := (List.subperm_of_subset once known).length_le
  rw [List.length_cons, List.length_map, List.length_map, accepted.complete] at few
  omega

theorem Accepted.not_defective (accepted : Accepted plan approval) : ¬ Defective plan approval := by
  rintro (stale | duplicate | ⟨decision, listed, unknown⟩ | ⟨proposal, listed, undecided⟩ | overlap)
  · exact stale accepted.current
  · exact duplicate accepted.once
  · exact unknown (accepted.known decision listed)
  · exact undecided (accepted.decided listed)
  · exact overlap accepted.apart

theorem defective_refused (defective : Defective plan approval) :
    ∃ refusal, applyMemoryCuration sha256 ledger plan approval now = .error refusal := by
  cases outcome : applyMemoryCuration sha256 ledger plan approval now with
  | error refusal => exact ⟨refusal, rfl⟩
  | ok ready => exact absurd defective (applyMemoryCuration_ok outcome).1.not_defective

theorem ValidLedger.lessonIds_nodup (valid : ValidLedger sha256 ledger) :
    (lessonIds ledger.confirmed).Nodup := by
  have unique := valid.consistent.linked.unique
  have names : (Kratos.Foundation.Retirement.Register.active (registerOf (shared ledger.confirmed)
      (sharedTombstones ledger.archive))) = lessonIds ledger.confirmed := by
    simp only [registerOf, shared, List.map_map, lessonIds]
    rfl
  rw [Kratos.Foundation.Retirement.Register.names, names] at unique
  exact (List.nodup_append.mp unique).1

theorem curation_settles {ready : ReadyCuration} (valid : ValidLedger sha256 ledger)
    (counted : ∀ lesson ∈ ledger.confirmed, 1 ≤ lesson.observationCount)
    (shaped : ∀ proposal ∈ plan.proposals, proposal.Shaped ledger.confirmed)
    (small : ∀ proposal ∈ batchProposals plan approval, proposal.isMerge = true →
      observationsOf ledger [proposal] ≤ exactLimit)
    (applied : applyMemoryCuration sha256 ledger plan approval now = .ok ready) :
    BatchSettled sha256 ledger plan approval now ready.ledger := by
  obtain ⟨accepted, state, completed, run, completion, same⟩ := applyMemoryCuration_ok applied
  obtain ⟨-, lessons, archive, -⟩ := completeCurrent_ok completion
  have unique := valid.lessonIds_nodup
  have known : ∀ proposal ∈ batchProposals plan approval, proposal.Shaped ledger.confirmed :=
    fun proposal member => shaped proposal (List.mem_of_mem_filter member)
  have done := batch_done unique small known accepted.apart batchDone_nil run
  rw [List.nil_append] at done
  obtain ⟨replacements, replaced, progress⟩ := done.merged
  obtain ⟨tombstones, few, entombed, kept⟩ := done.archived
  have final : ready.ledger.confirmed.Perm (withoutLessons ledger.confirmed
      (namedBy (batchProposals plan approval)) ++ replacements) := by
    rw [same, lessons, withoutLessons_standing]
    exact (List.perm_insertionSort ByCurrentLessonId _).trans progress
  have room : tombstones.length ≤ CURATED_MEMORY_ARCHIVE_MAX := by
    have named : (namedBy (batchProposals plan approval)).length ≤ ledger.confirmed.length := by
      have ids : namedBy (batchProposals plan approval) ⊆ ledger.confirmed.map idOf := by
        intro name member
        obtain ⟨proposal, approved, inside⟩ := List.mem_flatMap.mp member
        exact shaped_known (known proposal approved) inside
      rw [← named_length unique accepted.apart ids]
      exact List.length_filter_le _ _
    have limits : CURATED_MEMORY_CONFIRMED_MAX ≤ CURATED_MEMORY_ARCHIVE_MAX := by decide
    have most := valid.confirmedMax
    omega
  constructor
  · intro lesson member unnamed
    exact final.mem_iff.mpr (List.mem_append_left _ (List.mem_filter.mpr
      ⟨member, decide_eq_true unnamed⟩))
  · exact ⟨replacements, replaced, final⟩
  · intro proposal member components archived
    obtain ⟨lesson, listed, names, found⟩ := entombed proposal member components archived
    refine ⟨lesson, listed, names, ?_⟩
    rw [same, archive, kept, lastEntries_append _ room]
    exact List.mem_append_right _ found
  · intro proposal member deleting
    have shape := known proposal member
    rw [MemoryCurationProposal.Shaped] at shape
    rw [MemoryCurationProposal.isDelete] at deleting
    cases kind : proposal.type with
    | merge => simp [kind] at deleting
    | archive components => simp [kind] at deleting
    | delete components =>
        simp only [kind] at shape
        obtain ⟨lesson, listed, names, once⟩ := shape
        refine ⟨lesson, listed, names, ?_⟩
        intro survived
        rcases List.mem_append.mp (final.mem_iff.mp survived) with standing | replacement
        · have unnamed := of_decide_eq_true (List.mem_filter.mp standing).2
          exact unnamed (List.mem_flatMap.mpr ⟨proposal, member, names ▸ List.mem_singleton_self _⟩)
        · obtain ⟨merge, -, left, leftAt, right, rightAt, -, -, sum, -⟩ :=
            (forall₂_mem replaced).2 lesson replacement
          have leftOnce := counted left leftAt
          have rightOnce := counted right rightAt
          omega
  · have total : observations ready.ledger.confirmed = observations state.confirmed := by
      rw [same, lessons]
      exact total_perm (List.perm_insertionSort ByCurrentLessonId _)
    rw [total]
    exact done.conserved

/-- A valid ledger has a complete plan on every day it was observed by, in whatever order it lists
its lessons, and an accepted batch of the plan settles what it approves. -/
theorem approved_curation_exact {words : JsString → List JsString} {policy : MemoryCurationPolicy}
    {presence : List (JsString × Bool)} {day : CalendarDay} (valid : ValidLedger sha256 ledger)
    (timed : ∀ lesson ∈ ledger.confirmed, timestampPattern lesson.lastObservedAt = true)
    (counted : ∀ lesson ∈ ledger.confirmed, 1 ≤ lesson.observationCount)
    (observed : ∀ lesson ∈ ledger.confirmed, ObservedBy day lesson) :
    ∃ plan, proposeMemoryCuration words sha256 policy day.text presence ledger = .ok plan ∧
      CompletePlan words policy day.text presence ledger plan ∧
      (∀ other : CuratedMemoryV1_1, other.confirmed.Perm ledger.confirmed →
        ∃ same, proposeMemoryCuration words sha256 policy day.text presence other = .ok same ∧
          { same with ledgerDigest := plan.ledgerDigest, planDigest := plan.planDigest } = plan) ∧
      ∀ approval now,
        (∀ ready, applyMemoryCuration sha256 ledger plan.reviewed approval now = .ok ready →
          (∀ proposal ∈ batchProposals plan.reviewed approval, proposal.isMerge = true →
            observationsOf ledger [proposal] ≤ exactLimit) →
          BatchSettled sha256 ledger plan.reviewed approval now ready.ledger) ∧
        (Defective plan.reviewed approval →
          ∃ refusal, applyMemoryCuration sha256 ledger plan.reviewed approval now =
            .error refusal) := by
  have unique := valid.lessonIds_nodup
  obtain ⟨plan, proposed⟩ := @proposeMemoryCuration_exists words sha256 policy presence ledger day
    timed observed
  have complete := proposeMemoryCuration_complete unique proposed
  refine ⟨plan, proposed, complete, fun other perm =>
    proposeMemoryCuration_perm unique perm proposed, ?_⟩
  intro approval now
  have shaped : ∀ proposal ∈ plan.reviewed.proposals, proposal.Shaped ledger.confirmed := by
    intro proposal member
    obtain ⟨scored, listed, rfl⟩ := List.mem_map.mp member
    exact complete.shaped scored listed
  exact ⟨fun ready applied small => curation_settles valid counted shaped small applied,
    defective_refused⟩

end Outcome

section Sample

/-- The runs of letters and digits of a text without other letters, in lower case. -/
def plainWords (text : JsString) : List JsString :=
  ((text.map fun u => if isUpperAlpha u then u + 0x20 else u).splitOnP fun u => !isAlnum u).filter
    fun word => !word.isEmpty

def curatedLesson (lessonId title why apply lastObservedAt : String) (observationCount : Nat)
    (dependency : Dependency) : CurrentLesson where
  lessonId := js lessonId
  title := js title
  why := [js why]
  apply := [js apply]
  candidateIds := [js "5e884898da28047151d0e56f8dc6292773603d0d6aabbdd62a11ef721d1542d8"]
  reviewer := js "claude:r"
  confirmedAt := js "2026-07-01T12:00:00.000Z"
  technology := js "node"
  failureKind := .toolError
  dependency := dependency
  observationCount := observationCount
  firstObservedAt := js "2025-01-01T00:00:00.000Z"
  lastObservedAt := js lastObservedAt

/-- Two lessons with one fix, and one that nothing has shown for a year. -/
def sampleMemory : CuratedMemoryV1_1 where
  revision := 3
  projectionDigest := js "c3244d2141572414fa41de8c638c1ad6a960e1274fb8a2228c82ad49bfd4d1e5"
  updatedAt := js "2026-07-01T12:00:00.000Z"
  confirmed := [
    curatedLesson "8ed8f3b0e558e1ef1595096174fccf395cce5a10fa738ef79dd80fe7fb82ed57"
      "Pin the tool" "The tool moved." "Pin it." "2026-07-01T10:00:00.000Z" 3 .none,
    curatedLesson "99899ff0bc3154a68ce483813296fa029a299aabf26a0318f17476fffd24f4ab"
      "Raise the limit" "The build was slow." "Wait longer." "2025-01-01T00:00:00.000Z" 1
      (.path (js "scripts/build.sh")),
    curatedLesson "f06fa1194606b670d6f4a1a8a0f28b5e11d63f1bd73ab3d3d57ce45b2a9e7213"
      "Keep the tool" "An update broke it." "Pin it." "2026-07-01T10:00:00.000Z" 2 .none]
  archive := []

def sampleDay : CalendarDay where
  number := 20636
  least := by decide
  most := by decide

private theorem sampleMemory_valid : ValidLedger sha256 sampleMemory := by
  constructor
  · decide +kernel
  · decide
  · decide
  · decide +kernel

private theorem sampleMemory_timed :
    ∀ lesson ∈ sampleMemory.confirmed, timestampPattern lesson.lastObservedAt = true := by
  decide

/-- The sample memory has its plan on the second of July. -/
theorem sampleMemory_curated : ∃ plan,
    proposeMemoryCuration plainWords sha256 MEMORY_CURATION_POLICY (js "2026-07-02") [] sampleMemory =
        .ok plan ∧
      CompletePlan plainWords MEMORY_CURATION_POLICY (js "2026-07-02") [] sampleMemory plan := by
  have text : sampleDay.text = js "2026-07-02" := by decide +kernel
  have observed : ∀ lesson ∈ sampleMemory.confirmed, ObservedBy sampleDay lesson := by
    have times : ∀ lesson ∈ sampleMemory.confirmed,
        (dateParse lesson.lastObservedAt).all (fun time => decide (time ≤ sampleDay.midnight)) =
          true := by
      decide +kernel
    intro lesson member time read
    have bound := times lesson member
    rw [read] at bound
    exact of_decide_eq_true bound
  obtain ⟨plan, proposed, complete, -⟩ := @approved_curation_exact sha256 sampleMemory plainWords
    MEMORY_CURATION_POLICY [] sampleDay sampleMemory_valid sampleMemory_timed (by decide) observed
  rw [text] at proposed complete
  exact ⟨plan, proposed, complete⟩

/-- On the day of its last observation a memory has no plan. -/
theorem same_day_curation_refused : ValidLedger sha256 sampleMemory ∧
    (∀ lesson ∈ sampleMemory.confirmed, timestampPattern lesson.lastObservedAt = true ∧
      1 ≤ lesson.observationCount ∧
      notAfter (lesson.lastObservedAt.take 10) (js "2026-07-01") = true) ∧
    parseDate (js "2026-07-01") ≠ none ∧
    ∀ plan, proposeMemoryCuration plainWords sha256 MEMORY_CURATION_POLICY (js "2026-07-01") []
      sampleMemory ≠ .ok plan := by
  refine ⟨sampleMemory_valid, by decide, by decide +kernel, ?_⟩
  intro plan proposed
  obtain ⟨scored, -⟩ := proposeMemoryCuration_ok_iff.mp proposed
  have unscored : ¬ ∀ lesson ∈ sampleMemory.confirmed,
      (obsolescence MEMORY_CURATION_POLICY (js "2026-07-01") [] lesson).isSome = true := by
    decide +kernel
  exact unscored scored

end Sample

end Kratos.Memory
