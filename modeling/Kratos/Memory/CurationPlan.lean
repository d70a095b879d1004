/- source: domain/memory/curation.ts
   digest: A curation plan proposes each due change of a ledger once, in any order of its lessons. -/

import Kratos.Memory.Curation
import Kratos.Memory.Upkeep

set_option autoImplicit false

namespace Kratos.Memory

open Foundation.Text Foundation.Calendar Foundation.Dates Foundation.Pairs Foundation.Runs
open Foundation.Sorting Patterns Schema

section Scores

private theorem length_of_members {left right : List JsString} (leftOnce : left.Nodup)
    (rightOnce : right.Nodup) (same : ∀ token, token ∈ left ↔ token ∈ right) :
    left.length = right.length :=
  ((List.perm_ext_iff_of_nodup leftOnce rightOnce).mpr same).length_eq

theorem jaccardScore_symm (left right : List JsString) :
    (jaccardScore left right).score = (jaccardScore right left).score := by
  have unions : (unitSorted (left.eraseDups ++ right.eraseDups)).length =
      (unitSorted (right.eraseDups ++ left.eraseDups)).length := by
    apply length_of_members (nodup_sortedUnique _) (nodup_sortedUnique _)
    intro token
    simp only [mem_sortedUnique, List.mem_append, or_comm]
  have intersections :
      ((left.eraseDups.filter fun token => decide (token ∈ right.eraseDups)).insertionSort
        ByCodeUnits).length =
      ((right.eraseDups.filter fun token => decide (token ∈ left.eraseDups)).insertionSort
        ByCodeUnits).length := by
    rw [List.length_insertionSort, List.length_insertionSort]
    apply length_of_members ((nodup_eraseDups left).filter _) ((nodup_eraseDups right).filter _)
    intro token
    simp only [List.mem_filter, decide_eq_true_eq, and_comm]
  simp only [jaccardScore, unions, intersections]

/-- The similarity of two lessons does not depend on which one comes first. -/
theorem scoreLessonSimilarity_symm (words : JsString → List JsString) (left right : CurrentLesson)
    (policy : MemoryCurationPolicy) : (scoreLessonSimilarity words left right policy).score =
      (scoreLessonSimilarity words right left policy).score := by
  have technology : (left.technology = right.technology) = (right.technology = left.technology) :=
    propext eq_comm
  have failureKind : (left.failureKind = right.failureKind) =
      (right.failureKind = left.failureKind) := propext eq_comm
  simp only [scoreLessonSimilarity, technology, failureKind,
    jaccardScore_symm (tokenizeMemoryText words (spaced (left.title :: left.why))),
    jaccardScore_symm (tokenizeMemoryText words (spaced left.apply))]

theorem datePattern_text (day : CalendarDay) : datePattern day.text = true := by
  obtain ⟨year, month, date, fields⟩ := day.fields
  have dash : js "-" = [unit '-'] := rfl
  have last : twoDigits 1 31 (fixedDigits 2 date) = some [] := by
    rw [← List.append_nil (fixedDigits 2 date)]
    exact twoDigits_fixedDigits fields.dateFits.1 fields.dateFits.2
      (by have := fields.dateFits; omega) []
  rw [fields.text, dateText, fixedDigits_century, datePattern, beq_iff_eq]
  simp only [Option.bind_eq_bind]
  rw [twoDigits_fixedDigits (Nat.zero_le _) (by omega) (by omega), Option.bind_some,
    twoDigits_fixedDigits (Nat.zero_le _) (by omega) (by omega), Option.bind_some, dash,
    literal_cons, Option.bind_some, twoDigits_fixedDigits fields.monthFits.1 fields.monthFits.2
      (by have := fields.monthFits; omega), Option.bind_some, literal_cons, Option.bind_some, last]

theorem parseDate_text (day : CalendarDay) : parseDate day.text = some day.midnight := by
  rw [parseDate, if_pos (datePattern_text day), dateParse_midnight]
  exact if_pos rfl

/-- The lesson was last observed at or before the midnight of the day. -/
def ObservedBy (day : CalendarDay) (lesson : CurrentLesson) : Prop :=
  ∀ time, dateParse lesson.lastObservedAt = some time → time ≤ day.midnight

theorem scoreLessonObsolescence_isSome {lesson : CurrentLesson} {day : CalendarDay}
    (timed : timestampPattern lesson.lastObservedAt = true) (present : Bool)
    (policy : MemoryCurationPolicy) :
    (scoreLessonObsolescence lesson day.text present policy).isSome = true ↔
      ObservedBy day lesson := by
  obtain ⟨time, read⟩ := dateParse_of_timestamp timed
  have observed : ObservedBy day lesson ↔ ¬ (day.midnight - time) / msPerDay < 0 := by
    have perDay : msPerDay = 86400000 := rfl
    simp only [ObservedBy, read, Option.some.injEq, forall_eq', perDay]
    omega
  rw [observed]
  simp only [scoreLessonObsolescence, parseDate_text, read]
  by_cases early : (day.midnight - time) / msPerDay < 0
  · simp [early]
  · simp [early]

end Scores

section Proposals

variable {words : JsString → List JsString} {digest : JsString → JsString}
  {policy : MemoryCurationPolicy} {asOf : JsString} {presence : List (JsString × Bool)}
  {ledger : CuratedMemoryV1_1} {plan : ScoredPlan}

/-- The proposal merges the two lessons, in either order. -/
def ScoredProposal.merges (left right : CurrentLesson) (proposal : ScoredProposal) : Bool :=
  proposal.kind.isMerge && decide (proposal.lessonIds = [left.lessonId, right.lessonId] ∨
    proposal.lessonIds = [right.lessonId, left.lessonId])

/-- The proposal archives or deletes the lesson. -/
def ScoredProposal.retires (lesson : CurrentLesson) (proposal : ScoredProposal) : Bool :=
  !proposal.kind.isMerge && decide (proposal.lessonIds = [lesson.lessonId])

/-- The obsolescence of a lesson on a date, where it has one. -/
def obsolescence (policy : MemoryCurationPolicy) (asOf : JsString)
    (presence : List (JsString × Bool)) (lesson : CurrentLesson) : Option ObsolescenceScore :=
  scoreLessonObsolescence lesson asOf (dependencyPresent presence lesson.dependency) policy

/-- The similarity of the two lessons reaches the threshold. -/
def Similar (words : JsString → List JsString) (policy : MemoryCurationPolicy)
    (left right : CurrentLesson) : Prop :=
  policy.similarityThreshold ≤ (scoreLessonSimilarity words left right policy).score

instance (left right : CurrentLesson) : Decidable (Similar words policy left right) :=
  inferInstanceAs (Decidable (_ ≤ _))

/-- The obsolescence of the lesson reaches the threshold. -/
def Obsolete (policy : MemoryCurationPolicy) (asOf : JsString) (presence : List (JsString × Bool))
    (lesson : CurrentLesson) : Prop :=
  ∃ scored, obsolescence policy asOf presence lesson = some scored ∧
    policy.obsolescenceThreshold ≤ scored.score

/-- The retirement a lesson of a plan is proposed for. -/
def retirementOf (digest : JsString → JsString) (policy : MemoryCurationPolicy) (asOf : JsString)
    (presence : List (JsString × Bool)) (lesson : CurrentLesson) : Option ScoredProposal :=
  match proposeRetirement digest policy asOf presence lesson with
  | .ok retirement => retirement
  | .error _ => none

theorem proposeRetirement_ok {lesson : CurrentLesson}
    (scored : (obsolescence policy asOf presence lesson).isSome = true) :
    proposeRetirement digest policy asOf presence lesson =
      .ok (retirementOf digest policy asOf presence lesson) := by
  obtain ⟨score, found⟩ := Option.isSome_iff_exists.mp scored
  rw [obsolescence] at found
  rw [retirementOf, proposeRetirement, found]
  dsimp only
  split <;> rfl

theorem retirementOf_some {lesson : CurrentLesson} {proposal : ScoredProposal}
    (found : retirementOf digest policy asOf presence lesson = some proposal) :
    Obsolete policy asOf presence lesson ∧ proposal.kind.isMerge = false ∧
      proposal.lessonIds = [lesson.lessonId] ∧
      ((∃ components, proposal.kind = .delete components) ↔ lesson.observationCount = 1) := by
  rw [retirementOf, proposeRetirement] at found
  cases scoring : scoreLessonObsolescence lesson asOf
      (dependencyPresent presence lesson.dependency) policy with
  | none => simp [scoring] at found
  | some scored =>
      simp only [scoring] at found
      by_cases low : scored.score < policy.obsolescenceThreshold
      · simp [low] at found
      · simp only [if_neg low, Option.some.injEq] at found
        subst found
        refine ⟨⟨scored, scoring, Nat.le_of_not_lt low⟩, ?_, rfl, ?_⟩
        · by_cases once : lesson.observationCount = 1 <;> simp [proposalOf, once, ScoredKind.isMerge]
        · by_cases once : lesson.observationCount = 1 <;> simp [proposalOf, once]

theorem retirementOf_isSome {lesson : CurrentLesson}
    (due : Obsolete policy asOf presence lesson) :
    (retirementOf digest policy asOf presence lesson).isSome = true := by
  obtain ⟨scored, found, reached⟩ := due
  rw [obsolescence] at found
  simp only [retirementOf, proposeRetirement, found, if_neg (Nat.not_lt.mpr reached)]
  rfl

theorem proposeMerge_some {pair : CurrentLesson × CurrentLesson} {proposal : ScoredProposal}
    (found : proposeMerge words digest policy asOf pair = some proposal) :
    Similar words policy pair.1 pair.2 ∧ proposal.kind.isMerge = true ∧
      proposal.lessonIds = [pair.1.lessonId, pair.2.lessonId] := by
  simp only [proposeMerge, Option.ite_none_left_eq_some, Option.some.injEq] at found
  obtain ⟨reached, rfl⟩ := found
  exact ⟨Nat.le_of_not_lt reached, rfl, rfl⟩

theorem proposeMerge_isSome {pair : CurrentLesson × CurrentLesson}
    (similar : Similar words policy pair.1 pair.2) :
    (proposeMerge words digest policy asOf pair).isSome = true := by
  simp only [proposeMerge, if_neg (Nat.not_lt.mpr similar)]
  rfl

/-- The lessons in the order they are compared in. -/
abbrev compared (ledger : CuratedMemoryV1_1) : List CurrentLesson :=
  ledger.confirmed.insertionSort ByLessonUnits

theorem compared_perm (ledger : CuratedMemoryV1_1) : (compared ledger).Perm ledger.confirmed :=
  List.perm_insertionSort ByLessonUnits ledger.confirmed

/-- The merges and the retirements of a plan, before they are sorted. -/
def unsorted (words : JsString → List JsString) (digest : JsString → JsString)
    (policy : MemoryCurationPolicy) (asOf : JsString) (presence : List (JsString × Bool))
    (lessons : List CurrentLesson) : List ScoredProposal :=
  (pairs lessons).filterMap (proposeMerge words digest policy asOf) ++
    lessons.filterMap (retirementOf digest policy asOf presence)

/-- A plan exists exactly when every lesson has a score, and these are its proposals. -/
theorem proposeMemoryCuration_ok_iff :
    proposeMemoryCuration words digest policy asOf presence ledger = .ok plan ↔
      (∀ lesson ∈ ledger.confirmed, (obsolescence policy asOf presence lesson).isSome = true) ∧
      plan = {
        policyVersion := policy.policyVersion
        asOf
        ledgerDigest := digest (canonicalizeJson ledger.json)
        proposals := (unsorted words digest policy asOf presence (compared ledger)).insertionSort
          ByProposal
        planDigest := digest (canonicalizeJson (planContent policy asOf
          (digest (canonicalizeJson ledger.json))
          ((unsorted words digest policy asOf presence (compared ledger)).insertionSort
            ByProposal))) } := by
  have flattened : ∀ lessons : List CurrentLesson,
      (lessons.map (retirementOf digest policy asOf presence)).filterMap id =
        lessons.filterMap (retirementOf digest policy asOf presence) := by
    intro lessons
    rw [List.filterMap_map]
    rfl
  have members : ∀ lesson, lesson ∈ compared ledger ↔ lesson ∈ ledger.confirmed :=
    fun lesson => (compared_perm ledger).mem_iff
  unfold proposeMemoryCuration
  simp only []
  rw [bind_ok_iff]
  constructor
  · rintro ⟨retirements, read, built⟩
    have scored : ∀ lesson ∈ compared ledger,
        (obsolescence policy asOf presence lesson).isSome = true := by
      intro lesson member
      obtain ⟨retirement, -, ok⟩ := (forall₂_mem (mapM_ok_iff.mp read)).1 lesson member
      by_contra missing
      rw [Bool.not_eq_true, Option.isSome_eq_false_iff, Option.isNone_iff_eq_none,
        obsolescence] at missing
      simp [proposeRetirement, missing] at ok
    rw [mapM_ok_of fun lesson member => proposeRetirement_ok (scored lesson member),
      Except.ok.injEq] at read
    subst read
    rw [flattened] at built
    refine ⟨fun lesson member => scored lesson ((members lesson).mpr member), ?_⟩
    exact (Except.ok.inj built).symm
  · rintro ⟨scored, rfl⟩
    refine ⟨_, mapM_ok_of fun lesson member =>
      proposeRetirement_ok (scored lesson ((members lesson).mp member)), ?_⟩
    rw [flattened]
    rfl

end Proposals

section Completeness

variable {words : JsString → List JsString} {digest : JsString → JsString}
  {policy : MemoryCurationPolicy} {asOf : JsString} {presence : List (JsString × Bool)}
  {lessons : List CurrentLesson} {left right : CurrentLesson}

/-- Lessons with distinct identities are the same when their identities are. -/
theorem eq_of_lessonId (unique : (lessonIds lessons).Nodup) (leftAt : left ∈ lessons)
    (rightAt : right ∈ lessons) (same : left.lessonId = right.lessonId) : left = right :=
  List.inj_on_of_nodup_map unique leftAt rightAt same

/-- The plan merges two lessons once when they are similar, and never otherwise. -/
theorem countP_merges (unique : (lessonIds lessons).Nodup) (leftAt : left ∈ lessons)
    (rightAt : right ∈ lessons) (distinct : left ≠ right) :
    (unsorted words digest policy asOf presence lessons).countP
        (ScoredProposal.merges left right) = if Similar words policy left right then 1 else 0 := by
  have retirements : (lessons.filterMap (retirementOf digest policy asOf presence)).countP
      (ScoredProposal.merges left right) = 0 := by
    rw [List.countP_eq_zero]
    intro proposal member merging
    obtain ⟨lesson, -, found⟩ := List.mem_filterMap.mp member
    rw [ScoredProposal.merges, (retirementOf_some found).2.1] at merging
    cases merging
  have perPair : ∀ pair ∈ pairs lessons,
      (((proposeMerge words digest policy asOf pair).map
          (ScoredProposal.merges left right)).getD false = true ↔
        joins left right pair = true ∧ Similar words policy left right) := by
    intro pair member
    obtain ⟨firstAt, secondAt⟩ := mem_of_pairs member
    have same : ∀ {one other : CurrentLesson}, one ∈ lessons → other ∈ lessons →
        (one.lessonId = other.lessonId ↔ one = other) := fun oneAt otherAt =>
      ⟨eq_of_lessonId unique oneAt otherAt, fun equal => equal ▸ rfl⟩
    have joined : joins left right pair = true ↔
        [pair.1.lessonId, pair.2.lessonId] = [left.lessonId, right.lessonId] ∨
          [pair.1.lessonId, pair.2.lessonId] = [right.lessonId, left.lessonId] := by
      simp [joins, Prod.ext_iff, same firstAt leftAt, same firstAt rightAt, same secondAt leftAt,
        same secondAt rightAt]
    have similar : joins left right pair = true →
        (Similar words policy pair.1 pair.2 ↔ Similar words policy left right) := by
      intro joint
      rcases of_decide_eq_true joint with rfl | rfl
      · exact Iff.rfl
      · rw [Similar, Similar, scoreLessonSimilarity_symm]
    cases proposed : proposeMerge words digest policy asOf pair with
    | none =>
        simp only [Option.map_none, Option.getD_none, Bool.false_eq_true, false_iff, not_and]
        intro joint reached
        have some := @proposeMerge_isSome words digest policy asOf _ ((similar joint).mpr reached)
        rw [proposed] at some
        cases some
    | some proposal =>
        obtain ⟨reached, merging, names⟩ := proposeMerge_some proposed
        simp only [Option.map_some, Option.getD_some, ScoredProposal.merges, merging, names,
          Bool.true_and, decide_eq_true_eq, ← joined]
        exact ⟨fun joint => ⟨joint, (similar joint).mp reached⟩, And.left⟩
  rw [unsorted, List.countP_append, retirements, Nat.add_zero, List.countP_filterMap]
  by_cases reached : Similar words policy left right
  · rw [if_pos reached]
    rw [← countP_pairs (unique.of_map _) leftAt rightAt distinct]
    apply List.countP_congr
    intro pair member
    rw [perPair pair member, and_iff_left reached]
  · rw [if_neg reached, List.countP_eq_zero]
    intro pair member merging
    exact reached ((perPair pair member).mp merging).2

/-- The plan retires a lesson once when it is obsolete, and never otherwise. -/
theorem countP_retires {lesson : CurrentLesson} (unique : (lessonIds lessons).Nodup)
    (listed : lesson ∈ lessons) :
    (Obsolete policy asOf presence lesson → (unsorted words digest policy asOf presence
        lessons).countP (ScoredProposal.retires lesson) = 1) ∧
      (¬ Obsolete policy asOf presence lesson → (unsorted words digest policy asOf presence
        lessons).countP (ScoredProposal.retires lesson) = 0) := by
  have merges : ((pairs lessons).filterMap (proposeMerge words digest policy asOf)).countP
      (ScoredProposal.retires lesson) = 0 := by
    rw [List.countP_eq_zero]
    intro proposal member retiring
    obtain ⟨pair, -, found⟩ := List.mem_filterMap.mp member
    rw [ScoredProposal.retires, (proposeMerge_some found).2.1] at retiring
    cases retiring
  have perLesson : ∀ other ∈ lessons,
      (((retirementOf digest policy asOf presence other).map
          (ScoredProposal.retires lesson)).getD false = true ↔
        other = lesson ∧ Obsolete policy asOf presence lesson) := by
    intro other member
    cases proposed : retirementOf digest policy asOf presence other with
    | none =>
        simp only [Option.map_none, Option.getD_none, Bool.false_eq_true, false_iff, not_and]
        rintro rfl due
        have some := @retirementOf_isSome digest policy asOf presence _ due
        rw [proposed] at some
        cases some
    | some proposal =>
        obtain ⟨due, retiring, names, -⟩ := retirementOf_some proposed
        simp only [Option.map_some, Option.getD_some, ScoredProposal.retires, retiring, names,
          Bool.not_false, Bool.true_and, decide_eq_true_eq, List.cons.injEq, and_true]
        constructor
        · intro same
          obtain rfl := eq_of_lessonId unique member listed same
          exact ⟨rfl, due⟩
        · rintro ⟨rfl, -⟩
          rfl
  rw [unsorted, List.countP_append, merges, Nat.zero_add, List.countP_filterMap]
  constructor
  · intro due
    rw [← List.count_eq_one_of_mem (unique.of_map _) listed, List.count]
    apply List.countP_congr
    intro other member
    rw [perLesson other member, and_iff_left due, beq_iff_eq]
  · intro fresh
    rw [List.countP_eq_zero]
    intro other member retiring
    exact fresh ((perLesson other member).mp retiring).2

/-- What a proposal names: two lessons to merge, or one to retire. -/
def MemoryCurationProposal.Shaped (lessons : List CurrentLesson)
    (proposal : MemoryCurationProposal) : Prop :=
  match proposal.type with
  | .merge => ∃ left ∈ lessons, ∃ right ∈ lessons, left.lessonId ≠ right.lessonId ∧
      proposal.lessonIds = [left.lessonId, right.lessonId]
  | .archive _ => ∃ lesson ∈ lessons, proposal.lessonIds = [lesson.lessonId] ∧
      lesson.observationCount ≠ 1
  | .delete _ => ∃ lesson ∈ lessons, proposal.lessonIds = [lesson.lessonId] ∧
      lesson.observationCount = 1

theorem unsorted_shaped (unique : (lessonIds lessons).Nodup) {proposal : ScoredProposal}
    (member : proposal ∈ unsorted words digest policy asOf presence lessons) :
    proposal.reviewed.Shaped lessons := by
  rcases List.mem_append.mp member with merging | retiring
  · obtain ⟨pair, paired, found⟩ := List.mem_filterMap.mp merging
    obtain ⟨leftAt, rightAt⟩ := mem_of_pairs paired
    obtain ⟨-, kind, names⟩ := proposeMerge_some found
    have distinct : pair.1.lessonId ≠ pair.2.lessonId := fun same =>
      pairs_distinct (unique.of_map _) paired (eq_of_lessonId unique leftAt rightAt same)
    simp only [MemoryCurationProposal.Shaped, ScoredProposal.reviewed]
    cases shape : proposal.kind with
    | merge components textEvidence fixEvidence =>
        exact ⟨pair.1, leftAt, pair.2, rightAt, distinct, names⟩
    | archive components => simp [shape, ScoredKind.isMerge] at kind
    | delete components => simp [shape, ScoredKind.isMerge] at kind
  · obtain ⟨lesson, listed, found⟩ := List.mem_filterMap.mp retiring
    obtain ⟨-, kind, names, once⟩ := retirementOf_some found
    simp only [MemoryCurationProposal.Shaped, ScoredProposal.reviewed]
    cases shape : proposal.kind with
    | merge components textEvidence fixEvidence => simp [shape, ScoredKind.isMerge] at kind
    | archive components => exact ⟨lesson, listed, names, by simpa [shape] using once⟩
    | delete components => exact ⟨lesson, listed, names, by simpa [shape] using once⟩

/-- A plan proposes each due change of the ledger once. -/
structure CompletePlan (words : JsString → List JsString) (policy : MemoryCurationPolicy)
    (asOf : JsString) (presence : List (JsString × Bool)) (ledger : CuratedMemoryV1_1)
    (plan : ScoredPlan) : Prop where
  merges : ∀ left ∈ ledger.confirmed, ∀ right ∈ ledger.confirmed, left ≠ right →
    plan.proposals.countP (ScoredProposal.merges left right) =
      if Similar words policy left right then 1 else 0
  retires : ∀ lesson ∈ ledger.confirmed,
    plan.proposals.countP (ScoredProposal.retires lesson) ≤ 1 ∧
      (plan.proposals.countP (ScoredProposal.retires lesson) = 1 ↔
        Obsolete policy asOf presence lesson)
  shaped : ∀ proposal ∈ plan.proposals, proposal.reviewed.Shaped ledger.confirmed

variable {ledger : CuratedMemoryV1_1} {plan : ScoredPlan}

theorem compared_unique (unique : (lessonIds ledger.confirmed).Nodup) :
    (lessonIds (compared ledger)).Nodup :=
  ((compared_perm ledger).map _).nodup_iff.mpr unique

theorem proposeMemoryCuration_complete (unique : (lessonIds ledger.confirmed).Nodup)
    (proposed : proposeMemoryCuration words digest policy asOf presence ledger = .ok plan) :
    CompletePlan words policy asOf presence ledger plan := by
  obtain ⟨-, rfl⟩ := proposeMemoryCuration_ok_iff.mp proposed
  have members : ∀ {lesson}, lesson ∈ ledger.confirmed → lesson ∈ compared ledger :=
    fun member => (compared_perm ledger).mem_iff.mpr member
  have sorted := List.perm_insertionSort ByProposal
    (unsorted words digest policy asOf presence (compared ledger))
  have once := compared_unique unique
  constructor
  · intro left leftAt right rightAt distinct
    rw [sorted.countP_eq, countP_merges once (members leftAt) (members rightAt) distinct]
  · intro lesson member
    obtain ⟨due, fresh⟩ :=
      @countP_retires words digest policy asOf presence _ _ once (members member)
    rw [sorted.countP_eq]
    by_cases reached : Obsolete policy asOf presence lesson
    · rw [due reached]
      exact ⟨Nat.le_refl 1, iff_of_true rfl reached⟩
    · rw [fresh reached]
      exact ⟨Nat.zero_le 1, iff_of_false Nat.zero_ne_one reached⟩
  · intro proposal member
    have shaped := unsorted_shaped once (sorted.mem_iff.mp member)
    have same : ∀ lesson, lesson ∈ compared ledger ↔ lesson ∈ ledger.confirmed :=
      fun lesson => (compared_perm ledger).mem_iff
    simpa only [MemoryCurationProposal.Shaped, same] using shaped

theorem proposeMemoryCuration_perm {other : CuratedMemoryV1_1}
    (unique : (lessonIds ledger.confirmed).Nodup)
    (perm : other.confirmed.Perm ledger.confirmed)
    (proposed : proposeMemoryCuration words digest policy asOf presence ledger = .ok plan) :
    ∃ same, proposeMemoryCuration words digest policy asOf presence other = .ok same ∧
      { same with ledgerDigest := plan.ledgerDigest, planDigest := plan.planDigest } = plan := by
  obtain ⟨scored, rfl⟩ := proposeMemoryCuration_ok_iff.mp proposed
  have sorted : compared other = compared ledger := by
    apply List.Perm.eq_of_pairwise _ (List.pairwise_insertionSort ByLessonUnits _)
      (List.pairwise_insertionSort ByLessonUnits _)
      ((compared_perm other).trans (perm.trans (compared_perm ledger).symm))
    intro left right leftAt rightAt forward backward
    have leftHere := perm.mem_iff.mp ((compared_perm other).mem_iff.mp leftAt)
    have rightHere := (compared_perm ledger).mem_iff.mp rightAt
    exact eq_of_lessonId unique leftHere rightHere (notAfter_antisymm forward backward)
  refine ⟨_, proposeMemoryCuration_ok_iff.mpr ⟨fun lesson member =>
    scored lesson (perm.mem_iff.mp member), rfl⟩, ?_⟩
  simp only [sorted]

theorem proposeMemoryCuration_exists {day : CalendarDay}
    (timed : ∀ lesson ∈ ledger.confirmed, timestampPattern lesson.lastObservedAt = true)
    (observed : ∀ lesson ∈ ledger.confirmed, ObservedBy day lesson) :
    ∃ plan, proposeMemoryCuration words digest policy day.text presence ledger = .ok plan := by
  refine ⟨_, proposeMemoryCuration_ok_iff.mpr ⟨?_, rfl⟩⟩
  intro lesson member
  exact (scoreLessonObsolescence_isSome (timed lesson member) _ policy).mpr (observed lesson member)

end Completeness

end Kratos.Memory
