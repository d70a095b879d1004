/- source: domain/memory/index.ts
   digest: Promotion, reinforcement, merge, archive and approved curation of a ledger. -/

import Kratos.Memory.Ledger
import Kratos.Foundation.Collections
import Kratos.Foundation.Doubles
import Kratos.Foundation.Runs

set_option autoImplicit false

namespace Kratos.Memory

open Foundation.Text Foundation.Collections Foundation.Doubles

/-- `FailureCandidateV1`, and `FailureCandidateV1_1` with its counted observations. -/
structure CurrentCandidate where
  candidateId : JsString
  firstObservedAt : JsString
  counted : Option (Nat × JsString)
  deriving DecidableEq, Repr

structure Promotion where
  reviewer : JsString
  candidateIds : List JsString
  title : JsString
  why : List JsString
  apply : List JsString
  technology : JsString
  failureKind : FailureKind
  dependency : Dependency
  deriving DecidableEq, Repr

inductive MemoryChange
  | promote (proposal : Promotion)
  | reinforce (reviewer lessonId : JsString) (candidateIds : List JsString)
  | merge (reviewer : JsString) (lessonIds : List JsString) (title : JsString)
  | archive (reviewer lessonId reason : JsString)
  deriving DecidableEq, Repr

def MemoryChange.reviewer : MemoryChange → JsString
  | .promote proposal => proposal.reviewer
  | .reinforce reviewer _ _ => reviewer
  | .merge reviewer _ _ => reviewer
  | .archive reviewer _ _ => reviewer

/-- A change without a ledger; the last one is the error of reducing an empty list. -/
inductive ChangeRefusal
  | lessonIncomplete | candidateMissing | curationRequired | provenanceMismatch
  | reduceOfEmpty
  deriving DecidableEq, Repr

structure ReadyChange where
  ledger : CuratedMemoryV1_1
  consumedCandidateIds : List JsString
  deriving DecidableEq, Repr

def nonempty (values : List JsString) : Bool :=
  !values.isEmpty && values.all fun value => !(trim value).isEmpty

def minText (left right : JsString) : JsString := if before left right then left else right

def maxText (left right : JsString) : JsString := if before right left then left else right

/-- `values.reduce(combine)`. -/
def reduce (combine : JsString → JsString → JsString) : List JsString → Option JsString
  | [] => none
  | value :: rest => some (rest.foldl combine value)

structure ObservationFacts where
  observationCount : Nat
  firstObservedAt : JsString
  lastObservedAt : JsString
  deriving DecidableEq, Repr

def observationFacts (candidates : List CurrentCandidate) : Option ObservationFacts := do
  let firstObservedAt ← reduce minText (candidates.map CurrentCandidate.firstObservedAt)
  let lastObservedAt ← reduce maxText (candidates.map fun candidate =>
    match candidate.counted with
    | some (_, lastObservedAt) => lastObservedAt
    | none => candidate.firstObservedAt)
  pure {
    observationCount := addUp (candidates.map fun candidate =>
      match candidate.counted with
      | some (observationCount, _) => observationCount
      | none => 1)
    firstObservedAt
    lastObservedAt }

/-- The entries whose key is wanted, when every wanted key is distinct and found once. -/
def selectByIds {α : Type} (key : α → JsString) (entries : List α) (ids : List JsString) :
    Option (List α) :=
  let wanted := ids.eraseDups
  let source := entries.filter fun entry => decide (key entry ∈ wanted)
  if wanted.length = ids.length ∧ source.length = wanted.length then some source else none

def lessonsByIds (confirmed : List CurrentLesson) (ids : List JsString) :
    Option (List CurrentLesson) :=
  selectByIds (fun lesson => lesson.lessonId) confirmed ids

def selectCandidates (candidates : List CurrentCandidate) (ids : List JsString) :
    Option (List CurrentCandidate) :=
  selectByIds CurrentCandidate.candidateId candidates ids

def findLesson (confirmed : List CurrentLesson) (lessonId : JsString) : Option CurrentLesson :=
  confirmed.find? fun lesson => decide (lesson.lessonId = lessonId)

/-- `ledger.confirmed.filter(({ lessonId }) => !ids.has(lessonId))`. -/
def withoutLessons (confirmed : List CurrentLesson) (ids : List JsString) : List CurrentLesson :=
  confirmed.filter fun lesson => decide (lesson.lessonId ∉ ids)

/-- `values.slice(-limit)`. -/
def lastEntries {α : Type} (limit : Nat) (values : List α) : List α :=
  values.drop (values.length - limit)

def ByCurrentLessonId (left right : CurrentLesson) : Prop := ByText left.lessonId right.lessonId

instance : DecidableRel ByCurrentLessonId := fun left right =>
  inferInstanceAs (Decidable (ByText left.lessonId right.lessonId))

/-- The order in which a merge looks for its canonical lesson. -/
def ByObservations (left right : CurrentLesson) : Prop :=
  if right.observationCount ≠ left.observationCount then
    right.observationCount < left.observationCount
  else ByCurrentLessonId left right

instance : DecidableRel ByObservations := fun left right =>
  inferInstanceAs (Decidable (if right.observationCount ≠ left.observationCount then
    right.observationCount < left.observationCount
  else ByCurrentLessonId left right))

def currentTombstone (lesson : CurrentLesson) (reviewer archivedAt reason : JsString)
    (replacementLessonId : Option JsString) (curationEvidence : Option CurationEvidence) :
    CurrentTombstone where
  lessonId := lesson.lessonId
  title := lesson.title
  candidateIds := lesson.candidateIds
  reviewer := reviewer
  archivedAt := archivedAt
  reason := reason
  replacementLessonId := replacementLessonId
  facts := some {
    technology := lesson.technology
    failureKind := lesson.failureKind
    dependency := lesson.dependency
    observationCount := lesson.observationCount
    firstObservedAt := lesson.firstObservedAt
    lastObservedAt := lesson.lastObservedAt
    curationEvidence }

section Digests

variable (sha256 : JsString → JsString)

def lessonFor (title : JsString) (why apply candidateIds : List JsString)
    (reviewer confirmedAt : JsString) : Lesson where
  lessonId := lessonDigest sha256 title why apply candidateIds
  title := title
  why := why
  apply := apply
  candidateIds := candidateIds
  reviewer := reviewer
  confirmedAt := confirmedAt

def completeCurrent (prior : CuratedMemoryV1_1) (confirmed : List CurrentLesson)
    (archive : List CurrentTombstone) (consumedCandidateIds : List JsString) (now : JsString) :
    Except ChangeRefusal ReadyChange :=
  if confirmed.length > CURATED_MEMORY_CONFIRMED_MAX then .error .curationRequired
  else
    let provisional : CuratedMemoryV1_1 := {
      prior with
      revision := prior.revision + 1
      updatedAt := now
      confirmed := confirmed.insertionSort ByCurrentLessonId
      archive := lastEntries CURATED_MEMORY_ARCHIVE_MAX archive }
    let projection := projectCuratedMemory sha256 provisional.asV1
    .ok {
      ledger := { provisional with projectionDigest := projection.projectionDigest }
      consumedCandidateIds := sortedTexts consumedCandidateIds }

def promotedLesson (proposal : Promotion) (facts : ObservationFacts) (now : JsString) :
    CurrentLesson where
  toLesson := lessonFor sha256 proposal.title (sortedTexts proposal.why)
    (sortedTexts proposal.apply) (sortedTexts proposal.candidateIds) proposal.reviewer now
  technology := proposal.technology
  failureKind := proposal.failureKind
  dependency := proposal.dependency
  observationCount := facts.observationCount
  firstObservedAt := facts.firstObservedAt
  lastObservedAt := facts.lastObservedAt

/-- The lesson a reinforcement leaves in the place of another. -/
def reinforcedLesson (lesson : CurrentLesson) (reviewer : JsString) (facts : ObservationFacts) :
    CurrentLesson := {
  lesson with
  reviewer := reviewer
  observationCount := nearestDouble (lesson.observationCount + facts.observationCount)
  firstObservedAt := minText lesson.firstObservedAt facts.firstObservedAt
  lastObservedAt := maxText lesson.lastObservedAt facts.lastObservedAt }

/-- `ledger.confirmed.map((value) => value.lessonId === lesson.lessonId ? reinforced : value)`. -/
def replaceLesson (confirmed : List CurrentLesson) (lesson reinforced : CurrentLesson) :
    List CurrentLesson :=
  confirmed.map fun value => if value.lessonId = lesson.lessonId then reinforced else value

def unitedTexts (field : Lesson → List JsString) (source : List CurrentLesson) : List JsString :=
  sortedTexts (source.flatMap fun lesson => field lesson.toLesson)

/-- The lesson a merge confirms, with its canonical source. -/
def mergedLesson (source : List CurrentLesson) (canonical : CurrentLesson) (reviewer now : JsString)
    (explicitTitle : Option JsString) : CurrentLesson where
  toLesson := lessonFor sha256 (explicitTitle.getD canonical.title)
    (unitedTexts Lesson.why source) (unitedTexts Lesson.apply source)
    (unitedTexts Lesson.candidateIds source) reviewer now
  technology := canonical.technology
  failureKind := canonical.failureKind
  dependency := canonical.dependency
  observationCount := addUp (source.map CurrentLesson.observationCount)
  firstObservedAt :=
    (reduce minText (source.map CurrentLesson.firstObservedAt)).getD canonical.firstObservedAt
  lastObservedAt :=
    (reduce maxText (source.map CurrentLesson.lastObservedAt)).getD canonical.lastObservedAt

def canonicalLesson (source : List CurrentLesson) : Option CurrentLesson :=
  (source.insertionSort ByObservations).head?

def mergeTombstones (source : List CurrentLesson) (reviewer now replacementLessonId : JsString) :
    List CurrentTombstone :=
  source.map fun lesson => currentTombstone lesson reviewer now
    (js "Merged into replacement lesson.") (some replacementLessonId) none

def mergeCurrent (ledger : CuratedMemoryV1_1) (source : List CurrentLesson)
    (reviewer now : JsString) (explicitTitle : Option JsString) :
    Except ChangeRefusal ReadyChange :=
  match canonicalLesson source with
  | none => .error .candidateMissing
  | some canonical =>
      if (unitedTexts Lesson.why source).length > 8 ∨
          (unitedTexts Lesson.apply source).length > 8 ∨
          (unitedTexts Lesson.candidateIds source).length > 256 then
        .error .curationRequired
      else
        let replacement := mergedLesson sha256 source canonical reviewer now explicitTitle
        let sourceIds := source.map fun lesson => lesson.lessonId
        completeCurrent sha256 ledger
          (withoutLessons ledger.confirmed sourceIds ++ [replacement])
          (ledger.archive ++ mergeTombstones source reviewer now replacement.lessonId) [] now

def reduceMemoryChangeV1_4 (ledger : CuratedMemoryV1_1) (candidates : List CurrentCandidate)
    (proposal : MemoryChange) (now : JsString) : Except ChangeRefusal ReadyChange :=
  if (trim proposal.reviewer).isEmpty then .error .lessonIncomplete
  else
    match proposal with
    | .promote promotion =>
        match selectCandidates candidates promotion.candidateIds with
        | none => .error .candidateMissing
        | some selected =>
            if !nonempty promotion.why || !nonempty promotion.apply then .error .lessonIncomplete
            else
              match observationFacts selected with
              | none => .error .reduceOfEmpty
              | some facts =>
                  completeCurrent sha256 ledger
                    (ledger.confirmed ++ [promotedLesson sha256 promotion facts now])
                    ledger.archive promotion.candidateIds now
    | .reinforce reviewer lessonId candidateIds =>
        match findLesson ledger.confirmed lessonId, selectCandidates candidates candidateIds with
        | some lesson, some selected =>
            if candidateIds.any fun id => decide (id ∉ lesson.candidateIds) then
              .error .provenanceMismatch
            else
              match observationFacts selected with
              | none => .error .reduceOfEmpty
              | some facts =>
                  completeCurrent sha256 ledger
                    (replaceLesson ledger.confirmed lesson (reinforcedLesson lesson reviewer facts))
                    ledger.archive candidateIds now
        | _, _ => .error .candidateMissing
    | .merge reviewer lessonIds title =>
        match lessonsByIds ledger.confirmed lessonIds with
        | none => .error .candidateMissing
        | some source => mergeCurrent sha256 ledger source reviewer now (some title)
    | .archive reviewer lessonId reason =>
        match findLesson ledger.confirmed lessonId with
        | none => .error .candidateMissing
        | some lesson =>
            completeCurrent sha256 ledger (withoutLessons ledger.confirmed [lesson.lessonId])
              (ledger.archive ++ [currentTombstone lesson reviewer now reason none none]) [] now

end Digests

/-- The components of a merge are not read by its application. -/
inductive ProposalType
  | merge
  | archive (components : ObsolescenceComponents)
  | delete (components : ObsolescenceComponents)
  deriving DecidableEq, Repr

structure MemoryCurationProposal where
  proposalId : JsString
  type : ProposalType
  score : Nat
  lessonIds : List JsString
  deriving DecidableEq, Repr

structure MemoryCurationPlan where
  policyVersion : JsString
  proposals : List MemoryCurationProposal
  planDigest : JsString
  deriving DecidableEq, Repr

inductive Decision
  | approve | reject
  deriving DecidableEq, Repr

structure CurationApproval where
  reviewer : JsString
  planDigest : JsString
  decisions : List (JsString × Decision)
  deriving DecidableEq, Repr

inductive CurationRefusal
  | approvalStale | approvalIncomplete | approvalDuplicate | approvalUnknown | approvalOverlap
  | candidateMissing | curationRequired
  deriving DecidableEq, Repr

structure ReadyCuration where
  ledger : CuratedMemoryV1_1
  approvedProposalIds : List JsString
  deriving DecidableEq, Repr

/-- The lessons and tombstones a batch has reached. -/
structure CurationState where
  confirmed : List CurrentLesson
  archive : List CurrentTombstone
  deriving DecidableEq, Repr

/-- `reduced.kind === "curation_required" ? "curation_required" : "candidate_missing"`. -/
def curationRefusal : ChangeRefusal → CurationRefusal
  | .curationRequired => .curationRequired
  | _ => .candidateMissing

/-- The loop over the decisions, from those already read. -/
def readDecisions (proposalIds : List JsString) :
    List (JsString × Decision) → List (JsString × Decision) →
    Except CurationRefusal (List (JsString × Decision))
  | decisions, [] => .ok decisions
  | decisions, decision :: rest =>
      if decision.1 ∈ decisions.map Prod.fst then .error .approvalDuplicate
      else if decision.1 ∉ proposalIds then .error .approvalUnknown
      else readDecisions proposalIds (decisions ++ [decision]) rest

/-- The loop that occupies the lessons of the approved proposals. -/
def occupy : List JsString → List JsString → Except CurationRefusal (List JsString)
  | occupied, [] => .ok occupied
  | occupied, lessonId :: rest =>
      if lessonId ∈ occupied then .error .approvalOverlap else occupy (occupied ++ [lessonId]) rest

section Digests

variable (sha256 : JsString → JsString)

/-- The evidence a proposal of the given components leaves in a tombstone. -/
def curationEvidence (proposal : MemoryCurationProposal) (components : ObsolescenceComponents) :
    CurationEvidence where
  policyVersion := js "memory-curation/1.0.0"
  proposalId := proposal.proposalId
  score := proposal.score
  components := components

/-- One round of the loop over the approved proposals. -/
def applyProposal (ledger : CuratedMemoryV1_1) (plan : MemoryCurationPlan) (reviewer now : JsString)
    (state : CurationState) (proposal : MemoryCurationProposal) :
    Except CurationRefusal CurationState :=
  match lessonsByIds state.confirmed proposal.lessonIds with
  | none => .error .candidateMissing
  | some source =>
      match proposal.type with
      | .merge =>
          match mergeCurrent sha256
              { ledger with confirmed := state.confirmed, archive := state.archive }
              source reviewer now none with
          | .error refusal => .error (curationRefusal refusal)
          | .ok reduced => .ok ⟨reduced.ledger.confirmed, reduced.ledger.archive⟩
      | .archive components =>
          match source.head? with
          | none => .error .candidateMissing
          | some lesson =>
              .ok ⟨withoutLessons state.confirmed [lesson.lessonId],
                state.archive ++ [currentTombstone lesson reviewer now
                  (js "Obsolete under " ++ plan.policyVersion ++ js ".") none
                  (some (curationEvidence proposal components))]⟩
      | .delete _ =>
          match source.head? with
          | none => .error .candidateMissing
          | some lesson =>
              .ok ⟨withoutLessons state.confirmed [lesson.lessonId], state.archive⟩

/-- The proposals the decisions approve, in the plan's order. -/
def approvedProposals (plan : MemoryCurationPlan) (decisions : List (JsString × Decision)) :
    List MemoryCurationProposal :=
  plan.proposals.filter fun proposal =>
    decide (mapGet decisions proposal.proposalId = some .approve)

def applyMemoryCuration (ledger : CuratedMemoryV1_1) (plan : MemoryCurationPlan)
    (approval : CurationApproval) (now : JsString) : Except CurationRefusal ReadyCuration := do
  if approval.planDigest ≠ plan.planDigest then .error .approvalStale
  else do
    let decisions ← readDecisions (plan.proposals.map MemoryCurationProposal.proposalId) []
      approval.decisions
    if decisions.length ≠ plan.proposals.length then .error .approvalIncomplete
    else do
      let approved := approvedProposals plan decisions
      let _ ← occupy [] (approved.flatMap MemoryCurationProposal.lessonIds)
      let state ← approved.foldlM (applyProposal sha256 ledger plan approval.reviewer now)
        ⟨ledger.confirmed, ledger.archive⟩
      match completeCurrent sha256 ledger state.confirmed state.archive [] now with
      | .error refusal => .error (curationRefusal refusal)
      | .ok completed =>
          .ok {
            ledger := completed.ledger
            approvedProposalIds := approved.map MemoryCurationProposal.proposalId }

end Digests

end Kratos.Memory
