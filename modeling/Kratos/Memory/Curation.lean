/- source: domain/memory/curation.ts
   digest: The similarity and the obsolescence of lessons and the plan proposed from them. -/

import Kratos.Memory.Migration
import Kratos.Foundation.Batches
import Kratos.Foundation.Pairs
import Kratos.Timestamps

set_option autoImplicit false

namespace Kratos.Memory

open Foundation.Text Foundation.JsonText Foundation.Collections Foundation.Calendar Foundation.Pairs
open Patterns Schema

structure CurationWeights where
  text : Nat
  fix : Nat
  technology : Nat
  failureKind : Nat
  age : Nat
  rarity : Nat
  dependencyAbsent : Nat
  deriving DecidableEq, Repr

structure MemoryCurationPolicy where
  policyVersion : JsString
  similarityThreshold : Nat
  obsolescenceThreshold : Nat
  weights : CurationWeights
  deriving DecidableEq, Repr

def MEMORY_CURATION_POLICY : MemoryCurationPolicy where
  policyVersion := js "memory-curation/1.0.0"
  similarityThreshold := 7500
  obsolescenceThreshold := 7000
  weights := {
    text := 25
    fix := 45
    technology := 15
    failureKind := 15
    age := 50
    rarity := 20
    dependencyAbsent := 30 }

def STOPWORDS : List JsString :=
  [js "a", js "an", js "and", js "are", js "as", js "at", js "be", js "been", js "by", js "for",
    js "from", js "has", js "have", js "in", js "into", js "is", js "it", js "of", js "on", js "or",
    js "that", js "the", js "this", js "to", js "was", js "were", js "when", js "with"]

structure SetComparison where
  score : Nat
  intersection : List JsString
  union : List JsString
  deriving DecidableEq, Repr

structure SimilarityComponents where
  text : Nat
  fix : Nat
  technology : Nat
  failureKind : Nat
  deriving DecidableEq, Repr

structure SimilarityScore where
  score : Nat
  components : SimilarityComponents
  textEvidence : SetComparison
  fixEvidence : SetComparison
  deriving DecidableEq, Repr

/-- The scored case of `ObsolescenceScore`. -/
structure ObsolescenceScore where
  score : Nat
  ageDays : Nat
  components : ObsolescenceComponents
  deriving DecidableEq, Repr

def jaccardScore (left right : List JsString) : SetComparison :=
  let leftSet := left.eraseDups
  let rightSet := right.eraseDups
  let union := unitSorted (leftSet ++ rightSet)
  let intersection :=
    (leftSet.filter fun token => decide (token ∈ rightSet)).insertionSort ByCodeUnits
  { score := if union.length = 0 then 0 else 10000 * intersection.length / union.length
    intersection
    union }

section Words

-- `value.normalize("NFKC").toLowerCase().match(/[\p{L}\p{N}]+/gu) ?? []`
variable (words : JsString → List JsString)

def tokenizeMemoryText (value : JsString) : List JsString :=
  unitSorted ((words value).filter fun token => decide (token ∉ STOPWORDS))

/-- `values.join(" ")`. -/
def spaced (values : List JsString) : JsString := List.intercalate (js " ") values

def scoreLessonSimilarity (left right : CurrentLesson) (policy : MemoryCurationPolicy) :
    SimilarityScore :=
  let textEvidence := jaccardScore
    (tokenizeMemoryText words (spaced (left.title :: left.why)))
    (tokenizeMemoryText words (spaced (right.title :: right.why)))
  let fixEvidence := jaccardScore
    (tokenizeMemoryText words (spaced left.apply))
    (tokenizeMemoryText words (spaced right.apply))
  let components : SimilarityComponents := {
    text := textEvidence.score
    fix := fixEvidence.score
    technology := if left.technology = right.technology then 10000 else 0
    failureKind := if left.failureKind = right.failureKind then 10000 else 0 }
  let weights := policy.weights
  { score := (weights.text * components.text + weights.fix * components.fix +
      weights.technology * components.technology +
      weights.failureKind * components.failureKind) / 100
    components
    textEvidence
    fixEvidence }

end Words

/-- `^\d{4}-(?:0[1-9]|1[0-2])-(?:0[1-9]|[12]\d|3[01])$`. -/
def datePattern (value : JsString) : Bool :=
  (do
    let s ← twoDigits 0 99 value
    let s ← twoDigits 0 99 s
    let s ← literal (js "-") s
    let s ← twoDigits 1 12 s
    let s ← literal (js "-") s
    twoDigits 1 31 s) == some []

def parseDate (value : JsString) : Option Int :=
  if datePattern value then
    match dateParse (value ++ js "T00:00:00Z") with
    | none => none
    | some parsed => if (toISOString parsed).take 10 = value then some parsed else none
  else none

/-- Without a score the date is `invalid_as_of`. -/
def scoreLessonObsolescence (lesson : CurrentLesson) (asOf : JsString) (dependencyPresent : Bool)
    (policy : MemoryCurationPolicy) : Option ObsolescenceScore :=
  match parseDate asOf, dateParse lesson.lastObservedAt with
  | some asOfTime, some observedTime =>
      let ageDays := (asOfTime - observedTime) / msPerDay
      if ageDays < 0 then none
      else
        let components : ObsolescenceComponents := {
          age := min 10000 (10000 * ageDays.toNat / 365)
          rarity := 10000 / lesson.observationCount
          dependencyAbsent := if dependencyPresent then 0 else 10000 }
        let weights := policy.weights
        some {
          score := (weights.age * components.age + weights.rarity * components.rarity +
            weights.dependencyAbsent * components.dependencyAbsent) / 100
          ageDays := ageDays.toNat
          components }
  | _, _ => none

/-- The sets a merge is proposed from, without their score. -/
structure ComparisonEvidence where
  intersection : List JsString
  union : List JsString
  deriving DecidableEq, Repr

def evidence (comparison : SetComparison) : ComparisonEvidence where
  intersection := comparison.intersection
  union := comparison.union

inductive ScoredKind
  | merge (components : SimilarityComponents) (textEvidence fixEvidence : ComparisonEvidence)
  | archive (components : ObsolescenceComponents)
  | delete (components : ObsolescenceComponents)
  deriving DecidableEq, Repr

/-- `MemoryCurationProposal` with all it was scored from. -/
structure ScoredProposal where
  proposalId : JsString
  kind : ScoredKind
  score : Nat
  lessonIds : List JsString
  deriving DecidableEq, Repr

/-- `MemoryCurationPlan` with all its proposals were scored from. -/
structure ScoredPlan where
  policyVersion : JsString
  asOf : JsString
  ledgerDigest : JsString
  proposals : List ScoredProposal
  planDigest : JsString
  deriving DecidableEq, Repr

def ScoredKind.isMerge : ScoredKind → Bool
  | .merge _ _ _ => true
  | _ => false

def ScoredKind.type : ScoredKind → ProposalType
  | .merge _ _ _ => .merge
  | .archive components => .archive components
  | .delete components => .delete components

/-- What the application of a plan reads of a proposal. -/
def ScoredProposal.reviewed (proposal : ScoredProposal) : MemoryCurationProposal where
  proposalId := proposal.proposalId
  type := proposal.kind.type
  score := proposal.score
  lessonIds := proposal.lessonIds

/-- What the application of a plan reads of it. -/
def ScoredPlan.reviewed (plan : ScoredPlan) : MemoryCurationPlan where
  policyVersion := plan.policyVersion
  proposals := plan.proposals.map ScoredProposal.reviewed
  planDigest := plan.planDigest

section Texts

def texts (values : List JsString) : Json := .array (values.map Json.string)

def FailureKind.text : FailureKind → JsString
  | .nonzeroExit => js "nonzero_exit"
  | .toolError => js "tool_error"
  | .timeout => js "timeout"
  | .denied => js "denied"
  | .unknown => js "unknown"

def Dependency.json : Dependency → Json
  | .none => .object [(js "kind", .string (js "none"))]
  | .path location => .object [(js "kind", .string (js "path")), (js "path", .string location)]

def SimilarityComponents.json (components : SimilarityComponents) : Json :=
  .object [(js "text", .integer components.text), (js "fix", .integer components.fix),
    (js "technology", .integer components.technology),
    (js "failureKind", .integer components.failureKind)]

def ObsolescenceComponents.json (components : ObsolescenceComponents) : Json :=
  .object [(js "age", .integer components.age), (js "rarity", .integer components.rarity),
    (js "dependencyAbsent", .integer components.dependencyAbsent)]

def ComparisonEvidence.json (comparison : ComparisonEvidence) : Json :=
  .object [(js "intersection", texts comparison.intersection), (js "union", texts comparison.union)]

def ScoredKind.text : ScoredKind → JsString
  | .merge _ _ _ => js "merge"
  | .archive _ => js "archive"
  | .delete _ => js "delete"

/-- The members of a proposal its identity is the digest of. -/
def baseMembers (kind : ScoredKind) (score : Nat) (lessonIds : List JsString) :
    List (JsString × Json) :=
  [(js "type", .string kind.text), (js "score", .integer score),
    (js "lessonIds", texts lessonIds)] ++
  match kind with
  | .merge components textEvidence fixEvidence =>
      [(js "components", components.json), (js "textEvidence", textEvidence.json),
        (js "fixEvidence", fixEvidence.json)]
  | .archive components => [(js "components", components.json)]
  | .delete components => [(js "components", components.json)]

def ScoredProposal.json (proposal : ScoredProposal) : Json :=
  .object ((js "proposalId", .string proposal.proposalId) ::
    baseMembers proposal.kind proposal.score proposal.lessonIds)

def CurrentLesson.json (lesson : CurrentLesson) : Json :=
  .object [(js "lessonId", .string lesson.lessonId), (js "title", .string lesson.title),
    (js "why", texts lesson.why), (js "apply", texts lesson.apply),
    (js "candidateIds", texts lesson.candidateIds), (js "reviewer", .string lesson.reviewer),
    (js "confirmedAt", .string lesson.confirmedAt), (js "technology", .string lesson.technology),
    (js "failureKind", .string lesson.failureKind.text), (js "dependency", lesson.dependency.json),
    (js "observationCount", .integer lesson.observationCount),
    (js "firstObservedAt", .string lesson.firstObservedAt),
    (js "lastObservedAt", .string lesson.lastObservedAt)]

def CurationEvidence.json (evidence : CurationEvidence) : Json :=
  .object [(js "policyVersion", .string evidence.policyVersion),
    (js "proposalId", .string evidence.proposalId), (js "score", .integer evidence.score),
    (js "components", evidence.components.json)]

def orNull {α : Type} (json : α → Json) : Option α → Json
  | none => .null
  | some value => json value

def TombstoneFacts.members (facts : TombstoneFacts) : List (JsString × Json) :=
  [(js "technology", .string facts.technology), (js "failureKind", .string facts.failureKind.text),
    (js "dependency", facts.dependency.json),
    (js "observationCount", .integer facts.observationCount),
    (js "firstObservedAt", .string facts.firstObservedAt),
    (js "lastObservedAt", .string facts.lastObservedAt),
    (js "curationEvidence", orNull CurationEvidence.json facts.curationEvidence)]

def CurrentTombstone.json (tombstone : CurrentTombstone) : Json :=
  .object ([(js "lessonId", .string tombstone.lessonId), (js "title", .string tombstone.title),
    (js "candidateIds", texts tombstone.candidateIds), (js "reviewer", .string tombstone.reviewer),
    (js "archivedAt", .string tombstone.archivedAt), (js "reason", .string tombstone.reason),
    (js "replacementLessonId", orNull Json.string tombstone.replacementLessonId)] ++
    (tombstone.facts.map TombstoneFacts.members).getD [])

def CuratedMemoryV1_1.json (ledger : CuratedMemoryV1_1) : Json :=
  .object [(js "contractVersion", .string (js "1.1.0")), (js "stateContract", .string (js "1.1.0")),
    (js "revision", .integer ledger.revision),
    (js "projectionDigest", .string ledger.projectionDigest),
    (js "updatedAt", .string ledger.updatedAt),
    (js "confirmed", .array (ledger.confirmed.map CurrentLesson.json)),
    (js "archive", .array (ledger.archive.map CurrentTombstone.json))]

end Texts

section Order

def ScoredKind.rank : ScoredKind → Nat
  | .merge _ _ _ => 0
  | .archive _ => 1
  | .delete _ => 2

/-- `lessonIds.join("\u0000")`. -/
def joinedIds (proposal : ScoredProposal) : JsString := List.intercalate [0] proposal.lessonIds

/-- `left` may come first under `compareProposals`. -/
def ByProposal (left right : ScoredProposal) : Prop :=
  if left.score ≠ right.score then right.score < left.score
  else if left.kind.rank ≠ right.kind.rank then left.kind.rank < right.kind.rank
  else ByCodeUnits (joinedIds left) (joinedIds right)

instance : DecidableRel ByProposal := fun left right =>
  inferInstanceAs (Decidable (if left.score ≠ right.score then right.score < left.score
    else if left.kind.rank ≠ right.kind.rank then left.kind.rank < right.kind.rank
    else ByCodeUnits (joinedIds left) (joinedIds right)))

/-- `left` may come first in the order the lessons are compared in. -/
def ByLessonUnits (left right : CurrentLesson) : Prop := ByCodeUnits left.lessonId right.lessonId

instance : DecidableRel ByLessonUnits := fun left right =>
  inferInstanceAs (Decidable (ByCodeUnits left.lessonId right.lessonId))

instance : Std.Total ByLessonUnits := ⟨fun left right => notAfter_total left.lessonId right.lessonId⟩

instance : IsTrans CurrentLesson ByLessonUnits := ⟨fun _ _ _ => notAfter_trans⟩

end Order

section Proposals

variable (words : JsString → List JsString) (digest : JsString → JsString)
  (policy : MemoryCurationPolicy) (asOf : JsString) (dependencyPresence : List (JsString × Bool))

/-- A proposal under the digest of its content. -/
def proposalOf (kind : ScoredKind) (score : Nat) (lessonIds : List JsString) : ScoredProposal where
  proposalId := digest (canonicalizeJson (.object ([(js "policyVersion", .string policy.policyVersion),
    (js "asOf", .string asOf)] ++ baseMembers kind score lessonIds)))
  kind := kind
  score := score
  lessonIds := lessonIds

def proposeMerge (pair : CurrentLesson × CurrentLesson) : Option ScoredProposal :=
  let scored := scoreLessonSimilarity words pair.1 pair.2 policy
  if scored.score < policy.similarityThreshold then none
  else
    some (proposalOf digest policy asOf
      (.merge scored.components (evidence scored.textEvidence) (evidence scored.fixEvidence))
      scored.score [pair.1.lessonId, pair.2.lessonId])

def dependencyPresent : Dependency → Bool
  | .none => true
  | .path path => (mapGet dependencyPresence path).getD false

/-- The message of the `RangeError`. -/
def precedingObservation : JsString := js "The curation date precedes a lesson observation."

/-- One round of the loop over the lessons. -/
def proposeRetirement (lesson : CurrentLesson) : Except JsString (Option ScoredProposal) :=
  match scoreLessonObsolescence lesson asOf
      (dependencyPresent dependencyPresence lesson.dependency) policy with
  | none => .error precedingObservation
  | some scored =>
      if scored.score < policy.obsolescenceThreshold then .ok none
      else
        .ok (some (proposalOf digest policy asOf
          (if lesson.observationCount = 1 then .delete scored.components
            else .archive scored.components)
          scored.score [lesson.lessonId]))

/-- The plan before its digest, as the digest reads it. -/
def planContent (ledgerDigest : JsString) (proposals : List ScoredProposal) : Json :=
  .object [(js "contractVersion", .string (js "1.4.0")), (js "hostContract", .string (js "1.4.0")),
    (js "kind", .string (js "plan")), (js "policyVersion", .string policy.policyVersion),
    (js "asOf", .string asOf), (js "ledgerDigest", .string ledgerDigest),
    (js "proposals", .array (proposals.map ScoredProposal.json))]

def proposeMemoryCuration (ledger : CuratedMemoryV1_1) : Except JsString ScoredPlan := do
  let lessons := ledger.confirmed.insertionSort ByLessonUnits
  let merges := (pairs lessons).filterMap (proposeMerge words digest policy asOf)
  let retirements ← lessons.mapM (proposeRetirement digest policy asOf dependencyPresence)
  let proposals := (merges ++ retirements.filterMap id).insertionSort ByProposal
  let ledgerDigest := digest (canonicalizeJson ledger.json)
  pure {
    policyVersion := policy.policyVersion
    asOf
    ledgerDigest
    proposals
    planDigest := digest (canonicalizeJson (planContent policy asOf ledgerDigest proposals)) }

end Proposals

end Kratos.Memory
