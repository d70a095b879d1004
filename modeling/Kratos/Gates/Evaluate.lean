/- source: domain/gates/evaluate.ts, domain/gates/model.ts
   digest: The ordered evaluation of every gate over one context. -/

import Kratos.Gates.Policy
import Kratos.Vocabulary

set_option autoImplicit false

namespace Kratos.Gates

open Foundation.Text

inductive PrdDocumentObservation
  | missing
  | untouched
  | incomplete (missingSection : JsString)
  | complete
  deriving DecidableEq, Repr

inductive ApprovalDecision
  | approved | rejected
  deriving DecidableEq, Repr

/-- The fields of an approval that gates read. -/
structure Approval where
  gate : JsString
  decision : ApprovalDecision
  prdDigest : JsString
  specDigest : JsString
  deriving DecidableEq, Repr

inductive Enforcement
  | advisory | off
  deriving DecidableEq, Repr

structure LanguagePolicy where
  conversation : JsString
  documentation : JsString
  comments : JsString
  identifiers : JsString
  commits : JsString
  enforcement : Enforcement
  deriving DecidableEq, Repr

inductive ArtifactType
  | conversation | documentation | comments | identifiers | commits
  deriving DecidableEq, Repr

structure LanguageObservationMetadata where
  artifactRef : Option JsString
  artifactType : Option ArtifactType
  observedLanguage : Option JsString
  expectedLanguage : Option JsString
  mismatch : Option Bool
  detail : Option JsString
  deriving DecidableEq, Repr

structure GateAdvisory where
  gateId : Option GateId
  reasonCode : JsString
  evidenceRefs : List JsString
  detail : Option JsString
  deriving DecidableEq, Repr

structure RepeatedRejectionGateState where
  criterionId : JsString
  attempt : Nat
  classification : Classification
  artifactRef : JsString
  deriving DecidableEq, Repr

inductive CriterionState
  | passed | failed | notRun | unreported
  deriving DecidableEq, Repr

structure AcceptanceCriterionGateState where
  criterionId : JsString
  state : CriterionState
  checked : Bool
  evidenceValid : Bool
  deriving DecidableEq, Repr

structure StopLoss where
  tripped : Bool
  exhausted : Bool
  repeatedRejections : List RepeatedRejectionGateState
  deriving DecidableEq, Repr

structure GateContext where
  gateModes : GateModes
  phase : RunPhase
  contextReadable : Bool
  stopLoss : StopLoss
  prdDigest : Option JsString
  prdDocument : PrdDocumentObservation
  specDigest : Option JsString
  approvals : List Approval
  openGaps : Nat
  partitionRequired : Bool
  partitionApproved : Bool
  finalAcceptance : Bool
  acceptanceCriteria : List AcceptanceCriterionGateState
  languagePolicy : Option LanguagePolicy
  languageObservations : List LanguageObservationMetadata
  languageMismatch : Bool

structure GateDecision where
  outcome : GateOutcome
  primary : Option GateFailure
  failures : List GateFailure
  gateModes : GateModes
  advisories : List GateAdvisory
  criteria : List AcceptanceCriterionGateState

/-- `failure(gateId, reasonCode, context, evidenceRefs, detail)`. -/
def failure (gateId : GateId) (reasonCode : GateFailureReason) (context : GateContext)
    (evidenceRefs : List JsString) (detail : Option JsString) : GateFailure :=
  { gateId, reasonCode, priority := gatePriorities gateId, mode := context.gateModes gateId,
    evidenceRefs, detail }

def approved (approvals : List Approval) (gate : JsString) (context : GateContext) : Bool :=
  approvals.any fun approval =>
    approval.gate == gate && approval.decision == .approved &&
      some approval.prdDigest == context.prdDigest &&
      some approval.specDigest == context.specDigest

def expectedLanguageForArtifactType (policy : Option LanguagePolicy)
    (artifactType : Option ArtifactType) : Option JsString :=
  match policy, artifactType with
  | some policy, some .conversation => some policy.conversation
  | some policy, some .documentation => some policy.documentation
  | some policy, some .comments => some policy.comments
  | some policy, some .identifiers => some policy.identifiers
  | some policy, some .commits => some policy.commits
  | _, _ => none

def contextReadableFailures (context : GateContext) : List GateFailure :=
  if context.contextReadable then []
  else [failure .contextReadable .contextUnreadable context [js ".brain/config.json"] none]

/-- One failure for each stop, then the budget and the flag: all of them under one gate. -/
def stopLossFailures (context : GateContext) : List GateFailure :=
  context.stopLoss.repeatedRejections.map (fun stop =>
    failure .stopLoss .stopLossRejections context [stop.artifactRef]
      (some (js "Acceptance criterion " ++ stop.criterionId ++ js " stopped at attempt " ++
        decimal stop.attempt ++ js " with classification " ++ stop.classification.text ++
        js "."))) ++
  (if context.stopLoss.exhausted then
    [failure .stopLoss .stopLossBudget context [js ".brain/03-memory/task_metrics.md"] none]
  else []) ++
  (if context.stopLoss.tripped then
    [failure .stopLoss .stopLossFlag context [js ".brain/03-memory/task_metrics.md"] none]
  else [])

def prdFailures (context : GateContext) : List GateFailure :=
  match context.prdDocument with
  | .missing =>
      [failure .prdPresent .prdAusente context [js ".brain/02-features/active"] none]
  | .untouched =>
      [failure .prdPresent .prdUntouched context [js ".brain/02-features/active"] none]
  | .incomplete missingSection =>
      [failure .prdPresent .prdSectionMissing context [js ".brain/02-features/active"]
        (some (js "Missing required section: " ++ missingSection))]
  | .complete => []

def specFailures (context : GateContext) : List GateFailure :=
  if [RunPhase.plan, .code, .review, .acceptance].contains context.phase &&
      !approved context.approvals (js "spec") context then
    [failure .specApproved .aprovacaoSpec context [js ".brain/approvals"] none]
  else []

def gapFailures (context : GateContext) : List GateFailure :=
  if context.openGaps > 0 then
    [failure .gapsClosed .gapsAbertos context [js ".brain/02-features/active"] none]
  else []

def partitionFailures (context : GateContext) : List GateFailure :=
  if context.partitionRequired && !context.partitionApproved then
    [failure .partitionApproved .particionamento context [js ".brain/approvals"] none]
  else []

def AcceptanceCriterionGateState.incomplete (criterion : AcceptanceCriterionGateState) : Bool :=
  criterion.state != .passed || !criterion.checked || !criterion.evidenceValid

def criteriaFailures (context : GateContext) : List GateFailure :=
  match context.acceptanceCriteria.find? (·.incomplete) with
  | some incomplete =>
      if context.phase = .acceptance then
        [failure .acceptanceCriteria .acIncomplete context [js ".brain/02-features/active"]
          (some (js "Acceptance criterion " ++ incomplete.criterionId ++ js " is incomplete."))]
      else []
  | none => []

def finalAcceptanceFailures (context : GateContext) : List GateFailure :=
  if context.phase = .acceptance && !context.finalAcceptance then
    [failure .finalAcceptance .aceitacaoFinal context [js ".brain/approvals"] none]
  else []

/-- The failures in the order the evaluator pushes them. -/
def gateFailures (context : GateContext) : List GateFailure :=
  contextReadableFailures context ++ stopLossFailures context ++ prdFailures context ++
    specFailures context ++ gapFailures context ++ partitionFailures context ++
    criteriaFailures context ++ finalAcceptanceFailures context

def languageReason : JsString := js "policy.language_convention_mismatch_advisory"

def observationAdvisories (context : GateContext) (obs : LanguageObservationMetadata) :
    List GateAdvisory :=
  let expectedLanguage := obs.expectedLanguage <|>
    expectedLanguageForArtifactType context.languagePolicy obs.artifactType
  let isMismatch := obs.mismatch == some true ||
    (obs.observedLanguage.isSome && expectedLanguage.isSome &&
      obs.observedLanguage != expectedLanguage)
  let artifact := obs.artifactRef.getD (js "artifact")
  -- An empty language is falsy in the template's condition, unlike in the mismatch test.
  let detail := obs.detail.getD (match obs.observedLanguage, expectedLanguage with
    | some (o :: observed), some (e :: expected) =>
        js "Language divergence detected: expected '" ++ (e :: expected) ++ js "', observed '" ++
          (o :: observed) ++ js "' in " ++ artifact ++ js "."
    | _, _ => js "Language divergence detected in " ++ artifact ++ js ".")
  if isMismatch then
    [{ gateId := none, reasonCode := languageReason
       evidenceRefs := [obs.artifactRef.getD (js ".brain/02-features/active")]
       detail := some detail }]
  else []

def languageAdvisories (context : GateContext) : List GateAdvisory :=
  if (context.languagePolicy.map (·.enforcement)).getD .advisory = .off then []
  else
    (if context.languageMismatch then
      [{ gateId := none, reasonCode := languageReason
         evidenceRefs := [js ".brain/02-features/active"]
         detail := some (js "Artifact language differs from declared language policy.") }]
    else []) ++
    context.languageObservations.flatMap (observationAdvisories context)

def evaluateGates (context : GateContext) : GateDecision :=
  let aggregate := aggregateGateFailures (gateFailures context)
  { outcome := aggregate.outcome
    primary := aggregate.primary
    failures := aggregate.failures
    gateModes := context.gateModes
    advisories := languageAdvisories context
    criteria := context.acceptanceCriteria }

/-- A failure as the policy catalog prescribes it: its gate's own priority, one of its gate's
own reason codes and the mode in force. -/
structure Canonical (modes : GateModes) (entry : GateFailure) : Prop where
  priority : entry.priority = gatePriorities entry.gateId
  reason : entry.reasonCode ∈ gateReasonCodes entry.gateId
  mode : entry.mode = modes entry.gateId

private theorem failure_canonical {gateId : GateId} {reasonCode : GateFailureReason}
    (context : GateContext) (evidenceRefs : List JsString) (detail : Option JsString)
    (known : reasonCode ∈ gateReasonCodes gateId) :
    Canonical context.gateModes (failure gateId reasonCode context evidenceRefs detail) :=
  ⟨rfl, known, rfl⟩

private theorem stopLoss_entry {context : GateContext} {entry : GateFailure}
    (member : entry ∈ stopLossFailures context) :
    Canonical context.gateModes entry ∧ entry.gateId = .stopLoss ∧
      entry.evidenceRefs.length = 1 := by
  simp only [stopLossFailures, List.mem_append, List.mem_map] at member
  rcases member with (⟨stop, -, rfl⟩ | budget) | flag
  · exact ⟨failure_canonical context _ _ (by decide), rfl, rfl⟩
  · split at budget
    · obtain rfl := List.mem_singleton.mp budget
      exact ⟨failure_canonical context _ _ (by decide), rfl, rfl⟩
    · simp at budget
  · split at flag
    · obtain rfl := List.mem_singleton.mp flag
      exact ⟨failure_canonical context _ _ (by decide), rfl, rfl⟩
    · simp at flag

private theorem stopLoss_gateIds (context : GateContext) :
    (stopLossFailures context).map (·.gateId) =
      List.replicate (stopLossFailures context).length .stopLoss := by
  rw [List.eq_replicate_iff]
  refine ⟨List.length_map _, fun gate member => ?_⟩
  obtain ⟨entry, entryMember, rfl⟩ := List.mem_map.mp member
  exact (stopLoss_entry entryMember).2.1

/-- Every gate but stop-loss contributes at most one failure, and a canonical one. -/
structure SingleGate (context : GateContext) (gateId : GateId) (entries : List GateFailure) :
    Prop where
  ids : (entries.map (·.gateId)).Sublist [gateId]
  canonical : ∀ entry ∈ entries, Canonical context.gateModes entry
  evidence : ∀ entry ∈ entries, entry.evidenceRefs.length = 1

private theorem singleGate_nil (context : GateContext) (gateId : GateId) :
    SingleGate context gateId [] :=
  ⟨by simp, by simp, by simp⟩

private theorem singleGate_failure {gateId : GateId} {reasonCode : GateFailureReason}
    (context : GateContext) (reference : JsString) (detail : Option JsString)
    (known : reasonCode ∈ gateReasonCodes gateId) :
    SingleGate context gateId [failure gateId reasonCode context [reference] detail] := by
  refine ⟨by simp [failure], fun entry member => ?_, fun entry member => ?_⟩
  · obtain rfl := List.mem_singleton.mp member
    exact failure_canonical context _ _ known
  · obtain rfl := List.mem_singleton.mp member
    rfl

private theorem contextReadable_single (context : GateContext) :
    SingleGate context .contextReadable (contextReadableFailures context) := by
  unfold contextReadableFailures
  split
  · exact singleGate_nil context _
  · exact singleGate_failure context _ _ (by decide)

private theorem prd_single (context : GateContext) :
    SingleGate context .prdPresent (prdFailures context) := by
  unfold prdFailures
  cases context.prdDocument with
  | missing => exact singleGate_failure context _ _ (by decide)
  | untouched => exact singleGate_failure context _ _ (by decide)
  | incomplete _ => exact singleGate_failure context _ _ (by decide)
  | complete => exact singleGate_nil context _

private theorem spec_single (context : GateContext) :
    SingleGate context .specApproved (specFailures context) := by
  unfold specFailures
  split
  · exact singleGate_failure context _ _ (by decide)
  · exact singleGate_nil context _

private theorem gap_single (context : GateContext) :
    SingleGate context .gapsClosed (gapFailures context) := by
  unfold gapFailures
  split
  · exact singleGate_failure context _ _ (by decide)
  · exact singleGate_nil context _

private theorem partition_single (context : GateContext) :
    SingleGate context .partitionApproved (partitionFailures context) := by
  unfold partitionFailures
  split
  · exact singleGate_failure context _ _ (by decide)
  · exact singleGate_nil context _

private theorem criteria_single (context : GateContext) :
    SingleGate context .acceptanceCriteria (criteriaFailures context) := by
  unfold criteriaFailures
  split
  · split
    · exact singleGate_failure context _ _ (by decide)
    · exact singleGate_nil context _
  · exact singleGate_nil context _

private theorem finalAcceptance_single (context : GateContext) :
    SingleGate context .finalAcceptance (finalAcceptanceFailures context) := by
  unfold finalAcceptanceFailures
  split
  · exact singleGate_failure context _ _ (by decide)
  · exact singleGate_nil context _

/-- With at most one stop-loss failure the failing gates are a sublist of the catalog. -/
theorem gateFailures_sublist (context : GateContext)
    (few : (stopLossFailures context).length ≤ 1) :
    ((gateFailures context).map (·.gateId)).Sublist gateIds := by
  have stopLoss : ((stopLossFailures context).map (·.gateId)).Sublist [GateId.stopLoss] := by
    rw [stopLoss_gateIds]
    exact List.replicate_sublist_iff.mpr (by simpa using few)
  simp only [gateFailures, List.map_append]
  exact ((((((contextReadable_single context).ids.append stopLoss).append
    (prd_single context).ids).append (spec_single context).ids).append
    (gap_single context).ids).append (partition_single context).ids).append
    (criteria_single context).ids |>.append (finalAcceptance_single context).ids

/-- The failing gates are distinct exactly when stop-loss fails at most once. -/
theorem gateFailures_nodup_iff (context : GateContext) :
    ((gateFailures context).map (·.gateId)).Nodup ↔ (stopLossFailures context).length ≤ 1 := by
  constructor
  · intro distinct
    have part : ((stopLossFailures context).map (·.gateId)).Sublist
        ((gateFailures context).map (·.gateId)) := by
      refine List.Sublist.map _ ?_
      simp only [gateFailures, List.append_assoc]
      exact (List.sublist_append_left _ _).trans (List.sublist_append_right _ _)
    have replicated := distinct.sublist part
    rw [stopLoss_gateIds, List.nodup_replicate] at replicated
    exact replicated
  · intro few
    exact (by decide : gateIds.Nodup).sublist (gateFailures_sublist context few)

theorem gateFailures_canonical (context : GateContext) {entry : GateFailure}
    (member : entry ∈ gateFailures context) :
    Canonical context.gateModes entry ∧ entry.evidenceRefs.length = 1 := by
  simp only [gateFailures, List.mem_append] at member
  rcases member with ((((((member | member) | member) | member) | member) | member) | member) |
    member
  · exact ⟨(contextReadable_single context).canonical _ member,
      (contextReadable_single context).evidence _ member⟩
  · exact ⟨(stopLoss_entry member).1, (stopLoss_entry member).2.2⟩
  · exact ⟨(prd_single context).canonical _ member, (prd_single context).evidence _ member⟩
  · exact ⟨(spec_single context).canonical _ member, (spec_single context).evidence _ member⟩
  · exact ⟨(gap_single context).canonical _ member, (gap_single context).evidence _ member⟩
  · exact ⟨(partition_single context).canonical _ member,
      (partition_single context).evidence _ member⟩
  · exact ⟨(criteria_single context).canonical _ member,
      (criteria_single context).evidence _ member⟩
  · exact ⟨(finalAcceptance_single context).canonical _ member,
      (finalAcceptance_single context).evidence _ member⟩

theorem evaluateGates_perm (context : GateContext) :
    (evaluateGates context).failures.Perm (gateFailures context) :=
  sortGateFailures_perm _

/-- The number of stop-loss failures: one for each repeated rejection, one for an exhausted
budget and one for a tripped flag. -/
theorem stopLossFailures_length (context : GateContext) :
    (stopLossFailures context).length =
      context.stopLoss.repeatedRejections.length +
        (if context.stopLoss.exhausted then 1 else 0) +
        (if context.stopLoss.tripped then 1 else 0) := by
  simp only [stopLossFailures, List.length_append, List.length_map]
  split_ifs <;> rfl

/-- The evaluated failures name distinct gates exactly when stop-loss fails at most once. -/
theorem evaluateGates_distinct_iff (context : GateContext) :
    ((evaluateGates context).failures.map (·.gateId)).Nodup ↔
      (stopLossFailures context).length ≤ 1 := by
  rw [((evaluateGates_perm context).map _).nodup_iff, gateFailures_nodup_iff]

end Kratos.Gates
