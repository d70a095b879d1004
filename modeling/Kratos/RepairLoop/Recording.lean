/- source: domain/cli/agent.ts, composition/workflow.ts
   digest: A decided verdict is recorded as decided: policy and reducer accept the same event. -/

import Kratos.RepairLoop.Artifact
import Kratos.Workflow.Decision
import Kratos.Workflow.RunInvariants

set_option autoImplicit false

namespace Kratos.RepairLoop

open Foundation.Text Foundation.Collections Patterns Events Workflow

/-- The candidate of one acceptance verdict over the observed run. -/
def repairLoopCandidate (state : WorkflowState) (criteria : List RepairLoopCriterion)
    (faults : List RepairLoopFault) : RepairLoopCandidate where
  attemptCeiling := state.acceptanceAttemptCeiling.getD 0
  attempts := state.attempts
  criteria
  faults

/-- What the recording of a verdict brings besides the decision: the references of the reply,
the task document, the snapshot and the verdicts, and who executed the phase. -/
structure AcceptanceRecording where
  eventId : JsString
  occurredAt : JsString
  correlationId : JsString
  identity : WorkflowIdentity
  execution : PhaseExecutionObservation
  references : List JsString
  evidenceRefs : List JsString
  deriving DecidableEq, Repr

/-- `acceptanceOperation(correlationId)`. -/
def acceptanceOperation (correlationId : JsString) : JsString :=
  acceptanceOperationHead ++ correlationId

def RepairLoopDecision.reasonCode : RepairLoopDecision → JsString
  | .passed _ => js "run.acceptance.passed"
  | .repair _ => js "run.acceptance.repair_required"
  | .stopped _ _ => js "run.stop_loss.repeated_rejection"

/-- The event of `commitAcceptance`. -/
def commitAcceptance (state : WorkflowState) (recording : AcceptanceRecording)
    (decision : RepairLoopDecision) (stopBindings : List RepairLoopStopBinding)
    (acceptanceDecision : AcceptanceDecision) : EventDraft where
  contractVersion := .v1_2
  stateContract := .v1_2
  eventId := recording.eventId
  eventType := .decision
  occurredAt := recording.occurredAt
  operation := acceptanceOperation recording.correlationId
  policyVersion := workflowPolicyVersion
  priorRevision := state.revision
  resultingRevision := state.revision + 1
  reasonCode := decision.reasonCode
  effect := .stateAndArtifact
  artifactRefs := recording.references ++ stopBindings.map (·.artifactRef)
  evidenceRefs := recording.evidenceRefs
  observedIdentity := phaseIdentity recording.identity (some recording.execution)
  gateFailures := some []
  acceptanceDecision := some acceptanceDecision
  resulting_pos := state.next_pos

private theorem canonicalAttempts_of {state : WorkflowState} {ceiling : Nat}
    {seen : List JsString} {attempts : List AcceptanceAttempt}
    (distinct : (attempts.map (·.criterionId)).Nodup)
    (fresh : ∀ attempt ∈ attempts, attempt.criterionId ∉ seen)
    (each : ∀ attempt ∈ attempts, CanonicalAttempt state ceiling attempt) :
    canonicalAttempts state ceiling seen attempts = true := by
  induction attempts generalizing seen with
  | nil => rfl
  | cons attempt rest ih =>
      obtain ⟨absent, distinct⟩ := List.nodup_cons.mp distinct
      have entry := each attempt List.mem_cons_self
      have later : canonicalAttempts state ceiling (attempt.criterionId :: seen) rest = true := by
        refine ih distinct ?_ fun other member => each other (List.mem_cons_of_mem _ member)
        intro other member inSeen
        rcases List.mem_cons.mp inSeen with same | inSeen
        · exact absent (List.mem_map.mpr ⟨other, member, same⟩)
        · exact fresh other (List.mem_cons_of_mem _ member) inSeen
      have unseen : attempt.criterionId ∉ seen := fresh attempt List.mem_cons_self
      simp only [canonicalAttempts, entry.identifier, entry.next, later, Bool.true_and,
        Bool.and_true, Bool.and_eq_true, Bool.not_eq_true', List.contains_eq_mem,
        decide_eq_false_iff_not, beq_self_eq_true, decide_eq_true_eq]
      exact ⟨unseen, by have := entry.next; have := entry.capped; omega⟩

private theorem stopsMatch_of {references : List JsString} {stops : List RepairStop}
    {attempts : List AcceptanceAttempt}
    (paired : List.Forall₂ (fun attempt stop => attempt.criterionId = stop.criterionId ∧
      attempt.attempt = stop.attempt ∧ stop.artifactRef ∈ references) attempts stops) :
    stopsMatch references stops attempts = true := by
  induction paired with
  | nil => rfl
  | cons head rest ih =>
      obtain ⟨criterion, count, reference⟩ := head
      simp [stopsMatch, criterion, count, reference, ih]

private theorem repairStopsConsistent_of {references : List JsString}
    {done rest : List AcceptanceAttempt} {trips : AcceptanceAttempt → Bool}
    {stops : List RepairStop} {seen : List JsString} {prior : Int}
    (distinct : ((done ++ rest).map (·.criterionId)).Nodup)
    (paired : List.Forall₂ (fun attempt stop => attempt.criterionId = stop.criterionId ∧
      attempt.attempt = stop.attempt ∧ stop.artifactRef ∈ references) (rest.filter trips) stops)
    (passed : ∀ criterionId ∈ seen, criterionId ∈ done.map (·.criterionId))
    (behind : prior < (done.length : Int)) :
    repairStopsConsistent (done ++ rest) references seen prior stops = true := by
  induction rest generalizing done stops seen prior with
  | nil =>
      rw [List.filter_nil, List.forall₂_nil_left_iff] at paired
      subst paired
      rfl
  | cons attempt rest ih =>
      have shifted : done ++ attempt :: rest = (done ++ [attempt]) ++ rest := by simp
      have carried : ∀ criterionId ∈ seen,
          criterionId ∈ (done ++ [attempt]).map (·.criterionId) := by
        intro criterionId member
        rw [List.map_append]
        exact List.mem_append_left _ (passed criterionId member)
      by_cases trip : trips attempt = true
      · rw [List.filter_cons_of_pos trip, List.forall₂_cons_left_iff] at paired
        obtain ⟨stop, stops, ⟨criterion, count, reference⟩, paired, rfl⟩ := paired
        have outside : ∀ other ∈ done, other.criterionId ≠ attempt.criterionId := by
          intro other member same
          rw [List.map_append, List.map_cons, List.nodup_append] at distinct
          exact distinct.2.2 _ (List.mem_map_of_mem member) _ List.mem_cons_self same
        have position : (done ++ attempt :: rest).findIdx
            (fun other => other.criterionId == stop.criterionId) = done.length := by
          rw [List.findIdx_eq (by simp)]
          refine ⟨by simp [criterion], fun index inside => ?_⟩
          have apart := outside done[index] (List.getElem_mem inside)
          rw [List.getElem_append_left inside, beq_eq_false_iff_ne, ← criterion]
          exact apart
        have recorded : mapGet ((done ++ attempt :: rest).map fun attempt =>
            (attempt.criterionId, attempt.attempt)) stop.criterionId = some stop.attempt := by
          refine mapGet_of_mem (by simpa [Function.comp_def] using distinct) ?_
          refine List.mem_map.mpr ⟨attempt, by simp, ?_⟩
          rw [criterion, count]
        have unstopped : stop.criterionId ∉ seen := by
          intro member
          obtain ⟨other, inside, same⟩ := List.mem_map.mp (passed _ member)
          exact outside other inside (same.trans criterion.symm)
        have later : repairStopsConsistent (done ++ attempt :: rest) references
            (stop.criterionId :: seen) done.length stops = true := by
          rw [shifted] at distinct ⊢
          have ahead : (done.length : Int) < ((done ++ [attempt]).length : Int) := by
            rw [List.length_append, List.length_singleton]
            omega
          refine ih distinct paired ?_ ahead
          intro criterionId member
          rcases List.mem_cons.mp member with rfl | member
          · rw [List.map_append, ← criterion]
            exact List.mem_append_right _ List.mem_cons_self
          · exact carried criterionId member
        simp only [repairStopsConsistent, position, recorded, later, List.contains_eq_mem,
          unstopped, reference, behind, decide_true, decide_false, Bool.not_false, Bool.and_true,
          beq_self_eq_true]
      · rw [List.filter_cons_of_neg trip] at paired
        rw [shifted] at distinct ⊢
        refine ih distinct paired carried ?_
        rw [List.length_append, List.length_singleton]
        omega

def recordedAttempt (attempts : List AcceptanceAttempt) (criterionId : JsString) : Option Nat :=
  mapGet (attempts.map fun attempt => (attempt.criterionId, attempt.attempt)) criterionId

def failedCriteria (criteria : List RepairLoopCriterion) : List JsString :=
  (criteria.filter fun criterion => criterion.outcome == .failed).map (·.criterionId)

/-- The ledger after a verdict: the failed criteria one further, the others as they were. -/
structure Advanced (before after : List AcceptanceAttempt) (criteria : List RepairLoopCriterion) :
    Prop where
  distinct : (after.map (·.criterionId)).Nodup
  failed : ∀ criterionId ∈ failedCriteria criteria,
    recordedAttempt after criterionId = some ((recordedAttempt before criterionId).getD 0 + 1)
  kept : ∀ criterionId ∉ failedCriteria criteria,
    recordedAttempt after criterionId = recordedAttempt before criterionId

private theorem recordedAttempt_of_mem {attempts : List AcceptanceAttempt}
    {attempt : AcceptanceAttempt} (distinct : (attempts.map (·.criterionId)).Nodup)
    (member : attempt ∈ attempts) :
    recordedAttempt attempts attempt.criterionId = some attempt.attempt := by
  apply mapGet_of_mem
  · simpa [Function.comp_def] using distinct
  · exact List.mem_map.mpr ⟨attempt, member, rfl⟩

private theorem recordedAttempt_none {attempts : List AcceptanceAttempt} {criterionId : JsString} :
    recordedAttempt attempts criterionId = none ↔ criterionId ∉ attempts.map (·.criterionId) := by
  rw [recordedAttempt, mapGet_eq_none_iff, List.map_map]
  rfl

private theorem mem_recordedAttempt {attempts : List AcceptanceAttempt} {criterionId : JsString}
    {count : Nat} (recorded : recordedAttempt attempts criterionId = some count) :
    ⟨criterionId, count⟩ ∈ attempts := by
  obtain ⟨attempt, member, same⟩ := List.mem_map.mp (mapGet_mem recorded)
  obtain ⟨rfl, rfl⟩ := Prod.mk.inj same
  exact member

theorem mem_failedCriteria {criteria : List RepairLoopCriterion} {criterionId : JsString} :
    criterionId ∈ failedCriteria criteria ↔
      ∃ criterion ∈ criteria, criterion.outcome = .failed ∧ criterion.criterionId = criterionId := by
  simp only [failedCriteria, List.mem_map, List.mem_filter, beq_iff_eq, and_assoc]

private theorem updated_iff {state : WorkflowState} {criteria : List RepairLoopCriterion}
    {faults : List RepairLoopFault} {criterionId : JsString} :
    criterionId ∈ (failedAttempts (repairLoopCandidate state criteria faults)).map (·.criterionId) ↔
      criterionId ∈ failedCriteria criteria := by
  rw [mem_failedCriteria, List.mem_map]
  constructor
  · rintro ⟨attempt, member, rfl⟩
    exact (mem_failedAttempts.mp member).1
  · intro failed
    exact ⟨⟨criterionId, priorAttempt (repairLoopCandidate state criteria faults) criterionId + 1⟩,
      mem_failedAttempts.mpr ⟨failed, rfl⟩, rfl⟩

private theorem mergeAttempts_advanced {state : WorkflowState}
    {criteria : List RepairLoopCriterion} {faults : List RepairLoopFault}
    (checked : CheckedCandidate (repairLoopCandidate state criteria faults)) :
    Advanced state.attempts
      (mergeAttempts state (failedAttempts (repairLoopCandidate state criteria faults)))
      criteria := by
  have distinct := mergeAttempts_nodup checked.attempts checked.failedAttempts_nodup
  refine ⟨distinct, ?_, ?_⟩
  · intro criterionId failed
    have update : ⟨criterionId, (recordedAttempt state.attempts criterionId).getD 0 + 1⟩ ∈
        failedAttempts (repairLoopCandidate state criteria faults) :=
      mem_failedAttempts.mpr ⟨mem_failedCriteria.mp failed, rfl⟩
    exact recordedAttempt_of_mem distinct (mem_mergeAttempts.mpr (.inl update))
  · intro criterionId unfailed
    have absent : criterionId ∉
        (failedAttempts (repairLoopCandidate state criteria faults)).map (·.criterionId) :=
      fun updated => unfailed (updated_iff.mp updated)
    cases recorded : recordedAttempt state.attempts criterionId with
    | some count =>
        have kept := mem_mergeAttempts.mpr (.inr ⟨mem_recordedAttempt recorded, absent⟩)
        exact recordedAttempt_of_mem distinct kept
    | none =>
        rw [recordedAttempt_none]
        intro member
        obtain ⟨attempt, merged, rfl⟩ := List.mem_map.mp member
        rcases mem_mergeAttempts.mp merged with updated | ⟨old, -⟩
        · exact absent (List.mem_map_of_mem updated)
        · exact recordedAttempt_none.mp recorded (List.mem_map_of_mem old)

private theorem unfailed_advanced {state : WorkflowState} {criteria : List RepairLoopCriterion}
    {faults : List RepairLoopFault}
    (checked : CheckedCandidate (repairLoopCandidate state criteria faults))
    (unfailed : failedAttempts (repairLoopCandidate state criteria faults) = []) :
    Advanced state.attempts state.attempts criteria := by
  refine ⟨checked.attempts, fun criterionId failed => ?_, fun _ _ => rfl⟩
  have updated : criterionId ∈
      (failedAttempts (repairLoopCandidate state criteria faults)).map (·.criterionId) :=
    updated_iff.mpr failed
  rw [unfailed] at updated
  cases updated

def acceptVerdict (state : WorkflowState) (event : EventDraft) (decision : AcceptanceDecision) :
    AcceptanceOutcome → WorkflowState
  | .passed => acceptPassed state event decision
  | .repair => acceptRepair state event decision
  | .stopped => acceptStopped state event decision

private theorem registryReduce_acceptance {state : WorkflowState} {event : EventDraft}
    {decision : AcceptanceDecision} {outcome : AcceptanceOutcome} {ceiling : Nat}
    (policy : event.policyVersion = workflowPolicyVersion)
    (prior : event.priorRevision = state.revision)
    (reason : event.reasonCode = acceptanceReason outcome)
    (carried : event.acceptanceDecision = some decision)
    (limit : state.acceptanceAttemptCeiling = some ceiling)
    (canonical : hasCanonicalAcceptanceDecision state event decision outcome = true) :
    registryReduce state event = .ok (acceptVerdict state event decision outcome) := by
  have distinct : workflowPolicyVersion ≠ legacyWorkflowPolicyVersion := by decide
  have decided : canonicalDecision state event outcome = .ok decision := by
    rw [canonicalDecision, carried]
    exact if_pos canonical
  have limited : state.acceptanceAttemptCeiling ≠ none := by simp [limit]
  rw [registryReduce, policy, if_neg distinct, if_pos rfl, reduceWorkflow, policy, prior,
    if_neg (by simp), reason]
  cases outcome with
  | passed =>
      rw [if_neg (by decide), if_neg (by decide), if_neg (by decide), if_neg limited,
        if_pos (by decide), decided]
      rfl
  | repair =>
      rw [if_neg (by decide), if_neg (by decide), if_neg (by decide), if_neg limited,
        if_neg (by decide), if_pos (by decide), decided]
      rfl
  | stopped =>
      rw [if_neg (by decide), if_neg (by decide), if_neg (by decide), if_neg limited,
        if_neg (by decide), if_neg (by decide), if_pos (by decide), decided]
      rfl

private theorem failedAttempts_canonical {state : WorkflowState}
    {criteria : List RepairLoopCriterion} {faults : List RepairLoopFault} {ceiling : Nat}
    (checked : CheckedCandidate (repairLoopCandidate state criteria faults))
    (limit : state.acceptanceAttemptCeiling = some ceiling) :
    canonicalAttempts state ceiling []
      (failedAttempts (repairLoopCandidate state criteria faults)) = true := by
  refine canonicalAttempts_of checked.failedAttempts_nodup (fun _ _ => List.not_mem_nil) ?_
  intro attempt member
  obtain ⟨⟨criterion, reported, -, same⟩, next⟩ := mem_failedAttempts.mp member
  have identifier := checked.identified criterion reported
  have capped := checked.failedAttempt_le member
  simp only [repairLoopCandidate, limit, Option.getD_some] at capped
  exact ⟨same ▸ identifier, next, capped⟩

private theorem boundStops_paired {candidate : RepairLoopCandidate}
    {bindings : List RepairLoopStopBinding} (references : List JsString)
    {attempts : List AcceptanceAttempt} {stops : List RepairLoopStop}
    {repairStops : List RepairStop}
    (each : List.Forall₂ (fun attempt stop => stopOf candidate attempt = .ok stop) attempts stops)
    (bound : List.Forall₂ (Bound bindings) stops repairStops) :
    List.Forall₂ (fun attempt stop => attempt.criterionId = stop.criterionId ∧
      attempt.attempt = stop.attempt ∧
      stop.artifactRef ∈ references ++ bindings.map (·.artifactRef)) attempts repairStops := by
  induction each generalizing repairStops with
  | nil =>
      cases bound
      exact .nil
  | cons stopped rest ih =>
      obtain ⟨repairStop, later, head, tail, rfl⟩ := List.forall₂_cons_left_iff.mp bound
      obtain ⟨criterion, count⟩ := stopOf_ok stopped
      refine .cons ⟨?_, ?_, List.mem_append_right _ head.reference⟩ (ih tail)
      · rw [head.criterion, criterion]
      · rw [head.attempt, count]

/-- What recording a verdict establishes: the policy and the reducer read the event as decided,
and the run's ledger advances by exactly the failed criteria. -/
structure VerdictRecorded (state : WorkflowState) (event : EventDraft)
    (metadata : AcceptanceDecision) (criteria : List RepairLoopCriterion) : Prop where
  carried : event.acceptanceDecision = some metadata
  reason : event.reasonCode = acceptanceReason metadata.outcome
  consistent : hasConsistentAcceptanceMetadata event metadata = true
  canonical : hasCanonicalAcceptanceDecision state event metadata metadata.outcome = true
  reduced : ∃ next, registryReduce state event = .ok next ∧
    Advanced state.attempts next.attempts criteria

private theorem verdictRecorded_of {state : WorkflowState} {recording : AcceptanceRecording}
    {decision : RepairLoopDecision} {bindings : List RepairLoopStopBinding}
    {metadata : AcceptanceDecision} {criteria : List RepairLoopCriterion} {ceiling : Nat}
    (step : state.currentStep = some .acceptance) (unstopped : state.activeRepairStops = [])
    (limit : state.acceptanceAttemptCeiling = some ceiling)
    (reason : decision.reasonCode = acceptanceReason metadata.outcome)
    (attempts : canonicalAttempts state ceiling [] metadata.attempts = true)
    (shape : outcomeShape (commitAcceptance state recording decision bindings metadata) metadata
      ceiling metadata.outcome = true)
    (consistent : hasConsistentAcceptanceMetadata
      (commitAcceptance state recording decision bindings metadata) metadata = true)
    (advanced : ∀ event, Advanced state.attempts
      (acceptVerdict state event metadata metadata.outcome).attempts criteria) :
    VerdictRecorded state (commitAcceptance state recording decision bindings metadata) metadata
      criteria := by
  have canonical : hasCanonicalAcceptanceDecision state
      (commitAcceptance state recording decision bindings metadata) metadata metadata.outcome =
        true := by
    simp only [hasCanonicalAcceptanceDecision, limit, step, unstopped, attempts, shape,
      beq_self_eq_true, List.isEmpty_nil, Bool.and_true]
  have reduced := registryReduce_acceptance rfl rfl reason rfl limit canonical
  exact ⟨rfl, reason, consistent, canonical, _, reduced, advanced _⟩

private theorem commitAcceptance_policy {state : WorkflowState} {recording : AcceptanceRecording}
    {decision : RepairLoopDecision} {bindings : List RepairLoopStopBinding}
    {metadata : AcceptanceDecision} {criteria : List RepairLoopCriterion}
    (recorded : VerdictRecorded state
      (commitAcceptance state recording decision bindings metadata) metadata criteria)
    (correlated : idPattern recording.correlationId = true) :
    assertEventSemanticPolicy
      (commitAcceptance state recording decision bindings metadata) = .ok () := by
  have later : (commitAcceptance state recording decision bindings metadata).stateContract ≠
      .v1_0 := by
    simp [commitAcceptance]
  have unlocked : startsWith (acceptanceOperation recording.correlationId) (js "lock.") = false :=
    startsWith_append_of_disjoint (by decide) (by decide) _
  have operation : operationPattern acceptanceOperationHead
      (acceptanceOperation recording.correlationId) = true := by
    rw [acceptanceOperation, operationPattern_append]
    exact correlated
  rw [assertEventSemanticPolicy_ok_iff later]
  refine ⟨rfl, by simp [gateFailuresValid, commitAcceptance], ?_⟩
  have reason : decision.reasonCode = acceptanceReason metadata.outcome := recorded.reason
  have consistent := recorded.consistent
  simp only [operationPolicyValid, commitAcceptance, unlocked, operation, if_true,
    Bool.false_eq_true, if_false]
  simp only [commitAcceptance, reason, workflowPolicyVersion] at consistent
  simp only [acceptancePolicyValid, isWorkflowContract, hasAssignment, hasRunLimits,
    hasRepairResolution, hasStartedFromSpec, isCurrentContract, reason, workflowPolicyVersion,
    consistent, beq_self_eq_true]
  rfl

private theorem limit_of_positive {state : WorkflowState} {criteria : List RepairLoopCriterion}
    {faults : List RepairLoopFault}
    (positive : 0 < (repairLoopCandidate state criteria faults).attemptCeiling) :
    ∃ ceiling, state.acceptanceAttemptCeiling = some ceiling := by
  cases limit : state.acceptanceAttemptCeiling with
  | some ceiling => exact ⟨ceiling, rfl⟩
  | none =>
      simp only [repairLoopCandidate, limit, Option.getD_none] at positive
      omega

private theorem trippingAttempts_eq {state : WorkflowState} {criteria : List RepairLoopCriterion}
    {faults : List RepairLoopFault} {ceiling : Nat} (outcome : AcceptanceOutcome)
    (stops : List RepairStop)
    (checked : CheckedCandidate (repairLoopCandidate state criteria faults))
    (limit : state.acceptanceAttemptCeiling = some ceiling) :
    trippingAttempts
        ⟨outcome, failedAttempts (repairLoopCandidate state criteria faults), stops⟩ ceiling =
      tripping (repairLoopCandidate state criteria faults) := by
  rw [checked.tripping_eq, trippingAttempts]
  simp only [repairLoopCandidate, limit, Option.getD_some]

/-- Every verdict the repair loop decides over a run in acceptance without an active stop is
recorded as decided, whatever documents it and whatever stands beside its stops. -/
theorem acceptance_decision_agreement (state : WorkflowState) (recording : AcceptanceRecording)
    (criteria : List RepairLoopCriterion) (faults : List RepairLoopFault)
    (decision : RepairLoopDecision) (bindings : List RepairLoopStopBinding)
    (metadata : AcceptanceDecision) (step : state.currentStep = some .acceptance)
    (unstopped : state.activeRepairStops = [])
    (decided : decideRepairLoop (repairLoopCandidate state criteria faults) = .ok decision)
    (built : buildAcceptanceDecisionMetadata decision bindings = .ok metadata) :
    VerdictRecorded state (commitAcceptance state recording decision bindings metadata) metadata
        criteria ∧
      (idPattern recording.correlationId = true →
        assertEventSemanticPolicy
          (commitAcceptance state recording decision bindings metadata) = .ok ()) := by
  obtain ⟨checked, settled⟩ := decideRepairLoop_ok decided
  obtain ⟨ceiling, limit⟩ := limit_of_positive checked.positive
  have recorded : VerdictRecorded state
      (commitAcceptance state recording decision bindings metadata) metadata criteria := by
    cases settle_ok settled with
    | passed unfailed =>
        obtain ⟨⟩ := buildAcceptanceDecisionMetadata_ok built
        exact verdictRecorded_of step unstopped limit rfl rfl rfl rfl
          fun event => unfailed_advanced checked unfailed
    | repair failed below =>
        obtain ⟨⟩ := buildAcceptanceDecisionMetadata_ok built
        refine verdictRecorded_of step unstopped limit rfl
          (failedAttempts_canonical checked limit) ?_ ?_ fun event => mergeAttempts_advanced checked
        · have none := trippingAttempts_eq .repair [] checked limit
          simp only [outcomeShape, none, below, List.isEmpty_nil, Bool.and_true,
            Bool.not_eq_true', List.isEmpty_eq_false_iff]
          exact failed
        · have distinct := checked.failedAttempts_nodup
          simp only [hasConsistentAcceptanceMetadata, distinct, decide_true, Bool.true_and,
            repairStopsConsistent, List.isEmpty_nil, Bool.and_true, Bool.not_eq_true',
            List.isEmpty_eq_false_iff]
          exact failed
    | stopped tripped each =>
        rename_i stops
        obtain ⟨⟩ := buildAcceptanceDecisionMetadata_ok built
        rename_i repairStops bound
        have paired := boundStops_paired recording.references each bound
        have failed : failedAttempts (repairLoopCandidate state criteria faults) ≠ [] := by
          intro none
          exact tripped (by rw [tripping, none, List.filter_nil])
        refine verdictRecorded_of step unstopped limit rfl
          (failedAttempts_canonical checked limit) ?_ ?_ fun event => mergeAttempts_advanced checked
        · have trips := trippingAttempts_eq .stopped repairStops checked limit
          have matched := stopsMatch_of paired
          have sameLength := paired.length_eq
          simp only [outcomeShape, trips, commitAcceptance, matched, sameLength, beq_self_eq_true,
            Bool.and_true, Bool.and_eq_true, Bool.not_eq_true', List.isEmpty_eq_false_iff]
          exact ⟨failed, tripped⟩
        · have distinct := checked.failedAttempts_nodup
          have stopped : repairStops ≠ [] := by
            rintro rfl
            exact tripped (List.forall₂_nil_right_iff.mp paired)
          have ordered : repairStopsConsistent
              ([] ++ failedAttempts (repairLoopCandidate state criteria faults))
              (recording.references ++ bindings.map (·.artifactRef)) [] (-1) repairStops = true :=
            repairStopsConsistent_of (by simpa using distinct) paired (by simp) (by simp)
          rw [List.nil_append] at ordered
          simp only [hasConsistentAcceptanceMetadata, commitAcceptance, distinct, ordered,
            decide_true, Bool.true_and, Bool.and_true, Bool.not_eq_true',
            List.isEmpty_eq_false_iff]
          exact stopped
  exact ⟨recorded, commitAcceptance_policy recorded⟩

/-- A run in acceptance of ceiling two that rejected its first criterion once. -/
def rejectedOnce : WorkflowState :=
  { workflowSeed sampleConfiguration with
    status := .active
    currentStep := some .acceptance
    revision := 9
    policyVersion := some workflowPolicyVersion
    acceptanceAttemptCeiling := some 2
    attempts := [⟨js "AC-1.1.1", 1⟩] }

/-- A repeated rejection, a first one and a criterion that passed. -/
def mixedVerdict : List RepairLoopCriterion :=
  [⟨js "AC-1.1.2", .failed⟩, ⟨js "AC-1.1.1", .failed⟩, ⟨js "AC-1.1.3", .passed⟩]

def sampleFault : RepairLoopFault := ⟨js "AC-1.1.1", .code, js "broken"⟩

def sampleRecording : AcceptanceRecording :=
  ⟨js "e", js "2026-01-01T00:00:00Z", js "c", ⟨js "claude", none⟩,
    ⟨sampleDigest, none, none, .unknown⟩, [js "reply.json", js "tasks.md"], [js "evidence.json"]⟩

def sampleBinding : RepairLoopStopBinding := ⟨js "AC-1.1.1", js "stop.json", sampleDigest⟩

theorem mixed_verdict_recorded :
    VerdictRecorded rejectedOnce
        (commitAcceptance rejectedOnce sampleRecording
          (.stopped [⟨js "AC-1.1.2", 1⟩, ⟨js "AC-1.1.1", 2⟩] [⟨sampleFault, 2⟩]) [sampleBinding]
          ⟨.stopped, [⟨js "AC-1.1.2", 1⟩, ⟨js "AC-1.1.1", 2⟩],
            [⟨js "AC-1.1.1", 2, .code, js "stop.json", sampleDigest⟩]⟩)
        ⟨.stopped, [⟨js "AC-1.1.2", 1⟩, ⟨js "AC-1.1.1", 2⟩],
          [⟨js "AC-1.1.1", 2, .code, js "stop.json", sampleDigest⟩]⟩
        mixedVerdict ∧
      (idPattern sampleRecording.correlationId = true →
        assertEventSemanticPolicy (commitAcceptance rejectedOnce sampleRecording
          (.stopped [⟨js "AC-1.1.2", 1⟩, ⟨js "AC-1.1.1", 2⟩] [⟨sampleFault, 2⟩]) [sampleBinding]
          ⟨.stopped, [⟨js "AC-1.1.2", 1⟩, ⟨js "AC-1.1.1", 2⟩],
            [⟨js "AC-1.1.1", 2, .code, js "stop.json", sampleDigest⟩]⟩) = .ok ()) :=
  acceptance_decision_agreement rejectedOnce sampleRecording mixedVerdict [sampleFault] _
    [sampleBinding] _ rfl rfl (by decide +kernel) (by decide +kernel)

end Kratos.RepairLoop
