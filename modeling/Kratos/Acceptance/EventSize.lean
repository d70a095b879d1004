/- source: domain/cli/agent.ts, domain/events/redaction.ts
   digest: The references of an acceptance event and the bytes of its line, from what it records. -/

import Kratos.Acceptance.EventLine
import Kratos.Foundation.Sha256
import Mathlib.Data.List.Dedup

set_option autoImplicit false

namespace Kratos.Acceptance

open Foundation Foundation.Text Foundation.Lines Foundation.Collections
open Foundation.Runs Patterns Schema Events RepairLoop Workflow
open Locks (plain_id plain_sha256 plain_append sha256_length)

section Drafting

variable (sha256 : JsString → JsString) (observation : AcceptanceObservation)

/-- How many criteria the task document declares. -/
def AcceptanceObservation.declaredCount : Nat :=
  match observation.document with
  | .valid declarations => declarations.length
  | _ => 0

/-- The event writes a snapshot: none is recorded, or the document declares more than it. -/
def AcceptanceObservation.snapshotWritten : Bool :=
  match observation.snapshot with
  | none => true
  | some recorded => decide (recorded.declarations.length < observation.declaredCount)

/-- The bindings of the stops of a decision. -/
def decidedBindings (decision : RepairLoopDecision) : List RepairLoopStopBinding :=
  (decidedStops decision).map fun stop => stopBinding (prepareStop sha256 observation stop)

/-- What `commitAcceptance` is handed for bound verdicts under a snapshot. -/
def recordingOf (host : JsString) (execution : PhaseExecutionObservation)
    (decision : RepairLoopDecision) (snapshot : ObservedSnapshot)
    (bound : List BoundCriterionVerdict) : AcceptanceRecording where
  eventId := observation.eventId
  occurredAt := observation.occurredAt
  correlationId := observation.correlationId
  identity := ⟨host, none⟩
  execution
  references := recordedReferences observation (isStopped decision) observation.snapshotWritten
    snapshot (bound.map (prepareVerdict sha256 observation snapshot))
  evidenceRefs := distinct (bound.map (·.evidenceRef))

/-- A snapshot the event writes itself lies under its own identifier. -/
def WrittenAs (snapshot : ObservedSnapshot) : Prop :=
  observation.snapshotWritten = true →
    snapshot.ref = observation.criteriaRef ∧ ∃ text, snapshot.digest = sha256 text

/-- An event drafted for an accepted verdict over a run in its acceptance phase. -/
inductive Drafted : EventDraft → Prop
  | intro {declarations : List AcceptanceCriterionDeclaration} {state : WorkflowState}
      {host : JsString} {execution : PhaseExecutionObservation}
      {bound : List BoundCriterionVerdict} {outcomes : Outcomes} {decision : RepairLoopDecision}
      {snapshot : ObservedSnapshot} {metadata : AcceptanceDecision}
      (document : observation.document = .valid declarations)
      (workflow : observation.workflow = some state) (hosted : observation.host = some host)
      (executed : observation.phaseExecution = some execution)
      (accepted : decideObserved sha256 observation = .accepted bound outcomes)
      (decided : loopDecision observation bound = .ok decision)
      (written : WrittenAs sha256 observation snapshot)
      (built : buildAcceptanceDecisionMetadata decision
        (decidedBindings sha256 observation decision) = .ok metadata) :
      Drafted (commitAcceptance state
        (recordingOf sha256 observation host execution decision snapshot bound) decision
        (decidedBindings sha256 observation decision) metadata)

variable {sha256 observation}

private theorem declared_length {declarations : List AcceptanceCriterionDeclaration}
    (document : observation.document = .valid declarations) :
    (observation.currentDeclarations sha256).length = observation.declaredCount := by
  unfold AcceptanceObservation.currentDeclarations AcceptanceObservation.declaredCount
  rw [document]
  exact List.length_map ..

private theorem append_iff {recorded : ObservedSnapshot}
    {declarations : List AcceptanceCriterionDeclaration}
    (document : observation.document = .valid declarations)
    (kept : (changeAgainst sha256 observation recorded).isRefused = false) :
    (changeAgainst sha256 observation recorded).isAppend =
      decide (recorded.declarations.length < observation.declaredCount) := by
  have length : (observation.currentDeclarations sha256).length = observation.declaredCount :=
    declared_length document
  have whole : (declared (observation.currentDeclarations sha256)).length =
      observation.declaredCount := by rw [declared, List.length_map, length]
  cases change : changeAgainst sha256 observation recorded with
  | refused reasonCode criterionId =>
      rw [change] at kept
      cases kept
  | unchanged =>
      obtain ⟨same, -⟩ := compare_unchanged_iff.mp change
      have short : ¬ recorded.declarations.length < observation.declaredCount := by
        rw [same, whole]
        exact Nat.lt_irrefl _
      exact (decide_eq_false short).symm
  | append ids =>
      obtain ⟨-, kept, longer, -⟩ := compare_append_iff.mp change
      refine (decide_eq_true ?_).symm
      rw [← whole]
      refine Nat.lt_of_le_of_ne kept.length_le fun same => longer ?_
      exact kept.eq_of_length same

private theorem needs_write {baseline : ObservedSnapshot}
    {declarations : List AcceptanceCriterionDeclaration}
    (document : observation.document = .valid declarations)
    (based : baselineSnapshot sha256 observation = some baseline)
    (kept : (changeAgainst sha256 observation baseline).isRefused = false) :
    ((changeAgainst sha256 observation baseline).isAppend || observation.snapshot.isNone) =
      observation.snapshotWritten := by
  unfold AcceptanceObservation.snapshotWritten
  cases recorded : observation.snapshot with
  | none => exact Bool.or_true _
  | some snapshot =>
      have same : baseline = snapshot := by
        rw [baselineSnapshot, recorded, Option.some_or] at based
        exact (Option.some.inj based).symm
      subst same
      rw [Option.isNone_some, Bool.or_false]
      exact append_iff document kept

private theorem written_as {baseline snapshot : ObservedSnapshot}
    {declarations : List AcceptanceCriterionDeclaration}
    (document : observation.document = .valid declarations)
    (based : baselineSnapshot sha256 observation = some baseline)
    (kept : (changeAgainst sha256 observation baseline).isRefused = false)
    (selected : selectedSnapshot sha256 observation baseline = some snapshot) :
    WrittenAs sha256 observation snapshot := by
  intro written
  have prepared : ∀ previous, (preparedSnapshot sha256 observation previous).ref =
      observation.criteriaRef ∧
      ∃ text, (preparedSnapshot sha256 observation previous).digest = sha256 text :=
    fun previous => ⟨rfl, _, rfl⟩
  unfold selectedSnapshot at selected
  split at selected
  · unfold appendSnapshot at selected
    split at selected
    · cases selected
    · split at selected
      · obtain rfl := Option.some.inj selected
        exact prepared _
      · cases selected
  · next same =>
      obtain rfl := Option.some.inj selected
      rw [← needs_write document based kept, Bool.eq_false_iff.mpr same, Bool.false_or,
        Option.isNone_iff_eq_none] at written
      rw [baselineSnapshot, written, Option.none_or] at based
      unfold bootstrapSnapshot at based
      split at based
      · obtain rfl := Option.some.inj based
        exact prepared _
      · cases based

private theorem bound_distinct {declarations : List AcceptanceCriterionDeclaration}
    {bound : List BoundCriterionVerdict} {outcomes : Outcomes}
    (document : observation.document = .valid declarations)
    (accepted : decideObserved sha256 observation = .accepted bound outcomes) :
    bound.map (·.criterionId) = declarations.map (·.criterionId) ∧
      (bound.map (·.criterionId)).Nodup := by
  obtain ⟨all, -⟩ := decideAcceptanceVerdict_binds accepted
  have current : observation.currentDeclarations sha256 =
      declarations.map (currentCriterion sha256) := by
    unfold AcceptanceObservation.currentDeclarations
    rw [document]
  rw [current] at all
  have same : bound.map (·.criterionId) = declarations.map (·.criterionId) := by
    refine forall₂_map_eq ((List.forall₂_map_left_iff.mp all).imp fun declaration criterion => ?_)
    rintro ⟨report, -, named, item, -, -, rfl⟩
    exact named
  exact ⟨same, same ▸ (inspectTaskDocument_apart document).1.distinct⟩

private theorem verdictsFor_prepared {snapshot : ObservedSnapshot}
    {bound : List BoundCriterionVerdict} (apart : (bound.map (·.criterionId)).Nodup) :
    verdictsFor bound (bound.map (prepareVerdict sha256 observation snapshot)) =
      bound.map (prepareVerdict sha256 observation snapshot) := by
  have keys : (((bound.map (prepareVerdict sha256 observation snapshot)).map fun verdict =>
      (verdict.value.criterionId, verdict)).map Prod.fst).Nodup := by
    rw [List.map_map, List.map_map]
    exact apart
  have found : ∀ criterion ∈ bound,
      mapGet ((bound.map (prepareVerdict sha256 observation snapshot)).map fun verdict =>
        (verdict.value.criterionId, verdict)) criterion.criterionId =
        some (prepareVerdict sha256 observation snapshot criterion) := by
    intro criterion member
    exact mapGet_of_mem keys (List.mem_map.mpr ⟨_, List.mem_map_of_mem member, rfl⟩)
  unfold verdictsFor
  rw [List.filterMap_congr found]
  exact congrFun List.filterMap_eq_map bound

private theorem preparedStops_ok (decision : RepairLoopDecision) :
    preparedStops sha256 observation (.ok decision) =
      (decidedStops decision).map (prepareStop sha256 observation) := by
  cases decision <;> rfl

private theorem draftAcceptance_ok {decision : RepairLoopDecision} {references : List JsString}
    {stops : List (PreparedArtifact RepairLoopStop)} {evidenceRefs : List JsString}
    {draft : EventDraft}
    (drafted : draftAcceptance observation decision references stops evidenceRefs = .ok draft) :
    ∃ state host execution metadata, observation.workflow = some state ∧
      observation.host = some host ∧ observation.phaseExecution = some execution ∧
      buildAcceptanceDecisionMetadata decision (stops.map stopBinding) = .ok metadata ∧
      draft = commitAcceptance state
        { eventId := observation.eventId, occurredAt := observation.occurredAt
          correlationId := observation.correlationId, identity := ⟨host, none⟩, execution
          references, evidenceRefs } decision (stops.map stopBinding) metadata := by
  unfold draftAcceptance at drafted
  split at drafted
  · next state host execution workflow hosted executed =>
      obtain ⟨-, drafted⟩ := guard_ok_iff.mp drafted
      split at drafted
      · cases drafted
      · next metadata built =>
          exact ⟨state, host, execution, metadata, workflow, hosted, executed, built,
            (Except.ok.inj drafted).symm⟩
  · cases drafted

private theorem prepared_of {baseline snapshot : ObservedSnapshot}
    {bound : List BoundCriterionVerdict} {outcomes : Outcomes}
    (based : baselineSnapshot sha256 observation = some baseline)
    (kept : (changeAgainst sha256 observation baseline).isRefused = false)
    (accepted : decideObserved sha256 observation = .accepted bound outcomes)
    (selected : selectedSnapshot sha256 observation baseline = some snapshot) :
    prepareAcceptance sha256 observation =
      { snapshot := observation.snapshot
        bootstrapSnapshot := bootstrapSnapshot sha256 observation
        appendSnapshot := appendSnapshot sha256 observation
        verdicts := bound.map (prepareVerdict sha256 observation snapshot)
        repairLoopDecision := some (loopDecision observation bound)
        repairStops := preparedStops sha256 observation (loopDecision observation bound) } := by
  unfold prepareAcceptance
  simp only [based, accepted, selected, kept, Bool.false_eq_true, if_false]

private theorem prepared_snapshots (sha256 : JsString → JsString)
    (observation : AcceptanceObservation) :
    (prepareAcceptance sha256 observation).snapshot = observation.snapshot ∧
      (prepareAcceptance sha256 observation).bootstrapSnapshot =
        bootstrapSnapshot sha256 observation ∧
      (prepareAcceptance sha256 observation).appendSnapshot =
        appendSnapshot sha256 observation := by
  unfold prepareAcceptance
  simp only
  split
  · exact ⟨rfl, rfl, rfl⟩
  · split
    · split
      · exact ⟨rfl, rfl, rfl⟩
      · exact ⟨rfl, rfl, rfl⟩
    · exact ⟨rfl, rfl, rfl⟩

theorem draftEvent_drafted {draft : EventDraft} (drafted : draftEvent sha256 observation = .ok draft) :
    Drafted sha256 observation draft := by
  obtain ⟨snapshots, bootstraps, appends⟩ := prepared_snapshots sha256 observation
  unfold draftEvent recordAcceptance at drafted
  split at drafted
  · next declarations baseline document readable based =>
      rw [snapshots, bootstraps] at based
      split at drafted
      · cases drafted
      · next change settled notRefused =>
          have kept : (changeAgainst sha256 observation baseline).isRefused = false := by
            cases change : changeAgainst sha256 observation baseline with
            | refused reasonCode criterionId => exact absurd change (notRefused _ _)
            | unchanged => rfl
            | append ids => rfl
          split at drafted
          · cases drafted
          · next snapshot selected =>
              rw [appends] at selected
              have selectedHere : selectedSnapshot sha256 observation baseline = some snapshot :=
                selected
              split at drafted
              · cases drafted
              · next bound outcomes accepted =>
                  obtain ⟨-, apart⟩ := bound_distinct document accepted
                  rw [prepared_of based kept accepted selectedHere] at drafted
                  obtain ⟨-, drafted⟩ := guard_ok_iff.mp drafted
                  cases decided : loopDecision observation bound with
                  | error refusal =>
                      rw [decided] at drafted
                      cases refusal <;> cases drafted
                  | ok decision =>
                      rw [decided] at drafted
                      obtain ⟨-, drafted⟩ := guard_ok_iff.mp drafted
                      obtain ⟨state, host, execution, metadata, workflow, hosted, executed, built,
                        rfl⟩ := draftAcceptance_ok drafted
                      rw [preparedStops_ok, List.map_map] at built ⊢
                      rw [verdictsFor_prepared apart, needs_write document based kept,
                        List.map_map]
                      exact .intro document workflow hosted executed accepted decided
                        (written_as document based kept selectedHere) built
  · cases drafted

end Drafting

section Sizes

variable (observation : AcceptanceObservation) (reports : List ReportedCriterion)

/-- The attempt that a failure of a criterion would be recorded as. -/
def AcceptanceObservation.nextAttempt (criterionId : JsString) : AcceptanceAttempt :=
  ⟨criterionId, priorAttempt (observation.candidate []) criterionId + 1⟩

def isFailed (report : ReportedCriterion) : Bool := decide (report.outcome = .failed)

def failedNext : List AcceptanceAttempt :=
  (reports.filter isFailed).map fun report => observation.nextAttempt report.criterionId

/-- Those of them that reach the ceiling of the run. -/
def trippingNext : List AcceptanceAttempt :=
  (failedNext observation reports).filter fun attempt =>
    attempt.attempt ≥ observation.attemptCeiling

def stopsRun : Bool := !(trippingNext observation reports).isEmpty

/-- The units that the path of an artifact of one criterion has besides its directory. -/
def AcceptanceObservation.pathLength (criterionId : JsString) : Nat :=
  observation.rootLength + observation.eventId.length + criterionId.length + 6

/-- The bytes of the quoted references, one by one. -/
def referenceBytes : List Nat :=
  [observation.rootLength + 31, observation.feature.length + 33] ++
    (if observation.snapshotWritten then
      anchoredBytes (stopsRun observation reports)
        (observation.rootLength + observation.eventId.length + 26)
    else []) ++
    (reports.flatMap fun report =>
      anchoredBytes (stopsRun observation reports) (observation.pathLength report.criterionId + 21)) ++
    (trippingNext observation reports).map fun attempt =>
      observation.pathLength attempt.criterionId + 27

/-- The classification that the fault report of a criterion gives. -/
def AcceptanceObservation.classificationBytes (criterionId : JsString) : Nat :=
  ((faultOf (observation.candidate []) criterionId).map fun fault =>
    stringBytes fault.classification.text).getD 0

def stopBytes (attempt : AcceptanceAttempt) : Nat :=
  attempt.criterionId.length + 80 + (decimal attempt.attempt).length +
    observation.classificationBytes attempt.criterionId +
    (observation.pathLength attempt.criterionId + 27) + 66

/-- The bytes of the reason code and of the outcome. -/
def verdictBytes : Nat :=
  if failedNext observation reports = [] then 31
  else if stopsRun observation reports then 43 else 40

/-- What the executing host reported, or the host alone. -/
def executorBytes (host : JsString) (execution : PhaseExecutionObservation) : Nat :=
  identityBytes (phaseIdentity ⟨host, none⟩ (some execution))

def reportedBytes : Nat :=
  verdictBytes observation reports + joinedLength (referenceBytes observation reports) +
    joinedLength ((reports.map (·.evidenceRef)).dedup.map stringBytes) +
    joinedLength ((failedNext observation reports).map attemptBytes) +
    joinedLength ((trippingNext observation reports).map (stopBytes observation))

/-- The bytes of the line of the event that records a verdict over an active run. -/
def acceptanceBytes : Nat :=
  match observation.workflow, observation.host, observation.phaseExecution with
  | some state, some host, some execution =>
      526 + observation.eventId.length + stringBytes observation.occurredAt +
        stringBytes (acceptanceOperation observation.correlationId) +
        (decimal state.revision).length + (decimal (state.revision + 1)).length +
        executorBytes host execution + reportedBytes observation observation.payload.criteria
  | _, _, _ => 0

end Sizes

section Order

variable {observation : AcceptanceObservation} {left right : List ReportedCriterion}

private theorem failedNext_perm (perm : left.Perm right) :
    (failedNext observation left).Perm (failedNext observation right) :=
  (perm.filter _).map _

private theorem trippingNext_perm (perm : left.Perm right) :
    (trippingNext observation left).Perm (trippingNext observation right) :=
  (failedNext_perm perm).filter _

private theorem stopsRun_perm (perm : left.Perm right) :
    stopsRun observation left = stopsRun observation right := by
  unfold stopsRun
  rw [(trippingNext_perm perm).isEmpty_eq]

private theorem referenceBytes_perm (perm : left.Perm right) :
    (referenceBytes observation left).Perm (referenceBytes observation right) := by
  unfold referenceBytes
  rw [stopsRun_perm perm]
  exact ((List.Perm.refl _).append (perm.flatMap_right _)).append ((trippingNext_perm perm).map _)

private theorem reportedBytes_perm (perm : left.Perm right) :
    reportedBytes observation left = reportedBytes observation right := by
  have failed : failedNext observation left = [] ↔ failedNext observation right = [] := by
    constructor
    · intro none
      exact List.nil_perm.mp (none ▸ failedNext_perm perm)
    · intro none
      exact List.perm_nil.mp (none ▸ failedNext_perm perm)
  unfold reportedBytes verdictBytes
  rw [joinedLength_perm (referenceBytes_perm perm),
    joinedLength_perm ((perm.map (·.evidenceRef)).dedup.map stringBytes),
    joinedLength_perm ((failedNext_perm perm).map attemptBytes),
    joinedLength_perm ((trippingNext_perm perm).map (stopBytes observation)),
    stopsRun_perm perm]
  simp only [failed]

private theorem distinct_perm (values : List JsString) : (distinct values).Perm values.dedup := by
  unfold distinct
  exact (List.reverse_perm _).trans (List.reverse_perm values).dedup

/-- The report that a bound verdict stands for. -/
def reportOf (criterion : BoundCriterionVerdict) : ReportedCriterion :=
  ⟨criterion.criterionId, criterion.outcome, criterion.evidenceRef⟩

private theorem mapGet_ref {evidence : List EvidenceV1} {ref : JsString} {item : EvidenceV1}
    (found : mapGet (evidenceByRef evidence) ref = some item) : item.ref = ref := by
  obtain ⟨entry, -, same⟩ := List.mem_map.mp (mapGet_mem found)
  have refs : entry.ref = ref := congrArg Prod.fst same
  have items : entry = item := congrArg Prod.snd same
  rw [← items, refs]

private theorem reportOf_bind {report : ReportedCriterion} {item : EvidenceV1}
    (named : item.ref = report.evidenceRef) : reportOf (bindEvidence report item) = report := by
  obtain ⟨criterionId, outcome, evidenceRef⟩ := report
  unfold reportOf bindEvidence
  simp only at named ⊢
  rw [named]

private theorem bound_perm {sha256 : JsString → JsString}
    {declarations : List AcceptanceCriterionDeclaration} {bound : List BoundCriterionVerdict}
    {outcomes : Outcomes} (document : observation.document = .valid declarations)
    (accepted : decideObserved sha256 observation = .accepted bound outcomes) :
    (bound.map reportOf).Perm observation.payload.criteria := by
  obtain ⟨-, apart⟩ := bound_distinct document accepted
  have justified : Justified (observation.currentDeclarations sha256) observation.payload.verdict
      observation.payload.criteria observation.evidence observation.invalidEvidenceIds := by
    refine decideAcceptanceVerdict_accepted_iff.mp ?_
    have shown : decideAcceptanceVerdict (observation.currentDeclarations sha256)
        observation.payload.verdict observation.payload.criteria observation.evidence
        observation.invalidEvidenceIds = .accepted bound outcomes := accepted
    rw [shown]
    rfl
  obtain ⟨all, -⟩ := decideAcceptanceVerdict_binds accepted
  obtain ⟨⟨once, same⟩, -, -⟩ := justified
  obtain ⟨reached, sourced⟩ := forall₂_mem all
  have ids : (bound.map reportOf).map (·.criterionId) = bound.map (·.criterionId) := by
    rw [List.map_map]
    rfl
  have apartHere : (bound.map reportOf).Nodup := List.Nodup.of_map _ (ids ▸ apart)
  refine (List.perm_ext_iff_of_nodup apartHere (List.Nodup.of_map _ once)).mpr fun report => ?_
  constructor
  · intro member
    obtain ⟨criterion, held, rfl⟩ := List.mem_map.mp member
    obtain ⟨-, -, source, listed, -, item, cited, -, rfl⟩ := sourced criterion held
    rw [reportOf_bind (mapGet_ref cited)]
    exact listed
  · intro listed
    obtain ⟨declaration, inside, named⟩ :=
      List.mem_map.mp ((same _).mp (List.mem_map_of_mem listed))
    obtain ⟨criterion, held, other, otherListed, shared, item, cited, -, rfl⟩ :=
      reached declaration inside
    obtain rfl : other = report :=
      List.inj_on_of_nodup_map once otherListed listed (shared.trans named)
    refine List.mem_map.mpr ⟨_, held, reportOf_bind (mapGet_ref cited)⟩

variable {bound : List BoundCriterionVerdict}

private theorem failedAttempts_eq :
    failedAttempts (observation.candidate bound) = failedNext observation (bound.map reportOf) := by
  unfold failedAttempts failedNext AcceptanceObservation.candidate
  simp only
  induction bound with
  | nil => rfl
  | cons criterion rest ih =>
      obtain ⟨criterionId, outcome, evidenceId, evidenceRef, evidenceDigest⟩ := criterion
      cases outcome with
      | passed => exact ih
      | notRun => exact ih
      | failed => exact congrArg (observation.nextAttempt criterionId :: ·) ih

private theorem tripping_eq :
    tripping (observation.candidate bound) = trippingNext observation (bound.map reportOf) := by
  unfold tripping trippingNext
  rw [failedAttempts_eq]
  rfl

end Order

section Exactness

variable {sha256 : JsString → JsString} {observation : AcceptanceObservation}
  {bound : List BoundCriterionVerdict} {decision : RepairLoopDecision}
  {metadata : AcceptanceDecision}

private theorem plain_declared {declarations : List AcceptanceCriterionDeclaration}
    (document : observation.document = .valid declarations) :
    ∀ declaration ∈ declarations, Plain declaration.criterionId := by
  unfold AcceptanceObservation.document at document
  cases content : observation.documentContent with
  | none =>
      rw [content] at document
      cases document
  | some text =>
      rw [content] at document
      obtain ⟨added, rfl, stands⟩ := inspectLines_stands document
      intro declaration member
      obtain ⟨parts, named⟩ := (stands declaration member).named
      exact plain_criterion named

private theorem plain_bound {declarations : List AcceptanceCriterionDeclaration}
    {outcomes : Outcomes} (document : observation.document = .valid declarations)
    (accepted : decideObserved sha256 observation = .accepted bound outcomes) :
    ∀ report ∈ bound.map reportOf, Plain report.criterionId := by
  intro report member
  obtain ⟨criterion, held, rfl⟩ := List.mem_map.mp member
  obtain ⟨same, -⟩ := bound_distinct document accepted
  have listed : criterion.criterionId ∈ declarations.map (·.criterionId) :=
    same ▸ List.mem_map_of_mem held
  obtain ⟨declaration, inside, named⟩ := List.mem_map.mp listed
  have plain := plain_declared document declaration inside
  rw [named] at plain
  exact plain

private theorem plain_tripping {reports : List ReportedCriterion}
    (plain : ∀ report ∈ reports, Plain report.criterionId) :
    ∀ entry ∈ trippingNext observation reports, Plain entry.criterionId := by
  intro entry member
  obtain ⟨report, held, rfl⟩ := List.mem_map.mp (List.mem_filter.mp member).1
  exact plain report (List.mem_filter.mp held).1

private theorem stopOf_eq {entry : AcceptanceAttempt} {stop : RepairLoopStop}
    (stopped : stopOf (observation.candidate bound) entry = .ok stop) :
    stop.criterionId = entry.criterionId ∧ stop.attempt = entry.attempt ∧
      stringBytes stop.classification.text =
        observation.classificationBytes entry.criterionId := by
  obtain ⟨named, counted⟩ := stopOf_ok stopped
  refine ⟨named, counted, ?_⟩
  unfold stopOf at stopped
  split at stopped
  · cases stopped
  · next fault found =>
      obtain rfl := Except.ok.inj stopped
      have here : faultOf (observation.candidate []) entry.criterionId = some fault := found
      unfold AcceptanceObservation.classificationBytes
      rw [here]
      rfl

private theorem bindStop_eq {stop : RepairLoopStop} {recorded : RepairStop}
    (stopped : bindStop (decidedBindings sha256 observation decision) stop = .ok recorded) :
    recorded.criterionId = stop.criterionId ∧ recorded.attempt = stop.attempt ∧
      recorded.classification = stop.classification ∧
      recorded.artifactRef = observation.stopRef stop.criterionId ∧
      ∃ text, recorded.artifactDigest = sha256 text := by
  unfold bindStop at stopped
  split at stopped
  · cases stopped
  · next binding found =>
      obtain rfl := Except.ok.inj stopped
      obtain ⟨entry, listed, same⟩ := List.mem_map.mp (mapGet_mem found)
      obtain ⟨source, -, rfl⟩ := List.mem_map.mp listed
      obtain ⟨named, rfl⟩ := Prod.mk.inj same
      exact ⟨rfl, rfl, rfl, congrArg observation.stopRef named, _, rfl⟩

private theorem recorded_bytes (allowed : Allowed observation)
    (hashed : ∀ text, sha256Pattern (sha256 text) = true) {entry : AcceptanceAttempt}
    {stop : RepairLoopStop} {recorded : RepairStop} (plain : Plain entry.criterionId)
    (stopped : stopOf (observation.candidate bound) entry = .ok stop)
    (boundTo : bindStop (decidedBindings sha256 observation decision) stop = .ok recorded) :
    repairStopBytes recorded = stopBytes observation entry := by
  obtain ⟨named, counted, classified⟩ := stopOf_eq stopped
  obtain ⟨sameId, sameAttempt, sameClass, ref, text, digest⟩ := bindStop_eq boundTo
  have path := (shown_stop allowed plain).bytes
  have sealedDigest : stringBytes (sha256 text) = 66 := by
    rw [stringBytes_plain (plain_sha256 (hashed text)), sha256_length (hashed text)]
  unfold repairStopBytes stopBytes AcceptanceObservation.pathLength
  rw [sameId, sameAttempt, sameClass, ref, digest, named, counted, classified, path, sealedDigest,
    stringBytes_plain plain]
  omega

private theorem recorded_all (allowed : Allowed observation)
    (hashed : ∀ text, sha256Pattern (sha256 text) = true) {entries : List AcceptanceAttempt}
    {stops : List RepairLoopStop} {recorded : List RepairStop}
    (plain : ∀ entry ∈ entries, Plain entry.criterionId)
    (stopped : List.Forall₂ (fun entry stop =>
      stopOf (observation.candidate bound) entry = .ok stop) entries stops)
    (boundTo : List.Forall₂ (fun stop entry =>
      bindStop (decidedBindings sha256 observation decision) stop = .ok entry) stops recorded) :
    recorded.map repairStopBytes = entries.map (stopBytes observation) := by
  induction stopped generalizing recorded with
  | nil =>
      obtain rfl := List.forall₂_nil_left_iff.mp boundTo
      rfl
  | cons first later ih =>
      obtain ⟨entry, rest, here, others, rfl⟩ := List.forall₂_cons_left_iff.mp boundTo
      obtain ⟨plainHere, plainLater⟩ := List.forall_mem_cons.mp plain
      rw [List.map_cons, List.map_cons, ih plainLater others,
        recorded_bytes allowed hashed plainHere first here]

private theorem loop_settled (decided : loopDecision observation bound = .ok decision) :
    Settled (observation.candidate bound) decision := by
  obtain ⟨-, decided⟩ := guard_ok_iff.mp decided
  exact settle_ok (decideRepairLoop_ok decided).2

private theorem stopped_iff (decided : loopDecision observation bound = .ok decision) :
    isStopped decision = stopsRun observation (bound.map reportOf) := by
  unfold stopsRun
  rw [← tripping_eq]
  cases loop_settled decided with
  | passed unfailed =>
      rw [tripping, unfailed]
      rfl
  | repair failed below =>
      rw [below]
      rfl
  | stopped tripped each =>
      rw [List.isEmpty_eq_false_iff.mpr tripped]
      rfl

private theorem stop_references (allowed : Allowed observation)
    (decided : loopDecision observation bound = .ok decision)
    (plain : ∀ report ∈ bound.map reportOf, Plain report.criterionId) :
    ((decidedBindings sha256 observation decision).map (·.artifactRef)).map stringBytes =
      (trippingNext observation (bound.map reportOf)).map fun entry =>
        observation.pathLength entry.criterionId + 27 := by
  have plainTripping : ∀ entry ∈ trippingNext observation (bound.map reportOf),
      Plain entry.criterionId := plain_tripping plain
  rw [← tripping_eq] at plainTripping ⊢
  cases loop_settled decided with
  | passed unfailed =>
      rw [tripping, unfailed]
      rfl
  | repair failed below =>
      rw [below]
      rfl
  | stopped tripped each =>
      have paths := (List.forall₂_and_left (tripping (observation.candidate bound)) _).mpr
        ⟨plainTripping, each⟩
      unfold decidedBindings decidedStops
      rw [List.map_map, List.map_map]
      refine forall₂_map_eq (paths.imp fun entry stop both => ?_)
      obtain ⟨plainHere, stopped⟩ := both
      show stringBytes (observation.stopRef stop.criterionId) = _
      rw [(stopOf_ok stopped).1, (shown_stop allowed plainHere).bytes]
      unfold AcceptanceObservation.pathLength
      omega

private theorem stopped_metadata {attempts : List AcceptanceAttempt} {stops : List RepairLoopStop}
    {bindings : List RepairLoopStopBinding}
    (built : buildAcceptanceDecisionMetadata (.stopped attempts stops) bindings = .ok metadata) :
    ∃ entries, List.Forall₂ (fun stop entry => bindStop bindings stop = .ok entry) stops entries ∧
      metadata = ⟨.stopped, attempts, entries⟩ := by
  obtain ⟨-, built⟩ := guard_ok_iff.mp built
  cases recorded : stops.mapM (bindStop bindings) with
  | error message =>
      rw [recorded] at built
      cases built
  | ok entries =>
      rw [recorded] at built
      exact ⟨entries, mapM_ok_iff.mp recorded, (Except.ok.inj built).symm⟩

private theorem decision_line (allowed : Allowed observation)
    (hashed : ∀ text, sha256Pattern (sha256 text) = true)
    (decided : loopDecision observation bound = .ok decision)
    (plain : ∀ report ∈ bound.map reportOf, Plain report.criterionId)
    (built : buildAcceptanceDecisionMetadata decision (decidedBindings sha256 observation decision) =
      .ok metadata) :
    stringBytes decision.reasonCode + decisionBytes metadata =
      43 + verdictBytes observation (bound.map reportOf) +
        joinedLength ((failedNext observation (bound.map reportOf)).map attemptBytes) +
        joinedLength ((trippingNext observation (bound.map reportOf)).map
          (stopBytes observation)) := by
  have plainTripping : ∀ entry ∈ trippingNext observation (bound.map reportOf),
      Plain entry.criterionId := plain_tripping plain
  have stops := stopped_iff decided
  have reasons : stringBytes (js "run.acceptance.passed") = 23 ∧
      stringBytes (js "run.acceptance.repair_required") = 32 ∧
      stringBytes (js "run.stop_loss.repeated_rejection") = 34 ∧
      stringBytes (js "passed") = 8 ∧ stringBytes (js "repair") = 8 ∧
      stringBytes (js "stopped") = 9 := by decide
  obtain ⟨passedReason, repairReason, stoppedReason, passedText, repairText, stoppedText⟩ := reasons
  unfold verdictBytes decisionBytes
  rw [← stops]
  rw [← tripping_eq] at plainTripping ⊢
  rw [← failedAttempts_eq]
  cases loop_settled decided with
  | passed unfailed =>
      obtain ⟨⟩ := buildAcceptanceDecisionMetadata_ok built
      rw [tripping, unfailed]
      simp only [RepairLoopDecision.reasonCode, AcceptanceOutcome.text, passedReason, passedText,
        if_true, List.map_nil, List.filter_nil]
      omega
  | repair failed below =>
      obtain ⟨⟩ := buildAcceptanceDecisionMetadata_ok built
      rw [below, if_neg failed]
      simp only [RepairLoopDecision.reasonCode, AcceptanceOutcome.text, repairReason, repairText,
        isStopped, Bool.false_eq_true, if_false, List.map_nil]
      omega
  | stopped tripped each =>
      have failed : failedAttempts (observation.candidate bound) ≠ [] := by
        intro none
        exact tripped (by rw [tripping, none, List.filter_nil])
      obtain ⟨entries, recorded, rfl⟩ := stopped_metadata built
      have bytes := recorded_all allowed hashed plainTripping each recorded
      rw [if_neg failed]
      simp only [RepairLoopDecision.reasonCode, AcceptanceOutcome.text, stoppedReason,
        stoppedText, isStopped, if_true, bytes]
      omega

private theorem references_bytes (allowed : Allowed observation)
    (hashed : ∀ text, sha256Pattern (sha256 text) = true) {snapshot : ObservedSnapshot}
    (written : WrittenAs sha256 observation snapshot)
    (decided : loopDecision observation bound = .ok decision)
    (plain : ∀ report ∈ bound.map reportOf, Plain report.criterionId) :
    (recordedReferences observation (isStopped decision) observation.snapshotWritten snapshot
        (bound.map (prepareVerdict sha256 observation snapshot)) ++
      (decidedBindings sha256 observation decision).map (·.artifactRef)).map stringBytes =
      referenceBytes observation (bound.map reportOf) := by
  have verdicts : (bound.flatMap fun criterion =>
      (anchoredRefs (isStopped decision) (observation.verdictRef criterion.criterionId)
        (prepareVerdict sha256 observation snapshot criterion).digest).map stringBytes) =
      bound.flatMap fun criterion => anchoredBytes (isStopped decision)
        (observation.pathLength criterion.criterionId + 21) := by
    refine List.flatMap_congr fun criterion member => ?_
    have path := shown_verdict allowed (plain _ (List.mem_map_of_mem member))
    have length : observation.rootLength + observation.eventId.length +
        (reportOf criterion).criterionId.length + 21 + 6 =
        observation.pathLength criterion.criterionId + 21 := by
      show observation.rootLength + observation.eventId.length + criterion.criterionId.length +
        21 + 6 = _
      unfold AcceptanceObservation.pathLength
      omega
    rw [length] at path
    exact anchored_bytes _ path (hashed _)
  have snapshots : (if observation.snapshotWritten then
      anchoredRefs (isStopped decision) snapshot.ref snapshot.digest else []).map stringBytes =
      if observation.snapshotWritten then anchoredBytes (isStopped decision)
        (observation.rootLength + observation.eventId.length + 26) else [] := by
    cases writes : observation.snapshotWritten with
    | false => rfl
    | true =>
        obtain ⟨ref, text, digest⟩ := written writes
        rw [if_pos rfl, if_pos rfl, ref, digest]
        exact anchored_bytes _ (shown_criteria allowed) (hashed text)
  unfold recordedReferences referenceBytes
  rw [List.map_append, List.map_append, List.map_append, stop_references allowed decided plain,
    snapshots, ← stopped_iff decided, List.flatMap_map, List.map_flatMap, List.flatMap_map,
    List.map_cons, List.map_singleton, (shown_output allowed).bytes, (shown_document allowed).bytes]
  refine congrArg₂ (· ++ ·) (congrArg₂ (· ++ ·) (congrArg₂ (· ++ ·) ?_ rfl) verdicts) rfl
  exact congrArg₂ (fun first second => [first, second]) (by omega) (by omega)

private theorem referenceBytes_length {reports : List ReportedCriterion}
    (few : reports.length ≤ MAX_CRITERIA) :
    (referenceBytes observation reports).length ≤ maxReferenceCount := by
  have trips : (trippingNext observation reports).length ≤ reports.length := by
    refine Nat.le_trans (List.length_filter_le _ _) ?_
    unfold failedNext
    rw [List.length_map]
    exact List.length_filter_le _ _
  have each : ∀ (stopped : Bool) (length : Nat),
      (anchoredBytes stopped length).length = if stopped then 1 else 2 := by
    intro stopped length
    cases stopped <;> rfl
  have bound : MAX_CRITERIA = 126 ∧ maxReferenceCount = 256 := ⟨rfl, rfl⟩
  have verdicts : ∀ (stopped : Bool), (reports.flatMap fun report => anchoredBytes stopped
      (observation.pathLength report.criterionId + 21)).length =
        (if stopped then 1 else 2) * reports.length := by
    intro stopped
    rw [List.length_flatMap]
    simp only [each, List.map_const', List.sum_replicate_nat]
    exact Nat.mul_comm _ _
  have snapshot : ∀ stopped : Bool, (if observation.snapshotWritten then anchoredBytes stopped
      (observation.rootLength + observation.eventId.length + 26) else []).length ≤
        if stopped then 1 else 2 := by
    intro stopped
    split
    · exact (each _ _).le
    · exact Nat.zero_le _
  have snapshotHere := snapshot (stopsRun observation reports)
  unfold referenceBytes
  rw [List.length_append, List.length_append, List.length_append, List.length_map, verdicts]
  cases stops : stopsRun observation reports with
  | true =>
      rw [stops] at snapshotHere
      simp only [if_true, List.length_cons, List.length_nil] at snapshotHere ⊢
      omega
  | false =>
      rw [stops] at snapshotHere
      have none : trippingNext observation reports = [] := by
        unfold stopsRun at stops
        rw [Bool.not_eq_false'] at stops
        exact List.isEmpty_iff.mp stops
      rw [none]
      simp only [Bool.false_eq_true, if_false, List.length_cons, List.length_nil] at snapshotHere ⊢
      omega

/-- An event that the contract and the reader of its stream leave room for. -/
structure EventFits (draft : EventDraft) : Prop where
  references : draft.artifactRefs.length ≤ maxReferenceCount
  line : ∀ previousHash eventHash : JsString, sha256Pattern previousHash = true →
    sha256Pattern eventHash = true →
    utf8Length (canonicalLine ⟨draft, some previousHash, eventHash⟩) ≤ eventRecordBytes

/-- The references and the line of a drafted event, from what was observed. -/
theorem drafted_exact (allowed : Allowed observation)
    (hashed : ∀ text, sha256Pattern (sha256 text) = true) {draft : EventDraft}
    (drafted : draftEvent sha256 observation = .ok draft) :
    draft.artifactRefs.length ≤ maxReferenceCount ∧
      ∀ previousHash eventHash : JsString, sha256Pattern previousHash = true →
        sha256Pattern eventHash = true →
        utf8Length (canonicalLine ⟨draft, some previousHash, eventHash⟩) =
          acceptanceBytes observation := by
  obtain ⟨document, workflow, hosted, executed, accepted, decided, written, built⟩ :=
    draftEvent_drafted drafted
  rename_i declarations state host execution bound outcomes decision snapshot metadata
  have plain := plain_bound document accepted
  have perm := bound_perm document accepted
  have references := references_bytes allowed hashed written decided plain
  constructor
  · have few : (bound.map reportOf).length ≤ MAX_CRITERIA := by
      have ids := congrArg List.length (bound_distinct document accepted).1
      rw [List.length_map, List.length_map] at ids
      rw [List.length_map, ids]
      exact (inspectTaskDocument_apart document).1.bounded
    have counted := congrArg List.length references
    rw [List.length_map] at counted
    exact Nat.le_trans (Nat.le_of_eq counted) (referenceBytes_length few)
  · intro previousHash eventHash previous sealed_
    rw [line_length _ _ _ _ _ previous sealed_]
    have decisionPart := decision_line allowed hashed decided plain built
    have evidence : joinedLength ((distinct (bound.map (·.evidenceRef))).map stringBytes) =
        joinedLength (((bound.map reportOf).map (·.evidenceRef)).dedup.map stringBytes) := by
      rw [List.map_map]
      exact joinedLength_perm ((distinct_perm _).map _)
    have event := stringBytes_plain (plain_id allowed.eventId)
    have reported : reportedBytes observation (bound.map reportOf) =
        reportedBytes observation observation.payload.criteria := reportedBytes_perm perm
    unfold acceptanceBytes
    simp only [workflow, hosted, executed]
    rw [← reported]
    unfold reportedBytes lineBytes executorBytes
    show 481 + stringBytes observation.eventId + stringBytes observation.occurredAt +
      stringBytes (acceptanceOperation observation.correlationId) + (decimal state.revision).length +
      (decimal (state.revision + 1)).length + stringBytes decision.reasonCode +
      joinedLength ((recordedReferences observation (isStopped decision)
        observation.snapshotWritten snapshot (bound.map (prepareVerdict sha256 observation snapshot)) ++
        (decidedBindings sha256 observation decision).map (·.artifactRef)).map stringBytes) +
      joinedLength ((distinct (bound.map (·.evidenceRef))).map stringBytes) +
      identityBytes (phaseIdentity ⟨host, none⟩ (some execution)) + decisionBytes metadata = _
    rw [references, evidence, event]
    omega

end Exactness

/-- The event drafted for an accepted verdict fits exactly when the bytes its inputs give it do. -/
theorem acceptance_event_fits_iff {sha256 : JsString → JsString}
    (hashed : ∀ text, sha256Pattern (sha256 text) = true) {observation : AcceptanceObservation}
    (allowed : Allowed observation) {draft : EventDraft}
    (drafted : draftEvent sha256 observation = .ok draft) :
    EventFits draft ↔ acceptanceBytes observation ≤ eventRecordBytes := by
  obtain ⟨references, line⟩ := drafted_exact allowed hashed drafted
  constructor
  · intro fits
    have hash : sha256Pattern (sha256 []) = true := hashed []
    have bytes := fits.line (sha256 []) (sha256 []) hash hash
    rw [line _ _ hash hash] at bytes
    exact bytes
  · intro short
    refine ⟨references, fun previousHash eventHash previous sealed_ => ?_⟩
    rw [line _ _ previous sealed_]
    exact short

section FirstVerdict

variable {sha256 : JsString → JsString} {observation : AcceptanceObservation}
  {declarations : List AcceptanceCriterionDeclaration} {bound : List BoundCriterionVerdict}
  {outcomes : Outcomes} {attempts : List AcceptanceAttempt} {state : WorkflowState}
  {host : JsString} {execution : PhaseExecutionObservation}

/-- A planned document without a snapshot, all of whose boxes are open. -/
structure FirstVerdict (observation : AcceptanceObservation) : Prop where
  readable : observation.readable = true
  fresh : observation.snapshot = none
  planned : observation.planned = true
  unjudged : observation.verdicts = []

private theorem first_baseline (first : FirstVerdict observation)
    (document : observation.document = .valid declarations)
    (unchecked : ∀ declaration ∈ declarations, declaration.checked = false) :
    baselineSnapshot sha256 observation = some (preparedSnapshot sha256 observation none) ∧
      changeAgainst sha256 observation (preparedSnapshot sha256 observation none) =
        .unchanged := by
  have current : observation.currentDeclarations sha256 =
      declarations.map (currentCriterion sha256) := by
    unfold AcceptanceObservation.currentDeclarations
    rw [document]
  have nonempty : observation.currentDeclarations sha256 ≠ [] := by
    rw [current]
    exact fun empty => (inspectTaskDocument_apart document).2 (List.map_eq_nil_iff.mp empty)
  have closed : ∀ criterion ∈ observation.currentDeclarations sha256,
      criterion.checked = false := by
    rw [current]
    intro criterion member
    obtain ⟨declaration, inside, rfl⟩ := List.mem_map.mp member
    exact unchecked declaration inside
  constructor
  · have bootstrapped : bootstrapSnapshot sha256 observation =
        some (preparedSnapshot sha256 observation none) := by
      refine if_pos ⟨first.fresh, first.planned, nonempty, List.all_eq_true.mpr ?_⟩
      intro criterion member
      rw [closed criterion member]
      rfl
    rw [baselineSnapshot, first.fresh, Option.none_or, bootstrapped]
  · refine compare_unchanged_iff.mpr ⟨rfl, fun criterion member => ?_⟩
    rw [closed criterion member, first.unjudged]
    rfl

theorem first_verdict_drafted (first : FirstVerdict observation)
    (document : observation.document = .valid declarations)
    (unchecked : ∀ declaration ∈ declarations, declaration.checked = false)
    (accepted : decideObserved sha256 observation = .accepted bound outcomes)
    (decided : loopDecision observation bound = .ok (.passed attempts))
    (workflow : observation.workflow = some state) (hosted : observation.host = some host)
    (executed : observation.phaseExecution = some execution)
    (phase : state.currentStep = some .acceptance)
    (policy : state.policyVersion = some workflowPolicyVersion) :
    ∃ draft, draftEvent sha256 observation = .ok draft := by
  have baseline : baselineSnapshot sha256 observation =
      some (preparedSnapshot sha256 observation none) ∧
      changeAgainst sha256 observation (preparedSnapshot sha256 observation none) = .unchanged :=
    first_baseline first document unchecked
  obtain ⟨based, unchanged⟩ := baseline
  have kept : (changeAgainst sha256 observation
      (preparedSnapshot sha256 observation none)).isRefused = false := by
    rw [unchanged]
    rfl
  have selected : selectedSnapshot sha256 observation (preparedSnapshot sha256 observation none) =
      some (preparedSnapshot sha256 observation none) := by
    unfold selectedSnapshot
    rw [unchanged]
    rfl
  obtain ⟨-, apart⟩ := bound_distinct document accepted
  have baselineHere : (observation.snapshot).or (bootstrapSnapshot sha256 observation) =
      some (preparedSnapshot sha256 observation none) := based
  have matched : verdictsMatch bound
      (bound.map (prepareVerdict sha256 observation (preparedSnapshot sha256 observation none))) =
        true := by
    have ids : (bound.map (prepareVerdict sha256 observation
        (preparedSnapshot sha256 observation none))).map (·.value.criterionId) =
          bound.map (·.criterionId) := by
      rw [List.map_map]
      rfl
    unfold verdictsMatch
    rw [ids, List.dedup_eq_self.mpr apart, List.length_map, decide_eq_true rfl, Bool.true_and]
    refine List.all_eq_true.mpr fun criterion member => ?_
    exact List.contains_iff_mem.mpr (List.mem_map_of_mem member)
  unfold draftEvent
  rw [prepared_of based kept accepted selected]
  unfold recordAcceptance
  simp only [document, first.readable, baselineHere, unchanged, CriteriaChangeDecision.isAppend,
    Bool.false_eq_true, if_false, accepted, matched, decided]
  have stopped : stopsMatchDecision (.passed attempts)
      (preparedStops sha256 observation (.ok (.passed attempts))) = true := by
    rw [preparedStops_ok]
    rfl
  have built : buildAcceptanceDecisionMetadata (.passed attempts)
      ((preparedStops sha256 observation (.ok (.passed attempts))).map stopBinding) =
        .ok ⟨.passed, [], []⟩ := rfl
  have bindable : ¬ (state.currentStep ≠ some .acceptance ∨
      state.policyVersion ≠ some workflowPolicyVersion) := by
    rw [not_or, not_not, not_not]
    exact ⟨phase, policy⟩
  rw [if_neg Bool.noConfusion, stopped, if_neg Bool.noConfusion]
  unfold draftAcceptance
  simp only [workflow, hosted, executed, built, if_neg bindable]
  exact ⟨_, rfl⟩

end FirstVerdict

section Samples

/-- A work unit of one task with that many criteria. -/
def sampleDocument (count : Nat) : JsString :=
  js "### Work unit 1: U\n\n#### Task 1.1: T\n\n##### Acceptance criteria\n" ++
    (List.range count).flatMap fun index =>
      js "\n- [ ] AC-1.1." ++ decimal (index + 1) ++ js ": C"

def sampleReports (count : Nat) : List ReportedCriterion :=
  (List.range count).map fun index =>
    ⟨js "AC-1.1." ++ decimal (index + 1), .passed, js "evidence.txt"⟩

/-- A run in acceptance under the current policy. -/
def acceptingRun : WorkflowState :=
  { rejectedOnce with attempts := [] }

/-- All criteria of the sample passed, on one record of evidence. -/
def sampleObservation (feature runId eventId : JsString) (count : Nat) : AcceptanceObservation where
  feature
  runId
  eventId
  occurredAt := js "2026-01-01T00:00:00.000Z"
  correlationId := js "c"
  readable := true
  documentContent := some (sampleDocument count)
  documentDigest := sampleDigest
  snapshot := none
  planned := true
  verdicts := []
  evidence := [⟨js "e", js "evidence.txt", sampleDigest⟩]
  invalidEvidenceIds := []
  payload := ⟨.accepted, sampleReports count, []⟩
  workflow := some acceptingRun
  host := some (js "claude")
  phaseExecution := some ⟨sampleDigest, none, none, .unknown⟩

def longId : JsString := List.replicate 128 (unit 'a')

def crowdedObservation : AcceptanceObservation :=
  sampleObservation (List.replicate 64 (unit 'a')) longId longId 80

def sampleDeclarations (count : Nat) : List AcceptanceCriterionDeclaration :=
  (List.range count).map fun index =>
    { criterionId := js "AC-1.1." ++ decimal (index + 1)
      workUnit := js "1"
      task := js "1"
      criterionKind := .main
      checked := false
      ordinal := index
      line := index + 7
      text := js "C"
      normalizedDeclaration := js "- [ ] AC-1.1." ++ decimal (index + 1) ++ js ": C" }

private theorem sample_unchecked (count : Nat) :
    ∀ declaration ∈ sampleDeclarations count, declaration.checked = false := by
  intro declaration member
  obtain ⟨index, -, rfl⟩ := List.mem_map.mp member
  rfl

private theorem checkCriteria_of {criteria : List RepairLoopCriterion} {seen : List JsString}
    (apart : (criteria.map (·.criterionId)).Nodup)
    (fresh : ∀ criterion ∈ criteria, criterion.criterionId ∉ seen)
    (identified : ∀ criterion ∈ criteria, isAcceptanceCriterionId criterion.criterionId = true) :
    checkCriteria seen criteria = .ok () := by
  induction criteria generalizing seen with
  | nil => rfl
  | cons criterion rest ih =>
      obtain ⟨absent, apart⟩ := List.nodup_cons.mp apart
      obtain ⟨freshHere, freshLater⟩ := List.forall_mem_cons.mp fresh
      obtain ⟨named, namedLater⟩ := List.forall_mem_cons.mp identified
      rw [checkCriteria, named, List.contains_eq_mem, decide_eq_false freshHere]
      refine ih apart (fun other member inside => ?_) namedLater
      rcases List.mem_cons.mp inside with same | earlier
      · exact absent (List.mem_map.mpr ⟨other, member, same⟩)
      · exact freshLater other member earlier

variable {feature runId eventId : JsString} {count : Nat} {sha256 : JsString → JsString}

private theorem sample_accepted
    (document : (sampleObservation feature runId eventId count).document =
      .valid (sampleDeclarations count)) :
    (decideObserved sha256 (sampleObservation feature runId eventId count)).isAccepted = true := by
  have current : (sampleObservation feature runId eventId count).currentDeclarations sha256 =
      (sampleDeclarations count).map (currentCriterion sha256) := by
    unfold AcceptanceObservation.currentDeclarations
    rw [document]
  have ids : (sampleReports count).map (·.criterionId) =
      ((sampleDeclarations count).map (currentCriterion sha256)).map (·.criterionId) := by
    unfold sampleReports sampleDeclarations
    rw [List.map_map, List.map_map, List.map_map]
    rfl
  have apart : ((sampleDeclarations count).map (·.criterionId)).Nodup :=
    (inspectTaskDocument_apart document).1.distinct
  have passed : AllPassed (sampleReports count) := by
    intro report member
    obtain ⟨index, -, rfl⟩ := List.mem_map.mp member
    rfl
  unfold decideObserved
  rw [current]
  refine decideAcceptanceVerdict_accepted_iff.mpr ⟨⟨?_, fun criterionId => ?_⟩, ?_, ?_⟩
  · show ((sampleReports count).map (·.criterionId)).Nodup
    rw [ids, List.map_map]
    exact apart
  · show criterionId ∈ (sampleReports count).map (·.criterionId) ↔ _
    rw [ids]
  · intro report member
    obtain ⟨index, -, rfl⟩ := List.mem_map.mp member
    exact ⟨_, rfl, nofun⟩
  · exact ⟨fun _ => passed, fun _ => rfl⟩

private theorem sample_decided {bound : List BoundCriterionVerdict} {outcomes : Outcomes}
    (document : (sampleObservation feature runId eventId count).document =
      .valid (sampleDeclarations count))
    (identified : ∀ declaration ∈ sampleDeclarations count,
      isAcceptanceCriterionId declaration.criterionId = true)
    (accepted : decideObserved sha256 (sampleObservation feature runId eventId count) =
      .accepted bound outcomes) :
    loopDecision (sampleObservation feature runId eventId count) bound = .ok (.passed []) := by
  obtain ⟨ids, apart⟩ := bound_distinct document accepted
  have passed : ∀ criterion ∈ bound, criterion.outcome = .passed := by
    intro criterion member
    have reported : reportOf criterion ∈ sampleReports count :=
      (bound_perm document accepted).mem_iff.mp (List.mem_map_of_mem member)
    obtain ⟨index, -, same⟩ := List.mem_map.mp reported
    exact (congrArg ReportedCriterion.outcome same).symm
  have criteria : bound.filterMap reportedCriterion =
      bound.map fun criterion => ⟨criterion.criterionId, .passed⟩ := by
    rw [← List.filterMap_eq_map]
    refine List.filterMap_congr fun criterion member => ?_
    unfold reportedCriterion
    rw [passed criterion member]
    rfl
  have unfailed : failedAttempts ((sampleObservation feature runId eventId count).candidate bound) =
      [] := by
    rw [failedAttempts_eq]
    unfold failedNext
    have none : (bound.map reportOf).filter isFailed = [] := by
      refine List.filter_eq_nil_iff.mpr fun report member => ?_
      obtain ⟨criterion, held, rfl⟩ := List.mem_map.mp member
      have outcome : (reportOf criterion).outcome = .passed := passed criterion held
      unfold isFailed
      rw [outcome]
      decide
    rw [none]
    rfl
  have checked : checkCriteria []
      ((sampleObservation feature runId eventId count).candidate bound).criteria = .ok () := by
    have listed : ((sampleObservation feature runId eventId count).candidate bound).criteria =
        bound.map fun criterion => ⟨criterion.criterionId, .passed⟩ := criteria
    rw [listed]
    refine checkCriteria_of ?_ (fun _ _ => nofun) fun criterion member => ?_
    · rw [List.map_map]
      exact apart
    · obtain ⟨verdict, held, rfl⟩ := List.mem_map.mp member
      have inside : verdict.criterionId ∈ (sampleDeclarations count).map (·.criterionId) :=
        ids ▸ List.mem_map_of_mem held
      obtain ⟨declaration, declared, same⟩ := List.mem_map.mp inside
      exact same ▸ identified declaration declared
  unfold loopDecision
  rw [if_neg (fun rejected => nomatch rejected.1)]
  unfold decideRepairLoop
  rw [checked]
  show settle _ = _
  unfold settle
  rw [unfailed]
  rfl

private theorem sample_drafted
    (document : (sampleObservation feature runId eventId count).document =
      .valid (sampleDeclarations count))
    (identified : ∀ declaration ∈ sampleDeclarations count,
      isAcceptanceCriterionId declaration.criterionId = true) :
    ∃ draft, draftEvent sha256 (sampleObservation feature runId eventId count) = .ok draft := by
  have accepted : (decideObserved sha256
      (sampleObservation feature runId eventId count)).isAccepted = true := sample_accepted document
  cases verdict : decideObserved sha256 (sampleObservation feature runId eventId count) with
  | refused refusal =>
      rw [verdict] at accepted
      cases accepted
  | accepted bound outcomes =>
      exact first_verdict_drafted ⟨rfl, rfl, rfl, rfl⟩ document (sample_unchecked count) verdict
        (sample_decided document identified verdict) rfl rfl rfl rfl rfl

private theorem sha256_hashed (text : JsString) : sha256Pattern (Sha256.sha256 text) = true := by
  unfold sha256Pattern
  rw [Sha256.length_sha256, Sha256.all_sha256]
  rfl

/-- The bytes decide for a run with short identifiers. -/
theorem short_event_fits :
    ∃ draft, draftEvent Sha256.sha256 (sampleObservation (js "f") (js "r") (js "e") 2) = .ok draft ∧
      (EventFits draft ↔
        acceptanceBytes (sampleObservation (js "f") (js "r") (js "e") 2) ≤ eventRecordBytes) := by
  have document : (sampleObservation (js "f") (js "r") (js "e") 2).document =
      .valid (sampleDeclarations 2) := by decide +kernel
  have exists_ : ∃ draft, draftEvent Sha256.sha256
      (sampleObservation (js "f") (js "r") (js "e") 2) = .ok draft :=
    sample_drafted document (by decide +kernel)
  obtain ⟨draft, drafted⟩ := exists_
  exact ⟨draft, drafted, acceptance_event_fits_iff sha256_hashed ⟨by decide, by decide, by decide⟩
    drafted⟩

/-- With the longest identifiers, eighty passed criteria make a line that its reader refuses. -/
theorem crowded_event_unfit :
    ∃ draft, draftEvent Sha256.sha256 crowdedObservation = .ok draft ∧ ¬ EventFits draft := by
  have document : crowdedObservation.document = .valid (sampleDeclarations 80) := by decide +kernel
  have exists_ : ∃ draft, draftEvent Sha256.sha256 crowdedObservation = .ok draft :=
    sample_drafted document (by decide +kernel)
  have allowed : Allowed crowdedObservation := ⟨by decide, by decide, by decide⟩
  obtain ⟨draft, drafted⟩ := exists_
  refine ⟨draft, drafted, fun fits => ?_⟩
  obtain ⟨-, line⟩ := drafted_exact allowed sha256_hashed drafted
  have hash := sha256_hashed []
  have bytes := fits.line _ _ hash hash
  rw [line _ _ hash hash] at bytes
  have long : eventRecordBytes < acceptanceBytes crowdedObservation := by decide +kernel
  omega

end Samples

end Kratos.Acceptance
