/- source: domain/measurements/index.ts
   digest: Delivered checkpoints keep every residual and the total, and their order does not matter. -/

import Kratos.Measurements.Allocation

set_option autoImplicit false

namespace Kratos.Measurements

open Foundation.Text Foundation.Collections Foundation.Grouping Foundation.Runs
open Foundation.Sorting

variable {precedes : JsString → JsString → Prop} [DecidableRel precedes]

section Sets

/-- No two records are of one run and phase. -/
def Keyed (records : List PhaseMeasurement) : Prop :=
  (records.map fun record => (record.runId, record.phase)).Nodup

theorem Keyed.phases {records : List PhaseMeasurement} (keyed : Keyed records)
    (feature runId : JsString) :
    ((runRecords records feature runId).map PhaseMeasurement.phase).Nodup := by
  have pairs : ((runRecords records feature runId).map fun record =>
      (record.runId, record.phase)).Nodup := keyed.sublist (List.filter_sublist.map _)
  rw [List.nodup_iff_pairwise_ne, List.pairwise_map] at pairs ⊢
  refine pairs.imp_of_mem ?_
  intro left right leftMember rightMember apart same
  have leftRun := (List.mem_filter.mp leftMember).2
  have rightRun := (List.mem_filter.mp rightMember).2
  simp only [decide_eq_true_eq] at leftRun rightRun
  exact apart (by rw [leftRun.2, rightRun.2, same])

theorem mem_runRecords {records : List PhaseMeasurement} {feature runId : JsString}
    {record : PhaseMeasurement} :
    record ∈ runRecords records feature runId ↔
      record ∈ records ∧ record.feature = feature ∧ record.runId = runId := by
  simp [runRecords]

theorem assertValidMeasurementSet_ok_iff {records : List PhaseMeasurement} :
    assertValidMeasurementSet precedes records = .ok () ↔
      hasValidBaselineChronology records = true ∧
        hasValidCheckpointChronology precedes records = true ∧
        hasValidCheckpointResiduals precedes records = true ∧
        hasValidCheckpointOwnership records = true := by
  unfold assertValidMeasurementSet
  simp only [guard_ok_iff, Bool.not_eq_false, and_true]

theorem runRecords_mem_runGroups {records : List PhaseMeasurement} {record : PhaseMeasurement}
    (member : record ∈ records) :
    ((record.feature, record.runId), runRecords records record.feature record.runId) ∈
      runGroups records := by
  refine mem_groupBy.mpr ⟨⟨record, member, rfl⟩, ?_⟩
  unfold runRecords
  apply List.filter_congr
  intro other _
  simp [PhaseMeasurement.runKey]

theorem allocations_of_valid {records : List PhaseMeasurement} {record : PhaseMeasurement}
    (accepted : assertValidMeasurementSet precedes records = .ok ()) (member : record ∈ records) :
    ∃ allocations, checkpointAllocations precedes
      (runRecords records record.feature record.runId) = .ok allocations := by
  have checked := (assertValidMeasurementSet_ok_iff.mp accepted).2.1
  have group := List.all_eq_true.mp checked _ (runRecords_mem_runGroups member)
  cases found : checkpointAllocations precedes
      (runRecords records record.feature record.runId) with
  | error e =>
      rw [found] at group
      cases group
  | ok allocations => exact ⟨allocations, rfl⟩

end Sets

section Earliest

/-- The earliest baseline depends on the starts, the phases and the baselines only. -/
theorem earliestRunBaseline_map {records : List PhaseMeasurement}
    {change : PhaseMeasurement → PhaseMeasurement}
    (started : ∀ record, (change record).startedAt = record.startedAt)
    (phased : ∀ record, (change record).phase = record.phase)
    (based : ∀ record, (change record).baselineGrossTokens = record.baselineGrossTokens) :
    earliestRunBaseline (records.map change) = earliestRunBaseline records := by
  have keys : ∀ record, (change record).startKey = record.startKey := by
    intro record
    rw [PhaseMeasurement.startKey, PhaseMeasurement.startKey, started]
  have sorted : chronologicalRunRecords (records.map change) =
      (chronologicalRunRecords records).map (List.map change) := by
    unfold chronologicalRunRecords
    have order : (records.map change).insertionSort startsNoLater =
        (records.insertionSort startsNoLater).map change :=
      (List.map_insertionSort startsNoLater startsNoLater change records fun a _ b _ => by
        simp only [startsNoLater, keys, phased]).symm
    have missing : (records.map change).any (fun record => record.startKey.isNone) =
        records.any fun record => record.startKey.isNone := by
      rw [List.any_map]
      congr 1
      funext record
      simp only [Function.comp, keys]
    rw [List.length_map, missing, order]
    split <;> rfl
  unfold earliestRunBaseline
  rw [sorted]
  cases chronologicalRunRecords records with
  | error e => rfl
  | ok chronological =>
      cases chronological with
      | nil => rfl
      | cons first rest => exact congrArg Except.ok (based first)

end Earliest

section Target

/-- The changes of a delivery leave a record's place in the set and its numbers alone. -/
structure SamePlace (old new : PhaseMeasurement) : Prop where
  feature : new.feature = old.feature
  runId : new.runId = old.runId
  phase : new.phase = old.phase
  startedAt : new.startedAt = old.startedAt
  closing : new.closing = old.closing
  baseline : new.baselineGrossTokens = old.baselineGrossTokens
  gross : new.grossTokens = old.grossTokens

theorem SamePlace.refl (record : PhaseMeasurement) : SamePlace record record :=
  ⟨rfl, rfl, rfl, rfl, rfl, rfl, rfl⟩

theorem SamePlace.startKey {old new : PhaseMeasurement} (same : SamePlace old new) :
    new.startKey = old.startKey := by
  rw [PhaseMeasurement.startKey, PhaseMeasurement.startKey, same.startedAt]

theorem addPhaseMeasurementContributor_ok {record next : PhaseMeasurement} {sessionId : JsString}
    (added : addPhaseMeasurementContributor precedes record sessionId = .ok next) :
    SamePlace record next ∧ next.contributorCheckpoints = record.contributorCheckpoints ∧
      next.contributingSessionIds =
        sortedUnique precedes (record.contributingSessionIds ++ [sessionId]) := by
  unfold addPhaseMeasurementContributor at added
  obtain ⟨-, same⟩ := guard_ok_iff.mp added
  obtain rfl := Except.ok.inj same
  exact ⟨⟨rfl, rfl, rfl, rfl, rfl, rfl, rfl⟩, rfl, rfl⟩

theorem target_ok_iff {input : ReconcileContributorCheckpointInput} {target : PhaseMeasurement} :
    input.target = .ok target ↔
      ((runRecords input.records input.feature input.runId).find? fun record =>
        record.phase = input.phase) = some target ∧
      ∃ occurredAt startedAt, timestampOrderKey input.occurredAt = some occurredAt ∧
        target.startKey = some startedAt ∧ startedAt ≤ occurredAt ∧
        isCount input.cumulativeGrossTokens = true ∧ isCount input.expectedRunGrossTokens = true := by
  unfold ReconcileContributorCheckpointInput.target
  dsimp only
  constructor
  · intro found
    split at found
    · rename_i record occurredAt startedAt search occurred started
      obtain ⟨checked, same⟩ := guard_ok_iff.mp found
      obtain rfl := Except.ok.inj same
      simp only [not_or, not_lt, Bool.not_eq_false] at checked
      rw [search] at started
      exact ⟨search, occurredAt, startedAt, occurred, started, checked⟩
    · cases found
  · rintro ⟨search, occurredAt, startedAt, occurred, started, checked⟩
    rw [search, occurred, Option.bind_some, started]
    refine guard_ok_iff.mpr ⟨?_, rfl⟩
    simpa only [not_or, not_lt, Bool.not_eq_false] using checked

theorem target_ok {input : ReconcileContributorCheckpointInput} {target : PhaseMeasurement}
    (found : input.target = .ok target) :
    target ∈ runRecords input.records input.feature input.runId ∧ target.phase = input.phase := by
  have search := (target_ok_iff.mp found).1
  exact ⟨List.mem_of_find?_eq_some search, by simpa using List.find?_some search⟩

variable {input : ReconcileContributorCheckpointInput} {target next : PhaseMeasurement}

theorem claimed_ok {claimed : PhaseMeasurement} (claim : input.claimed precedes target = .ok claimed) :
    SamePlace target claimed ∧
      claimed.contributorCheckpoints = target.contributorCheckpoints := by
  unfold ReconcileContributorCheckpointInput.claimed at claim
  by_cases claims : input.claimContributor = true
  · rw [if_pos claims] at claim
    obtain ⟨same, checkpoints, -⟩ := addPhaseMeasurementContributor_ok claim
    exact ⟨same, checkpoints⟩
  · rw [if_neg claims] at claim
    obtain rfl := Except.ok.inj claim
    exact ⟨.refl _, rfl⟩

theorem mapGet_sessionTotals {checkpoints : List ContributorCheckpoint}
    (unique : (checkpoints.map ContributorCheckpoint.sessionId).Nodup) (sessionId : JsString) :
    mapGet (sessionTotals checkpoints) sessionId =
      (checkpoints.find? fun checkpoint => checkpoint.sessionId = sessionId).map
        ContributorCheckpoint.cumulativeGrossTokens := by
  have keys : ((sessionTotals checkpoints).map Prod.fst).Nodup := by
    rw [sessionTotals, List.map_map]
    exact unique
  cases search : checkpoints.find? fun checkpoint => checkpoint.sessionId = sessionId with
  | none =>
      apply mapGet_eq_none_iff.mpr
      rw [sessionTotals, List.map_map]
      intro member
      obtain ⟨checkpoint, inside, same⟩ := List.mem_map.mp member
      exact absurd (decide_eq_true same) (by simpa using List.find?_eq_none.mp search _ inside)
  | some checkpoint =>
      have own : checkpoint.sessionId = sessionId := by simpa using List.find?_some search
      refine mapGet_of_mem keys (List.mem_map.mpr ⟨checkpoint, List.mem_of_find?_eq_some search, ?_⟩)
      rw [own]

theorem hasValidCheckpointState_unique {record : PhaseMeasurement}
    (valid : hasValidCheckpointState precedes record = true) :
    (record.contributorCheckpoints.map ContributorCheckpoint.sessionId).Nodup := by
  unfold hasValidCheckpointState at valid
  dsimp only at valid
  split at valid
  · cases valid
  · simp only [Bool.and_eq_true, decide_eq_true_eq] at valid
    exact valid.1.1.2

private theorem mapGet_sortCheckpoints {checkpoints : List ContributorCheckpoint}
    (unique : (checkpoints.map ContributorCheckpoint.sessionId).Nodup) (sessionId : JsString) :
    mapGet (sessionTotals (sortCheckpoints precedes checkpoints)) sessionId =
      mapGet (sessionTotals checkpoints) sessionId := by
  have same : (sortCheckpoints precedes checkpoints).Perm checkpoints :=
    List.perm_insertionSort _ _
  have sortedUnique : ((sessionTotals (sortCheckpoints precedes checkpoints)).map Prod.fst).Nodup := by
    rw [sessionTotals, List.map_map]
    exact (same.map _).nodup_iff.mpr unique
  have keys : ((sessionTotals checkpoints).map Prod.fst).Nodup := by
    rw [sessionTotals, List.map_map]
    exact unique
  have totals : (sessionTotals (sortCheckpoints precedes checkpoints)).Perm
      (sessionTotals checkpoints) := same.map _
  apply Option.ext
  intro total
  constructor
  · intro found
    exact mapGet_of_mem keys (totals.mem_iff.mp (mapGet_mem found))
  · intro found
    exact mapGet_of_mem sortedUnique (totals.mem_iff.mpr (mapGet_mem found))

private theorem mapGet_placed {checkpoints : List ContributorCheckpoint}
    (unique : (checkpoints.map ContributorCheckpoint.sessionId).Nodup)
    (unseen : ¬ ((checkpoints.find? fun checkpoint => checkpoint.sessionId = input.sessionId).any
      fun checkpoint => decide (input.cumulativeGrossTokens ≤ checkpoint.cumulativeGrossTokens)) = true)
    (sessionId : JsString) :
    mapGet (sessionTotals (input.placed precedes checkpoints)) sessionId =
      if sessionId = input.sessionId then
        some (max input.cumulativeGrossTokens
          ((mapGet (sessionTotals checkpoints) sessionId).getD 0))
      else mapGet (sessionTotals checkpoints) sessionId := by
  have others : ∀ checkpoint ∈ checkpoints.filter fun checkpoint =>
      checkpoint.sessionId ≠ input.sessionId, checkpoint.sessionId ≠ input.sessionId := by
    intro checkpoint member
    simpa using (List.mem_filter.mp member).2
  have placedUnique : (((checkpoints.filter fun checkpoint =>
      checkpoint.sessionId ≠ input.sessionId) ++ [input.checkpoint]).map
        ContributorCheckpoint.sessionId).Nodup := by
    rw [List.map_append, List.nodup_append]
    refine ⟨unique.sublist (List.filter_sublist.map _), List.nodup_singleton _, ?_⟩
    intro one member other single
    obtain rfl := List.mem_singleton.mp single
    obtain ⟨checkpoint, inside, rfl⟩ := List.mem_map.mp member
    exact others checkpoint inside
  rw [ReconcileContributorCheckpointInput.placed, mapGet_sortCheckpoints placedUnique,
    sessionTotals, List.map_append, List.map_singleton, mapGet_concat]
  have named : input.checkpoint.sessionId = input.sessionId := rfl
  have counted : input.checkpoint.cumulativeGrossTokens = input.cumulativeGrossTokens := rfl
  by_cases own : sessionId = input.sessionId
  · subst own
    rw [if_pos named, if_pos rfl, mapGet_sessionTotals unique, counted]
    cases search : checkpoints.find? fun checkpoint => checkpoint.sessionId = input.sessionId with
    | none => simp
    | some checkpoint =>
        rw [search] at unseen
        have below : checkpoint.cumulativeGrossTokens < input.cumulativeGrossTokens := by
          simpa using unseen
        simp only [Option.map_some, Option.getD_some, Nat.max_eq_left below.le]
  · rw [if_neg (named ▸ Ne.symm own), if_neg own]
    change mapGet (sessionTotals (checkpoints.filter _)) sessionId = _
    rw [mapGet_sessionTotals (unique.sublist (List.filter_sublist.map _)),
      mapGet_sessionTotals unique, List.find?_filter]
    congr 2
    funext checkpoint
    by_cases here : checkpoint.sessionId = sessionId
    · simp [here, own]
    · simp [here]

/-- The next target shows, for the session, the greater of its total and the delivered one. -/
theorem nextTarget_ok (unique : (target.contributorCheckpoints.map
      ContributorCheckpoint.sessionId).Nodup)
    (staged : input.nextTarget precedes target = .ok next) :
    SamePlace target next ∧
      ∀ sessionId, mapGet (sessionTotals next.contributorCheckpoints) sessionId =
        if sessionId = input.sessionId then
          some (max input.cumulativeGrossTokens
            ((mapGet (sessionTotals target.contributorCheckpoints) sessionId).getD 0))
        else mapGet (sessionTotals target.contributorCheckpoints) sessionId := by
  unfold ReconcileContributorCheckpointInput.nextTarget at staged
  obtain ⟨claimed, claim, staged⟩ := bind_ok_iff.mp staged
  obtain ⟨same, checkpoints⟩ := claimed_ok claim
  dsimp only at staged
  rw [checkpoints] at staged
  split at staged
  · rename_i seen
    obtain rfl := Except.ok.inj staged
    refine ⟨same, fun sessionId => ?_⟩
    rw [checkpoints]
    by_cases own : sessionId = input.sessionId
    · subst own
      rw [if_pos rfl, mapGet_sessionTotals unique]
      cases search : target.contributorCheckpoints.find? fun checkpoint =>
          checkpoint.sessionId = input.sessionId with
      | none =>
          rw [search] at seen
          cases seen
      | some checkpoint =>
          rw [search] at seen
          have reached : input.cumulativeGrossTokens ≤ checkpoint.cumulativeGrossTokens := by
            simpa using seen
          simp only [Option.map_some, Option.getD_some, Nat.max_eq_right reached]
    · rw [if_neg own]
  · rename_i unseen
    obtain ⟨updatedAt, -, written⟩ := bind_ok_iff.mp staged
    obtain rfl := Except.ok.inj written
    refine ⟨⟨same.feature, same.runId, same.phase, same.startedAt, same.closing, same.baseline,
      same.gross⟩, fun sessionId => ?_⟩
    exact mapGet_placed unique unseen sessionId

end Target

section Delivery

variable {input : ReconcileContributorCheckpointInput}

def ReconcileContributorCheckpointInput.own (input : ReconcileContributorCheckpointInput) :
    List PhaseMeasurement :=
  runRecords input.records input.feature input.runId

def stage (target next record : PhaseMeasurement) : PhaseMeasurement :=
  if record = target then next else record

theorem stage_samePlace {target next : PhaseMeasurement} (same : SamePlace target next)
    (record : PhaseMeasurement) : SamePlace record (stage target next record) := by
  unfold stage
  by_cases here : record = target
  · rw [if_pos here, here]
    exact same
  · rw [if_neg here]
    exact .refl record

/-- A staged record with its residual and its new allocation. -/
def settle (target next : PhaseMeasurement) (old new : PhaseMeasurement → Nat)
    (record : PhaseMeasurement) : PhaseMeasurement :=
  (stage target next record).withGrossTokens
    (record.grossTokens - old record + new (stage target next record))

/-- Everything an accepted delivery has checked and what it returns. -/
structure Delivered (precedes : JsString → JsString → Prop) [DecidableRel precedes]
    (input : ReconcileContributorCheckpointInput) (result : List PhaseMeasurement)
    (target next : PhaseMeasurement) (old new : PhaseMeasurement → Nat) (baseline : Nat) : Prop where
  before : assertValidMeasurementSet precedes input.records = .ok ()
  found : input.target = .ok target
  allocated : checkpointAllocations precedes input.own = .ok old
  residual : ∀ record ∈ input.own, isCount ((record.grossTokens : Int) - old record) = true
  staged : input.nextTarget precedes target = .ok next
  stagedValid : hasValidCheckpointState precedes next = true
  reallocated : checkpointAllocations precedes (input.own.map (stage target next)) = .ok new
  reconciled : ∀ record ∈ input.own,
    isCount (record.grossTokens - old record + new (stage target next record) : Nat) = true ∧
      hasValidMeasurementSemantics precedes (settle target next old new record) = true
  earliest : earliestRunBaseline (input.own.map (stage target next)) = .ok baseline
  measurable : isCount ((input.expectedRunGrossTokens : Int) - baseline) = true
  conserved : (((input.own.map (settle target next old new)).map PhaseMeasurement.grossTokens).sum : Int) =
    input.expectedRunGrossTokens - baseline
  returned : result = input.records.map fun record =>
    if input.isRun record then settle target next old new record else record
  after : assertValidMeasurementSet precedes result = .ok ()

theorem runRecords_map {records : List PhaseMeasurement} {change : PhaseMeasurement → PhaseMeasurement}
    (featured : ∀ record, (change record).feature = record.feature)
    (run : ∀ record, (change record).runId = record.runId) (feature runId : JsString) :
    runRecords (records.map change) feature runId = (runRecords records feature runId).map change := by
  rw [runRecords, runRecords, List.filter_map]
  congr 1
  apply List.filter_congr
  intro record _
  simp only [Function.comp, featured, run]

private theorem residualOf_ok_iff {allocations : PhaseMeasurement → Nat} {record : PhaseMeasurement}
    {entry : RunPhase × Nat} :
    residualOf allocations record = .ok entry ↔
      isCount ((record.grossTokens : Int) - allocations record) = true ∧
        entry = (record.phase, record.grossTokens - allocations record) := by
  unfold residualOf
  dsimp only
  rw [guard_ok_iff, Bool.not_eq_false, Except.ok.injEq, Int.toNat_sub]
  exact and_congr_right fun _ => eq_comm

private theorem reconciledRecord_ok_iff {residuals : List (RunPhase × Nat)}
    {allocations : PhaseMeasurement → Nat} {record : PhaseMeasurement}
    {entry : RunPhase × PhaseMeasurement} :
    reconciledRecord precedes residuals allocations record = .ok entry ↔
      (isCount ((mapGet residuals record.phase).getD 0 + allocations record : Nat) = true ∧
        hasValidMeasurementSemantics precedes (record.withGrossTokens
          ((mapGet residuals record.phase).getD 0 + allocations record)) = true) ∧
        entry = (record.phase, record.withGrossTokens
          ((mapGet residuals record.phase).getD 0 + allocations record)) := by
  unfold reconciledRecord
  dsimp only
  rw [guard_ok_iff, guard_ok_iff, Bool.not_eq_false, Bool.not_eq_false, Except.ok.injEq, and_assoc]
  exact and_congr_right fun _ => and_congr_right fun _ => eq_comm

private theorem mapGet_phase {α : Type} {records : List PhaseMeasurement}
    (phases : (records.map PhaseMeasurement.phase).Nodup) (value : PhaseMeasurement → α)
    {record : PhaseMeasurement} (member : record ∈ records) :
    mapGet (records.map fun record => (record.phase, value record)) record.phase =
      some (value record) := by
  apply mapGet_of_mem
  · rw [List.map_map]
    exact phases
  · exact List.mem_map_of_mem (f := fun record => (record.phase, value record)) member

section Staging

variable {target next : PhaseMeasurement} {old new : PhaseMeasurement → Nat}

private theorem settled_entries_iff (keyed : Keyed input.records) (same : SamePlace target next)
    {entries : List (RunPhase × PhaseMeasurement)} :
    (input.own.map (stage target next)).mapM (reconciledRecord precedes
        (input.own.map fun record => (record.phase, record.grossTokens - old record)) new) =
      .ok entries ↔
      (∀ record ∈ input.own,
        isCount (record.grossTokens - old record + new (stage target next record) : Nat) = true ∧
          hasValidMeasurementSemantics precedes (settle target next old new record) = true) ∧
        entries = input.own.map fun record => (record.phase, settle target next old new record) := by
  have phases : (input.own.map PhaseMeasurement.phase).Nodup := keyed.phases _ _
  have residual : ∀ record ∈ input.own, mapGet (input.own.map fun record =>
      (record.phase, record.grossTokens - old record)) (stage target next record).phase =
        some (record.grossTokens - old record) := by
    intro record member
    rw [(stage_samePlace same record).phase]
    exact mapGet_phase phases (fun record => record.grossTokens - old record) member
  rw [mapM_ok_map_iff fun _ _ _ => reconciledRecord_ok_iff, List.forall_mem_map, List.map_map]
  have values : (input.own.map ((fun record => (record.phase, record.withGrossTokens
      ((mapGet (input.own.map fun record => (record.phase, record.grossTokens - old record))
        record.phase).getD 0 + new record))) ∘ stage target next)) =
      input.own.map fun record => (record.phase, settle target next old new record) := by
    apply List.map_congr_left
    intro record member
    simp only [Function.comp, residual record member, Option.getD_some, settle]
    rw [(stage_samePlace same record).phase]
  rw [values]
  apply and_congr_left'
  constructor
  · intro all record member
    have one := all record member
    rw [residual record member, Option.getD_some] at one
    exact one
  · intro all record member
    rw [residual record member, Option.getD_some]
    exact all record member

private theorem settled_records (old new : PhaseMeasurement → Nat) (keyed : Keyed input.records)
    (same : SamePlace target next) (inside : target ∈ input.own) :
    ((input.records.map (stage target next)).map fun record =>
      if input.isRun record then
        (mapGet (input.own.map fun record => (record.phase, settle target next old new record))
          record.phase).getD record
      else record) =
      input.records.map fun record =>
        if input.isRun record then settle target next old new record else record := by
  have phases : (input.own.map PhaseMeasurement.phase).Nodup := keyed.phases _ _
  rw [List.map_map]
  apply List.map_congr_left
  intro record member
  have place := stage_samePlace same record
  have run : input.isRun (stage target next record) ↔ input.isRun record := by
    rw [ReconcileContributorCheckpointInput.isRun, place.feature, place.runId]
    rfl
  by_cases own : input.isRun record
  · have ownMember : record ∈ input.own := mem_runRecords.mpr ⟨member, own⟩
    simp only [Function.comp, if_pos (run.mpr own), if_pos own, place.phase]
    rw [mapGet_phase phases (settle target next old new) ownMember, Option.getD_some]
  · simp only [Function.comp, if_neg (own ∘ run.mp), if_neg own]
    rw [stage, if_neg]
    rintro rfl
    exact own (mem_runRecords.mp inside).2

end Staging

/-- The whole delivery: what was checked on the way and the records it returns. -/
theorem reconcile_ok_iff {result : List PhaseMeasurement} (keyed : Keyed input.records) :
    reconcileContributorCheckpoint precedes input = .ok result ↔
      ∃ target next old new baseline,
        Delivered precedes input result target next old new baseline := by
  have samePlace : ∀ {target next old}, input.target = .ok target →
      checkpointAllocations precedes input.own = .ok old →
      input.nextTarget precedes target = .ok next → SamePlace target next := by
    intro target next old found allocated staged
    have valid := (checkpointAllocations_ok allocated).1 target (target_ok found).1
    exact (nextTarget_ok (hasValidCheckpointState_unique valid) staged).1
  have stagedRun : ∀ {target next}, SamePlace target next →
      runRecords (input.records.map (stage target next)) input.feature input.runId =
        input.own.map (stage target next) := fun same =>
    runRecords_map (fun record => (stage_samePlace same record).feature)
      (fun record => (stage_samePlace same record).runId) _ _
  have values : ∀ target next old new, mapValues (input.own.map fun record =>
      (record.phase, settle target next old new record)) =
        input.own.map (settle target next old new) := by
    intro target next old new
    rw [mapValues_of_nodup]
    · rw [List.map_map]
      rfl
    · rw [List.map_map]
      exact keyed.phases _ _
  unfold reconcileContributorCheckpoint
  constructor
  · intro done
    obtain ⟨⟨⟩, before, done⟩ := bind_ok_iff.mp done
    obtain ⟨target, found, done⟩ := bind_ok_iff.mp done
    obtain ⟨old, allocated, done⟩ := bind_ok_iff.mp done
    obtain ⟨residuals, residual, done⟩ := bind_ok_iff.mp done
    obtain ⟨next, staged, done⟩ := bind_ok_iff.mp done
    obtain ⟨stagedValid, done⟩ := guard_ok_iff.mp done
    obtain ⟨new, reallocated, done⟩ := bind_ok_iff.mp done
    obtain ⟨entries, reconciled, done⟩ := bind_ok_iff.mp done
    obtain ⟨baseline, earliest, done⟩ := bind_ok_iff.mp done
    obtain ⟨conserved, done⟩ := guard_ok_iff.mp done
    obtain ⟨⟨⟩, after, done⟩ := bind_ok_iff.mp done
    obtain rfl := Except.ok.inj done
    have same := samePlace found allocated staged
    change List.mapM _ (runRecords (input.records.map (stage target next)) _ _) = _ at reconciled
    change checkpointAllocations precedes
      (runRecords (input.records.map (stage target next)) _ _) = _ at reallocated
    change earliestRunBaseline (runRecords (input.records.map (stage target next)) _ _) = _ at earliest
    rw [stagedRun same] at reconciled reallocated earliest
    obtain ⟨counted, rfl⟩ := (mapM_ok_map_iff fun _ _ _ => residualOf_ok_iff).mp residual
    obtain ⟨settled, rfl⟩ := (settled_entries_iff keyed same).mp reconciled
    rw [values] at conserved
    push Not at conserved
    have returned := settled_records old new keyed same (target_ok found).1
    exact ⟨target, next, old, new, baseline, before, found, allocated, counted, staged,
      by simpa using stagedValid, reallocated, settled, earliest, by simpa using conserved.1,
      conserved.2, returned, after⟩
  · rintro ⟨target, next, old, new, baseline, d⟩
    have same := samePlace d.found d.allocated d.staged
    have residual := (mapM_ok_map_iff fun _ _ _ => residualOf_ok_iff).mpr ⟨d.residual, rfl⟩
    have reconciled := (settled_entries_iff keyed same).mpr ⟨d.reconciled, rfl⟩
    have conserved : ¬ (isCount ((input.expectedRunGrossTokens : Int) - baseline) = false ∨
        (((mapValues (input.own.map fun record => (record.phase,
          settle target next old new record))).map PhaseMeasurement.grossTokens).sum : Int) ≠
            input.expectedRunGrossTokens - baseline) := by
      rw [values]
      push Not
      exact ⟨by simpa using d.measurable, d.conserved⟩
    have returned := settled_records old new keyed same (target_ok d.found).1
    refine bind_ok_iff.mpr ⟨(), d.before, ?_⟩
    refine bind_ok_iff.mpr ⟨target, d.found, ?_⟩
    refine bind_ok_iff.mpr ⟨old, d.allocated, ?_⟩
    refine bind_ok_iff.mpr ⟨_, residual, ?_⟩
    refine bind_ok_iff.mpr ⟨next, d.staged, ?_⟩
    refine guard_ok_iff.mpr ⟨by simpa using d.stagedValid, ?_⟩
    refine bind_ok_iff.mpr ⟨new, (congrArg _ (stagedRun same)).trans d.reallocated, ?_⟩
    refine bind_ok_iff.mpr ⟨_, (congrArg _ (stagedRun same)).trans reconciled, ?_⟩
    refine bind_ok_iff.mpr ⟨baseline, (congrArg _ (stagedRun same)).trans d.earliest, ?_⟩
    refine guard_ok_iff.mpr ⟨conserved, ?_⟩
    have final := returned.trans d.returned.symm
    refine bind_ok_iff.mpr ⟨(), (congrArg _ final).trans d.after, ?_⟩
    exact congrArg Except.ok final

end Delivery

end Kratos.Measurements
