/- source: domain/measurements/index.ts
   digest: Accepted checkpoints conserve tokens, settle at once and commute. -/

import Kratos.Measurements.Reconciliation

set_option autoImplicit false

namespace Kratos.Measurements

open Foundation.Text Foundation.Collections Foundation.Counters Foundation.Runs Foundation.Sorting

variable {precedes : JsString → JsString → Prop} [DecidableRel precedes]
  {input : ReconcileContributorCheckpointInput} {result : List PhaseMeasurement}
  {target next : PhaseMeasurement} {old new : PhaseMeasurement → Nat} {baseline : Nat}

section Settled

@[simp] theorem withGrossTokens_gross (record : PhaseMeasurement) (n : Nat) :
    (record.withGrossTokens n).grossTokens = n := rfl

@[simp] theorem withGrossTokens_interval (record : PhaseMeasurement) (n : Nat) :
    (record.withGrossTokens n).interval = record.interval := rfl

theorem withGrossTokens_again (record : PhaseMeasurement) (n : Nat) :
    (record.withGrossTokens n).withGrossTokens n = record.withGrossTokens n := by
  unfold PhaseMeasurement.withGrossTokens
  cases record.closing <;> rfl

theorem Delivered.samePlace (d : Delivered precedes input result target next old new baseline) :
    SamePlace target next :=
  (nextTarget_ok (hasValidCheckpointState_unique
    ((checkpointAllocations_ok d.allocated).1 target (target_ok d.found).1)) d.staged).1

theorem settle_feature (same : SamePlace target next) (record : PhaseMeasurement) :
    (settle target next old new record).feature = record.feature :=
  (stage_samePlace same record).feature

theorem settle_runId (same : SamePlace target next) (record : PhaseMeasurement) :
    (settle target next old new record).runId = record.runId :=
  (stage_samePlace same record).runId

theorem settle_phase (same : SamePlace target next) (record : PhaseMeasurement) :
    (settle target next old new record).phase = record.phase :=
  (stage_samePlace same record).phase

theorem settle_startedAt (same : SamePlace target next) (record : PhaseMeasurement) :
    (settle target next old new record).startedAt = record.startedAt :=
  (stage_samePlace same record).startedAt

/-- The run of the result: the records of the run settled, in their places. -/
theorem Delivered.own_result (d : Delivered precedes input result target next old new baseline) :
    runRecords result input.feature input.runId = input.own.map (settle target next old new) := by
  have same := d.samePlace
  rw [d.returned, runRecords_map]
  · apply List.map_congr_left
    intro record member
    exact if_pos (mem_runRecords.mp member).2
  · intro record
    split
    · exact settle_feature same record
    · rfl
  · intro record
    split
    · exact settle_runId same record
    · rfl

theorem Delivered.keyed (d : Delivered precedes input result target next old new baseline)
    (keyed : Keyed input.records) : Keyed result := by
  have same := d.samePlace
  have keys : (result.map fun record => (record.runId, record.phase)) =
      input.records.map fun record => (record.runId, record.phase) := by
    rw [d.returned, List.map_map]
    apply List.map_congr_left
    intro record _
    dsimp only [Function.comp]
    split
    · rw [settle_runId same, settle_phase same]
    · rfl
  unfold Keyed
  rw [keys]
  exact keyed

theorem Delivered.after_allocations
    (d : Delivered precedes input result target next old new baseline)
    (keyed : Keyed input.records) :
    ∃ after, checkpointAllocations precedes (runRecords result input.feature input.runId) =
        .ok after ∧
      ∀ record ∈ input.own, after (settle target next old new record) =
        new (stage target next record) := by
  have same := d.samePlace
  have targetMember := (target_ok d.found).1
  have targetOwn := (mem_runRecords.mp targetMember).2
  have inResult : settle target next old new target ∈ runRecords result input.feature input.runId := by
    rw [d.own_result]
    exact List.mem_map_of_mem targetMember
  obtain ⟨after, allocated⟩ := allocations_of_valid d.after (mem_runRecords.mp inResult).1
  rw [settle_feature same, settle_runId same, targetOwn.1, targetOwn.2] at allocated
  refine ⟨after, allocated, fun record member => ?_⟩
  have unique : (runRecords result input.feature input.runId).Nodup :=
    ((d.keyed keyed).phases input.feature input.runId).of_map
  have settled := (checkpointAllocations_ok allocated).2 unique
    (settle target next old new record) (by rw [d.own_result]; exact List.mem_map_of_mem member)
  have stagedUnique : (input.own.map (stage target next)).Nodup := by
    have phases : (input.own.map PhaseMeasurement.phase).Nodup := keyed.phases _ _
    have same' : (input.own.map (stage target next)).map PhaseMeasurement.phase =
        input.own.map PhaseMeasurement.phase := by
      rw [List.map_map]
      apply List.map_congr_left
      intro other _
      exact (stage_samePlace same other).phase
    exact (same' ▸ phases).of_map
  have staged := (checkpointAllocations_ok d.reallocated).2 stagedUnique (stage target next record)
    (List.mem_map_of_mem member)
  rw [settled, staged, d.own_result, ledgerOf, ledgerOf, List.map_map, List.map_map]
  rfl

/-- Every residual stays: the tokens of a record change by what its allocation does. -/
theorem Delivered.residual_kept (d : Delivered precedes input result target next old new baseline)
    {record : PhaseMeasurement} (member : record ∈ input.own) :
    old record ≤ record.grossTokens ∧
      (settle target next old new record).grossTokens + old record =
        record.grossTokens + new (stage target next record) := by
  have counted := d.residual record member
  have within : old record ≤ record.grossTokens := by
    rw [isCount, decide_eq_true_eq] at counted
    omega
  refine ⟨within, ?_⟩
  rw [settle, withGrossTokens_gross]
  omega

theorem Delivered.earliest_result (d : Delivered precedes input result target next old new baseline) :
    earliestRunBaseline (runRecords result input.feature input.runId) = .ok baseline := by
  have same := d.samePlace
  have staged := d.earliest
  rw [earliestRunBaseline_map (fun record => (stage_samePlace same record).startedAt)
    (fun record => (stage_samePlace same record).phase)
    (fun record => (stage_samePlace same record).baseline)] at staged
  rw [d.own_result, earliestRunBaseline_map (settle_startedAt same) (settle_phase same)
    (fun record => (stage_samePlace same record).baseline)]
  exact staged

theorem Delivered.total (d : Delivered precedes input result target next old new baseline) :
    baseline + ((runRecords result input.feature input.runId).map PhaseMeasurement.grossTokens).sum =
      input.expectedRunGrossTokens := by
  have conserved := d.conserved
  rw [d.own_result]
  omega

end Settled

section Redelivery

theorem contributors_canonical {record : PhaseMeasurement}
    (valid : hasValidMeasurementSemantics precedes record = true) :
    sortedUnique precedes record.contributingSessionIds = record.contributingSessionIds ∧
      record.contributingSessionIds ≠ [] ∧
      record.contributingSessionIds.length ≤ maxPhaseMeasurementContributors := by
  unfold hasValidMeasurementSemantics at valid
  rw [Bool.and_eq_true, Bool.and_eq_true] at valid
  have owned := valid.1.1
  unfold hasValidContributorOwnership at owned
  simp only [Bool.and_eq_true, decide_eq_true_eq] at owned
  obtain ⟨⟨⟨some, few⟩, -⟩, canonical⟩ := owned
  rw [canonical] at some few
  exact ⟨canonical, List.length_pos_iff.mp some, few⟩

theorem claimed_contributor {claimed : PhaseMeasurement}
    (claim : input.claimed precedes target = .ok claimed) (claims : input.claimContributor = true) :
    input.sessionId ∈ claimed.contributingSessionIds := by
  unfold ReconcileContributorCheckpointInput.claimed at claim
  rw [if_pos claims] at claim
  obtain ⟨-, -, ids⟩ := addPhaseMeasurementContributor_ok claim
  rw [ids, mem_sortedUnique]
  simp

theorem nextTarget_contributors (staged : input.nextTarget precedes target = .ok next) :
    ∃ claimed, input.claimed precedes target = .ok claimed ∧
      next.contributingSessionIds = claimed.contributingSessionIds := by
  unfold ReconcileContributorCheckpointInput.nextTarget at staged
  obtain ⟨claimed, claim, staged⟩ := bind_ok_iff.mp staged
  refine ⟨claimed, claim, ?_⟩
  dsimp only at staged
  split at staged
  · obtain rfl := Except.ok.inj staged
    rfl
  · obtain ⟨updatedAt, -, written⟩ := bind_ok_iff.mp staged
    obtain rfl := Except.ok.inj written
    rfl

private theorem nextTarget_again {record : PhaseMeasurement}
    (meaningful : hasValidMeasurementSemantics precedes record = true)
    (contributes : input.claimContributor = true → input.sessionId ∈ record.contributingSessionIds)
    (seen : ∃ total, mapGet (sessionTotals record.contributorCheckpoints) input.sessionId =
      some total ∧ input.cumulativeGrossTokens ≤ total) :
    input.nextTarget precedes record = .ok record := by
  obtain ⟨canonical, some, few⟩ := contributors_canonical meaningful
  have claim : input.claimed precedes record = .ok record := by
    unfold ReconcileContributorCheckpointInput.claimed
    by_cases claims : input.claimContributor = true
    · rw [if_pos claims]
      unfold addPhaseMeasurementContributor
      rw [sortedUnique_concat_of_mem canonical (contributes claims), if_neg]
      push Not
      exact ⟨some, few⟩
    · rw [if_neg claims]
  have unique : (record.contributorCheckpoints.map ContributorCheckpoint.sessionId).Nodup := by
    unfold hasValidMeasurementSemantics at meaningful
    rw [Bool.and_eq_true, Bool.and_eq_true] at meaningful
    exact hasValidCheckpointState_unique meaningful.1.2
  obtain ⟨total, found, reached⟩ := seen
  rw [mapGet_sessionTotals unique] at found
  obtain ⟨checkpoint, search, rfl⟩ := Option.map_eq_some_iff.mp found
  unfold ReconcileContributorCheckpointInput.nextTarget
  refine bind_ok_iff.mpr ⟨record, claim, ?_⟩
  dsimp only
  rw [search, if_pos (by simpa using reached)]

private theorem stage_self (target record : PhaseMeasurement) : stage target target record = record := by
  unfold stage
  split
  · rename_i here
    exact here.symm
  · rfl

theorem Delivered.again (d : Delivered precedes input result target next old new baseline)
    (keyed : Keyed input.records) :
    reconcileContributorCheckpoint precedes { input with records := result } = .ok result := by
  have same := d.samePlace
  have targetMember := (target_ok d.found).1
  obtain ⟨after, allocated, alike⟩ := d.after_allocations keyed
  have own : ({ input with records := result } : ReconcileContributorCheckpointInput).own =
      input.own.map (settle target next old new) := d.own_result
  have kept : ∀ record ∈ input.own, after (settle target next old new record) ≤
        (settle target next old new record).grossTokens ∧
      (settle target next old new record).grossTokens -
        after (settle target next old new record) = record.grossTokens - old record := by
    intro record member
    have residual := d.residual_kept member
    rw [alike record member]
    omega
  have unmoved : ∀ record ∈ input.own,
      settle (settle target next old new target) (settle target next old new target) after after
        (settle target next old new record) = settle target next old new record := by
    intro record member
    have reached := (kept record member).1
    rw [settle, stage_self, Nat.sub_add_cancel reached]
    exact withGrossTokens_again _ _
  have meaningful := (d.reconciled target targetMember).2
  have staged : next.contributingSessionIds =
      (settle target next old new target).contributingSessionIds := by
    rw [settle, stage, if_pos rfl]
    rfl
  have contributes : input.claimContributor = true →
      input.sessionId ∈ (settle target next old new target).contributingSessionIds := by
    intro claims
    obtain ⟨claimed, claim, ids⟩ := nextTarget_contributors d.staged
    rw [← staged, ids]
    exact claimed_contributor claim claims
  have unique := hasValidCheckpointState_unique ((checkpointAllocations_ok d.allocated).1 target targetMember)
  have seen : ∃ total, mapGet (sessionTotals (settle target next old new target).contributorCheckpoints)
      input.sessionId = some total ∧ input.cumulativeGrossTokens ≤ total := by
    have shown := (nextTarget_ok unique d.staged).2 input.sessionId
    rw [if_pos rfl] at shown
    have checkpoints : (settle target next old new target).contributorCheckpoints =
        next.contributorCheckpoints := by
      rw [settle, stage, if_pos rfl]
      rfl
    rw [checkpoints]
    exact ⟨_, shown, Nat.le_max_left _ _⟩
  have stateValid : hasValidCheckpointState precedes (settle target next old new target) = true := by
    unfold hasValidMeasurementSemantics at meaningful
    rw [Bool.and_eq_true, Bool.and_eq_true] at meaningful
    exact meaningful.1.2
  have identity : (input.own.map (settle target next old new)).map
      (stage (settle target next old new target) (settle target next old new target)) =
        input.own.map (settle target next old new) := by
    rw [List.map_map]
    apply List.map_congr_left
    intro record _
    exact stage_self _ _
  have settledAgain : (input.own.map (settle target next old new)).map
      (settle (settle target next old new target) (settle target next old new target) after after) =
        input.own.map (settle target next old new) := by
    rw [List.map_map]
    exact List.map_congr_left unmoved
  refine (reconcile_ok_iff (d.keyed keyed)).mpr
    ⟨settle target next old new target, settle target next old new target, after, after, baseline, ?_⟩
  constructor
  · exact d.after
  · obtain ⟨search, occurredAt, startedAt, occurred, started, checked⟩ := target_ok_iff.mp d.found
    refine target_ok_iff.mpr ⟨?_, occurredAt, startedAt, occurred, ?_, checked⟩
    · change (runRecords result input.feature input.runId).find? _ = _
      rw [d.own_result, List.find?_map]
      have phase : ((fun record => decide (record.phase = input.phase)) ∘ settle target next old new) =
          fun record => decide (record.phase = input.phase) := by
        funext record
        simp only [Function.comp, settle_phase same]
      rw [phase]
      exact congrArg (Option.map _) search
    · rw [PhaseMeasurement.startKey, settle_startedAt same]
      exact started
  · exact allocated
  · rw [own]
    intro record member
    obtain ⟨record, inside, rfl⟩ := List.mem_map.mp member
    have residual := d.residual record inside
    have both := kept record inside
    have within := (d.residual_kept inside).1
    have equal : ((settle target next old new record).grossTokens : Int) -
        after (settle target next old new record) = record.grossTokens - old record := by
      omega
    rw [equal]
    exact residual
  · exact nextTarget_again meaningful contributes seen
  · exact stateValid
  · rw [own, identity, ← d.own_result]
    exact allocated
  · rw [own]
    intro record member
    obtain ⟨record, inside, rfl⟩ := List.mem_map.mp member
    rw [unmoved record inside, stage_self]
    refine ⟨?_, (d.reconciled record inside).2⟩
    rw [Nat.sub_add_cancel (kept record inside).1]
    exact (d.reconciled record inside).1
  · rw [own, identity, ← d.own_result]
    exact d.earliest_result
  · exact d.measurable
  · rw [own, settledAgain]
    exact d.conserved
  · refine (List.map_id result).symm.trans (List.map_congr_left ?_)
    intro record member
    by_cases run : input.isRun record
    · have ownMember : record ∈ runRecords result input.feature input.runId :=
        mem_runRecords.mpr ⟨member, run⟩
      rw [d.own_result] at ownMember
      obtain ⟨settled, inside, rfl⟩ := List.mem_map.mp ownMember
      exact ((if_pos run).trans (unmoved settled inside)).symm
    · exact (if_neg run).symm
  · exact d.after

end Redelivery

section Order

/-- What one accepted delivery does to the records of its run, seen from their intervals. -/
structure Moved (phase : RunPhase) (sessionId : JsString) (total : Nat)
    (before after : List PhaseMeasurement) (change : PhaseMeasurement → PhaseMeasurement) : Prop where
  mapped : after = before.map change
  samePhase : ∀ record, (change record).phase = record.phase
  start : ∀ record, (change record).interval.start = record.interval.start
  keys : ∀ record ∈ before, ((change record).interval.totals.map Prod.fst).Nodup
  totals : ∀ record ∈ before, ∀ session, mapGet (change record).interval.totals session =
    if record.phase = phase ∧ session = sessionId then
      some (max total ((mapGet record.interval.totals session).getD 0))
    else mapGet record.interval.totals session
  residual : ∀ record ∈ before,
    (change record).grossTokens + share (ledgerOf before) record.interval =
      record.grossTokens + share (ledgerOf after) (change record).interval

theorem Delivered.moved (d : Delivered precedes input result target next old new baseline)
    (keyed : Keyed input.records) :
    Moved input.phase input.sessionId input.cumulativeGrossTokens input.own
      (runRecords result input.feature input.runId) (settle target next old new) := by
  have same := d.samePlace
  obtain ⟨targetMember, targetPhase⟩ := target_ok d.found
  have phases : (input.own.map PhaseMeasurement.phase).Nodup := keyed.phases _ _
  have unique : input.own.Nodup := phases.of_map
  obtain ⟨after, allocated, alike⟩ := d.after_allocations keyed
  have afterUnique : (runRecords result input.feature input.runId).Nodup :=
    ((d.keyed keyed).phases input.feature input.runId).of_map
  constructor
  · exact d.own_result
  · exact settle_phase same
  · intro record
    exact congrArg (Option.getD · []) (stage_samePlace same record).startKey
  · intro record member
    have valid := (checkpointAllocations_ok d.reallocated).1 _ (List.mem_map_of_mem member)
    rw [settle, withGrossTokens_interval, PhaseMeasurement.interval, sessionTotals, List.map_map]
    exact hasValidCheckpointState_unique valid
  · intro record member session
    change mapGet (sessionTotals (stage target next record).contributorCheckpoints) session = _
    have shown := (nextTarget_ok (hasValidCheckpointState_unique
      ((checkpointAllocations_ok d.allocated).1 target targetMember)) d.staged).2 session
    by_cases here : record = target
    · rw [stage, if_pos here, shown, here]
      simp only [targetPhase, true_and]
      rfl
    · have elsewhere : ¬ (record.phase = input.phase ∧ session = input.sessionId) := by
        rintro ⟨phase, -⟩
        exact here (List.inj_on_of_nodup_map phases member targetMember (phase.trans targetPhase.symm))
      rw [stage, if_neg here, if_neg elsewhere]
      rfl
  · intro record member
    have kept := (d.residual_kept member).2
    have oldShare := (checkpointAllocations_ok d.allocated).2 unique record member
    have newShare := (checkpointAllocations_ok allocated).2 afterUnique
      (settle target next old new record) (by rw [d.own_result]; exact List.mem_map_of_mem member)
    rw [← oldShare, ← newShare, alike record member]
    exact kept

/-- Two deliveries of a run settle every phase at the same tokens, whichever comes first. -/
theorem moved_comm {phase other : RunPhase} {sessionId session : JsString} {total sum : Nat}
    {records first second firstSecond secondFirst : List PhaseMeasurement}
    {one two three four : PhaseMeasurement → PhaseMeasurement}
    (firstMoved : Moved phase sessionId total records first one)
    (thenSecond : Moved other session sum first firstSecond two)
    (secondMoved : Moved other session sum records second three)
    (thenFirst : Moved phase sessionId total second secondFirst four) :
    firstSecond.map (fun record => (record.phase, record.grossTokens)) =
      secondFirst.map fun record => (record.phase, record.grossTokens) := by
  have firstMember : ∀ record ∈ records, one record ∈ first := by
    intro record member
    rw [firstMoved.mapped]
    exact List.mem_map_of_mem member
  have secondMember : ∀ record ∈ records, three record ∈ second := by
    intro record member
    rw [secondMoved.mapped]
    exact List.mem_map_of_mem member
  have alike : ∀ record ∈ records,
      (two (one record)).interval.Same (four (three record)).interval := by
    intro record member
    refine ⟨?_, ?_⟩
    · rw [thenSecond.start, firstMoved.start, thenFirst.start, secondMoved.start]
    · apply perm_of_mapGet (thenSecond.keys _ (firstMember record member))
        (thenFirst.keys _ (secondMember record member))
      intro counter
      rw [thenSecond.totals _ (firstMember record member), firstMoved.totals record member,
        thenFirst.totals _ (secondMember record member), secondMoved.totals record member,
        firstMoved.samePhase, secondMoved.samePhase]
      by_cases isFirst : record.phase = phase ∧ counter = sessionId <;>
        by_cases isSecond : record.phase = other ∧ counter = session
      · simp only [if_pos isFirst, if_pos isSecond, Option.getD_some, Nat.max_left_comm]
      · simp only [if_pos isFirst, if_neg isSecond]
      · simp only [if_neg isFirst, if_pos isSecond]
      · simp only [if_neg isFirst, if_neg isSecond]
  have ledgers : List.Forall₂ Interval.Same (ledgerOf firstSecond) (ledgerOf secondFirst) := by
    rw [thenSecond.mapped, firstMoved.mapped, thenFirst.mapped, secondMoved.mapped]
    simp only [ledgerOf, List.map_map, List.forall₂_map_left_iff, List.forall₂_map_right_iff]
    exact List.forall₂_same.mpr alike
  rw [thenSecond.mapped, firstMoved.mapped, thenFirst.mapped, secondMoved.mapped]
  simp only [List.map_map]
  apply List.map_congr_left
  intro record member
  have left := firstMoved.residual record member
  have leftThen := thenSecond.residual _ (firstMember record member)
  have right := secondMoved.residual record member
  have rightThen := thenFirst.residual _ (secondMember record member)
  have shares := share_congr ledgers (alike record member)
  simp only [Function.comp, thenSecond.samePhase, firstMoved.samePhase, thenFirst.samePhase, secondMoved.samePhase,
    Prod.mk.injEq, true_and]
  omega

end Order

/-- An accepted checkpoint leaves other runs and every residual alone, accounts for the whole run
and changes nothing when delivered again; two checkpoints of a run, delivered in either order with
whatever totals the run then has, leave every phase with the same tokens. -/
theorem checkpoint_reconciliation {records : List PhaseMeasurement}
    (valid : ValidMeasurementSet precedes records) :
    (∀ input result, input.records = records →
      reconcileContributorCheckpoint precedes input = .ok result →
        List.Forall₂ (fun old new => ¬ input.isRun old → new = old) records result ∧
        (∃ before after,
          checkpointAllocations precedes (runRecords records input.feature input.runId) = .ok before ∧
          checkpointAllocations precedes (runRecords result input.feature input.runId) = .ok after ∧
          List.Forall₂ (fun old new => new.phase = old.phase ∧
              (new.grossTokens : Int) - after new = old.grossTokens - before old)
            (runRecords records input.feature input.runId)
            (runRecords result input.feature input.runId)) ∧
        (∃ baseline,
          earliestRunBaseline (runRecords result input.feature input.runId) = .ok baseline ∧
          baseline + ((runRecords result input.feature input.runId).map
            PhaseMeasurement.grossTokens).sum = input.expectedRunGrossTokens) ∧
        assertValidMeasurementSet precedes result = .ok () ∧
        reconcileContributorCheckpoint precedes { input with records := result } = .ok result) ∧
    ∀ (first second : ReconcileContributorCheckpointInput) (firstTotal secondTotal : Nat)
      (afterFirst afterBoth afterSecond afterBothReversed : List PhaseMeasurement),
      first.records = records → second.records = records →
      second.feature = first.feature → second.runId = first.runId →
      reconcileContributorCheckpoint precedes first = .ok afterFirst →
      reconcileContributorCheckpoint precedes { second with
        records := afterFirst, expectedRunGrossTokens := secondTotal } = .ok afterBoth →
      reconcileContributorCheckpoint precedes second = .ok afterSecond →
      reconcileContributorCheckpoint precedes { first with
        records := afterSecond, expectedRunGrossTokens := firstTotal } = .ok afterBothReversed →
      (runRecords afterBoth first.feature first.runId).map
          (fun record => (record.phase, record.grossTokens)) =
        (runRecords afterBothReversed first.feature first.runId).map
          fun record => (record.phase, record.grossTokens) := by
  constructor
  · rintro input result rfl done
    obtain ⟨target, next, old, new, baseline, d⟩ := (reconcile_ok_iff valid.keyed).mp done
    obtain ⟨after, allocated, alike⟩ := d.after_allocations valid.keyed
    refine ⟨?_, ⟨old, after, d.allocated, allocated, ?_⟩, ⟨baseline, d.earliest_result, d.total⟩,
      d.after, d.again valid.keyed⟩
    · rw [d.returned, List.forall₂_map_right_iff]
      exact List.forall₂_same.mpr fun record _ elsewhere => if_neg elsewhere
    · rw [d.own_result, List.forall₂_map_right_iff]
      refine List.forall₂_same.mpr fun record member => ⟨settle_phase d.samePlace record, ?_⟩
      have kept := d.residual_kept member
      rw [alike record member]
      omega
  · rintro first second firstTotal secondTotal afterFirst afterBoth afterSecond afterBothReversed
      rfl secondRecords feature runId deliveredFirst thenSecond deliveredSecond thenFirst
    have secondKeyed : Keyed second.records := by
      rw [secondRecords]
      exact valid.keyed
    obtain ⟨_, _, _, _, _, one⟩ := (reconcile_ok_iff valid.keyed).mp deliveredFirst
    obtain ⟨_, _, _, _, _, two⟩ := (reconcile_ok_iff (one.keyed valid.keyed)).mp thenSecond
    obtain ⟨_, _, _, _, _, three⟩ := (reconcile_ok_iff secondKeyed).mp deliveredSecond
    obtain ⟨_, _, _, _, _, four⟩ := (reconcile_ok_iff (three.keyed secondKeyed)).mp thenFirst
    have firstMoved := one.moved valid.keyed
    have secondThen := two.moved (one.keyed valid.keyed)
    have secondMoved := three.moved secondKeyed
    have firstThen := four.moved (three.keyed secondKeyed)
    have own : second.own = first.own := by
      rw [ReconcileContributorCheckpointInput.own, ReconcileContributorCheckpointInput.own,
        secondRecords, feature, runId]
    rw [own] at secondMoved
    simp only [ReconcileContributorCheckpointInput.own, feature, runId] at secondThen secondMoved firstThen
    exact moved_comm firstMoved secondThen secondMoved firstThen

section Example

def byCodeUnits (left right : JsString) : Prop :=
  left.map UInt16.toNat ≤ right.map UInt16.toNat

instance : DecidableRel byCodeUnits := fun _ _ => inferInstanceAs (Decidable (_ ≤ _))

def measuredPhase (phase : RunPhase) (startedAt : JsString) (closing : Option Closing)
    (baseline gross : Nat) (checkpoints : List ContributorCheckpoint) : PhaseMeasurement where
  feature := js "checkout"
  runId := js "run-1"
  phase := phase
  sessionId := js "s1"
  contributingSessionIds := [js "s1"]
  contributorCheckpoints := checkpoints
  correlationId := js "c1"
  startedAt := startedAt
  closing := closing
  baselineGrossTokens := baseline
  grossTokens := gross
  assignmentDigest := List.replicate 64 (unit 'a')
  resolvedAssignment :=
    { host := js "claude", role := .planner, model := js "opus", effort := js "high" }
  observedIdentity := { model := none, effort := none }
  updatedAt := startedAt

/-- One session worked on a product document and then on its specification. -/
def measuredRun : List PhaseMeasurement :=
  [measuredPhase .prd (js "2026-08-30T10:00:00Z")
      (some { endedAt := js "2026-08-30T11:00:00Z", durationMs := 3600000, finalGrossTokens := 100,
              closeReason := .phaseCompleted })
      0 100 [{ sessionId := js "s1", cumulativeGrossTokens := 100,
               occurredAt := js "2026-08-30T10:30:00Z" }],
    measuredPhase .spec (js "2026-08-30T12:00:00Z") none 100 50
      [{ sessionId := js "s1", cumulativeGrossTokens := 150,
         occurredAt := js "2026-08-30T12:30:00Z" }]]

def lateCheckpoint : ReconcileContributorCheckpointInput where
  records := measuredRun
  feature := js "checkout"
  runId := js "run-1"
  phase := .prd
  sessionId := js "s1"
  cumulativeGrossTokens := 120
  occurredAt := js "2026-08-30T10:50:00Z"
  claimContributor := false
  expectedRunGrossTokens := 150

def subagentCheckpoint : ReconcileContributorCheckpointInput where
  records := measuredRun
  feature := js "checkout"
  runId := js "run-1"
  phase := .spec
  sessionId := js "s2"
  cumulativeGrossTokens := 30
  occurredAt := js "2026-08-30T12:40:00Z"
  claimContributor := true
  expectedRunGrossTokens := 180

def reconciledOr (input : ReconcileContributorCheckpointInput) : List PhaseMeasurement :=
  (reconcileContributorCheckpoint byCodeUnits input).toOption.getD []

/-- A late checkpoint of the first phase and one of a new session commute; the late one moves
twenty tokens back to its phase. -/
theorem late_checkpoint_reconciled :
    reconcileContributorCheckpoint byCodeUnits { lateCheckpoint with
        records := reconciledOr lateCheckpoint } = .ok (reconciledOr lateCheckpoint) ∧
      (runRecords (reconciledOr { subagentCheckpoint with records := reconciledOr lateCheckpoint })
        lateCheckpoint.feature lateCheckpoint.runId).map
          (fun record => (record.phase, record.grossTokens)) =
      (runRecords (reconciledOr { lateCheckpoint with
          records := reconciledOr subagentCheckpoint, expectedRunGrossTokens := 180 })
        lateCheckpoint.feature lateCheckpoint.runId).map
          (fun record => (record.phase, record.grossTokens)) ∧
      (reconciledOr lateCheckpoint).map PhaseMeasurement.grossTokens = [120, 30] := by
  have valid : ValidMeasurementSet byCodeUnits measuredRun :=
    { counted := by decide +kernel
      meaningful := by decide +kernel
      keyed := by decide +kernel
      accepted := by decide +kernel }
  have claim := checkpoint_reconciliation valid
  refine ⟨(claim.1 lateCheckpoint _ rfl (by decide +kernel)).2.2.2.2, ?_, by decide +kernel⟩
  exact claim.2 lateCheckpoint subagentCheckpoint 180 180 (reconciledOr lateCheckpoint) _
    (reconciledOr subagentCheckpoint) _ rfl rfl rfl rfl (by decide +kernel) (by decide +kernel)
    (by decide +kernel) (by decide +kernel)

end Example

end Kratos.Measurements
