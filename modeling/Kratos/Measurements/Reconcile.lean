/- source: domain/measurements/index.ts
   digest: One checkpoint of one contributor delivered to the measurement records of a run. -/

import Kratos.Foundation.Runs
import Kratos.Measurements.Model

set_option autoImplicit false

namespace Kratos.Measurements

open Foundation.Text Foundation.Collections Foundation.Grouping

structure ReconcileContributorCheckpointInput where
  records : List PhaseMeasurement
  feature : JsString
  runId : JsString
  phase : RunPhase
  sessionId : JsString
  cumulativeGrossTokens : Nat
  occurredAt : JsString
  claimContributor : Bool
  expectedRunGrossTokens : Nat

def runRecords (records : List PhaseMeasurement) (feature runId : JsString) :
    List PhaseMeasurement :=
  records.filter fun record => decide (record.feature = feature ∧ record.runId = runId)

namespace ReconcileContributorCheckpointInput

def isRun (input : ReconcileContributorCheckpointInput) (record : PhaseMeasurement) : Prop :=
  record.feature = input.feature ∧ record.runId = input.runId

instance (input : ReconcileContributorCheckpointInput) : DecidablePred input.isRun :=
  fun _ => inferInstanceAs (Decidable (_ ∧ _))

/-- The record the checkpoint is for, once the delivery itself is found valid. -/
def target (input : ReconcileContributorCheckpointInput) :
    Except MeasurementError PhaseMeasurement :=
  let found := (runRecords input.records input.feature input.runId).find? fun record =>
    record.phase = input.phase
  match found, timestampOrderKey input.occurredAt, found.bind PhaseMeasurement.startKey with
  | some target, some occurredAt, some startedAt =>
      if occurredAt < startedAt ∨ isCount input.cumulativeGrossTokens = false ∨
          isCount input.expectedRunGrossTokens = false then .error .checkpointStateInvalid
      else .ok target
  | _, _, _ => .error .checkpointStateInvalid

/-- The delivered checkpoint as a record keeps it. -/
def checkpoint (input : ReconcileContributorCheckpointInput) : ContributorCheckpoint where
  sessionId := input.sessionId
  cumulativeGrossTokens := input.cumulativeGrossTokens
  occurredAt := input.occurredAt

variable (precedes : JsString → JsString → Prop) [DecidableRel precedes]

/-- The checkpoints with the delivered one in the place of the session's own. -/
def placed (input : ReconcileContributorCheckpointInput)
    (checkpoints : List ContributorCheckpoint) : List ContributorCheckpoint :=
  sortCheckpoints precedes
    ((checkpoints.filter fun checkpoint => checkpoint.sessionId ≠ input.sessionId) ++
      [input.checkpoint])

def claimed (input : ReconcileContributorCheckpointInput) (target : PhaseMeasurement) :
    Except MeasurementError PhaseMeasurement :=
  if input.claimContributor then addPhaseMeasurementContributor precedes target input.sessionId
  else .ok target

/-- The target with its contributor and, unless it has seen as much already, the checkpoint. -/
def nextTarget (input : ReconcileContributorCheckpointInput) (target : PhaseMeasurement) :
    Except MeasurementError PhaseMeasurement := do
  let claimed ← input.claimed precedes target
  let previous := claimed.contributorCheckpoints.find? fun checkpoint =>
    checkpoint.sessionId = input.sessionId
  if previous.any fun checkpoint =>
      decide (input.cumulativeGrossTokens ≤ checkpoint.cumulativeGrossTokens) then .ok claimed
  else do
    let updatedAt ← latestTimestamp claimed.updatedAt input.occurredAt
    .ok { claimed with
      contributorCheckpoints := input.placed precedes claimed.contributorCheckpoints,
      updatedAt := updatedAt }

end ReconcileContributorCheckpointInput

/-- What a record holds beyond its allocation; it stays with the record. -/
def residualOf (allocations : PhaseMeasurement → Nat) (record : PhaseMeasurement) :
    Except MeasurementError (RunPhase × Nat) :=
  let residual : Int := record.grossTokens - allocations record
  if isCount residual = false then .error .checkpointResidualInvalid
  else .ok (record.phase, residual.toNat)

/-- The record with its tokens, and the final total that follows when it is closed. -/
def PhaseMeasurement.withGrossTokens (record : PhaseMeasurement) (grossTokens : Nat) :
    PhaseMeasurement :=
  { record with
    grossTokens := grossTokens,
    closing := record.closing.map fun closing =>
      { closing with finalGrossTokens := addCounts record.baselineGrossTokens grossTokens } }

section Reconciliation

variable (precedes : JsString → JsString → Prop) [DecidableRel precedes]

def reconciledRecord (residualByPhase : List (RunPhase × Nat))
    (allocations : PhaseMeasurement → Nat) (record : PhaseMeasurement) :
    Except MeasurementError (RunPhase × PhaseMeasurement) :=
  let grossTokens := (mapGet residualByPhase record.phase).getD 0 + allocations record
  if isCount grossTokens = false then .error .checkpointResidualInvalid
  else
    let reconciled := record.withGrossTokens grossTokens
    if hasValidMeasurementSemantics precedes reconciled = false then .error .checkpointStateInvalid
    else .ok (record.phase, reconciled)

/-- Records are told apart by their values: no two of a valid set are of one run and phase. -/
def reconcileContributorCheckpoint (input : ReconcileContributorCheckpointInput) :
    Except MeasurementError (List PhaseMeasurement) := do
  assertValidMeasurementSet precedes input.records
  let ownRecords := runRecords input.records input.feature input.runId
  let target ← input.target
  let oldAllocations ← checkpointAllocations precedes ownRecords
  let residualByPhase ← ownRecords.mapM (residualOf oldAllocations)
  let nextTarget ← input.nextTarget precedes target
  if hasValidCheckpointState precedes nextTarget = false then .error .checkpointStateInvalid
  else do
    let staged := input.records.map fun record => if record = target then nextTarget else record
    let stagedRun := runRecords staged input.feature input.runId
    let newAllocations ← checkpointAllocations precedes stagedRun
    let reconciledByPhase ← stagedRun.mapM (reconciledRecord precedes residualByPhase newAllocations)
    let earliestBaseline ← earliestRunBaseline stagedRun
    let measurableGrossTokens : Int := input.expectedRunGrossTokens - earliestBaseline
    let reconciledGrossTokens := ((mapValues reconciledByPhase).map PhaseMeasurement.grossTokens).sum
    if isCount measurableGrossTokens = false ∨
        (reconciledGrossTokens : Int) ≠ measurableGrossTokens then
      .error .checkpointConservationUnprovable
    else do
      let reconciled := staged.map fun record =>
        if input.isRun record then (mapGet reconciledByPhase record.phase).getD record else record
      assertValidMeasurementSet precedes reconciled
      .ok reconciled

end Reconciliation

end Kratos.Measurements
